import Mathlib.Data.List.Basic
import Mathlib.Data.List.Flatten
import Mathlib.Data.List.Induction

/-!
# The blocks page

`fetchBlocks` of `VotechainContext` lists the signed extrinsics of the chain. It reads the blocks
below the number of the head, and skips a block with one extrinsic. A call that wraps another one,
as `sudo` does, has it among its arguments, and is listed as the call it wraps. Of what stands there
only the three fields are read, so a call of the scheduler or of the multisig pallet, whose argument
of that name need not print as a call, has a row in which they are undefined. Numbers, hashes and
signatures stand for their printed forms.
-/

namespace Votechain.Client

variable {Hash Args : Type}

/-- A printed call. -/
structure HumanCall (Args : Type) where
  sectionName : String
  method : String
  args : Args
  deriving DecidableEq

/-- What the fields of a call are, as far as a value has them. -/
@[ext] structure CallFields (Args : Type) where
  sectionName : Option String
  method : Option String
  args : Option Args
  deriving DecidableEq

/-- A printed extrinsic. A signer that is not given by its id has none. -/
inductive HumanExtrinsic (Args : Type) where
  | unsigned (method : HumanCall Args)
  | signed (nonce : Nat) (signerId : Option String) (signature : String) (method : HumanCall Args)
  deriving DecidableEq

def HumanExtrinsic.isSigned : HumanExtrinsic Args → Bool
  | .signed .. => true
  | .unsigned _ => false

/-- A printed block: the number in its header, and its extrinsics. -/
structure HumanBlock (Args : Type) where
  number : Nat
  extrinsics : List (HumanExtrinsic Args)
  deriving DecidableEq

/-- What the client asks the node: the number of the head, the hash of a block by its number, and
a block by its hash. -/
structure Api (Hash Args : Type) where
  number : Nat
  getBlockHash : Nat → Hash
  getBlock : Hash → HumanBlock Args

/-- A row of the blocks page. -/
structure BlockEntry (Hash Args : Type) where
  blockNum : Nat
  blockHash : Hash
  nonce : Nat
  signerId : Option String
  signature : String
  sectionName : Option String
  method : Option String
  args : Option Args
  deriving DecidableEq

/-- `call` is the field of that name of the arguments of a call, unless it is missing or empty. -/
def fetchBlocks (call : Args → Option (CallFields Args)) (api : Api Hash Args) :
    List (BlockEntry Hash Args) := Id.run do
  let blocksCount := api.number
  let mut tempBlocks := []
  for i in List.range blocksCount do
    let blockHash := api.getBlockHash i
    let ⟨blockNum, extrinsics⟩ := api.getBlock blockHash
    if extrinsics.length > 1 then
      for ex in extrinsics do
        match ex with
        | .signed nonce signerId signature ⟨sectionName, method, args⟩ =>
          match call args with
          | some call =>
            tempBlocks := tempBlocks ++ [{
              blockNum, blockHash, nonce, signerId, signature
              sectionName := call.sectionName, method := call.method, args := call.args }]
          | none =>
            tempBlocks := tempBlocks ++ [{
              blockNum, blockHash, nonce, signerId, signature, sectionName, method, args }]
        | .unsigned _ => pure ()
  return tempBlocks

/-! ## The signed extrinsics -/

def HumanCall.fields (method : HumanCall Args) : CallFields Args :=
  ⟨method.sectionName, method.method, method.args⟩

/-- The value is a printed call. -/
def CallFields.IsCall (fields : CallFields Args) : Prop :=
  fields.sectionName.isSome ∧ fields.method.isSome ∧ fields.args.isSome

instance (fields : CallFields Args) : Decidable fields.IsCall := inferInstanceAs (Decidable (_ ∧ _))

theorem HumanCall.isCall_fields (method : HumanCall Args) : method.fields.IsCall := ⟨rfl, rfl, rfl⟩

variable (call : Args → Option (CallFields Args))

/-- What `fetchBlocks` copies. -/
def copiedFields (method : HumanCall Args) : CallFields Args :=
  (call method.args).getD method.fields

/-- The call that is wrapped, where there is one, and else the call itself. -/
def shownFields (method : HumanCall Args) : CallFields Args :=
  match call method.args with
  | some fields => if fields.IsCall then fields else method.fields
  | none => method.fields

/-- The row of an extrinsic. -/
def blockEntry (shown : HumanCall Args → CallFields Args) (blockNum : Nat) (blockHash : Hash) :
    HumanExtrinsic Args → Option (BlockEntry Hash Args)
  | .signed nonce signerId signature method =>
    let ⟨sectionName, method, args⟩ := shown method
    some ⟨blockNum, blockHash, nonce, signerId, signature, sectionName, method, args⟩
  | .unsigned _ => none

/-- The rows of a block. -/
def blockEntries (shown : HumanCall Args → CallFields Args) (blockHash : Hash)
    (block : HumanBlock Args) : List (BlockEntry Hash Args) :=
  block.extrinsics.filterMap (blockEntry shown block.number blockHash)

/-- The rows of the block that `fetchBlocks` adds. -/
def scanBlock (blockHash : Hash) (block : HumanBlock Args) : List (BlockEntry Hash Args) :=
  if block.extrinsics.length > 1 then blockEntries (copiedFields call) blockHash block else []

variable {call}

/-- A loop that only appends. -/
theorem forIn_append {α β : Type} {l : List α} {f : α → List β}
    {body : α → List β → Id (ForInStep (List β))}
    (h : ∀ x acc, body x acc = pure (.yield (acc ++ f x))) (acc : List β) :
    forIn l acc body = pure (acc ++ l.flatMap f) := by
  induction l generalizing acc with
  | nil => simp
  | cons x l ih =>
    rw [List.forIn_cons, h, pure_bind, List.flatMap_cons, ← List.append_assoc]
    exact ih _

theorem fetchBlocks_eq (api : Api Hash Args) : fetchBlocks call api =
    (List.range api.number).flatMap fun i =>
      scanBlock call (api.getBlockHash i) (api.getBlock (api.getBlockHash i)) := by
  refine congrArg Id.run (forIn_append (fun i acc => ?_) [])
  simp only [scanBlock, blockEntries, List.filterMap_eq_flatMap_toList, bind_pure_comp]
  split
  · refine congrArg (ForInStep.yield <$> ·) (forIn_append (fun ex acc => ?_) acc)
    cases ex with
    | unsigned method => simp [blockEntry]
    | signed nonce signerId signature method =>
      cases hc : call method.args <;> simp [blockEntry, copiedFields, HumanCall.fields, hc]
  · rw [List.append_nil]

/-! ## The chain -/

/-- The node serves the chain of the blocks from 0 to the head. -/
structure Serves (api : Api Hash Args) (chain : List (HumanBlock Args)) : Prop where
  number : api.number + 1 = chain.length
  numbers : chain.map HumanBlock.number = List.range chain.length
  getBlock : ∀ block ∈ chain, api.getBlock (api.getBlockHash block.number) = block

/-- The rows of all signed extrinsics of the chain. -/
def chainEntries (call : Args → Option (CallFields Args)) (api : Api Hash Args)
    (chain : List (HumanBlock Args)) : List (BlockEntry Hash Args) :=
  chain.flatMap fun block =>
    blockEntries (shownFields call) (api.getBlockHash block.number) block

/-- If the extrinsic is signed, a field `call` of its arguments is a printed call. -/
def HumanExtrinsic.PrintsCall (call : Args → Option (CallFields Args)) :
    HumanExtrinsic Args → Prop
  | .signed _ _ _ method => ∀ fields ∈ call method.args, fields.IsCall
  | .unsigned _ => True

instance (call : Args → Option (CallFields Args)) :
    (ex : HumanExtrinsic Args) → Decidable (ex.PrintsCall call)
  | .signed _ _ _ method => inferInstanceAs (Decidable (∀ fields ∈ call method.args, _))
  | .unsigned _ => inferInstanceAs (Decidable True)

namespace HumanBlock

variable (block : HumanBlock Args)

/-- The first extrinsic is an unsigned one, as the inherents of a block are. -/
def StartsUnsigned : Prop := block.extrinsics.head?.map HumanExtrinsic.isSigned = some false

/-- The block has a signed extrinsic. -/
def HasSigned : Prop := ∃ ex ∈ block.extrinsics, ex.isSigned = true

/-- The only extrinsic of the block is signed. -/
def IsLoneSigned : Prop := block.extrinsics.length = 1 ∧ block.HasSigned

instance : Decidable block.StartsUnsigned := inferInstanceAs (Decidable (_ = _))

instance : Decidable block.HasSigned := inferInstanceAs (Decidable (∃ ex ∈ _, _))

instance : Decidable block.IsLoneSigned := inferInstanceAs (Decidable (_ ∧ _))

end HumanBlock

variable {api : Api Hash Args} {chain : List (HumanBlock Args)} {block : HumanBlock Args}
  {blockHash : Hash} {shown shown' : HumanCall Args → CallFields Args} {blockNum : Nat}
  {ex : HumanExtrinsic Args}

theorem copiedFields_eq_iff {method : HumanCall Args} :
    copiedFields call method = shownFields call method ↔
      ∀ fields ∈ call method.args, fields.IsCall := by
  cases hc : call method.args with
  | none => simp [copiedFields, shownFields, hc]
  | some fields =>
    by_cases hcall : fields.IsCall
    · simp [copiedFields, shownFields, hc, hcall]
    · have hne : fields ≠ method.fields := fun h => hcall (h ▸ method.isCall_fields)
      simp [copiedFields, shownFields, hc, hcall, hne]

theorem isSome_blockEntry : (blockEntry shown blockNum blockHash ex).isSome = ex.isSigned := by
  cases ex <;> rfl

theorem blockEntry_eq_iff : blockEntry (copiedFields call) blockNum blockHash ex =
    blockEntry (shownFields call) blockNum blockHash ex ↔ ex.PrintsCall call := by
  cases ex with
  | unsigned method => exact iff_of_true rfl trivial
  | signed nonce signerId signature method =>
    refine Iff.trans ?_ copiedFields_eq_iff
    simp [blockEntry, CallFields.ext_iff]

theorem blockEntries_eq_nil_iff :
    blockEntries shown blockHash block = [] ↔ ¬ block.HasSigned := by
  rw [blockEntries, List.filterMap_eq_nil_iff, HumanBlock.HasSigned]
  simp only [← Option.not_isSome_iff_eq_none, isSome_blockEntry, not_exists, not_and]

/-- Rows that are there for the same elements agree exactly if those of each element do. -/
theorem filterMap_eq_iff {α β : Type} {f g : α → Option β} {l : List α}
    (h : ∀ x, (f x).isSome = (g x).isSome) :
    l.filterMap f = l.filterMap g ↔ ∀ x ∈ l, f x = g x := by
  induction l with
  | nil => simp
  | cons x l ih =>
    have hx := h x
    rw [List.forall_mem_cons, ← ih]
    cases hf : f x with
    | none =>
      have hg : g x = none := by simpa [hf] using hx
      simp [hf, hg]
    | some y =>
      obtain ⟨z, hg⟩ : ∃ z, g x = some z := Option.isSome_iff_exists.mp (by simp [← hx, hf])
      simp [hf, hg]

theorem blockEntries_eq_iff : blockEntries (copiedFields call) blockHash block =
    blockEntries (shownFields call) blockHash block ↔
      ∀ ex ∈ block.extrinsics, ex.PrintsCall call := by
  simp only [blockEntries, filterMap_eq_iff fun _ => isSome_blockEntry.trans isSome_blockEntry.symm,
    blockEntry_eq_iff]

theorem length_blockEntries : (blockEntries shown blockHash block).length =
    (blockEntries shown' blockHash block).length := by
  simp only [blockEntries, List.length_filterMap_eq_countP, isSome_blockEntry]

theorem length_scanBlock_le : (scanBlock call blockHash block).length ≤
    (blockEntries shown blockHash block).length := by
  rw [scanBlock]
  split
  · exact Nat.le_of_eq length_blockEntries
  · exact Nat.zero_le _

theorem HumanExtrinsic.PrintsCall.of_unsigned (h : ¬ ex.isSigned) : ex.PrintsCall call := by
  cases ex with
  | unsigned method => trivial
  | signed nonce signerId signature method => exact absurd rfl h

/-- A block is skipped to a loss exactly if its only extrinsic is signed. -/
theorem scanBlock_eq_iff : scanBlock call blockHash block =
    blockEntries (shownFields call) blockHash block ↔
      ¬ block.IsLoneSigned ∧ ∀ ex ∈ block.extrinsics, ex.PrintsCall call := by
  rw [scanBlock]
  split
  · rename_i hlen
    refine blockEntries_eq_iff.trans (iff_and_self.mpr fun _ h => ?_)
    simp [h.1] at hlen
  · rename_i hlen
    rw [eq_comm, blockEntries_eq_nil_iff]
    constructor
    · intro hs
      exact ⟨fun h => hs h.2, fun ex hex => .of_unsigned fun h => hs ⟨ex, hex, h⟩⟩
    · rintro ⟨hlone, -⟩ hs
      obtain ⟨ex, hex, _⟩ := id hs
      have := List.length_pos_of_mem hex
      exact hlone ⟨by omega, hs⟩

/-- A block that starts with an inherent is not skipped to a loss. -/
theorem HumanBlock.StartsUnsigned.not_isLoneSigned (h : block.StartsUnsigned) :
    ¬ block.IsLoneSigned := by
  rintro ⟨hlen, ex, hex, hs⟩
  obtain ⟨y, hy⟩ := List.length_eq_one_iff.mp hlen
  rw [hy, List.mem_singleton] at hex
  simp [HumanBlock.StartsUnsigned, hy, ← hex, hs] at h

/-- The rows of the blocks that were read, each by the number it has in the chain. -/
theorem flatMap_range_eq {α β : Type} {l : List α} {f : Nat → List β} {g : α → List β}
    (h : ∀ i x, l[i]? = some x → f i = g x) : (List.range l.length).flatMap f = l.flatMap g := by
  induction l using List.reverseRecOn with
  | nil => rfl
  | append_singleton l x ih =>
    have ih := ih fun i y hy => h i y <| by
      rw [List.getElem?_append_left (List.getElem?_eq_some_iff.mp hy).1, hy]
    rw [List.length_append, List.length_singleton, List.range_succ, List.flatMap_append,
      List.flatMap_append, ih, List.flatMap_singleton, List.flatMap_singleton, h]
    simp

theorem Serves.exists_head (hs : Serves api chain) : ∃ init head, chain = init ++ [head] := by
  rcases List.eq_nil_or_concat' chain with rfl | h
  · cases hs.number
  · exact h

theorem Serves.number_eq {init rest : List (HumanBlock Args)} (hs : Serves api (init ++ rest))
    (hb : init[i]? = some block) : block.number = i := by
  have hnum := congrArg (fun l => l[i]?) hs.numbers
  have hlt := (List.getElem?_eq_some_iff.mp hb).1
  simp only [List.getElem?_map, List.getElem?_append_left hlt, hb] at hnum
  simpa [Nat.lt_add_right _ hlt] using hnum

/-- `fetchBlocks` reads the blocks before the head. -/
theorem fetchBlocks_concat {init : List (HumanBlock Args)} {head : HumanBlock Args}
    (hs : Serves api (init ++ [head])) : fetchBlocks call api =
    init.flatMap fun block => scanBlock call (api.getBlockHash block.number) block := by
  have hlen : api.number = init.length := by
    have := hs.number
    rw [List.length_append, List.length_singleton] at this
    omega
  rw [fetchBlocks_eq, hlen]
  refine flatMap_range_eq fun i block hb => ?_
  rw [← hs.number_eq hb, hs.getBlock block (List.mem_append_left _ (List.mem_of_getElem? hb))]

/-- Nothing but signed extrinsics of the chain is listed, each at most once and in order. -/
theorem fetchBlocks_sublist (hs : Serves api chain) : (fetchBlocks call api).Sublist <|
    chain.flatMap fun block =>
      blockEntries (copiedFields call) (api.getBlockHash block.number) block := by
  obtain ⟨init, head, rfl⟩ := hs.exists_head
  rw [fetchBlocks_concat hs, List.flatMap_append]
  refine (List.Sublist.flatMap_right init fun block _ => ?_).trans (List.sublist_append_left ..)
  rw [scanBlock]
  split
  · exact .refl _
  · exact List.nil_sublist _

theorem length_flatMap_le {α β : Type} {f g : α → List β} {l : List α}
    (h : ∀ x ∈ l, (f x).length ≤ (g x).length) :
    (l.flatMap f).length ≤ (l.flatMap g).length := by
  induction l with
  | nil => exact Nat.le_refl _
  | cons x l ih =>
    obtain ⟨hx, hl⟩ := List.forall_mem_cons.mp h
    simpa only [List.flatMap_cons, List.length_append] using Nat.add_le_add hx (ih hl)

/-- What one element loses is not made up for by the others. -/
theorem flatMap_eq_append_iff {α β : Type} {f g : α → List β} {l : List α} {r : List β}
    (h : ∀ x ∈ l, (f x).length ≤ (g x).length) :
    l.flatMap f = l.flatMap g ++ r ↔ (∀ x ∈ l, f x = g x) ∧ r = [] := by
  constructor
  · intro heq
    induction l with
    | nil => exact ⟨nofun, by simpa using heq.symm⟩
    | cons x l ih =>
      obtain ⟨hx, hl⟩ := List.forall_mem_cons.mp h
      have hle := length_flatMap_le hl
      have hlen := congrArg List.length heq
      simp only [List.flatMap_cons, List.append_assoc, List.length_append] at heq hlen
      obtain ⟨hfx, hrest⟩ := List.append_inj heq (by omega)
      obtain ⟨hfl, hr⟩ := ih hl hrest
      exact ⟨List.forall_mem_cons.mpr ⟨hfx, hfl⟩, hr⟩
  · rintro ⟨hfg, rfl⟩
    rw [List.append_nil, List.flatMap_congr hfg]

/-- On a chain whose blocks after block 0 start with an inherent, the page lists every signed
extrinsic exactly if the head has none, block 0, where it is not the head, is not a single signed
extrinsic, and no signed extrinsic has an argument `call` that does not print as a call. -/
theorem fetchBlocks_eq_iff (call : Args → Option (CallFields Args)) (api : Api Hash Args)
    (chain : List (HumanBlock Args)) (hs : Serves api chain)
    (hin : ∀ block ∈ chain.tail, block.StartsUnsigned) :
    fetchBlocks call api = chainEntries call api chain ↔
      (∀ block ∈ chain.getLast?, ¬ block.HasSigned) ∧
      (1 < chain.length → ∀ block ∈ chain.head?, ¬ block.IsLoneSigned) ∧
      ∀ block ∈ chain, ∀ ex ∈ block.extrinsics, ex.PrintsCall call := by
  obtain ⟨init, head, rfl⟩ := hs.exists_head
  rw [fetchBlocks_concat hs, chainEntries, List.flatMap_append, List.flatMap_singleton,
    flatMap_eq_append_iff fun _ _ => length_scanBlock_le, blockEntries_eq_nil_iff]
  simp only [scanBlock_eq_iff, forall_and]
  have hlone : (∀ block ∈ init, ¬ block.IsLoneSigned) ↔
      (1 < (init ++ [head]).length →
        ∀ block ∈ (init ++ [head]).head?, ¬ block.IsLoneSigned) := by
    cases init with
    | nil => simp
    | cons block₀ init =>
      have htail : ∀ block ∈ init, ¬ block.IsLoneSigned := fun block hb =>
        (hin block (List.mem_append_left _ hb)).not_isLoneSigned
      simp [and_iff_left htail]
  rw [← hlone]
  simp only [List.getLast?_concat, Option.mem_some_iff, forall_eq', List.forall_mem_append,
    List.forall_mem_singleton]
  constructor
  · rintro ⟨⟨hfirst, hcalls⟩, hlast⟩
    refine ⟨hlast, hfirst, hcalls, fun ex hex => .of_unsigned fun h => hlast ⟨ex, hex, h⟩⟩
  · rintro ⟨hlast, hfirst, hcalls, -⟩
    exact ⟨⟨hfirst, hcalls⟩, hlast⟩

/-- Block 1 has an election that is created through `sudo`, and is not the head. -/
theorem fetchBlocks_eq_sudo :
    let create : CallFields String := ⟨"votechain", "createElection", "board"⟩
    let call (args : String) := if args = "call" then some create else none
    let inherent : HumanExtrinsic String := .unsigned ⟨"timestamp", "set", "now"⟩
    let signed : HumanExtrinsic String := .signed 0 (some "Alice") "0x" ⟨"sudo", "sudo", "call"⟩
    let chain := [⟨0, []⟩, ⟨1, [inherent, signed]⟩, ⟨2, [inherent]⟩]
    let api : Api Nat String := ⟨2, id, fun i => chain.getD i ⟨i, []⟩⟩
    fetchBlocks call api = chainEntries call api chain := by
  intro create call inherent signed chain api
  refine (fetchBlocks_eq_iff call api chain ?_ ?_).mpr ?_
  · exact ⟨by decide, by decide, by decide⟩
  · decide
  · decide

/-- A vote in the head is missed. -/
theorem fetchBlocks_ne :
    let call (_ : String) : Option (CallFields String) := none
    let inherent : HumanExtrinsic String := .unsigned ⟨"timestamp", "set", "now"⟩
    let signed : HumanExtrinsic String :=
      .signed 0 (some "Alice") "0x" ⟨"votechain", "createVote", "vote"⟩
    let chain := [⟨0, []⟩, ⟨1, [inherent, signed]⟩]
    let api : Api Nat String := ⟨1, id, fun i => chain.getD i ⟨i, []⟩⟩
    Serves api chain ∧ (∀ block ∈ chain.tail, block.StartsUnsigned) ∧
      fetchBlocks call api ≠ chainEntries call api chain := by
  exact ⟨⟨by decide, by decide, by decide⟩, by decide, by decide⟩

end Votechain.Client
