import Votechain.Client.Reducer
import Votechain.Theory.Run

/-!
# Reading blocks while the chain grows

`fetchBlocks` waits for the node first for the number of the head, and then in every turn of its
loop for a hash and for a block. Meanwhile the chain grows, and other calls of `fetchBlocks` go on.
Still a call brings what it would have brought at once when the node answered with the number of
the head, so the page always shows the chain as it was at some time.
-/

open Machine

namespace Votechain.Client

variable {Hash AccountId Args : Type} {hash : HumanBlock Args → Hash}

/-! ## The node -/

/-- A chain of blocks from number 0 on, with different hashes. -/
structure Chain (hash : HumanBlock Args → Hash) where
  blocks : List (HumanBlock Args)
  numbers : blocks.map HumanBlock.number = List.range blocks.length
  hashes : (blocks.map hash).Nodup
  ne_nil : blocks ≠ []

/-- The chain with one more block. -/
def Chain.grow (chain : Chain hash) (extrinsics : List (HumanExtrinsic Args))
    (h : hash ⟨chain.blocks.length, extrinsics⟩ ∉ chain.blocks.map hash) : Chain hash where
  blocks := chain.blocks ++ [⟨chain.blocks.length, extrinsics⟩]
  numbers := by simp [chain.numbers, List.range_succ]
  hashes := by
    rw [List.map_append, List.map_singleton, ← List.concat_eq_append]
    exact chain.hashes.concat h
  ne_nil := by simp

variable [DecidableEq Hash]

/-- What the node answers that has the blocks. -/
@[simps] def nodeApi (hash : HumanBlock Args → Hash) (blocks : List (HumanBlock Args)) :
    Api Hash Args where
  number := blocks.length - 1
  getBlockHash i := hash (blocks.getD i ⟨i, []⟩)
  getBlock blockHash := (blocks.find? (hash · = blockHash)).getD ⟨0, []⟩

namespace Chain

variable {chain : Chain hash} {block : HumanBlock Args} {i : Nat}

theorem getBlockHash_of_getElem? {blocks : List (HumanBlock Args)} (h : blocks[i]? = some block) :
    (nodeApi hash blocks).getBlockHash i = hash block := by
  rw [nodeApi_getBlockHash, List.getD_eq_getElem?_getD, h, Option.getD_some]

theorem getBlock_of_mem (h : block ∈ chain.blocks) :
    (nodeApi hash chain.blocks).getBlock (hash block) = block := by
  have hfind : chain.blocks.find? (hash · = hash block) = some block := by
    refine List.find?_eq_some_iff_append.mpr ⟨by simp, ?_⟩
    obtain ⟨l₁, l₂, hl⟩ := List.append_of_mem h
    refine ⟨l₁, l₂, hl, fun b hb => ?_⟩
    have hnodup := chain.hashes
    rw [hl, List.map_append, List.map_cons, List.nodup_middle, List.nodup_cons] at hnodup
    have hne : hash b ≠ hash block := fun heq => hnodup.1 <|
      List.mem_append_left _ (heq ▸ List.mem_map_of_mem hb)
    simpa using hne
  rw [nodeApi_getBlock, hfind, Option.getD_some]

omit [DecidableEq Hash] in
theorem getElem?_number (h : block ∈ chain.blocks) : chain.blocks[block.number]? = some block := by
  obtain ⟨i, hi⟩ := List.mem_iff_getElem?.mp h
  have hnumber := congrArg (fun l => l[i]?) chain.numbers
  have hlt := (List.getElem?_eq_some_iff.mp hi).1
  simp only [List.getElem?_map, hi, Option.map_some, List.getElem?_range hlt,
    Option.some.injEq] at hnumber
  rw [hnumber, hi]

theorem serves (chain : Chain hash) : Serves (nodeApi hash chain.blocks) chain.blocks where
  number := Nat.sub_add_cancel (List.length_pos_iff.mpr chain.ne_nil)
  numbers := chain.numbers
  getBlock block h := by
    rw [getBlockHash_of_getElem? (getElem?_number h)]
    exact getBlock_of_mem h

/-- `fetchBlocks` all at once. -/
theorem fetchBlocks_eq_take {call : Args → Option (CallFields Args)} (chain : Chain hash) :
    fetchBlocks call (nodeApi hash chain.blocks) =
      (chain.blocks.take (chain.blocks.length - 1)).flatMap fun block =>
        scanBlock call (hash block) block := by
  obtain ⟨init, head, hblocks⟩ := chain.serves.exists_head
  have hserves := chain.serves
  rw [hblocks] at hserves
  rw [hblocks, fetchBlocks_concat hserves, List.length_append, List.length_singleton,
    Nat.add_sub_cancel, List.take_left']
  · refine List.flatMap_congr fun block hb => ?_
    have hmem : block ∈ chain.blocks := by
      rw [hblocks]
      exact List.mem_append_left _ hb
    rw [← hblocks, getBlockHash_of_getElem? (getElem?_number hmem)]
  · rfl

end Chain

/-! ## Calls of `fetchBlocks` -/

/-- A call in its loop: the number of the head that it was given, the turn, the hash of the block of
that turn once the node has answered, and the rows so far. -/
structure Scan (Hash Args : Type) where
  blocksCount : Nat
  i : Nat
  blockHash : Option Hash
  tempBlocks : List (BlockEntry Hash Args)

/-- The chain of the node, the calls on their way, and the context. A call is `none` until it is
given the number of the head. -/
structure BlocksPage (hash : HumanBlock Args → Hash) (AccountId : Type) where
  chain : Chain hash
  scans : List (Option (Scan Hash Args))
  context : ContextState Hash AccountId Args

/-- A block arrives, `fetchBlocks` is called, the node answers a call with the number of the head,
or the node answers a call in its loop, or a call whose loop has ended dispatches its rows. -/
inductive BlocksEvent (Args : Type) where
  | block (extrinsics : List (HumanExtrinsic Args))
  | fetch
  | number (j : Nat)
  | advance (j : Nat)

namespace BlocksPage

variable (call : Args → Option (CallFields Args))

def mount (chain : Chain hash) (context : ContextState Hash AccountId Args) :
    BlocksPage hash AccountId := ⟨chain, [], context⟩

/-- The event happens, or it cannot happen and is answered with `false`. -/
def step : BlocksEvent Args → BlocksPage hash AccountId → Bool × BlocksPage hash AccountId
  | .block extrinsics, page =>
    if h : hash ⟨page.chain.blocks.length, extrinsics⟩ ∉ page.chain.blocks.map hash then
      (true, { page with chain := page.chain.grow extrinsics h })
    else
      (false, page)
  | .fetch, page => (true, { page with scans := page.scans ++ [none] })
  | .number j, page =>
    match page.scans[j]? with
    | some none =>
      let blocksCount := (nodeApi hash page.chain.blocks).number
      (true, { page with scans := page.scans.set j (some ⟨blocksCount, 0, none, []⟩) })
    | _ => (false, page)
  | .advance j, page =>
    let api := nodeApi hash page.chain.blocks
    match page.scans[j]? with
    | some (some scan) =>
      match scan.blockHash with
      | some blockHash =>
        let tempBlocks := scan.tempBlocks ++ scanBlock call blockHash (api.getBlock blockHash)
        (true, { page with
          scans := page.scans.set j (some ⟨scan.blocksCount, scan.i + 1, none, tempBlocks⟩) })
      | none =>
        if scan.i < scan.blocksCount then
          let blockHash := some (api.getBlockHash scan.i)
          (true, { page with scans := page.scans.set j (some { scan with blockHash }) })
        else
          (true, { page with
            scans := page.scans.eraseIdx j
            context := reducer page.context (.fetchBlocks scan.tempBlocks) })
    | _ => (false, page)

/-- What a call has read is what the chain has. -/
structure Follows (chain : Chain hash) (scan : Scan Hash Args) : Prop where
  blocksCount : scan.blocksCount < chain.blocks.length
  i : scan.i ≤ scan.blocksCount
  blockHash : ∀ h, scan.blockHash = some h → scan.i < scan.blocksCount ∧
    ∃ block, chain.blocks[scan.i]? = some block ∧ hash block = h
  tempBlocks : scan.tempBlocks = (chain.blocks.take scan.i).flatMap fun block =>
    scanBlock call (hash block) block

namespace Follows

variable {call} {chain chain' : Chain hash} {scan : Scan Hash Args}

theorem start : Follows call chain ⟨(nodeApi hash chain.blocks).number, 0, none, []⟩ where
  blocksCount := Nat.sub_lt (List.length_pos_iff.mpr chain.ne_nil) Nat.one_pos
  i := Nat.zero_le _
  blockHash := nofun
  tempBlocks := rfl

omit [DecidableEq Hash] in
/-- Later blocks make no difference. -/
theorem grow (h : Follows call chain scan) (hchain : chain.blocks <+: chain'.blocks) :
    Follows call chain' scan := by
  obtain ⟨rest, hrest⟩ := hchain
  have hlt := h.blocksCount
  have hi := h.i
  refine ⟨?_, h.i, fun h' hh => ?_, ?_⟩
  · rw [← hrest, List.length_append]
    omega
  · obtain ⟨hcount, block, hblock, hhash⟩ := h.blockHash h' hh
    refine ⟨hcount, block, ?_, hhash⟩
    rw [← hrest, List.getElem?_append_left (by omega), hblock]
  · rw [← hrest, List.take_append_of_le_length (by omega)]
    exact h.tempBlocks

/-- The node answers with the hash of the block. -/
theorem readHash (h : Follows call chain scan) (hi : scan.i < scan.blocksCount) :
    Follows call chain
      { scan with blockHash := some ((nodeApi hash chain.blocks).getBlockHash scan.i) } := by
  refine ⟨h.blocksCount, h.i, fun h' hh => ⟨hi, ?_⟩, h.tempBlocks⟩
  have hlt := h.blocksCount
  have hblock := List.getElem?_eq_getElem (l := chain.blocks) (i := scan.i) (by omega)
  refine ⟨_, hblock, ?_⟩
  cases hh
  exact (Chain.getBlockHash_of_getElem? hblock).symm

/-- The node answers with the block. -/
theorem readBlock (h : Follows call chain scan) {h' : Hash} (hh : scan.blockHash = some h') :
    Follows call chain ⟨scan.blocksCount, scan.i + 1, none,
      scan.tempBlocks ++ scanBlock call h' ((nodeApi hash chain.blocks).getBlock h')⟩ := by
  obtain ⟨hi, block, hblock, rfl⟩ := h.blockHash h' hh
  refine ⟨h.blocksCount, hi, nofun, ?_⟩
  have hmem : block ∈ chain.blocks := List.mem_of_getElem? hblock
  rw [Chain.getBlock_of_mem hmem, h.tempBlocks, List.take_add_one, hblock, List.flatMap_append]
  simp

/-- The rows of a call that is done. -/
theorem tempBlocks_eq (h : Follows call chain scan) (hi : ¬ scan.i < scan.blocksCount)
    {old : Chain hash} (hold : old.blocks <+: chain.blocks)
    (hlen : old.blocks.length = scan.blocksCount + 1) :
    scan.tempBlocks = fetchBlocks call (nodeApi hash old.blocks) := by
  obtain ⟨rest, hrest⟩ := hold
  have hle := h.i
  have hcount : scan.i = old.blocks.length - 1 := by omega
  rw [h.tempBlocks, old.fetchBlocks_eq_take, ← hrest, hcount,
    List.take_append_of_le_length (by omega)]

end Follows

/-! ## Runs -/

section
variable (chain : Chain hash) (context : ContextState Hash AccountId Args)
  (evs : List (BlocksEvent Args))

/-- The page after the events. -/
abbrev blocksPage : BlocksPage hash AccountId :=
  finalState (step call) (mount chain context) evs

/-- The node answers a call with the number of the head. -/
def Answers (page : BlocksPage hash AccountId) (ev : BlocksEvent Args) : Prop :=
  ∃ j, ev = .number j ∧ page.scans[j]? = some none

/-- What `fetchBlocks` would have brought at once, at some time in the events when a call was
given the number of the head. -/
def AtSomeAnswer (rows : List (BlockEntry Hash Args)) : Prop :=
  ∃ pre ev, pre ++ [ev] <+: evs ∧ Answers (blocksPage call chain context pre) ev ∧
    rows = fetchBlocks call (nodeApi hash (blocksPage call chain context pre).chain.blocks)

end

variable {call} {chain : Chain hash} {context : ContextState Hash AccountId Args}
  {evs : List (BlocksEvent Args)}

/-- The chain only grows. -/
theorem chain_grows_step (page : BlocksPage hash AccountId) (ev : BlocksEvent Args) :
    page.chain.blocks <+: (step call ev page).2.chain.blocks := by
  cases ev with
  | block extrinsics =>
    rw [step]
    split
    · exact List.prefix_append ..
    · exact List.prefix_rfl
  | fetch => exact List.prefix_rfl
  | number j =>
    rw [step]
    split <;> exact List.prefix_rfl
  | advance j =>
    rw [step]
    split
    · split
      · exact List.prefix_rfl
      · split <;> exact List.prefix_rfl
    · exact List.prefix_rfl

theorem chain_grows {pre : List (BlocksEvent Args)} (h : pre <+: evs) :
    (blocksPage call chain context pre).chain.blocks <+:
      (blocksPage call chain context evs).chain.blocks :=
  rel_of_prefix (r := fun s t : BlocksPage hash AccountId => s.chain.blocks <+: t.chain.blocks)
    (fun _ => List.prefix_rfl) (fun _ _ _ => List.IsPrefix.trans) chain_grows_step h

/-- The call has read what the chain has, and was given the number of the head at some time. -/
structure IsUnderway (call : Args → Option (CallFields Args)) (chain : Chain hash)
    (context : ContextState Hash AccountId Args) (evs : List (BlocksEvent Args))
    (scan : Scan Hash Args) : Prop where
  follows : Follows call (blocksPage call chain context evs).chain scan
  answered : ∃ pre ev, pre ++ [ev] <+: evs ∧ Answers (blocksPage call chain context pre) ev ∧
    (blocksPage call chain context pre).chain.blocks.length = scan.blocksCount + 1

namespace IsUnderway

variable {scan : Scan Hash Args}

theorem concat (h : IsUnderway call chain context evs scan) (ev : BlocksEvent Args) :
    IsUnderway call chain context (evs ++ [ev]) scan where
  follows := h.follows.grow (chain_grows (List.prefix_append ..))
  answered :=
    have ⟨pre, ev, hpre, hrest⟩ := h.answered
    ⟨pre, ev, hpre.trans (List.prefix_append ..), hrest⟩

/-- The call starts its loop. -/
theorem start {j : Nat} (hj : (blocksPage call chain context evs).scans[j]? = some none) :
    IsUnderway call chain context (evs ++ [.number j])
      ⟨(nodeApi hash (blocksPage call chain context evs).chain.blocks).number, 0, none, []⟩ where
  follows := Follows.start.grow (chain_grows (List.prefix_append ..))
  answered := by
    refine ⟨evs, _, List.prefix_rfl, ⟨j, rfl, hj⟩, ?_⟩
    exact (Nat.sub_add_cancel (List.length_pos_iff.mpr (Chain.ne_nil _))).symm

/-- The call goes on, with the number of the head that it was given. -/
theorem advance (h : IsUnderway call chain context evs scan) {scan' : Scan Hash Args}
    (hf : Follows call (blocksPage call chain context evs).chain scan')
    (hcount : scan'.blocksCount = scan.blocksCount) :
    IsUnderway call chain context evs scan' where
  follows := hf
  answered := hcount ▸ h.answered

/-- A call that is done brings what it would have brought at once. -/
theorem atSomeAnswer (h : IsUnderway call chain context evs scan)
    (hi : ¬ scan.i < scan.blocksCount) : AtSomeAnswer call chain context evs scan.tempBlocks := by
  obtain ⟨pre, ev, hpre, hanswers, hlen⟩ := h.answered
  refine ⟨pre, ev, hpre, hanswers, h.follows.tempBlocks_eq hi (chain_grows ?_) hlen⟩
  exact (List.prefix_append ..).trans hpre

end IsUnderway

theorem isUnderway_run (evs : List (BlocksEvent Args)) :
    ∀ scan, some scan ∈ (blocksPage call chain context evs).scans →
      IsUnderway call chain context evs scan := by
  induction evs using List.reverseRecOn with
  | nil => exact fun _ h => absurd h List.not_mem_nil
  | append_singleton evs ev ih =>
    intro scan hscan
    rw [blocksPage, finalState_concat] at hscan
    cases ev with
    | block extrinsics =>
      rw [step] at hscan
      split at hscan
      · exact (ih scan hscan).concat _
      · exact (ih scan hscan).concat _
    | fetch =>
      rcases List.mem_append.mp hscan with hscan | hscan
      · exact (ih scan hscan).concat _
      · cases List.mem_singleton.mp hscan
    | number j =>
      rw [step] at hscan
      split at hscan
      · rename_i hj
        rcases List.mem_or_eq_of_mem_set hscan with hscan | hscan
        · exact (ih scan hscan).concat _
        · cases hscan
          exact .start hj
      · exact (ih scan hscan).concat _
    | advance j =>
      rw [step] at hscan
      split at hscan
      · rename_i old hold
        have hunder := ih old (List.mem_of_getElem? hold)
        split at hscan
        · rename_i h' hh
          rcases List.mem_or_eq_of_mem_set hscan with hscan | hscan
          · exact (ih scan hscan).concat _
          · cases hscan
            exact (hunder.advance (hunder.follows.readBlock hh) rfl).concat _
        · split at hscan
          · rename_i hi
            rcases List.mem_or_eq_of_mem_set hscan with hscan | hscan
            · exact (ih scan hscan).concat _
            · cases hscan
              exact (hunder.advance (hunder.follows.readHash hi) rfl).concat _
          · exact (ih scan (List.mem_of_mem_eraseIdx hscan)).concat _
      · exact (ih scan hscan).concat _

/-- However the turns of several calls of `fetchBlocks` and the arrival of blocks interleave, the
page shows what it showed when it opened, or what `fetchBlocks` would have brought at once at some
time when a call was given the number of the head. -/
theorem blocksPage_shows (call : Args → Option (CallFields Args)) (chain : Chain hash)
    (context : ContextState Hash AccountId Args) (evs : List (BlocksEvent Args)) :
    (blocksPage call chain context evs).context.blocks = context.blocks ∨
      AtSomeAnswer call chain context evs (blocksPage call chain context evs).context.blocks := by
  induction evs using List.reverseRecOn with
  | nil => exact .inl rfl
  | append_singleton evs ev ih =>
    -- a slot that is left alone holds rows of an earlier call
    have hold : (blocksPage call chain context evs).context.blocks = context.blocks ∨
        AtSomeAnswer call chain context (evs ++ [ev])
          (blocksPage call chain context evs).context.blocks :=
      ih.imp_right fun ⟨pre, ev, hpre, hrest⟩ =>
        ⟨pre, ev, hpre.trans (List.prefix_append ..), hrest⟩
    rw [blocksPage, finalState_concat]
    cases ev with
    | block extrinsics =>
      rw [step]
      split <;> exact hold
    | fetch => exact hold
    | number j =>
      rw [step]
      split <;> exact hold
    | advance j =>
      rw [step]
      split
      · rename_i scan hscan
        split
        · exact hold
        · split
          · exact hold
          · rename_i hi
            obtain ⟨pre, ev, hpre, hrest⟩ :=
              (isUnderway_run evs scan (List.mem_of_getElem? hscan)).atSomeAnswer hi
            exact .inr ⟨pre, ev, hpre.trans (List.prefix_append ..), hrest⟩
      · exact hold

end BlocksPage

end Votechain.Client
