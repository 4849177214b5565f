import Votechain.Theory.Rearrangement
import Votechain.Pallet.Mock
import Votechain.Verify.Reachable

/-!
# The order of the votes

What a sequence of votes does depends on the storage it starts in and on the first vote of each
account in each election. The later votes of the account in the election are refused, and the
first one is treated as it would be alone. So votes may change places as long as those of one
account in one election keep their order.
-/

open Frame Machine History
open StorageMap (get_adjust)

namespace Votechain

variable {Hash AccountId : Type}

namespace Vote

/-- The signed call that casts the vote. -/
def extrinsic (v : Vote Hash AccountId) : Extrinsic Hash AccountId :=
  ⟨.signed v.author, .createVote v.candidateId v.electionId⟩

/-- Who votes, and in which election. -/
def voter (v : Vote Hash AccountId) : AccountId × Hash := (v.author, v.electionId)

end Vote

theorem voter_eq_iff {v w : Vote Hash AccountId} :
    w.voter = v.voter ↔ w.author = v.author ∧ w.electionId = v.electionId :=
  Prod.mk.injEq .. ▸ Iff.rfl

variable [DecidableEq Hash]

/-- Storage that agrees up to the order of the ballots. -/
structure SameUpToOrder (s s' : Storage Hash AccountId) : Prop where
  elections : s.elections = s'.elections
  electionCandidates : s.electionCandidates = s'.electionCandidates
  candidates : s.candidates = s'.candidates
  electionVotes : ∀ e, Option.Rel List.Perm (s.electionVotes.get e) (s'.electionVotes.get e)
  candidateVotes : ∀ k, Option.Rel List.Perm (s.candidateVotes.get k) (s'.candidateVotes.get k)

/-- `s'` is `s` with the ballots added to the lists of their elections and candidates. -/
structure Adds (s : Storage Hash AccountId) (l : List (Vote Hash AccountId))
    (s' : Storage Hash AccountId) : Prop where
  elections : s'.elections = s.elections
  electionCandidates : s'.electionCandidates = s.electionCandidates
  candidates : s'.candidates = s.candidates
  electionVotes : ∀ e, s'.electionVotes.get e =
    (s.electionVotes.get e).map (· ++ l.filter fun v => v.electionId = e)
  candidateVotes : ∀ k, s'.candidateVotes.get k =
    (s.candidateVotes.get k).map (· ++ l.filter fun v => v.candidateId = k)

variable {s s₁ s₂ : Storage Hash AccountId} {l l₁ l₂ : List (Vote Hash AccountId)}
  {v w : Vote Hash AccountId}

namespace Adds

theorem nil : Adds s [] s := by
  constructor <;> simp

theorem hasTally_iff (h : Adds s l s₁) : s₁.HasTally k ↔ s.HasTally k := by
  rw [Storage.HasTally, Storage.HasTally, ← Option.isSome_iff_exists, ← Option.isSome_iff_exists,
    h.candidateVotes k, Option.isSome_map]

/-- Added in another order, the ballots make the same storage up to order. -/
theorem sameUpToOrder (h₁ : Adds s l₁ s₁) (h₂ : Adds s l₂ s₂) (hl : l₁.Perm l₂) :
    SameUpToOrder s₁ s₂ where
  elections := h₁.elections.trans h₂.elections.symm
  electionCandidates := h₁.electionCandidates.trans h₂.electionCandidates.symm
  candidates := h₁.candidates.trans h₂.candidates.symm
  electionVotes e := by
    rw [h₁.electionVotes e, h₂.electionVotes e]
    cases s.electionVotes.get e with
    | none => exact .none
    | some l => exact .some ((hl.filter _).append_left l)
  candidateVotes k := by
    rw [h₁.candidateVotes k, h₂.candidateVotes k]
    cases s.candidateVotes.get k with
    | none => exact .none
    | some l => exact .some ((hl.filter _).append_left l)

/-- A list of a map takes one more ballot of its key. -/
theorem get_adjust_concat {m m' : StorageMap Hash (List (Vote Hash AccountId))}
    {key : Vote Hash AccountId → Hash}
    (h : ∀ e, m'.get e = (m.get e).map (· ++ l.filter fun v => key v = e)) (e : Hash) :
    (m'.adjust (key v) (· ++ [v])).get e =
      (m.get e).map (· ++ (l ++ [v]).filter fun v => key v = e) := by
  rw [get_adjust, h e, List.filter_append]
  split
  · rename_i he
    have hv : [v].filter (fun v => key v = e) = [v] := by simp [he]
    rw [Option.map_map, hv]
    simp [Function.comp_def]
  · rename_i he
    have hv : [v].filter (fun v => key v = e) = [] := by simpa using Ne.symm he
    rw [hv, List.append_nil]

/-- A map without a list of the key stays as it is. -/
theorem get_concat_of_none {m m' : StorageMap Hash (List (Vote Hash AccountId))}
    {key : Vote Hash AccountId → Hash}
    (h : ∀ e, m'.get e = (m.get e).map (· ++ l.filter fun v => key v = e))
    (hn : m.get (key v) = none) (e : Hash) :
    m'.get e = (m.get e).map (· ++ (l ++ [v]).filter fun v => key v = e) := by
  rw [h e, List.filter_append]
  by_cases he : key v = e
  · rw [← he, hn]; rfl
  · have hv : [v].filter (fun v => key v = e) = [] := by simpa using he
    rw [hv, List.append_nil]

end Adds

variable [DecidableEq AccountId] {T : Config Hash} {vs ws : List (Vote Hash AccountId)}

/-! ## What votes record -/

/-- The ballots that the votes record in the storage `s`. -/
def recorded (s : Storage Hash AccountId) (vs : List (Vote Hash AccountId)) :
    List (Vote Hash AccountId) :=
  (firstPer Vote.voter vs).filter fun v => s.AcceptsBallot v.author v.electionId

theorem recorded_concat_of_pos (ha : s.AcceptsBallot v.author v.electionId)
    (hv : ¬ ∃ w ∈ vs, w.voter = v.voter) : recorded s (vs ++ [v]) = recorded s vs ++ [v] := by
  rw [recorded, firstPer_concat, if_neg hv, List.filter_append]
  simp [recorded, ha]

theorem recorded_concat_of_neg
    (h : ¬ (s.AcceptsBallot v.author v.electionId ∧ ¬ ∃ w ∈ vs, w.voter = v.voter)) :
    recorded s (vs ++ [v]) = recorded s vs := by
  rw [recorded, firstPer_concat]
  split
  · rfl
  · rename_i hv
    have ha : ¬ s.AcceptsBallot v.author v.electionId := fun ha => h ⟨ha, hv⟩
    simp [recorded, List.filter_append, ha]

/-- The first vote of a voter is recorded where it is accepted. -/
theorem exists_mem_recorded (ha : s.AcceptsBallot v.author v.electionId)
    (hv : ∃ w ∈ vs, w.voter = v.voter) : ∃ w ∈ recorded s vs, w.voter = v.voter := by
  obtain ⟨w, hw, hwv⟩ := exists_mem_firstPer.mpr hv
  obtain ⟨hwa, hwe⟩ := voter_eq_iff.mp hwv
  exact ⟨w, List.mem_filter.mpr ⟨hw, by simpa [hwa, hwe] using ha⟩, hwv⟩

/-- The votes recorded, the storage accepts what it accepted at the start, except for a voter who
has voted since. -/
theorem Adds.acceptsBallot_iff (h : Adds s (recorded s vs) s₁) :
    s₁.AcceptsBallot v.author v.electionId ↔
      s.AcceptsBallot v.author v.electionId ∧ ¬ ∃ w ∈ vs, w.voter = v.voter := by
  have hvotes := h.electionVotes v.electionId
  constructor
  · rintro ⟨ho, ⟨l₁, hl₁⟩, hn⟩
    rw [hvotes] at hl₁
    obtain ⟨l, hl, rfl⟩ := Option.map_eq_some_iff.mp hl₁
    have ha : s.AcceptsBallot v.author v.electionId := by
      refine ⟨by rwa [Storage.IsOpen, h.elections] at ho, ⟨l, hl⟩, ?_⟩
      rintro ⟨l', hl', w, hw, hwa⟩
      cases hl.symm.trans hl'
      exact hn ⟨_, hvotes.trans hl₁, w, List.mem_append_left _ hw, hwa⟩
    refine ⟨ha, fun hv => ?_⟩
    obtain ⟨w, hw, hwv⟩ := exists_mem_recorded ha hv
    obtain ⟨hwa, hwe⟩ := voter_eq_iff.mp hwv
    refine hn ⟨_, hvotes.trans hl₁, w, List.mem_append_right _ ?_, hwa⟩
    exact List.mem_filter.mpr ⟨hw, decide_eq_true hwe⟩
  · rintro ⟨⟨ho, ⟨l, hl⟩, hn⟩, hv⟩
    rw [hl, Option.map_some] at hvotes
    refine ⟨by rwa [Storage.IsOpen, h.elections], ⟨_, hvotes⟩, ?_⟩
    rintro ⟨l₁, hl₁, w, hw, hwa⟩
    cases hvotes.symm.trans hl₁
    rcases List.mem_append.mp hw with hw | hw
    · exact hn ⟨l, hl, w, hw, hwa⟩
    · obtain ⟨hw, hwe⟩ := List.mem_filter.mp hw
      have hmem := firstPer_subset (List.mem_filter.mp hw).1
      exact hv ⟨w, hmem, voter_eq_iff.mpr ⟨hwa, of_decide_eq_true hwe⟩⟩

theorem Adds.concat (h : Adds s (recorded s vs) s₁)
    (heff : Effect T s₁ (.signed v.author) (.createVote v.candidateId v.electionId) r s₂) :
    Adds s (recorded s (vs ++ [v])) s₂ := by
  have hiff := h.acceptsBallot_iff (v := v)
  cases heff with
  | refused hn =>
    rw [recorded_concat_of_neg (mt hiff.mpr hn)]
    exact h
  | voteStored ha =>
    obtain ⟨ha, hv⟩ := hiff.mp ha
    rw [recorded_concat_of_pos ha hv]
    exact ⟨h.elections, h.electionCandidates, h.candidates, get_adjust_concat h.electionVotes,
      get_adjust_concat h.candidateVotes⟩
  | ballotOrphaned ha ht =>
    obtain ⟨ha, hv⟩ := hiff.mp ha
    rw [recorded_concat_of_pos ha hv]
    have hnone : s.candidateVotes.get v.candidateId = none := by
      simpa [Storage.HasTally, Option.eq_none_iff_forall_ne_some] using mt h.hasTally_iff.mpr ht
    exact ⟨h.elections, h.electionCandidates, h.candidates, get_adjust_concat h.electionVotes,
      get_concat_of_none h.candidateVotes hnone⟩

theorem adds_finalState :
    Adds s (recorded s vs) (finalState (apply T) s (vs.map Vote.extrinsic)) := by
  induction vs using List.reverseRecOn with
  | nil => exact .nil
  | append_singleton vs v ih =>
    rw [List.map_append, List.map_singleton, finalState_concat]
    exact ih.concat (apply_effect v.extrinsic _)

/-! ## Two orders -/

omit [DecidableEq AccountId] in
/-- The answer to a vote depends on whether the storage accepts it and on the candidate's tally. -/
theorem Effect.createVote_congr {r r' : Except DispatchError Unit}
    (h : Effect T s₁ (.signed a) (.createVote k e) r s) (h' : Effect T s₂ (.signed a)
      (.createVote k e) r' s') (ha : s₁.AcceptsBallot a e ↔ s₂.AcceptsBallot a e)
    (ht : s₁.HasTally k ↔ s₂.HasTally k) : r = r' := by
  cases h with
  | refused hn => exact (h'.eq_of_not_accepts (mt ha.mpr hn)).1.symm
  | voteStored ha₁ ht₁ =>
    cases h' with
    | refused hn => exact absurd (ha.mp ha₁) hn
    | voteStored => rfl
    | ballotOrphaned _ hn => exact absurd (ht.mp ht₁) hn
  | ballotOrphaned ha₁ ht₁ =>
    cases h' with
    | refused hn => exact absurd (ha.mp ha₁) hn
    | voteStored _ ht₂ => exact absurd (ht.mpr ht₂) ht₁
    | ballotOrphaned => rfl

theorem recorded_perm (ρ : Rearrangement Vote.voter vs ws) :
    (recorded s vs).Perm (recorded s ws) := ρ.firstPer_perm.filter _

/-- A vote gets the same answer in both orders. -/
theorem answer_eq (ρ : Rearrangement Vote.voter vs ws) (i : Fin vs.length) :
    (apply T (vs.get i).extrinsic
      (finalState (apply T) s ((vs.take i).map Vote.extrinsic))).1 =
    (apply T (vs.get i).extrinsic
      (finalState (apply T) s ((ws.take (ρ.pos i)).map Vote.extrinsic))).1 := by
  have hvs : Adds s _ (finalState (apply T) s ((vs.take i).map Vote.extrinsic)) :=
    adds_finalState
  have hws : Adds s _ (finalState (apply T) s ((ws.take (ρ.pos i)).map Vote.extrinsic)) :=
    adds_finalState
  refine (apply_effect (vs.get i).extrinsic _).createVote_congr
    (apply_effect (vs.get i).extrinsic _) ?_ (hvs.hasTally_iff.trans hws.hasTally_iff.symm)
  rw [hvs.acceptsBallot_iff, hws.acceptsBallot_iff, ρ.exists_mem_take_iff]

/-- In every reachable storage, votes that change places without overtaking the voter's own votes
in the election get the same answers, and lead to the same storage up to the order of the
ballots. -/
theorem run_order_irrelevant (T : Config Hash) (xs : List (Extrinsic Hash AccountId))
    {vs ws : List (Vote Hash AccountId)} (ρ : Rearrangement Vote.voter vs ws) :
    (∀ i : Fin vs.length, (trace (apply T) (run T xs) (vs.map Vote.extrinsic))[(i : Nat)]? =
      (trace (apply T) (run T xs) (ws.map Vote.extrinsic))[(ρ.pos i : Nat)]?) ∧
    SameUpToOrder (finalState (apply T) (run T xs) (vs.map Vote.extrinsic))
      (finalState (apply T) (run T xs) (ws.map Vote.extrinsic)) := by
  refine ⟨fun i => ?_, adds_finalState.sameUpToOrder adds_finalState (recorded_perm ρ)⟩
  have hvs : vs[(i : Nat)]? = some (vs.get i) := List.getElem?_eq_getElem i.isLt
  have hws : ws[(ρ.pos i : Nat)]? = some (vs.get i) := by
    rw [← ρ.get_pos i]
    exact List.getElem?_eq_getElem (ρ.pos i).isLt
  rw [getElem?_trace, getElem?_trace, List.getElem?_map, List.getElem?_map, hvs, hws,
    ← List.map_take, ← List.map_take]
  simp only [Option.map_some, answer_eq ρ i]

/-- Accounts 1 and 2 vote in either order; the second vote of account 1 comes after its first. -/
theorem run_order_irrelevant_mock :
    let xs : List (Extrinsic _ Nat) := [⟨.root, .createElection Mock.board⟩,
      ⟨.root, .createCandidate Mock.name Mock.boardId⟩]
    let v (a : Nat) : Vote _ Nat := ⟨Mock.boardCandidate, Mock.boardId, a⟩
    let s := run Mock.config xs
    SameUpToOrder (finalState (apply Mock.config) s ([v 1, v 2, v 1].map Vote.extrinsic))
      (finalState (apply Mock.config) s ([v 2, v 1, v 1].map Vote.extrinsic)) := by
  intro xs v s
  have ρ : Rearrangement Vote.voter [v 1, v 2, v 1] [v 2, v 1, v 1] :=
    ⟨Equiv.swap 0 1, by decide, by decide⟩
  exact (run_order_irrelevant Mock.config xs ρ).2

end Votechain
