import Votechain.Theory.Projection
import Votechain.Client.Context
import Votechain.Verify.Frames

/-!
# What accounts can do to each other

Fix some accounts. What their calls and the root calls return, and the ballots of these accounts,
do not depend on what other accounts do. The counter of `cause_error` is the exception, as all
accounts share it. So an account moves no cell of the result page by more than one ballot.
-/

open Frame Machine
open StorageMap (AgreeOn)

namespace Votechain
open Client

variable {Hash AccountId : Type} [DecidableEq Hash] {T : Config Hash} {p : AccountId → Bool}
  {s s' t t' u : Storage Hash AccountId} {o : Origin AccountId} {c : Call Hash}
  {r r' : Except DispatchError Unit} {a : AccountId} {e k : Hash}

/-- A root call, or a call that one of the accounts signs, but for `cause_error`. -/
def Concerns (p : AccountId → Bool) (x : Extrinsic Hash AccountId) : Prop :=
  match x.origin, x.call with
  | .root, _ => True
  | .signed _, .causeError => False
  | .signed a, _ => p a = true
  | _, _ => False

instance : (x : Extrinsic Hash AccountId) → Decidable (Concerns p x)
  | ⟨.root, _⟩ => .isTrue trivial
  | ⟨.signed _, .causeError⟩ | ⟨.none, _⟩ | ⟨.other, _⟩ => .isFalse id
  | ⟨.signed a, .doSomething _⟩ | ⟨.signed a, .createElection _⟩ | ⟨.signed a, .closeElection _⟩
  | ⟨.signed a, .createCandidate _ _⟩ | ⟨.signed a, .createVote _ _⟩ => decEq (p a) true

/-- The ballot is by one of the accounts. -/
def isBallotOf (p : AccountId → Bool) (v : Vote Hash AccountId) : Bool := p v.author

/-- The storages have the same elections and candidates, and the same ballots of the accounts. -/
structure SameFor (p : AccountId → Bool) (s t : Storage Hash AccountId) : Prop where
  elections : s.elections = t.elections
  electionCandidates : s.electionCandidates = t.electionCandidates
  candidates : s.candidates = t.candidates
  electionVotes : AgreeOn (isBallotOf p) s.electionVotes t.electionVotes
  candidateVotes : AgreeOn (isBallotOf p) s.candidateVotes t.candidateVotes

namespace SameFor

theorem refl : SameFor p s s := ⟨rfl, rfl, rfl, .refl, .refl⟩

theorem symm (h : SameFor p s t) : SameFor p t s :=
  ⟨h.elections.symm, h.electionCandidates.symm, h.candidates.symm, h.electionVotes.symm,
    h.candidateVotes.symm⟩

theorem trans (h : SameFor p s t) (h' : SameFor p t u) : SameFor p s u where
  elections := h.elections.trans h'.elections
  electionCandidates := h.electionCandidates.trans h'.electionCandidates
  candidates := h.candidates.trans h'.candidates
  electionVotes := h.electionVotes.trans h'.electionVotes
  candidateVotes := h.candidateVotes.trans h'.candidateVotes

/-! ### What the accounts can observe -/

theorem isOpen_iff (h : SameFor p s t) : s.IsOpen e ↔ t.IsOpen e := by
  rw [Storage.IsOpen, Storage.IsOpen, h.elections]

theorem hasRoster_iff (h : SameFor p s t) : s.HasRoster e ↔ t.HasRoster e := by
  rw [Storage.HasRoster, Storage.HasRoster, h.electionCandidates]

theorem hasTally_iff (h : SameFor p s t) : s.HasTally k ↔ t.HasTally k :=
  StorageMap.exists_get_congr h.candidateVotes.isSome_eq

theorem hasBallot_of (h : SameFor p s t) (ha : p a = true) (hb : s.HasBallot a e) :
    t.HasBallot a e := by
  obtain ⟨l, hl, v, hv, rfl⟩ := hb
  obtain ⟨l', hl', hv'⟩ := h.electionVotes.exists_mem ha hl hv
  exact ⟨l', hl', v, hv', rfl⟩

theorem acceptsBallot_iff (h : SameFor p s t) (ha : p a = true) :
    s.AcceptsBallot a e ↔ t.AcceptsBallot a e := by
  have hlist : (∃ l, s.electionVotes.get e = some l) ↔ ∃ l, t.electionVotes.get e = some l :=
    StorageMap.exists_get_congr h.electionVotes.isSome_eq
  have hballot : s.HasBallot a e ↔ t.HasBallot a e := ⟨h.hasBallot_of ha, h.symm.hasBallot_of ha⟩
  rw [Storage.AcceptsBallot, Storage.AcceptsBallot, h.isOpen_iff, hlist, hballot]

theorem accepts_iff (h : SameFor p s t) (hc : Concerns p ⟨o, c⟩) :
    s.Accepts T o c ↔ t.Accepts T o c := by
  cases o with
  | root =>
    cases c with
    | closeElection e => exact h.isOpen_iff
    | createCandidate name e => exact and_congr_right fun _ => h.hasRoster_iff
    | _ => exact Iff.rfl
  | signed a =>
    cases c with
    | causeError => exact hc.elim
    | createVote k e => exact h.acceptsBallot_iff hc
    | _ => exact Iff.rfl
  | _ => exact hc.elim

omit [DecidableEq Hash] in
theorem refusal_eq (hc : Concerns p ⟨o, c⟩) : s.refusal T o c = t.refusal T o c := by
  cases o with
  | root => cases c <;> rfl
  | signed a =>
    cases c with
    | causeError => exact hc.elim
    | _ => rfl
  | _ => exact hc.elim

/-! ### Writes -/

theorem openElection (h : SameFor p s t) (d : List UInt8) :
    SameFor p (s.openElection T d) (t.openElection T d) where
  elections := by simp [h.elections]
  electionCandidates := by simp [h.electionCandidates]
  candidates := h.candidates
  electionVotes := h.electionVotes.insert _ _
  candidateVotes := h.candidateVotes

theorem closeElection (h : SameFor p s t) (e : Hash) :
    SameFor p (s.closeElection e) (t.closeElection e) :=
  ⟨by simp [h.elections], h.electionCandidates, h.candidates, h.electionVotes, h.candidateVotes⟩

theorem registerCandidate (h : SameFor p s t) (x : Candidate Hash) :
    SameFor p (s.registerCandidate T x) (t.registerCandidate T x) where
  elections := h.elections
  electionCandidates := by simp [h.electionCandidates]
  candidates := by simp [h.candidates]
  electionVotes := h.electionVotes
  candidateVotes := h.candidateVotes.insert _ _

theorem recordBallot (h : SameFor p s t) (v : Vote Hash AccountId) :
    SameFor p (s.recordBallot v) (t.recordBallot v) :=
  ⟨h.elections, h.electionCandidates, h.candidates, h.electionVotes.adjust _ _, h.candidateVotes⟩

theorem tallyBallot (h : SameFor p s t) (v : Vote Hash AccountId) :
    SameFor p (s.tallyBallot v) (t.tallyBallot v) :=
  ⟨h.elections, h.electionCandidates, h.candidates, h.electionVotes, h.candidateVotes.adjust _ _⟩

/-- A ballot of another account. -/
theorem recordBallot_left (h : SameFor p s t) {v : Vote Hash AccountId} (hv : p v.author = false) :
    SameFor p (s.recordBallot v) t :=
  ⟨h.elections, h.electionCandidates, h.candidates, h.electionVotes.adjust_left _ hv,
    h.candidateVotes⟩

theorem tallyBallot_left (h : SameFor p s t) {v : Vote Hash AccountId} (hv : p v.author = false) :
    SameFor p (s.tallyBallot v) t :=
  ⟨h.elections, h.electionCandidates, h.candidates, h.electionVotes,
    h.candidateVotes.adjust_left _ hv⟩

theorem deposit (h : SameFor p s t) (ev ev' : Event Hash AccountId) :
    SameFor p (s.deposit ev) (t.deposit ev') :=
  ⟨h.elections, h.electionCandidates, h.candidates, h.electionVotes, h.candidateVotes⟩

theorem deposit_left (h : SameFor p s t) (ev : Event Hash AccountId) : SameFor p (s.deposit ev) t :=
  ⟨h.elections, h.electionCandidates, h.candidates, h.electionVotes, h.candidateVotes⟩

/-! ### One call -/

/-- A call of nobody's concern changes nothing that the accounts can observe. -/
theorem unseen (h : SameFor p s t) (hc : ¬ Concerns p ⟨o, c⟩) (heff : Effect T s o c r s') :
    SameFor p s' t := by
  cases heff with
  | refused => exact h
  | somethingStored | incremented =>
    exact ⟨h.elections, h.electionCandidates, h.candidates, h.electionVotes, h.candidateVotes⟩
  | electionStored | electionUpdated | candidateStored => exact absurd trivial hc
  | @voteStored a e k =>
    have ha : p a = false := Bool.eq_false_of_not_eq_true hc
    exact ((h.recordBallot_left (v := ⟨k, e, a⟩) ha).tallyBallot_left ha).deposit_left _
  | ballotOrphaned =>
    exact h.recordBallot_left (Bool.eq_false_of_not_eq_true hc)

/-- A call of the accounts or of the root has the same result and the same effect. -/
theorem seen (h : SameFor p s t) (hc : Concerns p ⟨o, c⟩) (heff : Effect T s o c r s')
    (heff' : Effect T t o c r' t') : r = r' ∧ SameFor p s' t' := by
  have haccepts := h.accepts_iff (T := T) hc
  cases heff with
  | refused hn =>
    obtain ⟨rfl, rfl⟩ := heff'.eq_of_not_accepts (mt haccepts.mpr hn)
    exact ⟨congrArg _ (refusal_eq hc), h⟩
  | somethingStored =>
    obtain ⟨rfl, rfl⟩ := heff'.unique .somethingStored
    refine ⟨rfl, ?_⟩
    exact ⟨h.elections, h.electionCandidates, h.candidates, h.electionVotes, h.candidateVotes⟩
  | incremented => exact hc.elim
  | @electionStored d hd =>
    obtain ⟨rfl, rfl⟩ := heff'.unique (.electionStored hd)
    exact ⟨rfl, (h.openElection d).deposit _ _⟩
  | @electionUpdated e ho =>
    obtain ⟨rfl, rfl⟩ := heff'.unique (.electionUpdated (h.isOpen_iff.mp ho))
    exact ⟨rfl, (h.closeElection e).deposit _ _⟩
  | candidateStored hn hr =>
    obtain ⟨rfl, rfl⟩ := heff'.unique (.candidateStored hn (h.hasRoster_iff.mp hr))
    exact ⟨rfl, (h.registerCandidate _).deposit _ _⟩
  | voteStored ha ht =>
    obtain ⟨rfl, rfl⟩ := heff'.unique
      (.voteStored ((h.acceptsBallot_iff hc).mp ha) (h.hasTally_iff.mp ht))
    exact ⟨rfl, ((h.recordBallot _).tallyBallot _).deposit _ _⟩
  | ballotOrphaned ha ht =>
    obtain ⟨rfl, rfl⟩ := heff'.unique
      (.ballotOrphaned ((h.acceptsBallot_iff hc).mp ha) (mt h.hasTally_iff.mpr ht))
    exact ⟨rfl, h.recordBallot _⟩

end SameFor

/-! ## Runs -/

section
variable [DecidableEq AccountId] {xs ys : List (Extrinsic Hash AccountId)}

/-- The calls of the run that concern the accounts. -/
abbrev concerning (p : AccountId → Bool) (xs : List (Extrinsic Hash AccountId)) :
    List (Extrinsic Hash AccountId) := xs.filter (Concerns p ·)

theorem projects_concerning (T : Config Hash) (p : AccountId → Bool)
    (xs : List (Extrinsic Hash AccountId)) :
    Projects (apply T) (SameFor p) (Concerns p) .empty .empty xs :=
  projects_of_steps .refl (fun _ x _ hc h => h.unseen hc (apply_effect x _))
    fun _ x _ hc h => h.seen hc (apply_effect x _) (apply_effect x _)

theorem sameFor_run (h : concerning p xs = concerning p ys) :
    SameFor p (run T xs) (run T ys) := by
  have hx := (projects_concerning T p xs).state
  have hy := (projects_concerning T p ys).state
  have hcalls : xs.filter (Concerns p ·) = ys.filter (Concerns p ·) := h
  rw [← hcalls] at hy
  exact hx.trans hy.symm

/-- Noninterference. In two runs with the same calls of some accounts and of the root, these calls
return the same, and the elections, the candidates and the ballots of these accounts are the same
at the end, whatever the other accounts do. -/
theorem run_noninterference (T : Config Hash) (p : AccountId → Bool)
    (xs ys : List (Extrinsic Hash AccountId)) (h : concerning p xs = concerning p ys) :
    SameFor p (run T xs) (run T ys) ∧
      (receipts T xs).filter (fun q => Concerns p q.1) =
        (receipts T ys).filter (fun q => Concerns p q.1) := by
  refine ⟨sameFor_run h, ?_⟩
  have hcalls : xs.filter (Concerns p ·) = ys.filter (Concerns p ·) := h
  rw [(projects_concerning T p xs).answers, (projects_concerning T p ys).answers, hcalls]

/-- The first account votes with and without the others. -/
theorem run_noninterference_mock :
    let setup : List (Extrinsic _ Nat) := [⟨.root, .createElection Mock.board⟩,
      ⟨.root, .createCandidate Mock.name Mock.boardId⟩]
    let vote (a : Nat) : Extrinsic _ Nat :=
      ⟨.signed a, .createVote Mock.boardCandidate Mock.boardId⟩
    let xs := setup ++ [vote 1]
    let ys := setup ++ [vote 2, vote 1, vote 2, vote 3]
    SameFor (· = 1) (run Mock.config xs) (run Mock.config ys) ∧
      (receipts Mock.config xs).filter (fun q => Concerns (· = 1) q.1) =
        (receipts Mock.config ys).filter (fun q => Concerns (· = 1) q.1) :=
  run_noninterference Mock.config (· = 1) _ _ (by decide)

/-! ## One account, one ballot -/

omit [DecidableEq Hash] in
/-- A list with one ballot for each author has at most one ballot of an account. -/
theorem length_le_of_nodup_authors {l : List (Vote Hash AccountId)}
    (h : (l.map Vote.author).Nodup) (a : AccountId) (q : Vote Hash AccountId → Bool) :
    (l.filter q).length ≤ ((l.filter (isBallotOf (· ≠ a))).filter q).length + 1 := by
  induction l with
  | nil => simp
  | cons v l ih =>
    rw [List.map_cons, List.nodup_cons] at h
    have ih := ih h.2
    by_cases hv : v.author = a
    · -- the other ballots are all by others
      have hrest : l.filter (isBallotOf (· ≠ a)) = l := by
        refine List.filter_eq_self.mpr fun w hw => decide_eq_true fun hwa => h.1 ?_
        rw [hv, ← hwa]
        exact List.mem_map_of_mem hw
      have hlen : ((v :: l).filter q).length ≤ (l.filter q).length + 1 := by
        rw [List.filter_cons]
        split <;> simp
      have hself : (v :: l).filter (isBallotOf (· ≠ a)) = l := by
        rw [List.filter_cons_of_neg (by simp [isBallotOf, hv]), hrest]
      rwa [hself]
    · have hother : isBallotOf (· ≠ a) v = true := decide_eq_true hv
      rw [List.filter_cons_of_pos hother, List.filter_cons, List.filter_cons]
      split
      · simpa using ih
      · exact ih

/-- The ballots in a list for which `q` holds. -/
theorem length_filter_le (hw : WellFormed T s) (h : SameFor (· ≠ a) s t)
    (q : Vote Hash AccountId → Bool) :
    (((s.electionVotes.get e).getD []).filter q).length ≤
      (((t.electionVotes.get e).getD []).filter q).length + 1 := by
  cases hl : s.electionVotes.get e with
  | none => simp
  | some l =>
    have hagree := h.electionVotes e
    rw [hl, Option.map_some] at hagree
    obtain ⟨l', hl', hfilter⟩ := Option.map_eq_some_iff.mp hagree.symm
    rw [hl', Option.getD_some, Option.getD_some]
    refine (length_le_of_nodup_authors (hw.authors hl) a q).trans ?_
    rw [← hfilter]
    exact Nat.add_le_add_right (List.filter_sublist.filter q).length_le 1

omit [DecidableEq AccountId] in
theorem votesCell_eq_length {cand : SelectOption Hash} :
    votesCell (fetchVotes s.electionVotes e) cand =
      (((s.electionVotes.get e).getD []).filter fun x => x.candidateId = cand.key).length := by
  rw [fetchVotes]
  cases s.electionVotes.get e <;> rfl

omit [DecidableEq AccountId] in
theorem totalCell_eq_length : totalCell (fetchVotes s.electionVotes e) =
    (((s.electionVotes.get e).getD []).filter fun _ => true).length := by
  rw [fetchVotes, List.filter_true]
  cases s.electionVotes.get e <;> rfl

/-- Whatever an account does instead, the rows of the result page stay the same, and every cell and
the total move by at most one ballot. -/
theorem run_cells_le (T : Config Hash) (a : AccountId) (xs ys : List (Extrinsic Hash AccountId))
    (h : concerning (· ≠ a) xs = concerning (· ≠ a) ys) :
    (run T xs).candidates = (run T ys).candidates ∧
    ∀ e, totalCell (fetchVotes (run T xs).electionVotes e) ≤
        totalCell (fetchVotes (run T ys).electionVotes e) + 1 ∧
      ∀ cand, votesCell (fetchVotes (run T xs).electionVotes e) cand ≤
        votesCell (fetchVotes (run T ys).electionVotes e) cand + 1 := by
  have hsame := sameFor_run (T := T) h
  refine ⟨hsame.candidates, fun e => ⟨?_, fun cand => ?_⟩⟩
  · rw [totalCell_eq_length, totalCell_eq_length]
    exact length_filter_le wellFormed_run hsame _
  · rw [votesCell_eq_length, votesCell_eq_length]
    exact length_filter_le wellFormed_run hsame _

/-- The first account votes twice, or not at all. -/
theorem run_cells_le_mock :
    let setup : List (Extrinsic _ Nat) := [⟨.root, .createElection Mock.board⟩,
      ⟨.root, .createCandidate Mock.name Mock.boardId⟩]
    let vote (a : Nat) : Extrinsic _ Nat :=
      ⟨.signed a, .createVote Mock.boardCandidate Mock.boardId⟩
    let xs := setup ++ [vote 1, vote 2, vote 1]
    let ys := setup ++ [vote 2]
    (run Mock.config xs).candidates = (run Mock.config ys).candidates ∧
    ∀ e, totalCell (fetchVotes (run Mock.config xs).electionVotes e) ≤
        totalCell (fetchVotes (run Mock.config ys).electionVotes e) + 1 ∧
      ∀ cand, votesCell (fetchVotes (run Mock.config xs).electionVotes e) cand ≤
        votesCell (fetchVotes (run Mock.config ys).electionVotes e) cand + 1 :=
  run_cells_le Mock.config 1 _ _ (by decide)

end

end Votechain
