import Votechain.Theory.Ledger
import Votechain.Verify.Reachable

/-!
# The books of the ballots

Every vote that succeeds puts one ballot in the tallies, and every vote that succeeds or fails for
want of a tally puts one ballot in the lists of the elections. Ballots leave the storage only where
a creation replaces the list of an id that is taken. The two books balance in every run.
-/

open Frame Machine
open StorageMap (total_insert total_adjust_concat)

namespace Votechain

variable {Hash AccountId : Type}

/-- The vote succeeded. -/
def isOkVote : Receipt Hash AccountId → Bool
  | (⟨.signed _, .createVote _ _⟩, .ok ()) => true
  | _ => false

/-- The vote failed for want of a tally. -/
def isOrphanedVote : Receipt Hash AccountId → Bool
  | (_, .error (.module .candidateNotFound)) => true
  | _ => false

/-- The vote put a ballot in the list of its election. -/
def isRecordedVote (p : Receipt Hash AccountId) : Bool := isOkVote p || isOrphanedVote p

variable [DecidableEq Hash] {T : Config Hash} {s s' : Storage Hash AccountId}
  {o : Origin AccountId} {c : Call Hash} {r : Except DispatchError Unit}

/-- The number of ballots in the list that the call replaces. -/
def ballotsReplaced (T : Config Hash) (s : Storage Hash AccountId) (x : Extrinsic Hash AccountId) :
    Nat :=
  match x.origin, x.call with
  | .root, .createElection d =>
    if T.DescriptionFits d then (s.electionVotes.get (T.electionId d)).elim 0 List.length else 0
  | _, _ => 0

/-- The number of ballots in the tally that the call replaces. -/
def talliedReplaced (T : Config Hash) (s : Storage Hash AccountId) (x : Extrinsic Hash AccountId) :
    Nat :=
  match x.origin, x.call with
  | .root, .createCandidate name e =>
    if T.NameFits name ∧ s.HasRoster e then
      (s.candidateVotes.get (T.hashOfCandidate ⟨name, e⟩)).elim 0 List.length
    else 0
  | _, _ => 0

theorem ballotsReplaced_of_not_accepts (h : ¬ s.Accepts T o c) :
    ballotsReplaced T s ⟨o, c⟩ = 0 := by
  unfold ballotsReplaced
  split
  · rename_i ho hc
    cases ho
    cases hc
    exact if_neg h
  · rfl

theorem talliedReplaced_of_not_accepts (h : ¬ s.Accepts T o c) :
    talliedReplaced T s ⟨o, c⟩ = 0 := by
  unfold talliedReplaced
  split
  · rename_i ho hc
    cases ho
    cases hc
    exact if_neg h
  · rfl

omit [DecidableEq Hash] in
theorem refusal_ne_candidateNotFound : s.refusal T o c ≠ .module .candidateNotFound := by
  unfold Storage.refusal
  split <;> (repeat' split) <;> nofun

omit [DecidableEq Hash] in
theorem isRecordedVote_refusal {x : Extrinsic Hash AccountId} :
    isRecordedVote (x, .error (s.refusal T o c)) = false := by
  have hne := refusal_ne_candidateNotFound (T := T) (s := s) (o := o) (c := c)
  unfold isRecordedVote isOkVote isOrphanedVote
  split
  · rename_i heq
    cases heq
  · split
    · rename_i heq
      exact absurd (Except.error.inj (Prod.mk.inj heq).2) hne
    · rfl

/-! ## One effect -/

/-- What a call adds to the lists of ballots and takes from them. -/
theorem Effect.ballots_balance (h : Effect T s o c r s') :
    s'.electionVotes.total List.length + ballotsReplaced T s ⟨o, c⟩ =
      s.electionVotes.total List.length + (if isRecordedVote (⟨o, c⟩, r) then 1 else 0) := by
  cases h with
  | refused hn => rw [ballotsReplaced_of_not_accepts hn, isRecordedVote_refusal]; rfl
  | @electionStored d hd =>
    have hinsert := total_insert (m := s.electionVotes) (f := List.length)
      (k := T.electionId d) (v := [])
    simp only [ballotsReplaced, if_pos hd]
    exact hinsert
  | voteStored ha | ballotOrphaned ha =>
    obtain ⟨l, hl⟩ := ha.2.1
    exact total_adjust_concat hl
  | _ => rfl

/-- What a call adds to the tallies and takes from them. -/
theorem Effect.tallies_balance (h : Effect T s o c r s') :
    s'.candidateVotes.total List.length + talliedReplaced T s ⟨o, c⟩ =
      s.candidateVotes.total List.length + (if isOkVote (⟨o, c⟩, r) then 1 else 0) := by
  cases h with
  | refused hn =>
    rw [talliedReplaced_of_not_accepts hn]
    cases o <;> cases c <;> rfl
  | @candidateStored name e hn hr =>
    have hinsert := total_insert (m := s.candidateVotes) (f := List.length)
      (k := T.hashOfCandidate ⟨name, e⟩) (v := [])
    simp only [talliedReplaced, if_pos (And.intro hn hr)]
    exact hinsert
  | voteStored _ ht =>
    obtain ⟨l, hl⟩ := ht
    exact total_adjust_concat hl
  | _ => rfl

/-! ## Runs -/

section
variable [DecidableEq AccountId] (T : Config Hash) (xs : List (Extrinsic Hash AccountId))

theorem ballots_balance_run : (run T xs).electionVotes.total List.length +
    spent (apply T) (ballotsReplaced T) .empty xs = (receipts T xs).countP isRecordedVote := by
  have h := value_add_spent (fun s => s.electionVotes.total List.length) .empty xs fun s x =>
      (apply_effect (T := T) x s).ballots_balance
  rwa [Storage.empty_electionVotes, StorageMap.total_empty, Nat.zero_add] at h

theorem tallies_balance_run : (run T xs).candidateVotes.total List.length +
    spent (apply T) (talliedReplaced T) .empty xs = (receipts T xs).countP isOkVote := by
  have h := value_add_spent (fun s => s.candidateVotes.total List.length) .empty xs fun s x =>
      (apply_effect (T := T) x s).tallies_balance
  rwa [Storage.empty_candidateVotes, StorageMap.total_empty, Nat.zero_add] at h

/-- The ballots stored, with those that creations have replaced, are as many as the votes that
recorded one. -/
structure Balanced : Prop where
  ballots : (run T xs).electionVotes.total List.length +
    spent (apply T) (ballotsReplaced T) .empty xs = (receipts T xs).countP isRecordedVote
  tallies : (run T xs).candidateVotes.total List.length +
    spent (apply T) (talliedReplaced T) .empty xs = (receipts T xs).countP isOkVote
  ballots_complete_iff :
    (run T xs).electionVotes.total List.length = (receipts T xs).countP isRecordedVote ↔
      EachStep (apply T) (fun s x => ballotsReplaced T s x = 0) .empty xs
  tallies_complete_iff :
    (run T xs).candidateVotes.total List.length = (receipts T xs).countP isOkVote ↔
      EachStep (apply T) (fun s x => talliedReplaced T s x = 0) .empty xs

/-- In every run, the ballots in the lists and those that were replaced are together as many as the
votes that succeeded or failed for want of a tally; the ballots in the tallies and those that were
replaced there are as many as the votes that succeeded. So none is missing iff none was replaced. -/
theorem run_balanced : Balanced T xs := by
  have hballots := ballots_balance_run T xs
  have htallies := tallies_balance_run T xs
  refine ⟨hballots, htallies, ?_, ?_⟩
  · rw [← spent_eq_zero_iff]
    omega
  · rw [← spent_eq_zero_iff]
    omega

end

end Votechain
