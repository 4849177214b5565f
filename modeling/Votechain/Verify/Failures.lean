import Votechain.Verify.Conservation
import Votechain.Verify.Finality
import Votechain.Verify.Frames

/-!
# What an error means

The error of a failed call tells whether the call left something behind. It did so only with
`CandidateNotFound`, and then the ballot that it left keeps its author out of the election for as
long as the election is not created again.
-/

open Frame Machine
open StorageMap (get_insert_of_ne get_adjust_eq_some)

namespace Votechain

variable {Hash AccountId : Type}

/-- The errors of the pallet that a call can return. A wrong origin is none of them. -/
def Call.errors : Call Hash → List Error
  | .doSomething _ => []
  | .causeError => [.noneValue, .storageOverflow]
  | .createElection _ => [.electionNotEnoughBytes, .electionTooManyBytes]
  | .closeElection _ => [.electionNotFound]
  | .createCandidate _ _ => [.candidateNotEnoughBytes, .candidateTooManyBytes, .electionNotFound]
  | .createVote _ _ => [.electionNotFound, .candidateNotFound]

variable [DecidableEq Hash] {T : Config Hash} {s s' : Storage Hash AccountId}
  {o : Origin AccountId} {c : Call Hash} {r : Except DispatchError Unit} {e k : Hash}
  {a : AccountId}

omit [DecidableEq Hash] in
theorem refusal_mem_errors : s.refusal T o c = .badOrigin ∨
    ∃ error ∈ c.errors, s.refusal T o c = .module error := by
  cases o <;> cases c <;> simp only [Storage.refusal, Call.errors] <;> (repeat' split) <;> simp

theorem Effect.error_mem (h : Effect T s o c (.error err) s') :
    err = .badOrigin ∨ ∃ error ∈ c.errors, err = .module error := by
  cases h with
  | refused => exact refusal_mem_errors
  | ballotOrphaned => exact .inr ⟨.candidateNotFound, by simp [Call.errors], rfl⟩

/-- A failed call changed the storage iff its error is `CandidateNotFound`. -/
theorem Effect.ne_iff_candidateNotFound (h : Effect T s o c (.error err) s') :
    s' ≠ s ↔ err = .module .candidateNotFound := by
  cases h with
  | refused => exact iff_of_false (fun hne => hne rfl) refusal_ne_candidateNotFound
  | ballotOrphaned ha => exact iff_of_true (recordBallot_ne ha) rfl

theorem Effect.createVote_of_candidateNotFound
    (h : Effect T s (.signed a) (.createVote k e) (.error (.module .candidateNotFound)) s') :
    s.AcceptsBallot a e ∧ s' = s.recordBallot ⟨k, e, a⟩ := by
  generalize hr : (Except.error (DispatchError.module Error.candidateNotFound)) = r at h
  cases h with
  | refused => exact absurd (Except.error.inj hr).symm refusal_ne_candidateNotFound
  | voteStored => cases hr
  | ballotOrphaned ha => exact ⟨ha, rfl⟩

/-! ## Ballots stay -/

/-- The ballot stands in the list of the election. -/
def Storage.Records (s : Storage Hash AccountId) (v : Vote Hash AccountId) : Prop :=
  ∃ l, s.electionVotes.get v.electionId = some l ∧ v ∈ l

theorem Storage.Records.recordBallot {v w : Vote Hash AccountId} (h : s.Records v) :
    (s.recordBallot w).Records v := by
  obtain ⟨l, hl, hv⟩ := h
  obtain ⟨l', hl', hpre⟩ : ∃ l', (s.recordBallot w).electionVotes.get v.electionId = some l' ∧
      l <+: l' := StorageMap.extends_adjust _ _ hl
  exact ⟨l', hl', hpre.subset hv⟩

/-- A ballot stays in its list until the election is created again. -/
theorem Effect.records {v : Vote Hash AccountId} (h : Effect T s o c r s')
    (hv : s.Records v) (hn : ¬ Creates T v.electionId ⟨o, c⟩) : s'.Records v := by
  cases h with
  | @electionStored d hd =>
    obtain ⟨l, hl, hmem⟩ := hv
    have hne : v.electionId ≠ T.electionId d := fun heq => hn ⟨hd, heq.symm⟩
    exact ⟨l, (get_insert_of_ne hne).trans hl, hmem⟩
  | voteStored | ballotOrphaned => exact hv.recordBallot
  | _ => exact hv

section
variable [DecidableEq AccountId]

theorem records_finalState {v : Vote Hash AccountId} {ys : List (Extrinsic Hash AccountId)}
    (hv : s.Records v) (hn : ∀ y ∈ ys, ¬ Creates T v.electionId y) :
    (finalState (apply T) s ys).Records v := by
  induction ys generalizing s with
  | nil => exact hv
  | cons y ys ih =>
    have hstep := (apply_effect y s).records hv (hn y List.mem_cons_self)
    exact ih hstep fun z hz => hn z (List.mem_cons_of_mem _ hz)

/-- An error tells what the call it comes from could not do, and whether it left something
behind. -/
structure ErrorTells (T : Config Hash) (s : Storage Hash AccountId) (x : Extrinsic Hash AccountId)
    (err : DispatchError) : Prop where
  own : err = .badOrigin ∨ ∃ error ∈ x.call.errors, err = .module error
  changed : (apply T x s).2 ≠ s ↔ err = .module .candidateNotFound

/-- After any run, an error that a call returns is one of its own, and the call has changed the
storage iff the error is `CandidateNotFound`. -/
theorem run_errorTells (T : Config Hash) (xs : List (Extrinsic Hash AccountId))
    (x : Extrinsic Hash AccountId) (err : DispatchError)
    (h : (apply T x (run T xs)).1 = .error err) : ErrorTells T (run T xs) x err := by
  have heff := apply_effect (T := T) x (run T xs)
  rw [h] at heff
  exact ⟨heff.error_mem, heff.ne_iff_candidateNotFound⟩

theorem run_errorTells_mock :
    let s : Storage _ Nat := run Mock.config [⟨.root, .createElection Mock.board⟩]
    ErrorTells Mock.config s ⟨.signed 1, .createVote Mock.boardCandidate Mock.boardId⟩
      (.module .candidateNotFound) :=
  run_errorTells Mock.config _ _ _ (by decide)

/-! ## Locked out -/

/-- The ballot stands in its election, and every further vote of its author there is refused. -/
structure LockedOut (T : Config Hash) (v : Vote Hash AccountId) (s : Storage Hash AccountId) :
    Prop where
  listed : s.Records v
  refused : ∀ k, apply T ⟨.signed v.author, .createVote k v.electionId⟩ s =
    (.error (.module .electionNotFound), s)

theorem Storage.Records.lockedOut {v : Vote Hash AccountId} (hv : s.Records v) :
    LockedOut T v s where
  listed := hv
  refused k := by
    obtain ⟨l, hl, hmem⟩ := hv
    have hn : ¬ s.Accepts T (.signed v.author) (.createVote k v.electionId) :=
      fun ha => ha.2.2 ⟨l, hl, v, hmem, rfl⟩
    have heff := apply_effect (T := T) ⟨.signed v.author, .createVote k v.electionId⟩ s
    obtain ⟨hresult, hstorage⟩ := heff.eq_of_not_accepts hn
    exact Prod.ext hresult hstorage

/-- A vote that failed with `CandidateNotFound` stands in the list of its election, and its author
is refused there, throughout every continuation that does not create the election again. -/
theorem run_lockedOut (T : Config Hash) (xs ys : List (Extrinsic Hash AccountId)) (a : AccountId)
    (k e : Hash)
    (h : (apply T ⟨.signed a, .createVote k e⟩ (run T xs)).1 =
      .error (.module .candidateNotFound)) (hys : ∀ y ∈ ys, ¬ Creates T e y) :
    Always (apply T) (LockedOut T ⟨k, e, a⟩) (run T (xs ++ [⟨.signed a, .createVote k e⟩])) ys := by
  intro pre hpre
  have heff := apply_effect (T := T) ⟨.signed a, .createVote k e⟩ (run T xs)
  rw [h] at heff
  obtain ⟨ha, hs⟩ := heff.createVote_of_candidateNotFound
  obtain ⟨l, hl⟩ := ha.2.1
  rw [run, finalState_concat, hs]
  have hlisted : (run T xs).recordBallot ⟨k, e, a⟩ |>.Records ⟨k, e, a⟩ :=
    ⟨l ++ [⟨k, e, a⟩], Storage.get_recordBallot hl, by simp⟩
  exact (records_finalState hlisted fun y hy => hys y (hpre.subset hy)).lockedOut

/-- The candidate is registered after the vote, which does not help its author. -/
theorem run_lockedOut_mock :
    let xs : List (Extrinsic _ Nat) := [⟨.root, .createElection Mock.board⟩]
    let vote : Extrinsic _ Nat := ⟨.signed 1, .createVote Mock.boardCandidate Mock.boardId⟩
    let ys : List (Extrinsic _ Nat) := [⟨.root, .createCandidate Mock.name Mock.boardId⟩, vote]
    Always (apply Mock.config) (LockedOut Mock.config ⟨Mock.boardCandidate, Mock.boardId, 1⟩)
      (run Mock.config (xs ++ [vote])) ys :=
  run_lockedOut Mock.config _ _ _ _ _ (by decide) (by decide)

end

end Votechain
