import Votechain.Pallet.Mock
import Votechain.Verify.Reachable

/-!
# Closing and voting over whole runs

The checks of `create_vote` look at the record and the list that are stored now, and creating an
election again resets both. A close is final, and an account votes once, for as long as the
election is not created again.
-/

open Frame Machine
open StorageMap (get_insert_self get_insert_of_ne get_adjust_of_ne get_insert_eq_some
  get_adjust_eq_some)

namespace Votechain

variable {Hash AccountId : Type}

/-- The call creates the election `e`. -/
def Creates (T : Config Hash) (e : Hash) (x : Extrinsic Hash AccountId) : Prop :=
  match x.origin, x.call with
  | .root, .createElection d => T.DescriptionFits d ∧ T.electionId d = e
  | _, _ => False

variable [DecidableEq Hash] {T : Config Hash} {s s' : Storage Hash AccountId}
  {o : Origin AccountId} {c : Call Hash} {r : Except DispatchError Unit}

theorem Creates.accepts (h : Creates T e ⟨o, c⟩) : s.Accepts T o c := by
  cases o <;> cases c <;> first | exact h.elim | exact h.1

instance (x : Extrinsic Hash AccountId) : Decidable (Creates T e x) := by
  unfold Creates; split <;> infer_instance

/-! ## Closing -/

/-- The election is stored and closed. -/
def Storage.IsClosed (s : Storage Hash AccountId) (e : Hash) : Prop :=
  ∃ election, s.elections.get e = some election ∧ election.isOpen = false

theorem Storage.IsClosed.not_isOpen (h : s.IsClosed e) : ¬ s.IsOpen e := by
  rintro ⟨election, he, ho⟩
  obtain ⟨election', he', hc⟩ := h
  cases he.symm.trans he'
  exact absurd ho (by simp [hc])

/-- The election is closed and its ballots are `l`. -/
def Frozen (e : Hash) (l : List (Vote Hash AccountId)) (s : Storage Hash AccountId) : Prop :=
  s.IsClosed e ∧ s.electionVotes.get e = some l

/-- Only creating it again thaws a frozen election. -/
theorem Effect.frozen_iff (h : Effect T s o c r s') (hp : Frozen e l s) :
    Frozen e l s' ↔ ¬ Creates T e ⟨o, c⟩ := by
  have hclosed := hp.1.not_isOpen
  obtain ⟨⟨election, he, hc⟩, hl⟩ := hp
  cases h with
  | refused hn => exact iff_of_true ⟨⟨election, he, hc⟩, hl⟩ fun hr => hn hr.accepts
  | somethingStored | incremented | candidateStored =>
    exact iff_of_true ⟨⟨election, he, hc⟩, hl⟩ id
  | @electionStored d hd =>
    constructor
    · rintro ⟨⟨election', he', hc'⟩, _⟩ ⟨_, rfl⟩
      cases get_insert_self.symm.trans he'
      cases hc'
    · intro hn
      have hne : e ≠ T.electionId d := fun heq => hn ⟨hd, heq.symm⟩
      exact ⟨⟨election, (get_insert_of_ne hne).trans he, hc⟩, (get_insert_of_ne hne).trans hl⟩
  | @electionUpdated e' ho =>
    have hne : e ≠ e' := fun heq => hclosed (heq ▸ ho)
    exact iff_of_true ⟨⟨election, (get_adjust_of_ne hne).trans he, hc⟩, hl⟩ id
  | @voteStored a e' k ha | @ballotOrphaned a e' k ha =>
    have hne : e ≠ e' := fun heq => hclosed (heq ▸ ha.1)
    exact iff_of_true ⟨⟨election, he, hc⟩, (get_adjust_of_ne hne).trans hl⟩ id

theorem Effect.createVote_of_ok (h : Effect T s o (.createVote k e) (.ok ()) s') :
    ∃ a, o = .signed a ∧ s.AcceptsBallot a e := by
  cases h with
  | voteStored ha => exact ⟨_, rfl, ha⟩

theorem Effect.closeElection_of_ok (h : Effect T s o (.closeElection e) (.ok ()) s') :
    s.IsOpen e ∧ s'.IsClosed e ∧ s'.electionVotes = s.electionVotes := by
  cases h with
  | electionUpdated ho =>
    obtain ⟨election, he, _⟩ := id ho
    refine ⟨ho, ⟨{ election with isOpen := false }, ?_, rfl⟩, rfl⟩
    exact get_adjust_eq_some.mpr (.inl ⟨rfl, election, he, rfl⟩)

section
variable [DecidableEq AccountId]

/-- From the storage `s` on, the run `xs` finds the election closed with the same ballots, and
refuses every vote in it. -/
structure StaysClosed (T : Config Hash) (s : Storage Hash AccountId) (e : Hash)
    (xs : List (Extrinsic Hash AccountId)) : Prop where
  closed : Always (apply T) (·.IsClosed e) s xs
  ballots : ∃ l, Always (apply T) (fun s => s.electionVotes.get e = some l) s xs
  refused : ∀ p ∈ trace (apply T) s xs, ∀ k, p.1.call = .createVote k e → p.2 ≠ .ok ()

theorem always_frozen_iff {xs : List (Extrinsic Hash AccountId)} (hp : Frozen e l s) :
    Always (apply T) (Frozen e l) s xs ↔ ∀ x ∈ xs, ¬ Creates T e x := by
  rw [← eachStep_const]
  exact always_iff_eachStep hp fun _ x _ hp => (apply_effect x _).frozen_iff hp

theorem staysClosed_iff {xs : List (Extrinsic Hash AccountId)} (hp : Frozen e l s) :
    StaysClosed T s e xs ↔ ∀ x ∈ xs, ¬ Creates T e x := by
  rw [← always_frozen_iff hp]
  constructor
  · intro h
    obtain ⟨l', hl'⟩ := h.ballots
    cases hp.2.symm.trans (hl' [] List.nil_prefix)
    exact fun pre hpre => ⟨h.closed pre hpre, hl' pre hpre⟩
  · intro h
    refine ⟨fun pre hpre => (h pre hpre).1, ⟨l, fun pre hpre => (h pre hpre).2⟩, ?_⟩
    rintro ⟨⟨o, c⟩, r⟩ hmem k rfl rfl
    obtain ⟨pre, hpre, hr⟩ := mem_trace hmem
    have heff := apply_effect (T := T) ⟨o, .createVote k e⟩ (finalState (apply T) s pre)
    rw [← hr] at heff
    obtain ⟨a, _, ha⟩ := heff.createVote_of_ok
    exact (h pre ((List.prefix_append ..).trans hpre)).1.not_isOpen ha.1

/-- After a run in which `close_election` has just succeeded, the election stays closed exactly
in the continuations that do not create it again. -/
theorem run_staysClosed_iff (T : Config Hash) (xs ys : List (Extrinsic Hash AccountId))
    (o : Origin AccountId) (e : Hash)
    (hok : (apply T ⟨o, .closeElection e⟩ (run T xs)).1 = .ok ()) :
    StaysClosed T (run T (xs ++ [⟨o, .closeElection e⟩])) e ys ↔ ∀ x ∈ ys, ¬ Creates T e x := by
  have heff := apply_effect (T := T) ⟨o, .closeElection e⟩ (run T xs)
  rw [hok] at heff
  obtain ⟨⟨election, he, _⟩, hclosed, hvotes⟩ := heff.closeElection_of_ok
  obtain ⟨l, hl⟩ := wellFormed_run.exists_ballots (Option.isSome_iff_exists.mpr ⟨election, he⟩)
  rw [run, finalState_concat]
  exact staysClosed_iff ⟨hclosed, hvotes ▸ hl⟩

/-- Votes, registrations and other elections leave a closed election closed. -/
theorem run_staysClosed_mock :
    let xs : List (Extrinsic _ Nat) := [⟨.root, .createElection Mock.board⟩]
    let close : Extrinsic _ Nat := ⟨.root, .closeElection Mock.boardId⟩
    let ys : List (Extrinsic _ Nat) := [⟨.root, .createElection Mock.council⟩,
      ⟨.root, .createCandidate Mock.name Mock.boardId⟩,
      ⟨.signed 1, .createVote Mock.boardCandidate Mock.boardId⟩]
    StaysClosed Mock.config (run Mock.config (xs ++ [close])) Mock.boardId ys :=
  (run_staysClosed_iff Mock.config _ _ .root _ (by decide)).mpr (by decide)

/-- Creating a closed election again opens it, and it takes a vote. -/
theorem not_staysClosed :
    let xs : List (Extrinsic _ Nat) := [⟨.root, .createElection Mock.board⟩]
    let close : Extrinsic _ Nat := ⟨.root, .closeElection Mock.boardId⟩
    let ys : List (Extrinsic _ Nat) := [⟨.root, .createElection Mock.board⟩,
      ⟨.root, .createCandidate Mock.name Mock.boardId⟩,
      ⟨.signed 1, .createVote Mock.boardCandidate Mock.boardId⟩]
    (apply Mock.config close (run Mock.config xs)).1 = .ok () ∧
      ¬ StaysClosed Mock.config (run Mock.config (xs ++ [close])) Mock.boardId ys := by
  refine ⟨by decide, fun h => ?_⟩
  exact h.refused (⟨.signed 1, .createVote Mock.boardCandidate Mock.boardId⟩, .ok ())
    (by decide) _ rfl rfl

end

/-! ## Voting once -/

theorem Storage.HasBallot.recordBallot (h : s.HasBallot a e) :
    (s.recordBallot v).HasBallot a e := by
  obtain ⟨l, hl, w, hw, hwa⟩ := h
  by_cases he : e = v.electionId
  · subst e
    exact ⟨l ++ [v], Storage.get_recordBallot hl, w, List.mem_append_left _ hw, hwa⟩
  · exact ⟨l, (get_adjust_of_ne he).trans hl, w, hw, hwa⟩

theorem Storage.AcceptsBallot.recordBallot (h : s.AcceptsBallot a e) :
    (s.recordBallot ⟨k, e, a⟩).HasBallot a e := by
  obtain ⟨_, ⟨l, hl⟩, _⟩ := h
  exact ⟨l ++ [⟨k, e, a⟩], Storage.get_recordBallot hl, _,
    List.mem_append_right _ (List.mem_singleton_self _), rfl⟩

/-- A recorded ballot stays until its election is created again. -/
theorem Effect.hasBallot (h : Effect T s o c r s') (hb : s.HasBallot a e)
    (hn : ¬ Creates T e ⟨o, c⟩) : s'.HasBallot a e := by
  cases h with
  | @electionStored d hd =>
    obtain ⟨l, hl, hv⟩ := hb
    have hne : e ≠ T.electionId d := fun heq => hn ⟨hd, heq.symm⟩
    exact ⟨l, (get_insert_of_ne hne).trans hl, hv⟩
  | voteStored | ballotOrphaned => exact hb.recordBallot
  | _ => exact hb

section
variable [DecidableEq AccountId]

/-- A vote signed by `a` that names `e` and succeeded. -/
def okVote (a : AccountId) (e : Hash) : Receipt Hash AccountId → Bool
  | (⟨.signed a', .createVote _ e'⟩, .ok ()) => a' = a ∧ e' = e
  | _ => false

theorem Effect.hasBallot_of_okVote (h : Effect T s o c r s') (hv : okVote a e (⟨o, c⟩, r) = true) :
    ¬ s.HasBallot a e ∧ s'.HasBallot a e := by
  cases h with
  | voteStored ha =>
    obtain ⟨rfl, rfl⟩ := of_decide_eq_true hv
    exact ⟨ha.2.2, ha.recordBallot⟩
  | refused => simp [okVote] at hv
  | _ => cases hv

/-- An account votes successfully in an election at most once in a run that never creates the
election while a ballot of the account stands in it. -/
theorem run_okVote_le_one (T : Config Hash) (xs : List (Extrinsic Hash AccountId)) (a : AccountId)
    (e : Hash)
    (h : EachStep (apply T) (fun s x => ¬ (Creates T e x ∧ s.HasBallot a e)) .empty xs) :
    (receipts T xs).countP (okVote a e) ≤ 1 := by
  -- without a ballot in the storage there is no successful vote in the history
  suffices hinv : (receipts T xs).countP (okVote a e) ≤ 1 ∧
      (¬ (run T xs).HasBallot a e → (receipts T xs).countP (okVote a e) = 0) from hinv.1
  refine h.trace_induction (P := fun hist s => hist.countP (okVote a e) ≤ 1 ∧
    (¬ s.HasBallot a e → hist.countP (okVote a e) = 0)) ?_ fun hist s x hG ih => ?_
  · simp
  · have heff := apply_effect (T := T) x s
    rw [List.countP_append, List.countP_singleton]
    by_cases hv : okVote a e (x, (apply T x s).1) = true
    · obtain ⟨hb, hb'⟩ := heff.hasBallot_of_okVote hv
      rw [ih.2 hb, if_pos hv]
      exact ⟨le_rfl, fun hn => absurd hb' hn⟩
    · rw [if_neg hv, Nat.add_zero]
      refine ⟨ih.1, fun hn => ih.2 fun hb => hn ?_⟩
      exact heff.hasBallot hb fun hc => hG ⟨hc, hb⟩

theorem run_okVote_mock :
    (receipts Mock.config ([⟨.root, .createElection Mock.board⟩,
      ⟨.root, .createCandidate Mock.name Mock.boardId⟩,
      ⟨.signed 1, .createVote Mock.boardCandidate Mock.boardId⟩,
      ⟨.signed 1, .createVote Mock.boardCandidate Mock.boardId⟩] : List (Extrinsic _ Nat))).countP
        (okVote 1 Mock.boardId) ≤ 1 := by
  refine run_okVote_le_one Mock.config _ 1 _ ?_
  refine eachStep_cons.mpr ⟨by decide, eachStep_cons.mpr ⟨by decide, eachStep_cons.mpr ⟨?_, ?_⟩⟩⟩
  · exact fun h => h.1
  · exact eachStep_cons.mpr ⟨fun h => h.1, eachStep_nil⟩

/-- After its election is created again, an account votes a second time. -/
theorem not_okVote_le_one :
    ¬ (receipts Mock.config ([⟨.root, .createElection Mock.board⟩,
      ⟨.root, .createCandidate Mock.name Mock.boardId⟩,
      ⟨.signed 1, .createVote Mock.boardCandidate Mock.boardId⟩,
      ⟨.root, .createElection Mock.board⟩,
      ⟨.signed 1, .createVote Mock.boardCandidate Mock.boardId⟩] : List (Extrinsic _ Nat))).countP
        (okVote 1 Mock.boardId) ≤ 1 := by
  decide

end

end Votechain
