import Votechain.Verify.Reachable
import Votechain.Pallet.Mock

/-!
# What one call can change

Exact conditions, at every reachable storage, for four properties of a single call: that a failed
call is atomic, that nothing recorded is lost, and that a call leaves the result of an election
alone, for a closed election and for an election other than the one it addresses.
-/

open Frame Machine

namespace Votechain

variable {Hash AccountId : Type} [DecidableEq Hash] {T : Config Hash}
  {s s' : Storage Hash AccountId} {o : Origin AccountId} {c : Call Hash}
  {r : Except DispatchError Unit}

/-! ## Failed calls -/

/-- A vote that its election takes, for a candidate without a tally. -/
def OrphansBallot (s : Storage Hash AccountId) (x : Extrinsic Hash AccountId) : Prop :=
  match x.origin, x.call with
  | .signed a, .createVote c e => s.AcceptsBallot a e ∧ ¬ s.HasTally c
  | _, _ => False

theorem OrphansBallot.accepts (h : OrphansBallot s ⟨o, c⟩) : s.Accepts T o c := by
  cases o <;> cases c <;> first | exact h.elim | exact h.1

theorem recordBallot_ne {v : Vote Hash AccountId} (h : s.AcceptsBallot v.author v.electionId) :
    s.recordBallot v ≠ s := by
  obtain ⟨_, ⟨l, hl⟩, _⟩ := h
  intro heq
  exact StorageMap.adjust_append_ne hl (congrArg (·.electionVotes.get v.electionId) heq)

/-- An effect that returns an error changed nothing, unless it orphaned a ballot. -/
theorem Effect.atomic_iff (h : Effect T s o c r s') :
    (∀ err, r = .error err → s' = s) ↔ ¬ OrphansBallot s ⟨o, c⟩ := by
  cases h with
  | refused hn => exact iff_of_true (fun _ _ => rfl) fun ho => hn ho.accepts
  | voteStored _ ht => exact iff_of_true nofun fun ho => ho.2 ht
  | ballotOrphaned ha ht =>
    exact iff_of_false (fun h => recordBallot_ne ha (h _ rfl)) fun hn => hn ⟨ha, ht⟩
  | _ => exact iff_of_true nofun id

section
variable [DecidableEq AccountId]

/-- If the call returns an error, the storage is what it was and no event was deposited. -/
def FailsAtomically (T : Config Hash) (s : Storage Hash AccountId)
    (x : Extrinsic Hash AccountId) : Prop :=
  ∀ err, (apply T x s).1 = .error err → (apply T x s).2 = s

/-- After any run, a further call fails atomically unless it orphans a ballot. -/
theorem run_failsAtomically_iff (T : Config Hash) (xs : List (Extrinsic Hash AccountId))
    (x : Extrinsic Hash AccountId) :
    FailsAtomically T (run T xs) x ↔ ¬ OrphansBallot (run T xs) x :=
  (apply_effect x _).atomic_iff

/-- A vote for an unknown candidate fails and leaves its ballot in the election. -/
theorem not_failsAtomically : ¬ FailsAtomically Mock.config
    (run Mock.config [⟨.root, .createElection Mock.board⟩])
    (⟨.signed 1, .createVote Mock.boardCandidate Mock.boardId⟩ : Extrinsic _ Nat) := by
  intro h
  have hs := h (.module .candidateNotFound) (by decide)
  exact absurd (congrArg (·.electionVotes.get Mock.boardId) hs) (by decide)

end

/-! ## Nothing is lost -/

/-- Every roster, list of ballots and tally of `s` is a prefix of the one in `s'`. -/
structure AppendOnly (s s' : Storage Hash AccountId) : Prop where
  rosters : s.electionCandidates.Extends s'.electionCandidates
  ballots : s.electionVotes.Extends s'.electionVotes
  tallies : s.candidateVotes.Extends s'.candidateVotes

/-- A creation under an id that is taken and has something to lose. -/
def Erases (T : Config Hash) (s : Storage Hash AccountId) (x : Extrinsic Hash AccountId) : Prop :=
  match x.origin, x.call with
  | .root, .createElection d => T.DescriptionFits d ∧
    ((∃ l, s.electionCandidates.get (T.electionId d) = some l ∧ l ≠ []) ∨
      ∃ l, s.electionVotes.get (T.electionId d) = some l ∧ l ≠ [])
  | .root, .createCandidate name e => T.NameFits name ∧ s.HasRoster e ∧
    ∃ l, s.candidateVotes.get (T.hashOfCandidate ⟨name, e⟩) = some l ∧ l ≠ []
  | _, _ => False

theorem Erases.accepts (h : Erases T s ⟨o, c⟩) : s.Accepts T o c := by
  cases o <;> cases c <;> first | exact h.elim | exact h.1 | exact ⟨h.1, h.2.1⟩

open StorageMap (Extends extends_adjust extends_insert_nil)

theorem Effect.appendOnly_iff (h : Effect T s o c r s') :
    AppendOnly s s' ↔ ¬ Erases T s ⟨o, c⟩ := by
  have rfl' : AppendOnly s s := ⟨.refl _, .refl _, .refl _⟩
  cases h with
  | refused hn => exact iff_of_true rfl' fun he => hn he.accepts
  | somethingStored | incremented | electionUpdated =>
    exact iff_of_true ⟨.refl _, .refl _, .refl _⟩ id
  | electionStored hd =>
    constructor
    · rintro h ⟨_, he | he⟩
      · exact extends_insert_nil.mp h.rosters he
      · exact extends_insert_nil.mp h.ballots he
    · exact fun hn => ⟨extends_insert_nil.mpr fun he => hn ⟨hd, .inl he⟩,
        extends_insert_nil.mpr fun he => hn ⟨hd, .inr he⟩, .refl _⟩
  | candidateStored hn hr =>
    constructor
    · exact fun h ⟨_, _, he⟩ => extends_insert_nil.mp h.tallies he
    · exact fun hne => ⟨extends_adjust, .refl _,
        extends_insert_nil.mpr fun he => hne ⟨hn, hr, he⟩⟩
  | voteStored => exact iff_of_true ⟨.refl _, extends_adjust, extends_adjust⟩ id
  | ballotOrphaned => exact iff_of_true ⟨.refl _, extends_adjust, .refl _⟩ id

/-- After any run, a further call loses nothing unless it creates an id that is taken. -/
theorem run_appendOnly_iff [DecidableEq AccountId] (T : Config Hash)
    (xs : List (Extrinsic Hash AccountId)) (x : Extrinsic Hash AccountId) :
    AppendOnly (run T xs) (apply T x (run T xs)).2 ↔ ¬ Erases T (run T xs) x :=
  (apply_effect x _).appendOnly_iff

/-- Creating an election a second time erases the ballots cast in it. -/
theorem not_appendOnly :
    let s : Storage _ Nat := run Mock.config [⟨.root, .createElection Mock.board⟩,
      ⟨.root, .createCandidate Mock.name Mock.boardId⟩,
      ⟨.signed 1, .createVote Mock.boardCandidate Mock.boardId⟩]
    ¬ AppendOnly s (apply Mock.config ⟨.root, .createElection Mock.board⟩ s).2 := by
  intro s h
  obtain ⟨l, hl, hp⟩ := h.ballots Mock.boardId [⟨Mock.boardCandidate, Mock.boardId, 1⟩] (by decide)
  have hl' : (apply Mock.config ⟨.root, .createElection Mock.board⟩ s).2.electionVotes.get
      Mock.boardId = some [] := by decide
  cases hl.symm.trans hl'
  exact absurd (List.prefix_nil.mp hp) (by simp)

/-! ## The result of an election -/

/-- The record, the roster and the ballots of `e` are the same in `s'`, and so is the tally of
every candidate that `s` stores for `e`. -/
structure SameResult (s s' : Storage Hash AccountId) (e : Hash) : Prop where
  election : s'.elections.get e = s.elections.get e
  roster : s'.electionCandidates.get e = s.electionCandidates.get e
  ballots : s'.electionVotes.get e = s.electionVotes.get e
  tallies : ∀ c y, s.candidates.get c = some y → y.electionId = e →
    s'.candidateVotes.get c = s.candidateVotes.get c

/-- A candidate of `e` whose tally holds ballots is stored under `c`. -/
def HasVotesIn (s : Storage Hash AccountId) (c e : Hash) : Prop :=
  (∃ y, s.candidates.get c = some y ∧ y.electionId = e) ∧
    ∃ tally, s.candidateVotes.get c = some tally ∧ tally ≠ []

/-- A registration or a vote that changes the roster, the ballots or a tally of `e`. -/
def TouchesResult (T : Config Hash) (s : Storage Hash AccountId) (x : Extrinsic Hash AccountId)
    (e : Hash) : Prop :=
  match x.origin, x.call with
  | .root, .createCandidate name e' => T.NameFits name ∧ s.HasRoster e' ∧
    (e' = e ∨ HasVotesIn s (T.hashOfCandidate ⟨name, e'⟩) e)
  | .signed a, .createVote c e' => s.AcceptsBallot a e' ∧
    (e' = e ∨ ∃ y, s.candidates.get c = some y ∧ y.electionId = e)
  | _, _ => False

theorem TouchesResult.accepts (h : TouchesResult T s ⟨o, c⟩ e) : s.Accepts T o c := by
  cases o <;> cases c <;> first | exact h.elim | exact h.1 | exact ⟨h.1, h.2.1⟩

theorem SameResult.refl : SameResult s s e := ⟨rfl, rfl, rfl, fun _ _ _ _ => rfl⟩

open StorageMap (get_insert_self get_insert_of_ne get_adjust_of_ne adjust_append_ne)

/-- A call that neither creates nor closes `e` keeps its result iff it does not touch it. -/
theorem Effect.sameResult_iff (hw : WellFormed T s) (h : Effect T s o c r s')
    (hcreate : ∀ d, c = .createElection d → T.electionId d ≠ e)
    (hclose : ∀ e', c = .closeElection e' → s.IsOpen e' → e' ≠ e) :
    SameResult s s' e ↔ ¬ TouchesResult T s ⟨o, c⟩ e := by
  cases h with
  | refused hn => exact iff_of_true .refl fun ht => hn ht.accepts
  | somethingStored | incremented => exact iff_of_true ⟨rfl, rfl, rfl, fun _ _ _ _ => rfl⟩ id
  | electionStored =>
    have hne := (hcreate _ rfl).symm
    exact iff_of_true ⟨get_insert_of_ne hne, get_insert_of_ne hne, get_insert_of_ne hne,
      fun _ _ _ _ => rfl⟩ id
  | electionUpdated ho =>
    have hne := (hclose _ rfl ho).symm
    exact iff_of_true ⟨get_adjust_of_ne hne, rfl, rfl, fun _ _ _ _ => rfl⟩ id
  | @candidateStored name e' hn hr =>
    constructor
    · rintro h ⟨_, ⟨roster, hroster⟩, rfl | ⟨⟨y, hy, hye⟩, tally, ht, hne⟩⟩
      · exact adjust_append_ne hroster h.roster
      · have := h.tallies _ y hy hye
        rw [ht] at this
        exact hne (Option.some.inj (get_insert_self.symm.trans this)).symm
    · intro hnt
      have hne := fun he => hnt ⟨hn, hr, .inl he⟩
      refine ⟨rfl, get_adjust_of_ne (Ne.symm hne), rfl, fun c y hy hye => ?_⟩
      by_cases hc : c = T.hashOfCandidate ⟨name, e'⟩
      · -- a colliding candidate of `e`: its tally is reset, and was empty
        subst hc
        obtain ⟨tally, ht⟩ := hw.hasTally hy
        have : tally = [] := by_contra fun h => hnt ⟨hn, hr, .inr ⟨⟨y, hy, hye⟩, tally, ht, h⟩⟩
        rw [ht, this]
        exact get_insert_self
      · exact get_insert_of_ne hc
  | voteStored ha ht =>
    obtain ⟨ballots, hb⟩ := ha.2.1
    obtain ⟨tally, ht⟩ := ht
    constructor
    · rintro h ⟨_, rfl | ⟨y, hy, hye⟩⟩
      · exact adjust_append_ne hb h.ballots
      · exact adjust_append_ne ht (h.tallies _ y hy hye)
    · intro hnt
      refine ⟨rfl, rfl, get_adjust_of_ne fun he => hnt ⟨ha, .inl he.symm⟩, fun c y hy hye => ?_⟩
      refine get_adjust_of_ne fun hc => hnt ⟨ha, .inr ⟨y, ?_, hye⟩⟩
      subst hc; exact hy
  | ballotOrphaned ha ht =>
    obtain ⟨ballots, hb⟩ := ha.2.1
    constructor
    · rintro h ⟨_, rfl | ⟨y, hy, hye⟩⟩
      · exact adjust_append_ne hb h.ballots
      · exact ht (hw.hasTally hy)
    · exact fun hnt => ⟨rfl, rfl, get_adjust_of_ne fun he => hnt ⟨ha, .inl he.symm⟩,
        fun _ _ _ _ => rfl⟩

section
variable [DecidableEq AccountId]

/-- After any run, a further call other than `create_election` leaves the result of a closed
election alone unless it touches it. -/
theorem run_sameResult_iff_of_closed (T : Config Hash) (xs : List (Extrinsic Hash AccountId))
    (x : Extrinsic Hash AccountId) (hx : ∀ d, x.call ≠ .createElection d)
    (hel : (run T xs).elections.get e = some election) (hclosed : election.isOpen = false) :
    SameResult (run T xs) (apply T x (run T xs)).2 e ↔ ¬ TouchesResult T (run T xs) x e := by
  refine (apply_effect x _).sameResult_iff wellFormed_run (fun d hd => absurd hd (hx d)) ?_
  rintro e' _ ⟨election', hel', ho⟩ rfl
  cases hel.symm.trans hel'
  simp [hclosed] at ho

/-- A vote in a closed election is refused, and the result stands. -/
theorem run_sameResult_of_closed_mock :
    let s : Storage _ Nat := run Mock.config [⟨.root, .createElection Mock.board⟩,
      ⟨.root, .createCandidate Mock.name Mock.boardId⟩, ⟨.root, .closeElection Mock.boardId⟩]
    SameResult s (apply Mock.config
      ⟨.signed 1, .createVote Mock.boardCandidate Mock.boardId⟩ s).2 Mock.boardId :=
  (run_sameResult_iff_of_closed Mock.config _ _ (by rintro d ⟨⟩)
    (show _ = some ⟨Mock.board, false⟩ by decide) rfl).mpr fun h => absurd h.1 (by decide)

/-- A closed election gains a candidate, and a ballot cast in another election. -/
theorem not_sameResult_of_closed :
    let s : Storage _ Nat := run Mock.config [⟨.root, .createElection Mock.board⟩,
      ⟨.root, .createCandidate Mock.name Mock.boardId⟩, ⟨.root, .closeElection Mock.boardId⟩,
      ⟨.root, .createElection Mock.council⟩]
    s.elections.get Mock.boardId = some ⟨Mock.board, false⟩ ∧
      ¬ SameResult s (apply Mock.config
        ⟨.root, .createCandidate Mock.council Mock.boardId⟩ s).2 Mock.boardId ∧
      ¬ SameResult s (apply Mock.config
        ⟨.signed 1, .createVote Mock.boardCandidate Mock.councilId⟩ s).2 Mock.boardId := by
  refine ⟨by decide, fun h => absurd h.roster (by decide), fun h => ?_⟩
  exact absurd (h.tallies Mock.boardCandidate ⟨Mock.name, Mock.boardId⟩ (by decide) rfl) (by decide)

/-- The call names or creates the election `e`. -/
def Addresses (T : Config Hash) (x : Extrinsic Hash AccountId) (e : Hash) : Prop :=
  match x.call with
  | .createElection d => T.electionId d = e
  | .closeElection e' | .createCandidate _ e' | .createVote _ e' => e' = e
  | _ => False

/-- A vote that its election takes, for a candidate stored for another election. -/
def CrossesElections (s : Storage Hash AccountId) (x : Extrinsic Hash AccountId) : Prop :=
  match x.origin, x.call with
  | .signed a, .createVote c e =>
    s.AcceptsBallot a e ∧ ∃ y, s.candidates.get c = some y ∧ y.electionId ≠ e
  | _, _ => False

/-- Without collisions, a registration touches only the election it names: the id of the new
candidate is free or holds that candidate. -/
theorem not_hasVotesIn_of_collisionFree {xs : List (Extrinsic Hash AccountId)}
    (hcf : CollisionFree T (xs ++ [⟨o, .createCandidate name e⟩])) (hne : e' ≠ e) :
    ¬ HasVotesIn (run T xs) (T.hashOfCandidate ⟨name, e⟩) e' := by
  rintro ⟨⟨y, hy, rfl⟩, _⟩
  have hmem : y ∈ candidateRecords (xs ++ [⟨o, .createCandidate name e⟩]) := by
    rw [candidateRecords, List.filterMap_append]
    exact List.mem_append_left _ (mem_candidateRecords hy)
  have hnew : ⟨name, e⟩ ∈ candidateRecords (xs ++ [⟨o, .createCandidate name e⟩]) := by
    simp [candidateRecords]
  have heq := hcf.candidates _ hnew _ hmem (wellFormed_run.candidates hy).1
  exact hne (congrArg Candidate.electionId heq).symm

/-- Without collisions, a call touches another election than its own iff it crosses into one. -/
theorem exists_touchesResult_iff {xs : List (Extrinsic Hash AccountId)}
    (hcf : CollisionFree T (xs ++ [x])) (hx : Addresses T x e) :
    (∃ e', e' ≠ e ∧ TouchesResult T (run T xs) x e') ↔ CrossesElections (run T xs) x := by
  obtain ⟨o, c⟩ := x
  constructor
  · rintro ⟨e', hne, ht⟩
    cases o with
    | root =>
      cases c with
      | createCandidate name e₀ =>
        cases hx
        obtain ⟨_, _, rfl | hv⟩ := ht
        · exact absurd rfl hne
        · exact absurd hv (not_hasVotesIn_of_collisionFree hcf hne)
      | _ => exact ht.elim
    | signed a =>
      cases c with
      | createVote c e₀ =>
        cases hx
        obtain ⟨ha, rfl | ⟨y, hy, rfl⟩⟩ := ht
        · exact absurd rfl hne
        · exact ⟨ha, y, hy, hne⟩
      | _ => exact ht.elim
    | _ => exact ht.elim
  · intro hc
    cases o with
    | signed a =>
      cases c with
      | createVote c e₀ =>
        cases hx
        obtain ⟨ha, y, hy, hne⟩ := hc
        exact ⟨y.electionId, hne, ha, .inr ⟨y, hy, rfl⟩⟩
      | _ => exact hc.elim
    | _ => exact hc.elim

/-- After any run without collisions, a further call leaves every election other than the one it
addresses alone unless it is a vote for a candidate of another election. -/
theorem run_isolated_iff (T : Config Hash) (xs : List (Extrinsic Hash AccountId))
    (x : Extrinsic Hash AccountId) (hcf : CollisionFree T (xs ++ [x])) (hx : Addresses T x e) :
    (∀ e', e' ≠ e → SameResult (run T xs) (apply T x (run T xs)).2 e') ↔
      ¬ CrossesElections (run T xs) x := by
  have hsame : ∀ e', e' ≠ e →
      (SameResult (run T xs) (apply T x (run T xs)).2 e' ↔ ¬ TouchesResult T (run T xs) x e') := by
    intro e' hne
    refine (apply_effect x _).sameResult_iff wellFormed_run ?_ ?_
    · intro d hd hid
      rw [Addresses, hd] at hx
      exact hne (hid.symm.trans hx)
    · intro e₀ he₀ _ heq
      rw [Addresses, he₀] at hx
      exact hne (heq.symm.trans hx)
  rw [← exists_touchesResult_iff hcf hx]
  constructor
  · rintro h ⟨e', hne, ht⟩
    exact (hsame e' hne).mp (h e' hne) ht
  · exact fun hn e' hne => (hsame e' hne).mpr fun ht => hn ⟨e', hne, ht⟩

/-- A vote for a candidate of its own election leaves the other election alone. -/
theorem run_isolated_mock :
    let s : Storage _ Nat := run Mock.config [⟨.root, .createElection Mock.board⟩,
      ⟨.root, .createElection Mock.council⟩, ⟨.root, .createCandidate Mock.name Mock.boardId⟩]
    ∀ e', e' ≠ Mock.boardId → SameResult s (apply Mock.config
      ⟨.signed 1, .createVote Mock.boardCandidate Mock.boardId⟩ s).2 e' := by
  refine (run_isolated_iff Mock.config _ _ ⟨by decide, by decide⟩ (by exact rfl)).mpr ?_
  rintro ⟨_, y, hy, hne⟩
  cases hy.symm.trans (show _ = some ⟨Mock.name, Mock.boardId⟩ by decide)
  exact hne rfl

/-- A vote in one election lands in the tally of a candidate of another. -/
theorem not_isolated :
    let xs : List (Extrinsic _ Nat) := [⟨.root, .createElection Mock.board⟩,
      ⟨.root, .createElection Mock.council⟩, ⟨.root, .createCandidate Mock.name Mock.boardId⟩]
    let x : Extrinsic _ Nat := ⟨.signed 1, .createVote Mock.boardCandidate Mock.councilId⟩
    CollisionFree Mock.config (xs ++ [x]) ∧ Addresses Mock.config x Mock.councilId ∧
      ¬ ∀ e', e' ≠ Mock.councilId →
        SameResult (run Mock.config xs) (apply Mock.config x (run Mock.config xs)).2 e' := by
  refine ⟨⟨by decide, by decide⟩, rfl, fun h => ?_⟩
  have hs := h Mock.boardId (by decide)
  exact absurd (hs.tallies Mock.boardCandidate ⟨Mock.name, Mock.boardId⟩ (by decide) rfl)
    (by decide)

end

end Votechain
