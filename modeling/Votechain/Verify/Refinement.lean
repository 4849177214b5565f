import Votechain.Theory.BallotBox
import Votechain.Theory.Refinement
import Votechain.Verify.Failures
import Votechain.Verify.Order
import Votechain.Verify.Rosters
import Votechain.Verify.Tallies

/-!
# The pallet as a ballot box

The pallet follows the ideal ballot box, whose elections and candidates are the ids, step by step:
it gives the same answers, and its lists hold the choices of the voters. It does so in exactly the
runs that never create an election or a candidate under an id that is taken, and never take a
ballot for anything but a stored candidate of the election. In these runs the result page shows
the counts of the ballot box.
-/

open Frame Machine
open StorageMap (get_insert get_adjust get_adjust_eq_some get_insert_eq_some Enumerates)

namespace Votechain
open Client

variable {Hash AccountId : Type} [DecidableEq Hash] {T : Config Hash}
  {s s' : Storage Hash AccountId} {o : Origin AccountId} {c : Call Hash}
  {r : Except DispatchError Unit} {b : BallotBox AccountId Hash Hash}

/-- What the call asks of the ballot box. A call by another origin than its own, or with a text
that does not fit, asks nothing. -/
def operation (T : Config Hash) (x : Extrinsic Hash AccountId) :
    Option (BallotBox.Op AccountId Hash Hash) :=
  match x.origin, x.call with
  | .root, .createElection d => if T.DescriptionFits d then some (.hold (T.electionId d)) else none
  | .root, .closeElection e => some (.close e)
  | .root, .createCandidate name e =>
    if T.NameFits name then some (.nominate (T.hashOfCandidate ⟨name, e⟩) e) else none
  | .signed a, .createVote k e => some (.cast a k e)
  | _, _ => none

omit [DecidableEq Hash] in
theorem operation_createElection {d : List UInt8} (hd : T.DescriptionFits d) :
    operation T (⟨.root, .createElection d⟩ : Extrinsic Hash AccountId) =
      some (.hold (T.electionId d)) :=
  if_pos hd

omit [DecidableEq Hash] in
theorem operation_createCandidate {name : List UInt8} (hn : T.NameFits name) :
    operation T (⟨.root, .createCandidate name e⟩ : Extrinsic Hash AccountId) =
      some (.nominate (T.hashOfCandidate ⟨name, e⟩) e) :=
  if_pos hn

/-- The storage holds what is in the ballot box: the elections and candidates with the same status,
and one ballot for every choice. The rosters and the tallies are those of the candidates and of the
ballots. -/
structure Represents (T : Config Hash) (s : Storage Hash AccountId)
    (b : BallotBox AccountId Hash Hash) : Prop where
  isOpen : ∀ e, (s.elections.get e).map Election.isOpen = b.isOpen e
  runsIn : ∀ k, (s.candidates.get k).map Candidate.electionId = b.runsIn k
  ballots : ∀ v, s.Records v ↔ b.choice v.electionId v.author = some v.candidateId
  rosters : RostersMatch T s
  tallies : TalliesMatch s

/-- A call that the ballot box would not allow and that leaves its mark on the storage: an election
or a candidate is created again, or a ballot is recorded for something other than a stored candidate
of its election. -/
def Deviates (T : Config Hash) (s : Storage Hash AccountId) (x : Extrinsic Hash AccountId) : Prop :=
  match x.origin, x.call with
  | .root, .createElection d => T.DescriptionFits d ∧
    ∃ election, s.elections.get (T.electionId d) = some election
  | .root, .createCandidate name e => T.NameFits name ∧ s.HasRoster e ∧
    ∃ y, s.candidates.get (T.hashOfCandidate ⟨name, e⟩) = some y
  | .signed a, .createVote k e => s.AcceptsBallot a e ∧ ¬ s.StoresFor k e
  | _, _ => False

instance (k e : Hash) : Decidable (s.StoresFor k e) :=
  decidable_of_iff ((s.candidates.get k).any (·.electionId = e) = true)
    (by simp [Storage.StoresFor, Option.any_eq_true])

instance {V : Type} (m : StorageMap Hash V) (k : Hash) : Decidable (∃ v, m.get k = some v) :=
  decidable_of_iff _ Option.isSome_iff_exists

instance [DecidableEq AccountId] : (x : Extrinsic Hash AccountId) → Decidable (Deviates T s x)
  | ⟨.root, .createElection _⟩ => instDecidableAnd
  | ⟨.root, .createCandidate _ _⟩ => instDecidableAnd
  | ⟨.signed _, .createVote _ _⟩ => instDecidableAnd
  | ⟨.root, .doSomething _⟩ | ⟨.root, .causeError⟩ | ⟨.root, .closeElection _⟩
  | ⟨.root, .createVote _ _⟩ | ⟨.signed _, .doSomething _⟩ | ⟨.signed _, .causeError⟩
  | ⟨.signed _, .createElection _⟩ | ⟨.signed _, .closeElection _⟩
  | ⟨.signed _, .createCandidate _ _⟩ | ⟨.none, _⟩ | ⟨.other, _⟩ => .isFalse id

theorem Deviates.accepts (h : Deviates T s ⟨o, c⟩) : s.Accepts T o c := by
  cases o <;> cases c <;> first | exact h.elim | exact h.1 | exact ⟨h.1, h.2.1⟩

namespace Represents

theorem empty : Represents T (.empty : Storage Hash AccountId) .empty where
  isOpen e := by simp [BallotBox.empty]
  runsIn k := by simp [BallotBox.empty]
  ballots v := by simp [Storage.Records, BallotBox.empty]
  rosters e l hl := by simp at hl
  tallies k x hx := by simp at hx

/-! ### Reading the storage -/

theorem isOpen_iff (hp : Represents T s b) : s.IsOpen e ↔ b.isOpen e = some true := by
  rw [← hp.isOpen e, Option.map_eq_some_iff]
  rfl

theorem storesFor_iff (hp : Represents T s b) : s.StoresFor k e ↔ b.runsIn k = some e := by
  rw [← hp.runsIn k, Option.map_eq_some_iff]
  rfl

theorem exists_election_iff (hp : Represents T s b) :
    (∃ election, s.elections.get e = some election) ↔ b.isOpen e ≠ none := by
  rw [← hp.isOpen e, ← Option.isSome_iff_exists, Option.ne_none_iff_isSome, Option.isSome_map]

theorem exists_candidate_iff (hp : Represents T s b) :
    (∃ y, s.candidates.get k = some y) ↔ b.runsIn k ≠ none := by
  rw [← hp.runsIn k, ← Option.isSome_iff_exists, Option.ne_none_iff_isSome, Option.isSome_map]

theorem hasRoster_iff (hw : WellFormed T s) (hp : Represents T s b) :
    s.HasRoster e ↔ (b.isOpen e).isSome := by
  rw [Storage.HasRoster, ← Option.isSome_iff_exists, hw.rosters e, ← hp.isOpen e,
    Option.isSome_map]

theorem hasBallot_iff (hw : WellFormed T s) (hp : Represents T s b) :
    s.HasBallot a e ↔ b.choice e a ≠ none := by
  constructor
  · rintro ⟨l, hl, v, hv, rfl⟩
    have he := hw.ballots hl v hv
    subst he
    rw [(hp.ballots v).mp ⟨l, hl, hv⟩]
    exact nofun
  · intro h
    obtain ⟨k, hk⟩ := Option.ne_none_iff_exists'.mp h
    obtain ⟨l, hl, hv⟩ := (hp.ballots ⟨k, e, a⟩).mpr hk
    exact ⟨l, hl, _, hv, rfl⟩

theorem acceptsBallot_iff (hw : WellFormed T s) (hp : Represents T s b) :
    s.AcceptsBallot a e ↔ b.isOpen e = some true ∧ b.choice e a = none := by
  rw [Storage.AcceptsBallot, hp.isOpen_iff, hp.hasBallot_iff hw, not_not]
  constructor
  · exact fun h => ⟨h.1, h.2.2⟩
  · intro h
    obtain ⟨election, he, _⟩ := hp.isOpen_iff.mpr h.1
    exact ⟨h.1, hw.exists_ballots (Option.isSome_iff_exists.mpr ⟨election, he⟩), h.2⟩

/-- The ballot box allows what the storage accepts, except for what deviates. -/
theorem accepts_iff (hw : WellFormed T s) (hp : Represents T s b)
    (hop : operation T ⟨o, c⟩ = some op) :
    b.Accepts op ↔ s.Accepts T o c ∧ ¬ Deviates T s ⟨o, c⟩ := by
  unfold operation at hop
  split at hop
  · rename_i ho hc
    cases ho
    cases hc
    obtain ⟨hd, hop⟩ := Option.ite_none_right_eq_some.mp hop
    cases hop
    simp only [BallotBox.Accepts, Storage.Accepts, Deviates, hp.exists_election_iff, hd, true_and,
      not_not]
  · rename_i ho hc
    cases ho
    cases hc
    cases hop
    simp only [BallotBox.Accepts, Storage.Accepts, Deviates, not_false_iff, and_true,
      hp.isOpen_iff]
  · rename_i ho hc
    cases ho
    cases hc
    obtain ⟨hn, hop⟩ := Option.ite_none_right_eq_some.mp hop
    cases hop
    simp only [BallotBox.Accepts, Storage.Accepts, Deviates, hp.exists_candidate_iff,
      hp.hasRoster_iff hw, hn, true_and, not_and, not_not]
    exact ⟨fun h => ⟨h.1, fun _ => h.2⟩, fun h => ⟨h.1, h.2 h.1⟩⟩
  · rename_i ho hc
    cases ho
    cases hc
    cases hop
    simp only [BallotBox.Accepts, Storage.Accepts, Deviates, hp.acceptsBallot_iff hw,
      hp.storesFor_iff, not_and, not_not]
    exact ⟨fun h => ⟨⟨h.1, h.2.2⟩, fun _ => h.2.1⟩, fun h => ⟨h.1.1, h.2 h.1, h.1.2⟩⟩
  · cases hop

/-! ### One effect -/

/-- What does not deviate splits neither the registries nor the tallies. -/
theorem not_splitsRegistry (hw : WellFormed T s) (hd : ¬ Deviates T s ⟨o, c⟩) :
    ¬ SplitsRegistry T s ⟨o, c⟩ := by
  intro hs
  cases o <;> cases c <;> try exact hs.elim
  · obtain ⟨hfits, l, hl, _⟩ := hs
    have he := hw.isSome_of_hasRoster ⟨l, hl⟩
    exact hd ⟨hfits, Option.isSome_iff_exists.mp he⟩
  · exact hd hs

theorem not_splitsTally (hw : WellFormed T s) (hp : Represents T s b)
    (hd : ¬ Deviates T s ⟨o, c⟩) : ¬ SplitsTally T s ⟨o, c⟩ := by
  intro hs
  cases o <;> cases c <;> try exact hs.elim
  · obtain ⟨hfits, k, ⟨x, hx, he⟩, _⟩ := hs
    have hsome := (hw.candidates hx).2
    rw [he] at hsome
    exact hd ⟨hfits, Option.isSome_iff_exists.mp hsome⟩
  · -- a ballot for the new candidate would be a choice of somebody who does not run
    obtain ⟨hfits, hr, l, hl, v, hv, hk⟩ := hs
    obtain rfl := hw.ballots hl v hv
    have hchoice := (hp.ballots v).mp ⟨l, hl, hv⟩
    refine hd ⟨hfits, hr, hp.exists_candidate_iff.mpr ?_⟩
    rw [← hk, b.runs hchoice]
    exact nofun
  · obtain ⟨ha, x, hx, hne⟩ := hs
    refine hd ⟨ha, ?_⟩
    rintro ⟨y, hy, he⟩
    cases hx.symm.trans hy
    exact hne he

theorem openElection (hp : Represents T s b) {d : List UInt8}
    (h : b.Accepts (.hold (T.electionId d))) (hr : RostersMatch T (s.openElection T d))
    (ht : TalliesMatch (s.openElection T d)) :
    Represents T (s.openElection T d) (b.perform _ h) where
  isOpen e := by
    rw [Storage.openElection_elections, get_insert, BallotBox.isOpen_hold]
    split
    · rfl
    · exact hp.isOpen e
  runsIn := hp.runsIn
  ballots v := by
    by_cases hv : v.electionId = T.electionId d
    · -- nobody had a choice in an election that was not held
      refine iff_of_false ?_ fun hc => ?_
      · rintro ⟨l, hl, hmem⟩
        rw [Storage.openElection_electionVotes, hv, StorageMap.get_insert_self] at hl
        cases hl
        cases hmem
      · have hheld := b.held (b.runs hc)
        rw [hv, h] at hheld
        cases hheld
    · refine Iff.trans ?_ (hp.ballots v)
      rw [Storage.Records, Storage.openElection_electionVotes, StorageMap.get_insert_of_ne hv]
      rfl
  rosters := hr
  tallies := ht

theorem closeElection (hp : Represents T s b) (h : b.Accepts (.close e)) :
    Represents T (s.closeElection e) (b.perform _ h) where
  isOpen e' := by
    rw [Storage.closeElection_elections, get_adjust, BallotBox.isOpen_close]
    split
    · subst e'
      obtain ⟨election, he, _⟩ := hp.isOpen_iff.mpr h
      rw [he]
      rfl
    · exact hp.isOpen e'
  runsIn := hp.runsIn
  ballots := hp.ballots
  rosters := hp.rosters
  tallies := hp.tallies

theorem registerCandidate (hp : Represents T s b) {x : Candidate Hash}
    (h : b.Accepts (.nominate (T.hashOfCandidate x) x.electionId))
    (hr : RostersMatch T (s.registerCandidate T x)) (ht : TalliesMatch (s.registerCandidate T x)) :
    Represents T (s.registerCandidate T x) (b.perform _ h) where
  isOpen := hp.isOpen
  runsIn k := by
    rw [Storage.registerCandidate_candidates, get_insert, BallotBox.runsIn_nominate]
    split
    · rfl
    · exact hp.runsIn k
  ballots := hp.ballots
  rosters := hr
  tallies := ht

theorem vote (hp : Represents T s b) {v : Vote Hash AccountId}
    (hl : ∃ l, s.electionVotes.get v.electionId = some l)
    (h : b.Accepts (.cast v.author v.candidateId v.electionId))
    (ht : TalliesMatch ((s.recordBallot v).tallyBallot v)) :
    Represents T ((s.recordBallot v).tallyBallot v) (b.perform _ h) where
  isOpen := hp.isOpen
  runsIn := hp.runsIn
  ballots w := by
    rw [BallotBox.choice_cast, ← hp.ballots w]
    obtain ⟨l, hl⟩ := hl
    by_cases he : w.electionId = v.electionId
    · have hw : s.Records w ↔ w ∈ l := by
        rw [Storage.Records, he, hl]
        simp
      have hw' : ((s.recordBallot v).tallyBallot v).Records w ↔ w ∈ l ++ [v] := by
        rw [Storage.Records, he, Storage.tallyBallot_electionVotes, Storage.get_recordBallot hl]
        simp
      rw [hw', hw, List.mem_append, List.mem_singleton]
      refine or_congr_right ⟨?_, ?_⟩
      · rintro rfl
        exact ⟨rfl, rfl, rfl⟩
      · rintro ⟨he, ha, hk⟩
        cases w
        cases v
        simp_all
    · rw [Storage.Records, Storage.tallyBallot_electionVotes, Storage.recordBallot_electionVotes,
        StorageMap.get_adjust_of_ne he]
      exact (or_iff_left fun h => he h.1).symm
  rosters := hp.rosters
  tallies := ht

theorem deposit (hp : Represents T s b) (event : Event Hash AccountId) :
    Represents T (s.deposit event) b :=
  ⟨hp.isOpen, hp.runsIn, hp.ballots, hp.rosters, hp.tallies⟩

/-- A call that asks nothing of the ballot box changes nothing that it is about. -/
theorem of_operation_eq_none (hp : Represents T s b) (hop : operation T ⟨o, c⟩ = none)
    (h : Effect T s o c r s') : Represents T s' b := by
  cases h with
  | refused => exact hp
  | somethingStored | incremented =>
    exact ⟨hp.isOpen, hp.runsIn, hp.ballots, hp.rosters, hp.tallies⟩
  | electionStored hd => cases (operation_createElection hd).symm.trans hop
  | candidateStored hn => cases (operation_createCandidate hn).symm.trans hop
  | _ => cases hop

/-- A call that is accepted and does not deviate succeeds, and does what it asks of the ballot
box. -/
theorem perform (hw : WellFormed T s) (hp : Represents T s b)
    (hop : operation T ⟨o, c⟩ = some op) (h : Effect T s o c r s') (hs : s.Accepts T o c)
    (hd : ¬ Deviates T s ⟨o, c⟩) (hr : RostersMatch T s') (ht : TalliesMatch s')
    (ha : b.Accepts op) : r.isOk = true ∧ Represents T s' (b.perform op ha) := by
  cases h with
  | refused hn => exact absurd hs hn
  | somethingStored | incremented => cases hop
  | electionStored hfits =>
    cases hop.symm.trans (operation_createElection hfits)
    exact ⟨rfl, (hp.openElection ha hr ht).deposit _⟩
  | electionUpdated =>
    cases hop
    exact ⟨rfl, (hp.closeElection ha).deposit _⟩
  | candidateStored hn =>
    cases hop.symm.trans (operation_createCandidate hn)
    exact ⟨rfl, (hp.registerCandidate ha hr ht).deposit _⟩
  | @voteStored a e k hballot =>
    cases hop
    exact ⟨rfl, (hp.vote (v := ⟨k, e, a⟩) hballot.2.1 ha ht).deposit _⟩
  | ballotOrphaned hballot htally =>
    refine absurd ⟨hballot, ?_⟩ hd
    rintro ⟨x, hx, _⟩
    exact htally (hw.hasTally hx)

end Represents

theorem Deviates.exists_operation (h : Deviates T s ⟨o, c⟩) :
    ∃ op, operation T ⟨o, c⟩ = some op := by
  cases o <;> cases c <;> try exact h.elim
  · exact ⟨_, operation_createElection h.1⟩
  · exact ⟨_, operation_createCandidate h.1⟩
  · exact ⟨_, rfl⟩

/-- What deviates succeeds, or it records a ballot. -/
theorem Effect.ok_or_orphaned (h : Effect T s o c r s') (hd : Deviates T s ⟨o, c⟩) :
    r = .ok () ∨ ∃ v, s.AcceptsBallot v.author v.electionId ∧ s' = s.recordBallot v := by
  cases h with
  | refused hn => exact absurd hd.accepts hn
  | @ballotOrphaned a e k ha => exact .inr ⟨⟨k, e, a⟩, ha, rfl⟩
  | _ => exact .inl rfl

section
variable [DecidableEq AccountId]

/-! ### One call -/

/-- The ballot box follows the call. -/
abbrev BoxFollows (T : Config Hash) (s : Storage Hash AccountId)
    (b : BallotBox AccountId Hash Hash) (x : Extrinsic Hash AccountId) : Prop :=
  Follows (apply T) BallotBox.step (Represents T) (operation T) Except.isOk s b x

/-- The ballot box follows the calls of the run from the first one on. -/
abbrev RefinesBallotBox (T : Config Hash) (xs : List (Extrinsic Hash AccountId)) : Prop :=
  Refines (apply T) BallotBox.step (Represents T) (operation T) Except.isOk .empty .empty xs

namespace Represents

theorem follows_of_not_deviates (hw : WellFormed T s) (hp : Represents T s b)
    (hd : ¬ Deviates T s ⟨o, c⟩) : BoxFollows T s b ⟨o, c⟩ := by
  have heff := apply_effect (T := T) ⟨o, c⟩ s
  have hr := (heff.rostersMatch_iff hw hp.rosters).mpr (not_splitsRegistry hw hd)
  have ht := (heff.talliesMatch_iff hw hp.tallies).mpr (hp.not_splitsTally hw hd)
  cases hop : operation T ⟨o, c⟩ with
  | none =>
    rw [BoxFollows, follows_of_none hop]
    exact hp.of_operation_eq_none hop heff
  | some op =>
    rw [BoxFollows, follows_of_some hop]
    by_cases hs : s.Accepts T o c
    · have ha := (hp.accepts_iff hw hop).mpr ⟨hs, hd⟩
      rw [BallotBox.step_of_accepts ha]
      exact hp.perform hw hop heff hs hd hr ht ha
    · have hna : ¬ b.Accepts op := mt (fun h => ((hp.accepts_iff hw hop).mp h).1) hs
      obtain ⟨hresult, hstorage⟩ := heff.eq_of_not_accepts hs
      rw [BallotBox.step_of_not_accepts hna, hresult, hstorage]
      exact ⟨rfl, hp⟩

/-- What deviates is refused by the ballot box: either the pallet accepts it, or it keeps a ballot
that is nobody's choice. -/
theorem not_follows_of_deviates (hw : WellFormed T s) (hp : Represents T s b)
    (hd : Deviates T s ⟨o, c⟩) : ¬ BoxFollows T s b ⟨o, c⟩ := by
  intro hfollows
  obtain ⟨op, hop⟩ := hd.exists_operation
  have hna : ¬ b.Accepts op := mt (fun h => ((hp.accepts_iff hw hop).mp h).2) (not_not.mpr hd)
  rw [BoxFollows, follows_of_some hop, BallotBox.step_of_not_accepts hna] at hfollows
  obtain ⟨hanswer, hp'⟩ := hfollows
  have heff := apply_effect (T := T) ⟨o, c⟩ s
  rcases heff.ok_or_orphaned hd with hok | ⟨v, hv, horphaned⟩
  · rw [hok] at hanswer
    cases hanswer
  · rw [horphaned] at hp'
    obtain ⟨l, hl⟩ := hv.2.1
    have hmem : v ∈ l ++ [v] := by simp
    have hchoice := (hp'.ballots v).mp ⟨_, Storage.get_recordBallot hl, hmem⟩
    cases hchoice.symm.trans ((hp.acceptsBallot_iff hw).mp hv).2

end Represents

/-! ## Runs -/

/-- No call of the run deviates. -/
def Disciplined (T : Config Hash) (xs : List (Extrinsic Hash AccountId)) : Prop :=
  EachStep (apply T) (fun s x => ¬ Deviates T s x) .empty xs

instance {xs : List (Extrinsic Hash AccountId)} : Decidable (Disciplined T xs) :=
  inferInstanceAs (Decidable (EachStep ..))

theorem refinesBallotBox_iff {xs : List (Extrinsic Hash AccountId)} : RefinesBallotBox T xs ↔
    Disciplined T xs := by
  refine refines_iff_eachStep .empty fun pre x b _ hp => ?_
  constructor
  · exact fun h hd => hp.not_follows_of_deviates wellFormed_run hd h
  · exact hp.follows_of_not_deviates wellFormed_run

end

/-! ## What the ballot box says about the storage -/

namespace Represents

/-- The authors of the ballots for which `p` holds are the voters with such a choice. -/
theorem mem_authors_iff (hw : WellFormed T s) (hp : Represents T s b) {p : Hash → Bool}
    (hl : s.electionVotes.get e = some l) :
    a ∈ (l.filter fun v => p v.candidateId).map Vote.author ↔
      ∃ k, b.choice e a = some k ∧ p k = true := by
  simp only [List.mem_map, List.mem_filter]
  constructor
  · rintro ⟨v, ⟨hv, hk⟩, rfl⟩
    obtain rfl := hw.ballots hl v hv
    exact ⟨_, (hp.ballots v).mp ⟨l, hl, hv⟩, hk⟩
  · rintro ⟨k, hk, hpk⟩
    obtain ⟨l', hl', hv⟩ := (hp.ballots ⟨k, e, a⟩).mpr hk
    cases hl.symm.trans hl'
    exact ⟨_, ⟨hv, hpk⟩, rfl⟩

/-- A ballot stands in the tally of its candidate iff it stands in the list of its election. -/
theorem tallied_iff (hw : WellFormed T s) (hp : Represents T s b)
    {v : Vote Hash AccountId} :
    (∃ l, s.candidateVotes.get v.candidateId = some l ∧ v ∈ l) ↔ s.Records v := by
  constructor
  · rintro ⟨l, hl, hv⟩
    obtain ⟨x, hx⟩ := Option.isSome_iff_exists.mp
      ((hw.tallies v.candidateId).symm.trans (by rw [hl]; rfl))
    obtain ⟨ballots, hb, htally⟩ := hp.tallies _ x hx
    cases hl.symm.trans htally
    obtain ⟨hv, _⟩ := List.mem_filter.mp hv
    have he := hw.ballots hb v hv
    exact ⟨ballots, he ▸ hb, hv⟩
  · rintro ⟨ballots, hb, hv⟩
    obtain ⟨x, hx, he⟩ := hp.storesFor_iff.mpr (b.runs ((hp.ballots v).mp ⟨ballots, hb, hv⟩))
    obtain ⟨ballots', hb', htally⟩ := hp.tallies _ x hx
    rw [he] at hb'
    cases hb.symm.trans hb'
    exact ⟨_, htally, List.mem_filter.mpr ⟨hv, decide_eq_true rfl⟩⟩

/-- Counting ballots counts voters. -/
theorem ncard_eq_length (hw : WellFormed T s) (hp : Represents T s b) (p : Hash → Bool)
    (hl : s.electionVotes.get e = some l) :
    {a | ∃ k, b.choice e a = some k ∧ p k = true}.ncard =
      (l.filter fun v => p v.candidateId).length := by
  have hnodup : ((l.filter fun v => p v.candidateId).map Vote.author).Nodup :=
    (hw.authors hl).sublist (List.filter_sublist.map _)
  refine (BallotBox.ncard_eq_length hnodup fun a => ?_).trans (List.length_map _)
  exact hp.mem_authors_iff hw hl

theorem votesFor_eq (hw : WellFormed T s) (hp : Represents T s b)
    (hl : s.electionVotes.get e = some l) :
    b.votesFor e k = (l.filter fun v => v.candidateId = k).length := by
  rw [BallotBox.votesFor, ← hp.ncard_eq_length hw (fun k' => k' = k) hl]
  simp

theorem turnout_eq (hw : WellFormed T s) (hp : Represents T s b)
    (hl : s.electionVotes.get e = some l) : b.turnout e = l.length := by
  have h := hp.ncard_eq_length hw (fun _ => true) hl
  rw [List.filter_true] at h
  rw [BallotBox.turnout, ← h]
  simp [Option.isSome_iff_exists]

/-- An election without a list of ballots is not held, and nobody has a choice in it. -/
theorem choice_eq_none (hp : Represents T s b)
    (hl : s.electionVotes.get e = none) : b.choice e a = none := by
  cases hc : b.choice e a with
  | none => rfl
  | some k =>
    obtain ⟨l, hl', _⟩ := (hp.ballots ⟨k, e, a⟩).mpr hc
    cases hl.symm.trans hl'

theorem votesCell_eq (hw : WellFormed T s) (hp : Represents T s b) {cand : SelectOption Hash} :
    votesCell (fetchVotes s.electionVotes e) cand = b.votesFor e cand.key := by
  rw [fetchVotes]
  cases hl : s.electionVotes.get e with
  | some l => exact (hp.votesFor_eq hw hl).symm
  | none => simp [votesCell, BallotBox.votesFor, hp.choice_eq_none hl]

theorem totalCell_eq (hw : WellFormed T s) (hp : Represents T s b) :
    totalCell (fetchVotes s.electionVotes e) = b.turnout e := by
  rw [fetchVotes]
  cases hl : s.electionVotes.get e with
  | some l => exact (hp.turnout_eq hw hl).symm
  | none => simp [totalCell, BallotBox.turnout, hp.choice_eq_none hl]

end Represents

/-- What the node stores and the client shows are the counts of the ballot box. -/
structure ShowsCounts (s : Storage Hash AccountId) (b : BallotBox AccountId Hash Hash) : Prop where
  tallies : ∀ k x, s.candidates.get k = some x → ∃ tally,
    s.candidateVotes.get k = some tally ∧ tally.length = b.votesFor x.electionId k
  cells : ∀ e cand, votesCell (fetchVotes s.electionVotes e) cand = b.votesFor e cand.key
  total : ∀ e, totalCell (fetchVotes s.electionVotes e) = b.turnout e
  rows : ∀ toHuman entries, Enumerates entries s.candidates → ∀ e,
    ((fetchCandidates toHuman entries e).map fun cand => b.votesFor e cand.key).sum = b.turnout e

theorem Represents.showsCounts (hw : WellFormed T s) (hp : Represents T s b) :
    ShowsCounts s b where
  tallies k x hx := by
    obtain ⟨ballots, hl, htally⟩ := hp.tallies k x hx
    exact ⟨_, htally, (hp.votesFor_eq hw hl).symm⟩
  cells e cand := hp.votesCell_eq hw
  total e := hp.totalCell_eq hw
  rows toHuman entries hen e := by
    -- a choice runs in the election, so it is one of the options
    have hkeys : ∀ a k, b.choice e a = some k →
        k ∈ (fetchCandidates toHuman entries e).map SelectOption.key := by
      intro a k hk
      obtain ⟨x, hx, he⟩ := hp.storesFor_iff.mpr (b.runs hk)
      exact List.mem_map.mpr ⟨_, (mem_fetchCandidates hen).mpr ⟨k, x, hx, he, rfl⟩, rfl⟩
    have hsum := BallotBox.sum_votesFor (nodup_keys_fetchCandidates hen) hkeys
    rwa [List.map_map] at hsum

section
variable [DecidableEq AccountId] {xs : List (Extrinsic Hash AccountId)}

/-- The ballot box after the operations of the run. -/
noncomputable abbrev ballotBox (T : Config Hash) (xs : List (Extrinsic Hash AccountId)) :
    BallotBox AccountId Hash Hash :=
  finalState BallotBox.step .empty (xs.filterMap (operation T))

theorem Disciplined.represents {pre : List (Extrinsic Hash AccountId)} (h : Disciplined T xs)
    (hpre : pre <+: xs) : Represents T (run T pre) (ballotBox T pre) :=
  (refinesBallotBox_iff.mpr fun pre' x hpre' => h pre' x (hpre'.trans hpre)).rel_finalState

omit [DecidableEq Hash] [DecidableEq AccountId] in
theorem lasts_ballotBox {pre : List (Extrinsic Hash AccountId)} (h : pre <+: xs) :
    (ballotBox T pre).Lasts (ballotBox T xs) := by
  obtain ⟨rest, rfl⟩ := h
  rw [ballotBox, ballotBox, List.filterMap_append, finalState_append]
  exact .run _ _

/-- A stored candidate stays in its election. -/
theorem Disciplined.storesFor {pre pre' : List (Extrinsic Hash AccountId)} (h : Disciplined T xs)
    (hpre : pre <+: pre') (hpre' : pre' <+: xs) {k e : Hash} (hk : (run T pre).StoresFor k e) :
    (run T pre').StoresFor k e := by
  rw [(h.represents (hpre.trans hpre')).storesFor_iff] at hk
  exact (h.represents hpre').storesFor_iff.mpr ((lasts_ballotBox hpre).runsIn hk)

/-- After a run in which no call deviates, the tallies and the result page count voters by their
choice in the ballot box, and the rows of the page add up to the turnout. -/
theorem run_showsCounts (T : Config Hash) (xs : List (Extrinsic Hash AccountId))
    (h : Disciplined T xs) :
    ShowsCounts (run T xs) (ballotBox T xs) :=
  (h.represents List.prefix_rfl).showsCounts wellFormed_run

/-- Two accounts vote, one of them twice, and the election is closed. -/
theorem run_showsCounts_mock :
    let xs : List (Extrinsic _ Nat) := [⟨.root, .createElection Mock.board⟩,
      ⟨.root, .createCandidate Mock.name Mock.boardId⟩,
      ⟨.signed 1, .createVote Mock.boardCandidate Mock.boardId⟩,
      ⟨.signed 2, .createVote Mock.boardCandidate Mock.boardId⟩,
      ⟨.signed 1, .createVote Mock.boardCandidate Mock.boardId⟩,
      ⟨.root, .closeElection Mock.boardId⟩]
    ShowsCounts (run Mock.config xs) (ballotBox Mock.config xs) :=
  run_showsCounts Mock.config _ (by decide)

/-! ## Counted as cast -/

omit [DecidableEq Hash] [DecidableEq AccountId] in
theorem operation_eq_cast_iff {x : Extrinsic Hash AccountId} {v : Vote Hash AccountId} :
    operation T x = some (.cast v.author v.candidateId v.electionId) ↔ x = v.extrinsic := by
  constructor
  · intro h
    unfold operation at h
    split at h
    · cases (Option.ite_none_right_eq_some.mp h).2
    · cases h
    · cases (Option.ite_none_right_eq_some.mp h).2
    · rename_i ho hc
      cases h
      cases x
      cases ho
      cases hc
      rfl
    · cases h
  · rintro rfl
    rfl

/-- The lists and the tallies hold the ballots of the votes that succeeded, each once. -/
structure HoldsOkVotes (h : List (Receipt Hash AccountId)) (s : Storage Hash AccountId) :
    Prop where
  ballots : ∀ v, s.Records v ↔ (v.extrinsic, .ok ()) ∈ h
  tallies : ∀ v, (∃ l, s.candidateVotes.get v.candidateId = some l ∧ v ∈ l) ↔
    (v.extrinsic, .ok ()) ∈ h
  nodup : ∀ k l, s.candidateVotes.get k = some l → (l.map Vote.author).Nodup

/-- A ballot is recorded iff the ballot box has accepted the vote, that is, iff the vote
succeeded. -/
theorem records_iff_of_refines (h : RefinesBallotBox T xs) {v : Vote Hash AccountId} :
    (run T xs).Records v ↔ (v.extrinsic, .ok ()) ∈ receipts T xs := by
  rw [h.rel_finalState.ballots v, BallotBox.choice_iff_mem_trace, ← h.answers, mem_visible]
  constructor
  · rintro ⟨⟨x, r⟩, hmem, hx, hr⟩
    obtain rfl := operation_eq_cast_iff.mp hx
    cases r with
    | ok => exact hmem
    | error => cases hr
  · exact fun hmem => ⟨_, hmem, operation_eq_cast_iff.mpr rfl, rfl⟩

/-- After a run in which no call deviates, the ballots in the lists and in the tallies are those of
the votes that succeeded: none is lost, none is added, and none counts twice. -/
theorem run_holdsOkVotes (T : Config Hash) (xs : List (Extrinsic Hash AccountId))
    (h : Disciplined T xs) :
    HoldsOkVotes (receipts T xs) (run T xs) where
  ballots v := records_iff_of_refines (refinesBallotBox_iff.mpr h)
  tallies v := by
    have hrefines := refinesBallotBox_iff.mpr h
    rw [hrefines.rel_finalState.tallied_iff wellFormed_run]
    exact records_iff_of_refines hrefines
  nodup k l hl := by
    have hp := h.represents List.prefix_rfl
    have hw : WellFormed T (run T xs) := wellFormed_run
    obtain ⟨x, hx⟩ := Option.isSome_iff_exists.mp ((hw.tallies k).symm.trans (by rw [hl]; rfl))
    obtain ⟨ballots, hb, htally⟩ := hp.tallies k x hx
    cases hl.symm.trans htally
    exact (hw.authors hb).sublist (List.filter_sublist.map _)

theorem run_holdsOkVotes_mock :
    let xs : List (Extrinsic _ Nat) := [⟨.root, .createElection Mock.board⟩,
      ⟨.root, .createCandidate Mock.name Mock.boardId⟩,
      ⟨.signed 1, .createVote Mock.boardCandidate Mock.boardId⟩,
      ⟨.signed 1, .createVote Mock.boardCandidate Mock.boardId⟩]
    HoldsOkVotes (receipts Mock.config xs) (run Mock.config xs) :=
  run_holdsOkVotes Mock.config _ (by decide)

end

end Votechain
