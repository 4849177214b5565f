import Votechain.Theory.Projection
import Votechain.Verify.Frames

/-!
# Every election is on its own

As long as no candidate records collide and nobody votes for a candidate of another election, what
is stored for an election and what the calls that address it return depend on these calls alone. So
runs that interleave the same calls of each election in different ways leave the same storage.
-/

open Frame Machine
open StorageMap (get_insert get_insert_self get_insert_of_ne get_adjust get_adjust_of_ne
  get_adjust_self)

namespace Votechain

variable {Hash AccountId : Type} [DecidableEq Hash] {T : Config Hash}
  {s s' t t' : Storage Hash AccountId} {o : Origin AccountId} {c : Call Hash}
  {r r' : Except DispatchError Unit} {e k : Hash} {x : Extrinsic Hash AccountId}

/-- The storages agree on the election, its candidates and their tallies. -/
structure SameElection (e : Hash) (s t : Storage Hash AccountId) : Prop where
  election : s.elections.get e = t.elections.get e
  roster : s.electionCandidates.get e = t.electionCandidates.get e
  ballots : s.electionVotes.get e = t.electionVotes.get e
  candidates : ∀ k x, x.electionId = e →
    (s.candidates.get k = some x ↔ t.candidates.get k = some x)
  tallies : ∀ k x, s.candidates.get k = some x → x.electionId = e →
    s.candidateVotes.get k = t.candidateVotes.get k

instance : (x : Extrinsic Hash AccountId) → Decidable (Addresses T x e)
  | ⟨_, .createElection d⟩ => decEq (T.electionId d) e
  | ⟨_, .closeElection e'⟩ | ⟨_, .createCandidate _ e'⟩ | ⟨_, .createVote _ e'⟩ => decEq e' e
  | ⟨_, .doSomething _⟩ | ⟨_, .causeError⟩ => .isFalse id

instance : Decidable (∃ y, s.candidates.get k = some y ∧ y.electionId ≠ e) :=
  decidable_of_iff ((s.candidates.get k).any (·.electionId ≠ e) = true)
    (by simp [Option.any_eq_true])

instance [DecidableEq AccountId] :
    (x : Extrinsic Hash AccountId) → Decidable (CrossesElections s x)
  | ⟨.signed _, .createVote _ _⟩ => instDecidableAnd
  | ⟨.signed _, .doSomething _⟩ | ⟨.signed _, .causeError⟩ | ⟨.signed _, .createElection _⟩
  | ⟨.signed _, .closeElection _⟩ | ⟨.signed _, .createCandidate _ _⟩ | ⟨.root, _⟩ | ⟨.none, _⟩
  | ⟨.other, _⟩ => .isFalse id

namespace SameElection

theorem refl : SameElection e s s :=
  ⟨rfl, rfl, rfl, fun _ _ _ => Iff.rfl, fun _ _ _ _ => rfl⟩

theorem symm (h : SameElection e s t) : SameElection e t s where
  election := h.election.symm
  roster := h.roster.symm
  ballots := h.ballots.symm
  candidates k x hx := (h.candidates k x hx).symm
  tallies k x hk hx := (h.tallies k x ((h.candidates k x hx).mpr hk) hx).symm

theorem trans (h : SameElection e s t) (h' : SameElection e t u) : SameElection e s u where
  election := h.election.trans h'.election
  roster := h.roster.trans h'.roster
  ballots := h.ballots.trans h'.ballots
  candidates k x hx := (h.candidates k x hx).trans (h'.candidates k x hx)
  tallies k x hk hx :=
    (h.tallies k x hk hx).trans (h'.tallies k x ((h.candidates k x hx).mp hk) hx)

/-! ### What the election decides -/

theorem isOpen_iff (h : SameElection e s t) : s.IsOpen e ↔ t.IsOpen e := by
  rw [Storage.IsOpen, Storage.IsOpen, h.election]

theorem hasRoster_iff (h : SameElection e s t) : s.HasRoster e ↔ t.HasRoster e := by
  rw [Storage.HasRoster, Storage.HasRoster, h.roster]

theorem acceptsBallot_iff (h : SameElection e s t) : s.AcceptsBallot a e ↔ t.AcceptsBallot a e := by
  rw [Storage.AcceptsBallot, Storage.AcceptsBallot, h.isOpen_iff, Storage.HasBallot,
    Storage.HasBallot, h.ballots]

/-- A call is accepted by the election that it addresses. -/
theorem accepts_iff (h : SameElection e s t) (hx : Addresses T ⟨o, c⟩ e) :
    s.Accepts T o c ↔ t.Accepts T o c := by
  cases c with
  | doSomething | causeError => exact hx.elim
  | createElection d => cases o <;> exact Iff.rfl
  | closeElection e' =>
    cases hx
    cases o with
    | root => exact h.isOpen_iff
    | _ => exact Iff.rfl
  | createCandidate name e' =>
    cases hx
    cases o with
    | root => exact and_congr_right fun _ => h.hasRoster_iff
    | _ => exact Iff.rfl
  | createVote k e' =>
    cases hx
    cases o with
    | signed a => exact h.acceptsBallot_iff
    | _ => exact Iff.rfl

omit [DecidableEq Hash] in
/-- The error of a refused call about an election does not depend on the storage. -/
theorem refusal_eq (hx : Addresses T ⟨o, c⟩ e) : s.refusal T o c = t.refusal T o c := by
  cases c with
  | doSomething | causeError => exact hx.elim
  | _ => cases o <;> rfl

/-! ### Calls that address the election -/

theorem openElection (h : SameElection (T.electionId d) s t) :
    SameElection (T.electionId d) (s.openElection T d) (t.openElection T d) where
  election := by simp
  roster := by simp
  ballots := by simp
  candidates := h.candidates
  tallies := h.tallies

theorem closeElection (h : SameElection e s t) :
    SameElection e (s.closeElection e) (t.closeElection e) where
  election := by simp [h.election]
  roster := h.roster
  ballots := h.ballots
  candidates := h.candidates
  tallies := h.tallies

theorem registerCandidate {y : Candidate Hash} (h : SameElection y.electionId s t) :
    SameElection y.electionId (s.registerCandidate T y) (t.registerCandidate T y) where
  election := h.election
  roster := by simp [h.roster]
  ballots := h.ballots
  candidates k x hx := by
    simp only [Storage.registerCandidate_candidates, get_insert]
    split
    · rfl
    · exact h.candidates k x hx
  tallies k x hk hx := by
    simp only [Storage.registerCandidate_candidateVotes, get_insert]
    split
    · rfl
    · rename_i hne
      rw [Storage.registerCandidate_candidates, get_insert_of_ne hne] at hk
      exact h.tallies k x hk hx

theorem recordBallot {v : Vote Hash AccountId} (h : SameElection v.electionId s t) :
    SameElection v.electionId (s.recordBallot v) (t.recordBallot v) where
  election := h.election
  roster := h.roster
  ballots := by simp [h.ballots]
  candidates := h.candidates
  tallies := h.tallies

theorem tallyBallot {v : Vote Hash AccountId} (h : SameElection e s t) :
    SameElection e (s.tallyBallot v) (t.tallyBallot v) where
  election := h.election
  roster := h.roster
  ballots := h.ballots
  candidates := h.candidates
  tallies k x hk hx := by
    simp only [Storage.tallyBallot_candidateVotes, get_adjust]
    split
    · rw [h.tallies k x hk hx]
    · exact h.tallies k x hk hx

theorem deposit (h : SameElection e s t) (ev ev' : Event Hash AccountId) :
    SameElection e (s.deposit ev) (t.deposit ev') :=
  ⟨h.election, h.roster, h.ballots, h.candidates, h.tallies⟩

/-- A vote that does not cross elections finds a tally in both storages or in neither, if the
second one stores candidates of the election only. -/
theorem hasTally_iff (hs : WellFormed T s) (ht : WellFormed T t) (h : SameElection e s t)
    (hown : ∀ k x, t.candidates.get k = some x → x.electionId = e)
    (hcross : ∀ x, s.candidates.get k = some x → x.electionId = e) :
    s.HasTally k ↔ t.HasTally k := by
  constructor
  · rintro ⟨l, hl⟩
    obtain ⟨x, hx⟩ := Option.isSome_iff_exists.mp ((hs.tallies k).symm.trans (by rw [hl]; rfl))
    exact ht.hasTally ((h.candidates k x (hcross x hx)).mp hx)
  · rintro ⟨l, hl⟩
    obtain ⟨x, hx⟩ := Option.isSome_iff_exists.mp ((ht.tallies k).symm.trans (by rw [hl]; rfl))
    exact hs.hasTally ((h.candidates k x (hown k x hx)).mpr hx)

/-- A call that addresses the election has the same result, and changes it in the same way. -/
theorem effects (hs : WellFormed T s) (ht : WellFormed T t) (h : SameElection e s t)
    (hown : ∀ k x, t.candidates.get k = some x → x.electionId = e)
    (hcross : ¬ CrossesElections s ⟨o, c⟩) (hx : Addresses T ⟨o, c⟩ e)
    (heff : Effect T s o c r s') (heff' : Effect T t o c r' t') :
    r = r' ∧ SameElection e s' t' := by
  have haccepts := h.accepts_iff (o := o) (c := c) hx
  cases heff with
  | refused hn =>
    obtain ⟨rfl, rfl⟩ := heff'.eq_of_not_accepts (mt haccepts.mpr hn)
    exact ⟨congrArg _ (refusal_eq hx), h⟩
  | somethingStored | incremented => exact hx.elim
  | electionStored hd =>
    cases hx
    obtain ⟨rfl, rfl⟩ := heff'.unique (.electionStored hd)
    exact ⟨rfl, h.openElection.deposit _ _⟩
  | electionUpdated ho =>
    cases hx
    obtain ⟨rfl, rfl⟩ := heff'.unique (.electionUpdated (h.isOpen_iff.mp ho))
    exact ⟨rfl, h.closeElection.deposit _ _⟩
  | @candidateStored name e' hn hr =>
    cases hx
    obtain ⟨rfl, rfl⟩ := heff'.unique (.candidateStored hn (h.hasRoster_iff.mp hr))
    exact ⟨rfl, (h.registerCandidate (y := ⟨name, e⟩)).deposit _ _⟩
  | @voteStored a e' k ha htally =>
    cases hx
    have hk : ∀ x, s.candidates.get k = some x → x.electionId = e := by
      intro x hx
      by_contra hne
      exact hcross ⟨ha, x, hx, hne⟩
    obtain ⟨rfl, rfl⟩ := heff'.unique
      (.voteStored (h.acceptsBallot_iff.mp ha) ((h.hasTally_iff hs ht hown hk).mp htally))
    exact ⟨rfl, (h.recordBallot (v := ⟨k, e, a⟩)).tallyBallot.deposit _ _⟩
  | @ballotOrphaned a e' k ha htally =>
    cases hx
    have hk : ∀ x, s.candidates.get k = some x → x.electionId = e :=
      fun x hx => absurd (hs.hasTally hx) htally
    obtain ⟨rfl, rfl⟩ := heff'.unique (.ballotOrphaned (h.acceptsBallot_iff.mp ha)
      (mt (h.hasTally_iff hs ht hown hk).mpr htally))
    exact ⟨rfl, h.recordBallot (v := ⟨k, e, a⟩)⟩

end SameElection

/-! ### Calls that address other elections -/

/-- Under a new id, or under the id of the same candidate, a registration leaves the candidates of
other elections. -/
theorem candidates_registerCandidate {y : Candidate Hash}
    (hfree : ∀ z, s.candidates.get (T.hashOfCandidate y) = some z → z = y) {z : Candidate Hash}
    (hz : z.electionId ≠ y.electionId) :
    (s.registerCandidate T y).candidates.get k = some z ↔ s.candidates.get k = some z := by
  rw [Storage.registerCandidate_candidates, get_insert]
  split
  · subst k
    constructor
    · rintro ⟨⟩
      exact absurd rfl hz
    · intro h
      cases hfree z h
      exact absurd rfl hz
  · rfl

/-- Without collisions, a call leaves an election alone that it neither addresses nor crosses
into. -/
theorem Effect.sameElection (h : Effect T s o c r s')
    (hx : ¬ Addresses T ⟨o, c⟩ e) (hcross : ¬ CrossesElections s ⟨o, c⟩)
    (hfree : ∀ name e', c = .createCandidate name e' → ∀ z,
      s.candidates.get (T.hashOfCandidate ⟨name, e'⟩) = some z → z = ⟨name, e'⟩) :
    SameElection e s' s := by
  cases h with
  | refused => exact .refl
  | somethingStored | incremented =>
    exact ⟨rfl, rfl, rfl, fun _ _ _ => Iff.rfl, fun _ _ _ _ => rfl⟩
  | electionStored =>
    have hne := Ne.symm hx
    exact ⟨get_insert_of_ne hne, get_insert_of_ne hne, get_insert_of_ne hne,
      fun _ _ _ => Iff.rfl, fun _ _ _ _ => rfl⟩
  | electionUpdated =>
    exact ⟨get_adjust_of_ne (Ne.symm hx), rfl, rfl, fun _ _ _ => Iff.rfl, fun _ _ _ _ => rfl⟩
  | @candidateStored name e' =>
    have hfree := hfree name e' rfl
    have hcandidates : ∀ k z, z.electionId = e →
        ((s.registerCandidate T ⟨name, e'⟩).candidates.get k = some z ↔
          s.candidates.get k = some z) := by
      rintro k z rfl
      exact candidates_registerCandidate hfree (Ne.symm hx)
    refine ⟨rfl, get_adjust_of_ne (Ne.symm hx), rfl, hcandidates, ?_⟩
    rintro k z hz rfl
    refine get_insert_of_ne fun hk => ?_
    rw [Storage.deposit_candidates, hcandidates k z rfl, hk] at hz
    cases hfree z hz
    exact hx rfl
  | @voteStored a e' k ha =>
    refine ⟨rfl, rfl, get_adjust_of_ne (Ne.symm hx), fun _ _ _ => Iff.rfl, ?_⟩
    rintro k' z hz rfl
    refine get_adjust_of_ne fun hk => hcross ⟨ha, z, ?_, Ne.symm hx⟩
    cases hk
    exact hz
  | ballotOrphaned =>
    exact ⟨rfl, rfl, get_adjust_of_ne (Ne.symm hx), fun _ _ _ => Iff.rfl, fun _ _ _ _ => rfl⟩

/-! ## All elections -/

/-- The storages agree on all elections. -/
structure SameElections (s t : Storage Hash AccountId) : Prop where
  elections : s.elections = t.elections
  electionCandidates : s.electionCandidates = t.electionCandidates
  electionVotes : s.electionVotes = t.electionVotes
  candidates : s.candidates = t.candidates
  candidateVotes : s.candidateVotes = t.candidateVotes

theorem candidates_eq_of_sameElection (h : ∀ e, SameElection e s t) :
    s.candidates = t.candidates := by
  refine StorageMap.ext fun k => Option.ext fun x => ?_
  exact (h x.electionId).candidates k x rfl

theorem sameElections_of_forall (hs : WellFormed T s) (ht : WellFormed T t)
    (h : ∀ e, SameElection e s t) : SameElections s t where
  elections := StorageMap.ext fun e => (h e).election
  electionCandidates := StorageMap.ext fun e => (h e).roster
  electionVotes := StorageMap.ext fun e => (h e).ballots
  candidates := candidates_eq_of_sameElection h
  candidateVotes := StorageMap.ext fun k => by
    have hkeys := hs.tallies k
    have hkeys' := ht.tallies k
    rw [← candidates_eq_of_sameElection h] at hkeys'
    cases hx : s.candidates.get k with
    | some x => exact (h x.electionId).tallies k x hx rfl
    | none =>
      rw [hx, Option.isSome_none, Option.isSome_eq_false_iff, Option.isNone_iff_eq_none] at hkeys
      rw [hx, Option.isSome_none, Option.isSome_eq_false_iff, Option.isNone_iff_eq_none] at hkeys'
      rw [hkeys, hkeys']

/-! ## Runs -/

section
variable [DecidableEq AccountId] {xs ys : List (Extrinsic Hash AccountId)}

/-- No vote of the run is taken for a candidate of another election. -/
abbrev KeepsToElections (T : Config Hash) (xs : List (Extrinsic Hash AccountId)) : Prop :=
  EachStep (apply T) (fun s x => ¬ CrossesElections s x) .empty xs

/-- The calls of the run that address the election. -/
abbrev callsTo (T : Config Hash) (e : Hash) (xs : List (Extrinsic Hash AccountId)) :
    List (Extrinsic Hash AccountId) := xs.filter (Addresses T · e)

omit [DecidableEq Hash] [DecidableEq AccountId] in
theorem CandidatesApart.of_prefix (h : CandidatesApart T xs) (hys : ys <+: xs) :
    CandidatesApart T ys := fun x hx y hy =>
  h x ((hys.filterMap _).subset hx) y ((hys.filterMap _).subset hy)

/-- The id of a registration is free or holds the same candidate. -/
theorem candidates_of_apart (h : CandidatesApart T (xs ++ [⟨o, .createCandidate name e⟩]))
    {z : Candidate Hash} (hz : (run T xs).candidates.get (T.hashOfCandidate ⟨name, e⟩) = some z) :
    z = ⟨name, e⟩ := by
  have hmem : z ∈ candidateRecords (xs ++ [⟨o, .createCandidate name e⟩]) := by
    rw [candidateRecords, List.filterMap_append]
    exact List.mem_append_left _ (mem_candidateRecords hz)
  have hnew : ⟨name, e⟩ ∈ candidateRecords (xs ++ [⟨o, .createCandidate name e⟩]) := by
    simp [candidateRecords]
  exact (h _ hnew _ hmem (wellFormed_run.candidates hz).1).symm

/-- The calls to an election register candidates of that election only. -/
theorem electionId_of_callsTo (h : (run T (callsTo T e xs)).candidates.get k = some y) :
    y.electionId = e := by
  have hmem := mem_candidateRecords h
  obtain ⟨x, hx, hy⟩ := List.mem_filterMap.mp hmem
  have haddr : Addresses T x e := of_decide_eq_true (List.mem_filter.mp hx).2
  unfold Addresses at haddr
  split at hy
  · rename_i hc
    cases hy
    rw [hc] at haddr
    exact haddr
  · cases hy

theorem projects_callsTo (hcf : CandidatesApart T xs) (hcross : KeepsToElections T xs) (e : Hash) :
    Projects (apply T) (SameElection e) (Addresses T · e) .empty .empty xs := by
  refine projects_of_steps .refl (fun pre x hpre hx hsim => ?_) fun pre x hpre hx hsim => ?_
  · have hfree : ∀ name e', x.call = .createCandidate name e' → ∀ z,
        (run T pre).candidates.get (T.hashOfCandidate ⟨name, e'⟩) = some z → z = ⟨name, e'⟩ := by
      intro name e' hc z hz
      obtain ⟨o, c⟩ := x
      cases hc
      exact candidates_of_apart (CandidatesApart.of_prefix hcf hpre) hz
    have hstep := (apply_effect x _).sameElection hx (hcross pre x hpre) hfree
    exact hstep.trans hsim
  · exact hsim.effects wellFormed_run wellFormed_run (fun _ _ => electionId_of_callsTo)
      (hcross pre x hpre) hx (apply_effect x _) (apply_effect x _)

/-- In a run in which no candidate records collide and no vote crosses elections, what is stored for
an election and what the calls to it return are what they would be if only these calls had been
made. -/
theorem run_projects (T : Config Hash) (xs : List (Extrinsic Hash AccountId))
    (hcf : CandidatesApart T xs) (hcross : KeepsToElections T xs) (e : Hash) :
    SameElection e (run T xs) (run T (callsTo T e xs)) ∧
      (receipts T xs).filter (fun p => Addresses T p.1 e) = receipts T (callsTo T e xs) := by
  have h := projects_callsTo hcf hcross e
  exact ⟨h.state, h.answers⟩

/-- Two elections with a candidate and a ballot each. -/
def twoElections : List (Extrinsic (List UInt8) Nat) :=
  let councilCandidate := Mock.config.hashOfCandidate ⟨Mock.name, Mock.councilId⟩
  [⟨.root, .createElection Mock.board⟩, ⟨.root, .createCandidate Mock.name Mock.boardId⟩,
    ⟨.root, .createElection Mock.council⟩,
    ⟨.signed 1, .createVote Mock.boardCandidate Mock.boardId⟩,
    ⟨.root, .createCandidate Mock.name Mock.councilId⟩,
    ⟨.signed 1, .createVote councilCandidate Mock.councilId⟩]

theorem run_projects_mock :
    SameElection Mock.councilId (run Mock.config twoElections)
      (run Mock.config (callsTo Mock.config Mock.councilId twoElections)) ∧
      (receipts Mock.config twoElections).filter
          (fun p => Addresses Mock.config p.1 Mock.councilId) =
        receipts Mock.config (callsTo Mock.config Mock.councilId twoElections) :=
  run_projects Mock.config twoElections (by decide) (by decide) Mock.councilId

/-! ### Interleavings -/

/-- Two runs that interleave the same calls of each election leave the same elections, candidates,
ballots and tallies, and every call to an election returns the same in both. -/
theorem run_interleaving_irrelevant (T : Config Hash) (xs ys : List (Extrinsic Hash AccountId))
    (hxs : CandidatesApart T xs) (hys : CandidatesApart T ys) (hcx : KeepsToElections T xs)
    (hcy : KeepsToElections T ys) (h : ∀ e, callsTo T e xs = callsTo T e ys) :
    SameElections (run T xs) (run T ys) ∧ ∀ e,
      (receipts T xs).filter (fun p => Addresses T p.1 e) =
        (receipts T ys).filter (fun p => Addresses T p.1 e) := by
  constructor
  · refine sameElections_of_forall (T := T) wellFormed_run wellFormed_run fun e => ?_
    have hx := (projects_callsTo hxs hcx e).state
    have hy := (projects_callsTo hys hcy e).state
    have hcalls : xs.filter (Addresses T · e) = ys.filter (Addresses T · e) := h e
    rw [← hcalls] at hy
    exact hx.trans hy.symm
  · intro e
    have hcalls : xs.filter (Addresses T · e) = ys.filter (Addresses T · e) := h e
    rw [(projects_callsTo hxs hcx e).answers, (projects_callsTo hys hcy e).answers, hcalls]

/-- The second election is created, and voted in, before the first. -/
theorem run_interleaving_irrelevant_mock :
    let ys := [twoElections[2], twoElections[4], twoElections[0], twoElections[5],
      twoElections[1], twoElections[3]]
    SameElections (run Mock.config twoElections) (run Mock.config ys) := by
  intro ys
  refine (run_interleaving_irrelevant Mock.config twoElections ys (by decide) (by decide)
    (by decide) (by decide) fun e => ?_).1
  by_cases hb : Mock.boardId = e
  · subst hb; decide
  · by_cases hc : Mock.councilId = e
    · subst hc; decide
    · have hb' : ¬ Mock.config.electionId Mock.board = e := hb
      have hc' : ¬ Mock.config.electionId Mock.council = e := hc
      simp [ys, twoElections, callsTo, Addresses, hb, hc, hb', hc']

end

end Votechain
