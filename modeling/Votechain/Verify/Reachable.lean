import Votechain.Verify.Effect
import Votechain.Theory.Run

/-!
# Runs of the pallet

A run is a list of extrinsics dispatched one after another from the empty storage; failed calls
are part of it. `WellFormed` is the invariant of every reachable storage: which maps share their
keys, what a ballot in a list names, and what a stored candidate is the hash of.
-/

open Frame Machine
open StorageMap (get_insert_eq_some get_adjust_eq_some)

namespace Votechain

variable {Hash AccountId : Type}

/-- A call with the origin it is dispatched with. -/
structure Extrinsic (Hash AccountId : Type) where
  origin : Origin AccountId
  call : Call Hash
  deriving DecidableEq

/-- An extrinsic with the result it returned. -/
abbrev Receipt (Hash AccountId : Type) := Extrinsic Hash AccountId × Except DispatchError Unit

section
variable [DecidableEq Hash] [DecidableEq AccountId] (T : Config Hash)

/-- Dispatch an extrinsic: its result and the storage it leaves. -/
def apply (x : Extrinsic Hash AccountId) (s : Storage Hash AccountId) :
    Except DispatchError Unit × Storage Hash AccountId := (x.call.dispatch T x.origin).exec s

/-- The storage after a run. -/
abbrev run (xs : List (Extrinsic Hash AccountId)) : Storage Hash AccountId :=
  finalState (apply T) .empty xs

/-- The history of a run: every extrinsic with its result. -/
abbrev receipts (xs : List (Extrinsic Hash AccountId)) : List (Receipt Hash AccountId) :=
  trace (apply T) .empty xs

end

/-- The invariant of reachable storage. -/
structure WellFormed [DecidableEq Hash] (T : Config Hash) (s : Storage Hash AccountId) : Prop where
  rosters : ∀ e, (s.electionCandidates.get e).isSome = (s.elections.get e).isSome
  ballotLists : ∀ e, (s.electionVotes.get e).isSome = (s.elections.get e).isSome
  tallies : ∀ c, (s.candidateVotes.get c).isSome = (s.candidates.get c).isSome
  ballots : ∀ {e l}, s.electionVotes.get e = some l → ∀ v ∈ l, v.electionId = e
  authors : ∀ {e l}, s.electionVotes.get e = some l → (l.map Vote.author).Nodup
  tallied : ∀ {c l}, s.candidateVotes.get c = some l →
    ∀ v ∈ l, v.candidateId = c ∧ (s.elections.get v.electionId).isSome
  candidates : ∀ {c x}, s.candidates.get c = some x →
    c = T.hashOfCandidate x ∧ (s.elections.get x.electionId).isSome

namespace WellFormed

variable [DecidableEq Hash] {T : Config Hash} {s s' : Storage Hash AccountId}

theorem empty : WellFormed T (.empty : Storage Hash AccountId) := by
  constructor <;> simp

theorem deposit (h : WellFormed T s) (event : Event Hash AccountId) :
    WellFormed T (s.deposit event) :=
  ⟨h.rosters, h.ballotLists, h.tallies, h.ballots, h.authors, h.tallied, h.candidates⟩

theorem openElection (h : WellFormed T s) (d : List UInt8) : WellFormed T (s.openElection T d) where
  rosters e := by simp [h.rosters]
  ballotLists e := by simp [h.ballotLists]
  tallies := h.tallies
  ballots hl v hv := by
    rcases get_insert_eq_some.mp hl with ⟨rfl, rfl⟩ | ⟨_, hl⟩
    · cases hv
    · exact h.ballots hl v hv
  authors hl := by
    rcases get_insert_eq_some.mp hl with ⟨rfl, rfl⟩ | ⟨_, hl⟩
    · exact List.nodup_nil
    · exact h.authors hl
  tallied hl v hv := by
    have ⟨hc, he⟩ := h.tallied hl v hv
    exact ⟨hc, by simp [he]⟩
  candidates hx := by
    have ⟨hc, he⟩ := h.candidates hx
    exact ⟨hc, by simp [he]⟩

theorem closeElection (h : WellFormed T s) (e : Hash) : WellFormed T (s.closeElection e) where
  rosters e := by simp [h.rosters]
  ballotLists e := by simp [h.ballotLists]
  tallies := h.tallies
  ballots := h.ballots
  authors := h.authors
  tallied hl v hv := by
    have ⟨hc, he⟩ := h.tallied hl v hv
    exact ⟨hc, by simp [he]⟩
  candidates hx := by
    have ⟨hc, he⟩ := h.candidates hx
    exact ⟨hc, by simp [he]⟩

theorem registerCandidate (h : WellFormed T s) {x : Candidate Hash}
    (he : (s.elections.get x.electionId).isSome) : WellFormed T (s.registerCandidate T x) where
  rosters e := by simp [h.rosters]
  ballotLists := h.ballotLists
  tallies c := by simp [h.tallies]
  ballots := h.ballots
  authors := h.authors
  tallied hl v hv := by
    rcases get_insert_eq_some.mp hl with ⟨rfl, rfl⟩ | ⟨_, hl⟩
    · cases hv
    · exact h.tallied hl v hv
  candidates hx := by
    rcases get_insert_eq_some.mp hx with ⟨rfl, rfl⟩ | ⟨_, hx⟩
    · exact ⟨rfl, he⟩
    · exact h.candidates hx

theorem recordBallot (h : WellFormed T s) {v : Vote Hash AccountId}
    (hv : ¬ s.HasBallot v.author v.electionId) : WellFormed T (s.recordBallot v) where
  rosters := h.rosters
  ballotLists e := by simp [h.ballotLists]
  tallies := h.tallies
  ballots hl w hw := by
    rcases get_adjust_eq_some.mp hl with ⟨rfl, l, hl₀, rfl⟩ | ⟨_, hl⟩
    · rcases List.mem_append.mp hw with hw | hw
      · exact h.ballots hl₀ w hw
      · cases List.mem_singleton.mp hw; rfl
    · exact h.ballots hl w hw
  authors hl := by
    rcases get_adjust_eq_some.mp hl with ⟨rfl, l, hl₀, rfl⟩ | ⟨_, hl⟩
    · rw [List.map_append]
      refine (h.authors hl₀).append (List.nodup_singleton _) ?_
      intro a ha ha'
      cases List.mem_singleton.mp ha'
      obtain ⟨w, hw, hwa⟩ := List.mem_map.mp ha
      exact hv ⟨l, hl₀, w, hw, hwa⟩
    · exact h.authors hl
  tallied := h.tallied
  candidates := h.candidates

theorem tallyBallot (h : WellFormed T s) {v : Vote Hash AccountId}
    (he : (s.elections.get v.electionId).isSome) : WellFormed T (s.tallyBallot v) where
  rosters := h.rosters
  ballotLists := h.ballotLists
  tallies c := by simp [h.tallies]
  ballots := h.ballots
  authors := h.authors
  tallied hl w hw := by
    rcases get_adjust_eq_some.mp hl with ⟨rfl, l, hl₀, rfl⟩ | ⟨_, hl⟩
    · rcases List.mem_append.mp hw with hw | hw
      · exact h.tallied hl₀ w hw
      · cases List.mem_singleton.mp hw; exact ⟨rfl, he⟩
    · exact h.tallied hl w hw
  candidates := h.candidates

/-! ### What shared keys give -/

theorem hasTally (h : WellFormed T s) (hx : s.candidates.get c = some x) : s.HasTally c :=
  Option.isSome_iff_exists.mp ((h.tallies c).trans (by rw [hx]; rfl))

theorem exists_ballots (h : WellFormed T s) (he : (s.elections.get e).isSome) :
    ∃ ballots, s.electionVotes.get e = some ballots :=
  Option.isSome_iff_exists.mp ((h.ballotLists e).trans he)

theorem isSome_of_hasRoster (h : WellFormed T s) (hr : s.HasRoster e) :
    (s.elections.get e).isSome :=
  (h.rosters e).symm.trans (Option.isSome_iff_exists.mpr hr)

theorem hasRoster (h : WellFormed T s) (he : (s.elections.get e).isSome) : s.HasRoster e :=
  Option.isSome_iff_exists.mp ((h.rosters e).trans he)

/-- Every effect keeps the invariant. -/
theorem effect (h : WellFormed T s) (he : Effect T s o c r s') : WellFormed T s' := by
  cases he with
  | refused => exact h
  | somethingStored | incremented =>
    exact ⟨h.rosters, h.ballotLists, h.tallies, h.ballots, h.authors, h.tallied, h.candidates⟩
  | electionStored => exact (h.openElection _).deposit _
  | electionUpdated => exact (h.closeElection _).deposit _
  | candidateStored _ hr =>
    exact (h.registerCandidate (h.isSome_of_hasRoster hr)).deposit _
  | voteStored ha =>
    obtain ⟨⟨election, he, _⟩, _, hb⟩ := ha
    exact ((h.recordBallot hb).tallyBallot (by simp [he])).deposit _
  | ballotOrphaned ha => exact h.recordBallot ha.2.2

end WellFormed

section
variable [DecidableEq Hash] [DecidableEq AccountId] {T : Config Hash}
  {xs : List (Extrinsic Hash AccountId)}

theorem apply_effect (x : Extrinsic Hash AccountId) (s : Storage Hash AccountId) :
    Effect T s x.origin x.call (apply T x s).1 (apply T x s).2 := dispatch_effect ..

theorem WellFormed.finalState {s : Storage Hash AccountId} (h : WellFormed T s) :
    WellFormed T (finalState (Votechain.apply T) s xs) :=
  finalState_induction h (fun _ x h => h.effect (apply_effect x _)) xs

/-- Every reachable storage is well formed. -/
theorem wellFormed_run : WellFormed T (run T xs) := WellFormed.empty.finalState

/-- In every reachable storage the maps of the elections have the same keys, and so do the maps of
the candidates; a ballot names the election whose list it is in, each author once, and the
candidate whose tally it is in, in a stored election. So `create_vote` finds the list of every
election that is open. -/
theorem run_keys_and_ballots (T : Config Hash) (xs : List (Extrinsic Hash AccountId)) :
    (run T xs).electionCandidates.keys = (run T xs).elections.keys ∧
    (run T xs).electionVotes.keys = (run T xs).elections.keys ∧
    (run T xs).candidateVotes.keys = (run T xs).candidates.keys ∧
    (∀ e l, (run T xs).electionVotes.get e = some l →
      (∀ v ∈ l, v.electionId = e) ∧ (l.map Vote.author).Nodup) ∧
    (∀ k l, (run T xs).candidateVotes.get k = some l →
      ∀ v ∈ l, v.candidateId = k ∧ v.electionId ∈ (run T xs).elections.keys) ∧
    ∀ e, (run T xs).IsOpen e → ∃ l, (run T xs).electionVotes.get e = some l := by
  have hw : WellFormed T (run T xs) := wellFormed_run
  refine ⟨StorageMap.keys_eq hw.rosters, StorageMap.keys_eq hw.ballotLists,
    StorageMap.keys_eq hw.tallies, fun e l hl => ⟨hw.ballots hl, hw.authors hl⟩,
    fun k l hl v hv => ?_, ?_⟩
  · obtain ⟨hk, he⟩ := hw.tallied hl v hv
    exact ⟨hk, StorageMap.mem_keys.mpr he⟩
  · rintro e ⟨election, he, _⟩
    exact hw.exists_ballots (Option.isSome_iff_exists.mpr ⟨election, he⟩)

/-- The exactness rule for the pallet: a property that the effects of exactly the calls with `G`
keep, in well-formed storage, holds throughout exactly the runs of such calls. -/
theorem always_iff_of_effect {P : Storage Hash AccountId → Prop}
    {G : Storage Hash AccountId → Extrinsic Hash AccountId → Prop} (start : P .empty)
    (next : ∀ s o c r s', WellFormed T s → P s → Effect T s o c r s' → (P s' ↔ G s ⟨o, c⟩)) :
    Always (apply T) P .empty xs ↔ EachStep (apply T) G .empty xs :=
  always_iff_eachStep start fun _ x _ hp => next _ _ _ _ _ wellFormed_run hp (apply_effect x _)

end

/-! ## Collisions -/

/-- The descriptions that a run hashes. -/
def descriptions (xs : List (Extrinsic Hash AccountId)) : List (List UInt8) :=
  xs.filterMap fun x => match x.call with
    | .createElection description => some description
    | _ => none

/-- The candidate records that a run hashes. -/
def candidateRecords (xs : List (Extrinsic Hash AccountId)) : List (Candidate Hash) :=
  xs.filterMap fun x => match x.call with
    | .createCandidate candidateName electionId => some ⟨candidateName, electionId⟩
    | _ => none

/-- No two candidate records that a run hashes collide. -/
abbrev CandidatesApart (T : Config Hash) (xs : List (Extrinsic Hash AccountId)) : Prop :=
  ∀ x ∈ candidateRecords xs, ∀ y ∈ candidateRecords xs,
    T.hashOfCandidate x = T.hashOfCandidate y → x = y

/-- No two records that a run hashes collide. -/
structure CollisionFree (T : Config Hash) (xs : List (Extrinsic Hash AccountId)) : Prop where
  elections : ∀ d ∈ descriptions xs, ∀ d' ∈ descriptions xs,
    T.electionId d = T.electionId d' → d = d'
  candidates : CandidatesApart T xs

section
variable [DecidableEq Hash] {T : Config Hash} {s s' : Storage Hash AccountId}

/-! ### Where a stored record comes from -/

theorem Effect.elections_get (h : Effect T s o c r s') (he : s'.elections.get e = some election) :
    (∃ b, s.elections.get e = some ⟨election.description, b⟩) ∨
      c = .createElection election.description ∧ e = T.electionId election.description ∧
        T.DescriptionFits election.description := by
  cases h with
  | electionStored hd =>
    rcases get_insert_eq_some.mp he with ⟨rfl, rfl⟩ | ⟨_, he⟩
    · exact .inr ⟨rfl, rfl, hd⟩
    · exact .inl ⟨_, he⟩
  | electionUpdated =>
    rcases get_adjust_eq_some.mp he with ⟨rfl, old, hold, rfl⟩ | ⟨_, he⟩
    · exact .inl ⟨_, hold⟩
    · exact .inl ⟨_, he⟩
  | _ => exact .inl ⟨_, he⟩

theorem Effect.candidates_get (h : Effect T s o c r s') (hy : s'.candidates.get k = some y) :
    s.candidates.get k = some y ∨
      c = .createCandidate y.candidateName y.electionId ∧ T.NameFits y.candidateName := by
  cases h with
  | candidateStored hn =>
    rcases get_insert_eq_some.mp hy with ⟨_, rfl⟩ | ⟨_, hy⟩
    · exact .inr ⟨rfl, hn⟩
    · exact .inl hy
  | _ => exact .inl hy

theorem Effect.electionCandidates_get (h : Effect T s o c r s')
    (hl : s'.electionCandidates.get e = some l) (hx : x ∈ l) :
    (∃ l, s.electionCandidates.get e = some l ∧ x ∈ l) ∨
      c = .createCandidate x.candidateName x.electionId ∧ x.electionId = e ∧
        s'.candidates.get (T.hashOfCandidate x) = some x := by
  cases h with
  | electionStored =>
    rcases get_insert_eq_some.mp hl with ⟨rfl, rfl⟩ | ⟨_, hl⟩
    · cases hx
    · exact .inl ⟨_, hl, hx⟩
  | candidateStored =>
    rcases get_adjust_eq_some.mp hl with ⟨rfl, l₀, hl₀, rfl⟩ | ⟨_, hl⟩
    · rcases List.mem_append.mp hx with hx | hx
      · exact .inl ⟨l₀, hl₀, hx⟩
      · cases List.mem_singleton.mp hx
        exact .inr ⟨rfl, rfl, StorageMap.get_insert_self⟩
    · exact .inl ⟨l, hl, hx⟩
  | _ => exact .inl ⟨l, hl, hx⟩

/-- The id of a stored candidate stays taken. -/
theorem Effect.candidates_isSome (h : Effect T s o c r s')
    (hk : (s.candidates.get k).isSome = true) : (s'.candidates.get k).isSome = true := by
  cases h with
  | candidateStored => simp [hk]
  | _ => exact hk

variable [DecidableEq AccountId] {xs : List (Extrinsic Hash AccountId)}

theorem election_of_run (he : (run T xs).elections.get e = some election) :
    election.description ∈ descriptions xs ∧ e = T.electionId election.description ∧
      T.DescriptionFits election.description := by
  induction xs using List.reverseRecOn generalizing election with
  | nil => simp at he
  | append_singleton xs x ih =>
    rw [run, finalState_concat] at he
    simp only [descriptions, List.filterMap_append, List.mem_append]
    rcases (apply_effect x _).elections_get he with ⟨b, he⟩ | ⟨hc, hfits⟩
    · obtain ⟨hmem, hfits⟩ := ih he
      exact ⟨.inl hmem, hfits⟩
    · exact ⟨.inr (by simp [hc]), hfits⟩

theorem candidate_of_run (hy : (run T xs).candidates.get k = some y) :
    y ∈ candidateRecords xs ∧ T.NameFits y.candidateName := by
  induction xs using List.reverseRecOn with
  | nil => simp at hy
  | append_singleton xs x ih =>
    rw [run, finalState_concat] at hy
    simp only [candidateRecords, List.filterMap_append, List.mem_append]
    rcases (apply_effect x _).candidates_get hy with hy | ⟨hc, hn⟩
    · obtain ⟨hmem, hn⟩ := ih hy
      exact ⟨.inl hmem, hn⟩
    · exact ⟨.inr (by simp [hc]), hn⟩

/-- A stored candidate is one of the records that the run hashed. -/
theorem mem_candidateRecords (hy : (run T xs).candidates.get k = some y) :
    y ∈ candidateRecords xs := (candidate_of_run hy).1

/-- A candidate in a roster was registered for its election, and its id is taken. -/
theorem roster_of_run (hl : (run T xs).electionCandidates.get e = some l) (hx : x ∈ l) :
    x ∈ candidateRecords xs ∧ x.electionId = e ∧
      ((run T xs).candidates.get (T.hashOfCandidate x)).isSome := by
  induction xs using List.reverseRecOn generalizing l with
  | nil => simp at hl
  | append_singleton xs y ih =>
    have heff := apply_effect (T := T) y (run T xs)
    rw [run, finalState_concat] at hl
    rw [run, finalState_concat]
    simp only [candidateRecords, List.filterMap_append, List.mem_append]
    rcases heff.electionCandidates_get hl hx with ⟨l, hl, hx⟩ | ⟨hc, he, hstored⟩
    · obtain ⟨hmem, he, hsome⟩ := ih hl hx
      exact ⟨.inl hmem, he, heff.candidates_isSome hsome⟩
    · exact ⟨.inr (by simp [hc]), he, by rw [hstored]; rfl⟩

end

end Votechain
