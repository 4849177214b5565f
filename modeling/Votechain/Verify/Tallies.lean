import Votechain.Client.Context
import Votechain.Pallet.Mock
import Votechain.Verify.Reachable

/-!
# The two records of a ballot

A ballot stands in the list of its election and in the tally of its candidate. `TalliesAgree` says
that the tallies are the lists read by candidate, `CountsOwnCandidates` that the lists hold
ballots for candidates of the election only. Each holds throughout exactly the runs without the
calls that break it; the cells of the result page follow.
-/

open Frame Machine

namespace Votechain
open Client
open StorageMap (get_insert_eq_some get_insert_self get_insert_of_ne get_adjust_of_ne Enumerates)

variable {Hash AccountId : Type} [DecidableEq Hash] {T : Config Hash}
  {s s' : Storage Hash AccountId} {o : Origin AccountId} {c : Call Hash}
  {r : Except DispatchError Unit}

/-- A ballot for `c` stands in the list of `e`. -/
def Storage.HasBallotFor (s : Storage Hash AccountId) (c e : Hash) : Prop :=
  ∃ ballots, s.electionVotes.get e = some ballots ∧ ∃ v ∈ ballots, v.candidateId = c

/-- A candidate of `e` is stored under `c`. -/
def Storage.StoresFor (s : Storage Hash AccountId) (c e : Hash) : Prop :=
  ∃ x, s.candidates.get c = some x ∧ x.electionId = e

theorem Storage.not_hasBallotFor_iff {ballots : List (Vote Hash AccountId)}
    (hb : s.electionVotes.get e = some ballots) :
    ¬ s.HasBallotFor k e ↔ (ballots.filter fun v => v.candidateId = k) = [] := by
  have hfilter : (ballots.filter fun v => v.candidateId = k) = [] ↔
      ∀ v ∈ ballots, v.candidateId ≠ k := by simp
  rw [hfilter]
  constructor
  · exact fun hn v hv hk => hn ⟨ballots, hb, v, hv, hk⟩
  · rintro hn ⟨ballots', hb', v, hv, hk⟩
    cases hb.symm.trans hb'
    exact hn v hv hk

/-! ## Tallies and ballots -/

/-- The tally of a stored candidate is the list of the ballots of its election that name it. -/
def TalliesMatch (s : Storage Hash AccountId) : Prop :=
  ∀ k x, s.candidates.get k = some x → ∃ ballots, s.electionVotes.get x.electionId = some ballots ∧
    s.candidateVotes.get k = some (ballots.filter fun v => v.candidateId = k)

/-- A call that changes one of the records and not the other: it creates an election again while
ballots for its candidates stand, registers a candidate that ballots already name, or votes for a
candidate of another election. -/
def SplitsTally (T : Config Hash) (s : Storage Hash AccountId) (x : Extrinsic Hash AccountId) :
    Prop :=
  match x.origin, x.call with
  | .root, .createElection d => T.DescriptionFits d ∧
    ∃ k, s.StoresFor k (T.electionId d) ∧ s.HasBallotFor k (T.electionId d)
  | .root, .createCandidate name e => T.NameFits name ∧ s.HasRoster e ∧
    s.HasBallotFor (T.hashOfCandidate ⟨name, e⟩) e
  | .signed a, .createVote k e => s.AcceptsBallot a e ∧
    ∃ x, s.candidates.get k = some x ∧ x.electionId ≠ e
  | _, _ => False

theorem SplitsTally.accepts (h : SplitsTally T s ⟨o, c⟩) : s.Accepts T o c := by
  cases o <;> cases c <;> first | exact h.elim | exact h.1 | exact ⟨h.1, h.2.1⟩

theorem TalliesMatch.openElection_iff (hp : TalliesMatch s) {d : List UInt8} :
    TalliesMatch (s.openElection T d) ↔
      ¬ ∃ k, s.StoresFor k (T.electionId d) ∧ s.HasBallotFor k (T.electionId d) := by
  constructor
  · rintro hp' ⟨k, ⟨x, hx, he⟩, hb⟩
    obtain ⟨ballots, hballots, htally⟩ := hp k x hx
    obtain ⟨ballots', hballots', htally'⟩ := hp' k x hx
    -- the list is empty now and the tally is the old one, so no old ballot named the candidate
    rw [he] at hballots
    rw [he, Storage.openElection_electionVotes, get_insert_self] at hballots'
    cases hballots'
    have hnil := Option.some.inj (htally.symm.trans htally')
    exact (Storage.not_hasBallotFor_iff hballots).mpr hnil hb
  · intro hn k x hx
    obtain ⟨ballots, hballots, htally⟩ := hp k x hx
    by_cases he : x.electionId = T.electionId d
    · have hb : ¬ s.HasBallotFor k x.electionId := fun hb => hn ⟨k, ⟨x, hx, he⟩, he ▸ hb⟩
      rw [(Storage.not_hasBallotFor_iff hballots).mp hb] at htally
      refine ⟨[], ?_, htally⟩
      rw [he, Storage.openElection_electionVotes, get_insert_self]
    · exact ⟨ballots, (get_insert_of_ne he).trans hballots, htally⟩

theorem TalliesMatch.registerCandidate_iff (hp : TalliesMatch s) {x : Candidate Hash}
    {ballots : List (Vote Hash AccountId)} (hb : s.electionVotes.get x.electionId = some ballots) :
    TalliesMatch (s.registerCandidate T x) ↔
      ¬ s.HasBallotFor (T.hashOfCandidate x) x.electionId := by
  rw [Storage.not_hasBallotFor_iff hb]
  constructor
  · intro hp'
    obtain ⟨ballots', hb', htally⟩ := hp' (T.hashOfCandidate x) x get_insert_self
    cases hb.symm.trans hb'
    exact (Option.some.inj (get_insert_self.symm.trans htally)).symm
  · intro hnil k y hy
    rcases get_insert_eq_some.mp hy with ⟨rfl, rfl⟩ | ⟨hne, hy⟩
    · refine ⟨ballots, hb, ?_⟩
      rw [hnil]
      exact get_insert_self
    · obtain ⟨ballots', hb', htally⟩ := hp k y hy
      exact ⟨ballots', hb', (get_insert_of_ne hne).trans htally⟩

/-- A ballot that is recorded without a tally leaves the other candidates' tallies right. -/
theorem TalliesMatch.exists_recordBallot (hp : TalliesMatch s) {v : Vote Hash AccountId}
    (hx : s.candidates.get k = some x) (hne : k ≠ v.candidateId) :
    ∃ ballots, (s.recordBallot v).electionVotes.get x.electionId = some ballots ∧
      s.candidateVotes.get k = some (ballots.filter fun v => v.candidateId = k) := by
  obtain ⟨ballots, hb, htally⟩ := hp k x hx
  by_cases he : x.electionId = v.electionId
  · rw [he] at hb ⊢
    refine ⟨ballots ++ [v], Storage.get_recordBallot hb, ?_⟩
    rw [htally, List.filter_append]
    simp [hne.symm]
  · exact ⟨ballots, (get_adjust_of_ne he).trans hb, htally⟩

theorem TalliesMatch.vote_iff (hp : TalliesMatch s) {v : Vote Hash AccountId} :
    TalliesMatch ((s.recordBallot v).tallyBallot v) ↔
      ¬ ∃ x, s.candidates.get v.candidateId = some x ∧ x.electionId ≠ v.electionId := by
  constructor
  · rintro hp' ⟨x, hx, hne⟩
    obtain ⟨ballots, hb, htally⟩ := hp _ x hx
    obtain ⟨ballots', hb', htally'⟩ := hp' _ x hx
    -- the tally has grown and the list of the candidate's election has not
    have hsame : (s.recordBallot v).electionVotes.get x.electionId =
        s.electionVotes.get x.electionId := get_adjust_of_ne hne
    cases hb.symm.trans (hsame.symm.trans hb')
    exact StorageMap.adjust_append_ne htally (htally'.trans htally.symm)
  · intro hn k x hx
    by_cases hk : k = v.candidateId
    · subst hk
      have he : x.electionId = v.electionId := by_contra fun hne => hn ⟨x, hx, hne⟩
      obtain ⟨ballots, hb, htally⟩ := hp _ x hx
      rw [he] at hb ⊢
      refine ⟨ballots ++ [v], Storage.get_recordBallot hb, ?_⟩
      refine (Storage.get_tallyBallot (s := s.recordBallot v) htally).trans ?_
      simp
    · obtain ⟨ballots, hb, htally⟩ := hp.exists_recordBallot hx hk
      exact ⟨ballots, hb, (get_adjust_of_ne hk).trans htally⟩

theorem Effect.talliesMatch_iff (hw : WellFormed T s) (hp : TalliesMatch s)
    (h : Effect T s o c r s') : TalliesMatch s' ↔ ¬ SplitsTally T s ⟨o, c⟩ := by
  cases h with
  | refused hn => exact iff_of_true hp fun hs => hn hs.accepts
  | somethingStored | incremented | electionUpdated => exact iff_of_true hp id
  | electionStored hd => exact hp.openElection_iff.trans (not_congr (and_iff_right hd).symm)
  | candidateStored hn hr =>
    obtain ⟨ballots, hb⟩ := hw.exists_ballots (hw.isSome_of_hasRoster hr)
    exact (hp.registerCandidate_iff hb).trans
      (not_congr ⟨fun hf => ⟨hn, hr, hf⟩, fun hs => hs.2.2⟩)
  | voteStored ha => exact hp.vote_iff.trans (not_congr (and_iff_right ha).symm)
  | ballotOrphaned _ ht =>
    -- the candidate has no tally, so it is not a stored one
    refine iff_of_true ?_ fun ⟨_, x, hx, _⟩ => ht (hw.hasTally hx)
    intro k x hx
    refine hp.exists_recordBallot hx ?_
    rintro rfl
    exact ht (hw.hasTally hx)

/-- The tallies are the ballots read by candidate, and a row of the result page shows the length
of its candidate's tally. -/
structure TalliesAgree (s : Storage Hash AccountId) : Prop where
  tallies : TalliesMatch s
  cells : ∀ toHuman k x, s.candidates.get k = some x → ∃ tally,
    s.candidateVotes.get k = some tally ∧
    votesCell (fetchVotes s.electionVotes x.electionId) (candidateOption toHuman (k, x)) =
      tally.length

theorem talliesAgree_iff : TalliesAgree s ↔ TalliesMatch s := by
  constructor
  · exact fun h => h.tallies
  · intro h
    refine ⟨h, fun toHuman k x hx => ?_⟩
    obtain ⟨ballots, hb, htally⟩ := h k x hx
    refine ⟨_, htally, ?_⟩
    rw [fetchVotes, hb]
    rfl

/-! ## Ballots and candidates -/

/-- Every ballot in the list of an election names a stored candidate of that election. -/
def BallotsOwned (s : Storage Hash AccountId) : Prop :=
  ∀ e ballots, s.electionVotes.get e = some ballots → ∀ v ∈ ballots, s.StoresFor v.candidateId e

/-- A vote for anything but a stored candidate of its election, or a registration that takes the
id of a candidate with ballots in another election. -/
def DisownsBallot (T : Config Hash) (s : Storage Hash AccountId) (x : Extrinsic Hash AccountId) :
    Prop :=
  match x.origin, x.call with
  | .root, .createCandidate name e => T.NameFits name ∧ s.HasRoster e ∧
    ∃ e', e' ≠ e ∧ s.HasBallotFor (T.hashOfCandidate ⟨name, e⟩) e'
  | .signed a, .createVote k e => s.AcceptsBallot a e ∧ ¬ s.StoresFor k e
  | _, _ => False

theorem DisownsBallot.accepts (h : DisownsBallot T s ⟨o, c⟩) : s.Accepts T o c := by
  cases o <;> cases c <;> first | exact h.elim | exact h.1 | exact ⟨h.1, h.2.1⟩

theorem BallotsOwned.openElection (hp : BallotsOwned s) {d : List UInt8} :
    BallotsOwned (s.openElection T d) := by
  intro e ballots hb v hv
  rcases get_insert_eq_some.mp hb with ⟨rfl, rfl⟩ | ⟨_, hb⟩
  · cases hv
  · exact hp e ballots hb v hv

theorem BallotsOwned.registerCandidate_iff (hp : BallotsOwned s) {x : Candidate Hash} :
    BallotsOwned (s.registerCandidate T x) ↔
      ¬ ∃ e, e ≠ x.electionId ∧ s.HasBallotFor (T.hashOfCandidate x) e := by
  constructor
  · rintro hp' ⟨e, hne, ballots, hb, v, hv, hk⟩
    obtain ⟨y, hy, hye⟩ := hp' e ballots hb v hv
    rw [hk] at hy
    cases get_insert_self.symm.trans hy
    exact hne hye.symm
  · intro hn e ballots hb v hv
    obtain ⟨y, hy, hye⟩ := hp e ballots hb v hv
    by_cases hk : v.candidateId = T.hashOfCandidate x
    · have he : e = x.electionId := by_contra fun hne => hn ⟨e, hne, ballots, hb, v, hv, hk⟩
      exact ⟨x, hk ▸ get_insert_self, he.symm⟩
    · exact ⟨y, (get_insert_of_ne hk).trans hy, hye⟩

theorem BallotsOwned.recordBallot_iff (hp : BallotsOwned s) {v : Vote Hash AccountId}
    (hl : ∃ ballots, s.electionVotes.get v.electionId = some ballots) :
    BallotsOwned (s.recordBallot v) ↔ s.StoresFor v.candidateId v.electionId := by
  obtain ⟨ballots, hb⟩ := hl
  constructor
  · intro hp'
    exact hp' _ _ (Storage.get_recordBallot hb) v (by simp)
  · intro hs e ballots' hb' w hw
    rcases StorageMap.get_adjust_eq_some.mp hb' with ⟨rfl, l, hl, rfl⟩ | ⟨_, hb'⟩
    · rcases List.mem_append.mp hw with hw | hw
      · exact hp _ l hl w hw
      · cases List.mem_singleton.mp hw
        exact hs
    · exact hp e ballots' hb' w hw

theorem Effect.ballotsOwned_iff (hp : BallotsOwned s) (h : Effect T s o c r s') :
    BallotsOwned s' ↔ ¬ DisownsBallot T s ⟨o, c⟩ := by
  cases h with
  | refused hn => exact iff_of_true hp fun hs => hn hs.accepts
  | somethingStored | incremented | electionUpdated => exact iff_of_true hp id
  | electionStored => exact iff_of_true hp.openElection id
  | candidateStored hn hr =>
    exact hp.registerCandidate_iff.trans
      (not_congr ⟨fun hf => ⟨hn, hr, hf⟩, fun hd => hd.2.2⟩)
  | voteStored ha | ballotOrphaned ha =>
    refine (hp.recordBallot_iff ha.2.1).trans ?_
    constructor
    · exact fun hs hd => hd.2 hs
    · exact fun hn => by_contra fun hs => hn ⟨ha, hs⟩

/-- The ballots of an election are for its candidates, and the rows of its result page add up to
the total. -/
structure CountsOwnCandidates (s : Storage Hash AccountId) : Prop where
  ballots : BallotsOwned s
  total : ∀ toHuman entries, Enumerates entries s.candidates → ∀ e,
    ((fetchCandidates toHuman entries e).map (votesCell (fetchVotes s.electionVotes e))).sum =
      totalCell (fetchVotes s.electionVotes e)

theorem countsOwnCandidates_iff : CountsOwnCandidates s ↔ BallotsOwned s := by
  constructor
  · exact fun h => h.ballots
  · exact fun h => ⟨h, fun _ _ hen e => sum_votesCell hen fun ballots hb => h e ballots hb⟩

/-! ## Runs -/

section
variable [DecidableEq AccountId]

/-- The tallies agree throughout a run iff no call of it splits a tally. -/
theorem always_talliesAgree_iff (T : Config Hash) (xs : List (Extrinsic Hash AccountId)) :
    Always (apply T) TalliesAgree .empty xs ↔
      EachStep (apply T) (fun s x => ¬ SplitsTally T s x) .empty xs := by
  refine always_iff_of_effect (talliesAgree_iff.mpr nofun) fun s o c r s' hw hp h => ?_
  rw [talliesAgree_iff]
  exact h.talliesMatch_iff hw hp.tallies

/-- A vote for a candidate of another election is in the tally and not in the list. -/
theorem not_always_talliesAgree :
    let xs : List (Extrinsic _ Nat) := [⟨.root, .createElection Mock.board⟩,
      ⟨.root, .createElection Mock.council⟩, ⟨.root, .createCandidate Mock.name Mock.boardId⟩,
      ⟨.signed 1, .createVote Mock.boardCandidate Mock.councilId⟩]
    CollisionFree Mock.config xs ∧ ¬ Always (apply Mock.config) TalliesAgree .empty xs := by
  refine ⟨⟨by decide, by decide⟩, fun h => ?_⟩
  obtain ⟨ballots, hb, htally⟩ := h.last.tallies Mock.boardCandidate ⟨Mock.name, Mock.boardId⟩
    (by decide)
  cases hb.symm.trans (show _ = some [] by decide)
  exact absurd htally (by decide)

/-- Every election counts its own candidates' ballots only throughout a run iff no call of it
disowns a ballot. -/
theorem always_countsOwnCandidates_iff (T : Config Hash) (xs : List (Extrinsic Hash AccountId)) :
    Always (apply T) CountsOwnCandidates .empty xs ↔
      EachStep (apply T) (fun s x => ¬ DisownsBallot T s x) .empty xs := by
  refine always_iff_of_effect (countsOwnCandidates_iff.mpr ?_) fun s o c r s' _ hp h => ?_
  · intro e ballots hb
    simp at hb
  · rw [countsOwnCandidates_iff]
    exact h.ballotsOwned_iff hp.ballots

/-- A vote for an unknown candidate is counted in the total and in no row. -/
theorem not_always_countsOwnCandidates :
    ¬ Always (apply Mock.config) CountsOwnCandidates .empty
      ([⟨.root, .createElection Mock.board⟩,
        ⟨.signed 1, .createVote Mock.boardCandidate Mock.boardId⟩] : List (Extrinsic _ Nat)) := by
  intro h
  obtain ⟨x, hx, _⟩ := h.last.ballots Mock.boardId [⟨Mock.boardCandidate, Mock.boardId, 1⟩]
    (by decide) _ List.mem_cons_self
  exact absurd (hx.symm.trans (show _ = none by decide)) nofun

end

end Votechain
