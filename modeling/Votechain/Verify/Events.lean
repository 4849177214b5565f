import Votechain.Verify.Reachable

/-!
# What the event log says

An observer who sees only the deposited events can tell which elections and candidates are
stored, which elections are open and how long every tally is. `Logged` is the invariant that links
the storage to its events; the order of the events is part of it, as a condition on the events
before each one.
-/

open Frame Machine History

namespace Votechain

variable {Hash AccountId : Type} [DecidableEq Hash]

namespace Event

def isElectionStored (e : Hash) : Event Hash AccountId → Bool
  | .electionStored _ e' => e = e'
  | _ => false

def isElectionUpdated (e : Hash) : Event Hash AccountId → Bool
  | .electionUpdated _ e' => e = e'
  | _ => false

/-- The events that say whether `e` is open. -/
def isElectionStatus (e : Hash) (ev : Event Hash AccountId) : Bool :=
  ev.isElectionStored e || ev.isElectionUpdated e

def isCandidateStored (k : Hash) : Event Hash AccountId → Bool
  | .candidateStored _ k' => k = k'
  | _ => false

def isVoteFor (k : Hash) : Event Hash AccountId → Bool
  | .voteStored _ k' => k = k'
  | _ => false

end Event

variable {T : Config Hash} {s s' : Storage Hash AccountId} {o : Origin AccountId} {c : Call Hash}
  {r : Except DispatchError Unit} {L : List (Event Hash AccountId)} {ev : Event Hash AccountId}
  {e k : Hash}

/-- The last event that says whether `e` is open says that it was stored. -/
def LastStored (e : Hash) (L : List (Event Hash AccountId)) : Prop :=
  ∃ ev, lastOf (Event.isElectionStatus e) L = some ev ∧ ev.isElectionStored e = true

theorem lastStored_concat_of_status (h : ev.isElectionStatus e = true) :
    LastStored e (L ++ [ev]) ↔ ev.isElectionStored e = true := by
  rw [LastStored, lastOf_concat, if_pos h]
  simp

theorem lastStored_concat_of_not_status (h : ev.isElectionStatus e = false) :
    LastStored e (L ++ [ev]) ↔ LastStored e L := by
  rw [LastStored, lastOf_concat, if_neg (by simp [h])]
  rfl

/-- What an event may say after the events in `L`: an election is closed or voted in while it is
open, and a vote is for a candidate that was stored. -/
def MayFollow (L : List (Event Hash AccountId)) : Event Hash AccountId → Prop
  | .electionUpdated _ e => LastStored e L
  | .voteStored e k => LastStored e L ∧ ∃ ev ∈ L, ev.isCandidateStored k = true
  | _ => True

/-- The storage is what its events say. -/
structure Logged (s : Storage Hash AccountId) : Prop where
  elections : ∀ e, (s.elections.get e).isSome ↔ ∃ ev ∈ s.events, ev.isElectionStored e = true
  isOpen : ∀ e, s.IsOpen e ↔ LastStored e s.events
  candidates : ∀ k, (s.candidates.get k).isSome ↔ ∃ ev ∈ s.events, ev.isCandidateStored k = true
  tallies : ∀ k, (s.candidateVotes.get k).map List.length =
    (sinceLast (Event.isCandidateStored k) s.events).map (List.countP (Event.isVoteFor k))
  ordered : Each MayFollow s.events

namespace Logged

theorem empty : Logged (.empty : Storage Hash AccountId) where
  elections e := by simp [Storage.empty]
  isOpen e := by simp [Storage.IsOpen, Storage.empty, LastStored]
  candidates k := by simp [Storage.empty]
  tallies k := by simp [Storage.empty]
  ordered := each_nil

/-- An event about other candidates leaves what the events say about a tally. -/
theorem tallies_concat (hs : Logged s) (hk : ev.isCandidateStored k = false)
    (hv : ev.isVoteFor k = false) : (s.candidateVotes.get k).map List.length =
      (sinceLast (Event.isCandidateStored k) (s.events ++ [ev])).map
        (List.countP (Event.isVoteFor k)) := by
  rw [sinceLast_concat_of_neg hk, hs.tallies k, Option.map_map]
  exact Option.map_congr fun l _ => by simp [hv]

theorem storeSomething (hs : Logged s) (n : UInt32) (who : AccountId) :
    Logged ({ s with something := some n }.deposit (.somethingStored n who)) where
  elections e := by simp [hs.elections e, or_and_right, exists_or, Event.isElectionStored]
  isOpen e := by
    rw [Storage.deposit_events, lastStored_concat_of_not_status rfl]
    exact hs.isOpen e
  candidates k := by simp [hs.candidates k, or_and_right, exists_or, Event.isCandidateStored]
  tallies k := hs.tallies_concat rfl rfl
  ordered := each_concat.mpr ⟨hs.ordered, trivial⟩

theorem openElection (hs : Logged s) (d : List UInt8) :
    Logged ((s.openElection T d).deposit (.electionStored d (T.electionId d))) where
  elections e := by
    simp [hs.elections e, or_and_right, exists_or, Event.isElectionStored, or_comm]
  isOpen e := by
    rw [Storage.deposit_events]
    by_cases he : e = T.electionId d
    · rw [lastStored_concat_of_status
        (by simp [Event.isElectionStatus, Event.isElectionStored, he])]
      simp [Storage.IsOpen, Event.isElectionStored, he]
    · rw [lastStored_concat_of_not_status (by simp [Event.isElectionStatus, Event.isElectionStored,
        Event.isElectionUpdated, he])]
      exact (by simp [Storage.IsOpen, he] : _ ↔ s.IsOpen e).trans (hs.isOpen e)
  candidates k := by simp [hs.candidates k, or_and_right, exists_or, Event.isCandidateStored]
  tallies k := hs.tallies_concat rfl rfl
  ordered := each_concat.mpr ⟨hs.ordered, trivial⟩

theorem closeElection (hs : Logged s) (ho : s.IsOpen e') :
    Logged ((s.closeElection e').deposit (.electionUpdated false e')) where
  elections e := by simp [hs.elections e, or_and_right, exists_or, Event.isElectionStored]
  isOpen e := by
    rw [Storage.deposit_events]
    by_cases he : e = e'
    · rw [lastStored_concat_of_status
        (by simp [Event.isElectionStatus, Event.isElectionUpdated, he])]
      simp [Storage.IsOpen, Event.isElectionStored, he]
    · rw [lastStored_concat_of_not_status (by simp [Event.isElectionStatus, Event.isElectionStored,
        Event.isElectionUpdated, he])]
      exact (by simp [Storage.IsOpen, he] : _ ↔ s.IsOpen e).trans (hs.isOpen e)
  candidates k := by simp [hs.candidates k, or_and_right, exists_or, Event.isCandidateStored]
  tallies k := hs.tallies_concat rfl rfl
  ordered := each_concat.mpr ⟨hs.ordered, (hs.isOpen e').mp ho⟩

theorem registerCandidate (hs : Logged s) (x : Candidate Hash) :
    Logged ((s.registerCandidate T x).deposit
      (.candidateStored x.candidateName (T.hashOfCandidate x))) where
  elections e := by simp [hs.elections e, or_and_right, exists_or, Event.isElectionStored]
  isOpen e := by
    rw [Storage.deposit_events, lastStored_concat_of_not_status rfl]
    exact hs.isOpen e
  candidates k := by
    simp [hs.candidates k, or_and_right, exists_or, Event.isCandidateStored, or_comm]
  tallies k := by
    by_cases hk : k = T.hashOfCandidate x
    · rw [Storage.deposit_events, sinceLast_concat_of_pos (by simp [Event.isCandidateStored, hk])]
      simp [hk]
    · refine (congrArg _ (StorageMap.get_insert_of_ne hk)).trans ?_
      exact hs.tallies_concat (by simp [Event.isCandidateStored, hk]) rfl
  ordered := each_concat.mpr ⟨hs.ordered, trivial⟩

/-- A candidate with a tally was stored. -/
theorem exists_candidateStored (hs : Logged s) (ht : s.HasTally k) :
    ∃ ev ∈ s.events, ev.isCandidateStored k = true := by
  obtain ⟨tally, ht⟩ := ht
  have htally := hs.tallies k
  by_contra hn
  rw [sinceLast_eq_none_iff.mpr (by simpa using hn), ht] at htally
  cases htally

theorem vote (hs : Logged s) {v : Vote Hash AccountId} (ho : s.IsOpen v.electionId)
    (ht : s.HasTally v.candidateId) : Logged
      (((s.recordBallot v).tallyBallot v).deposit (.voteStored v.electionId v.candidateId)) where
  elections e := by simp [hs.elections e, or_and_right, exists_or, Event.isElectionStored]
  isOpen e := by
    rw [Storage.deposit_events, lastStored_concat_of_not_status rfl]
    exact hs.isOpen e
  candidates k := by simp [hs.candidates k, or_and_right, exists_or, Event.isCandidateStored]
  tallies k := by
    by_cases hk : k = v.candidateId
    · -- one more ballot and one more event
      subst k
      obtain ⟨tally, ht⟩ := ht
      have htally := hs.tallies v.candidateId
      rw [ht] at htally
      obtain ⟨l, hl, hlen⟩ := Option.map_eq_some_iff.mp htally.symm
      refine (congrArg _ (Storage.get_tallyBallot (s := s.recordBallot v) ht)).trans ?_
      rw [Storage.deposit_events, sinceLast_concat_of_neg rfl]
      simp [Storage.recordBallot, Storage.tallyBallot, hl, hlen, Event.isVoteFor]
    · refine (congrArg _ (StorageMap.get_adjust_of_ne hk)).trans ?_
      exact hs.tallies_concat rfl (by simp [Event.isVoteFor, hk])
  ordered := each_concat.mpr
    ⟨hs.ordered, (hs.isOpen v.electionId).mp ho, hs.exists_candidateStored ht⟩

/-- Every effect keeps the storage what its events say. -/
theorem effect (hs : Logged s) (h : Effect T s o c r s') : Logged s' := by
  cases h with
  | refused => exact hs
  | somethingStored => exact hs.storeSomething ..
  | incremented | ballotOrphaned =>
    exact ⟨hs.elections, hs.isOpen, hs.candidates, hs.tallies, hs.ordered⟩
  | electionStored => exact hs.openElection _
  | electionUpdated ho => exact hs.closeElection ho
  | candidateStored => exact hs.registerCandidate _
  | @voteStored a e k ha ht => exact hs.vote (v := ⟨k, e, a⟩) ha.1 ht

/-- Between two closes the election was stored. -/
theorem exists_stored_between (hs : Logged s) (hL : s.events = l₁ ++ u :: l₂ ++ u' :: l₃)
    (hu : u.isElectionUpdated e = true) (hu' : u'.isElectionUpdated e = true) :
    ∃ ev ∈ l₂, ev.isElectionStored e = true := by
  have hordered := hs.ordered
  rw [hL] at hordered
  have hlast := hordered.of_split
  cases u' with
  | electionUpdated b e' =>
    obtain rfl := of_decide_eq_true hu'
    obtain ⟨ev, hev, hstored⟩ := hlast
    have hstatus : u.isElectionStatus e = true := by simp [Event.isElectionStatus, hu]
    rw [lastOf_append_cons hstatus] at hev
    obtain ⟨hmem, _⟩ := mem_of_lastOf hev
    rcases List.mem_cons.mp hmem with rfl | hmem
    · -- a close does not store
      cases ev with
      | electionUpdated => cases hstored
      | _ => cases hu
    · exact ⟨ev, hmem, hstored⟩
  | _ => cases hu'

end Logged

/-- What the events determine of the storage, and the order they come in. -/
structure EventsDetermine (s : Storage Hash AccountId) : Prop where
  elections : ∀ e, (s.elections.get e).isSome ↔ ∃ ev ∈ s.events, ev.isElectionStored e = true
  isOpen : ∀ e election, s.elections.get e = some election →
    (election.isOpen = true ↔ LastStored e s.events)
  closes : ∀ e l₁ u l₂ u' l₃, s.events = l₁ ++ u :: l₂ ++ u' :: l₃ →
    u.isElectionUpdated e = true → u'.isElectionUpdated e = true →
      ∃ ev ∈ l₂, ev.isElectionStored e = true
  votes : ∀ e k l₁ l₂, s.events = l₁ ++ .voteStored e k :: l₂ →
    LastStored e l₁ ∧ ∃ ev ∈ l₁, ev.isCandidateStored k = true
  candidates : ∀ k, (s.candidates.get k).isSome ↔ ∃ ev ∈ s.events, ev.isCandidateStored k = true
  tallies : ∀ k, (s.candidateVotes.get k).map List.length =
    (sinceLast (Event.isCandidateStored k) s.events).map (List.countP (Event.isVoteFor k))

theorem Logged.eventsDetermine (hs : Logged s) : EventsDetermine s where
  elections := hs.elections
  isOpen e election he := by
    rw [← hs.isOpen e]
    constructor
    · exact fun ho => ⟨election, he, ho⟩
    · rintro ⟨election', he', ho⟩
      cases he.symm.trans he'
      exact ho
  closes _ _ _ _ _ _ hL hu hu' := hs.exists_stored_between hL hu hu'
  votes e k l₁ l₂ hL := by
    have hordered := hs.ordered
    rw [hL] at hordered
    exact hordered.of_split
  candidates := hs.candidates
  tallies := hs.tallies

/-- After any run, the events deposited in it determine which elections and candidates are stored,
which elections are open and how long the tallies are. -/
theorem run_eventsDetermine [DecidableEq AccountId] (T : Config Hash)
    (xs : List (Extrinsic Hash AccountId)) : EventsDetermine (run T xs) :=
  Logged.eventsDetermine (finalState_induction Logged.empty
    (fun _ x hs => hs.effect (apply_effect x _)) xs)

end Votechain
