import Votechain.Pallet.Calls

/-!
# What a call does

`Effect T s o c r s'` says what dispatching the call `c` with origin `o` in the storage `s` may
do: the result `r` and the storage `s'`. There is one constructor for every way a call can
touch the storage and one for a refused call, which touches nothing. The refused constructor
carries the negation of the guard of all the others, so the relation is exact, and
`dispatch_effect` is the only place where the bodies of the dispatchables are unfolded.

A ballot is written in two steps. `ballotOrphaned` is the call that stops between them: it
returns an error, and the ballot stays recorded in its election.
-/

open Frame Frame.Dispatch

namespace Votechain

variable {Hash AccountId : Type}

/-! ## Guards -/

namespace Config

variable (T : Config Hash)

/-- The id of the election with a description: the hash of the record as created. -/
def electionId (description : List UInt8) : Hash :=
  T.hashOfElection { description, isOpen := true }

/-- The bounds on the length of a description, taken as a `u32`. -/
def DescriptionFits (description : List UInt8) : Prop :=
  T.electionMinBytes < UInt32.ofNat description.length ∧
    UInt32.ofNat description.length < T.electionMaxBytes

/-- The bounds on the length of a candidate's name, taken as a `u32`. -/
def NameFits (candidateName : List UInt8) : Prop :=
  T.candidateMinBytes < UInt32.ofNat candidateName.length ∧
    UInt32.ofNat candidateName.length < T.candidateMaxBytes

instance (description : List UInt8) : Decidable (T.DescriptionFits description) :=
  inferInstanceAs (Decidable (_ ∧ _))

instance (candidateName : List UInt8) : Decidable (T.NameFits candidateName) :=
  inferInstanceAs (Decidable (_ ∧ _))

end Config

namespace Storage

variable [DecidableEq Hash]

section
variable (s : Storage Hash AccountId)

/-- The election is stored and open. -/
def IsOpen (e : Hash) : Prop := ∃ election, s.elections.get e = some election ∧ election.isOpen

/-- A ballot of `a` stands in the list of `e`. -/
def HasBallot (a : AccountId) (e : Hash) : Prop :=
  ∃ ballots, s.electionVotes.get e = some ballots ∧ ∃ v ∈ ballots, v.author = a

/-- `create_vote` records a ballot of `a` in `e`. -/
def AcceptsBallot (a : AccountId) (e : Hash) : Prop :=
  s.IsOpen e ∧ (∃ ballots, s.electionVotes.get e = some ballots) ∧ ¬ s.HasBallot a e

/-- `create_candidate` finds the roster it adds to. -/
def HasRoster (e : Hash) : Prop := ∃ roster, s.electionCandidates.get e = some roster

/-- The candidate has a tally. -/
def HasTally (c : Hash) : Prop := ∃ tally, s.candidateVotes.get c = some tally

/-- The call gets past the checks that precede its first write. -/
def Accepts (T : Config Hash) : Origin AccountId → Call Hash → Prop
  | .signed _, .doSomething _ => True
  | .signed _, .causeError => ∃ new, s.something.bind (checkedAdd · 1) = some new
  | .root, .createElection description => T.DescriptionFits description
  | .root, .closeElection e => s.IsOpen e
  | .root, .createCandidate candidateName e => T.NameFits candidateName ∧ s.HasRoster e
  | .signed a, .createVote _ e => s.AcceptsBallot a e
  | _, _ => False

/-- The error of a call that is refused before its first write. -/
def refusal (T : Config Hash) : Origin AccountId → Call Hash → DispatchError
  | .signed _, .causeError =>
    if s.something = none then .module .noneValue else .module .storageOverflow
  | .root, .createElection description =>
    if T.electionMinBytes < UInt32.ofNat description.length then .module .electionTooManyBytes
    else .module .electionNotEnoughBytes
  | .root, .closeElection _ => .module .electionNotFound
  | .root, .createCandidate candidateName _ =>
    if T.NameFits candidateName then .module .electionNotFound
    else if T.candidateMinBytes < UInt32.ofNat candidateName.length then
      .module .candidateTooManyBytes
    else .module .candidateNotEnoughBytes
  | .signed _, .createVote _ _ => .module .electionNotFound
  | _, _ => .badOrigin

instance (e : Hash) : Decidable (s.IsOpen e) :=
  decidable_of_iff ((s.elections.get e).any (·.isOpen) = true)
    (by simp [IsOpen, Option.any_eq_true])

instance [DecidableEq AccountId] (a : AccountId) (e : Hash) : Decidable (s.HasBallot a e) :=
  decidable_of_iff ((s.electionVotes.get e).any (·.any (·.author = a)) = true)
    (by simp [HasBallot, Option.any_eq_true])

instance [DecidableEq AccountId] (a : AccountId) (e : Hash) : Decidable (s.AcceptsBallot a e) :=
  decidable_of_iff (s.IsOpen e ∧ (s.electionVotes.get e).isSome ∧ ¬ s.HasBallot a e)
    (by rw [AcceptsBallot, Option.isSome_iff_exists])

instance (e : Hash) : Decidable (s.HasRoster e) :=
  decidable_of_iff _ Option.isSome_iff_exists

instance (c : Hash) : Decidable (s.HasTally c) :=
  decidable_of_iff _ Option.isSome_iff_exists

/-! ## Writes -/

@[simps] def deposit (event : Event Hash AccountId) : Storage Hash AccountId :=
  { s with events := s.events ++ [event] }

/-- Store the election of a description as open, with an empty roster and no ballots. -/
@[simps] def openElection (T : Config Hash) (description : List UInt8) : Storage Hash AccountId :=
  { s with
    elections := s.elections.insert (T.electionId description) ⟨description, true⟩
    electionCandidates := s.electionCandidates.insert (T.electionId description) []
    electionVotes := s.electionVotes.insert (T.electionId description) [] }

@[simps] def closeElection (e : Hash) : Storage Hash AccountId :=
  { s with elections := s.elections.adjust e fun election => { election with isOpen := false } }

/-- Add a candidate to its roster, and store it with an empty tally. -/
@[simps] def registerCandidate (T : Config Hash) (x : Candidate Hash) : Storage Hash AccountId :=
  { s with
    electionCandidates := s.electionCandidates.adjust x.electionId (· ++ [x])
    candidates := s.candidates.insert (T.hashOfCandidate x) x
    candidateVotes := s.candidateVotes.insert (T.hashOfCandidate x) [] }

/-- Add a ballot to the list of its election. -/
@[simps] def recordBallot (v : Vote Hash AccountId) : Storage Hash AccountId :=
  { s with electionVotes := s.electionVotes.adjust v.electionId (· ++ [v]) }

/-- Add a ballot to the tally of its candidate. -/
@[simps] def tallyBallot (v : Vote Hash AccountId) : Storage Hash AccountId :=
  { s with candidateVotes := s.candidateVotes.adjust v.candidateId (· ++ [v]) }

end

variable {s : Storage Hash AccountId} {v : Vote Hash AccountId} {l : List (Vote Hash AccountId)}

theorem get_recordBallot (hl : s.electionVotes.get v.electionId = some l) :
    (s.recordBallot v).electionVotes.get v.electionId = some (l ++ [v]) :=
  StorageMap.get_adjust_self.trans (congrArg _ hl)

theorem get_tallyBallot (hl : s.candidateVotes.get v.candidateId = some l) :
    (s.tallyBallot v).candidateVotes.get v.candidateId = some (l ++ [v]) :=
  StorageMap.get_adjust_self.trans (congrArg _ hl)

end Storage

variable [DecidableEq Hash]

/-- The effect of a call. -/
inductive Effect (T : Config Hash) (s : Storage Hash AccountId) :
    Origin AccountId → Call Hash → Except DispatchError Unit → Storage Hash AccountId → Prop
  | refused : ¬ s.Accepts T o c → Effect T s o c (.error (s.refusal T o c)) s
  | somethingStored : Effect T s (.signed who) (.doSomething something) (.ok ())
      ({ s with something := some something }.deposit (.somethingStored something who))
  | incremented : s.something.bind (checkedAdd · 1) = some new →
      Effect T s (.signed who) .causeError (.ok ()) { s with something := some new }
  | electionStored : T.DescriptionFits description →
      Effect T s .root (.createElection description) (.ok ())
        ((s.openElection T description).deposit
          (.electionStored description (T.electionId description)))
  | electionUpdated : s.IsOpen e →
      Effect T s .root (.closeElection e) (.ok ())
        ((s.closeElection e).deposit (.electionUpdated false e))
  | candidateStored : T.NameFits candidateName → s.HasRoster e →
      Effect T s .root (.createCandidate candidateName e) (.ok ())
        ((s.registerCandidate T ⟨candidateName, e⟩).deposit
          (.candidateStored candidateName (T.hashOfCandidate ⟨candidateName, e⟩)))
  | voteStored : s.AcceptsBallot a e → s.HasTally c →
      Effect T s (.signed a) (.createVote c e) (.ok ())
        (((s.recordBallot ⟨c, e, a⟩).tallyBallot ⟨c, e, a⟩).deposit (.voteStored e c))
  | ballotOrphaned : s.AcceptsBallot a e → ¬ s.HasTally c →
      Effect T s (.signed a) (.createVote c e) (.error (.module .candidateNotFound))
        (s.recordBallot ⟨c, e, a⟩)

section
variable {T : Config Hash} {s s' s₁ : Storage Hash AccountId} {r r₁ : Except DispatchError Unit}

theorem Effect.eq_of_not_accepts (h : Effect T s o c r s') (hn : ¬ s.Accepts T o c) :
    r = .error (s.refusal T o c) ∧ s' = s := by
  cases h with
  | refused => exact ⟨rfl, rfl⟩
  | somethingStored => exact absurd trivial hn
  | incremented h => exact absurd ⟨_, h⟩ hn
  | electionStored h | electionUpdated h | voteStored h | ballotOrphaned h => exact absurd h hn
  | candidateStored h h' => exact absurd ⟨h, h'⟩ hn

/-- A call has one effect. -/
theorem Effect.unique (h : Effect T s o c r s') (h₁ : Effect T s o c r₁ s₁) :
    r = r₁ ∧ s' = s₁ := by
  by_cases ha : s.Accepts T o c
  · cases h with
    | refused h => exact absurd ha h
    | incremented h =>
      cases h₁ with
      | refused h₁ => exact absurd ha h₁
      | incremented h₁ => cases h.symm.trans h₁; exact ⟨rfl, rfl⟩
    | voteStored _ h =>
      cases h₁ with
      | refused h₁ => exact absurd ha h₁
      | voteStored => exact ⟨rfl, rfl⟩
      | ballotOrphaned _ h₁ => exact absurd h h₁
    | ballotOrphaned _ h =>
      cases h₁ with
      | refused h₁ => exact absurd ha h₁
      | voteStored _ h₁ => exact absurd h₁ h
      | ballotOrphaned => exact ⟨rfl, rfl⟩
    | _ =>
      cases h₁ with
      | refused h₁ => exact absurd ha h₁
      | _ => exact ⟨rfl, rfl⟩
  · obtain ⟨rfl, rfl⟩ := h.eq_of_not_accepts ha
    obtain ⟨rfl, rfl⟩ := h₁.eq_of_not_accepts ha
    exact ⟨rfl, rfl⟩

end

/-! ## The bodies have these effects -/

variable {T : Config Hash} {s : Storage Hash AccountId}

open StorageMap (erase_of_get insert_of_get adjust_of_get)

omit [DecidableEq Hash] in
theorem causeError_exec :
    (causeError (.signed who)).exec s =
      match s.something.bind (checkedAdd · 1) with
      | none => (.error (s.refusal T (.signed who) .causeError), s)
      | some new => (.ok (), { s with something := some new }) := by
  cases hs : s.something with
  | none => simp [causeError, ensureSigned, Storage.refusal, hs]
  | some old =>
    cases ha : checkedAdd old 1 <;> simp [causeError, ensureSigned, Storage.refusal, hs, ha]

theorem createElection_exec {d : List UInt8} :
    (createElection T .root d).exec s =
      if T.DescriptionFits d then
        (.ok (), (s.openElection T d).deposit (.electionStored d (T.electionId d)))
      else (.error (s.refusal T .root (.createElection d)), s) := by
  by_cases hmin : T.electionMinBytes < UInt32.ofNat d.length <;>
    by_cases hmax : UInt32.ofNat d.length < T.electionMaxBytes <;>
    simp [createElection, ensureRoot, Config.DescriptionFits, Storage.refusal, hmin, hmax,
      Storage.openElection, Storage.deposit, Config.electionId, Except.isOk, Except.toBool]

theorem closeElection_refused (h : ¬ s.IsOpen e) :
    (closeElection .root e).exec s = (.error (.module .electionNotFound), s) := by
  cases he : s.elections.get e with
  | none => simp [closeElection, ensureRoot, he, erase_of_get]
  | some election =>
    cases ho : election.isOpen with
    | false => simp [closeElection, ensureRoot, he, ho, insert_of_get]
    | true => exact absurd ⟨election, he, ho⟩ h

theorem closeElection_accepted (h : s.IsOpen e) :
    (closeElection .root e).exec s =
      (.ok (), (s.closeElection e).deposit (.electionUpdated false e)) := by
  obtain ⟨election, he, ho⟩ := h
  simp [closeElection, ensureRoot, he, ho, Storage.closeElection, Storage.deposit, adjust_of_get]

theorem createCandidate_exec {name : List UInt8} :
    (createCandidate T .root name e).exec s =
      match s.electionCandidates.get e with
      | some _ => if T.NameFits name then
          (.ok (), (s.registerCandidate T ⟨name, e⟩).deposit
            (.candidateStored name (T.hashOfCandidate ⟨name, e⟩)))
        else (.error (s.refusal T .root (.createCandidate name e)), s)
      | none => (.error (s.refusal T .root (.createCandidate name e)), s) := by
  by_cases hmin : T.candidateMinBytes < UInt32.ofNat name.length <;>
    by_cases hmax : UInt32.ofNat name.length < T.candidateMaxBytes <;>
    cases he : s.electionCandidates.get e <;>
    simp [createCandidate, ensureRoot, Config.NameFits, Storage.refusal, hmin, hmax, he,
      erase_of_get, Storage.registerCandidate, Storage.deposit, adjust_of_get]

/-! ### Voting -/

variable [DecidableEq AccountId]

omit [DecidableEq Hash] in
/-- The scan finds an earlier ballot of the author iff there is one. -/
theorem voteExists_iff {a : AccountId} {vec : List (Vote Hash AccountId)} :
    voteExists a vec = true ↔ ∃ v ∈ vec, v.author = a := by
  -- the loop started with `found` already set or not
  have aux (found : Bool) : (Id.run <| forIn vec found fun v found =>
      if v.author = a then pure (.yield true) else pure (.yield found)) = true ↔
        found = true ∨ ∃ v ∈ vec, v.author = a := by
    induction vec generalizing found with
    | nil => simp
    | cons v vec ih => by_cases hv : v.author = a <;> simp [hv, ih]
  exact (aux false).trans (by simp)

theorem createVote_refused (h : ¬ s.AcceptsBallot a e) :
    (createVote (.signed a) c e).exec s = (.error (.module .electionNotFound), s) := by
  cases he : s.elections.get e with
  | none => simp [createVote, ensureSigned, he, erase_of_get]
  | some election =>
    cases ho : election.isOpen with
    | false => simp [createVote, ensureSigned, he, ho, insert_of_get]
    | true =>
      cases hv : s.electionVotes.get e with
      | none => simp [createVote, ensureSigned, he, ho, hv, insert_of_get, erase_of_get]
      | some ballots =>
        -- the election is open and has a list, so the author is in it
        have hb : ∃ v ∈ ballots, v.author = a := by
          by_contra hb
          refine h ⟨⟨election, he, ho⟩, ⟨ballots, hv⟩, fun ⟨ballots', hv', hb'⟩ => hb ?_⟩
          cases hv.symm.trans hv'
          exact hb'
        simp [createVote, ensureSigned, he, ho, hv, voteExists_iff, hb, insert_of_get]

/-- Past its guard, `create_vote` has recorded the ballot when it looks up the tally. -/
theorem createVote_accepted (h : s.AcceptsBallot a e) :
    (createVote (.signed a) c e).exec s =
      match s.candidateVotes.get c with
      | none => (.error (.module .candidateNotFound), s.recordBallot ⟨c, e, a⟩)
      | some _ => (.ok (),
          ((s.recordBallot ⟨c, e, a⟩).tallyBallot ⟨c, e, a⟩).deposit (.voteStored e c)) := by
  obtain ⟨⟨election, he, ho⟩, ⟨ballots, hv⟩, hb⟩ := h
  have hb : ¬ ∃ v ∈ ballots, v.author = a := fun h => hb ⟨ballots, hv, h⟩
  cases hc : s.candidateVotes.get c with
  | none =>
    simp [createVote, ensureSigned, he, ho, hv, hc, voteExists_iff, hb, insert_of_get,
      erase_of_get, Storage.recordBallot, adjust_of_get]
  | some tally =>
    simp [createVote, ensureSigned, he, ho, hv, hc, voteExists_iff, hb, insert_of_get,
      Storage.recordBallot, Storage.tallyBallot, Storage.deposit, adjust_of_get]

/-! ### Dispatch -/

/-- Every call has the effect that the relation assigns to it. -/
theorem dispatch_effect (T : Config Hash) (s : Storage Hash AccountId) (o : Origin AccountId)
    (c : Call Hash) :
    Effect T s o c ((c.dispatch T o).exec s).1 ((c.dispatch T o).exec s).2 := by
  cases c with
  | doSomething n =>
    cases o with
    | signed who => exact .somethingStored
    | _ => exact .refused id
  | causeError =>
    cases o with
    | signed who =>
      rw [Call.dispatch, causeError_exec]
      split
      · exact .refused fun ⟨_, h⟩ => by simp_all
      · exact .incremented ‹_›
    | _ => exact .refused id
  | createElection d =>
    cases o with
    | root =>
      rw [Call.dispatch, createElection_exec]
      split
      · exact .electionStored ‹_›
      · exact .refused ‹_›
    | _ => exact .refused id
  | closeElection e =>
    cases o with
    | root =>
      by_cases h : s.IsOpen e
      · rw [Call.dispatch, closeElection_accepted h]; exact .electionUpdated h
      · rw [Call.dispatch, closeElection_refused h]; exact .refused h
    | _ => exact .refused id
  | createCandidate name e =>
    cases o with
    | root =>
      rw [Call.dispatch, createCandidate_exec]
      split
      · split
        · exact .candidateStored ‹_› ⟨_, ‹_›⟩
        · exact .refused fun h => ‹¬ _› h.1
      · exact .refused fun ⟨_, _, h⟩ => by simp_all
    | _ => exact .refused id
  | createVote c e =>
    cases o with
    | signed a =>
      by_cases h : s.AcceptsBallot a e
      · rw [Call.dispatch, createVote_accepted h]
        split
        · exact .ballotOrphaned h fun ⟨_, h'⟩ => by simp_all
        · exact .voteStored h ⟨_, ‹_›⟩
      · rw [Call.dispatch, createVote_refused h]; exact .refused h
    | _ => exact .refused id

/-- The relation is the dispatch function. -/
theorem effect_iff {r : Except DispatchError Unit} {s' : Storage Hash AccountId} :
    Effect T s o c r s' ↔ (c.dispatch T o).exec s = (r, s') := by
  constructor
  · intro h
    obtain ⟨hr, hs⟩ := h.unique (dispatch_effect T s o c)
    rw [hr, hs]
  · intro h
    have hd := dispatch_effect T s o c
    rwa [h] at hd

end Votechain
