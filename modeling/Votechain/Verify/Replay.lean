import Votechain.Theory.History
import Votechain.Verify.Reachable

/-!
# The storage as a function of the history

Each list in the storage is read off the receipts of the run: what the calls since the last one
that emptied the list have contributed. The list of an election's ballots takes every vote that
names it, successful or not, until the election is closed, and the first one of each author.
-/

open Frame Machine History
open StorageMap (get_empty get_insert get_insert_self get_insert_of_ne get_adjust get_adjust_of_ne)

namespace Votechain

variable {Hash AccountId : Type} [DecidableEq Hash]

/-! ## Receipts -/

section
variable (T : Config Hash) (e k : Hash)

/-- `create_election` succeeded and produced `e`. -/
def okCreateElection : Receipt Hash AccountId → Bool
  | (⟨_, .createElection d⟩, .ok ()) => e = T.electionId d
  | _ => false

/-- `close_election` succeeded on `e`. -/
def okCloseElection : Receipt Hash AccountId → Bool
  | (⟨_, .closeElection e'⟩, .ok ()) => e = e'
  | _ => false

/-- `create_candidate` succeeded and produced `k`. -/
def okCreateCandidate : Receipt Hash AccountId → Bool
  | (⟨_, .createCandidate name e⟩, .ok ()) => k = T.hashOfCandidate ⟨name, e⟩
  | _ => false

/-- The candidate that a successful `create_candidate` adds to the roster of `e`. -/
def registeredCandidate : Receipt Hash AccountId → Option (Candidate Hash)
  | (⟨_, .createCandidate name e'⟩, .ok ()) => if e = e' then some ⟨name, e'⟩ else none
  | _ => none

/-- The ballot of a signed `create_vote` that names `e`, whatever it returned. -/
def castBallot : Receipt Hash AccountId → Option (Vote Hash AccountId)
  | (⟨.signed a, .createVote k e'⟩, _) => if e = e' then some ⟨k, e', a⟩ else none
  | _ => none

/-- The ballot of a successful `create_vote` for `k`. -/
def countedBallot : Receipt Hash AccountId → Option (Vote Hash AccountId)
  | (⟨.signed a, .createVote k' e⟩, .ok ()) => if k = k' then some ⟨k', e, a⟩ else none
  | _ => none

/-! ## Replay -/

variable (h : List (Receipt Hash AccountId))

def replayIsOpen : Option Bool :=
  (sinceLast (okCreateElection T e) h).map fun h => !h.any (okCloseElection e)

def replayElectionCandidates : Option (List (Candidate Hash)) :=
  collectSince (okCreateElection T e) (registeredCandidate e) h

def replayElectionVotes [DecidableEq AccountId] : Option (List (Vote Hash AccountId)) :=
  (sinceLast (okCreateElection T e) h).map fun h =>
    firstPer Vote.author ((untilFirst (okCloseElection e) h).filterMap (castBallot e))

def replayCandidateVotes : Option (List (Vote Hash AccountId)) :=
  collectSince (okCreateCandidate T k) (countedBallot k) h

end

variable {T : Config Hash} {s s' : Storage Hash AccountId} {o : Origin AccountId} {c : Call Hash}
  {r : Except DispatchError Unit} {h : List (Receipt Hash AccountId)} {p : Receipt Hash AccountId}
  {e k : Hash}

section
variable {x : Extrinsic Hash AccountId} {err : DispatchError}

/-! A failed call contributes to nothing but the ballots that were cast. -/

@[simp] theorem okCreateElection_error : okCreateElection T e (x, .error err) = false := by
  simp [okCreateElection]

@[simp] theorem okCloseElection_error : okCloseElection e (x, .error err) = false := by
  simp [okCloseElection]

@[simp] theorem okCreateCandidate_error : okCreateCandidate T k (x, .error err) = false := by
  simp [okCreateCandidate]

@[simp] theorem registeredCandidate_error : registeredCandidate e (x, .error err) = none := by
  simp [registeredCandidate]

@[simp] theorem countedBallot_error : countedBallot k (x, .error err) = none := by
  simp [countedBallot]

end

/-- A ballot was cast by the call that it names. -/
theorem extrinsic_of_castBallot {v : Vote Hash AccountId} (hv : castBallot e p = some v) :
    p.1 = ⟨.signed v.author, .createVote v.candidateId v.electionId⟩ := by
  unfold castBallot at hv
  split at hv
  · split at hv
    · cases hv; rfl
    · cases hv
  · cases hv

theorem extrinsic_of_countedBallot {v : Vote Hash AccountId} (hv : countedBallot k p = some v) :
    p.1 = ⟨.signed v.author, .createVote v.candidateId v.electionId⟩ := by
  unfold countedBallot at hv
  split at hv
  · split at hv
    · cases hv; rfl
    · cases hv
  · cases hv

theorem okCreateElection_of_castBallot {v : Vote Hash AccountId} (hv : castBallot e p = some v) :
    okCreateElection T k p = false ∧ okCloseElection k p = false := by
  obtain ⟨x, r⟩ := p
  obtain rfl := extrinsic_of_castBallot hv
  exact ⟨rfl, rfl⟩

/-! ### What one more receipt adds -/

theorem replayIsOpen_concat_of_pos (hp : okCreateElection T e p = true) :
    replayIsOpen T e (h ++ [p]) = some true := by
  rw [replayIsOpen, sinceLast_concat_of_pos hp]; rfl

theorem replayIsOpen_concat_of_neg (hp : okCreateElection T e p = false) :
    replayIsOpen T e (h ++ [p]) =
      (replayIsOpen T e h).map fun isOpen => isOpen && !okCloseElection e p := by
  rw [replayIsOpen, sinceLast_concat_of_neg hp, replayIsOpen, Option.map_map, Option.map_map]
  exact Option.map_congr fun l _ => by simp

theorem replayIsOpen_concat_of_none (hp : okCreateElection T e p = false)
    (hc : okCloseElection e p = false) : replayIsOpen T e (h ++ [p]) = replayIsOpen T e h := by
  rw [replayIsOpen_concat_of_neg hp, hc]
  cases replayIsOpen T e h with
  | none => rfl
  | some isOpen => exact congrArg some (Bool.and_true isOpen)

theorem replayIsOpen_createElection :
    replayIsOpen T e (h ++ [(⟨o, .createElection d⟩, .ok ())]) =
      if e = T.electionId d then some true else replayIsOpen T e h := by
  by_cases hd : e = T.electionId d
  · rw [if_pos hd]
    exact replayIsOpen_concat_of_pos (decide_eq_true hd)
  · rw [if_neg hd]
    exact replayIsOpen_concat_of_none (decide_eq_false hd) rfl

theorem replayIsOpen_closeElection :
    replayIsOpen T e (h ++ [(⟨o, .closeElection e'⟩, .ok ())]) =
      if e = e' then (replayIsOpen T e h).map fun _ => false else replayIsOpen T e h := by
  by_cases hd : e = e'
  · rw [if_pos hd, replayIsOpen_concat_of_neg rfl]
    simp [okCloseElection, hd]
  · rw [if_neg hd]
    exact replayIsOpen_concat_of_none rfl (decide_eq_false hd)

theorem replayElectionCandidates_createElection :
    replayElectionCandidates T e (h ++ [(⟨o, .createElection d⟩, .ok ())]) =
      if e = T.electionId d then some [] else replayElectionCandidates T e h := by
  by_cases hd : e = T.electionId d
  · rw [if_pos hd]
    exact collectSince_concat_of_pos (decide_eq_true hd)
  · rw [if_neg hd]
    exact collectSince_concat_of_none (decide_eq_false hd) rfl

theorem replayElectionCandidates_createCandidate :
    replayElectionCandidates T e (h ++ [(⟨o, .createCandidate name e'⟩, .ok ())]) =
      if e = e' then (replayElectionCandidates T e h).map (· ++ [⟨name, e'⟩])
      else replayElectionCandidates T e h := by
  by_cases hd : e = e'
  · rw [if_pos hd]
    exact collectSince_concat_of_some rfl (if_pos hd)
  · rw [if_neg hd]
    exact collectSince_concat_of_none rfl (if_neg hd)

theorem replayCandidateVotes_createCandidate :
    replayCandidateVotes T k (h ++ [(⟨o, .createCandidate name e⟩, .ok ())]) =
      if k = T.hashOfCandidate ⟨name, e⟩ then some [] else replayCandidateVotes T k h := by
  by_cases hd : k = T.hashOfCandidate ⟨name, e⟩
  · rw [if_pos hd]
    exact collectSince_concat_of_pos (decide_eq_true hd)
  · rw [if_neg hd]
    exact collectSince_concat_of_none (decide_eq_false hd) (by simp [countedBallot])

theorem replayCandidateVotes_createVote {a : AccountId} :
    replayCandidateVotes T k (h ++ [(⟨.signed a, .createVote k' e⟩, .ok ())]) =
      if k = k' then (replayCandidateVotes T k h).map (· ++ [⟨k', e, a⟩])
      else replayCandidateVotes T k h := by
  by_cases hd : k = k'
  · rw [if_pos hd]
    exact collectSince_concat_of_some rfl (if_pos hd)
  · rw [if_neg hd]
    exact collectSince_concat_of_none rfl (if_neg hd)

section
variable [DecidableEq AccountId]

/-- A call that casts no ballot in `e` and does not create it leaves its ballots. -/
theorem replayElectionVotes_concat_of_none (hp : okCreateElection T e p = false)
    (hc : castBallot e p = none) :
    replayElectionVotes T e (h ++ [p]) = replayElectionVotes T e h := by
  rw [replayElectionVotes, sinceLast_concat_of_neg hp, replayElectionVotes, Option.map_map]
  refine Option.map_congr fun l _ => ?_
  by_cases hclosed : ∃ q ∈ l, okCloseElection e q = true
  · obtain ⟨q, hq, hclose⟩ := hclosed
    rw [Function.comp_apply, untilFirst_concat_of_mem hq hclose]
  · have hopen : ∀ q ∈ l, okCloseElection e q = false := by simpa using hclosed
    rw [Function.comp_apply, untilFirst_concat_of_none hopen, untilFirst_eq_self hopen]
    split
    · rfl
    · simp [hc]

theorem replayElectionVotes_createElection :
    replayElectionVotes T e (h ++ [(⟨o, .createElection d⟩, .ok ())]) =
      if e = T.electionId d then some [] else replayElectionVotes T e h := by
  by_cases hd : e = T.electionId d
  · rw [if_pos hd]
    refine congrArg (Option.map _) (sinceLast_concat_of_pos ?_)
    exact decide_eq_true hd
  · rw [if_neg hd]
    exact replayElectionVotes_concat_of_none (decide_eq_false hd) (by simp [castBallot])

/-! ## The storage is the replay -/

/-- Every list in the storage, and whether an election is open, is what the history replays to. -/
structure IsReplay (T : Config Hash) (h : List (Receipt Hash AccountId))
    (s : Storage Hash AccountId) : Prop where
  isOpen : ∀ e, (s.elections.get e).map Election.isOpen = replayIsOpen T e h
  electionCandidates : ∀ e, s.electionCandidates.get e = replayElectionCandidates T e h
  electionVotes : ∀ e, s.electionVotes.get e = replayElectionVotes T e h
  candidateVotes : ∀ k, s.candidateVotes.get k = replayCandidateVotes T k h

/-- A vote is added to the replayed ballots exactly if the storage accepts it. -/
theorem IsReplay.concat_castBallot (hs : IsReplay T h s) {v : Vote Hash AccountId}
    (hv : castBallot e p = some v) : replayElectionVotes T e (h ++ [p]) =
      if s.AcceptsBallot v.author e then (s.electionVotes.get e).map (· ++ [v])
      else s.electionVotes.get e := by
  obtain ⟨hcreate, hclose⟩ := okCreateElection_of_castBallot (T := T) (k := e) hv
  have hopen := hs.isOpen e
  have hvotes := hs.electionVotes e
  rw [replayIsOpen] at hopen
  rw [replayElectionVotes] at hvotes
  rw [replayElectionVotes, sinceLast_concat_of_neg hcreate]
  cases hl : sinceLast (okCreateElection T e) h with
  | none =>
    rw [hl] at hvotes
    rw [hvotes]
    split <;> rfl
  | some l =>
    rw [hl, Option.map_some] at hopen hvotes
    obtain ⟨election, he, ho⟩ := Option.map_eq_some_iff.mp hopen
    by_cases hclosed : ∃ q ∈ l, okCloseElection e q = true
    · -- closed since: neither takes the ballot
      have hn : ¬ s.AcceptsBallot v.author e := by
        rintro ⟨⟨election', he', ho'⟩, _⟩
        cases he.symm.trans he'
        rw [ho', List.any_eq_true.mpr hclosed] at ho
        cases ho
      obtain ⟨q, hq, hqe⟩ := hclosed
      rw [if_neg hn, hvotes, Option.map_some, Option.map_some, untilFirst_concat_of_mem hq hqe]
    · -- still open: both take it if it is the author's first
      have hfree : ∀ q ∈ l, okCloseElection e q = false := by simpa using hclosed
      have ho : election.isOpen = true := by rw [ho]; simpa using hfree
      rw [untilFirst_eq_self hfree] at hvotes
      have hiff : s.AcceptsBallot v.author e ↔
          ¬ ∃ w ∈ l.filterMap (castBallot e), w.author = v.author := by
        rw [← exists_mem_firstPer]
        constructor
        · exact fun ha hw => ha.2.2 ⟨_, hvotes, hw⟩
        · rintro hn
          refine ⟨⟨election, he, ho⟩, ⟨_, hvotes⟩, ?_⟩
          rintro ⟨ballots, hb, hw⟩
          cases hvotes.symm.trans hb
          exact hn hw
      rw [hvotes, Option.map_some, Option.map_some, Option.map_some,
        untilFirst_concat_of_none hfree, hclose]
      simp only [Bool.false_eq_true, if_false, List.filterMap_append, List.filterMap_cons, hv,
        List.filterMap_nil, firstPer_concat]
      by_cases ha : s.AcceptsBallot v.author e
      · rw [if_pos ha, if_neg (hiff.mp ha)]
      · rw [if_neg ha, if_pos (not_not.mp (mt hiff.mpr ha))]

/-! ### One effect -/

theorem Effect.replayIsOpen (he : Effect T s o c r s') (hs : IsReplay T h s) (e : Hash) :
    (s'.elections.get e).map Election.isOpen = replayIsOpen T e (h ++ [(⟨o, c⟩, r)]) := by
  cases he with
  | electionStored =>
    rw [replayIsOpen_createElection, ← hs.isOpen e]
    refine (congrArg _ get_insert).trans ?_
    split <;> rfl
  | electionUpdated =>
    rw [replayIsOpen_closeElection, ← hs.isOpen e, Option.map_map]
    refine (congrArg _ get_adjust).trans ?_
    split
    · exact Option.map_map ..
    · rfl
  | refused =>
    refine (hs.isOpen e).trans ?_
    exact (replayIsOpen_concat_of_none okCreateElection_error okCloseElection_error).symm
  | _ =>
    refine (hs.isOpen e).trans ?_
    exact (replayIsOpen_concat_of_none rfl rfl).symm

theorem Effect.replayElectionCandidates (he : Effect T s o c r s') (hs : IsReplay T h s)
    (e : Hash) : s'.electionCandidates.get e =
      replayElectionCandidates T e (h ++ [(⟨o, c⟩, r)]) := by
  cases he with
  | electionStored =>
    rw [replayElectionCandidates_createElection, ← hs.electionCandidates e]
    exact get_insert
  | candidateStored =>
    rw [replayElectionCandidates_createCandidate, ← hs.electionCandidates e]
    exact get_adjust
  | refused =>
    refine (hs.electionCandidates e).trans ?_
    exact (collectSince_concat_of_none okCreateElection_error registeredCandidate_error).symm
  | _ =>
    refine (hs.electionCandidates e).trans ?_
    exact (collectSince_concat_of_none rfl rfl).symm

theorem Effect.replayCandidateVotes (he : Effect T s o c r s') (hs : IsReplay T h s) (k : Hash) :
    s'.candidateVotes.get k = replayCandidateVotes T k (h ++ [(⟨o, c⟩, r)]) := by
  cases he with
  | candidateStored =>
    rw [replayCandidateVotes_createCandidate, ← hs.candidateVotes k]
    exact get_insert
  | voteStored =>
    rw [replayCandidateVotes_createVote, ← hs.candidateVotes k]
    exact get_adjust
  | refused | ballotOrphaned =>
    refine (hs.candidateVotes k).trans ?_
    exact (collectSince_concat_of_none okCreateCandidate_error countedBallot_error).symm
  | _ =>
    refine (hs.candidateVotes k).trans ?_
    exact (collectSince_concat_of_none rfl rfl).symm

/-- The ballots of `e`, after a call that cast one in `e` or in another election. -/
theorem IsReplay.concat_createVote (hs : IsReplay T h s) {a : AccountId} :
    replayElectionVotes T e (h ++ [(⟨.signed a, .createVote k e'⟩, r)]) =
      if e = e' ∧ s.AcceptsBallot a e' then (s.electionVotes.get e).map (· ++ [⟨k, e', a⟩])
      else s.electionVotes.get e := by
  by_cases he : e = e'
  · subst e
    simpa using hs.concat_castBallot (p := (⟨.signed a, .createVote k e'⟩, r)) (if_pos rfl)
  · rw [if_neg fun hc => he hc.1, hs.electionVotes e]
    exact replayElectionVotes_concat_of_none (by simp [okCreateElection]) (if_neg he)

theorem Effect.replayElectionVotes (he : Effect T s o c r s') (hs : IsReplay T h s) (e : Hash) :
    s'.electionVotes.get e = replayElectionVotes T e (h ++ [(⟨o, c⟩, r)]) := by
  cases he with
  | electionStored =>
    rw [replayElectionVotes_createElection, ← hs.electionVotes e]
    exact get_insert
  | voteStored ha | ballotOrphaned ha =>
    rw [hs.concat_createVote]
    simp only [ha, and_true]
    exact get_adjust
  | refused hn =>
    by_cases hv : ∃ a k e', o = .signed a ∧ c = .createVote k e'
    · obtain ⟨a, k, e', rfl, rfl⟩ := hv
      rw [hs.concat_createVote, if_neg fun hc => hn hc.2]
    · have hcast : castBallot e (⟨o, c⟩, .error (s.refusal T o c)) = none := by
        unfold castBallot
        split
        · rename_i heq
          cases heq
          exact absurd ⟨_, _, _, rfl, rfl⟩ hv
        · rfl
      rw [hs.electionVotes e]
      exact (replayElectionVotes_concat_of_none okCreateElection_error hcast).symm
  | _ =>
    refine (hs.electionVotes e).trans ?_
    exact (replayElectionVotes_concat_of_none rfl rfl).symm

theorem IsReplay.effect (hs : IsReplay T h s) (he : Effect T s o c r s') :
    IsReplay T (h ++ [(⟨o, c⟩, r)]) s' :=
  ⟨he.replayIsOpen hs, he.replayElectionCandidates hs, he.replayElectionVotes hs,
    he.replayCandidateVotes hs⟩

/-! ### Runs -/

theorem IsReplay.empty : IsReplay T [] (.empty : Storage Hash AccountId) :=
  ⟨fun _ => congrArg _ get_empty, fun _ => get_empty, fun _ => get_empty, fun _ => get_empty⟩

theorem isReplay_run (T : Config Hash) (xs : List (Extrinsic Hash AccountId)) :
    IsReplay T (receipts T xs) (run T xs) :=
  trace_induction IsReplay.empty (fun _ _ _ hs => hs.effect (apply_effect _ _)) xs

/-- The ballot stands in the list of an election or in the tally of a candidate. -/
def Storage.Holds (s : Storage Hash AccountId) (v : Vote Hash AccountId) : Prop :=
  (∃ e l, s.electionVotes.get e = some l ∧ v ∈ l) ∨ ∃ k l, s.candidateVotes.get k = some l ∧ v ∈ l

theorem exists_of_mem_replayElectionVotes {l : List (Vote Hash AccountId)} {v : Vote Hash AccountId}
    (hl : replayElectionVotes T e h = some l) (hv : v ∈ l) :
    ∃ p ∈ h, castBallot e p = some v := by
  obtain ⟨h', hh, rfl⟩ := Option.map_eq_some_iff.mp hl
  obtain ⟨p, hp, hc⟩ := List.mem_filterMap.mp (firstPer_subset hv)
  have hmem : p ∈ h' := (List.takeWhile_prefix _).subset hp
  exact ⟨p, sinceLast_subset hh hmem, hc⟩

/-- A stored ballot was cast: its account signed the vote that it names. -/
theorem IsReplay.exists_of_holds (hs : IsReplay T h s) {v : Vote Hash AccountId} (hv : s.Holds v) :
    ∃ p ∈ h, p.1 = ⟨.signed v.author, .createVote v.candidateId v.electionId⟩ := by
  rcases hv with ⟨e, l, hl, hv⟩ | ⟨k, l, hl, hv⟩
  · rw [hs.electionVotes e] at hl
    obtain ⟨p, hp, hc⟩ := exists_of_mem_replayElectionVotes hl hv
    exact ⟨p, hp, extrinsic_of_castBallot hc⟩
  · rw [hs.candidateVotes k] at hl
    obtain ⟨p, hp, hc⟩ := exists_of_mem_collectSince hl hv
    exact ⟨p, hp, extrinsic_of_countedBallot hc⟩

/-- The keys of the rosters and of the lists of ballots are the ids that were produced. -/
theorem IsReplay.election_eq_none_iff (hs : IsReplay T h s) :
    (s.electionCandidates.get e = none ↔ ∀ p ∈ h, okCreateElection T e p = false) ∧
      (s.electionVotes.get e = none ↔ ∀ p ∈ h, okCreateElection T e p = false) := by
  rw [hs.electionCandidates e, hs.electionVotes e]
  exact ⟨collectSince_eq_none_iff, Option.map_eq_none_iff.trans sinceLast_eq_none_iff⟩

/-- After any run, the rosters, the lists of ballots and the tallies are the replay of its history.
Their keys are the ids that its successful calls produced, and every stored ballot was cast by a
vote of the run. -/
theorem run_eq_replay (T : Config Hash) (xs : List (Extrinsic Hash AccountId)) :
    (∀ e, (run T xs).electionCandidates.get e = replayElectionCandidates T e (receipts T xs)) ∧
    (∀ e, (run T xs).electionVotes.get e = replayElectionVotes T e (receipts T xs)) ∧
    (∀ k, (run T xs).candidateVotes.get k = replayCandidateVotes T k (receipts T xs)) ∧
    (∀ e, ((run T xs).electionCandidates.get e = none ↔
        ∀ p ∈ receipts T xs, okCreateElection T e p = false) ∧
      ((run T xs).electionVotes.get e = none ↔
        ∀ p ∈ receipts T xs, okCreateElection T e p = false)) ∧
    (∀ k, (run T xs).candidateVotes.get k = none ↔
      ∀ p ∈ receipts T xs, okCreateCandidate T k p = false) ∧
    ∀ v, (run T xs).Holds v → ⟨.signed v.author, .createVote v.candidateId v.electionId⟩ ∈ xs := by
  have hs := isReplay_run T xs
  refine ⟨hs.electionCandidates, hs.electionVotes, hs.candidateVotes,
    fun e => hs.election_eq_none_iff, fun k => ?_, fun v hv => ?_⟩
  · rw [hs.candidateVotes k]
    exact collectSince_eq_none_iff
  · obtain ⟨p, hp, hcall⟩ := hs.exists_of_holds hv
    obtain ⟨pre, hpre, _⟩ := mem_trace hp
    rw [← hcall]
    exact hpre.subset (List.mem_append_right _ (List.mem_singleton_self _))

end

end Votechain
