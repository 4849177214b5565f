import Votechain.Verify.Finality
import Votechain.Verify.Replay

/-!
# Who may vote

By the history of successful calls, an account may vote in an election that was created and not
closed since, for a candidate that was created, if it has not voted there since the election was
created. The pallet decides by its lists, which also hold the ballots of votes that failed for want
of a tally, so an account with such a ballot is turned away. In every other case `create_vote`
succeeds exactly for those who may vote.
-/

open Frame Machine History
open StorageMap (get_insert_self get_insert_of_ne get_adjust_of_ne get_adjust_eq_some)

namespace Votechain

variable {Hash AccountId : Type} [DecidableEq Hash]

/-! ## Eligibility by history -/

section
variable [DecidableEq AccountId] (T : Config Hash) (h : List (Receipt Hash AccountId))
  (a : AccountId) (k e : Hash)

/-- The account may vote for the candidate in the election. -/
structure Eligible : Prop where
  election : ∃ since, sinceLast (okCreateElection T e) h = some since ∧
    (∀ p ∈ since, okCloseElection e p = false) ∧ ∀ p ∈ since, okVote a e p = false
  candidate : ∃ p ∈ h, okCreateCandidate T k p = true

end

variable {T : Config Hash} {s s' : Storage Hash AccountId} {o : Origin AccountId} {c : Call Hash}
  {r : Except DispatchError Unit} {h : List (Receipt Hash AccountId)} {e k : Hash} {a : AccountId}

/-! ## One effect -/

/-- `create_vote` succeeds exactly for a ballot that is accepted and a candidate with a tally. -/
theorem Effect.createVote_ok_iff (he : Effect T s (.signed a) (.createVote k e) r s') :
    r = .ok () ↔ s.AcceptsBallot a e ∧ s.HasTally k := by
  cases he with
  | refused hn => exact iff_of_false nofun fun ha => hn ha.1
  | voteStored ha ht => exact iff_of_true rfl ⟨ha, ht⟩
  | ballotOrphaned _ ht => exact iff_of_false nofun fun ha => ht ha.2

/-- `s'` is `s` with the ballot added to the list of its election and to the tally of its
candidate. -/
structure AddsBallot (s s' : Storage Hash AccountId) (v : Vote Hash AccountId) : Prop where
  ballots : ∃ l, s.electionVotes.get v.electionId = some l ∧
    s'.electionVotes.get v.electionId = some (l ++ [v])
  tally : ∃ l, s.candidateVotes.get v.candidateId = some l ∧
    s'.candidateVotes.get v.candidateId = some (l ++ [v])
  otherBallots : ∀ e, e ≠ v.electionId → s'.electionVotes.get e = s.electionVotes.get e
  otherTallies : ∀ k, k ≠ v.candidateId → s'.candidateVotes.get k = s.candidateVotes.get k
  elections : s'.elections = s.elections
  electionCandidates : s'.electionCandidates = s.electionCandidates
  candidates : s'.candidates = s.candidates

theorem Effect.addsBallot (he : Effect T s (.signed a) (.createVote k e) (.ok ()) s') :
    AddsBallot s s' ⟨k, e, a⟩ := by
  cases he with
  | voteStored ha ht =>
    obtain ⟨_, ⟨l, hl⟩, _⟩ := ha
    obtain ⟨t, ht⟩ := ht
    have hballots := Storage.get_recordBallot (v := ⟨k, e, a⟩) hl
    have htally := Storage.get_tallyBallot (s := s.recordBallot ⟨k, e, a⟩) (v := ⟨k, e, a⟩) ht
    exact ⟨⟨l, hl, hballots⟩, ⟨t, ht, htally⟩, fun _ hne => get_adjust_of_ne hne,
      fun _ hne => get_adjust_of_ne hne, rfl, rfl, rfl⟩

/-! ## Ballots and the votes that left them -/

/-- A ballot by another account or in another election is not a ballot of `a` in `e`. -/
theorem Storage.HasBallot.of_recordBallot {v : Vote Hash AccountId}
    (h : (s.recordBallot v).HasBallot a e) (hv : ¬ (v.author = a ∧ v.electionId = e)) :
    s.HasBallot a e := by
  obtain ⟨l, hl, w, hw, hwa⟩ := h
  rcases get_adjust_eq_some.mp hl with ⟨rfl, l₀, hl₀, rfl⟩ | ⟨_, hl⟩
  · rcases List.mem_append.mp hw with hw | hw
    · exact ⟨l₀, hl₀, w, hw, hwa⟩
    · cases List.mem_singleton.mp hw
      exact absurd ⟨hwa, rfl⟩ hv
  · exact ⟨l, hl, w, hw, hwa⟩

theorem Effect.not_hasBallot (he : Effect T s o c r s')
    (hcreate : okCreateElection T e (⟨o, c⟩, r) = true) : ¬ s'.HasBallot a e := by
  cases he with
  | electionStored =>
    obtain rfl := of_decide_eq_true hcreate
    rintro ⟨l, hl, w, hw, _⟩
    cases get_insert_self.symm.trans hl
    cases hw
  | refused => simp at hcreate
  | _ => cases hcreate

/-- The vote `x` of the account is recorded in the election and then finds no tally. -/
def Loses (a : AccountId) (e : Hash) (s : Storage Hash AccountId) (x : Extrinsic Hash AccountId) :
    Prop :=
  ∃ k, x = ⟨.signed a, .createVote k e⟩ ∧ s.AcceptsBallot a e ∧ ¬ s.HasTally k

theorem Effect.of_loses (he : Effect T s o c r s') (h : Loses a e s ⟨o, c⟩) :
    r = .error (.module .candidateNotFound) ∧ ∃ k, s' = s.recordBallot ⟨k, e, a⟩ := by
  obtain ⟨k, hx, ha, ht⟩ := h
  cases hx
  cases he with
  | refused hn => exact absurd ha hn
  | voteStored _ ht' => exact absurd ht' ht
  | ballotOrphaned => exact ⟨rfl, k, rfl⟩

theorem Effect.hasBallot_of_loses (he : Effect T s o c r s') (h : Loses a e s ⟨o, c⟩) :
    ¬ s.HasBallot a e ∧ s'.HasBallot a e := by
  obtain ⟨_, k, rfl⟩ := he.of_loses h
  obtain ⟨_, _, ha, _⟩ := h
  exact ⟨ha.2.2, ha.recordBallot⟩

theorem Effect.okCreateElection_iff (he : Effect T s o c r s') :
    okCreateElection T e (⟨o, c⟩, r) = true ↔ Creates T e ⟨o, c⟩ := by
  constructor
  · intro h
    cases he with
    | electionStored hd => exact ⟨hd, (of_decide_eq_true h).symm⟩
    | refused => simp at h
    | _ => cases h
  · intro h
    cases he with
    | refused hn => exact absurd h.accepts hn
    | electionStored => exact decide_eq_true h.2.symm
    | _ => exact h.elim

section
variable [DecidableEq AccountId]

theorem Effect.okVote_of_loses (he : Effect T s o c r s') (h : Loses a e s ⟨o, c⟩) :
    okVote a e (⟨o, c⟩, r) = false := by
  obtain ⟨rfl, _⟩ := he.of_loses h
  simp [okVote]

/-- A call that neither creates the election nor records a ballot of the account in it. -/
theorem Effect.hasBallot_iff (he : Effect T s o c r s')
    (hcreate : okCreateElection T e (⟨o, c⟩, r) = false)
    (hok : okVote a e (⟨o, c⟩, r) = false) (hlost : ¬ Loses a e s ⟨o, c⟩) :
    s'.HasBallot a e ↔ s.HasBallot a e := by
  cases he with
  | electionStored =>
    have hne := of_decide_eq_false hcreate
    simp only [Storage.HasBallot, Storage.deposit, Storage.openElection, get_insert_of_ne hne]
  | voteStored =>
    refine ⟨fun h => h.of_recordBallot (of_decide_eq_false hok), fun h => ?_⟩
    exact h.recordBallot
  | @ballotOrphaned a' e' k ha ht =>
    refine ⟨fun h => h.of_recordBallot ?_, fun h => h.recordBallot⟩
    rintro ⟨rfl, rfl⟩
    exact hlost ⟨k, rfl, ha, ht⟩
  | _ => exact Iff.rfl

/-! ## Lost ballots -/

/-- A vote of the account in the election was recorded and found no tally, and the election was not
created since. -/
def LostBallot (T : Config Hash) (xs : List (Extrinsic Hash AccountId)) (a : AccountId) (e : Hash) :
    Prop :=
  ∃ pre x rest, xs = pre ++ x :: rest ∧ Loses a e (run T pre) x ∧ ∀ y ∈ rest, ¬ Creates T e y

variable {xs : List (Extrinsic Hash AccountId)}

theorem lostBallot_concat {x : Extrinsic Hash AccountId} : LostBallot T (xs ++ [x]) a e ↔
    ¬ Creates T e x ∧ (LostBallot T xs a e ∨ Loses a e (run T xs) x) := by
  constructor
  · rintro ⟨pre, y, rest, hxs, hlost, hrest⟩
    rcases concat_eq_append_cons_iff.mp hxs with ⟨rfl, rfl, rfl⟩ | ⟨rest, rfl, rfl⟩
    · refine ⟨fun hc => ?_, .inr hlost⟩
      obtain ⟨k, rfl, _⟩ := hlost
      exact hc
    · obtain ⟨hrest, hx⟩ := List.forall_mem_append.mp hrest
      exact ⟨hx x (List.mem_singleton_self x), .inl ⟨pre, y, rest, rfl, hlost, hrest⟩⟩
  · rintro ⟨hx, ⟨pre, y, rest, rfl, hlost, hrest⟩ | hlost⟩
    · refine ⟨pre, y, rest ++ [x], by simp, hlost, ?_⟩
      exact List.forall_mem_append.mpr ⟨hrest, by simpa using hx⟩
    · exact ⟨xs, x, [], rfl, hlost, by simp⟩

/-- A ballot of the account stands in the election iff a vote of the account succeeded since the
election was created, or was lost. It was one vote, so not both. -/
structure Explains (a : AccountId) (e : Hash) (since : List (Receipt Hash AccountId)) (lost : Prop)
    (s : Storage Hash AccountId) : Prop where
  hasBallot_iff : s.HasBallot a e ↔ (∃ p ∈ since, okVote a e p = true) ∨ lost
  not_both : lost → ∀ p ∈ since, okVote a e p = false

namespace Explains

variable {since : List (Receipt Hash AccountId)} {lost : Prop}

theorem nil (hn : ¬ s.HasBallot a e) (hlost : ¬ lost) : Explains a e [] lost s :=
  ⟨iff_of_false hn (by simpa using hlost), by simp⟩

/-- Without a ballot there was no vote. -/
theorem eq_false (hs : Explains a e since lost s) (hn : ¬ s.HasBallot a e) :
    ¬ lost ∧ ∀ p ∈ since, okVote a e p = false := by
  refine ⟨fun h => hn (hs.hasBallot_iff.mpr (.inr h)), fun p hp => ?_⟩
  by_contra hv
  exact hn (hs.hasBallot_iff.mpr (.inl ⟨p, hp, by simpa using hv⟩))

theorem concat (hs : Explains a e since lost s) (he : Effect T s o c r s')
    (hcreate : okCreateElection T e (⟨o, c⟩, r) = false) :
    Explains a e (since ++ [(⟨o, c⟩, r)]) (lost ∨ Loses a e s ⟨o, c⟩) s' := by
  by_cases hloses : Loses a e s ⟨o, c⟩
  · -- the vote is lost: there was no ballot before
    obtain ⟨hn, hb⟩ := he.hasBallot_of_loses hloses
    refine ⟨iff_of_true hb (.inr (.inr hloses)), fun _ => ?_⟩
    exact List.forall_mem_append.mpr ⟨(hs.eq_false hn).2, by simpa using he.okVote_of_loses hloses⟩
  · rw [or_iff_left hloses]
    cases hok : okVote a e (⟨o, c⟩, r) with
    | true =>
      obtain ⟨hn, hb⟩ := he.hasBallot_of_okVote hok
      refine ⟨iff_of_true hb (.inl ⟨_, by simp, hok⟩), fun h => ?_⟩
      exact absurd h (hs.eq_false hn).1
    | false =>
      have hiff := he.hasBallot_iff hcreate hok hloses
      refine ⟨hiff.trans (hs.hasBallot_iff.trans (by simp [hok])), fun h => ?_⟩
      exact List.forall_mem_append.mpr ⟨hs.not_both h, by simpa using hok⟩

end Explains

/-- In every run, the votes since an election was created explain its ballots. -/
theorem explains_run (T : Config Hash) (xs : List (Extrinsic Hash AccountId)) (a : AccountId)
    (e : Hash) : ∀ since, sinceLast (okCreateElection T e) (receipts T xs) = some since →
      Explains a e since (LostBallot T xs a e) (run T xs) := by
  induction xs using List.reverseRecOn with
  | nil => exact nofun
  | append_singleton xs x ih =>
    intro since hsince
    have heff := apply_effect (T := T) x (run T xs)
    rw [receipts, trace_concat] at hsince
    rw [lostBallot_concat, ← heff.okCreateElection_iff]
    simp only [run, finalState_concat]
    cases hcreate : okCreateElection T e (x, (apply T x (run T xs)).1) with
    | true =>
      rw [sinceLast_concat_of_pos hcreate] at hsince
      cases hsince
      exact .nil (heff.not_hasBallot hcreate) fun h => h.1 rfl
    | false =>
      rw [sinceLast_concat_of_neg hcreate] at hsince
      obtain ⟨since₀, hsince₀, rfl⟩ := Option.map_eq_some_iff.mp hsince
      rw [and_iff_right (by simp)]
      exact (ih since₀ hsince₀).concat heff hcreate

/-! ## Who is accepted -/

theorem isOpen_run_iff : (run T xs).IsOpen e ↔
    ∃ since, sinceLast (okCreateElection T e) (receipts T xs) = some since ∧
      ∀ p ∈ since, okCloseElection e p = false := by
  have h := (isReplay_run T xs).isOpen e
  rw [replayIsOpen] at h
  constructor
  · rintro ⟨election, he, ho⟩
    rw [he, Option.map_some, ho] at h
    obtain ⟨since, hsince, hclose⟩ := Option.map_eq_some_iff.mp h.symm
    exact ⟨since, hsince, by simpa using hclose⟩
  · rintro ⟨since, hsince, hclose⟩
    rw [hsince, Option.map_some] at h
    obtain ⟨election, he, ho⟩ := Option.map_eq_some_iff.mp h
    exact ⟨election, he, by rw [ho]; simpa using hclose⟩

theorem hasTally_run_iff : (run T xs).HasTally k ↔
    ∃ p ∈ receipts T xs, okCreateCandidate T k p = true := by
  have h := (isReplay_run T xs).candidateVotes k
  rw [Storage.HasTally, ← Option.ne_none_iff_exists', h, replayCandidateVotes, Ne,
    collectSince_eq_none_iff]
  simp

/-- The account may vote iff the election is open, the candidate has a tally, and a ballot of the
account in the election, if there is one, was lost. -/
theorem eligible_run_iff : Eligible T (receipts T xs) a k e ↔
    (run T xs).IsOpen e ∧ (run T xs).HasTally k ∧
      ((run T xs).HasBallot a e → LostBallot T xs a e) := by
  rw [isOpen_run_iff, hasTally_run_iff]
  constructor
  · rintro ⟨⟨since, hsince, hclose, hvote⟩, hk⟩
    refine ⟨⟨since, hsince, hclose⟩, hk, fun hb => ?_⟩
    refine ((explains_run T xs a e since hsince).hasBallot_iff.mp hb).resolve_left ?_
    rintro ⟨p, hp, hv⟩
    simp [hvote p hp] at hv
  · rintro ⟨⟨since, hsince, hclose⟩, hk, hb⟩
    have hex := explains_run T xs a e since hsince
    refine ⟨⟨since, hsince, hclose, ?_⟩, hk⟩
    by_cases h : (run T xs).HasBallot a e
    · exact hex.not_both (hb h)
    · exact (hex.eq_false h).2

section
variable (T : Config Hash) (pre : List (Extrinsic Hash AccountId)) (x : Extrinsic Hash AccountId)

/-- After the calls `pre`, the vote `x` succeeds iff its author is eligible, and then its ballot is
added once to each list and nothing else changes. -/
def DecidesByEligibility : Prop :=
  ∀ a k e, x = ⟨.signed a, .createVote k e⟩ →
    ((apply T x (run T pre)).1 = .ok () ↔ Eligible T (receipts T pre) a k e) ∧
    ((apply T x (run T pre)).1 = .ok () →
      AddsBallot (run T pre) (apply T x (run T pre)).2 ⟨k, e, a⟩)

/-- After the calls `pre`, the vote `x` is for a registered candidate in an open election, where
an earlier vote of its author was lost. -/
def RetriesLostVote : Prop :=
  ∃ a k e, x = ⟨.signed a, .createVote k e⟩ ∧ (run T pre).IsOpen e ∧ (run T pre).HasTally k ∧
    LostBallot T pre a e

end

theorem decidesByEligibility_iff {x : Extrinsic Hash AccountId} :
    DecidesByEligibility T xs x ↔ ¬ RetriesLostVote T xs x := by
  constructor
  · rintro h ⟨a, k, e, rfl, ho, hk, hlost⟩
    have heff := apply_effect (T := T) ⟨.signed a, .createVote k e⟩ (run T xs)
    -- the lost ballot is in the list, so the account is eligible and refused
    obtain ⟨since, hsince, _⟩ := isOpen_run_iff.mp ho
    have hb := (explains_run T xs a e since hsince).hasBallot_iff.mpr (.inr hlost)
    have hok := (h a k e rfl).1.mpr (eligible_run_iff.mpr ⟨ho, hk, fun _ => hlost⟩)
    exact (heff.createVote_ok_iff.mp hok).1.2.2 hb
  · rintro h a k e rfl
    have heff := apply_effect (T := T) ⟨.signed a, .createVote k e⟩ (run T xs)
    refine ⟨heff.createVote_ok_iff.trans (.trans ?_ eligible_run_iff.symm), fun hok => ?_⟩
    · constructor
      · rintro ⟨⟨ho, _, hn⟩, hk⟩
        exact ⟨ho, hk, fun hb => absurd hb hn⟩
      · rintro ⟨ho, hk, hb⟩
        obtain ⟨election, he, _⟩ := id ho
        have hl := wellFormed_run.exists_ballots (Option.isSome_iff_exists.mpr ⟨election, he⟩)
        exact ⟨⟨ho, hl, fun hb' => h ⟨a, k, e, rfl, ho, hk, hb hb'⟩⟩, hk⟩
    · rw [hok] at heff
      exact heff.addsBallot

/-- Every vote of a run is decided by eligibility exactly if none of them retries a lost vote. -/
theorem run_decidesByEligibility_iff (T : Config Hash) (xs : List (Extrinsic Hash AccountId)) :
    Each (DecidesByEligibility T) xs ↔ Each (fun pre x => ¬ RetriesLostVote T pre x) xs := by
  constructor
  · exact fun h pre x hpre => decidesByEligibility_iff.mp (h pre x hpre)
  · exact fun h pre x hpre => decidesByEligibility_iff.mpr (h pre x hpre)

/-- The first vote names a candidate that is registered only later, so the second is refused. -/
theorem not_decidesByEligibility :
    let xs : List (Extrinsic _ Nat) := [⟨.root, .createElection Mock.board⟩,
      ⟨.signed 1, .createVote Mock.boardCandidate Mock.boardId⟩,
      ⟨.root, .createCandidate Mock.name Mock.boardId⟩,
      ⟨.signed 1, .createVote Mock.boardCandidate Mock.boardId⟩]
    ¬ Each (DecidesByEligibility Mock.config) xs := by
  intro xs h
  have hvote := h (xs.take 3) ⟨.signed 1, .createVote Mock.boardCandidate Mock.boardId⟩
    (by decide) 1 _ _ rfl
  have hrefused : (apply Mock.config ⟨.signed 1, .createVote Mock.boardCandidate Mock.boardId⟩
      (run Mock.config (xs.take 3))).1 ≠ .ok () := by decide
  refine hrefused (hvote.1.mpr ⟨⟨(receipts Mock.config (xs.take 3)).drop 1, ?_⟩, ?_⟩)
  · decide
  · decide

end

end Votechain
