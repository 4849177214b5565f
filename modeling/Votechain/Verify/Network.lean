import Votechain.Client.Network
import Votechain.Verify.Refinement

/-!
# Voters, forms and the chain together

With many forms, votes that wait in the pool and root calls in between, the chain follows the
ballot box and the pool holds votes for candidates of the election they name, in exactly the runs
where no root call deviates and every form is submitted for the election that its candidate was
picked in. What a form offers is old by then; it is still stored, since no candidate is created
again.
-/

open Frame Machine
open StorageMap (get_insert_eq_some)

namespace Votechain.Client

variable {User Hash AccountId Args Number : Type} [DecidableEq Hash] {T : Config Hash}

/-! ## Candidates stay -/

/-- A call that does not deviate leaves the stored candidates as they are. -/
theorem candidates_get_of_effect {s s' : Storage Hash AccountId} {o : Origin AccountId}
    {c : Call Hash} {r : Except DispatchError Unit} (h : Effect T s o c r s')
    (hd : ¬ Deviates T s ⟨o, c⟩) {k : Hash} {x : Candidate Hash}
    (hx : s.candidates.get k = some x) : s'.candidates.get k = some x := by
  cases h with
  | @candidateStored name e hn hr =>
    rw [Storage.deposit_candidates, Storage.registerCandidate_candidates, StorageMap.get_insert]
    split
    · rename_i hk
      subst hk
      exact absurd ⟨hn, hr, x, hx⟩ hd
    · exact hx
  | _ => exact hx

theorem FormFollows.mono {candidates candidates' : StorageMap Hash (Candidate Hash)}
    {ids : Option Hash × Option Hash} {form : VoteForm Hash AccountId Args}
    (h : FormFollows candidates ids form)
    (hget : ∀ k x, candidates.get k = some x → candidates'.get k = some x) :
    FormFollows candidates' ids form where
  offered cand hcand :=
    have ⟨x, hx, he⟩ := h.offered cand hcand
    ⟨x, hget _ x hx, he⟩
  picked k hk :=
    have ⟨x, hx, he⟩ := h.picked k hk
    ⟨x, hget k x hx, he⟩

namespace Network

variable [DecidableEq AccountId]

variable {D : Display Hash Number}

/-- What the pool gets is the vote for the ids that are selected, when the button is pressed. -/
theorem mem_submission {candidates : StorageMap Hash (Candidate Hash)}
    {form : VoteForm Hash AccountId Args} {event : VoteEvent candidates AccountId}
    {x : Extrinsic Hash AccountId} : x ∈ submission D (VoteForm.step D event form).1 ↔
      event = .submit ∧ ∃ a k e, form.currentAccount = some a ∧ form.candidateId = some k ∧
        form.electionId = some e ∧ x = ⟨.signed a, .createVote k e⟩ := by
  have hdecodes (a : AccountId) (k e : Hash) : submission D (.submitted (D.createVote a k e)) =
      [(⟨.signed a, .createVote k e⟩ : Extrinsic Hash AccountId)] := by
    simp [submission, Display.createVote, Codec.toCall, D.read_print]
  constructor
  · intro h
    cases hanswer : (VoteForm.step D event form).1 with
    | submitted request =>
      obtain ⟨hevent, a, k, e, ha, hk, he, rfl⟩ := step_submitted_iff.mp hanswer
      rw [hanswer, hdecodes, List.mem_singleton] at h
      exact ⟨hevent, a, k, e, ha, hk, he, h⟩
    | ignored | done =>
      rw [hanswer] at h
      cases h
  · rintro ⟨hevent, a, k, e, ha, hk, he, rfl⟩
    have hanswer : (VoteForm.step D event form).1 = .submitted (D.createVote a k e) :=
      step_submitted_iff.mpr ⟨hevent, a, k, e, ha, hk, he, rfl⟩
    rw [hanswer, hdecodes]
    exact List.mem_singleton_self _

/-- The chain follows the ballot box, and the pool holds votes for candidates of the election they
name. -/
structure Sound (T : Config Hash) (n : Network User Hash AccountId Args) : Prop where
  refines : RefinesBallotBox T n.log
  pool : ∀ x ∈ n.pool, ∃ a k e, x = ⟨.signed a, .createVote k e⟩ ∧ (n.chain T).StoresFor k e

/-- A root call does not deviate. A form that submits has its candidate from the election that is
selected. -/
def Regular (T : Config Hash) (D : Display Hash Number) (n : Network User Hash AccountId Args) :
    NetworkEvent User Hash AccountId → Prop
  | .root call => ¬ Deviates T (n.chain T) ⟨.root, call⟩
  | .act user .submit =>
    (n.forms user).isEnabled D = true → (n.ids user).2 = (n.forms user).electionId
  | _ => True

/-- Every form follows its user on the chain. -/
def FormsFollow (T : Config Hash) (n : Network User Hash AccountId Args) : Prop :=
  ∀ user, FormFollows (n.chain T).candidates (n.ids user) (n.forms user)

variable {n : Network User Hash AccountId Args}

/-! ## Blocks -/

theorem refines_concat {xs : List (Extrinsic Hash AccountId)}
    {x : Extrinsic Hash AccountId} : RefinesBallotBox T (xs ++ [x]) ↔
      RefinesBallotBox T xs ∧ ¬ Deviates T (run T xs) x := by
  rw [refinesBallotBox_iff, refinesBallotBox_iff]
  exact eachStep_concat

/-- What is in a block next leaves the stored candidates as they are. -/
theorem chain_candidates_get {x : Extrinsic Hash AccountId} {pool : List (Extrinsic Hash AccountId)}
    (hd : ¬ Deviates T (n.chain T) x) {k : Hash} {y : Candidate Hash}
    (hy : (n.chain T).candidates.get k = some y) :
    (({ n with log := n.log ++ [x], pool := pool } :
      Network User Hash AccountId Args).chain T).candidates.get k = some y := by
  rw [chain, run, finalState_concat]
  exact candidates_get_of_effect (apply_effect x _) hd hy

/-- A block with one more call. -/
theorem sound_block_iff (hn : Sound T n) {x : Extrinsic Hash AccountId}
    {pool : List (Extrinsic Hash AccountId)} (hpool : ∀ y ∈ pool, y ∈ n.pool) :
    Sound T { n with log := n.log ++ [x], pool := pool } ↔ ¬ Deviates T (n.chain T) x := by
  constructor
  · exact fun h => (refines_concat.mp h.refines).2
  · intro hd
    refine ⟨refines_concat.mpr ⟨hn.refines, hd⟩, fun y hy => ?_⟩
    obtain ⟨a, k, e, rfl, z, hz, he⟩ := hn.pool y (hpool y hy)
    exact ⟨a, k, e, rfl, z, chain_candidates_get hd hz, he⟩

/-- A vote of the pool does not deviate. -/
theorem Sound.not_deviates (hn : Sound T n) {x : Extrinsic Hash AccountId} (hx : x ∈ n.pool) :
    ¬ Deviates T (n.chain T) x := by
  obtain ⟨a, k, e, rfl, hstored⟩ := hn.pool x hx
  exact fun hd => hd.2 hstored

/-! ## Forms -/

section
variable [DecidableEq User]

/-- One form changes, on a chain with the same candidates. -/
theorem FormsFollow.update (h : FormsFollow T n) {n' : Network User Hash AccountId Args}
    {user : User} {form : VoteForm Hash AccountId Args} {ids : Option Hash × Option Hash}
    (hlog : n'.log = n.log) (hforms : n'.forms = Function.update n.forms user form)
    (hids : n'.ids = Function.update n.ids user ids)
    (hf : FormFollows (n.chain T).candidates ids form) : FormsFollow T n' := by
  intro user'
  rw [chain, hlog, hforms, hids]
  by_cases hu : user' = user
  · subst hu
    simpa only [Function.update_self, chain] using hf
  · simpa only [Function.update_of_ne hu, chain] using h user'

theorem FormsFollow.deliver (h : FormsFollow T n) {user : User}
    (x : VoteEvent (n.chain T).candidates AccountId) :
    FormsFollow T (n.deliver T D user x) :=
  h.update rfl rfl rfl ((h user).step x)

/-- A form takes an event: the pool stays sound unless the form submits a candidate of another
election. -/
theorem sound_deliver_iff (hn : Sound T n) (hf : FormsFollow T n) {user : User}
    {x : VoteEvent (n.chain T).candidates AccountId} :
    Sound T (n.deliver T D user x) ↔
      (x = .submit → (n.forms user).isEnabled D = true →
        (n.ids user).2 = (n.forms user).electionId) := by
  constructor
  · rintro h rfl henabled
    obtain ⟨hk, he, ha⟩ := VoteForm.isEnabled_iff.mp henabled
    obtain ⟨k, hk⟩ := Option.isSome_iff_exists.mp hk
    obtain ⟨e, he⟩ := Option.isSome_iff_exists.mp he
    obtain ⟨a, ha⟩ := Option.isSome_iff_exists.mp ha
    have hmem : (⟨.signed a, .createVote k e⟩ : Extrinsic Hash AccountId) ∈ submission D
        (VoteForm.step D (.submit : VoteEvent (n.chain T).candidates AccountId)
          (n.forms user)).1 := by
      rw [mem_submission]
      exact ⟨rfl, a, k, e, ha, hk, he, rfl⟩
    obtain ⟨_, _, _, heq, y, hy, hye⟩ := h.pool _ (List.mem_append_right _ hmem)
    cases heq
    obtain ⟨y', hy', hids⟩ := (hf user).picked k hk
    cases hy.symm.trans hy'
    rw [hids, he, hye]
  · intro h
    refine ⟨hn.refines, fun y hy => ?_⟩
    rcases List.mem_append.mp hy with hy | hy
    · exact hn.pool y hy
    · obtain ⟨hx, a, k, e, ha, hk, he, rfl⟩ := mem_submission.mp hy
      obtain ⟨z, hz, hids⟩ := (hf user).picked k hk
      have henabled : (n.forms user).isEnabled D = true :=
        VoteForm.isEnabled_iff.mpr (by simp [ha, hk, he])
      refine ⟨a, k, e, rfl, z, hz, ?_⟩
      rw [h hx henabled, he] at hids
      exact (Option.some.inj hids).symm

/-! ## Runs -/

section
variable {ev : NetworkEvent User Hash AccountId}

/-- Blocks are final. -/
theorem log_prefix_step : n.log <+: (Network.step T D ev n).2.log := by
  cases ev with
  | inBlock x =>
    rw [Network.step]
    split
    · exact List.prefix_append ..
    · exact List.prefix_rfl
  | root call => exact List.prefix_append ..
  | reply user electionId entries =>
    rw [Network.step]
    split <;> exact List.prefix_rfl
  | _ => exact List.prefix_rfl

theorem FormsFollow.step (h : FormsFollow T n)
    (hr : RefinesBallotBox T (Network.step T D ev n).2.log) :
    FormsFollow T (Network.step T D ev n).2 := by
  cases ev with
  | visit user => exact h.update rfl rfl rfl ⟨(h user).offered, fun _ hk => nomatch hk⟩
  | act user event => exact h.deliver _
  | query user electionId =>
    exact h.update rfl rfl (Function.update_eq_self user n.ids).symm
      ⟨(h user).offered, (h user).picked⟩
  | reply user electionId entries =>
    rw [Network.step]
    split
    · exact h.deliver _
    · exact h
  | inBlock x =>
    rw [Network.step] at hr ⊢
    split
    · rename_i hx
      rw [if_pos hx] at hr
      exact fun user => (h user).mono fun k y hy =>
        chain_candidates_get (refines_concat.mp hr).2 hy
    · exact h
  | root call =>
    exact fun user => (h user).mono fun k y hy =>
      chain_candidates_get (refines_concat.mp hr).2 hy

/-- One event, in a sound network whose forms follow their users. -/
theorem sound_step_iff (hn : Sound T n) (hf : FormsFollow T n) :
    Sound T (Network.step T D ev n).2 ↔ Regular T D n ev := by
  cases ev with
  | visit user => exact iff_of_true ⟨hn.refines, hn.pool⟩ trivial
  | act user event =>
    refine (sound_deliver_iff hn hf).trans ?_
    cases event with
    | submit => exact ⟨fun h => h rfl, fun h _ => h⟩
    | _ => exact iff_of_true (fun hx => nomatch hx) trivial
  | query user electionId => exact iff_of_true ⟨hn.refines, hn.pool⟩ trivial
  | reply user electionId entries =>
    rw [Network.step]
    split
    · rename_i h
      refine iff_of_true ?_ trivial
      exact (sound_deliver_iff (x := .reply electionId ⟨entries, h⟩) hn hf).mpr nofun
    · exact iff_of_true hn trivial
  | inBlock x =>
    rw [Network.step]
    split
    · rename_i hx
      refine iff_of_true ?_ trivial
      exact (sound_block_iff hn fun y => List.mem_of_mem_erase).mpr (hn.not_deviates hx)
    · exact iff_of_true hn trivial
  | root call => exact sound_block_iff hn fun _ hy => hy

end

omit [DecidableEq User] in
theorem formsFollow_start : FormsFollow T (start : Network User Hash AccountId Args) :=
  fun _ => ⟨nofun, nofun⟩

omit [DecidableEq User] in
theorem sound_start : Sound T (start : Network User Hash AccountId Args) :=
  ⟨refinesBallotBox_iff.mpr eachStep_nil, nofun⟩

/-- As long as no call has deviated, what the forms hold is stored. -/
theorem formsFollow_run (evs : List (NetworkEvent User Hash AccountId))
    (hr : RefinesBallotBox T
      (finalState (Network.step T D) (start : Network User Hash AccountId Args) evs).log) :
    FormsFollow T
      (finalState (Network.step T D) (start : Network User Hash AccountId Args) evs) := by
  induction evs using List.reverseRecOn with
  | nil => exact formsFollow_start
  | append_singleton evs ev ih =>
    rw [finalState_concat] at hr ⊢
    refine (ih ?_).step hr
    rw [refinesBallotBox_iff] at hr ⊢
    exact fun pre x hpre => hr pre x (hpre.trans log_prefix_step)

/-- In every run of the network the chain follows the ballot box and the pool is sound, throughout,
iff no root call deviates and no form is submitted with a candidate that was picked in another
election. -/
theorem network_sound_iff (T : Config Hash) (D : Display Hash Number)
    (evs : List (NetworkEvent User Hash AccountId)) :
    Always (Network.step T D) (Sound T) (start : Network User Hash AccountId Args) evs ↔
      EachStep (Network.step T D) (Regular T D)
        (start : Network User Hash AccountId Args) evs :=
  always_iff_eachStep sound_start fun pre _ _ hn =>
    sound_step_iff hn (formsFollow_run pre hn.refines)

end

end Network

end Votechain.Client
