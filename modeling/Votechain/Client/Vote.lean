import Votechain.Client.Forms
import Votechain.Client.Reducer
import Votechain.Theory.Run

/-!
# The vote page

The form keeps the selected election and the picked candidate apart. Selecting an election asks
for its candidates and keeps the candidate that was picked before, and the candidates on offer are
those of the last reply. So what matters for a submission is the election whose candidates were on
offer when the candidate was picked.
-/

open Frame Machine

namespace Votechain.Client
open TxButton

variable {Hash AccountId Args Number : Type}

/-- `outstanding` has the election ids of the queries of candidates that are not answered yet. -/
structure VoteForm (Hash AccountId Args : Type) where
  electionId : Option Hash
  candidateId : Option Hash
  context : ContextState Hash AccountId Args
  outstanding : List (Option Hash)
  currentAccount : Option AccountId

/-! ## The button -/

namespace Display

/-- The transaction `createVote`, with the ids as they are printed. -/
def createVote (D : Display Hash Number) (account : AccountId) (candidateId electionId : Hash) :
    Request Number AccountId :=
  .signedTx (some account) "votechain" "createVote"
    [.text (D.print candidateId), .text (D.print electionId)]

theorem createVote_inj {D : Display Hash Number} {a a' : AccountId} {k k' e e' : Hash}
    (h : D.createVote a k e = D.createVote a' k' e') : a = a' ∧ k = k' ∧ e = e' := by
  simp only [createVote, Request.signedTx.injEq, Option.some.injEq, List.cons.injEq,
    Param.text.injEq] at h
  obtain ⟨ha, _, _, hk, he, _⟩ := h
  exact ⟨ha, D.print_inj hk, D.print_inj he⟩

end Display

namespace VoteForm

variable [DecidableEq AccountId]

section
variable (D : Display Hash Number) (form : VoteForm Hash AccountId Args)

def button : Props Number AccountId where
  type := .signedTx
  palletRpc := "votechain"
  callable := "createVote"
  inputParams := [D.idParam form.candidateId, D.idParam form.electionId]
  paramFields := [{}, {}]
  currentAccount := form.currentAccount
  sudoKey := none

/-- The button is not disabled. -/
def isEnabled : Bool := !(form.button D).disabled

end

variable {D : Display Hash Number} {form : VoteForm Hash AccountId Args}

theorem isEnabled_iff : form.isEnabled D = true ↔
    form.candidateId.isSome ∧ form.electionId.isSome ∧ form.currentAccount.isSome := by
  have hfilled (h : Hash) : (D.idParam (some h) : InputParam Number).isFilled = true :=
    D.isFilled_idParam
  have hblank : (D.idParam none : InputParam Number).isFilled = false := rfl
  rw [isEnabled, Bool.not_eq_true']
  cases hk : form.candidateId <;> cases he : form.electionId <;>
    cases ha : form.currentAccount <;>
    simp [button, Props.disabled, allParamsFilled, hk, he, ha, hfilled, hblank]

/-- Pressing the enabled button sends the ids that are selected. -/
theorem press_button_iff {request : Request Number AccountId} :
    (form.button D).press D.numbers = some request ↔ ∃ a k e, form.currentAccount = some a ∧
      form.candidateId = some k ∧ form.electionId = some e ∧ request = D.createVote a k e := by
  have hdisabled : (form.button D).disabled = !form.isEnabled D := by rw [isEnabled, Bool.not_not]
  rw [Props.press, hdisabled]
  cases henabled : form.isEnabled D with
  | false =>
    rw [← Bool.not_eq_true, isEnabled_iff] at henabled
    refine iff_of_false (by simp) ?_
    rintro ⟨a, k, e, ha, hk, he, _⟩
    exact henabled (by simp [ha, hk, he])
  | true =>
    obtain ⟨hk, he, ha⟩ := isEnabled_iff.mp henabled
    obtain ⟨k, hk⟩ := Option.isSome_iff_exists.mp hk
    obtain ⟨e, he⟩ := Option.isSome_iff_exists.mp he
    obtain ⟨a, ha⟩ := Option.isSome_iff_exists.mp ha
    have htransaction : (form.button D).transaction D.numbers = some (D.createVote a k e) := by
      rw [Props.transaction, button, ha, hk, he]
      exact congrArg (Option.map (Request.signedTx (some a) "votechain" "createVote"))
        transformParams_ids
    simp [htransaction, ha, hk, he, eq_comm]

end VoteForm

/-- An event is done, submits a transaction, or cannot happen. -/
inductive FormAnswer (Number AccountId : Type) where
  | ignored
  | done
  | submitted (request : Request Number AccountId)

variable [DecidableEq Hash]

/-- Entries of `Candidates` as the node lists them at some time. A stored candidate stays. -/
structure Snapshot (candidates : StorageMap Hash (Candidate Hash)) where
  entries : List (Hash × Candidate Hash)
  stored : ∀ entry ∈ entries, candidates.get entry.1 = some entry.2

/-- What the user and the node do. A reply is for the election id of its query. -/
inductive VoteEvent (candidates : StorageMap Hash (Candidate Hash)) (AccountId : Type) where
  | selectElection (electionId : Hash)
  | selectCandidate (candidateId : Hash)
  | setCurrentAccount (account : AccountId)
  | submit
  | reply (electionId : Option Hash) (snapshot : Snapshot candidates)

variable {candidates : StorageMap Hash (Candidate Hash)}

namespace VoteForm

variable [DecidableEq AccountId]

/-- Selecting the election again changes nothing. -/
def step (D : Display Hash Number) : VoteEvent candidates AccountId →
    VoteForm Hash AccountId Args → FormAnswer Number AccountId × VoteForm Hash AccountId Args
  | .selectElection electionId, form =>
    if form.electionId = some electionId then
      (.done, form)
    else
      (.done, { form with
        electionId := some electionId
        outstanding := form.outstanding ++ [some electionId] })
  | .selectCandidate candidateId, form =>
    if candidateId ∈ form.context.candidates.map SelectOption.value then
      (.done, { form with candidateId := some candidateId })
    else
      (.ignored, form)
  | .setCurrentAccount account, form => (.done, { form with currentAccount := some account })
  | .submit, form =>
    match (form.button D).press D.numbers with
    | some request => (.submitted request, form)
    | none => (.ignored, form)
  | .reply electionId snapshot, form =>
    if electionId ∈ form.outstanding then
      (.done, { form with
        context := reducer form.context
          (.fetchCandidates (candidatesFor D.toHuman snapshot.entries electionId))
        outstanding := form.outstanding.erase electionId })
    else
      (.ignored, form)

end VoteForm

/-- What the page finds when it opens: a context that holds the reply to some query of candidates,
the queries that other pages have sent, and the account. -/
structure Opening (candidates : StorageMap Hash (Candidate Hash)) (AccountId Args : Type) where
  context : ContextState Hash AccountId Args
  electionId : Option Hash
  snapshot : Snapshot candidates
  pending : List (Option Hash)
  currentAccount : Option AccountId

/-- The page as it opens. The effect for the blank election id sends a query. -/
def VoteForm.mount (D : Display Hash Number) (o : Opening candidates AccountId Args) :
    VoteForm Hash AccountId Args where
  electionId := none
  candidateId := none
  context := { o.context with
    candidates := candidatesFor D.toHuman o.snapshot.entries o.electionId }
  outstanding := o.pending ++ [none]
  currentAccount := o.currentAccount

/-! ## Where the candidate was picked -/

/-- Follow the election id whose candidates are on offer, and the one whose candidates were on
offer when the candidate was picked. -/
def follow : Option Hash × Option Hash →
    VoteEvent candidates AccountId × FormAnswer Number AccountId → Option Hash × Option Hash
  | (_, picked), (.reply electionId _, .done) => (electionId, picked)
  | (offered, _), (.selectCandidate _, .done) => (offered, offered)
  | (offered, picked), _ => (offered, picked)

/-- The election ids after a history. -/
def followed (o : Opening candidates AccountId Args)
    (h : List (VoteEvent candidates AccountId × FormAnswer Number AccountId)) :
    Option Hash × Option Hash :=
  h.foldl follow (o.electionId, none)

theorem followed_concat {o : Opening candidates AccountId Args}
    {h : List (VoteEvent candidates AccountId × FormAnswer Number AccountId)}
    {p : VoteEvent candidates AccountId × FormAnswer Number AccountId} :
    followed o (h ++ [p]) = follow (followed o h) p := by
  rw [followed, List.foldl_append]
  rfl

/-- The candidate is stored for the election id. -/
def StoredFor (candidates : StorageMap Hash (Candidate Hash)) (candidateId : Hash)
    (electionId : Option Hash) : Prop :=
  ∃ x, candidates.get candidateId = some x ∧ electionId = some x.electionId

/-- The options are stored for the election id that is on offer, and the picked candidate for the
one that was on offer then. -/
structure FormFollows (candidates : StorageMap Hash (Candidate Hash))
    (ids : Option Hash × Option Hash) (form : VoteForm Hash AccountId Args) : Prop where
  offered : ∀ cand ∈ form.context.candidates, StoredFor candidates cand.value ids.1
  picked : ∀ k, form.candidateId = some k → StoredFor candidates k ids.2

theorem storedFor_of_mem {toHuman : List UInt8 → String} {snapshot : Snapshot candidates}
    {electionId : Option Hash} {cand : SelectOption Hash}
    (h : cand ∈ candidatesFor toHuman snapshot.entries electionId) :
    StoredFor candidates cand.value electionId := by
  obtain ⟨x, hx, he⟩ := exists_of_mem_candidatesFor h
  exact ⟨x, snapshot.stored _ hx, he⟩

variable {D : Display Hash Number}

namespace FormFollows

variable {ids : Option Hash × Option Hash} {form : VoteForm Hash AccountId Args}

theorem mount {o : Opening candidates AccountId Args} :
    FormFollows candidates (o.electionId, none) (.mount D o) :=
  ⟨fun _ hcand => storedFor_of_mem hcand, nofun⟩

theorem step [DecidableEq AccountId] (hf : FormFollows candidates ids form)
    (x : VoteEvent candidates AccountId) :
    FormFollows candidates (follow ids (x, (VoteForm.step D x form).1))
      (VoteForm.step D x form).2 := by
  cases x with
  | selectElection electionId =>
    rw [VoteForm.step]
    split <;> exact ⟨hf.offered, hf.picked⟩
  | selectCandidate candidateId =>
    rw [VoteForm.step]
    split
    · rename_i hmem
      refine ⟨hf.offered, fun k hk => ?_⟩
      cases hk
      obtain ⟨cand, hcand, rfl⟩ := List.mem_map.mp hmem
      exact hf.offered cand hcand
    · exact hf
  | setCurrentAccount account => exact ⟨hf.offered, hf.picked⟩
  | submit =>
    rw [VoteForm.step]
    split <;> exact hf
  | reply electionId snapshot =>
    rw [VoteForm.step]
    split
    · exact ⟨fun _ hcand => storedFor_of_mem hcand, hf.picked⟩
    · exact hf

end FormFollows

/-! ## What the form submits -/

/-- The transaction is a vote for a candidate with the election id that it is stored for. -/
def Consistent (D : Display Hash Number) (candidates : StorageMap Hash (Candidate Hash))
    (request : Request Number AccountId) : Prop :=
  ∃ account candidateId electionId, request = D.createVote account candidateId electionId ∧
    StoredFor candidates candidateId (some electionId)

section
variable [DecidableEq AccountId]

/-- Only pressing the enabled button submits. -/
theorem step_submitted_iff {form : VoteForm Hash AccountId Args}
    {x : VoteEvent candidates AccountId} {request : Request Number AccountId} :
    (VoteForm.step D x form).1 = .submitted request ↔
      x = .submit ∧ ∃ a k e, form.currentAccount = some a ∧ form.candidateId = some k ∧
        form.electionId = some e ∧ request = D.createVote a k e := by
  cases x with
  | submit =>
    rw [VoteForm.step, ← VoteForm.press_button_iff]
    split
    · rename_i request' hpress
      simp [hpress]
    · rename_i hpress
      simp [hpress]
  | setCurrentAccount => simp [VoteForm.step]
  | _ => rw [VoteForm.step]; split <;> simp

section
variable (D) (o : Opening candidates AccountId Args) (xs : List (VoteEvent candidates AccountId))

/-- The form after the events, from the opening of the page on. -/
abbrev voteForm : VoteForm Hash AccountId Args :=
  finalState (VoteForm.step D) (.mount D o) xs

abbrev voteHistory : List (VoteEvent candidates AccountId × FormAnswer Number AccountId) :=
  trace (VoteForm.step D) (VoteForm.mount D o) xs

end

theorem formFollows_run (D : Display Hash Number) (o : Opening candidates AccountId Args)
    (xs : List (VoteEvent candidates AccountId)) :
    FormFollows candidates (followed o (voteHistory D o xs)) (voteForm D o xs) := by
  refine trace_induction (P := fun h form => FormFollows candidates (followed o h) form) .mount
    (fun h form x hf => ?_) xs
  rw [followed_concat]
  exact hf.step x

/-- The form after the events `pre` picked its candidate for the election that is selected. -/
def PickedForSelected (D : Display Hash Number) (o : Opening candidates AccountId Args)
    (pre : List (VoteEvent candidates AccountId)) : Prop :=
  (followed o (voteHistory D o pre)).2 = (voteForm D o pre).electionId

theorem consistent_iff {o : Opening candidates AccountId Args}
    {pre : List (VoteEvent candidates AccountId)} {a : AccountId} {k e : Hash}
    (hk : (voteForm D o pre).candidateId = some k)
    (he : (voteForm D o pre).electionId = some e) :
    Consistent D candidates (D.createVote a k e) ↔ PickedForSelected D o pre := by
  obtain ⟨x, hx, hids⟩ := (formFollows_run D o pre).picked k hk
  rw [PickedForSelected, hids, he]
  constructor
  · rintro ⟨a', k', e', hrequest, x', hx', he'⟩
    obtain ⟨rfl, rfl, rfl⟩ := Display.createVote_inj hrequest
    cases hx.symm.trans hx'
    exact he'.symm
  · intro h
    exact ⟨a, k, e, rfl, x, hx, h.symm⟩

/-- Every transaction that the form submits is consistent iff, whenever the enabled button is
pressed, the candidates that were on offer when the candidate was picked were those of the election
that is selected now. -/
theorem voteForm_consistent_iff (D : Display Hash Number) (o : Opening candidates AccountId Args)
    (xs : List (VoteEvent candidates AccountId)) :
    (∀ p ∈ voteHistory D o xs, ∀ request, p.2 = .submitted request →
      Consistent D candidates request) ↔
    ∀ pre, pre ++ [.submit] <+: xs → (voteForm D o pre).isEnabled D = true →
      PickedForSelected D o pre := by
  constructor
  · intro h pre hpre henabled
    obtain ⟨hk, he, ha⟩ := VoteForm.isEnabled_iff.mp henabled
    obtain ⟨k, hk⟩ := Option.isSome_iff_exists.mp hk
    obtain ⟨e, he⟩ := Option.isSome_iff_exists.mp he
    obtain ⟨a, ha⟩ := Option.isSome_iff_exists.mp ha
    refine (consistent_iff (a := a) hk he).mp (h _ (mem_trace_of_concat hpre) _ ?_)
    exact step_submitted_iff.mpr ⟨rfl, a, k, e, ha, hk, he, rfl⟩
  · rintro h ⟨x, r⟩ hmem request rfl
    obtain ⟨pre, hpre, hr⟩ := mem_trace hmem
    obtain ⟨rfl, a, k, e, ha, hk, he, rfl⟩ := step_submitted_iff.mp hr.symm
    refine (consistent_iff hk he).mpr (h pre hpre (VoteForm.isEnabled_iff.mpr ?_))
    simp [hk, he, ha]

end

/-- A candidate of the first election is submitted with the second one. -/
theorem not_voteForm_consistent :
    let candidates : StorageMap (List UInt8) (Candidate (List UInt8)) :=
      ((∅ : StorageMap (List UInt8) _).insert [10] ⟨[], [1]⟩).insert [20] ⟨[], [2]⟩
    let snapshot : Snapshot candidates := ⟨[([10], ⟨[], [1]⟩), ([20], ⟨[], [2]⟩)], by decide⟩
    let o : Opening candidates Nat Unit := ⟨initialState, none, ⟨[], by decide⟩, [], some 0⟩
    let xs := [.selectElection [1], .reply none snapshot, .reply (some [1]) snapshot,
      .selectCandidate [10], .selectElection [2], .submit]
    ¬ ∀ p ∈ voteHistory Mock.display o xs, ∀ request, p.2 = .submitted request →
      Consistent Mock.display candidates request := by
  intro candidates snapshot o xs h
  have hpre : xs.dropLast ++ [.submit] <+: xs := List.prefix_rfl
  obtain ⟨a, k, e, hrequest, x, hx, he⟩ := h _ (mem_trace_of_concat hpre) _
    (step_submitted_iff.mpr ⟨rfl, 0, [10], [2], rfl, rfl, rfl, rfl⟩)
  obtain ⟨rfl, rfl, rfl⟩ := Display.createVote_inj hrequest
  cases hx
  cases he

end Votechain.Client
