import Votechain.Client.Admin

/-!
# What reaches the chain from the pages of the administrator

However logins, queries, replies, selections, reconnections, new sudo keys and blocks interleave,
only an account that the buttons have taken from the chain as the sudo key sends anything from these
pages, and what it sends names a stored election. So while the account still is the sudo key, a
candidate is refused for nothing but its name, and an election is only found to be closed already.
The menu is not as safe: it has the pages of the administrator for whoever is there when the answer
about the sudo key arrives, and keeps them when the key changes.
-/

open Frame Machine

namespace Votechain.Client
open TxButton

variable {Hash AccountId Args Number : Type}

namespace AdminForm

/-- The call comes from the form, and names the election that is selected there. -/
def Sends : AdminForm Hash → Call Hash → Prop
  | .createElection _, .createElection _ => True
  | .addCandidates _ electionId, .createCandidate _ e => electionId = some e
  | .closeElection electionId, .closeElection e => electionId = some e
  | _, _ => False

@[simp] theorem selected_typeText {form : AdminForm Hash} {text : Text} :
    (form.typeText text).selected = form.selected := by
  cases form <;> rfl

theorem selected_selectElection {form : AdminForm Hash} {e e' : Hash}
    (h : (form.selectElection e).selected = some e') : e' = e := by
  cases form <;> cases h
  all_goals rfl

theorem selected_blank {page : Page} :
    (blank page : Option (AdminForm Hash)).bind selected = none := by
  cases page <;> rfl

/-- What an enabled button of the forms sends. -/
theorem press_button [DecidableEq AccountId] {D : Display Hash Number} {form : AdminForm Hash}
    {account key : Option AccountId} {r : Request Number AccountId}
    (h : (form.button D.toCodec account key).press D.numbers = some r) :
    ∃ a callable params call, account = some a ∧ key = some a ∧
      r = .sudoTx (some a) "votechain" callable params ∧
      D.toCall callable params = some call ∧ form.Sends call := by
  cases form with
  | createElection electionName =>
    obtain ⟨a, params, ha, hk, _, hparams, rfl⟩ := press_sudoButton h
    obtain ⟨description, rfl⟩ := List.length_eq_one_iff.mp (length_params hparams)
    exact ⟨a, _, _, _, ha, hk, rfl, rfl, trivial⟩
  | addCandidates candidateName electionId =>
    obtain ⟨a, params, ha, hk, hfilled, hparams, rfl⟩ := press_sudoButton h
    obtain ⟨e, rfl⟩ := exists_of_filled (i := 1) hfilled rfl
    obtain ⟨name, id, rfl⟩ := List.length_eq_two.mp (length_params hparams)
    cases getElem?_idParam (i := 1) rfl hparams
    refine ⟨a, _, _, .createCandidate (D.bytesOf name) e, ha, hk, rfl, ?_, rfl⟩
    rw [Codec.toCall, D.read_print]
    rfl
  | closeElection electionId =>
    obtain ⟨a, params, ha, hk, hfilled, hparams, rfl⟩ := press_sudoButton h
    obtain ⟨e, rfl⟩ := exists_of_filled (i := 0) hfilled rfl
    obtain ⟨id, rfl⟩ := List.length_eq_one_iff.mp (length_params hparams)
    cases getElem?_idParam (i := 0) rfl hparams
    refine ⟨a, _, _, .closeElection e, ha, hk, rfl, ?_, rfl⟩
    rw [Codec.toCall, D.read_print]
    rfl

end AdminForm

namespace Desk

variable {E : Setting Hash AccountId Number} {d : Desk Hash AccountId Args}

/-! ## The menu -/

theorem offersAdmin_iff : d.OffersAdmin ↔ d.shown = true ∧ d.isSudo = true :=
  and_congr_right fun _ => exists_sudo_menu_iff

/-- The menu has the pages of the administrator for nobody but the account of the sudo key. -/
def MenuSafe (E : Setting Hash AccountId Number) (d : Desk Hash AccountId Args) : Prop :=
  d.OffersAdmin → d.currentAccount = some (d.key E)

/-- What the menu and the sudo key depend on stays as it is. -/
theorem MenuSafe.frame {d' : Desk Hash AccountId Args} (h : MenuSafe E d)
    (hshown : d'.shown = d.shown) (hisSudo : d'.isSudo = d.isSudo)
    (hcurrent : d'.currentAccount = d.currentAccount) (hkeys : d'.keys = d.keys) :
    MenuSafe E d' := by
  rw [MenuSafe, offersAdmin_iff] at h ⊢
  rwa [hshown, hisSudo, hcurrent, key, hkeys]

theorem menuSafe_of_isSudo (h : d.isSudo = false) : MenuSafe E d := fun hoffers => by
  cases h.symm.trans (offersAdmin_iff.mp hoffers).2

theorem MenuSafe.visit (h : MenuSafe E d) (page : Page) : MenuSafe E (d.visit page) := by
  rw [Desk.visit]
  split
  · exact h
  · exact h.frame rfl rfl rfl rfl

variable [DecidableEq Hash] [DecidableEq AccountId]

/-! ## What is sent -/

omit [DecidableEq Hash] in
theorem submission_spec {x : AccountId × Call Hash} (h : d.submission E = some x) :
    d.currentAccount = some x.1 ∧ d.sudoKey = some x.1 ∧
      ∃ form, d.form = some form ∧ form.Sends x.2 := by
  rw [submission] at h
  split at h
  · rename_i hpress
    obtain ⟨form, hform, hpress⟩ := Option.bind_eq_some_iff.mp hpress
    obtain ⟨a, _, _, call, ha, hk, hr, hcall, hsends⟩ := AdminForm.press_button hpress
    cases hr
    rw [hcall] at h
    cases h
    exact ⟨ha, hk, form, hform, hsends⟩
  · cases h

/-! ## What is stored -/

/-- The election is stored. -/
def Stored (s : Storage Hash AccountId) (e : Hash) : Prop := (s.elections.get e).isSome = true

/-- The call is one of the forms, and the election that it names is stored. -/
def Names (s : Storage Hash AccountId) : Call Hash → Prop
  | .createElection _ => True
  | .createCandidate _ e | .closeElection e => Stored s e
  | _ => False

section
variable {T : Config Hash} {s s' : Storage Hash AccountId} {o : Origin AccountId} {c : Call Hash}
  {r : Except DispatchError Unit} {e : Hash}

omit [DecidableEq AccountId] in
theorem stored_of_effect (h : Effect T s o c r s') (he : Stored s e) : Stored s' e := by
  cases h with
  | electionStored => simpa [Stored] using Or.inr he
  | electionUpdated => simpa [Stored] using he
  | _ => exact he

omit [DecidableEq AccountId] in
/-- A root call succeeds iff it is accepted. -/
theorem ok_iff_accepts (h : Effect T s .root c r s') : r = .ok () ↔ s.Accepts T .root c := by
  cases h with
  | refused hn => exact iff_of_false nofun hn
  | electionStored hd => exact iff_of_true rfl hd
  | electionUpdated ho => exact iff_of_true rfl ho
  | candidateStored hn hr => exact iff_of_true rfl ⟨hn, hr⟩

/-- What comes of a call that names a stored election. -/
def Foreseen (T : Config Hash) (s : Storage Hash AccountId) (r : Except DispatchError Unit) :
    Call Hash → Prop
  | .createElection d => r = .ok () ↔ T.DescriptionFits d
  | .createCandidate name _ =>
    (r = .ok () ↔ T.NameFits name) ∧ r ≠ .error (.module .electionNotFound)
  | .closeElection e =>
    ∃ election, s.elections.get e = some election ∧ (r = .ok () ↔ election.isOpen = true)
  | _ => False

omit [DecidableEq AccountId] in
theorem foreseen_of_names (hw : WellFormed T s) (hc : Names s c) (h : Effect T s .root c r s') :
    Foreseen T s r c := by
  cases c with
  | doSomething | causeError | createVote => exact hc
  | createElection d => exact ok_iff_accepts h
  | createCandidate name e =>
    have hroster : s.HasRoster e := by
      rw [Storage.HasRoster, ← Option.isSome_iff_exists, hw.rosters]
      exact hc
    have hok : r = .ok () ↔ T.NameFits name :=
      (ok_iff_accepts h).trans (and_iff_left hroster)
    refine ⟨hok, fun hr => ?_⟩
    cases h with
    | refused hn =>
      -- the roster is there, so it is the name that does not fit
      have hfits : ¬ T.NameFits name := fun hfits => hn ⟨hfits, hroster⟩
      rw [Storage.refusal, if_neg hfits] at hr
      split at hr <;> cases hr
    | candidateStored => cases hr
  | closeElection e =>
    obtain ⟨election, he⟩ := Option.isSome_iff_exists.mp hc
    refine ⟨election, he, (ok_iff_accepts h).trans ?_⟩
    constructor
    · rintro ⟨election', he', ho⟩
      cases he.symm.trans he'
      exact ho
    · exact fun ho => ⟨election, he, ho⟩

end

/-! ## The invariant -/

/-- The button of the page has a sudo key of the chain, what is on offer and selected is stored, and
what waits for a block is by an account that has been the sudo key, and names a stored election. -/
structure Sound (E : Setting Hash AccountId Number) (d : Desk Hash AccountId Args) : Prop where
  sudoKey : ∀ k, d.sudoKey = some k → k ∈ d.keysSince E 0
  offered : ∀ option ∈ d.context.elections, Stored (d.chain E) option.value
  selected : ∀ e, d.form.bind AdminForm.selected = some e → Stored (d.chain E) e
  pool : ∀ x ∈ d.pool, x.1 ∈ d.keysSince E 0 ∧ Names (d.chain E) x.2

namespace Sound

theorem start : Sound E (start : Desk Hash AccountId Args) := ⟨nofun, nofun, nofun, nofun⟩

theorem names_of_sends (h : Sound E d) {form : AdminForm Hash} (hform : d.form = some form)
    {c : Call Hash} (hc : form.Sends c) : Names (d.chain E) c := by
  have hselected (e : Hash) (he : form.selected = some e) : Stored (d.chain E) e :=
    h.selected e (by rw [hform]; exact he)
  cases form with
  | createElection =>
    cases c with
    | createElection => trivial
    | _ => exact False.elim hc
  | addCandidates =>
    cases c with
    | createCandidate name e => exact hselected e hc
    | _ => exact False.elim hc
  | closeElection =>
    cases c with
    | closeElection e => exact hselected e hc
    | _ => exact False.elim hc

/-- What a page shows and what waits for a block stays as it is. -/
theorem frame (h : Sound E d) {d' : Desk Hash AccountId Args} (hlog : d'.log = d.log)
    (hkeys : d'.keys = d.keys) (hsudoKey : d'.sudoKey = d.sudoKey)
    (hcontext : d'.context = d.context) (hform : d'.form = d.form) (hpool : d'.pool = d.pool) :
    Sound E d' := by
  obtain ⟨h₁, h₂, h₃, h₄⟩ := h
  constructor <;> simpa only [chain, keysSince, hlog, hkeys, hsudoKey, hcontext, hform, hpool]

theorem openPage (h : Sound E d) (page : Page) : Sound E (d.openPage page) where
  sudoKey := nofun
  offered := h.offered
  selected e he := by
    rw [Desk.openPage, AdminForm.selected_blank] at he
    cases he
  pool := h.pool

theorem visit (h : Sound E d) (page : Page) : Sound E (d.visit page) := by
  rw [Desk.visit]
  split
  · exact h
  · exact h.openPage page

/-- Another extrinsic in a block. -/
theorem block (h : Sound E d) (x : Extrinsic Hash AccountId) {pool : List (AccountId × Call Hash)}
    (hpool : ∀ y ∈ pool, y ∈ d.pool) : Sound E { d with log := d.log ++ [x], pool := pool } := by
  have hstored (e : Hash) (he : Stored (d.chain E) e) :
      Stored (chain E { d with log := d.log ++ [x], pool := pool }) e := by
    rw [chain, run, finalState_concat]
    exact stored_of_effect (apply_effect x _) he
  refine ⟨h.sudoKey, fun o ho => hstored _ (h.offered o ho),
    fun e he => hstored e (h.selected e he), fun y hy => ?_⟩
  obtain ⟨hkey, hnames⟩ := h.pool y (hpool y hy)
  refine ⟨hkey, ?_⟩
  cases hc : y.2 with
  | createElection => trivial
  | createCandidate name e | closeElection e =>
    rw [hc] at hnames
    exact hstored e hnames
  | _ =>
    rw [hc] at hnames
    exact hnames

theorem submit (h : Sound E d) :
    Sound E { d with pool := d.pool ++ (d.submission E).toList } := by
  refine ⟨h.sudoKey, h.offered, h.selected, fun x hx => ?_⟩
  rcases List.mem_append.mp hx with hx | hx
  · exact h.pool x hx
  · obtain ⟨_, hkey, form, hform, hsends⟩ := submission_spec (Option.mem_toList.mp hx)
    exact ⟨h.sudoKey _ hkey, h.names_of_sends hform hsends⟩

/-- A selected option is stored. -/
theorem selectElection (h : Sound E d) {e : Hash}
    (he : e ∈ d.context.elections.map SelectOption.value) :
    Sound E { d with form := d.form.map (·.selectElection e) } := by
  refine ⟨h.sudoKey, h.offered, fun e' he' => ?_, h.pool⟩
  obtain ⟨form, hform, hselected⟩ := Option.bind_eq_some_iff.mp he'
  obtain ⟨form, _, rfl⟩ := Option.map_eq_some_iff.mp hform
  cases AdminForm.selected_selectElection hselected
  obtain ⟨option, hmem, rfl⟩ := List.mem_map.mp he
  exact h.offered option hmem

theorem act (h : Sound E d) (ev : PageEvent Hash AccountId) : Sound E (Desk.act E ev d).2 := by
  cases ev with
  | login | checkSudo =>
    rw [Desk.act]
    split <;> exact h.frame rfl rfl rfl rfl rfl rfl
  | logout =>
    rw [Desk.act]
    split
    · exact h
    · exact (h.visit .home).frame rfl rfl rfl rfl rfl rfl
  | loadSudoKey sudoKey =>
    rw [Desk.act]
    split
    · rename_i hreply
      obtain ⟨sent, _, hkey⟩ := hreply
      refine ⟨fun k hk => ?_, h.offered, h.selected, h.pool⟩
      simp only [Option.ite_none_left_eq_some, Option.some.injEq] at hk
      exact List.mem_of_mem_drop (hk.2 ▸ hkey)
    · exact h
  | visit page => exact h.visit page
  | typeText text =>
    refine ⟨h.sudoKey, h.offered, fun e he => h.selected e ?_, h.pool⟩
    simpa [Desk.act, Option.bind_map, Function.comp_def] using he
  | selectElection electionId =>
    rw [Desk.act]
    split
    · rename_i hmem
      exact h.selectElection hmem
    · exact h
  | submit => exact h.submit

theorem step (h : Sound E d) (ev : DeskEvent Hash AccountId) : Sound E (Desk.step E ev d).2 := by
  cases ev with
  | connect page =>
    rw [Desk.step]
    split
    · exact h
    · exact (h.openPage page).frame rfl rfl rfl rfl rfl rfl
  | disconnect => exact h.frame rfl rfl rfl rfl rfl rfl
  | act event =>
    rw [Desk.step]
    split
    · exact h.act event
    · exact h
  | fetched entries =>
    rw [Desk.step]
    split
    · rename_i hfetched
      refine ⟨h.sudoKey, fun option hoption => ?_, h.selected, h.pool⟩
      obtain ⟨entry, hentry, rfl⟩ := List.mem_map.mp hoption
      exact hfetched.2 entry hentry
    · exact h
  | inBlock account call =>
    rw [Desk.step]
    split
    · split
      · exact h.block _ fun _ => List.mem_of_mem_erase
      · exact ⟨h.sudoKey, h.offered, h.selected, fun x hx => h.pool x (List.mem_of_mem_erase hx)⟩
    · exact h
  | setKey account =>
    have hmem (k : AccountId) (hk : k ∈ d.keysSince E 0) :
        k ∈ keysSince E { d with keys := d.keys ++ [account] } 0 :=
      List.mem_append_left [account] hk
    exact ⟨fun k hk => hmem k (h.sudoKey k hk), h.offered, h.selected, fun x hx =>
      (h.pool x hx).imp_left (hmem x.1)⟩
  | other x => exact h.block x fun _ hy => hy

end Sound

/-! ## Runs -/

/-- What comes of a transaction that waits for a block. Its account has been the sudo key. If it
still is, the call is dispatched and does what is foreseen, and else it is refused. -/
structure ForeseenAt (E : Setting Hash AccountId Number) (d : Desk Hash AccountId Args)
    (x : AccountId × Call Hash) : Prop where
  account : x.1 ∈ d.keysSince E 0
  dispatched : x.1 = d.key E → ∃ r, (Desk.step E (.inBlock x.1 x.2) d).1 = .dispatched r ∧
    Foreseen E.T (d.chain E) r x.2
  refused : x.1 ≠ d.key E → (Desk.step E (.inBlock x.1 x.2) d).1 = .refused ∧
    (Desk.step E (.inBlock x.1 x.2) d).2.log = d.log

theorem Sound.foreseenAt (h : Sound E d) {x : AccountId × Call Hash} (hx : x ∈ d.pool) :
    ForeseenAt E d x := by
  obtain ⟨haccount, hnames⟩ := h.pool x hx
  have hforeseen := foreseen_of_names wellFormed_run hnames (apply_effect ⟨.root, x.2⟩ (d.chain E))
  refine ⟨haccount, fun hkey => ⟨_, ?_, hforeseen⟩, fun hkey => ?_⟩
  · rw [Desk.step, if_pos hx, if_pos hkey]
  · rw [Desk.step, if_pos hx, if_neg hkey]
    exact ⟨rfl, rfl⟩

section
variable (Args) (E : Setting Hash AccountId Number) (evs : List (DeskEvent Hash AccountId))

/-- The desk after the events. -/
abbrev desk : Desk Hash AccountId Args := finalState (step E) start evs

/-- What waits for a block is by an account that has been the sudo key. While it is, an election is
created iff its description fits, a candidate iff its name does, and an election closed iff it is
still open. -/
theorem desk_foreseen : ∀ x ∈ (desk Args E evs).pool, ForeseenAt E (desk Args E evs) x := by
  have hsound : Sound E (desk Args E evs) :=
    finalState_induction (P := Sound E) .start (fun _ ev h => h.step ev) evs
  exact fun x hx => hsound.foreseenAt hx

/-- A description is typed, and sent. -/
theorem desk_foreseen_mock :
    let evs : List (DeskEvent (List UInt8) Nat) := [.connect .createElection, .act (.login 1),
      .act (.checkSudo 1 0 1), .act (.loadSudoKey 1), .act (.typeText "Presidency".toList),
      .act .submit]
    ForeseenAt Mock.setting (desk Unit Mock.setting evs)
      (1, .createElection (Mock.bytes "Presidency".toList)) :=
  desk_foreseen Unit Mock.setting _ _ (by decide)

end

/-! ## When the menu is safe -/

/-- An answer that confirms the account of its query finds the account of the sudo key logged in,
and while the menu has pages of the administrator, the sudo key changes to nobody but the account
that is logged in. -/
def Timely (E : Setting Hash AccountId Number) (d : Desk Hash AccountId Args) :
    DeskEvent Hash AccountId → Prop
  | .act (.checkSudo account sent sudoKey) =>
    d.shown = true → (account, sent) ∈ d.checks → sudoKey ∈ d.keysSince E sent →
      account = sudoKey → d.currentAccount = some (d.key E)
  | .setKey account => d.OffersAdmin → d.currentAccount = some account
  | _ => True

theorem menuSafe_act_iff (h : MenuSafe E d) (hshown : d.shown = true)
    (ev : PageEvent Hash AccountId) : MenuSafe E (Desk.act E ev d).2 ↔ Timely E d (.act ev) := by
  cases ev with
  | login account =>
    refine iff_of_true ?_ trivial
    rw [Desk.act]
    split
    · rename_i hnone
      -- without an account the menu has no page of the administrator
      intro hoffers
      cases hnone.symm.trans (h hoffers)
    · exact h
  | logout =>
    refine iff_of_true ?_ trivial
    rw [Desk.act]
    split
    · exact h
    · exact menuSafe_of_isSudo rfl
  | checkSudo account sent sudoKey =>
    rw [Desk.act, Timely]
    split
    · rename_i hreply
      simp [MenuSafe, offersAdmin_iff, hshown, hreply.1, hreply.2, key]
    · rename_i hreply
      exact iff_of_true h fun _ hmem hkey => absurd ⟨hmem, hkey⟩ hreply
  | loadSudoKey | selectElection =>
    refine iff_of_true ?_ trivial
    rw [Desk.act]
    split
    · exact h.frame rfl rfl rfl rfl
    · exact h
  | visit page => exact iff_of_true (h.visit page) trivial
  | typeText | submit => exact iff_of_true (h.frame rfl rfl rfl rfl) trivial

theorem menuSafe_step_iff (h : MenuSafe E d) (ev : DeskEvent Hash AccountId) :
    MenuSafe E (Desk.step E ev d).2 ↔ Timely E d ev := by
  cases ev with
  | connect page =>
    refine iff_of_true ?_ trivial
    rw [Desk.step]
    split
    · exact h
    · exact menuSafe_of_isSudo rfl
  | disconnect => exact iff_of_true (fun hoffers => by cases hoffers.1) trivial
  | act ev =>
    rw [Desk.step]
    split
    · rename_i hshown
      exact menuSafe_act_iff h hshown ev
    · rename_i hshown
      refine iff_of_true h ?_
      cases ev with
      | checkSudo => exact fun hshown' => absurd hshown' hshown
      | _ => trivial
  | fetched entries =>
    refine iff_of_true ?_ trivial
    rw [Desk.step]
    split
    · exact h.frame rfl rfl rfl rfl
    · exact h
  | inBlock account call =>
    refine iff_of_true ?_ trivial
    rw [Desk.step]
    split
    · split <;> exact h.frame rfl rfl rfl rfl
    · exact h
  | setKey account => simp [Desk.step, MenuSafe, Timely, offersAdmin_iff, key]
  | other x => exact iff_of_true (h.frame rfl rfl rfl rfl) trivial

/-- The menu has the pages of the administrator for nobody but the account of the sudo key,
throughout exactly the runs whose events are timely. -/
theorem desk_menu_iff (E : Setting Hash AccountId Number) (evs : List (DeskEvent Hash AccountId)) :
    Always (step E) (MenuSafe E) (start : Desk Hash AccountId Args) evs ↔
      EachStep (step E) (Timely E) (start : Desk Hash AccountId Args) evs :=
  always_iff_eachStep (menuSafe_of_isSudo rfl) fun _ ev _ h => menuSafe_step_iff h ev

end Desk

end Votechain.Client
