import Votechain.Client.Substrate

/-!
# What the user sees of the connection

However renders, effects, listeners and replies interleave, the context opens one API object and
loads the accounts once. What `Main` shows is what the API object has told last, and the pages come
with the API object and the keyring that they need. A load that has failed keeps the user from the
pages for good, and so does the render of an error that is about no socket.
-/

open Machine

namespace Votechain.Client.Substrate

variable {Pair : Type} {isTestChain : String → Bool} {socket : String}
  {p p' : Provider Pair} {state : State Pair} {api : ApiPromise}

namespace Provider

/-! ## The API object -/

/-- The state says of the API object what is so. -/
structure Linked (socket : String) (api : ApiPromise) (state : State Pair) : Prop where
  api_socket : api.socket = socket
  apiState : state.apiState.isSome = true
  payload : api.hasConnected = true → state.api = some 0
  hasConnected : api.isReady = true → api.hasConnected = true
  isReady : state.apiState = some .ready → api.isReady = true
  callbacks : state.apiState = some .connecting → 0 < api.callbacks

theorem Linked.connect (h : Linked socket api state) :
    Linked socket { api with hasConnected := true, callbacks := api.callbacks + 1 }
      (reducer state (.connect 0)) :=
  ⟨h.api_socket, rfl, fun _ => rfl, fun _ => rfl, nofun, fun _ => Nat.succ_pos _⟩

theorem Linked.connectSuccess (h : Linked socket api state) (hapi : api.hasConnected = true)
    (callbacks : Nat) :
    Linked socket { api with isReady := true, callbacks } (reducer state .connectSuccess) :=
  ⟨h.api_socket, rfl, h.payload, fun _ => hapi, fun _ => rfl, nofun⟩

theorem Linked.connectError (h : Linked socket api state) (err : ApiError) :
    Linked socket api (reducer state (.connectError err)) :=
  ⟨h.api_socket, rfl, h.payload, h.hasConnected, nofun, nofun⟩

/-- There is one API object, for the socket of the state, once the state knows of it. -/
structure Wired (socket : String) (p : Provider Pair) : Prop where
  state_socket : p.state.socket = socket
  apis : p.apis = [] ∧ p.state.apiState = none ∨ ∃ api, p.apis = [api] ∧ Linked socket api p.state
  rendered : p.rendered.apiState = some .ready →
    p.rendered.api = some 0 ∧ ∃ api, p.apis = [api] ∧ api.isReady = true

namespace Wired

theorem mount (h : state.socket = socket) (hapi : state.apiState = none) :
    Wired socket (mount state) :=
  ⟨h, .inl ⟨rfl, hapi⟩, fun hready => by cases hapi.symm.trans hready⟩

theorem of_getElem? (h : Wired socket p) {i : Nat} (hi : p.apis[i]? = some api) :
    i = 0 ∧ p.apis = [api] ∧ Linked socket api p.state := by
  rcases h.apis with ⟨hnil, _⟩ | ⟨api', hapis, hlinked⟩
  · rw [hnil] at hi
    cases hi
  · rw [hapis, List.getElem?_singleton] at hi
    split at hi
    · cases hi
      exact ⟨by assumption, hapis, hlinked⟩
    · cases hi

theorem payload (h : Wired socket p) (hready : p.state.apiState = some .ready) :
    p.state.api = some 0 ∧ ∃ api, p.apis = [api] ∧ api.isReady = true := by
  rcases h.apis with ⟨_, hnone⟩ | ⟨api, hapis, hlinked⟩
  · cases hnone.symm.trans hready
  · have hisReady := hlinked.isReady hready
    exact ⟨hlinked.payload (hlinked.hasConnected hisReady), api, hapis, hisReady⟩

/-- The API object changes, and the state with it. Once ready it stays so. -/
theorem set (h : Wired socket p) (hapis : p.apis = [api]) {api' : ApiPromise} {action : Action Pair}
    (hisReady : api.isReady = true → api'.isReady = true)
    (hsocket : (reducer p.state action).socket = p.state.socket)
    (hlinked : Linked socket api' (reducer p.state action)) :
    Wired socket { p.dispatch action with apis := p.apis.set 0 api' } where
  state_socket := hsocket.trans h.state_socket
  apis := .inr ⟨api', by rw [hapis, List.set_cons_zero], hlinked⟩
  rendered hready := by
    obtain ⟨hapi, api'', hapis', hisReady'⟩ := h.rendered hready
    cases hapis.symm.trans hapis'
    exact ⟨hapi, api', by simp [hapis], hisReady hisReady'⟩

/-- What concerns the API object stays as it is. -/
theorem frame (h : Wired socket p) (hsocket : p'.state.socket = p.state.socket)
    (hapi : p'.state.api = p.state.api) (hapiState : p'.state.apiState = p.state.apiState)
    (hapis : p'.apis = p.apis) (hrendered : p'.rendered = p.rendered) : Wired socket p' where
  state_socket := hsocket.trans h.state_socket
  apis := by
    rw [hapis, hapiState]
    refine h.apis.imp_right fun ⟨api, hapi', hlinked⟩ => ⟨api, hapi', hlinked.api_socket, ?_, ?_,
      hlinked.hasConnected, ?_, ?_⟩
    · exact hapiState ▸ hlinked.apiState
    · exact hapi ▸ hlinked.payload
    · exact hapiState ▸ hlinked.isReady
    · exact hapiState ▸ hlinked.callbacks
  rendered := by
    rw [hrendered, hapis]
    exact h.rendered

theorem connect (h : Wired socket p) : Wired socket p.connect := by
  rw [Provider.connect]
  split
  · exact h
  · rename_i hnone
    rcases h.apis with ⟨hnil, _⟩ | ⟨api, _, hlinked⟩
    · have hlinked : Linked socket ⟨p.state.socket, false, false, 0⟩
          (reducer p.state .connectInit) := ⟨h.state_socket, rfl, nofun, nofun, nofun, nofun⟩
      refine ⟨h.state_socket, .inr ⟨_, by rw [hnil, List.nil_append], hlinked⟩, fun hready => ?_⟩
      -- there was no API object that could have been ready
      obtain ⟨_, _, hapis, _⟩ := h.rendered hready
      cases hnil.symm.trans hapis
    · exact absurd hlinked.apiState hnone

theorem render (h : Wired socket p) : Wired socket p.render where
  state_socket := h.connect.state_socket
  apis := h.connect.apis
  rendered := h.connect.payload

theorem effect (h : Wired socket p) : Wired socket p.effect := by
  rw [Provider.effect]
  split
  · exact h.frame rfl rfl rfl rfl rfl
  · exact h

theorem handle (h : Wired socket p) (ev : ProviderEvent Pair) :
    Wired socket (Provider.handle isTestChain ev p).2 := by
  cases ev with
  | render => exact h.render
  | effect => exact h.effect
  | connected i =>
    rw [Provider.handle]
    split
    · rename_i api hi
      obtain ⟨rfl, hapis, hlinked⟩ := h.of_getElem? hi
      exact h.set hapis id rfl hlinked.connect
    · exact h
  | ready i =>
    rw [Provider.handle]
    split
    · rename_i api hi
      obtain ⟨rfl, hapis, hlinked⟩ := h.of_getElem? hi
      split
      · rename_i hready
        exact h.set hapis (fun _ => rfl) rfl (hlinked.connectSuccess hready.1 _)
      · exact h
    · exact h
  | callback i =>
    rw [Provider.handle]
    split
    · rename_i api hi
      obtain ⟨rfl, hapis, hlinked⟩ := h.of_getElem? hi
      split
      · rename_i hready
        have hsuccess :=
          hlinked.connectSuccess (hlinked.hasConnected hready.1) (api.callbacks - 1)
        rw [← hready.1] at hsuccess
        exact h.set hapis id rfl hsuccess
      · exact h
    · exact h
  | error i err =>
    rw [Provider.handle]
    split
    · rename_i hi
      rcases h.apis with ⟨hnil, _⟩ | ⟨api, hapis, hlinked⟩
      · rw [hnil] at hi
        cases hi
      · exact ⟨h.state_socket, .inr ⟨api, hapis, hlinked.connectError err⟩, h.rendered⟩
    · exact h
  | reply j answers =>
    rw [Provider.handle]
    split
    · split <;> exact h.frame rfl rfl rfl rfl rfl
    · exact h
  | setCurrentAccount acct => exact h.frame rfl rfl rfl rfl rfl

end Wired

/-! ## The load of the accounts -/

/-- A reply with answers, which were taken. -/
def isLoaded : ProviderEvent Pair × Bool → Bool
  | (.reply _ (some _), true) => true
  | _ => false

/-- A load that threw. -/
def isFailed : ProviderEvent Pair × Bool → Bool
  | (.reply _ none, true) => true
  | _ => false

variable {h : List (ProviderEvent Pair × Bool)}

/-- How far the one load has come. What was rendered has no keyring but that of the load. -/
inductive Phase (isTestChain : String → Bool) (h : List (ProviderEvent Pair × Bool))
    (p : Provider Pair) : Prop
  | waiting (keyringLoadAll : p.keyringLoadAll = false) (loads : p.loads = [])
      (keyringState : p.state.keyringState = none)
      (rendered : p.rendered.keyringState ≠ some .ready)
      (loaded : h.any isLoaded = false) (failed : h.any isFailed = false)
  | loading (keyringLoadAll : p.keyringLoadAll = true) (loads : p.loads = [⟨some 0, true⟩])
      (keyringState : p.state.keyringState = some .loading)
      (rendered : p.rendered.keyringState ≠ some .ready)
      (loaded : h.any isLoaded = false) (failed : h.any isFailed = false)
  | done (keyringLoadAll : p.keyringLoadAll = true) (loads : p.loads = [⟨some 0, false⟩])
      (keyringState : p.state.keyringState = some .ready)
      (answers : Answers) (mem : (.reply 0 (some answers), true) ∈ h)
      (keyring : p.state.keyring = some (loadKeyring isTestChain answers))
      (rendered : p.rendered.keyringState = some .ready → p.rendered.keyring = p.state.keyring)
      (failed : h.any isFailed = false)
  | threw (keyringLoadAll : p.keyringLoadAll = true) (loads : p.loads = [⟨some 0, false⟩])
      (keyringState : p.state.keyringState = some .error)
      (rendered : p.rendered.keyringState ≠ some .ready)
      (loaded : h.any isLoaded = false) (failed : h.any isFailed = true)

namespace Phase

/-- What concerns the load stays as it is. What is rendered anew is the state. -/
theorem frame (hp : Phase isTestChain h p) {e : ProviderEvent Pair × Bool}
    (he : isLoaded e = false ∧ isFailed e = false)
    (hstate : p'.state.keyringState = p.state.keyringState)
    (hkeyring : p'.state.keyring = p.state.keyring) (hall : p'.keyringLoadAll = p.keyringLoadAll)
    (hloads : p'.loads = p.loads) (hrendered : p'.rendered = p.rendered ∨ p'.rendered = p'.state) :
    Phase isTestChain (h ++ [e]) p' := by
  have hloaded : (h ++ [e]).any isLoaded = h.any isLoaded := by simp [he.1]
  have hfailed : (h ++ [e]).any isFailed = h.any isFailed := by simp [he.2]
  have hnot (hs : p.state.keyringState ≠ some .ready) (hr : p.rendered.keyringState ≠ some .ready) :
      p'.rendered.keyringState ≠ some .ready := by
    rcases hrendered with hrendered | hrendered
    · rwa [hrendered]
    · rwa [hrendered, hstate]
  cases hp with
  | waiting ha hl hs hr hd hf =>
    exact .waiting (hall.trans ha) (hloads.trans hl) (hstate.trans hs) (hnot (by simp [hs]) hr)
      (hloaded.trans hd) (hfailed.trans hf)
  | loading ha hl hs hr hd hf =>
    exact .loading (hall.trans ha) (hloads.trans hl) (hstate.trans hs) (hnot (by simp [hs]) hr)
      (hloaded.trans hd) (hfailed.trans hf)
  | done ha hl hs answers hmem hk hr hf =>
    refine .done (hall.trans ha) (hloads.trans hl) (hstate.trans hs) answers
      (List.mem_append_left _ hmem) (hkeyring.trans hk) (fun hready => ?_) (hfailed.trans hf)
    rcases hrendered with hrendered | hrendered
    · rw [hrendered] at hready ⊢
      exact (hr hready).trans hkeyring.symm
    · rw [hrendered]
  | threw ha hl hs hr hd hf =>
    exact .threw (hall.trans ha) (hloads.trans hl) (hstate.trans hs) (hnot (by simp [hs]) hr)
      (hloaded.trans hd) (hfailed.trans hf)

/-- The flag keeps a second load from being started, also by an effect of an old render. -/
theorem effect (hp : Phase isTestChain h p) (hw : Wired socket p) :
    Phase isTestChain (h ++ [(.effect, true)]) p.effect := by
  rw [Provider.effect]
  split
  · rename_i hdue
    cases hp with
    | waiting _ hl _ hr hd hf =>
      refine .loading rfl ?_ rfl hr (by simp [hd, isLoaded]) (by simp [hf, isFailed])
      rw [loadAccounts, hl, (hw.rendered hdue.1).1, List.nil_append]
    | loading ha | done ha | threw ha => cases ha.symm.trans hdue.2.2
  · exact hp.frame ⟨rfl, rfl⟩ rfl rfl rfl rfl (.inl rfl)

/-- A reply that no load waits for. -/
theorem handle_reply_eq {j : Nat} {answers : Option Answers}
    (hj : ∀ api, p.loads[j]? ≠ some ⟨api, true⟩) :
    Provider.handle isTestChain (.reply j answers) p = (false, p) := by
  rw [Provider.handle]
  split
  · rename_i api hload
    exact absurd hload (hj api)
  · rfl

/-- What did not happen changes nothing. -/
theorem ignored (hp : Phase isTestChain h p) (ev : ProviderEvent Pair) :
    Phase isTestChain (h ++ [(ev, false)]) p := by
  refine hp.frame ?_ rfl rfl rfl rfl (.inl rfl)
  cases ev with
  | reply j answers => cases answers <;> exact ⟨rfl, rfl⟩
  | _ => exact ⟨rfl, rfl⟩

theorem reply (hp : Phase isTestChain h p) (j : Nat) (answers : Option Answers) :
    Phase isTestChain
      (h ++ [(.reply j answers, (Provider.handle isTestChain (.reply j answers) p).1)])
      (Provider.handle isTestChain (.reply j answers) p).2 := by
  have hignored (hj : ∀ api, p.loads[j]? ≠ some ⟨api, true⟩) : Phase isTestChain
      (h ++ [(.reply j answers, (Provider.handle isTestChain (.reply j answers) p).1)])
      (Provider.handle isTestChain (.reply j answers) p).2 := by
    rw [handle_reply_eq hj]
    exact hp.ignored _
  cases hp with
  | waiting _ hl => exact hignored (by simp [hl])
  | loading ha hl hs hr hd hf =>
    cases j with
    | zero =>
      cases answers with
      | none =>
        rw [Provider.handle, hl]
        exact .threw ha rfl rfl hr (by simp [hd, isLoaded]) (by simp [isFailed])
      | some answers =>
        rw [Provider.handle, hl]
        exact .done ha rfl rfl answers (by simp) rfl (fun hready => absurd hready hr)
          (by simp [hf, isFailed])
    | succ j => exact hignored (by simp [hl])
  | done _ hl | threw _ hl => exact hignored (by simp [hl, List.getElem?_singleton])

theorem handle (hp : Phase isTestChain h p) (hw : Wired socket p) (ev : ProviderEvent Pair) :
    Phase isTestChain (h ++ [(ev, (Provider.handle isTestChain ev p).1)])
      (Provider.handle isTestChain ev p).2 := by
  cases ev with
  | render =>
    rw [Provider.handle, render, connect]
    split <;> exact hp.frame ⟨rfl, rfl⟩ rfl rfl rfl rfl (.inr rfl)
  | effect => exact hp.effect hw
  | connected | error =>
    rw [Provider.handle]
    split
    · exact hp.frame ⟨rfl, rfl⟩ rfl rfl rfl rfl (.inl rfl)
    · exact hp.ignored _
  | ready | callback =>
    rw [Provider.handle]
    split
    · split
      · exact hp.frame ⟨rfl, rfl⟩ rfl rfl rfl rfl (.inl rfl)
      · exact hp.ignored _
    · exact hp.ignored _
  | reply j answers => exact hp.reply j answers
  | setCurrentAccount => exact hp.frame ⟨rfl, rfl⟩ rfl rfl rfl rfl (.inl rfl)

theorem keyringState_eq_ready_iff (hp : Phase isTestChain h p) :
    p.state.keyringState = some .ready ↔ h.any isLoaded = true := by
  cases hp with
  | waiting _ _ hs _ hd | loading _ _ hs _ hd | threw _ _ hs _ hd => simp [hs, hd]
  | done _ _ hs answers hmem => exact iff_of_true hs (List.any_eq_true.mpr ⟨_, hmem, rfl⟩)

theorem exists_of_rendered (hp : Phase isTestChain h p)
    (hready : p.rendered.keyringState = some .ready) : h.any isFailed = false ∧
      ∃ answers, (.reply 0 (some answers), true) ∈ h ∧
        p.rendered.keyring = some (loadKeyring isTestChain answers) := by
  cases hp with
  | waiting _ _ _ hr | loading _ _ _ hr | threw _ _ _ hr => exact absurd hready hr
  | done _ _ _ answers hmem hk hr hf => exact ⟨hf, answers, hmem, (hr hready).trans hk⟩

end Phase

/-! ## What the API object tells -/

inductive News where
  | connecting
  | ready
  | error (err : ApiError)

def news : ProviderEvent Pair × Bool → Option (News)
  | (.connected _, true) => some .connecting
  | (.ready _, true) | (.callback _, true) => some .ready
  | (.error _ err, true) => some (.error err)
  | _ => none

/-- What the API object has told last. -/
def lastNews (h : List (ProviderEvent Pair × Bool)) : Option (News) :=
  (h.filterMap news).getLast?

/-- The state has what was told last. -/
def Tells (state : State Pair) : Option (News) → Prop
  | none => state.apiState = none ∨ state.apiState = some .connectInit
  | some .connecting => state.apiState = some .connecting
  | some .ready => state.apiState = some .ready
  | some (.error err) => state.apiState = some .error ∧ state.apiError = some err

theorem lastNews_concat {e : ProviderEvent Pair × Bool} :
    lastNews (h ++ [e]) = (news e).or (lastNews h) := by
  rw [lastNews, List.filterMap_append]
  cases he : news e with
  | none => simp [he, lastNews]
  | some n => simp [he]

theorem Tells.frame (ht : Tells p.state (lastNews h)) {e : ProviderEvent Pair × Bool}
    (he : news e = none) (hstate : p'.state.apiState = p.state.apiState)
    (herror : p'.state.apiError = p.state.apiError) : Tells p'.state (lastNews (h ++ [e])) := by
  rw [lastNews_concat, he, Option.none_or]
  cases hlast : lastNews h with
  | none =>
    rw [hlast] at ht
    exact ht.imp hstate.trans hstate.trans
  | some n =>
    rw [hlast] at ht
    cases n with
    | connecting | ready => exact hstate.trans ht
    | error err => exact ⟨hstate.trans ht.1, herror.trans ht.2⟩

theorem Tells.connect (ht : Tells p.state (lastNews h)) :
    Tells p.connect.state (lastNews (h ++ [(.render, true)])) := by
  rw [Provider.connect]
  split
  · exact ht.frame rfl rfl rfl
  · rename_i hnone
    have hnone : p.state.apiState = none := by simpa using hnone
    have hrender : news ((.render, true) : ProviderEvent Pair × Bool) = none := rfl
    rw [lastNews_concat, hrender, Option.none_or]
    cases hlast : lastNews h with
    | none => exact .inr rfl
    | some n =>
      rw [hlast] at ht
      cases n with
      | connecting | ready => cases hnone.symm.trans ht
      | error err => cases hnone.symm.trans ht.1

theorem Tells.ignored (ht : Tells p.state (lastNews h)) (ev : ProviderEvent Pair) :
    Tells p.state (lastNews (h ++ [(ev, false)])) :=
  ht.frame (by cases ev <;> rfl) rfl rfl

theorem Tells.handle (ht : Tells p.state (lastNews h)) (ev : ProviderEvent Pair) :
    Tells (Provider.handle isTestChain ev p).2.state
      (lastNews (h ++ [(ev, (Provider.handle isTestChain ev p).1)])) := by
  cases ev with
  | render => exact ht.connect
  | effect =>
    rw [Provider.handle, effect]
    split <;> exact ht.frame rfl rfl rfl
  | connected i =>
    rw [Provider.handle]
    split
    · rw [lastNews_concat]
      exact rfl
    · exact ht.ignored _
  | ready i | callback i =>
    rw [Provider.handle]
    split
    · split
      · rw [lastNews_concat]
        exact rfl
      · exact ht.ignored _
    · exact ht.ignored _
  | error i err =>
    rw [Provider.handle]
    split
    · rw [lastNews_concat]
      exact ⟨rfl, rfl⟩
    · exact ht.ignored _
  | reply j answers =>
    rw [Provider.handle]
    split
    · split <;> exact ht.frame rfl rfl rfl
    · exact ht.ignored _
  | setCurrentAccount acct => exact ht.frame rfl rfl rfl

/-- What `Main` should show: the socket of an error that was told last, the pages once the accounts
are there, and else what is waited for. It can show nothing of an error that is about no socket. -/
def expected (h : List (ProviderEvent Pair × Bool)) : Option View :=
  match lastNews h with
  | some (.error err) => err.target.map .connectionFailed
  | some .ready => some (if h.any isLoaded then .pages else .loadingAccounts)
  | _ => some .connecting

theorem main_eq_expected (hp : Phase isTestChain h p) (ht : Tells p.state (lastNews h)) :
    main p.state = expected h := by
  rw [expected]
  cases hlast : lastNews h with
  | none =>
    rw [hlast] at ht
    rcases ht with ht | ht <;> simp [main, ht]
  | some n =>
    rw [hlast] at ht
    cases n with
    | connecting =>
      have ht : p.state.apiState = some .connecting := ht
      simp [main, ht]
    | ready =>
      have ht : p.state.apiState = some .ready := ht
      have hiff := hp.keyringState_eq_ready_iff
      rw [main, ht]
      by_cases hready : p.state.keyringState = some .ready
      · simp [hready, hiff.mp hready]
      · simp [hready, mt hiff.mpr hready]
    | error err => simp [main, ht.1, ht.2]

/-! ## The tree -/

/-- What holds of the context after every run. A tree is unmounted where `Main` cannot show the
state. -/
structure Sound (isTestChain : String → Bool) (socket : String)
    (h : List (ProviderEvent Pair × Bool)) (p : Provider Pair) : Prop where
  wired : Wired socket p
  phase : Phase isTestChain h p
  tells : Tells p.state (lastNews h)
  isUnmounted : p.isUnmounted = true → main p.state = none

/-- Only a render unmounts the tree. -/
theorem eq_render_of_isUnmounted {ev : ProviderEvent Pair} (hmounted : p.isUnmounted = false)
    (hunmounted : (Provider.handle isTestChain ev p).2.isUnmounted = true) : ev = .render := by
  cases ev with
  | render => rfl
  | setCurrentAccount => cases hmounted.symm.trans hunmounted
  | effect =>
    rw [Provider.handle, effect] at hunmounted
    split at hunmounted <;> cases hmounted.symm.trans hunmounted
  | connected | error =>
    rw [Provider.handle] at hunmounted
    split at hunmounted <;> cases hmounted.symm.trans hunmounted
  | ready | callback | reply =>
    rw [Provider.handle] at hunmounted
    split at hunmounted
    · split at hunmounted <;> cases hmounted.symm.trans hunmounted
    · cases hmounted.symm.trans hunmounted

theorem isUnmounted_render : p.render.isUnmounted = true ↔ main p.render.state = none :=
  Option.isNone_iff_eq_none

theorem Sound.step (hs : Sound isTestChain socket h p) (ev : ProviderEvent Pair) :
    Sound isTestChain socket (h ++ [(ev, (Provider.step isTestChain ev p).1)])
      (Provider.step isTestChain ev p).2 := by
  rw [Provider.step]
  split
  · exact ⟨hs.wired, hs.phase.ignored ev, hs.tells.ignored ev, hs.isUnmounted⟩
  · rename_i hmounted
    refine ⟨hs.wired.handle ev, hs.phase.handle hs.wired ev, hs.tells.handle ev, fun h => ?_⟩
    cases eq_render_of_isUnmounted (by simpa using hmounted) h
    exact isUnmounted_render.mp h

theorem main_connect : main p.connect.state = main p.state := by
  rw [connect]
  split
  · rfl
  · rename_i hnone
    have hnone : p.state.apiState = none := by simpa using hnone
    simp [main, dispatch, reducer, hnone]

/-- A render unmounts the tree, or finds it unmounted, iff there is nothing to show. -/
theorem Sound.isUnmounted_render_iff (hs : Sound isTestChain socket h p) :
    (Provider.step isTestChain .render p).2.isUnmounted = true ↔ expected h = none := by
  rw [← main_eq_expected hs.phase hs.tells, Provider.step]
  split
  · rename_i hunmounted
    exact iff_of_true hunmounted (hs.isUnmounted hunmounted)
  · exact isUnmounted_render.trans (by rw [render, main_connect])

theorem Sound.screen_render (hs : Sound isTestChain socket h p) :
    (Provider.step isTestChain .render p).2.screen = expected h := by
  rw [screen]
  split
  · rename_i hunmounted
    exact (hs.isUnmounted_render_iff.mp hunmounted).symm
  · rename_i hmounted
    have hp : p.isUnmounted = false := by
      by_contra hp
      rw [Provider.step, if_pos (by simpa using hp)] at hmounted
      exact hp (by simpa using hmounted)
    rw [Provider.step, if_neg (by simp [hp]), ← main_eq_expected hs.phase hs.tells]
    exact main_connect

/-- A tree that is unmounted stays so. -/
theorem finalState_of_isUnmounted (hp : p.isUnmounted = true) (evs : List (ProviderEvent Pair)) :
    finalState (Provider.step isTestChain) p evs = p := by
  refine finalState_induction (P := (· = p)) rfl (fun q ev hq => ?_) evs
  rw [hq, Provider.step, if_pos hp]

/-! ## Runs -/

section
variable (isTestChain : String → Bool) (rpc prop : Option String) (providerSocket : String)
  (evs : List (ProviderEvent Pair))

/-- The context after the events. -/
abbrev provider : Provider Pair :=
  finalState (step isTestChain) (mount (initialState rpc prop providerSocket)) evs

/-- The events, and which of them happened. -/
abbrev happened : List (ProviderEvent Pair × Bool) :=
  trace (step isTestChain) (mount (initialState rpc prop providerSocket)) evs

theorem sound_run : Sound isTestChain (prop.getD (connectedSocket rpc providerSocket))
    (happened isTestChain rpc prop providerSocket evs)
    (provider isTestChain rpc prop providerSocket evs) := by
  refine trace_induction (P := Sound isTestChain _) ?_ (fun h p ev hs => hs.step ev) evs
  exact ⟨.mount rfl rfl, .waiting rfl rfl rfl nofun rfl rfl, .inl rfl, nofun⟩

/-- Every render shows what is expected of the history before it. Where that is nothing, nothing is
shown from then on. -/
theorem provider_main :
    (provider isTestChain rpc prop providerSocket (evs ++ [.render])).screen =
        expected (happened isTestChain rpc prop providerSocket evs) ∧
      (expected (happened isTestChain rpc prop providerSocket evs) = none →
        ∀ evs', (provider isTestChain rpc prop providerSocket
          (evs ++ [.render] ++ evs')).screen = none) := by
  have hs := sound_run isTestChain rpc prop providerSocket evs
  constructor
  · rw [provider, finalState_concat]
    exact hs.screen_render
  · intro hnone evs'
    have hunmounted := hs.isUnmounted_render_iff.mpr hnone
    rw [provider, finalState_append, finalState_concat, finalState_of_isUnmounted hunmounted,
      screen, if_pos hunmounted]

end

/-- There is one API object, for the socket, and one load, which asks it. While it is connected a
callback waits for it. The pages come with an API object that is ready and a keyring that was
loaded. -/
structure WellServed (isTestChain : String → Bool) (socket : String)
    (h : List (ProviderEvent Pair × Bool)) (p : Provider Pair) : Prop where
  sockets : p.apis.map ApiPromise.socket <+: [socket]
  loads : p.loads.map Load.api <+: [some 0]
  callbacks : p.state.apiState = some .connecting → ∃ api ∈ p.apis, 0 < api.callbacks
  pages : p.screen = some .pages → ∃ i api j answers, p.rendered.api = some i ∧
    p.apis[i]? = some api ∧ api.isReady = true ∧ (.reply j (some answers), true) ∈ h ∧
    p.rendered.keyring = some (loadKeyring isTestChain answers)

theorem main_eq_pages_iff : main state = some .pages ↔
    state.apiState = some .ready ∧ state.keyringState = some .ready := by
  rw [main]
  split
  · rename_i herror
    refine iff_of_false (fun hmain => ?_) (by simp [herror])
    obtain ⟨url, _, hview⟩ := Option.map_eq_some_iff.mp hmain
    cases hview
  · split
    · simp_all [View.connecting]
    · split <;> simp_all [View.loadingAccounts]

theorem screen_eq_pages_iff : p.screen = some .pages ↔ p.isUnmounted = false ∧
    p.rendered.apiState = some .ready ∧ p.rendered.keyringState = some .ready := by
  rw [screen, ← main_eq_pages_iff]
  cases p.isUnmounted <;> simp

theorem Sound.wellServed (hs : Sound isTestChain socket h p) :
    WellServed isTestChain socket h p where
  sockets := by
    rcases hs.wired.apis with ⟨hapis, _⟩ | ⟨api, hapis, hlinked⟩
    · simp [hapis]
    · simp [hapis, hlinked.api_socket]
  loads := by
    cases hs.phase with
    | waiting _ hl | loading _ hl | done _ hl | threw _ hl => simp [hl]
  callbacks hstate := by
    rcases hs.wired.apis with ⟨_, hnone⟩ | ⟨api, hapis, hlinked⟩
    · cases hnone.symm.trans hstate
    · exact ⟨api, by simp [hapis], hlinked.callbacks hstate⟩
  pages hpages := by
    obtain ⟨_, hready, hkeyring⟩ := screen_eq_pages_iff.mp hpages
    obtain ⟨hapi, api, hapis, hisReady⟩ := hs.wired.rendered hready
    obtain ⟨_, answers, hmem, hk⟩ := hs.phase.exists_of_rendered hkeyring
    exact ⟨0, api, 0, answers, hapi, by simp [hapis], hisReady, hmem, hk⟩

/-! ## The way to the pages -/

/-- The API object is connected, again or for the first time, and then it is ready. Nothing is
rendered before, unless there is no API object yet. -/
theorem exists_ready (isTestChain : String → Bool) (hw : Wired socket p)
    (hmounted : p.isUnmounted = false) : ∃ evs : List (ProviderEvent Pair),
      (finalState (step isTestChain) p evs).state.apiState = some .ready ∧
        (finalState (step isTestChain) p evs).isUnmounted = false ∧
        ∀ e ∈ trace (step isTestChain) p evs, isFailed e = false := by
  rcases hw.apis with ⟨hnil, hnone⟩ | ⟨api, hapis, _⟩
  · refine ⟨[.render, .connected 0, .ready 0], ?_⟩
    simp [finalState, trace, step, handle, render, connect, main, dispatch, reducer, isFailed,
      hmounted, hnil, hnone]
  · refine ⟨[.connected 0, .ready 0, .callback 0], ?_⟩
    cases hready : api.isReady <;>
      simp [finalState, trace, step, handle, dispatch, reducer, isFailed, hmounted, hapis, hready]

/-- A load is started where there was none, and answered. -/
theorem exists_pages (hs : Sound isTestChain socket h p) (hready : p.state.apiState = some .ready)
    (hmounted : p.isUnmounted = false) (hfailed : h.any isFailed = false) :
    ∃ evs : List (ProviderEvent Pair),
      (finalState (step isTestChain) p evs).screen = some .pages := by
  refine ⟨[.render, .effect, .reply 0 (some ⟨[], "", none⟩), .render], screen_eq_pages_iff.mpr ?_⟩
  obtain ⟨hapi, _⟩ := hs.wired.payload hready
  cases hs.phase with
  | waiting ha hl hk =>
    simp [finalState, step, handle, hmounted, effect, hready, hapi, ha, hl, hk,
      loadAccounts, dispatch, reducer, render, connect, main]
  | loading ha hl | done ha hl hk =>
    simp_all [finalState, step, handle, effect, dispatch, reducer, render, connect, main]
  | threw _ _ _ _ _ hf => cases hf.symm.trans hfailed

section
variable (isTestChain : String → Bool) (rpc prop : Option String) (providerSocket : String)
  (evs : List (ProviderEvent Pair))

/-- After every run the context is opened and loaded once, and nothing is shown without what it
needs. -/
theorem provider_wellServed :
    WellServed isTestChain (prop.getD (connectedSocket rpc providerSocket))
      (happened isTestChain rpc prop providerSocket evs)
      (provider isTestChain rpc prop providerSocket evs) :=
  (sound_run isTestChain rpc prop providerSocket evs).wellServed

/-- The tree is there as long as each render has something to show. -/
theorem isUnmounted_provider_iff :
    (provider isTestChain rpc prop providerSocket evs).isUnmounted = false ↔
      ∀ pre, pre ++ [.render] <+: evs →
        expected (happened isTestChain rpc prop providerSocket pre) ≠ none := by
  constructor
  · rintro hmounted pre ⟨evs', rfl⟩ hnone
    have hs := sound_run isTestChain rpc prop providerSocket pre
    have hunmounted := hs.isUnmounted_render_iff.mpr hnone
    rw [provider, finalState_append, finalState_concat, finalState_of_isUnmounted hunmounted,
      hunmounted] at hmounted
    cases hmounted
  · intro h
    induction evs using List.reverseRecOn with
    | nil => rfl
    | append_singleton evs ev ih =>
      have hs := sound_run isTestChain rpc prop providerSocket evs
      have hmounted := ih fun pre hpre => h pre (hpre.trans (List.prefix_append ..))
      by_contra hunmounted
      rw [provider, finalState_concat, step, if_neg (by simp [hmounted])] at hunmounted
      cases eq_render_of_isUnmounted hmounted (by simpa using hunmounted)
      refine h evs List.prefix_rfl (hs.isUnmounted_render_iff.mp ?_)
      rw [step, if_neg (by simp [hmounted])]
      simpa using hunmounted

/-- From the state after a run the pages can still be reached iff no load of the accounts has
failed in it, and each of its renders had something to show. -/
theorem provider_reaches_pages_iff :
    (∃ evs', (provider isTestChain rpc prop providerSocket (evs ++ evs')).screen = some .pages) ↔
      (∀ e ∈ happened isTestChain rpc prop providerSocket evs, isFailed e = false) ∧
        ∀ pre, pre ++ [.render] <+: evs →
          expected (happened isTestChain rpc prop providerSocket pre) ≠ none := by
  have hs := sound_run isTestChain rpc prop providerSocket evs
  constructor
  · rintro ⟨evs', hpages⟩
    have hs' := sound_run isTestChain rpc prop providerSocket (evs ++ evs')
    obtain ⟨hmounted, _, hkeyring⟩ := screen_eq_pages_iff.mp hpages
    obtain ⟨hfailed, _⟩ := hs'.phase.exists_of_rendered hkeyring
    refine ⟨fun e he => ?_, fun pre hpre => ?_⟩
    · -- the one load was answered, so it has not failed before
      have hmem : e ∈ happened isTestChain rpc prop providerSocket (evs ++ evs') := by
        rw [happened, trace_append]
        exact List.mem_append_left _ he
      simpa using List.any_eq_false.mp hfailed e hmem
    · have hrenders := (isUnmounted_provider_iff isTestChain rpc prop providerSocket _).mp hmounted
      exact hrenders pre (hpre.trans (List.prefix_append ..))
  · rintro ⟨hfailed, hrenders⟩
    have hmounted := (isUnmounted_provider_iff isTestChain rpc prop providerSocket evs).mpr hrenders
    obtain ⟨evs₁, hready, hmounted₁, htrace⟩ := exists_ready isTestChain hs.wired hmounted
    have hs₁ := sound_run isTestChain rpc prop providerSocket (evs ++ evs₁)
    rw [← finalState_append] at hready hmounted₁
    obtain ⟨evs₂, hpages⟩ := exists_pages hs₁ hready hmounted₁ <| by
      rw [List.any_eq_false, happened, trace_append]
      intro e he
      rcases List.mem_append.mp he with he | he
      · simpa using hfailed e he
      · simpa using htrace e he
    refine ⟨evs₁ ++ evs₂, ?_⟩
    rwa [← List.append_assoc, provider, finalState_append]

end

end Provider

end Votechain.Client.Substrate
