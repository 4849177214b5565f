import Votechain.Client.TxButton
import Votechain.Theory.Run
import Mathlib.Logic.Function.Basic

/-!
# The status of a transaction

A press of `TxButton` sends its call and then watches it, and each news of the call sets the status
that the form shows. The state `unsub` is for the function that ends the watching of the call
before. The types that go through `sudo` do not wait for this function, and keep the promise of it
instead. A form may have several buttons for its one status, and may change the type of a button or
replace it; each button has an `unsub` of its own.
-/

open Machine

namespace Votechain.Client.TxButton

/-! ## Texts -/

inductive ExtrinsicStatus where
  | finalized (blockHash : String)
  | inProgress (type : String)

def txResHandler : ExtrinsicStatus → String
  | .finalized blockHash => "😉 Finalized. Block hash: " ++ blockHash
  | .inProgress type => "Current transaction status: " ++ type

def txErrHandler (err : String) : String := "😞 Transaction Failed: " ++ err

def queryResHandler (result : Option String) : String := result.getD "None"

/-- What a call tells while it is watched. -/
inductive Result where
  | tx (status : ExtrinsicStatus)
  | query (result : Option String)

def Result.text : Result → String
  | .tx status => txResHandler status
  | .query result => queryResHandler result

/-! ## The buttons -/

/-- What the state `unsub` holds, with the press that it is of. Only a function is called. -/
inductive Unsub where
  | null
  | promise (press : Nat)
  | function (press : Nat)
  deriving DecidableEq

/-- The call of a press waits for the signer, has been sent, is watched since `unsub` was given, or
has ended. -/
inductive Phase where
  | preparing
  | sent
  | watched
  | ended
  deriving DecidableEq

namespace TxType

/-- How far the call of a press is at once. -/
def firstPhase : TxType → Phase
  | .constant => .ended
  | _ => .preparing

def firstStatus (constant : Option String) : TxType → String
  | .constant => queryResHandler constant
  | _ => "Sending..."

/-- The types that catch the error of the call. -/
def isTx : TxType → Bool
  | .signedTx | .unsignedTx | .sudoTx | .uncheckedSudoTx => true
  | _ => false

/-- The types that wait for the function that ends the watching. -/
def isAwaited : TxType → Bool
  | .sudoTx | .uncheckedSudoTx => false
  | _ => true

end TxType

/-- The call of a press, with the button and the type that it had then. -/
structure Call (Slot : Type) where
  slot : Slot
  type : TxType
  phase : Phase

/-- The buttons of a form and its status, which is shown together with its press. The calls are
those of the presses so far. -/
structure Buttons (Slot : Type) where
  unsub : Slot → Unsub
  status : Option (Nat × String)
  calls : List (Call Slot)

/-- A press of an enabled button; the call of a press is sent, comes back, fails, tells something or
has told everything. A button that is replaced is not pressed any more. -/
inductive ButtonEvent (Slot : Type) where
  | press (slot : Slot) (type : TxType) (constant : Option String)
  | send (k : Nat)
  | resolve (k : Nat)
  | fail (k : Nat) (err : String)
  | update (k : Nat) (result : Result)
  | complete (k : Nat)

namespace Buttons

variable {Slot : Type} [DecidableEq Slot]

def start : Buttons Slot := ⟨fun _ => .null, none, []⟩

omit [DecidableEq Slot] in
/-- The call of a press enters a phase. -/
def enter (k : Nat) (phase : Phase) (b : Buttons Slot) : Buttons Slot :=
  { b with calls := b.calls.modify k fun call => { call with phase } }

/-- The watching that `unsub` of the button can end ends. -/
def unsubscribe (slot : Slot) (b : Buttons Slot) : Buttons Slot :=
  match b.unsub slot with
  | .function k => { b.enter k .ended with unsub := Function.update b.unsub slot .null }
  | _ => b

omit [DecidableEq Slot] in
/-- A call is made. -/
def transaction (slot : Slot) (type : TxType) (constant : Option String) (b : Buttons Slot) :
    Buttons Slot :=
  { b with
    status := some (b.calls.length, type.firstStatus constant)
    calls := b.calls ++ [⟨slot, type, type.firstPhase⟩] }

/-- The event happens, or it cannot happen and is answered with `false`. What fails before it is
sent says nothing. -/
def step : ButtonEvent Slot → Buttons Slot → Bool × Buttons Slot
  | .press slot type constant, b => (true, (b.unsubscribe slot).transaction slot type constant)
  | .send k, b =>
    match b.calls[k]? with
    | some ⟨slot, type, .preparing⟩ =>
      (true, { b.enter k .sent with
        unsub := if type.isAwaited then b.unsub else Function.update b.unsub slot (.promise k) })
    | _ => (false, b)
  | .resolve k, b =>
    match b.calls[k]? with
    | some ⟨slot, type, .sent⟩ =>
      (true, { b.enter k .watched with
        unsub := if type.isAwaited then Function.update b.unsub slot (.function k) else b.unsub })
    | _ => (false, b)
  | .fail k err, b =>
    match b.calls[k]? with
    | some ⟨_, _, .preparing⟩ => (true, b.enter k .ended)
    | some ⟨slot, type, .sent⟩ =>
      if type.isTx then
        (true, { b.enter k .ended with
          unsub := if type.isAwaited then Function.update b.unsub slot .null else b.unsub
          status := some (k, txErrHandler err) })
      else
        (true, b.enter k .ended)
    | _ => (false, b)
  | .update k result, b =>
    match b.calls[k]? with
    | some ⟨_, _, .sent⟩ | some ⟨_, _, .watched⟩ =>
      (true, { b with status := some (k, result.text) })
    | _ => (false, b)
  | .complete k, b =>
    match b.calls[k]? with
    | some ⟨_, _, .watched⟩ => (true, b.enter k .ended)
    | _ => (false, b)

/-! ## Only the last call is watched -/

/-- The status is of the last press, and every call before has ended, so that it cannot set the
status any more. -/
structure ShowsLast (b : Buttons Slot) : Prop where
  ended : ∀ k call, b.calls[k]? = some call → call.phase ≠ .ended → k + 1 = b.calls.length
  status : ∀ k text, b.status = some (k, text) → k + 1 = b.calls.length

/-- A press comes when the call before has ended, or when it is watched and is of the same button,
which has the function that ends this. -/
def Settled (b : Buttons Slot) : ButtonEvent Slot → Prop
  | .press slot _ _ => ∀ call ∈ b.calls.getLast?, call.phase = .ended ∨
    call.phase = .watched ∧ call.type.isAwaited = true ∧ call.slot = slot
  | _ => True

/-- What `unsub` holds: a function is for a call of its button that came back, and a call that is
watched has its function there, if its type waits for that. -/
structure WatchesLast (b : Buttons Slot) : Prop extends ShowsLast b where
  unsub_of_watched : ∀ k call, b.calls[k]? = some call → call.phase = .watched →
    call.type.isAwaited = true → b.unsub call.slot = .function k
  resolved : ∀ slot k, b.unsub slot = .function k → ∃ call, b.calls[k]? = some call ∧
    call.slot = slot ∧ call.type.isAwaited = true ∧ (call.phase = .watched ∨ call.phase = .ended)

variable {b : Buttons Slot} {k : Nat} {call : Call Slot} {phase : Phase}

section
omit [DecidableEq Slot]

theorem length_enter : (b.enter k phase).calls.length = b.calls.length := List.length_modify ..

theorem getElem?_enter (j : Nat) : (b.enter k phase).calls[j]? =
    b.calls[j]?.map fun call => if k = j then { call with phase } else call := by
  rw [enter, List.getElem?_modify]
  rfl

/-- A call that is there afterwards was there, and has its new phase or is another one. -/
theorem exists_of_enter {j : Nat} {call' : Call Slot}
    (h : (b.enter k phase).calls[j]? = some call') :
    ∃ call, b.calls[j]? = some call ∧ call'.slot = call.slot ∧ call'.type = call.type ∧
      (k = j ∧ call'.phase = phase ∨ k ≠ j ∧ call'.phase = call.phase) := by
  rw [getElem?_enter] at h
  obtain ⟨call, hcall, rfl⟩ := Option.map_eq_some_iff.mp h
  refine ⟨call, hcall, ?_⟩
  by_cases hk : k = j <;> simp [hk]

namespace WatchesLast

theorem start : WatchesLast (⟨fun _ => .null, none, []⟩ : Buttons Slot) :=
  ⟨⟨nofun, nofun⟩, nofun, nofun⟩

/-- The last call goes on. -/
theorem enter (h : WatchesLast b) (hk : b.calls[k]? = some call) (hlast : k + 1 = b.calls.length)
    {unsub : Slot → Unsub} {status : Option (Nat × String)}
    (hstatus : ∀ j text, status = some (j, text) → j + 1 = b.calls.length)
    (hwatched : phase = .watched → call.type.isAwaited = true → unsub call.slot = .function k)
    (hunsub : ∀ slot j, unsub slot = .function j → k ≠ j ∧ b.unsub slot = .function j ∨
      k = j ∧ call.slot = slot ∧ call.type.isAwaited = true ∧
        (phase = .watched ∨ phase = .ended)) :
    WatchesLast { b.enter k phase with unsub, status } where
  ended j call' hj hne := by
    rw [length_enter]
    obtain ⟨old, hold, _, _, ⟨rfl, _⟩ | ⟨_, hphase⟩⟩ := exists_of_enter hj
    · exact hlast
    · exact h.ended j old hold (hphase ▸ hne)
  status j text hj := by
    rw [length_enter]
    exact hstatus j text hj
  unsub_of_watched j call' hj hphase hawaited := by
    obtain ⟨old, hold, hslot, htype, ⟨rfl, hphase'⟩ | ⟨hne, hphase'⟩⟩ := exists_of_enter hj
    · cases hk.symm.trans hold
      rw [hslot]
      exact hwatched (hphase'.symm.trans hphase) (htype ▸ hawaited)
    · -- another call has ended
      have := h.ended j old hold (by rw [← hphase', hphase]; exact nofun)
      omega
  resolved slot j hj := by
    rw [getElem?_enter]
    rcases hunsub slot j hj with ⟨hne, hj⟩ | ⟨rfl, hslot, hawaited, hphase⟩
    · obtain ⟨old, hold, hrest⟩ := h.resolved slot j hj
      exact ⟨old, by rw [hold, Option.map_some, if_neg hne], hrest⟩
    · exact ⟨{ call with phase }, by rw [hk, Option.map_some, if_pos rfl], hslot, hawaited, hphase⟩

/-- No function is for a call that has not come back. -/
theorem not_function (h : WatchesLast b) (hk : b.calls[k]? = some call)
    (hphase : call.phase ≠ .ended) (hne : call.phase ≠ .watched) {slot : Slot} {j : Nat}
    (hj : b.unsub slot = .function j) : k ≠ j := by
  rintro rfl
  obtain ⟨call', hk', _, _, hresolved⟩ := h.resolved slot k hj
  cases hk.symm.trans hk'
  exact hresolved.elim hne hphase

theorem getLast? (h : WatchesLast b) (hk : b.calls[k]? = some call) (hne : call.phase ≠ .ended) :
    b.calls.getLast? = some call := by
  have hlast := h.ended k call hk hne
  rw [List.getLast?_eq_getElem?, ← hlast, Nat.add_sub_cancel, hk]

end WatchesLast

end

/-! ### A press -/

variable {slot : Slot} {type : TxType} {constant : Option String}

/-- Where `unsub` of the button has a function, its call ends, and nothing else happens. -/
theorem getElem?_unsubscribe (slot : Slot) (j : Nat) : (b.unsubscribe slot).calls[j]? =
    b.calls[j]?.map fun call =>
      if b.unsub slot = .function j then { call with phase := .ended } else call := by
  rw [unsubscribe]
  split
  · rename_i k hk
    rw [hk]
    simp only [Unsub.function.injEq]
    exact getElem?_enter j
  · rename_i hnone
    have hne : b.unsub slot ≠ .function j := hnone j
    simp [hne]

theorem length_unsubscribe (slot : Slot) : (b.unsubscribe slot).calls.length = b.calls.length := by
  rw [unsubscribe]
  split
  · exact length_enter
  · rfl

theorem unsub_unsubscribe {slot slot' : Slot} {k : Nat}
    (h : (b.unsubscribe slot).unsub slot' = .function k) :
    slot' ≠ slot ∧ b.unsub slot' = .function k := by
  rw [unsubscribe] at h
  split at h
  · by_cases hs : slot' = slot
    · subst hs
      simp at h
    · exact ⟨hs, by simpa [hs] using h⟩
  · rename_i hnone
    exact ⟨fun hs => hnone k (hs ▸ h), h⟩

/-- After `unsub` all calls have ended exactly if the press is settled. -/
theorem WatchesLast.forall_ended_iff (h : WatchesLast b) :
    (∀ call ∈ (b.unsubscribe slot).calls, call.phase = .ended) ↔
      Settled b (.press slot type constant) := by
  constructor
  · intro hended call hcall
    rw [List.getLast?_eq_getElem?] at hcall
    have hcall' := getElem?_unsubscribe (b := b) slot (b.calls.length - 1)
    rw [Option.mem_def.mp hcall, Option.map_some] at hcall'
    have hphase := hended _ (List.mem_of_getElem? hcall')
    split at hphase
    · rename_i hfun
      obtain ⟨call', hk, hslot, hawaited, hresolved⟩ := h.resolved slot _ hfun
      cases hcall.symm.trans hk
      exact hresolved.symm.imp_right fun hwatched => ⟨hwatched, hawaited, hslot⟩
    · exact .inl hphase
  · intro hsettled call hmem
    obtain ⟨j, hj⟩ := List.mem_iff_getElem?.mp hmem
    rw [getElem?_unsubscribe] at hj
    obtain ⟨old, hold, rfl⟩ := Option.map_eq_some_iff.mp hj
    by_contra hne
    -- it would be the last one, which is watched by the button
    split at hne
    · exact hne rfl
    · rename_i hfun
      rcases hsettled old (h.getLast? hold hne) with hphase | ⟨hwatched, hawaited, rfl⟩
      · exact hne hphase
      · exact hfun (h.unsub_of_watched j old hold hwatched hawaited)

omit [DecidableEq Slot] in
/-- A call is made while others may not have ended. -/
theorem forall_ended_of_showsLast (h : ShowsLast (b.transaction slot type constant)) :
    ∀ call ∈ b.calls, call.phase = .ended := by
  intro call hmem
  obtain ⟨k, hk⟩ := List.mem_iff_getElem?.mp hmem
  have hlt := (List.getElem?_eq_some_iff.mp hk).1
  by_contra hne
  have hlast := h.ended k call (by rw [transaction, List.getElem?_append_left hlt, hk]) hne
  rw [transaction, List.length_append, List.length_singleton] at hlast
  omega

/-- A settled press makes its call the only one that goes on. -/
theorem WatchesLast.press (h : WatchesLast b) (hev : Settled b (.press slot type constant)) :
    WatchesLast ((b.unsubscribe slot).transaction slot type constant) := by
  have hended := h.forall_ended_iff.mpr hev
  have hlast (k : Nat) (call : Call Slot)
      (hk : ((b.unsubscribe slot).calls ++ [⟨slot, type, type.firstPhase⟩])[k]? = some call)
      (hne : call.phase ≠ .ended) :
      k = (b.unsubscribe slot).calls.length ∧ call = ⟨slot, type, type.firstPhase⟩ := by
    rw [List.getElem?_append] at hk
    split at hk
    · exact absurd (hended call (List.mem_of_getElem? hk)) hne
    · rw [List.getElem?_singleton] at hk
      split at hk
      · exact ⟨by omega, (Option.some.inj hk).symm⟩
      · cases hk
  refine ⟨⟨fun k call hk hne => ?_, fun k text hk => ?_⟩, fun k call hk hw _ => ?_,
    fun slot' k hk => ?_⟩
  · rw [transaction, List.length_append, (hlast k call hk hne).1, List.length_singleton]
  · cases hk
    rw [transaction, List.length_append, List.length_singleton]
  · -- a call that was just made is not watched
    obtain ⟨_, rfl⟩ := hlast k call hk (by rw [hw]; exact nofun)
    cases type <;> cases hw
  · obtain ⟨_, hk⟩ := unsub_unsubscribe hk
    obtain ⟨call, hcall, hslot, hawaited, _⟩ := h.resolved slot' k hk
    have hlt := (List.getElem?_eq_some_iff.mp hcall).1
    have hcall' := getElem?_unsubscribe (b := b) slot k
    rw [hcall, Option.map_some] at hcall'
    refine ⟨_, ?_, ?_, ?_, .inr (hended _ (List.mem_of_getElem? hcall'))⟩
    · rw [transaction, List.getElem?_append_left (by rwa [length_unsubscribe]), hcall']
    · split <;> exact hslot
    · split <;> exact hawaited

/-! ### Runs -/

theorem WatchesLast.step (h : WatchesLast b) {ev : ButtonEvent Slot} (hev : Settled b ev) :
    WatchesLast (Buttons.step ev b).2 := by
  cases ev with
  | press slot type constant => exact h.press hev
  | send k =>
    rw [Buttons.step]
    split
    · rename_i slot type hk
      refine h.enter hk (h.ended k _ hk nofun) h.status nofun fun slot' j hj => .inl ?_
      split at hj
      · exact ⟨h.not_function hk nofun nofun hj, hj⟩
      · rw [Function.update_apply] at hj
        split at hj
        · cases hj
        · exact ⟨h.not_function hk nofun nofun hj, hj⟩
    · exact h
  | resolve k =>
    rw [Buttons.step]
    split
    · rename_i slot type hk
      refine h.enter hk (h.ended k _ hk nofun) h.status (fun _ ha => ?_) fun slot' j hj => ?_
      · rw [if_pos ha, Function.update_self]
      · split at hj
        · rename_i hawaited
          rw [Function.update_apply] at hj
          split at hj
          · rename_i hslot
            cases hj
            exact .inr ⟨rfl, hslot.symm, hawaited, .inl rfl⟩
          · exact .inl ⟨h.not_function hk nofun nofun hj, hj⟩
        · exact .inl ⟨h.not_function hk nofun nofun hj, hj⟩
    · exact h
  | fail k err =>
    rw [Buttons.step]
    split
    · rename_i hk
      exact h.enter hk (h.ended k _ hk nofun) h.status nofun fun slot' j hj =>
        .inl ⟨h.not_function hk nofun nofun hj, hj⟩
    · rename_i slot type hk
      have hlast := h.ended k _ hk nofun
      split
      · refine h.enter hk hlast (fun j text hj => ?_) nofun fun slot' j hj => .inl ?_
        · cases hj
          exact hlast
        · split at hj
          · rw [Function.update_apply] at hj
            split at hj
            · cases hj
            · exact ⟨h.not_function hk nofun nofun hj, hj⟩
          · exact ⟨h.not_function hk nofun nofun hj, hj⟩
      · exact h.enter hk hlast h.status nofun fun slot' j hj =>
          .inl ⟨h.not_function hk nofun nofun hj, hj⟩
    · exact h
  | update k result =>
    rw [Buttons.step]
    split
    · rename_i hk
      refine ⟨⟨h.ended, fun j text hj => ?_⟩, h.unsub_of_watched, h.resolved⟩
      cases hj
      exact h.ended k _ hk nofun
    · rename_i hk
      refine ⟨⟨h.ended, fun j text hj => ?_⟩, h.unsub_of_watched, h.resolved⟩
      cases hj
      exact h.ended k _ hk nofun
    · exact h
  | complete k =>
    rw [Buttons.step]
    split
    · rename_i slot type hk
      refine h.enter hk (h.ended k _ hk nofun) h.status nofun fun slot' j hj => ?_
      by_cases hkj : k = j
      · subst hkj
        obtain ⟨call, hcall, hslot, hawaited, _⟩ := h.resolved slot' k hj
        cases hk.symm.trans hcall
        exact .inr ⟨rfl, hslot, hawaited, .inr rfl⟩
      · exact .inl ⟨hkj, hj⟩
    · exact h

/-- However the buttons of a form are pressed, changed and replaced, the status is of the last press
and no call before can set it any more, throughout exactly the runs in which every press finds the
call before ended, or watched by the same button with a type that waits for its function. -/
theorem buttons_showsLast_iff (evs : List (ButtonEvent Slot)) :
    Always step ShowsLast (start : Buttons Slot) evs ↔
      EachStep step Settled (start : Buttons Slot) evs := by
  refine always_iff_eachStep_of_invariant (J := WatchesLast) (fun _ h => h.toShowsLast) .start
    (fun _ _ h hev => h.step hev) fun b ev h hnext => ?_
  cases ev with
  | press slot type constant => exact h.forall_ended_iff.mp (forall_ended_of_showsLast hnext)
  | _ => trivial

end Buttons

end Votechain.Client.TxButton
