import Votechain.Theory.History

/-!
# Runs of a deterministic machine

`step c s` is the answer of a machine in state `s` to the input `c`, with the next state.
`finalState` and `trace` run a list of inputs; the trace pairs each input with its answer.

`Always` says that a property holds in every state of a run, `EachStep` that every step of it
meets a condition. The exactness rule `always_iff_eachStep` compares the two: where each step
keeps the property if and only if it meets the condition, so does every run.
-/

namespace Machine

variable {S C R : Type} (step : C → S → R × S)

/-- The state after a list of inputs. -/
def finalState : S → List C → S
  | s, [] => s
  | s, c :: cs => finalState (step c s).2 cs

/-- The inputs with the answers they got. -/
def trace : S → List C → List (C × R)
  | _, [] => []
  | s, c :: cs => (c, (step c s).1) :: trace (step c s).2 cs

/-- `P` holds in every state of the run, the first and the last included. -/
def Always (P : S → Prop) (s : S) (cs : List C) : Prop :=
  ∀ pre, pre <+: cs → P (finalState step s pre)

/-- Every step of the run meets `G`, a condition on the state before it and on its input. -/
def EachStep (G : S → C → Prop) (s : S) (cs : List C) : Prop :=
  ∀ pre c, pre ++ [c] <+: cs → G (finalState step s pre) c

variable {step} {s : S} {c : C} {cs cs' : List C}

@[simp] theorem finalState_nil : finalState step s [] = s := rfl

@[simp] theorem trace_nil : trace step s [] = [] := rfl

theorem finalState_append :
    finalState step s (cs ++ cs') = finalState step (finalState step s cs) cs' := by
  induction cs generalizing s with
  | nil => rfl
  | cons c cs ih => exact ih

theorem trace_append :
    trace step s (cs ++ cs') = trace step s cs ++ trace step (finalState step s cs) cs' := by
  induction cs generalizing s with
  | nil => rfl
  | cons c cs ih => exact congrArg _ ih

@[simp] theorem finalState_concat :
    finalState step s (cs ++ [c]) = (step c (finalState step s cs)).2 :=
  finalState_append

@[simp] theorem trace_concat :
    trace step s (cs ++ [c]) = trace step s cs ++ [(c, (step c (finalState step s cs)).1)] :=
  trace_append

theorem getElem?_trace {i : Nat} : (trace step s cs)[i]? =
    cs[i]?.map fun c => (c, (step c (finalState step s (cs.take i))).1) := by
  induction cs generalizing s i with
  | nil => rfl
  | cons c cs ih =>
    cases i with
    | zero => rfl
    | succ i => simpa [trace, finalState] using ih

/-! ## Invariants -/

/-- A property that holds at the start and is kept by every step holds after every run. -/
theorem finalState_induction {P : S → Prop} (start : P s)
    (next : ∀ s c, P s → P (step c s).2) (cs : List C) : P (finalState step s cs) := by
  induction cs using List.reverseRecOn with
  | nil => exact start
  | append_singleton cs c ih => rw [finalState_concat]; exact next _ _ ih

/-- The same rule for a property that links the history to the state. -/
theorem trace_induction {P : List (C × R) → S → Prop} (start : P [] s)
    (next : ∀ h s c, P h s → P (h ++ [(c, (step c s).1)]) (step c s).2) (cs : List C) :
    P (trace step s cs) (finalState step s cs) := by
  induction cs using List.reverseRecOn with
  | nil => exact start
  | append_singleton cs c ih => rw [finalState_concat, trace_concat]; exact next _ _ _ ih

/-- What every step relates to the state before it, a run relates to all states before. -/
theorem rel_of_prefix {r : S → S → Prop} (refl : ∀ s, r s s)
    (trans : ∀ s t u, r s t → r t u → r s u) (next : ∀ s c, r s (step c s).2) {pre : List C}
    (h : pre <+: cs) : r (finalState step s pre) (finalState step s cs) := by
  induction cs using List.reverseRecOn with
  | nil => rw [List.prefix_nil.mp h]; exact refl _
  | append_singleton cs c ih =>
    rcases List.prefix_concat_iff.mp h with rfl | h
    · exact refl _
    · rw [finalState_concat]
      exact trans _ _ _ (ih h) (next _ c)

/-- An answer in the trace was given after some part of the run. -/
theorem mem_trace {p : C × R} (h : p ∈ trace step s cs) :
    ∃ pre, pre ++ [p.1] <+: cs ∧ p.2 = (step p.1 (finalState step s pre)).1 := by
  induction cs using List.reverseRecOn with
  | nil => simp at h
  | append_singleton cs c ih =>
    rw [trace_concat] at h
    rcases List.mem_append.mp h with h | h
    · obtain ⟨pre, hpre, hp⟩ := ih h
      exact ⟨pre, hpre.trans (List.prefix_append ..), hp⟩
    · cases List.mem_singleton.mp h
      exact ⟨cs, List.prefix_rfl, rfl⟩

theorem mem_trace_of_concat {pre : List C} (h : pre ++ [c] <+: cs) :
    (c, (step c (finalState step s pre)).1) ∈ trace step s cs := by
  obtain ⟨rest, rfl⟩ := h
  rw [trace_append, trace_concat]
  exact List.mem_append_left _ (List.mem_append_right _ (List.mem_singleton_self _))

/-! ## Properties of every state of a run -/

variable {P : S → Prop} {G : S → C → Prop}

theorem Always.last (h : Always step P s cs) : P (finalState step s cs) := h cs List.prefix_rfl

theorem always_nil : Always step P s [] ↔ P s := by
  simp [Always]

theorem always_concat :
    Always step P s (cs ++ [c]) ↔ Always step P s cs ∧ P (finalState step s (cs ++ [c])) := by
  simp only [Always, List.prefix_concat_iff]
  constructor
  · exact fun h => ⟨fun pre hpre => h pre (.inr hpre), h _ (.inl rfl)⟩
  · rintro ⟨h, hlast⟩ pre (rfl | hpre)
    · exact hlast
    · exact h pre hpre

theorem eachStep_nil : EachStep step G s [] := History.each_nil

theorem eachStep_concat :
    EachStep step G s (cs ++ [c]) ↔ EachStep step G s cs ∧ G (finalState step s cs) c :=
  History.each_concat

theorem eachStep_cons :
    EachStep step G s (c :: cs) ↔ G s c ∧ EachStep step G (step c s).2 cs := by
  constructor
  · intro h
    refine ⟨h [] c ⟨cs, rfl⟩, fun pre c' hpre => h (c :: pre) c' ?_⟩
    exact List.cons_prefix_cons.mpr ⟨rfl, hpre⟩
  · rintro ⟨hc, h⟩ pre c' hpre
    cases pre with
    | nil => cases (List.cons_prefix_cons.mp hpre).1; exact hc
    | cons d pre =>
      obtain ⟨rfl, hrest⟩ := List.cons_prefix_cons.mp hpre
      exact h pre c' hrest

/-- Stepping through the run decides a condition that each step decides. -/
instance decidableEachStep [∀ s c, Decidable (G s c)] :
    (s : S) → (cs : List C) → Decidable (EachStep step G s cs)
  | _, [] => .isTrue eachStep_nil
  | s, c :: cs =>
    have := decidableEachStep (step c s).2 cs
    decidable_of_iff (G s c ∧ EachStep step G (step c s).2 cs) eachStep_cons.symm

/-- A condition on the inputs alone. -/
theorem eachStep_const {G : C → Prop} :
    EachStep step (fun _ c => G c) s cs ↔ ∀ c ∈ cs, G c := by
  induction cs using List.reverseRecOn with
  | nil => simp [eachStep_nil]
  | append_singleton cs c ih => simp [eachStep_concat, ih, or_imp, forall_and]

/-- `trace_induction` for a run whose steps meet a condition. -/
theorem EachStep.trace_induction {P : List (C × R) → S → Prop} (hG : EachStep step G s cs)
    (start : P [] s)
    (next : ∀ h s c, G s c → P h s → P (h ++ [(c, (step c s).1)]) (step c s).2) :
    P (trace step s cs) (finalState step s cs) := by
  induction cs using List.reverseRecOn with
  | nil => exact start
  | append_singleton cs c ih =>
    obtain ⟨hG, hc⟩ := eachStep_concat.mp hG
    rw [finalState_concat, trace_concat]
    exact next _ _ _ hc (ih hG)

/-- The exactness rule. In the states of the run `P` is kept by exactly the steps that meet `G`,
so `P` holds throughout the run if and only if every step of it meets `G`. -/
theorem always_iff_eachStep (start : P s)
    (next : ∀ pre c, pre ++ [c] <+: cs → P (finalState step s pre) →
      (P (step c (finalState step s pre)).2 ↔ G (finalState step s pre) c)) :
    Always step P s cs ↔ EachStep step G s cs := by
  induction cs using List.reverseRecOn with
  | nil => simp [always_nil, eachStep_nil, start]
  | append_singleton cs c ih =>
    have ih := ih fun pre c' hpre => next pre c' (hpre.trans (List.prefix_append ..))
    rw [always_concat, eachStep_concat, ← ih, finalState_concat]
    exact and_congr_right fun h => next cs c List.prefix_rfl h.last

/-- The exactness rule with an invariant `J` that implies `P` and is kept by the steps that meet
`G`. -/
theorem always_iff_eachStep_of_invariant {J : S → Prop} (hP : ∀ s, J s → P s) (start : J s)
    (keeps : ∀ s c, J s → G s c → J (step c s).2)
    (needs : ∀ s c, J s → P (step c s).2 → G s c) :
    Always step P s cs ↔ EachStep step G s cs := by
  have invariant {cs : List C} (h : EachStep step G s cs) : J (finalState step s cs) := by
    induction cs using List.reverseRecOn with
    | nil => exact start
    | append_singleton cs c ih =>
      obtain ⟨h, hc⟩ := eachStep_concat.mp h
      rw [finalState_concat]
      exact keeps _ _ (ih h) hc
  constructor
  · intro h
    induction cs using List.reverseRecOn with
    | nil => exact eachStep_nil
    | append_singleton cs c ih =>
      obtain ⟨h, hlast⟩ := always_concat.mp h
      rw [finalState_concat] at hlast
      have hcs := ih h
      exact eachStep_concat.mpr ⟨hcs, needs _ _ (invariant hcs) hlast⟩
  · exact fun h pre hpre => hP _ (invariant fun pre' c hpre' => h pre' c (hpre'.trans hpre))

end Machine
