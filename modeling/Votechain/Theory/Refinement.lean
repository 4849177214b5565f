import Votechain.Theory.Run

/-!
# Refinement between deterministic machines

A machine refines a more abstract one along a run if related states stay related and the answers
correspond. `input` says what a call of the machine means for the abstract one. A call that means
nothing there is invisible: it must keep the states related, and its answer is not compared.

The exactness rule `refines_iff_eachStep` is the one for runs that must follow the abstract
machine step by step.
-/

namespace Machine

variable {S S' C C' R R' : Type}

section
variable (step : C → S → R × S) (step' : C' → S' → R' × S') (rel : S → S' → Prop)
  (input : C → Option C') (answer : R → R')

/-- The answers to the visible calls of a history. -/
def visible (h : List (C × R)) : List (C' × R') :=
  h.filterMap fun p => (input p.1).map fun c' => (c', answer p.2)

/-- The abstract machine follows one step of the machine. -/
def Follows (s : S) (t : S') (c : C) : Prop :=
  match input c with
  | none => rel (step c s).2 t
  | some c' => answer (step c s).1 = (step' c' t).1 ∧ rel (step c s).2 (step' c' t).2

/-- All along the run the states are related, and the answers to visible calls correspond. -/
structure Refines (s : S) (t : S') (cs : List C) : Prop where
  states : ∀ pre, pre <+: cs →
    rel (finalState step s pre) (finalState step' t (pre.filterMap input))
  answers : visible input answer (trace step s cs) = trace step' t (cs.filterMap input)

end

variable {step : C → S → R × S} {step' : C' → S' → R' × S'} {rel : S → S' → Prop}
  {input : C → Option C'} {answer : R → R'} {s : S} {t : S'} {cs : List C} {c : C}

theorem follows_of_none (hc : input c = none) :
    Follows step step' rel input answer s t c ↔ rel (step c s).2 t := by
  rw [Follows, hc]

theorem follows_of_some {c' : C'} (hc : input c = some c') :
    Follows step step' rel input answer s t c ↔
      answer (step c s).1 = (step' c' t).1 ∧ rel (step c s).2 (step' c' t).2 := by
  rw [Follows, hc]

theorem visible_concat_of_none {h : List (C × R)} {r : R} (hc : input c = none) :
    visible input answer (h ++ [(c, r)]) = visible input answer h := by
  simp [visible, hc]

theorem visible_concat_of_some {h : List (C × R)} {r : R} {c' : C'} (hc : input c = some c') :
    visible input answer (h ++ [(c, r)]) = visible input answer h ++ [(c', answer r)] := by
  simp [visible, hc]

theorem mem_visible {h : List (C × R)} {c' : C'} {r' : R'} :
    (c', r') ∈ visible input answer h ↔ ∃ p ∈ h, input p.1 = some c' ∧ answer p.2 = r' := by
  simp [visible]

/-- The state that the abstract machine has reached after a visible or an invisible call. -/
theorem finalState_filterMap_concat :
    finalState step' t ((cs ++ [c]).filterMap input) =
      match input c with
      | none => finalState step' t (cs.filterMap input)
      | some c' => (step' c' (finalState step' t (cs.filterMap input))).2 := by
  rw [List.filterMap_append]
  cases hc : input c with
  | none => simp [hc]
  | some c' => simp [hc]

namespace Refines

theorem rel_finalState (h : Refines step step' rel input answer s t cs) :
    rel (finalState step s cs) (finalState step' t (cs.filterMap input)) :=
  h.states cs List.prefix_rfl

theorem nil (h : rel s t) : Refines step step' rel input answer s t [] where
  states pre hpre := by rw [List.prefix_nil.mp hpre]; exact h
  answers := rfl

/-- The abstract machine follows a run and one more step iff it follows the run and then the
step. -/
theorem concat_iff : Refines step step' rel input answer s t (cs ++ [c]) ↔
    Refines step step' rel input answer s t cs ∧
      Follows step step' rel input answer (finalState step s cs)
        (finalState step' t (cs.filterMap input)) c := by
  constructor
  · intro h
    have hlast := h.rel_finalState
    have hanswers := h.answers
    rw [finalState_concat, finalState_filterMap_concat] at hlast
    rw [trace_concat, List.filterMap_append] at hanswers
    have hstates := fun pre (hpre : pre <+: cs) =>
      h.states pre (hpre.trans (List.prefix_append cs [c]))
    cases hc : input c with
    | none =>
      rw [visible_concat_of_none hc] at hanswers
      simp only [List.filterMap_cons, hc, List.filterMap_nil, List.append_nil] at hanswers
      refine ⟨⟨hstates, hanswers⟩, ?_⟩
      rw [follows_of_none hc]
      simpa [hc] using hlast
    | some c' =>
      rw [visible_concat_of_some hc] at hanswers
      simp only [List.filterMap_cons, hc, List.filterMap_nil, trace_concat] at hanswers
      obtain ⟨hanswers, hr⟩ := List.append_inj' hanswers rfl
      refine ⟨⟨hstates, hanswers⟩, ?_⟩
      rw [follows_of_some hc]
      exact ⟨(Prod.mk.inj (List.singleton_inj.mp hr)).2, by simpa [hc] using hlast⟩
  · rintro ⟨h, hc⟩
    refine ⟨fun pre hpre => ?_, ?_⟩
    · rcases List.prefix_concat_iff.mp hpre with rfl | hpre
      · rw [finalState_concat, finalState_filterMap_concat]
        cases hin : input c with
        | none => exact (follows_of_none hin).mp hc
        | some c' => exact ((follows_of_some hin).mp hc).2
      · exact h.states pre hpre
    · rw [trace_concat, List.filterMap_append]
      cases hin : input c with
      | none => simp [visible_concat_of_none hin, hin, h.answers]
      | some c' =>
        have hanswer := ((follows_of_some hin).mp hc).1
        simp [visible_concat_of_some hin, hin, h.answers, trace_append, trace, hanswer]

end Refines

/-- The exactness rule. Where the abstract machine follows exactly the steps that meet `G`, the run
refines it if and only if every step of the run meets `G`. -/
theorem refines_iff_eachStep {G : S → C → Prop} (start : rel s t)
    (next : ∀ pre c t, pre ++ [c] <+: cs → rel (finalState step s pre) t →
      (Follows step step' rel input answer (finalState step s pre) t c ↔
        G (finalState step s pre) c)) :
    Refines step step' rel input answer s t cs ↔ EachStep step G s cs := by
  induction cs using List.reverseRecOn with
  | nil => exact iff_of_true (.nil start) eachStep_nil
  | append_singleton cs c ih =>
    have ih := ih fun pre c' t hpre => next pre c' t (hpre.trans (List.prefix_append ..))
    rw [Refines.concat_iff, eachStep_concat, ← ih]
    exact and_congr_right fun h => next cs c _ List.prefix_rfl h.rel_finalState

/-! ## Renaming inputs -/

/-- Two machines that give the same answers, one to the inputs of a run and the other to the renamed
inputs. -/
structure KeepsUp (step : C → S → R × S) (step' : C' → S' → R × S') (rel : S → S' → Prop)
    (f : C → C') (s : S) (t : S') (cs : List C) : Prop where
  state : rel (finalState step s cs) (finalState step' t (cs.map f))
  answers : trace step' t (cs.map f) = (trace step s cs).map (Prod.map f id)

theorem keepsUp_of_steps {step' : C' → S' → R × S'} {f : C → C'} (start : rel s t)
    (next : ∀ pre c, pre ++ [c] <+: cs →
      rel (finalState step s pre) (finalState step' t (pre.map f)) →
        (step' (f c) (finalState step' t (pre.map f))).1 = (step c (finalState step s pre)).1 ∧
        rel (step c (finalState step s pre)).2 (step' (f c) (finalState step' t (pre.map f))).2) :
    KeepsUp step step' rel f s t cs := by
  induction cs using List.reverseRecOn with
  | nil => exact ⟨start, rfl⟩
  | append_singleton cs c ih =>
    obtain ⟨hstate, hanswers⟩ :=
      ih fun pre c' hpre => next pre c' (hpre.trans (List.prefix_append ..))
    obtain ⟨hanswer, hrel⟩ := next cs c List.prefix_rfl hstate
    have hmap : (cs ++ [c]).map f = cs.map f ++ [f c] := List.map_append
    constructor
    · rw [hmap, finalState_concat, finalState_concat]
      exact hrel
    · rw [hmap, trace_concat, trace_concat, hanswers, hanswer, List.map_append]
      rfl

end Machine
