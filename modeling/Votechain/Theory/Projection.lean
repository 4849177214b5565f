import Votechain.Theory.Run

/-!
# The part of a run that concerns one observer

An observer sees some inputs of a machine and, of its states, what `sim` compares. If an unseen
input leaves what the observer sees, and a seen one is answered and changes it in the same way
wherever the observer sees the same, then the run looks to the observer as if the unseen inputs had
never been given.
-/

namespace Machine

variable {S C R : Type} {step : C → S → R × S} {sim : S → S → Prop} {seen : C → Prop}
  [DecidablePred seen] {s t : S} {cs : List C}

/-- The run and the run of its seen inputs alone look the same to the observer. -/
structure Projects (step : C → S → R × S) (sim : S → S → Prop) (seen : C → Prop)
    [DecidablePred seen] (s t : S) (cs : List C) : Prop where
  state : sim (finalState step s cs) (finalState step t (cs.filter seen))
  answers : (trace step s cs).filter (fun p => seen p.1) = trace step t (cs.filter seen)

/-- The unwinding rule. -/
theorem projects_of_steps (start : sim s t)
    (unseen : ∀ pre c, pre ++ [c] <+: cs → ¬ seen c →
      sim (finalState step s pre) (finalState step t (pre.filter seen)) →
        sim (step c (finalState step s pre)).2 (finalState step t (pre.filter seen)))
    (next : ∀ pre c, pre ++ [c] <+: cs → seen c →
      sim (finalState step s pre) (finalState step t (pre.filter seen)) →
        (step c (finalState step s pre)).1 = (step c (finalState step t (pre.filter seen))).1 ∧
        sim (step c (finalState step s pre)).2
          (step c (finalState step t (pre.filter seen))).2) :
    Projects step sim seen s t cs := by
  induction cs using List.reverseRecOn with
  | nil => exact ⟨start, rfl⟩
  | append_singleton cs c ih =>
    have hpre : cs <+: cs ++ [c] := List.prefix_append cs [c]
    obtain ⟨hstate, hanswers⟩ := ih (fun pre c' h => unseen pre c' (h.trans hpre))
      (fun pre c' h => next pre c' (h.trans hpre))
    by_cases hc : seen c
    · obtain ⟨hanswer, hsim⟩ := next cs c List.prefix_rfl hc hstate
      have hfilter : (cs ++ [c]).filter seen = cs.filter seen ++ [c] := by simp [hc]
      constructor
      · rw [hfilter, finalState_concat, finalState_concat]
        exact hsim
      · rw [hfilter, trace_concat, trace_concat, List.filter_append, hanswers, hanswer]
        simp [hc]
    · have hfilter : (cs ++ [c]).filter seen = cs.filter seen := by simp [hc]
      constructor
      · rw [hfilter, finalState_concat]
        exact unseen cs c List.prefix_rfl hc hstate
      · rw [hfilter, trace_concat, List.filter_append, hanswers]
        simp [hc]

end Machine
