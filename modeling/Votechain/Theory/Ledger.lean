import Votechain.Theory.Run
import Votechain.Theory.StorageMap
import Mathlib.Algebra.BigOperators.Group.Finset.Basic

/-!
# Books of a run

`total` adds up a measure of the values of a storage map. `spent` adds up what the steps of a run
take away. The ledger rule `value_add_spent` balances the two against the entries of the history: it
holds for every run if each step books what it adds and what it takes away.
-/

namespace Frame.StorageMap

variable {K V : Type} [DecidableEq K]

/-- The sum of the measure `f` over the values of the map. -/
def total (f : V → Nat) (m : StorageMap K V) : Nat := ∑ k ∈ m.keys, (m.get k).elim 0 f

variable {m : StorageMap K V} {f : V → Nat} {k : K} {v : V}

@[simp] theorem total_empty : (∅ : StorageMap K V).total f = 0 := rfl

theorem elim_get_eq_zero (h : k ∉ m.keys) : (m.get k).elim 0 f = 0 := by
  rw [mem_keys, Option.not_isSome_iff_eq_none] at h
  rw [h]
  rfl

/-- Keys without a value add nothing. -/
theorem total_eq_sum {ks : Finset K} (h : m.keys ⊆ ks) :
    m.total f = ∑ k ∈ ks, (m.get k).elim 0 f :=
  Finset.sum_subset h fun _ _ hk => elim_get_eq_zero hk

/-- An insertion adds the new value and takes the old one away. -/
theorem total_insert : (m.insert k v).total f + (m.get k).elim 0 f = m.total f + f v := by
  have hkeys : (m.insert k v).keys ⊆ Insert.insert k m.keys := by
    intro k' hk'
    rw [mem_keys, isSome_get_insert, Bool.or_eq_true, decide_eq_true_eq] at hk'
    exact Finset.mem_insert.mpr (hk'.imp_right mem_keys.mpr)
  rw [total_eq_sum hkeys, total_eq_sum (Finset.subset_insert k m.keys),
    ← Finset.add_sum_erase _ _ (Finset.mem_insert_self k m.keys),
    ← Finset.add_sum_erase _ (fun k => (m.get k).elim 0 f) (Finset.mem_insert_self k m.keys)]
  have hrest : ∑ k' ∈ (Insert.insert k m.keys).erase k, ((m.insert k v).get k').elim 0 f =
      ∑ k' ∈ (Insert.insert k m.keys).erase k, (m.get k').elim 0 f := by
    refine Finset.sum_congr rfl fun k' hk' => ?_
    rw [get_insert_of_ne (Finset.ne_of_mem_erase hk')]
  rw [hrest, get_insert_self]
  simp only [Option.elim_some]
  omega

theorem total_adjust {g : V → V} (h : m.get k = some v) :
    (m.adjust k g).total f + f v = m.total f + f (g v) := by
  have hinsert := total_insert (m := m) (k := k) (v := g v) (f := f)
  rw [h, Option.elim_some] at hinsert
  rwa [adjust_of_get h]

/-- A list of the map grows by one. -/
theorem total_adjust_concat {m : StorageMap K (List V)} {l : List V} (h : m.get k = some l) :
    (m.adjust k (· ++ [v])).total List.length = m.total List.length + 1 := by
  have hadjust := total_adjust (f := List.length) (g := (· ++ [v])) h
  rw [List.length_append, List.length_singleton] at hadjust
  omega

end Frame.StorageMap

namespace Machine

variable {S C R : Type} (step : C → S → R × S)

/-- The sum of what the steps of the run take away. -/
def spent (debit : S → C → Nat) : S → List C → Nat
  | _, [] => 0
  | s, c :: cs => debit s c + spent debit (step c s).2 cs

variable {step} {debit : S → C → Nat} {credit : C × R → Bool} {s : S} {c : C}
  {cs : List C}

theorem spent_concat : spent step debit s (cs ++ [c]) =
    spent step debit s cs + debit (finalState step s cs) c := by
  induction cs generalizing s with
  | nil => simp [spent]
  | cons c' cs ih => simp [spent, ih, finalState, Nat.add_assoc]

theorem spent_eq_zero_iff :
    spent step debit s cs = 0 ↔ EachStep step (fun s c => debit s c = 0) s cs := by
  induction cs generalizing s with
  | nil => exact iff_of_true rfl eachStep_nil
  | cons c cs ih => rw [spent, Nat.add_eq_zero_iff, ih, eachStep_cons]

/-- The ledger rule. -/
theorem value_add_spent (value : S → Nat) (s : S) (cs : List C)
    (next : ∀ s c, value (step c s).2 + debit s c =
      value s + (if credit (c, (step c s).1) then 1 else 0)) :
    value (finalState step s cs) + spent step debit s cs =
      value s + (trace step s cs).countP credit := by
  induction cs using List.reverseRecOn with
  | nil => simp [spent]
  | append_singleton cs c ih =>
    have hnext := next (finalState step s cs) c
    rw [finalState_concat, spent_concat, trace_concat, List.countP_append, List.countP_singleton]
    omega

end Machine
