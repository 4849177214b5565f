import Votechain.Theory.History
import Mathlib.Logic.Equiv.Defs
import Mathlib.Order.Fin.Basic
import Mathlib.Data.List.Nodup

/-!
# Rearrangements that keep the order within each key

A rearrangement of a list gives every element a new position. Where elements of one key keep their
order, an element is the first of its key after the rearrangement iff it was before, so the first
elements of the keys are the same up to order.
-/

namespace History

variable {α κ : Type}

/-- The positions in `l'` of the elements of `l`. Elements of one key keep their order. -/
structure Rearrangement (key : α → κ) (l l' : List α) where
  pos : Fin l.length ≃ Fin l'.length
  get_pos : ∀ i, l'.get (pos i) = l.get i
  mono : ∀ i j, i < j → key (l.get i) = key (l.get j) → pos i < pos j

variable {key : α → κ} {l l' : List α} {x : α}

theorem mem_take_iff {i : Fin l.length} : x ∈ l.take i ↔ ∃ j < i, l.get j = x := by
  rw [List.mem_take_iff_getElem]
  constructor
  · rintro ⟨j, hj, hx⟩
    have hlt : j < l.length := by omega
    exact ⟨⟨j, hlt⟩, by simp only [Fin.lt_def]; omega, hx⟩
  · rintro ⟨j, hj, hx⟩
    have hlt := j.isLt
    exact ⟨j, by simp only [Fin.lt_def] at hj; omega, hx⟩

namespace Rearrangement

theorem pos_lt_iff (ρ : Rearrangement key l l') {i j : Fin l.length}
    (h : key (l.get i) = key (l.get j)) : ρ.pos i < ρ.pos j ↔ i < j := by
  refine ⟨fun hlt => ?_, fun hlt => ρ.mono i j hlt h⟩
  rcases lt_trichotomy i j with hij | rfl | hji
  · exact hij
  · exact absurd hlt (lt_irrefl _)
  · exact absurd hlt (lt_asymm (ρ.mono j i hji h.symm))

def symm (ρ : Rearrangement key l l') : Rearrangement key l' l where
  pos := ρ.pos.symm
  get_pos i := by rw [← ρ.get_pos, Equiv.apply_symm_apply]
  mono i j hij h := by
    rw [← ρ.pos.apply_symm_apply i, ← ρ.pos.apply_symm_apply j, ρ.get_pos, ρ.get_pos] at h
    rw [← ρ.pos_lt_iff h, Equiv.apply_symm_apply, Equiv.apply_symm_apply]
    exact hij

/-- An element comes after one of its key iff it did before. -/
theorem exists_mem_take_iff (ρ : Rearrangement key l l') (i : Fin l.length) :
    (∃ y ∈ l'.take (ρ.pos i), key y = key (l.get i)) ↔ ∃ y ∈ l.take i, key y = key (l.get i) := by
  constructor
  · rintro ⟨y, hy, hk⟩
    obtain ⟨j, hj, rfl⟩ := mem_take_iff.mp hy
    obtain ⟨j, rfl⟩ := ρ.pos.surjective j
    rw [ρ.get_pos] at hk
    exact ⟨l.get j, mem_take_iff.mpr ⟨j, (ρ.pos_lt_iff hk).mp hj, rfl⟩, hk⟩
  · rintro ⟨y, hy, hk⟩
    obtain ⟨j, hj, rfl⟩ := mem_take_iff.mp hy
    exact ⟨l.get j, mem_take_iff.mpr ⟨ρ.pos j, ρ.mono j i hj hk, ρ.get_pos j⟩, hk⟩

end Rearrangement

variable [DecidableEq κ]

theorem mem_firstPer_iff_split : x ∈ firstPer key l ↔
    ∃ pre post, l = pre ++ x :: post ∧ ¬ ∃ y ∈ pre, key y = key x := by
  induction l using List.reverseRecOn with
  | nil => simp
  | append_singleton l z ih =>
    have hmem : x ∈ firstPer key (l ++ [z]) ↔
        x ∈ firstPer key l ∨ x = z ∧ ¬ ∃ y ∈ l, key y = key z := by
      rw [firstPer_concat]
      split <;> simp_all
    rw [hmem, ih]
    constructor
    · rintro (⟨pre, post, rfl, h⟩ | ⟨rfl, h⟩)
      · exact ⟨pre, post ++ [z], by simp, h⟩
      · exact ⟨l, [], rfl, h⟩
    · rintro ⟨pre, post, hl, h⟩
      rcases concat_eq_append_cons_iff.mp hl with ⟨rfl, rfl, rfl⟩ | ⟨post, rfl, rfl⟩
      · exact .inr ⟨rfl, h⟩
      · exact .inl ⟨pre, post, rfl, h⟩

theorem mem_firstPer_iff : x ∈ firstPer key l ↔
    ∃ i : Fin l.length, l.get i = x ∧ ¬ ∃ y ∈ l.take i, key y = key x := by
  rw [mem_firstPer_iff_split]
  constructor
  · rintro ⟨pre, post, rfl, h⟩
    exact ⟨⟨pre.length, by simp⟩, by simp, by simpa using h⟩
  · rintro ⟨i, rfl, h⟩
    exact ⟨l.take i, l.drop (i + 1), by simp, h⟩

theorem nodup_firstPer : (firstPer key l).Nodup := by
  induction l using List.reverseRecOn with
  | nil => exact List.nodup_nil
  | append_singleton l x ih =>
    rw [firstPer_concat]
    split
    · exact ih
    · rename_i h
      refine ih.append (List.nodup_singleton x) ?_
      intro y hy hyx
      cases List.mem_singleton.mp hyx
      exact h ⟨x, firstPer_subset hy, rfl⟩

/-- The first elements of the keys are the same up to order. -/
theorem Rearrangement.firstPer_perm (ρ : Rearrangement key l l') :
    (firstPer key l).Perm (firstPer key l') := by
  have hsub {l l' : List α} (ρ : Rearrangement key l l') :
      ∀ x ∈ firstPer key l, x ∈ firstPer key l' := by
    intro x hx
    obtain ⟨i, rfl, hfirst⟩ := mem_firstPer_iff.mp hx
    exact mem_firstPer_iff.mpr ⟨ρ.pos i, ρ.get_pos i, mt (ρ.exists_mem_take_iff i).mp hfirst⟩
  exact (List.perm_ext_iff_of_nodup nodup_firstPer nodup_firstPer).mpr fun x =>
    ⟨hsub ρ x, hsub ρ.symm x⟩

end History
