import Mathlib.Data.List.DropRight

/-!
# Trimming and splitting

`trim p` removes the elements at both ends for which `p` holds. Splitting at a separator that is
not removed and then trimming the pieces gives the same as trimming before and after, so what is
typed with blanks around the separators is read as the trimmed pieces.
-/

namespace Text

variable {α : Type} {p : α → Bool} {l l' : List α} {x : α}

def trim (p : α → Bool) (l : List α) : List α := (l.dropWhile p).rdropWhile p

@[simp] theorem trim_nil : trim p [] = [] := rfl

/-- Dropping at the end of a list that starts with `x`. -/
theorem rdropWhile_cons : (x :: l).rdropWhile p =
    if l.rdropWhile p = [] then [x].rdropWhile p else x :: l.rdropWhile p := by
  induction l using List.reverseRecOn with
  | nil => rfl
  | append_singleton l y ih =>
    rw [← List.cons_append, List.rdropWhile_concat, List.rdropWhile_concat]
    split
    · exact ih
    · rw [if_neg (by simp), List.cons_append]

theorem rdropWhile_cons_of_neg (h : p x = false) :
    (x :: l).rdropWhile p = x :: l.rdropWhile p := by
  rw [rdropWhile_cons, List.rdropWhile_singleton, h]
  split
  · rename_i hl
    simp [hl]
  · rfl

/-- Both ends are dropped in any order. -/
theorem dropWhile_rdropWhile : (l.rdropWhile p).dropWhile p = trim p l := by
  rw [trim]
  induction l with
  | nil => rfl
  | cons x l ih =>
    cases hx : p x with
    | false => rw [rdropWhile_cons_of_neg hx, List.dropWhile_cons_of_neg (by simp [hx]),
        List.dropWhile_cons_of_neg (by simp [hx]), rdropWhile_cons_of_neg hx]
    | true =>
      rw [List.dropWhile_cons_of_pos hx, ← ih, rdropWhile_cons]
      split
      · rename_i hl
        rw [List.rdropWhile_singleton, if_pos hx, hl]
      · rw [List.dropWhile_cons_of_pos hx]

/-- Nothing is left iff everything is removed. -/
theorem trim_eq_nil_iff : trim p l = [] ↔ ∀ x ∈ l, p x = true := by
  rw [trim, List.rdropWhile_eq_nil_iff, ← List.dropWhile_eq_nil_iff, List.dropWhile_idempotent,
    List.dropWhile_eq_nil_iff]

theorem trim_eq_self (h : ∀ x ∈ l, p x = false) : trim p l = l := by
  have hstart : l.dropWhile p = l := by
    cases l with
    | nil => rfl
    | cons x l => rw [List.dropWhile_cons_of_neg (by simp [h x List.mem_cons_self])]
  rw [trim, hstart, List.rdropWhile_eq_self_iff]
  intro hl
  simp [h _ (List.getLast_mem hl)]

/-! ## Splitting -/

/-- What is dropped at the end of a piece does not depend on what was dropped there before. -/
theorem map_rdropWhile_modifyHead {ls ls' : List (List α)}
    (h : ls.map (List.rdropWhile p) = ls'.map (List.rdropWhile p)) :
    (ls.modifyHead (x :: ·)).map (List.rdropWhile p) =
      (ls'.modifyHead (x :: ·)).map (List.rdropWhile p) := by
  cases ls with
  | nil =>
    cases ls' with
    | nil => rfl
    | cons l' ls' => cases h
  | cons l ls =>
    cases ls' with
    | nil => cases h
    | cons l' ls' =>
      obtain ⟨hl, hls⟩ := List.cons.inj h
      rw [List.modifyHead_cons, List.modifyHead_cons, List.map_cons, List.map_cons,
        rdropWhile_cons, hl, ← rdropWhile_cons, hls]

variable [DecidableEq α] {sep : α}

theorem map_dropWhile_splitOn (hsep : p sep = false) :
    ((l.dropWhile p).splitOn sep).map (List.dropWhile p) =
      (l.splitOn sep).map (List.dropWhile p) := by
  induction l with
  | nil => rfl
  | cons x l ih =>
    cases hx : p x with
    | false => rw [List.dropWhile_cons_of_neg (by simp [hx])]
    | true =>
      have hne : x ≠ sep := fun h => by simp [h, hsep] at hx
      rw [List.dropWhile_cons_of_pos hx, ih, List.splitOn_cons_eq_if_modifyHead,
        if_neg (by simpa using hne)]
      cases l.splitOn sep with
      | nil => rfl
      | cons h t => rw [List.modifyHead_cons, List.map_cons, List.map_cons,
          List.dropWhile_cons_of_pos hx]

theorem map_rdropWhile_splitOn (hsep : p sep = false) :
    ((l.rdropWhile p).splitOn sep).map (List.rdropWhile p) =
      (l.splitOn sep).map (List.rdropWhile p) := by
  induction l with
  | nil => rfl
  | cons x l ih =>
    by_cases hx : x = sep
    · subst hx
      rw [rdropWhile_cons_of_neg hsep, List.splitOn_cons_eq_if_modifyHead, if_pos (by simp),
        List.splitOn_cons_eq_if_modifyHead, if_pos (by simp), List.map_cons, List.map_cons, ih]
    · have hcons (l : List α) : (x :: l).splitOn sep = (l.splitOn sep).modifyHead (x :: ·) := by
        rw [List.splitOn_cons_eq_if_modifyHead, if_neg (by simpa using hx)]
      rw [hcons l, ← map_rdropWhile_modifyHead ih, rdropWhile_cons]
      split
      · rename_i hl
        rw [hl, List.rdropWhile_singleton]
        split
        · rename_i hpx
          simp [hpx]
        · rw [hcons]
      · rw [hcons]

/-- Trimming before a list is split makes no difference to the trimmed pieces. -/
theorem map_trim_splitOn_trim (hsep : p sep = false) :
    ((trim p l).splitOn sep).map (trim p) = (l.splitOn sep).map (trim p) := by
  have hstart (l : List α) : (l.splitOn sep).map (trim p) =
      ((l.splitOn sep).map (List.dropWhile p)).map (List.rdropWhile p) := by
    rw [List.map_map]
    rfl
  have hend (l : List α) : (l.splitOn sep).map (trim p) =
      ((l.splitOn sep).map (List.rdropWhile p)).map (List.dropWhile p) := by
    rw [List.map_map]
    exact List.map_congr_left fun piece _ => dropWhile_rdropWhile.symm
  calc ((trim p l).splitOn sep).map (trim p)
      = (((l.dropWhile p).rdropWhile p).splitOn sep).map (trim p) := rfl
    _ = ((l.dropWhile p).splitOn sep).map (trim p) := by
      rw [hend, map_rdropWhile_splitOn hsep, ← hend]
    _ = (l.splitOn sep).map (trim p) := by
      rw [hstart, map_dropWhile_splitOn hsep, ← hstart]

/-- Pieces that are joined with the separator are read back, trimmed. -/
theorem map_trim_splitOn_intercalate {ls : List (List α)} (hsep : p sep = false) (hls : ls ≠ [])
    (h : ∀ l ∈ ls, sep ∉ l) :
    ((trim p ([sep].intercalate ls)).splitOn sep).map (trim p) = ls.map (trim p) := by
  rw [map_trim_splitOn_trim hsep, List.splitOn_intercalate sep h hls]

/-! ## Leaving elements out -/

omit [DecidableEq α] in
/-- Leaving out the elements without `p` keeps the positions of the others iff no element with `p`
comes after one without. -/
theorem filter_isPrefix_iff : l.filter p <+: l ↔ l.Pairwise fun x y => p y = true → p x = true := by
  induction l with
  | nil => simp
  | cons x l ih =>
    rw [List.pairwise_cons]
    cases hx : p x with
    | true =>
      rw [List.filter_cons_of_pos hx, List.cons_prefix_cons, ih]
      simp
    | false =>
      -- an element with `p` would have to be `x`
      have hnone : l.filter p <+: x :: l ↔ ∀ y ∈ l, p y = false := by
        have hnil : l.filter p = [] ↔ ∀ y ∈ l, p y = false := by simp
        rw [← hnil]
        cases hl : l.filter p with
        | nil => simp
        | cons y l' =>
          have hy : p y = true := (List.mem_filter.mp (hl ▸ List.mem_cons_self)).2
          refine iff_of_false (fun h => ?_) (List.cons_ne_nil y l')
          rw [(List.cons_prefix_cons.mp h).1, hx] at hy
          cases hy
      rw [List.filter_cons_of_neg (by simp [hx]), hnone]
      constructor
      · intro h
        refine ⟨fun y hy hpy => absurd hpy (by simp [h y hy]), ?_⟩
        exact List.pairwise_of_forall_mem_list fun _ _ y hy hpy => absurd hpy (by simp [h y hy])
      · exact fun h y hy => by simpa using h.1 y hy

end Text
