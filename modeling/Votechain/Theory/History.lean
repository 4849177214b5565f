import Mathlib.Algebra.GroupWithZero.Nat
import Mathlib.Data.List.Basic
import Mathlib.Data.List.Induction

/-!
# Reading a history

Functions that read an event history kept in order of time: the last event of a kind, what came
after it, what came before the first, and the first event of each key. Each comes with the
equation for a history that one event is added to. `Each` says that every event finds a past of
some kind. Counting the events of each key separately counts them all.
-/

namespace History

variable {α β κ : Type}

/-- The events after the last one with property `p`, if there is one. -/
def sinceLast (p : α → Bool) : List α → Option (List α)
  | [] => none
  | x :: xs => (sinceLast p xs).or (if p x then some xs else none)

/-- The last event with property `p`. -/
def lastOf (p : α → Bool) (l : List α) : Option α := (l.filter p).getLast?

/-- What the last event that says something says. -/
def lastSome (f : α → Option β) (l : List α) : Option β := (l.filterMap f).getLast?

/-- Every event of the history has `Q` with the events before it. -/
def Each (Q : List α → α → Prop) (l : List α) : Prop := ∀ pre x, pre ++ [x] <+: l → Q pre x

/-- The events before the first one with property `p`. -/
def untilFirst (p : α → Bool) (l : List α) : List α := l.takeWhile fun x => !p x

/-- The first event of each key. -/
def firstPer [DecidableEq κ] (key : α → κ) (l : List α) : List α :=
  l.eraseDupsBy fun x y => key x = key y

/-- What the events after the last one with property `p` contribute. -/
def collectSince (p : α → Bool) (f : α → Option β) (l : List α) : Option (List β) :=
  (sinceLast p l).map (List.filterMap f)

variable {p : α → Bool} {l l' : List α} {x : α}

/-- An event of a history that one event is added to is the new one, or it was there before. -/
theorem concat_eq_append_cons_iff {y : α} {pre rest : List α} : l ++ [x] = pre ++ y :: rest ↔
    pre = l ∧ y = x ∧ rest = [] ∨ ∃ rest', rest = rest' ++ [x] ∧ l = pre ++ y :: rest' := by
  constructor
  · intro h
    rcases List.eq_nil_or_concat' rest with rfl | ⟨rest, z, rfl⟩
    · obtain ⟨rfl, hx⟩ := List.append_inj' h rfl
      cases hx
      exact .inl ⟨rfl, rfl, rfl⟩
    · rw [← List.cons_append, ← List.append_assoc] at h
      obtain ⟨rfl, hx⟩ := List.append_inj' h rfl
      cases hx
      exact .inr ⟨rest, rfl, rfl⟩
  · rintro (⟨rfl, rfl, rfl⟩ | ⟨rest, rfl, rfl⟩)
    · rfl
    · simp

/-! ## After the last event of a kind -/

@[simp] theorem sinceLast_nil : sinceLast p [] = none := rfl

theorem sinceLast_concat : sinceLast p (l ++ [x]) =
    if p x then some [] else (sinceLast p l).map (· ++ [x]) := by
  induction l with
  | nil => cases h : p x <;> simp [sinceLast, h]
  | cons y l ih =>
    rw [List.cons_append, sinceLast, ih]
    cases hx : p x <;> cases hl : sinceLast p l <;> cases hy : p y <;> simp [sinceLast, hl, hy]

theorem sinceLast_concat_of_pos (h : p x = true) : sinceLast p (l ++ [x]) = some [] := by
  rw [sinceLast_concat, if_pos h]

theorem sinceLast_concat_of_neg (h : p x = false) :
    sinceLast p (l ++ [x]) = (sinceLast p l).map (· ++ [x]) := by
  rw [sinceLast_concat, if_neg (by simp [h])]

theorem sinceLast_eq_none_iff : sinceLast p l = none ↔ ∀ x ∈ l, p x = false := by
  induction l using List.reverseRecOn with
  | nil => simp
  | append_singleton l x ih =>
    cases hx : p x
    · rw [sinceLast_concat_of_neg hx, Option.map_eq_none_iff, ih]
      simp [or_imp, forall_and, hx]
    · rw [sinceLast_concat_of_pos hx]
      simp only [reduceCtorEq, false_iff]
      intro h
      simp [h x (by simp)] at hx

theorem sinceLast_subset (h : sinceLast p l = some l') : l' ⊆ l := by
  induction l with
  | nil => cases h
  | cons x l ih =>
    rw [sinceLast] at h
    cases hl : sinceLast p l with
    | some l₀ =>
      rw [hl] at h
      exact List.subset_cons_of_subset x (ih (hl.trans h))
    | none =>
      rw [hl] at h
      cases hx : p x <;> simp [hx] at h
      exact h ▸ List.subset_cons_self x l

section
variable {f : α → Option β} {y : β} {ys : List β}

theorem collectSince_concat_of_pos (h : p x = true) : collectSince p f (l ++ [x]) = some [] := by
  rw [collectSince, sinceLast_concat_of_pos h]; rfl

theorem collectSince_concat_of_none (h : p x = false) (hf : f x = none) :
    collectSince p f (l ++ [x]) = collectSince p f l := by
  rw [collectSince, sinceLast_concat_of_neg h, Option.map_map]
  exact Option.map_congr fun l' _ => by simp [hf]

theorem collectSince_concat_of_some (h : p x = false) (hf : f x = some y) :
    collectSince p f (l ++ [x]) = (collectSince p f l).map (· ++ [y]) := by
  rw [collectSince, sinceLast_concat_of_neg h, collectSince, Option.map_map, Option.map_map]
  exact Option.map_congr fun l' _ => by simp [hf]

theorem collectSince_eq_none_iff : collectSince p f l = none ↔ ∀ x ∈ l, p x = false :=
  Option.map_eq_none_iff.trans sinceLast_eq_none_iff

theorem exists_of_mem_collectSince (h : collectSince p f l = some ys) (hy : y ∈ ys) :
    ∃ x ∈ l, f x = some y := by
  obtain ⟨l', hl', rfl⟩ := Option.map_eq_some_iff.mp h
  obtain ⟨x, hx, hf⟩ := List.mem_filterMap.mp hy
  exact ⟨x, sinceLast_subset hl' hx, hf⟩

end

/-! ## The last event of a kind -/

@[simp] theorem lastOf_nil : lastOf p [] = none := rfl

theorem lastOf_concat : lastOf p (l ++ [x]) = if p x then some x else lastOf p l := by
  rw [lastOf, List.filter_append]
  cases hx : p x <;> simp [hx, lastOf]

theorem mem_of_lastOf (h : lastOf p l = some x) : x ∈ l ∧ p x = true :=
  List.mem_filter.mp (List.mem_of_getLast? h)

/-- The last event of a kind is found after any event of the kind. -/
theorem lastOf_append_cons (hx : p x = true) : lastOf p (l ++ x :: l') = lastOf p (x :: l') := by
  rw [lastOf, lastOf, List.filter_append, List.getLast?_append, List.filter_cons_of_pos hx]
  simp [List.getLast?_cons]

@[simp] theorem lastSome_nil {f : α → Option β} : lastSome f [] = none := rfl

theorem lastSome_concat {f : α → Option β} :
    lastSome f (l ++ [x]) = (f x).or (lastSome f l) := by
  rw [lastSome, List.filterMap_append]
  cases hx : f x <;> simp [hx, lastSome]

theorem each_nil {Q : List α → α → Prop} : Each Q [] := by
  intro pre x h
  simp at h

theorem each_concat {Q : List α → α → Prop} : Each Q (l ++ [x]) ↔ Each Q l ∧ Q l x := by
  simp only [Each, List.prefix_concat_iff]
  constructor
  · exact fun h => ⟨fun pre y hpre => h pre y (.inr hpre), h _ _ (.inl rfl)⟩
  · rintro ⟨h, hlast⟩ pre y (heq | hpre)
    · obtain ⟨rfl, hy⟩ := List.append_inj' heq rfl
      cases hy; exact hlast
    · exact h pre y hpre

theorem Each.of_split {Q : List α → α → Prop} (h : Each Q (l ++ x :: l')) : Q l x :=
  h l x ⟨l', by simp⟩

/-! ## Before the first event of a kind -/

@[simp] theorem untilFirst_nil : untilFirst p [] = [] := rfl

theorem untilFirst_eq_self (h : ∀ y ∈ l, p y = false) : untilFirst p l = l := by
  rw [untilFirst, ← List.append_nil l, List.takeWhile_append_of_pos (by simpa using h)]
  rfl

theorem untilFirst_concat_of_none (h : ∀ y ∈ l, p y = false) :
    untilFirst p (l ++ [x]) = if p x then l else l ++ [x] := by
  rw [untilFirst, List.takeWhile_append_of_pos (by simpa using h)]
  cases hx : p x <;> simp [hx]

theorem untilFirst_concat_of_mem {y : α} (hy : y ∈ l) (h : p y = true) :
    untilFirst p (l ++ [x]) = untilFirst p l := by
  obtain ⟨l₁, l₂, rfl⟩ := List.append_of_mem hy
  simp only [untilFirst, List.append_assoc, List.cons_append]
  induction l₁ with
  | nil => simp [h]
  | cons z l₁ ih => cases hz : p z <;> simp_all

/-! ## The first event of each key -/

variable [DecidableEq κ] {key : α → κ}

@[simp] theorem firstPer_nil : firstPer key [] = [] := rfl

theorem firstPer_cons :
    firstPer key (x :: l) = x :: firstPer key (l.filter fun y => key y ≠ key x) := by
  simp [firstPer, List.eraseDupsBy_cons]

theorem firstPer_concat : firstPer key (l ++ [x]) =
    if ∃ y ∈ l, key y = key x then firstPer key l else firstPer key l ++ [x] := by
  induction h : l.length using Nat.strongRecOn generalizing l with
  | ind n ih =>
    cases l with
    | nil => simp [firstPer_cons]
    | cons y l =>
      have hlt : (l.filter fun z => key z ≠ key y).length < n := by
        have := List.length_filter_le (fun z => decide (key z ≠ key y)) l
        simp at h; omega
      rw [List.cons_append, firstPer_cons, List.filter_append, firstPer_cons]
      by_cases hxy : key x = key y
      · simp [hxy]
      · have hfilter : [x].filter (fun z => key z ≠ key y) = [x] := by simp [hxy]
        rw [hfilter, ih _ hlt rfl]
        have hiff : (∃ z ∈ l.filter fun z => key z ≠ key y, key z = key x) ↔
            ∃ z ∈ y :: l, key z = key x := by
          constructor
          · rintro ⟨z, hz, hzx⟩
            exact ⟨z, List.mem_cons_of_mem _ (List.mem_filter.mp hz).1, hzx⟩
          · rintro ⟨z, hz, hzx⟩
            rcases List.mem_cons.mp hz with rfl | hz
            · exact absurd hzx.symm hxy
            · exact ⟨z, List.mem_filter.mpr ⟨hz, by simpa [hzx] using hxy⟩, hzx⟩
        simp only [hiff]
        split <;> simp

/-- An event of some key is in the list iff one is among the first events. -/
theorem exists_mem_firstPer {k : κ} :
    (∃ y ∈ firstPer key l, key y = k) ↔ ∃ y ∈ l, key y = k := by
  induction l using List.reverseRecOn with
  | nil => simp
  | append_singleton l x ih =>
    rw [firstPer_concat]
    split
    · rename_i h
      rw [ih]
      constructor
      · rintro ⟨y, hy, hk⟩; exact ⟨y, List.mem_append_left _ hy, hk⟩
      · rintro ⟨y, hy, rfl⟩
        rcases List.mem_append.mp hy with hy | hy
        · exact ⟨y, hy, rfl⟩
        · cases List.mem_singleton.mp hy; exact h
    · simp only [List.mem_append, List.mem_singleton, or_and_right, exists_or, ih]

theorem firstPer_subset : firstPer key l ⊆ l := by
  induction l using List.reverseRecOn with
  | nil => simp
  | append_singleton l x ih =>
    rw [firstPer_concat]
    split
    · exact fun y hy => List.mem_append_left _ (ih hy)
    · exact List.append_subset.mpr ⟨fun y hy => List.mem_append_left _ (ih hy), by simp⟩

/-! ## Counting per key -/

/-- Where every event has its key among `ks`, the counts of the keys add up to the length. -/
theorem sum_length_filter {ks : List κ} (hks : ks.Nodup) (h : ∀ x ∈ l, key x ∈ ks) :
    (ks.map fun k => (l.filter fun x => key x = k).length).sum = l.length := by
  induction ks generalizing l with
  | nil =>
    cases l with
    | nil => rfl
    | cons x l => exact absurd (h x List.mem_cons_self) List.not_mem_nil
  | cons k ks ih =>
    obtain ⟨hk, hks⟩ := List.nodup_cons.mp hks
    -- the other keys count the same among the events that are not of `k`
    have hrest : ∀ k' ∈ ks, (l.filter fun x => key x = k').length =
        ((l.filter fun x => key x ≠ k).filter fun x => key x = k').length := by
      intro k' hk'
      have hne : k' ≠ k := fun heq => hk (heq ▸ hk')
      rw [List.filter_filter]
      congr 1
      refine List.filter_congr fun x _ => ?_
      by_cases hx : key x = k' <;> simp [hx, hne]
    have ih := ih (l := l.filter fun x => key x ≠ k) hks fun x hx => by
      obtain ⟨hx, hne⟩ := List.mem_filter.mp hx
      exact (List.mem_cons.mp (h x hx)).resolve_left (by simpa using hne)
    rw [List.map_cons, List.sum_cons, List.map_congr_left hrest, ih]
    have hsplit := List.length_eq_countP_add_countP (fun x => key x = k) (l := l)
    rw [hsplit, List.countP_eq_length_filter, List.countP_eq_length_filter]
    simp

/-- Whatever the keys, no more than all events are counted. -/
theorem sum_length_filter_le {ks : List κ} (hks : ks.Nodup) :
    (ks.map fun k => (l.filter fun x => key x = k).length).sum ≤ l.length := by
  have hcount (k : κ) (hk : k ∈ ks) : (l.filter fun x => key x = k).length =
      ((l.filter fun x => key x ∈ ks).filter fun x => key x = k).length := by
    rw [List.filter_filter]
    congr 1
    refine List.filter_congr fun x _ => ?_
    by_cases hx : key x = k <;> simp [hx, hk]
  have hmem : ∀ x ∈ l.filter fun x => key x ∈ ks, key x ∈ ks := by simp
  rw [List.map_congr_left hcount, sum_length_filter hks hmem]
  exact List.length_filter_le _ _

/-! ## Queues of several kinds -/

section
variable [BEq α] [LawfulBEq α] {f : α → Option β} {y : β}

/-- Taking an element of another kind out of a queue. -/
theorem filterMap_erase_of_none (h : f x = none) : (l.erase x).filterMap f = l.filterMap f := by
  induction l with
  | nil => rfl
  | cons z l ih =>
    by_cases hz : z = x
    · subst hz
      rw [List.erase_cons_head, List.filterMap_cons_none h]
    · rw [List.erase_cons_tail (by simpa using hz), List.filterMap_cons, List.filterMap_cons, ih]

/-- Taking the first element of its kind out of a queue, where no other element is read in the same
way. -/
theorem filterMap_erase_of_head (hinj : ∀ z, f z = some y → z = x)
    (h : (l.filterMap f).head? = some y) : y :: (l.erase x).filterMap f = l.filterMap f := by
  induction l with
  | nil => cases h
  | cons z l ih =>
    cases hz : f z with
    | none =>
      rw [List.filterMap_cons_none hz] at h ⊢
      by_cases hzx : z = x
      · -- an element that is read as nothing is not the one that is taken out
        obtain ⟨w, hw, hfw⟩ := List.mem_filterMap.mp (List.mem_of_head? h)
        rw [← hzx.trans (hinj w hfw).symm, hz] at hfw
        cases hfw
      · rw [List.erase_cons_tail (by simpa using hzx), List.filterMap_cons_none hz, ih h]
    | some y' =>
      rw [List.filterMap_cons_some hz] at h ⊢
      cases h
      rw [hinj z hz, List.erase_cons_head]

/-- Taking out the first element with a key takes the key out of the keys. -/
theorem map_erase_of_find? {k : κ} (h : l.find? (key · = k) = some x) :
    (l.erase x).map key = (l.map key).erase k := by
  have hx : key x = k := by simpa using List.find?_some h
  induction l with
  | nil => cases h
  | cons z l ih =>
    by_cases hz : key z = k
    · rw [List.find?_cons_of_pos (by simpa using hz)] at h
      cases h
      rw [List.erase_cons_head, List.map_cons, hz, List.erase_cons_head]
    · have hne : z ≠ x := fun heq => hz (heq ▸ hx)
      rw [List.find?_cons_of_neg (by simpa using hz)] at h
      rw [List.erase_cons_tail (by simpa using hne), List.map_cons, List.map_cons,
        List.erase_cons_tail (by simpa using hz), ih h]

end

end History
