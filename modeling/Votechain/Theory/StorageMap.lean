import Mathlib.Data.Finmap
import Mathlib.Logic.Embedding.Basic

/-!
# Storage of a runtime module

A storage map is a finite map: reading a key gives an option, and two maps with the same
readings are equal. `put` is the write that a mutating closure ends with: it stores the option
the closure left behind, so that leaving `none` removes the key.

A storage item is one component of the storage of a chain, given by a lawful getter and setter.
-/

namespace Frame

/-- A finite map from keys to values. -/
abbrev StorageMap (K V : Type) := Finmap fun _ : K => V

namespace StorageMap

variable {K V : Type} [DecidableEq K] {m m' : StorageMap K V} {k k' : K} {v : V}

/-- The value stored under a key. -/
def get (m : StorageMap K V) (k : K) : Option V := m.lookup k

/-- Store a value, whether or not the key is occupied. -/
def insert (m : StorageMap K V) (k : K) (v : V) : StorageMap K V := Finmap.insert k v m

/-- Store an option: `none` removes the key. -/
def put (m : StorageMap K V) (k : K) : Option V → StorageMap K V
  | some v => m.insert k v
  | none => m.erase k

/-- Apply a function to the value under a key; an absent key stays absent. -/
def adjust (m : StorageMap K V) (k : K) (f : V → V) : StorageMap K V := m.put k ((m.get k).map f)

theorem ext (h : ∀ k, m.get k = m'.get k) : m = m' := Finmap.ext_lookup h

@[simp] theorem get_empty : (∅ : StorageMap K V).get k = none := Finmap.lookup_empty k

@[simp] theorem get_insert_self : (m.insert k v).get k = some v := Finmap.lookup_insert m

@[simp] theorem get_insert_of_ne (h : k' ≠ k) : (m.insert k v).get k' = m.get k' :=
  Finmap.lookup_insert_of_ne m h

theorem get_insert : (m.insert k v).get k' = if k' = k then some v else m.get k' := by
  split <;> simp_all

/-- What an insertion leaves readable: the new value, and the old ones under other keys. -/
theorem get_insert_eq_some {v' : V} :
    (m.insert k v).get k' = some v' ↔ k' = k ∧ v = v' ∨ k' ≠ k ∧ m.get k' = some v' := by
  by_cases h : k' = k <;> simp [h]

@[simp] theorem isSome_get_insert :
    ((m.insert k v).get k').isSome = (decide (k' = k) || (m.get k').isSome) := by
  by_cases h : k' = k <;> simp [h]

@[simp] theorem put_some : m.put k (some v) = m.insert k v := rfl

theorem get_put (o : Option V) : (m.put k o).get k' = if k' = k then o else m.get k' := by
  cases o with
  | some v => exact get_insert
  | none =>
    split
    · subst k'; exact Finmap.lookup_erase k m
    · exact Finmap.lookup_erase_ne ‹_›

/-- Writing back what was read changes nothing. -/
@[simp] theorem put_get : m.put k (m.get k) = m := by
  refine ext fun k' => ?_
  rw [get_put]
  split <;> simp_all

/-- `put_get` for an option known to be the stored one. -/
theorem put_of_get {o : Option V} (h : m.get k = o) : m.put k o = m := h ▸ put_get

theorem insert_of_get (h : m.get k = some v) : m.insert k v = m := put_of_get h

theorem erase_of_get (h : m.get k = none) : m.put k none = m := put_of_get h

theorem get_adjust {f : V → V} :
    (m.adjust k f).get k' = if k' = k then (m.get k').map f else m.get k' := by
  rw [adjust, get_put]
  split
  · subst k'; rfl
  · rfl

@[simp] theorem get_adjust_self {f : V → V} : (m.adjust k f).get k = (m.get k).map f := by
  rw [get_adjust, if_pos rfl]

@[simp] theorem get_adjust_of_ne {f : V → V} (h : k' ≠ k) :
    (m.adjust k f).get k' = m.get k' := by
  rw [get_adjust, if_neg h]

theorem get_adjust_eq_some {f : V → V} {v' : V} : (m.adjust k f).get k' = some v' ↔
    k' = k ∧ (∃ v, m.get k = some v ∧ f v = v') ∨ k' ≠ k ∧ m.get k' = some v' := by
  by_cases h : k' = k <;> simp [h]

/-- Adjusting never adds or removes a key. -/
@[simp] theorem isSome_get_adjust {f : V → V} :
    ((m.adjust k f).get k').isSome = (m.get k').isSome := by
  rw [get_adjust]
  split
  · exact Option.isSome_map
  · rfl

theorem adjust_of_get {f : V → V} (h : m.get k = some v) : m.adjust k f = m.insert k (f v) := by
  rw [adjust, h]; rfl

/-- Something is stored in the one map iff something is in the other. -/
theorem exists_get_congr {K' W : Type} [DecidableEq K'] {m' : StorageMap K' W} {k' : K'}
    (h : (m.get k).isSome = (m'.get k').isSome) :
    (∃ v, m.get k = some v) ↔ ∃ v, m'.get k' = some v := by
  rw [← Option.isSome_iff_exists, ← Option.isSome_iff_exists, h]

theorem mem_keys : k ∈ m.keys ↔ (m.get k).isSome := Finmap.mem_keys.trans Finmap.lookup_isSome.symm

theorem keys_eq {W : Type} {m' : StorageMap K W} (h : ∀ k, (m.get k).isSome = (m'.get k).isSome) :
    m.keys = m'.keys := by
  ext k
  rw [mem_keys, mem_keys, h k]

/-! ## Maps to lists -/

section
variable {l : List V} {x : V}

/-- Every list of `m` is a prefix of the list `m'` has under the same key. -/
def Extends (m m' : StorageMap K (List V)) : Prop :=
  ∀ k l, m.get k = some l → ∃ l', m'.get k = some l' ∧ l <+: l'

theorem Extends.refl (m : StorageMap K (List V)) : Extends m m :=
  fun _ l h => ⟨l, h, List.prefix_rfl⟩

theorem extends_adjust {m : StorageMap K (List V)} : Extends m (m.adjust k (· ++ [x])) := by
  intro k' l h
  by_cases hk : k' = k
  · subst k'; exact ⟨l ++ [x], by simp [h], List.prefix_append ..⟩
  · exact ⟨l, by simp [hk, h], List.prefix_rfl⟩

/-- Inserting the empty list loses nothing iff there was nothing to lose. -/
theorem extends_insert_nil {m : StorageMap K (List V)} :
    Extends m (m.insert k []) ↔ ¬ ∃ l, m.get k = some l ∧ l ≠ [] := by
  constructor
  · rintro h ⟨l, hl, hne⟩
    obtain ⟨l', hl', hp⟩ := h k l hl
    cases get_insert_self.symm.trans hl'
    exact hne (List.prefix_nil.mp hp)
  · intro h k' l hl
    by_cases hk : k' = k
    · subst k'
      have : l = [] := by_contra fun hne => h ⟨l, hl, hne⟩
      exact ⟨[], get_insert_self, this ▸ List.prefix_rfl⟩
    · exact ⟨l, by simp [hk, hl], List.prefix_rfl⟩

theorem adjust_append_ne {m : StorageMap K (List V)} (h : m.get k = some l) :
    (m.adjust k (· ++ [x])).get k ≠ m.get k := by
  simp [h]

/-- The lists under the same key have the same elements that satisfy `p`, in the same order. -/
def AgreeOn (p : V → Bool) (m m' : StorageMap K (List V)) : Prop :=
  ∀ k, (m.get k).map (List.filter p) = (m'.get k).map (List.filter p)

namespace AgreeOn

variable {p : V → Bool} {m m' m'' : StorageMap K (List V)}

theorem refl : AgreeOn p m m := fun _ => rfl

theorem symm (h : AgreeOn p m m') : AgreeOn p m' m := fun k => (h k).symm

theorem trans (h : AgreeOn p m m') (h' : AgreeOn p m' m'') : AgreeOn p m m'' :=
  fun k => (h k).trans (h' k)

theorem isSome_eq (h : AgreeOn p m m') : (m.get k).isSome = (m'.get k).isSome := by
  simpa using congrArg Option.isSome (h k)

/-- An element that satisfies `p` is in both lists or in neither. -/
theorem exists_mem (h : AgreeOn p m m') (hx : p x = true) (hl : m.get k = some l) (hmem : x ∈ l) :
    ∃ l', m'.get k = some l' ∧ x ∈ l' := by
  have hk := h k
  rw [hl, Option.map_some] at hk
  obtain ⟨l', hl', hfilter⟩ := Option.map_eq_some_iff.mp hk.symm
  have hmem' : x ∈ l'.filter p := hfilter ▸ List.mem_filter.mpr ⟨hmem, hx⟩
  exact ⟨l', hl', (List.mem_filter.mp hmem').1⟩

theorem insert (h : AgreeOn p m m') (k : K) (l : List V) :
    AgreeOn p (m.insert k l) (m'.insert k l) := by
  intro k'
  rw [get_insert, get_insert]
  split
  · rfl
  · exact h k'

theorem adjust (h : AgreeOn p m m') (k : K) (x : V) :
    AgreeOn p (m.adjust k (· ++ [x])) (m'.adjust k (· ++ [x])) := by
  have happend : List.filter p ∘ (· ++ [x]) = (· ++ [x].filter p) ∘ List.filter p := by
    funext l
    exact List.filter_append ..
  intro k'
  rw [get_adjust, get_adjust]
  split
  · rw [Option.map_map, Option.map_map, happend, ← Option.map_map, ← Option.map_map, h k']
  · exact h k'

/-- What does not satisfy `p` makes no difference. -/
theorem adjust_left (h : AgreeOn p m m') (k : K) (hx : p x = false) :
    AgreeOn p (m.adjust k (· ++ [x])) m' := by
  have happend : List.filter p ∘ (· ++ [x]) = List.filter p := by
    funext l
    simp [hx]
  intro k'
  rw [get_adjust]
  split
  · rw [Option.map_map, happend, h k']
  · exact h k'

end AgreeOn

end

/-! ## Renaming keys -/

section
variable {K' V' : Type} [DecidableEq K'] {m : StorageMap K V} {m' : StorageMap K' V'}

/-- `m'` has under the new name of every key what `m` has under the key, and nothing else. -/
structure Relabels (σ : K ↪ K') (f : V → V') (m : StorageMap K V) (m' : StorageMap K' V') :
    Prop where
  get : ∀ k, m'.get (σ k) = (m.get k).map f
  keys : ∀ k', (m'.get k').isSome → ∃ k, k' = σ k

namespace Relabels

variable {σ : K ↪ K'} {f : V → V'}

theorem empty : Relabels σ f (∅ : StorageMap K V) (∅ : StorageMap K' V') where
  get k := by rw [get_empty, get_empty, Option.map_none]
  keys k' h := by
    rw [get_empty] at h
    cases h

theorem isSome_eq (h : Relabels σ f m m') : (m'.get (σ k)).isSome = (m.get k).isSome := by
  rw [h.get k, Option.isSome_map]

theorem insert (h : Relabels σ f m m') (k : K) (v : V) :
    Relabels σ f (m.insert k v) (m'.insert (σ k) (f v)) where
  get k' := by
    by_cases hk : k' = k
    · subst hk
      rw [get_insert_self, get_insert_self, Option.map_some]
    · rw [get_insert_of_ne hk, get_insert_of_ne (σ.injective.ne hk), h.get k']
  keys k' hk' := by
    by_cases hk : k' = σ k
    · exact ⟨k, hk⟩
    · rw [get_insert_of_ne hk] at hk'
      exact h.keys k' hk'

theorem adjust (h : Relabels σ f m m') (k : K) {g : V → V} {g' : V' → V'}
    (hg : ∀ v, g' (f v) = f (g v)) : Relabels σ f (m.adjust k g) (m'.adjust (σ k) g') where
  get k' := by
    by_cases hk : k' = k
    · subst hk
      rw [get_adjust_self, get_adjust_self, h.get k', Option.map_map, Option.map_map]
      exact congrArg (fun g => (m.get k').map g) (funext hg)
    · rw [get_adjust_of_ne hk, get_adjust_of_ne (σ.injective.ne hk), h.get k']
  keys k' hk' := by
    by_cases hk : k' = σ k
    · exact ⟨k, hk⟩
    · rw [get_adjust_of_ne hk] at hk'
      exact h.keys k' hk'

end Relabels

end

/-! ## Listing a map -/

/-- `entries` lists every entry of `m` exactly once, in some order. -/
structure Enumerates (entries : List (K × V)) (m : StorageMap K V) : Prop where
  nodupKeys : (entries.map Prod.fst).Nodup
  mem_iff : ∀ {k v}, (k, v) ∈ entries ↔ m.get k = some v

/-- Storage maps are finite, so each has a listing. -/
theorem exists_enumerates (m : StorageMap K V) : ∃ entries, Enumerates entries m := by
  induction m using Finmap.induction_on with
  | H a =>
    refine ⟨a.entries.map fun e => (e.1, e.2), ?_, ?_⟩
    · rw [List.map_map]
      exact a.keys_nodup
    · intro k v
      have h : (⟨k, v⟩ : Sigma fun _ : K => V) ∈ a.entries ↔ a.lookup k = some v :=
        AList.mem_lookup_iff.symm
      simp only [get, Finmap.lookup_toFinmap, ← h, List.mem_map, Prod.mk.injEq]
      constructor
      · rintro ⟨⟨k', v'⟩, hmem, rfl, rfl⟩; exact hmem
      · exact fun hmem => ⟨_, hmem, rfl, rfl⟩

end StorageMap

/-! ## Storage items -/

/-- One component of the storage `σ`, with the laws of a field. -/
structure StorageItem (σ α : Type) where
  get : σ → α
  set : α → σ → σ
  get_set : ∀ a s, get (set a s) = a
  set_get : ∀ s, set (get s) s = s
  set_set : ∀ a b s, set a (set b s) = set a s

end Frame
