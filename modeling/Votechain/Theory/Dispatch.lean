import Votechain.Theory.StorageMap

/-!
# Dispatchable bodies

A dispatchable body reads and writes the storage and may stop with an error. Dispatch opens no
storage transaction of its own, so whatever the body wrote before an error stays written; only a
body wrapped in `transactional` rolls back. `exec` runs a body, and its simp set unfolds one into
the result and the storage it leaves.
-/

namespace Frame

/-- A body over the storage `σ` that may fail with `ε`. An error keeps the writes made so far. -/
abbrev Dispatch (ε σ : Type) : Type → Type := ExceptT ε (StateM σ)

namespace Dispatch

variable {ε ε' σ α β : Type} {s : σ}

/-- Run a body: its result, and the storage it leaves in either case. -/
def exec (f : Dispatch ε σ α) (s : σ) : Except ε α × σ := StateT.run (ExceptT.run f) s

/-- `ensure!(p, e)` -/
def ensure (p : Prop) [Decidable p] (e : ε) : Dispatch ε σ Unit :=
  if p then pure () else throw e

/-- `r.map_err(f)?` -/
def mapErr (f : ε' → ε) : Except ε' α → Dispatch ε σ α
  | .ok a => pure a
  | .error e => throw (f e)

/-- `#[transactional]`: an error undoes the writes of the body. -/
def transactional (f : Dispatch ε σ α) : Dispatch ε σ α :=
  ExceptT.mk fun s =>
    match f.exec s with
    | (.ok a, s') => (.ok a, s')
    | (.error e, _) => (.error e, s)

@[simp] theorem exec_pure (a : α) : (pure a : Dispatch ε σ α).exec s = (.ok a, s) := rfl

@[simp] theorem exec_throw (e : ε) : (throw e : Dispatch ε σ α).exec s = (.error e, s) := rfl

@[simp] theorem exec_bind (f : Dispatch ε σ α) (g : α → Dispatch ε σ β) :
    (f >>= g).exec s =
      match f.exec s with
      | (.ok a, s') => (g a).exec s'
      | (.error e, s') => (.error e, s') := by
  change (ExceptT.bindCont g (f.exec s).1).run (f.exec s).2 = _
  rcases f.exec s with ⟨_ | _, s'⟩ <;> rfl

@[simp] theorem exec_map (g : α → β) (f : Dispatch ε σ α) :
    (g <$> f).exec s =
      match f.exec s with
      | (.ok a, s') => (.ok (g a), s')
      | (.error e, s') => (.error e, s') := by
  rw [map_eq_pure_bind, exec_bind]
  rfl

@[simp] theorem exec_ensure (p : Prop) [Decidable p] (e : ε) :
    (ensure p e : Dispatch ε σ Unit).exec s = (if p then .ok () else .error e, s) := by
  unfold ensure; split <;> rfl

@[simp] theorem exec_mapErr_ok (f : ε' → ε) (a : α) :
    (mapErr f (.ok a) : Dispatch ε σ α).exec s = (.ok a, s) := rfl

@[simp] theorem exec_mapErr_error (f : ε' → ε) (e : ε') :
    (mapErr f (.error e) : Dispatch ε σ α).exec s = (.error (f e), s) := rfl

@[simp] theorem exec_transactional (f : Dispatch ε σ α) :
    f.transactional.exec s =
      ((f.exec s).1, if (f.exec s).1.isOk then (f.exec s).2 else s) := by
  change (match f.exec s with
    | (.ok a, s') => (Except.ok a, s')
    | (.error e, _) => (Except.error e, s)) = _
  rcases f.exec s with ⟨_ | _, s'⟩ <;> rfl

end Dispatch

/-! ## Operations on a storage item -/

namespace StorageItem
open Dispatch

variable {ε σ α K V : Type} [DecidableEq K]

/-- Read the value of the item. -/
def read (item : StorageItem σ α) : Dispatch ε σ α := do
  return item.get (← getThe σ)

/-- Replace the value of the item. -/
def put (item : StorageItem σ α) (a : α) : Dispatch ε σ Unit :=
  modify (item.set a)

/-- Store a value under a key of the item, whether or not the key is occupied. -/
def insert (item : StorageItem σ (StorageMap K V)) (k : K) (v : V) : Dispatch ε σ Unit :=
  modify fun s => item.set ((item.get s).insert k v) s

/-- Run a closure on the option stored under `k` and write back the option it leaves. The result
of the closure is a value: if it is a failure, the option is still written back. -/
def mutate (item : StorageItem σ (StorageMap K V)) (k : K)
    (f : Option V → Dispatch ε σ (α × Option V)) : Dispatch ε σ α := do
  let stored := (← item.read).get k
  let (result, left) ← f stored
  modify fun s => item.set ((item.get s).put k left) s
  return result

variable {s : σ}

@[simp] theorem exec_read (item : StorageItem σ α) :
    (item.read : Dispatch ε σ α).exec s = (.ok (item.get s), s) := rfl

@[simp] theorem exec_put (item : StorageItem σ α) (a : α) :
    (item.put a : Dispatch ε σ Unit).exec s = (.ok (), item.set a s) := rfl

variable {item : StorageItem σ (StorageMap K V)} {k : K} {v : V}

@[simp] theorem exec_insert : (item.insert k v : Dispatch ε σ Unit).exec s =
    (.ok (), item.set ((item.get s).insert k v) s) := rfl

@[simp] theorem exec_mutate (f : Option V → Dispatch ε σ (α × Option V)) :
    (item.mutate k f).exec s =
      match (f ((item.get s).get k)).exec s with
      | (.ok (a, left), s') => (.ok a, item.set ((item.get s').put k left) s')
      | (.error e, s') => (.error e, s') := by
  rw [mutate, exec_bind, exec_read]
  simp only [exec_bind]
  rcases (f ((item.get s).get k)).exec s with ⟨_ | _, s'⟩ <;> rfl

end StorageItem

end Frame
