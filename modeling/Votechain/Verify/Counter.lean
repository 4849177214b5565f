import Votechain.Theory.History
import Votechain.Verify.Reachable

/-!
# The counter

`do_something` stores a number and `cause_error` counts it up. The number stored is the last one
that was given, plus the successful counts since then, and counting stops with an error where the
sum no longer fits a `u32`.
-/

open Frame Machine History

namespace Votechain

variable {Hash AccountId : Type}

/-- The number that a successful `do_something` stores. -/
def storedNumber : Receipt Hash AccountId → Option UInt32
  | (⟨.signed _, .doSomething n⟩, .ok ()) => some n
  | _ => none

def okDoSomething (p : Receipt Hash AccountId) : Bool := (storedNumber p).isSome

/-- `cause_error` has counted. -/
def okCauseError : Receipt Hash AccountId → Bool
  | (⟨.signed _, .causeError⟩, .ok ()) => true
  | _ => false

/-- The number of successful counts since a number was stored. -/
def counted (h : List (Receipt Hash AccountId)) : Nat :=
  (sinceLast okDoSomething h).elim 0 (List.countP okCauseError)

/-- What the history has counted to, if a number was ever stored. -/
def counter (h : List (Receipt Hash AccountId)) : Option Nat :=
  (lastSome storedNumber h).map fun n => n.toNat + counted h

theorem checkedAdd_eq_some_iff {a b new : UInt32} :
    checkedAdd a b = some new ↔ a.toNat + b.toNat < 2 ^ 32 ∧ new.toNat = a.toNat + b.toNat := by
  rw [checkedAdd]
  split
  · rename_i h
    have hsum : (a + b).toNat = a.toNat + b.toNat := by
      rw [UInt32.toNat_add, Nat.mod_eq_of_lt h]
    rw [Option.some_inj, ← UInt32.toNat_inj, hsum, eq_comm]
    exact (and_iff_right h).symm
  · rename_i h
    exact iff_of_false nofun fun hn => h hn.1

variable {h : List (Receipt Hash AccountId)} {p : Receipt Hash AccountId}

theorem counter_concat_of_stored (hp : storedNumber p = some n) :
    counter (h ++ [p]) = some n.toNat := by
  have hsince : sinceLast okDoSomething (h ++ [p]) = some [] :=
    sinceLast_concat_of_pos (by rw [okDoSomething, hp]; rfl)
  rw [counter, lastSome_concat, hp, counted, hsince]
  rfl

theorem counter_concat_of_none (hp : storedNumber p = none) :
    counter (h ++ [p]) = (counter h).map (· + if okCauseError p then 1 else 0) := by
  have hfalse : okDoSomething p = false := by rw [okDoSomething, hp]; rfl
  rw [counter, counter, lastSome_concat, hp, Option.none_or, Option.map_map]
  refine Option.map_congr fun n hn => ?_
  -- a number was stored, so there is a history since then
  obtain ⟨q, hq, hqn⟩ := List.mem_filterMap.mp (List.mem_of_getLast? hn)
  cases hsince : sinceLast okDoSomething h with
  | none =>
    have := sinceLast_eq_none_iff.mp hsince q hq
    rw [okDoSomething, hqn] at this
    cases this
  | some l =>
    rw [counted, sinceLast_concat_of_neg hfalse, counted, hsince]
    simp [List.countP_append, List.countP_singleton, Nat.add_assoc]

variable [DecidableEq Hash] {T : Config Hash} {s s' : Storage Hash AccountId}
  {o : Origin AccountId} {c : Call Hash} {r : Except DispatchError Unit}

/-- The counter follows every effect. -/
theorem Effect.counter (he : Effect T s o c r s')
    (hs : s.something.map UInt32.toNat = counter h) :
    s'.something.map UInt32.toNat = Votechain.counter (h ++ [(⟨o, c⟩, r)]) := by
  cases he with
  | somethingStored => rw [counter_concat_of_stored rfl]; rfl
  | @incremented new a ha =>
    obtain ⟨old, hold, hnew⟩ := Option.bind_eq_some_iff.mp ha
    obtain ⟨_, hsum⟩ := checkedAdd_eq_some_iff.mp hnew
    rw [counter_concat_of_none rfl, ← hs, hold]
    exact congrArg some hsum
  | refused =>
    have hnone : storedNumber (⟨o, c⟩, .error (s.refusal T o c)) = none := by
      cases o <;> cases c <;> rfl
    have hfalse : okCauseError (⟨o, c⟩, .error (s.refusal T o c)) = false := by
      cases o <;> cases c <;> rfl
    rw [counter_concat_of_none hnone, hfalse, ← hs]
    exact Option.map_id'.symm
  | _ => rw [counter_concat_of_none rfl, ← hs]; exact Option.map_id'.symm

/-- What `cause_error` answers when the history has counted to `n`. -/
def countAnswer : Option Nat → Except DispatchError Unit
  | none => .error (.module .noneValue)
  | some n => if n + 1 < 2 ^ 32 then .ok () else .error (.module .storageOverflow)

theorem Effect.countAnswer (he : Effect T s (.signed a) .causeError r s') :
    r = Votechain.countAnswer (s.something.map UInt32.toNat) := by
  cases he with
  | refused hn =>
    cases hs : s.something with
    | none => simp [Storage.refusal, hs, Votechain.countAnswer]
    | some old =>
      have hlt : ¬ old.toNat + 1 < 2 ^ 32 := by
        intro hlt
        refine hn ⟨old + 1, ?_⟩
        rw [hs, Option.bind_some, checkedAdd]
        exact if_pos hlt
      simp only [Storage.refusal, hs, Option.map_some, Votechain.countAnswer, if_neg hlt]
      rfl
  | @incremented new a ha =>
    obtain ⟨old, hold, hnew⟩ := Option.bind_eq_some_iff.mp ha
    obtain ⟨hlt, _⟩ := checkedAdd_eq_some_iff.mp hnew
    rw [hold, Option.map_some, Votechain.countAnswer]
    exact (if_pos hlt).symm

section
variable [DecidableEq AccountId]

/-- After any run the number stored is the last one given plus the successful counts since, without
wrapping around, and a further `cause_error` says whether there is a number and whether it can be
counted up. -/
theorem run_counter (T : Config Hash) (xs : List (Extrinsic Hash AccountId)) :
    (run T xs).something.map UInt32.toNat = counter (receipts T xs) ∧
      ∀ a, (apply T ⟨.signed a, .causeError⟩ (run T xs)).1 =
        countAnswer (counter (receipts T xs)) := by
  have hcounter : (run T xs).something.map UInt32.toNat = counter (receipts T xs) :=
    trace_induction (P := fun h s => s.something.map UInt32.toNat = counter h) rfl
      (fun _ s x hs => (apply_effect x s).counter hs) xs
  refine ⟨hcounter, fun a => ?_⟩
  rw [← hcounter]
  exact (apply_effect (T := T) ⟨.signed a, .causeError⟩ (run T xs)).countAnswer

end

end Votechain
