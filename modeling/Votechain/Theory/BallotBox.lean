import Votechain.Theory.Run
import Mathlib.Data.Set.Card

/-!
# An ideal ballot box

What an election service is for, over arbitrary types of voters, elections and candidates. A voter
has at most one choice in an election, and it is a candidate who runs there. Elections are held
once and closed once, a candidate runs once, and a choice is made once, while the election is open.

The counts are cardinalities of sets of voters. `choice_iff_mem_trace` says what the choices are in
terms of the history, and `sum_votesFor` that the candidates' counts add up to the turnout.
-/

open Function Machine

structure BallotBox (Voter Election Candidate : Type) where
  /-- Whether the election is open, if it is held at all. -/
  isOpen : Election → Option Bool
  /-- The election that the candidate runs in. -/
  runsIn : Candidate → Option Election
  choice : Election → Voter → Option Candidate
  finite : ∀ e, {a | (choice e a).isSome}.Finite
  held : ∀ {k e}, runsIn k = some e → (isOpen e).isSome
  runs : ∀ {e a k}, choice e a = some k → runsIn k = some e

namespace BallotBox

/-- The operations of the service. -/
inductive Op (Voter Election Candidate : Type) where
  | hold (e : Election)
  | close (e : Election)
  | nominate (k : Candidate) (e : Election)
  | cast (a : Voter) (k : Candidate) (e : Election)

variable {Voter Election Candidate : Type}

/-- Nothing is held, nobody runs. -/
def empty : BallotBox Voter Election Candidate where
  isOpen _ := none
  runsIn _ := none
  choice _ _ := none
  finite e := by simp
  held h := by cases h
  runs h := by cases h

section
variable (b : BallotBox Voter Election Candidate)

/-- The operation is allowed. -/
def Accepts : Op Voter Election Candidate → Prop
  | .hold e => b.isOpen e = none
  | .close e => b.isOpen e = some true
  | .nominate k e => (b.isOpen e).isSome ∧ b.runsIn k = none
  | .cast a k e => b.isOpen e = some true ∧ b.runsIn k = some e ∧ b.choice e a = none

/-- The number of voters whose choice in the election is the candidate. -/
noncomputable def votesFor (e : Election) (k : Candidate) : Nat :=
  {a | b.choice e a = some k}.ncard

/-- The number of voters who have a choice in the election. -/
noncomputable def turnout (e : Election) : Nat := {a | (b.choice e a).isSome}.ncard

open Classical in
/-- Do what is allowed. -/
noncomputable def perform :
    (op : Op Voter Election Candidate) → b.Accepts op → BallotBox Voter Election Candidate
  | .hold e, _ => { b with
      isOpen := update b.isOpen e (some true)
      held := fun {k e'} h => by
        rw [update_apply]
        split
        · rfl
        · exact b.held h }
  | .close e, _ => { b with
      isOpen := update b.isOpen e (some false)
      held := fun {k e'} h => by
        rw [update_apply]
        split
        · rfl
        · exact b.held h }
  | .nominate k e, ha => { b with
      runsIn := update b.runsIn k (some e)
      held := fun {k' e'} h => by
        rw [update_apply] at h
        split at h
        · cases h
          exact ha.1
        · exact b.held h
      runs := fun {e' a k'} h => by
        have hk : k' ≠ k := by
          rintro rfl
          cases (b.runs h).symm.trans ha.2
        rw [update_of_ne hk]
        exact b.runs h }
  | .cast a k e, ha => { b with
      choice := update b.choice e (update (b.choice e) a (some k))
      finite := fun e' => by
        by_cases he : e' = e
        · subst he
          refine ((b.finite e').insert a).subset fun a' h => ?_
          rw [Set.mem_ofPred_eq, update_self, update_apply] at h
          split at h
          · exact .inl ‹_›
          · exact .inr h
        · rw [update_of_ne he]
          exact b.finite e'
      runs := fun {e' a' k'} h => by
        by_cases he : e' = e
        · subst he
          rw [update_self, update_apply] at h
          split at h
          · cases h
            exact ha.2.1
          · exact b.runs h
        · rw [update_of_ne he] at h
          exact b.runs h }

end

open Classical in
/-- The service: an operation that is not allowed is refused and changes nothing. -/
noncomputable def step (op : Op Voter Election Candidate)
    (b : BallotBox Voter Election Candidate) : Bool × BallotBox Voter Election Candidate :=
  if h : b.Accepts op then (true, b.perform op h) else (false, b)

variable {b : BallotBox Voter Election Candidate} {op : Op Voter Election Candidate}
  {e e' : Election} {a a' : Voter} {k k' : Candidate}

theorem step_of_accepts (h : b.Accepts op) : step op b = (true, b.perform op h) := dif_pos h

theorem step_of_not_accepts (h : ¬ b.Accepts op) : step op b = (false, b) := dif_neg h

theorem isOpen_hold [DecidableEq Election] (h : b.Accepts (.hold e)) :
    (b.perform (.hold e) h).isOpen e' = if e' = e then some true else b.isOpen e' := by
  by_cases he : e' = e <;> simp [perform, he]

theorem isOpen_close [DecidableEq Election] (h : b.Accepts (.close e)) :
    (b.perform (.close e) h).isOpen e' = if e' = e then some false else b.isOpen e' := by
  by_cases he : e' = e <;> simp [perform, he]

theorem runsIn_nominate [DecidableEq Candidate] (h : b.Accepts (.nominate k e)) :
    (b.perform (.nominate k e) h).runsIn k' = if k' = k then some e else b.runsIn k' := by
  by_cases hk : k' = k <;> simp [perform, hk]

theorem choice_cast (h : b.Accepts (.cast a k e)) :
    (b.perform (.cast a k e) h).choice e' a' = some k' ↔
      b.choice e' a' = some k' ∨ e' = e ∧ a' = a ∧ k' = k := by
  by_cases he : e' = e
  · subst he
    by_cases hv : a' = a
    · subst hv
      simp [perform, h.2.2, eq_comm]
    · simp [perform, hv]
  · simp [perform, he]

/-! ## The history of the choices -/

/-- After a step, the choices are the old ones and the one that was cast. -/
theorem choice_step : (step op b).2.choice e a = some k ↔
    b.choice e a = some k ∨ op = .cast a k e ∧ (step op b).1 = true := by
  by_cases h : b.Accepts op
  · rw [step_of_accepts h]
    cases op with
    | cast a' k' e' =>
      rw [choice_cast h]
      simp [eq_comm, and_comm, and_left_comm]
    | _ => simp [perform]
  · rw [step_of_not_accepts h]
    simp

/-- A voter's choice is the candidate of the vote that was accepted. -/
theorem choice_iff_mem_trace {ops : List (Op Voter Election Candidate)} :
    (finalState step .empty ops).choice e a = some k ↔
      (.cast a k e, true) ∈ trace step (.empty : BallotBox Voter Election Candidate) ops := by
  refine trace_induction (P := fun h (b : BallotBox Voter Election Candidate) =>
    b.choice e a = some k ↔ (.cast a k e, true) ∈ h) ?_ ?_ ops
  · simp [empty]
  · intro h b op ih
    rw [choice_step, ih, List.mem_append, List.mem_singleton, Prod.mk.injEq]
    exact or_congr_right (and_congr eq_comm eq_comm)

/-! ## What lasts -/

/-- What lasts from `b` to a later `b'`: candidates run where they ran, choices stand, and a closed
election stays as it is. -/
structure Lasts (b b' : BallotBox Voter Election Candidate) : Prop where
  runsIn : ∀ {k e}, b.runsIn k = some e → b'.runsIn k = some e
  choice : ∀ {e a k}, b.choice e a = some k → b'.choice e a = some k
  closed : ∀ {e}, b.isOpen e = some false → b'.isOpen e = some false
  choice_closed : ∀ {e a k}, b.isOpen e = some false → b'.choice e a = some k →
    b.choice e a = some k

namespace Lasts

theorem refl (b : BallotBox Voter Election Candidate) : Lasts b b := ⟨id, id, id, fun _ => id⟩

theorem trans {b b' b'' : BallotBox Voter Election Candidate} (h : Lasts b b')
    (h' : Lasts b' b'') : Lasts b b'' where
  runsIn hk := h'.runsIn (h.runsIn hk)
  choice hk := h'.choice (h.choice hk)
  closed he := h'.closed (h.closed he)
  choice_closed he hk := h.choice_closed he (h'.choice_closed (h.closed he) hk)

theorem perform (h : b.Accepts op) : Lasts b (b.perform op h) := by
  classical
  cases op with
  | hold e =>
    refine ⟨id, id, fun {e'} he => ?_, fun _ => id⟩
    have hne : e' ≠ e := by
      rintro rfl
      cases he.symm.trans h
    rwa [isOpen_hold, if_neg hne]
  | close e =>
    refine ⟨id, id, fun {e'} he => ?_, fun _ => id⟩
    rw [isOpen_close, he, ite_self]
  | nominate k e =>
    refine ⟨fun {k' e'} hk => ?_, id, id, fun _ => id⟩
    have hne : k' ≠ k := by
      rintro rfl
      cases hk.symm.trans h.2
    rwa [runsIn_nominate, if_neg hne]
  | cast a k e =>
    refine ⟨id, fun hk => (choice_cast h).mpr (.inl hk), id, fun {e' a' k'} he hk => ?_⟩
    refine ((choice_cast h).mp hk).resolve_right ?_
    rintro ⟨rfl, _⟩
    cases he.symm.trans h.1

theorem step (op : Op Voter Election Candidate) (b : BallotBox Voter Election Candidate) :
    Lasts b (step op b).2 := by
  by_cases h : b.Accepts op
  · rw [step_of_accepts h]
    exact .perform h
  · rw [step_of_not_accepts h]
    exact .refl b

theorem run (b : BallotBox Voter Election Candidate) (ops : List (Op Voter Election Candidate)) :
    Lasts b (finalState BallotBox.step b ops) :=
  rel_of_prefix refl (fun _ _ _ => trans) (fun b op => step op b) (List.nil_prefix (l := ops))

variable {b' : BallotBox Voter Election Candidate}

/-- The counts only grow. -/
theorem votesFor_le (h : Lasts b b') (e : Election) (k : Candidate) :
    b.votesFor e k ≤ b'.votesFor e k := by
  refine Set.ncard_le_ncard (fun a ha => h.choice ha) ((b'.finite e).subset fun a ha => ?_)
  exact Option.isSome_of_eq_some ha

theorem turnout_le (h : Lasts b b') (e : Election) : b.turnout e ≤ b'.turnout e := by
  refine Set.ncard_le_ncard (fun a ha => ?_) (b'.finite e)
  obtain ⟨k, hk⟩ := Option.isSome_iff_exists.mp ha
  exact Option.isSome_of_eq_some (h.choice hk)

/-- The choices in an election that was closed. -/
theorem choice_eq (h : Lasts b b') (he : b.isOpen e = some false) : b'.choice e = b.choice e := by
  funext a
  exact Option.ext fun k => ⟨h.choice_closed he, h.choice⟩

theorem votesFor_eq (h : Lasts b b') (he : b.isOpen e = some false) (k : Candidate) :
    b'.votesFor e k = b.votesFor e k := by
  rw [votesFor, h.choice_eq he, votesFor]

theorem turnout_eq (h : Lasts b b') (he : b.isOpen e = some false) :
    b'.turnout e = b.turnout e := by
  rw [turnout, h.choice_eq he, turnout]

end Lasts

/-! ## Counting -/

/-- A set of voters has as many members as a list that names each of them once. -/
theorem ncard_eq_length {A : Set Voter} {l : List Voter} (hl : l.Nodup)
    (h : ∀ a, a ∈ l ↔ a ∈ A) : A.ncard = l.length := by
  classical
  have hA : A = (l.toFinset : Set Voter) := by
    ext a
    simp [h]
  rw [hA, Set.ncard_coe_finset, List.toFinset_card_of_nodup hl]

/-- The counts of the candidates add up to the turnout. -/
theorem sum_votesFor {ks : List Candidate} (hks : ks.Nodup)
    (h : ∀ a k, b.choice e a = some k → k ∈ ks) :
    (ks.map (b.votesFor e)).sum = b.turnout e := by
  classical
  have hmaps : ∀ a ∈ (b.finite e).toFinset, b.choice e a ∈ ks.toFinset.image some := by
    intro a ha
    obtain ⟨k, hk⟩ := Option.isSome_iff_exists.mp ((b.finite e).mem_toFinset.mp ha)
    rw [hk]
    exact Finset.mem_image_of_mem _ (List.mem_toFinset.mpr (h a k hk))
  have hfiber (k : Candidate) :
      ((b.finite e).toFinset.filter fun a => b.choice e a = some k).card = b.votesFor e k := by
    rw [votesFor, ← Set.ncard_coe_finset]
    congr 1
    ext a
    simp only [Finset.coe_filter, Set.Finite.mem_toFinset, Set.mem_ofPred_eq, and_iff_right_iff_imp]
    exact fun hk => Option.isSome_of_eq_some hk
  rw [turnout, Set.ncard_eq_toFinset_card _ (b.finite e),
    Finset.card_eq_sum_card_fiberwise hmaps, Finset.sum_image (Option.some_injective _).injOn,
    ← List.sum_toFinset _ hks]
  exact Finset.sum_congr rfl fun k _ => (hfiber k).symm

end BallotBox
