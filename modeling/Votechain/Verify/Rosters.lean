import Votechain.Client.Context
import Votechain.Pallet.Mock
import Votechain.Verify.Reachable

/-!
# The two registries of candidates

A candidate stands in the roster of its election and in the map of candidates. The two registries
agree throughout exactly the runs that never create an election with a roster again, nor register
a candidate under an id that is taken. Where they agree, the options the client offers for an
election are its roster.
-/

open Frame Machine

namespace Votechain
open Client
open StorageMap (get_insert_eq_some get_insert_self get_adjust_eq_some Enumerates)

variable {Hash AccountId : Type} [DecidableEq Hash] {T : Config Hash}
  {s s' : Storage Hash AccountId} {o : Origin AccountId} {c : Call Hash}
  {r : Except DispatchError Unit}

/-- A roster lists the stored candidates of its election, each once. -/
def RostersMatch (T : Config Hash) (s : Storage Hash AccountId) : Prop :=
  ∀ e l, s.electionCandidates.get e = some l → l.Nodup ∧
    ∀ x, x ∈ l ↔ s.candidates.get (T.hashOfCandidate x) = some x ∧ x.electionId = e

/-- A call that writes one registry over something the other keeps. -/
def SplitsRegistry (T : Config Hash) (s : Storage Hash AccountId) (x : Extrinsic Hash AccountId) :
    Prop :=
  match x.origin, x.call with
  | .root, .createElection d => T.DescriptionFits d ∧
    ∃ l, s.electionCandidates.get (T.electionId d) = some l ∧ l ≠ []
  | .root, .createCandidate name e => T.NameFits name ∧ s.HasRoster e ∧
    ∃ y, s.candidates.get (T.hashOfCandidate ⟨name, e⟩) = some y
  | _, _ => False

theorem SplitsRegistry.accepts (h : SplitsRegistry T s ⟨o, c⟩) : s.Accepts T o c := by
  cases o <;> cases c <;> first | exact h.elim | exact h.1 | exact ⟨h.1, h.2.1⟩

theorem RostersMatch.openElection_iff (hw : WellFormed T s) (hp : RostersMatch T s)
    {d : List UInt8} : RostersMatch T (s.openElection T d) ↔
      ¬ ∃ l, s.electionCandidates.get (T.electionId d) = some l ∧ l ≠ [] := by
  constructor
  · rintro hp' ⟨l, hl, hne⟩
    obtain ⟨x, hx⟩ := List.exists_mem_of_ne_nil l hne
    have hstored := ((hp _ l hl).2 x).mp hx
    have hnil := ((hp' _ [] get_insert_self).2 x).mpr hstored
    exact List.not_mem_nil hnil
  · intro hn e l hl
    rcases get_insert_eq_some.mp hl with ⟨rfl, rfl⟩ | ⟨_, hl⟩
    · refine ⟨List.nodup_nil, fun x => iff_of_false List.not_mem_nil ?_⟩
      rintro ⟨hx, he⟩
      -- a stored candidate has a roster, which listed it
      obtain ⟨l, hl⟩ := hw.hasRoster (hw.candidates hx).2
      have hmem := ((hp _ l hl).2 x).mpr ⟨hx, rfl⟩
      exact hn ⟨l, he ▸ hl, List.ne_nil_of_mem hmem⟩
    · exact hp e l hl

/-- Under a free id, what is stored after a registration is the new candidate and the old ones. -/
theorem get_registerCandidate {x y : Candidate Hash}
    (hfree : s.candidates.get (T.hashOfCandidate x) = none) :
    (s.registerCandidate T x).candidates.get (T.hashOfCandidate y) = some y ↔
      s.candidates.get (T.hashOfCandidate y) = some y ∨ y = x := by
  refine get_insert_eq_some.trans ?_
  constructor
  · rintro (⟨_, rfl⟩ | ⟨_, hy⟩)
    · exact .inr rfl
    · exact .inl hy
  · rintro (hy | rfl)
    · refine .inr ⟨fun heq => ?_, hy⟩
      rw [heq, hfree] at hy
      cases hy
    · exact .inl ⟨rfl, rfl⟩

theorem RostersMatch.registerCandidate_iff (hw : WellFormed T s) (hp : RostersMatch T s)
    {x : Candidate Hash} {l : List (Candidate Hash)}
    (hl : s.electionCandidates.get x.electionId = some l) :
    RostersMatch T (s.registerCandidate T x) ↔
      ¬ ∃ y, s.candidates.get (T.hashOfCandidate x) = some y := by
  constructor
  · rintro hp' ⟨y, hy⟩
    obtain ⟨hk, he⟩ := hw.candidates hy
    obtain ⟨ly, hly⟩ := hw.hasRoster he
    have hmem : y ∈ ly := ((hp _ ly hly).2 y).mpr ⟨hk ▸ hy, rfl⟩
    by_cases hxy : y = x
    · -- the same candidate: it is listed twice now
      subst y
      cases hl.symm.trans hly
      have hl' : (s.registerCandidate T x).electionCandidates.get x.electionId =
          some (l ++ [x]) := by simp [hl]
      have hdisj := List.disjoint_of_nodup_append (hp' _ _ hl').1
      exact hdisj hmem (List.mem_singleton_self x)
    · -- another candidate: it is listed still and stored no more
      obtain ⟨ly', hly', hpre⟩ : ∃ ly', (s.registerCandidate T x).electionCandidates.get
          y.electionId = some ly' ∧ ly <+: ly' := StorageMap.extends_adjust _ _ hly
      obtain ⟨hy', _⟩ := ((hp' _ ly' hly').2 y).mp (hpre.subset hmem)
      rw [← hk] at hy'
      exact hxy (Option.some.inj (get_insert_self.symm.trans hy')).symm
  · intro hn
    have hfree : s.candidates.get (T.hashOfCandidate x) = none :=
      Option.eq_none_iff_forall_ne_some.mpr fun y hy => hn ⟨y, hy⟩
    intro e l' hl'
    rcases get_adjust_eq_some.mp hl' with ⟨rfl, l₀, hl₀, rfl⟩ | ⟨hne, hl'⟩
    · obtain ⟨hnodup, hmem⟩ := hp _ l₀ hl₀
      constructor
      · refine hnodup.append (List.nodup_singleton x) ?_
        intro y hy hyx
        cases List.mem_singleton.mp hyx
        exact hn ⟨x, ((hmem x).mp hy).1⟩
      · intro y
        rw [get_registerCandidate hfree, List.mem_append, hmem, List.mem_singleton, or_and_right]
        refine or_congr_right ⟨?_, And.left⟩
        rintro rfl
        exact ⟨rfl, rfl⟩
    · obtain ⟨hnodup, hmem⟩ := hp e l' hl'
      refine ⟨hnodup, fun y => ?_⟩
      rw [get_registerCandidate hfree, hmem, or_and_right]
      refine (or_iff_left ?_).symm
      rintro ⟨rfl, he⟩
      exact hne he.symm

theorem Effect.rostersMatch_iff (hw : WellFormed T s) (hp : RostersMatch T s)
    (h : Effect T s o c r s') : RostersMatch T s' ↔ ¬ SplitsRegistry T s ⟨o, c⟩ := by
  cases h with
  | electionStored hd => exact (hp.openElection_iff hw).trans (not_congr (and_iff_right hd).symm)
  | candidateStored hn hr =>
    obtain ⟨l, hl⟩ := hr
    exact (hp.registerCandidate_iff hw hl).trans
      (not_congr ⟨fun hy => ⟨hn, ⟨l, hl⟩, hy⟩, fun hs => hs.2.2⟩)
  | refused hn => exact iff_of_true hp fun hs => hn hs.accepts
  | _ => exact iff_of_true hp id

/-! ## The ballot paper -/

/-- The registries agree, and the options the client offers for an election are its roster. -/
structure RegistriesAgree (T : Config Hash) (s : Storage Hash AccountId) : Prop where
  rosters : RostersMatch T s
  ballotPaper : ∀ toHuman entries, Enumerates entries s.candidates →
    ∀ e l, s.electionCandidates.get e = some l →
      (fetchCandidates toHuman entries e).Perm
        (l.map fun x => candidateOption toHuman (T.hashOfCandidate x, x))

theorem fetchCandidates_perm (hw : WellFormed T s) (hp : RostersMatch T s)
    (hen : Enumerates entries s.candidates) (hl : s.electionCandidates.get e = some l) :
    (fetchCandidates toHuman entries e).Perm
      (l.map fun x => candidateOption toHuman (T.hashOfCandidate x, x)) := by
  obtain ⟨hnodup, hmem⟩ := hp e l hl
  have hpair : (l.map fun x => (T.hashOfCandidate x, x)).Nodup :=
    hnodup.map fun x y h => (Prod.mk.inj h).2
  have hentries : (entries.filter fun entry => entry.2.electionId = e).Nodup :=
    (List.Nodup.of_map _ hen.nodupKeys).filter _
  have hperm : (entries.filter fun entry => entry.2.electionId = e).Perm
      (l.map fun x => (T.hashOfCandidate x, x)) := by
    refine (List.perm_ext_iff_of_nodup hentries hpair).mpr fun ⟨k, x⟩ => ?_
    simp only [List.mem_filter, hen.mem_iff, decide_eq_true_eq, List.mem_map, Prod.mk.injEq]
    constructor
    · rintro ⟨hx, he⟩
      obtain ⟨hk, _⟩ := hw.candidates hx
      exact ⟨x, (hmem x).mpr ⟨hk ▸ hx, he⟩, hk.symm, rfl⟩
    · rintro ⟨_, hx, rfl, rfl⟩
      exact (hmem _).mp hx
  rw [fetchCandidates_eq]
  have hmap := hperm.map (candidateOption toHuman)
  rwa [List.map_map] at hmap

theorem registriesAgree_iff (hw : WellFormed T s) : RegistriesAgree T s ↔ RostersMatch T s := by
  constructor
  · exact fun h => h.rosters
  · exact fun h => ⟨h, fun _ _ hen _ _ hl => fetchCandidates_perm hw h hen hl⟩

section
variable [DecidableEq AccountId]

/-- The registries agree throughout a run iff no call of it splits them. -/
theorem always_registriesAgree_iff (T : Config Hash) (xs : List (Extrinsic Hash AccountId)) :
    Always (apply T) (RegistriesAgree T) .empty xs ↔
      EachStep (apply T) (fun s x => ¬ SplitsRegistry T s x) .empty xs := by
  refine always_iff_of_effect ?_ fun s o c r s' hw hp h => ?_
  · refine (registriesAgree_iff WellFormed.empty).mpr fun e l hl => ?_
    simp at hl
  · rw [registriesAgree_iff (hw.effect h)]
    exact h.rostersMatch_iff hw hp.rosters

/-- A candidate that is registered twice stands in the roster twice. -/
theorem not_always_registriesAgree :
    let xs : List (Extrinsic _ Nat) := [⟨.root, .createElection Mock.board⟩,
      ⟨.root, .createCandidate Mock.name Mock.boardId⟩,
      ⟨.root, .createCandidate Mock.name Mock.boardId⟩]
    CollisionFree Mock.config xs ∧
      ¬ Always (apply Mock.config) (RegistriesAgree Mock.config) .empty xs := by
  refine ⟨⟨by decide, by decide⟩, fun h => ?_⟩
  obtain ⟨hnodup, _⟩ := h.last.rosters Mock.boardId
    [⟨Mock.name, Mock.boardId⟩, ⟨Mock.name, Mock.boardId⟩] (by decide)
  exact absurd hnodup (by decide)

end

end Votechain
