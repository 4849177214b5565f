import Votechain.Client.Context
import Votechain.Pallet.Mock
import Votechain.Theory.Refinement
import Votechain.Verify.Frames

/-!
# Names do not matter

The pallet compares accounts and hashes, and does nothing else with them. So if accounts are
exchanged for others, and the hasher for another one that tells the same records apart, then a run
with the new names goes as before: each call returns the same, and the result page shows the same
numbers.
-/

open Frame Machine
open StorageMap (Relabels)

namespace Votechain
open Client

variable {Hash Hash' AccountId AccountId' : Type}

/-! ## New names -/

section
variable (σ : Hash ↪ Hash') (ρ : AccountId ↪ AccountId')

def Candidate.rename (x : Candidate Hash) : Candidate Hash' := ⟨x.candidateName, σ x.electionId⟩

def Vote.rename (v : Vote Hash AccountId) : Vote Hash' AccountId' :=
  ⟨σ v.candidateId, σ v.electionId, ρ v.author⟩

def Event.rename : Event Hash AccountId → Event Hash' AccountId'
  | .somethingStored something who => .somethingStored something (ρ who)
  | .electionStored description electionId => .electionStored description (σ electionId)
  | .electionUpdated isOpen electionId => .electionUpdated isOpen (σ electionId)
  | .candidateStored candidateName candidateId => .candidateStored candidateName (σ candidateId)
  | .voteStored electionId candidateId => .voteStored (σ electionId) (σ candidateId)

def Origin.rename : Origin AccountId → Origin AccountId'
  | .root => .root
  | .signed who => .signed (ρ who)
  | .none => .none
  | .other => .other

def Call.rename : Call Hash → Call Hash'
  | .doSomething something => .doSomething something
  | .causeError => .causeError
  | .createElection description => .createElection description
  | .closeElection electionId => .closeElection (σ electionId)
  | .createCandidate candidateName electionId => .createCandidate candidateName (σ electionId)
  | .createVote candidateId electionId => .createVote (σ candidateId) (σ electionId)

def Extrinsic.rename (x : Extrinsic Hash AccountId) : Extrinsic Hash' AccountId' :=
  ⟨x.origin.rename ρ, x.call.rename σ⟩

/-- The configurations have the same bounds, and hash a record to the old or to the new name. -/
structure Config.Renames (T : Config Hash) (T' : Config Hash') : Prop where
  electionMinBytes : T'.electionMinBytes = T.electionMinBytes
  electionMaxBytes : T'.electionMaxBytes = T.electionMaxBytes
  candidateMinBytes : T'.candidateMinBytes = T.candidateMinBytes
  candidateMaxBytes : T'.candidateMaxBytes = T.candidateMaxBytes
  hashOfElection : ∀ x, T'.hashOfElection x = σ (T.hashOfElection x)
  hashOfCandidate : ∀ x, T'.hashOfCandidate (x.rename σ) = σ (T.hashOfCandidate x)

variable [DecidableEq Hash] [DecidableEq Hash']

/-- The second storage has under the new names what the first one has under the old ones, and
nothing else. -/
structure Renamed (s : Storage Hash AccountId) (t : Storage Hash' AccountId') : Prop where
  something : t.something = s.something
  elections : Relabels σ id s.elections t.elections
  electionCandidates :
    Relabels σ (List.map (Candidate.rename σ)) s.electionCandidates t.electionCandidates
  electionVotes : Relabels σ (List.map (Vote.rename σ ρ)) s.electionVotes t.electionVotes
  candidates : Relabels σ (Candidate.rename σ) s.candidates t.candidates
  candidateVotes : Relabels σ (List.map (Vote.rename σ ρ)) s.candidateVotes t.candidateVotes
  events : t.events = s.events.map (Event.rename σ ρ)

end

variable {σ : Hash ↪ Hash'} {ρ : AccountId ↪ AccountId'} {T : Config Hash} {T' : Config Hash'}

namespace Config.Renames

variable (h : T.Renames σ T')
include h

theorem electionId (d : List UInt8) : T'.electionId d = σ (T.electionId d) := h.hashOfElection _

theorem descriptionFits_iff {d : List UInt8} : T'.DescriptionFits d ↔ T.DescriptionFits d := by
  rw [Config.DescriptionFits, Config.DescriptionFits, h.electionMinBytes, h.electionMaxBytes]

theorem nameFits_iff {name : List UInt8} : T'.NameFits name ↔ T.NameFits name := by
  rw [Config.NameFits, Config.NameFits, h.candidateMinBytes, h.candidateMaxBytes]

end Config.Renames

variable [DecidableEq Hash] [DecidableEq Hash'] {s s' : Storage Hash AccountId}
  {t t' : Storage Hash' AccountId'} {o : Origin AccountId} {c : Call Hash}
  {r r' : Except DispatchError Unit} {a : AccountId} {e k : Hash}

namespace Renamed

theorem empty : Renamed σ ρ (.empty : Storage Hash AccountId) .empty :=
  ⟨rfl, .empty, .empty, .empty, .empty, .empty, rfl⟩

/-! ### What the storages accept -/

variable (h : Renamed σ ρ s t)
include h

theorem isOpen_iff : t.IsOpen (σ e) ↔ s.IsOpen e := by
  rw [Storage.IsOpen, Storage.IsOpen, h.elections.get e, Option.map_id_fun, id_eq]

theorem hasRoster_iff : t.HasRoster (σ e) ↔ s.HasRoster e :=
  StorageMap.exists_get_congr h.electionCandidates.isSome_eq

theorem hasTally_iff : t.HasTally (σ k) ↔ s.HasTally k :=
  StorageMap.exists_get_congr h.candidateVotes.isSome_eq

theorem hasBallot_iff : t.HasBallot (ρ a) (σ e) ↔ s.HasBallot a e := by
  rw [Storage.HasBallot, Storage.HasBallot, h.electionVotes.get e]
  constructor
  · rintro ⟨l', hl', v', hv', ha⟩
    obtain ⟨l, hl, rfl⟩ := Option.map_eq_some_iff.mp hl'
    obtain ⟨v, hv, rfl⟩ := List.mem_map.mp hv'
    exact ⟨l, hl, v, hv, ρ.injective ha⟩
  · rintro ⟨l, hl, v, hv, rfl⟩
    exact ⟨_, congrArg _ hl, _, List.mem_map_of_mem hv, rfl⟩

theorem acceptsBallot_iff : t.AcceptsBallot (ρ a) (σ e) ↔ s.AcceptsBallot a e := by
  have hlist : (∃ l, t.electionVotes.get (σ e) = some l) ↔
      ∃ l, s.electionVotes.get e = some l :=
    StorageMap.exists_get_congr h.electionVotes.isSome_eq
  rw [Storage.AcceptsBallot, Storage.AcceptsBallot, h.isOpen_iff, hlist, h.hasBallot_iff]

theorem accepts_iff (hT : T.Renames σ T') :
    t.Accepts T' (o.rename ρ) (c.rename σ) ↔ s.Accepts T o c := by
  cases c with
  | doSomething => cases o <;> exact Iff.rfl
  | causeError =>
    cases o with
    | signed a =>
      show (∃ new, t.something.bind (checkedAdd · 1) = some new) ↔ _
      rw [h.something]
      exact Iff.rfl
    | _ => exact Iff.rfl
  | createElection d =>
    cases o with
    | root => exact hT.descriptionFits_iff
    | _ => exact Iff.rfl
  | closeElection e =>
    cases o with
    | root => exact h.isOpen_iff
    | _ => exact Iff.rfl
  | createCandidate name e =>
    cases o with
    | root => exact and_congr hT.nameFits_iff h.hasRoster_iff
    | _ => exact Iff.rfl
  | createVote k e =>
    cases o with
    | signed a => exact h.acceptsBallot_iff
    | _ => exact Iff.rfl

theorem refusal_eq (hT : T.Renames σ T') :
    t.refusal T' (o.rename ρ) (c.rename σ) = s.refusal T o c := by
  cases o <;> cases c <;>
    simp only [Origin.rename, Call.rename, Storage.refusal, h.something, hT.electionMinBytes,
      hT.candidateMinBytes, hT.nameFits_iff]

/-! ### Writes -/

theorem deposit (event : Event Hash AccountId) :
    Renamed σ ρ (s.deposit event) (t.deposit (event.rename σ ρ)) where
  something := h.something
  elections := h.elections
  electionCandidates := h.electionCandidates
  electionVotes := h.electionVotes
  candidates := h.candidates
  candidateVotes := h.candidateVotes
  events := by simp [h.events]

theorem openElection (hT : T.Renames σ T') (d : List UInt8) :
    Renamed σ ρ (s.openElection T d) (t.openElection T' d) where
  something := h.something
  elections := by simpa [hT.electionId] using h.elections.insert _ ⟨d, true⟩
  electionCandidates := by simpa [hT.electionId] using h.electionCandidates.insert _ []
  electionVotes := by simpa [hT.electionId] using h.electionVotes.insert _ []
  candidates := h.candidates
  candidateVotes := h.candidateVotes
  events := h.events

theorem closeElection (e : Hash) : Renamed σ ρ (s.closeElection e) (t.closeElection (σ e)) :=
  ⟨h.something, h.elections.adjust e fun _ => rfl, h.electionCandidates, h.electionVotes,
    h.candidates, h.candidateVotes, h.events⟩

theorem registerCandidate (hT : T.Renames σ T') (x : Candidate Hash) :
    Renamed σ ρ (s.registerCandidate T x) (t.registerCandidate T' (x.rename σ)) where
  something := h.something
  elections := h.elections
  electionCandidates := h.electionCandidates.adjust x.electionId fun _ => by simp
  electionVotes := h.electionVotes
  candidates := by simpa [hT.hashOfCandidate] using h.candidates.insert _ x
  candidateVotes := by simpa [hT.hashOfCandidate] using h.candidateVotes.insert _ []
  events := h.events

theorem recordBallot (v : Vote Hash AccountId) :
    Renamed σ ρ (s.recordBallot v) (t.recordBallot (v.rename σ ρ)) :=
  ⟨h.something, h.elections, h.electionCandidates,
    h.electionVotes.adjust v.electionId fun _ => by simp, h.candidates,
    h.candidateVotes, h.events⟩

theorem tallyBallot (v : Vote Hash AccountId) :
    Renamed σ ρ (s.tallyBallot v) (t.tallyBallot (v.rename σ ρ)) :=
  ⟨h.something, h.elections, h.electionCandidates, h.electionVotes, h.candidates,
    h.candidateVotes.adjust v.candidateId fun _ => by simp, h.events⟩

theorem putSomething (new : Option UInt32) :
    Renamed σ ρ { s with something := new } { t with something := new } :=
  ⟨rfl, h.elections, h.electionCandidates, h.electionVotes, h.candidates, h.candidateVotes,
    h.events⟩

/-! ### One call -/

/-- A call with new names has the same result, and the same effect under the new names. -/
theorem effects (hT : T.Renames σ T') (heff : Effect T s o c r s')
    (heff' : Effect T' t (o.rename ρ) (c.rename σ) r' t') : r' = r ∧ Renamed σ ρ s' t' := by
  have haccepts := h.accepts_iff (o := o) (c := c) hT
  cases heff with
  | refused hn =>
    obtain ⟨rfl, rfl⟩ := heff'.eq_of_not_accepts (mt haccepts.mp hn)
    exact ⟨congrArg _ (h.refusal_eq hT), h⟩
  | @somethingStored who something =>
    obtain ⟨rfl, rfl⟩ := heff'.unique .somethingStored
    exact ⟨rfl, (h.putSomething _).deposit (.somethingStored something who)⟩
  | @incremented new who hnew =>
    obtain ⟨rfl, rfl⟩ := heff'.unique (.incremented (by rw [h.something]; exact hnew))
    exact ⟨rfl, h.putSomething _⟩
  | @electionStored d hd =>
    obtain ⟨rfl, rfl⟩ := heff'.unique (.electionStored (hT.descriptionFits_iff.mpr hd))
    rw [hT.electionId]
    exact ⟨rfl, (h.openElection hT d).deposit (.electionStored d (T.electionId d))⟩
  | @electionUpdated e ho =>
    obtain ⟨rfl, rfl⟩ := heff'.unique (.electionUpdated (h.isOpen_iff.mpr ho))
    exact ⟨rfl, (h.closeElection e).deposit (.electionUpdated false e)⟩
  | @candidateStored name e hn hr =>
    obtain ⟨rfl, rfl⟩ := heff'.unique
      (.candidateStored (hT.nameFits_iff.mpr hn) (h.hasRoster_iff.mpr hr))
    have hid := hT.hashOfCandidate ⟨name, e⟩
    rw [Candidate.rename] at hid
    rw [hid]
    exact ⟨rfl, (h.registerCandidate hT ⟨name, e⟩).deposit
      (.candidateStored name (T.hashOfCandidate ⟨name, e⟩))⟩
  | @voteStored a e k ha ht =>
    obtain ⟨rfl, rfl⟩ := heff'.unique
      (.voteStored (h.acceptsBallot_iff.mpr ha) (h.hasTally_iff.mpr ht))
    exact ⟨rfl, ((h.recordBallot ⟨k, e, a⟩).tallyBallot ⟨k, e, a⟩).deposit (.voteStored e k)⟩
  | @ballotOrphaned a e k ha ht =>
    obtain ⟨rfl, rfl⟩ := heff'.unique
      (.ballotOrphaned (h.acceptsBallot_iff.mpr ha) (mt h.hasTally_iff.mp ht))
    exact ⟨rfl, h.recordBallot ⟨k, e, a⟩⟩

/-! ### The result page -/

theorem votesCell_eq {cand : SelectOption Hash} {cand' : SelectOption Hash'}
    (hkey : cand'.key = σ cand.key) :
    votesCell (fetchVotes t.electionVotes (σ e)) cand' =
      votesCell (fetchVotes s.electionVotes e) cand := by
  rw [fetchVotes, fetchVotes, h.electionVotes.get e]
  cases s.electionVotes.get e with
  | none => rfl
  | some l =>
    simp [votesCell, List.filter_map, Function.comp_def, Vote.rename, hkey]

theorem totalCell_eq : totalCell (fetchVotes t.electionVotes (σ e)) =
    totalCell (fetchVotes s.electionVotes e) := by
  rw [fetchVotes, fetchVotes, h.electionVotes.get e]
  cases s.electionVotes.get e <;> simp [totalCell]

end Renamed

/-! ## Runs -/

section
variable [DecidableEq AccountId] [DecidableEq AccountId']

theorem keepsUp_rename (hT : T.Renames σ T') (xs : List (Extrinsic Hash AccountId)) :
    KeepsUp (apply T) (apply T') (Renamed σ ρ) (Extrinsic.rename σ ρ) .empty .empty xs :=
  keepsUp_of_steps .empty fun _ x _ h =>
    h.effects hT (apply_effect x _) (apply_effect (x.rename σ ρ) _)

/-- A run with new names for the accounts and for the hashes. Every call returns what it returned
with the old names, the storage is that of the old run under the new names, and the result page
shows the same numbers. -/
theorem run_rename (σ : Hash ↪ Hash') (ρ : AccountId ↪ AccountId') (T : Config Hash)
    (T' : Config Hash') (hT : T.Renames σ T') (xs : List (Extrinsic Hash AccountId)) :
    receipts T' (xs.map (Extrinsic.rename σ ρ)) =
        (receipts T xs).map (Prod.map (Extrinsic.rename σ ρ) id) ∧
      Renamed σ ρ (run T xs) (run T' (xs.map (Extrinsic.rename σ ρ))) ∧
      ∀ e, totalCell (fetchVotes (run T' (xs.map (Extrinsic.rename σ ρ))).electionVotes (σ e)) =
          totalCell (fetchVotes (run T xs).electionVotes e) ∧
        ∀ cand cand', cand'.key = σ cand.key →
          votesCell
              (fetchVotes (run T' (xs.map (Extrinsic.rename σ ρ))).electionVotes (σ e)) cand' =
            votesCell (fetchVotes (run T xs).electionVotes e) cand := by
  have h := keepsUp_rename (ρ := ρ) hT xs
  refine ⟨h.answers, h.state, fun e => ⟨h.state.totalCell_eq, fun cand cand' hkey => ?_⟩⟩
  exact h.state.votesCell_eq hkey

/-- Accounts get the next number, and hashes are stored backwards. -/
theorem run_rename_mock :
    let σ : List UInt8 ↪ List UInt8 := ⟨List.reverse, List.reverse_injective⟩
    let ρ : Nat ↪ Nat := ⟨Nat.succ, Nat.succ_injective⟩
    let T' : Config (List UInt8) := { Mock.config with
      hashOfElection := fun x => (Mock.config.hashOfElection x).reverse
      hashOfCandidate := fun x =>
        (Mock.config.hashOfCandidate ⟨x.candidateName, x.electionId.reverse⟩).reverse }
    let xs := [⟨.root, .createElection Mock.board⟩,
      ⟨.root, .createCandidate Mock.name Mock.boardId⟩,
      ⟨.signed 1, .createVote Mock.boardCandidate Mock.boardId⟩]
    receipts T' (xs.map (Extrinsic.rename σ ρ)) =
        (receipts Mock.config xs).map (Prod.map (Extrinsic.rename σ ρ) id) ∧
      Renamed σ ρ (run Mock.config xs) (run T' (xs.map (Extrinsic.rename σ ρ))) ∧
      ∀ e, totalCell (fetchVotes (run T' (xs.map (Extrinsic.rename σ ρ))).electionVotes (σ e)) =
          totalCell (fetchVotes (run Mock.config xs).electionVotes e) ∧
        ∀ cand cand', cand'.key = σ cand.key →
          votesCell
              (fetchVotes (run T' (xs.map (Extrinsic.rename σ ρ))).electionVotes (σ e)) cand' =
            votesCell (fetchVotes (run Mock.config xs).electionVotes e) cand := by
  intro σ ρ T' xs
  refine run_rename σ ρ Mock.config T' ⟨rfl, rfl, rfl, rfl, fun _ => rfl, fun x => ?_⟩ xs
  simp [T', σ, Candidate.rename]

end

end Votechain
