import Votechain.Theory.Dispatch
import Mathlib.Tactic.Simps.Basic

/-!
# Data and storage of the votechain pallet

The hash type and the account type are those of the runtime. Byte vectors are lists of bytes; the
bounds on their lengths are the constants of the configuration. Hashing is the `hash_of` of the
runtime's hasher at the two records the pallet hashes.
-/

open Frame

namespace Votechain

structure Election where
  description : List UInt8
  isOpen : Bool
  deriving DecidableEq

structure Candidate (Hash : Type) where
  candidateName : List UInt8
  electionId : Hash
  deriving DecidableEq

structure Vote (Hash AccountId : Type) where
  candidateId : Hash
  electionId : Hash
  author : AccountId
  deriving DecidableEq

structure Config (Hash : Type) where
  electionMinBytes : UInt32
  electionMaxBytes : UInt32
  candidateMinBytes : UInt32
  candidateMaxBytes : UInt32
  /-- `T::Hashing::hash_of` at an election. -/
  hashOfElection : Election → Hash
  /-- `T::Hashing::hash_of` at a candidate. -/
  hashOfCandidate : Candidate Hash → Hash

inductive Event (Hash AccountId : Type) where
  | somethingStored (something : UInt32) (who : AccountId)
  | electionStored (description : List UInt8) (electionId : Hash)
  | electionUpdated (isOpen : Bool) (electionId : Hash)
  | candidateStored (candidateName : List UInt8) (candidateId : Hash)
  | voteStored (electionId candidateId : Hash)
  deriving DecidableEq

inductive Error where
  | noneValue
  | storageOverflow
  | electionNotEnoughBytes
  | electionTooManyBytes
  | candidateNotEnoughBytes
  | candidateTooManyBytes
  | electionNotFound
  | candidateNotFound
  | originNotSudo
  deriving DecidableEq

inductive DispatchError where
  | badOrigin
  | module (error : Error)
  deriving DecidableEq

/-- The origin a call is dispatched with. `other` stands for the origins of other pallets, which
are neither signed nor root. -/
inductive Origin (AccountId : Type) where
  | root
  | signed (who : AccountId)
  | none
  | other
  deriving DecidableEq

/-- The storage of the pallet, and the events deposited so far. -/
structure Storage (Hash AccountId : Type) where
  something : Option UInt32
  elections : StorageMap Hash Election
  electionCandidates : StorageMap Hash (List (Candidate Hash))
  electionVotes : StorageMap Hash (List (Vote Hash AccountId))
  candidates : StorageMap Hash (Candidate Hash)
  candidateVotes : StorageMap Hash (List (Vote Hash AccountId))
  events : List (Event Hash AccountId)

namespace Storage

variable {Hash AccountId : Type}

/-- The storage before the first call. -/
def empty : Storage Hash AccountId := ⟨none, ∅, ∅, ∅, ∅, ∅, []⟩

@[simp] theorem empty_elections : (empty : Storage Hash AccountId).elections = ∅ := rfl
@[simp] theorem empty_electionCandidates :
    (empty : Storage Hash AccountId).electionCandidates = ∅ := rfl
@[simp] theorem empty_electionVotes : (empty : Storage Hash AccountId).electionVotes = ∅ := rfl
@[simp] theorem empty_candidates : (empty : Storage Hash AccountId).candidates = ∅ := rfl
@[simp] theorem empty_candidateVotes : (empty : Storage Hash AccountId).candidateVotes = ∅ := rfl

end Storage

/-! ## Storage items -/

variable {Hash AccountId : Type}

@[simps get set] def Something : StorageItem (Storage Hash AccountId) (Option UInt32) :=
  ⟨Storage.something, fun a s => { s with something := a }, fun _ _ => rfl, fun _ => rfl,
    fun _ _ _ => rfl⟩

@[simps get set] def Elections : StorageItem (Storage Hash AccountId) (StorageMap Hash Election) :=
  ⟨Storage.elections, fun a s => { s with elections := a }, fun _ _ => rfl, fun _ => rfl,
    fun _ _ _ => rfl⟩

@[simps get set] def ElectionCandidates :
    StorageItem (Storage Hash AccountId) (StorageMap Hash (List (Candidate Hash))) :=
  ⟨Storage.electionCandidates, fun a s => { s with electionCandidates := a }, fun _ _ => rfl,
    fun _ => rfl, fun _ _ _ => rfl⟩

@[simps get set] def ElectionVotes :
    StorageItem (Storage Hash AccountId) (StorageMap Hash (List (Vote Hash AccountId))) :=
  ⟨Storage.electionVotes, fun a s => { s with electionVotes := a }, fun _ _ => rfl,
    fun _ => rfl, fun _ _ _ => rfl⟩

@[simps get set] def Candidates :
    StorageItem (Storage Hash AccountId) (StorageMap Hash (Candidate Hash)) :=
  ⟨Storage.candidates, fun a s => { s with candidates := a }, fun _ _ => rfl, fun _ => rfl,
    fun _ _ _ => rfl⟩

@[simps get set] def CandidateVotes :
    StorageItem (Storage Hash AccountId) (StorageMap Hash (List (Vote Hash AccountId))) :=
  ⟨Storage.candidateVotes, fun a s => { s with candidateVotes := a }, fun _ _ => rfl,
    fun _ => rfl, fun _ _ _ => rfl⟩

/-- Code that runs inside a dispatchable of the pallet. -/
abbrev PalletM (Hash AccountId : Type) := Dispatch DispatchError (Storage Hash AccountId)

def depositEvent (event : Event Hash AccountId) : PalletM Hash AccountId Unit :=
  modify fun s => { s with events := s.events ++ [event] }

@[simp] theorem exec_depositEvent (event : Event Hash AccountId) (s : Storage Hash AccountId) :
    (depositEvent event).exec s = (.ok (), { s with events := s.events ++ [event] }) := rfl

end Votechain
