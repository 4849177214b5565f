import Votechain.Pallet.Basic

/-!
# The dispatchables of the votechain pallet

Each body is written as the pallet runs it: the checks, the closures that mutate one storage
item, and the event at the end, in the order of the source.
-/

open Frame Frame.Dispatch

namespace Votechain

variable {Hash AccountId : Type}

def ensureSigned : Origin AccountId → PalletM Hash AccountId AccountId
  | .signed who => pure who
  | _ => throw .badOrigin

def ensureRoot : Origin AccountId → PalletM Hash AccountId Unit
  | .root => pure ()
  | _ => throw .badOrigin

def doSomething (origin : Origin AccountId) (something : UInt32) :
    PalletM Hash AccountId Unit := do
  let who ← ensureSigned origin
  Something.put (some something)
  depositEvent (.somethingStored something who)

/-- `a.checked_add(b)` -/
def checkedAdd (a b : UInt32) : Option UInt32 :=
  if a.toNat + b.toNat < 2 ^ 32 then some (a + b) else none

def causeError (origin : Origin AccountId) : PalletM Hash AccountId Unit := do
  let _who ← ensureSigned origin
  match ← Something.read with
  | none => throw (.module .noneValue)
  | some old =>
    match checkedAdd old 1 with
    | none => throw (.module .storageOverflow)
    | some new => Something.put (some new)

variable [DecidableEq Hash] [DecidableEq AccountId] (T : Config Hash)

def createElection (origin : Origin AccountId) (description : List UInt8) :
    PalletM Hash AccountId Unit := transactional do
  ensureRoot origin
  ensure (UInt32.ofNat description.length > T.electionMinBytes) (.module .electionNotEnoughBytes)
  ensure (UInt32.ofNat description.length < T.electionMaxBytes) (.module .electionTooManyBytes)
  let election : Election := { description, isOpen := true }
  let electionId := T.hashOfElection election
  Elections.insert electionId election
  ElectionCandidates.insert electionId []
  ElectionVotes.insert electionId []
  depositEvent (.electionStored description electionId)

def closeElection (origin : Origin AccountId) (electionId : Hash) :
    PalletM Hash AccountId Unit := do
  ensureRoot origin
  let isOpen := false
  let closed ← Elections.mutate electionId fun
    | none => pure (Except.error (), none)
    | some election =>
      if election.isOpen then
        pure (.ok (), some { election with isOpen })
      else
        pure (.error (), some election)
  mapErr (fun () => .module .electionNotFound) closed
  depositEvent (.electionUpdated isOpen electionId)

def createCandidate (origin : Origin AccountId) (candidateName : List UInt8) (electionId : Hash) :
    PalletM Hash AccountId Unit := do
  ensureRoot origin
  ensure (UInt32.ofNat candidateName.length > T.candidateMinBytes)
    (.module .candidateNotEnoughBytes)
  ensure (UInt32.ofNat candidateName.length < T.candidateMaxBytes)
    (.module .candidateTooManyBytes)
  let candidate : Candidate Hash := { candidateName, electionId }
  let candidateId := T.hashOfCandidate candidate
  let registered ← ElectionCandidates.mutate electionId fun
    | none => pure (Except.error (), none)
    | some vec => do
      let vec := vec ++ [candidate]
      Candidates.insert candidateId candidate
      CandidateVotes.insert candidateId []
      pure (.ok (), some vec)
  mapErr (fun () => .module .electionNotFound) registered
  depositEvent (.candidateStored candidateName candidateId)

/-- The scan of `create_vote` for an earlier ballot of the author. -/
def voteExists (voteAuthor : AccountId) (vec : List (Vote Hash AccountId)) : Bool := Id.run do
  let mut voteExists := false
  for x in vec do
    if x.author = voteAuthor then
      voteExists := true
  return voteExists

def createVote (origin : Origin AccountId) (candidateId electionId : Hash) :
    PalletM Hash AccountId Unit := do
  let voteAuthor ← ensureSigned origin
  let vote : Vote Hash AccountId := { author := voteAuthor, candidateId, electionId }
  let opened ← Elections.mutate electionId fun
    | none => pure (Except.error (), none)
    | some election =>
      if election.isOpen then
        pure (.ok (), some election)
      else
        pure (.error (), some election)
  mapErr (fun () => .module .electionNotFound) opened
  let recorded ← ElectionVotes.mutate electionId fun
    | none => pure (Except.error (), none)
    | some vec =>
      if voteExists voteAuthor vec then
        pure (.error (), some vec)
      else
        pure (.ok (), some (vec ++ [vote]))
  mapErr (fun () => .module .electionNotFound) recorded
  let tallied ← CandidateVotes.mutate candidateId fun
    | none => pure (Except.error (), none)
    | some vec => pure (.ok (), some (vec ++ [vote]))
  mapErr (fun () => .module .candidateNotFound) tallied
  depositEvent (.voteStored electionId candidateId)

/-! ## Dispatch -/

inductive Call (Hash : Type) where
  | doSomething (something : UInt32)
  | causeError
  | createElection (description : List UInt8)
  | closeElection (electionId : Hash)
  | createCandidate (candidateName : List UInt8) (electionId : Hash)
  | createVote (candidateId electionId : Hash)
  deriving DecidableEq

def Call.dispatch (origin : Origin AccountId) : Call Hash → PalletM Hash AccountId Unit
  | .doSomething something => Votechain.doSomething origin something
  | .causeError => Votechain.causeError origin
  | .createElection description => Votechain.createElection T origin description
  | .closeElection electionId => Votechain.closeElection origin electionId
  | .createCandidate candidateName electionId =>
    Votechain.createCandidate T origin candidateName electionId
  | .createVote candidateId electionId => Votechain.createVote origin candidateId electionId

end Votechain
