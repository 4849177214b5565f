import Votechain.Pallet.Calls

/-!
# The mock runtime

The runtime of the pallet's tests, with the bounds of its configuration. Its hasher keeps the
encoded record as the hash, so distinct records have distinct hashes.
-/

namespace Votechain.Mock

def config : Config (List UInt8) where
  electionMinBytes := 8
  electionMaxBytes := 4096
  candidateMinBytes := 8
  candidateMaxBytes := 4096
  hashOfElection election :=
    UInt8.ofNat election.description.length :: election.description ++
      [if election.isOpen then 1 else 0]
  hashOfCandidate candidate :=
    UInt8.ofNat candidate.candidateName.length :: candidate.candidateName ++ candidate.electionId

/-- Two descriptions and a name that fit the bounds. -/
def board : List UInt8 := List.replicate 9 1
def council : List UInt8 := List.replicate 9 2
def name : List UInt8 := List.replicate 9 3

def boardId : List UInt8 :=
  config.hashOfElection { description := board, isOpen := true }
def councilId : List UInt8 :=
  config.hashOfElection { description := council, isOpen := true }
def boardCandidate : List UInt8 :=
  config.hashOfCandidate { candidateName := name, electionId := boardId }

end Votechain.Mock
