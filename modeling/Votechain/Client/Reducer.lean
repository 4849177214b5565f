import Votechain.Client.Blocks
import Votechain.Client.Context

/-!
# The context of the client

The state that the pages share, and the reducer that changes it. A reply replaces the slot of its
kind, whatever the query was for.
-/

namespace Votechain.Client

variable {Hash AccountId Args : Type}

/-- The slot of the votes is `none` where the node has no list. -/
structure ContextState (Hash AccountId Args : Type) where
  elections : List (SelectOption Hash)
  candidates : List (SelectOption Hash)
  votes : Option (List (Vote Hash AccountId))
  blocks : List (BlockEntry Hash Args)

def initialState : ContextState Hash AccountId Args where
  elections := []
  candidates := []
  votes := some []
  blocks := []

inductive Action (Hash AccountId Args : Type) where
  | fetchElections (payload : List (SelectOption Hash))
  | fetchCandidates (payload : List (SelectOption Hash))
  | fetchVotes (payload : Option (List (Vote Hash AccountId)))
  | fetchBlocks (payload : List (BlockEntry Hash Args))

def reducer (state : ContextState Hash AccountId Args) :
    Action Hash AccountId Args → ContextState Hash AccountId Args
  | .fetchElections payload => { state with elections := payload }
  | .fetchCandidates payload => { state with candidates := payload }
  | .fetchVotes payload => { state with votes := payload }
  | .fetchBlocks payload => { state with blocks := payload }

end Votechain.Client
