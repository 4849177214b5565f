import Votechain.Client.ElectionResult
import Votechain.Verify.Reachable

/-!
# The result page on a chain that goes on

While the page waits for replies, further extrinsics reach the chain. The node answers a query from
the chain as it is at some time between the sending of the query and the arrival of the reply, and
the two slots of the page may come from different times.
-/

open Frame Machine History
open StorageMap (Enumerates)

namespace Votechain.Client

variable {Hash AccountId Args : Type} [DecidableEq Hash]

/-- A node of a chain: how it lists the entries of a map, and what it answers for the blank election
id. -/
structure Node (Hash AccountId : Type) [DecidableEq Hash] where
  T : Config Hash
  toHuman : List UInt8 → String
  entries : StorageMap Hash (Candidate Hash) → List (Hash × Candidate Hash)
  enumerates : ∀ m, Enumerates (entries m) m
  blankVotes : Option (List (Vote Hash AccountId))

/-- A page and the chain. `sent` has the queries of the page that are outstanding, each with the
length of the chain when it was sent, and `since` is that length when the election was selected. -/
structure LiveResult (Hash AccountId Args : Type) where
  log : List (Extrinsic Hash AccountId)
  page : ElectionResult Hash AccountId Args
  sent : List (Query Hash × Nat)
  since : Nat

/-- An extrinsic is dispatched, an election is selected, or a reply arrives that the node has given
from the first `n` extrinsics. -/
inductive LiveEvent (Hash AccountId : Type) where
  | block (x : Extrinsic Hash AccountId)
  | select (electionId : Hash)
  | reply (query : Query Hash) (n : Nat)

variable [DecidableEq AccountId]

/-- What the node answers from the extrinsics. -/
def Node.view (node : Node Hash AccountId) (log : List (Extrinsic Hash AccountId)) :
    ChainView Hash AccountId where
  toHuman := node.toHuman
  candidates := node.entries (run node.T log).candidates
  electionVotes := (run node.T log).electionVotes
  blankVotes := node.blankVotes

namespace LiveResult

/-- The page opens on a chain, with queries of other pages on their way, each with the length of the
chain when it was sent. -/
def mount (log : List (Extrinsic Hash AccountId)) (context : ContextState Hash AccountId Args)
    (pending : List (Query Hash × Nat)) : LiveResult Hash AccountId Args where
  log := log
  page := .mount context (pending.map Prod.fst)
  sent := pending ++ (electionQueries none).map (·, log.length)
  since := log.length

/-- The event happens, or it cannot happen and is answered with `false`. -/
def step (node : Node Hash AccountId) :
    LiveEvent Hash AccountId → LiveResult Hash AccountId Args →
      Bool × LiveResult Hash AccountId Args
  | .block x, l => (true, { l with log := l.log ++ [x] })
  | .select electionId, l =>
    if l.page.electionId = some electionId then
      (true, l)
    else
      (true, { l with
        page := (ElectionResult.step (node.view l.log) (.select electionId) l.page).2
        sent := l.sent ++ (electionQueries (some electionId)).map (·, l.log.length)
        since := l.log.length })
  | .reply query n, l =>
    match l.sent.find? (·.1 = query) with
    | none => (false, l)
    | some (query, t) =>
      if t ≤ n ∧ n ≤ l.log.length then
        (true, { l with
          page := (ElectionResult.step (node.view (l.log.take n)) (.reply query) l.page).2
          sent := l.sent.erase (query, t) })
      else
        (false, l)

end LiveResult

end Votechain.Client
