import Votechain.Client.Vote
import Votechain.Verify.Reachable

/-!
# Voters, forms and the chain

The vote forms of many users run against one chain. A form reads the candidates that the chain
stores and submits votes to a pool; a vote in the pool gets into a block at any later time, or
never. In between, root calls reach the chain at any time. A reply lists candidates that are stored
when it arrives, so it may be an old one.
-/

open Frame Machine

namespace Votechain.Client
open TxButton

variable {User Hash AccountId Args Number : Type}

/-- `log` has the extrinsics that were dispatched. For every form, `ids` follows the election id
whose candidates are on offer and the one whose candidates were on offer when the candidate was
picked. -/
structure Network (User Hash AccountId Args : Type) where
  log : List (Extrinsic Hash AccountId)
  pool : List (Extrinsic Hash AccountId)
  forms : User → VoteForm Hash AccountId Args
  ids : User → Option Hash × Option Hash

/-- What a user does on the vote page. -/
inductive UserEvent (Hash AccountId : Type) where
  | selectElection (electionId : Hash)
  | selectCandidate (candidateId : Hash)
  | setCurrentAccount (account : AccountId)
  | submit

/-- What happens in the network: a user opens the vote page again, acts on it, or has another page
query candidates; a reply arrives; a transaction of the pool gets into a block; a root call does. -/
inductive NetworkEvent (User Hash AccountId : Type) where
  | visit (user : User)
  | act (user : User) (event : UserEvent Hash AccountId)
  | query (user : User) (electionId : Option Hash)
  | reply (user : User) (electionId : Option Hash) (entries : List (Hash × Candidate Hash))
  | inBlock (x : Extrinsic Hash AccountId)
  | root (call : Call Hash)

variable [DecidableEq Hash]

def UserEvent.toVoteEvent {candidates : StorageMap Hash (Candidate Hash)} :
    UserEvent Hash AccountId → VoteEvent candidates AccountId
  | .selectElection electionId => .selectElection electionId
  | .selectCandidate candidateId => .selectCandidate candidateId
  | .setCurrentAccount account => .setCurrentAccount account
  | .submit => .submit

/-- The transaction that the account signs for what the form submits, as the node decodes it. -/
def submission (D : Display Hash Number) :
    FormAnswer Number AccountId → List (Extrinsic Hash AccountId)
  | .submitted (.signedTx (some account) "votechain" callable params) =>
    (D.toCall callable params).toList.map fun call => ⟨.signed account, call⟩
  | _ => []

/-- The vote page opens again: nothing is selected, and the blank query is sent. -/
def VoteForm.reopen (form : VoteForm Hash AccountId Args) : VoteForm Hash AccountId Args :=
  { form with
    electionId := none
    candidateId := none
    outstanding := form.outstanding ++ [none] }

namespace Network

/-- Every user has opened the vote page, and nothing else has happened. -/
def start : Network User Hash AccountId Args where
  log := []
  pool := []
  forms _ := ⟨none, none, initialState, [none], none⟩
  ids _ := (none, none)

variable [DecidableEq AccountId] [DecidableEq User]

section
variable (T : Config Hash) (D : Display Hash Number) (n : Network User Hash AccountId Args)

/-- What the chain stores. -/
def chain : Storage Hash AccountId := run T n.log

/-- The form of the user takes the event. -/
def deliver (user : User) (event : VoteEvent (n.chain T).candidates AccountId) :
    Network User Hash AccountId Args :=
  let (answer, form) := VoteForm.step D event (n.forms user)
  { n with
    pool := n.pool ++ submission D answer
    forms := Function.update n.forms user form
    ids := Function.update n.ids user (follow (n.ids user) (event, answer)) }

end

/-- The event happens, or it cannot happen and is answered with `false`. -/
def step (T : Config Hash) (D : Display Hash Number) :
    NetworkEvent User Hash AccountId → Network User Hash AccountId Args →
      Bool × Network User Hash AccountId Args
  | .visit user, n =>
    (true, { n with
      forms := Function.update n.forms user (n.forms user).reopen
      ids := Function.update n.ids user ((n.ids user).1, none) })
  | .act user event, n => (true, n.deliver T D user event.toVoteEvent)
  | .query user electionId, n =>
    let form := n.forms user
    (true, { n with
      forms := Function.update n.forms user
        { form with outstanding := form.outstanding ++ [electionId] } })
  | .reply user electionId entries, n =>
    if h : ∀ entry ∈ entries, (n.chain T).candidates.get entry.1 = some entry.2 then
      (true, n.deliver T D user (.reply electionId ⟨entries, h⟩))
    else
      (false, n)
  | .inBlock x, n =>
    if x ∈ n.pool then
      (true, { n with pool := n.pool.erase x, log := n.log ++ [x] })
    else
      (false, n)
  | .root call, n => (true, { n with log := n.log ++ [⟨.root, call⟩] })

end Network

end Votechain.Client
