import Votechain.Client.Forms
import Votechain.Client.Reducer
import Votechain.Pallet.Mock
import Votechain.Verify.Reachable

/-!
# The pages of the administrator

`CreateElection`, `AddCandidates` and `CloseElection` send their call through `sudo`. The menu has
these pages while the navigation bar takes the account for the sudo key, which it learns from a
query after each login. A desk is such a client together with the chain. The connection may drop at
any time: then `Main` shows none of the pages, and what they and the navigation bar knew is lost.
-/

open Frame Machine

namespace Votechain.Client
open TxButton

variable {Hash AccountId Args Number : Type}

/-- The options of the elections. A description that is not printed as hexadecimal digits is shown
as it is printed. -/
def fetchElections (toHuman : List UInt8 → String) (hexToString : String → Option String)
    (entries : List (Hash × Election)) : List (SelectOption Hash) :=
  entries.map fun (id, desc) =>
    let description := toHuman desc.description
    { key := id, value := id, text := (hexToString description).getD description }

/-! ## The pages -/

/-- The routes of `App`. -/
inductive Page where
  | home
  | createElection
  | closeElection
  | addCandidate
  | vote
  | result
  | blocks
  | substrate
  deriving DecidableEq

/-- The page fetches the elections when it opens. -/
def Page.fetchesElections : Page → Bool
  | .closeElection | .addCandidate | .vote | .result => true
  | .home | .createElection | .blocks | .substrate => false

structure MenuItem where
  page : Page
  name : String
  needsSudo : Bool

def menuItens : List MenuItem := [
  { page := .home, name := "home", needsSudo := false },
  { page := .createElection, name := "create election", needsSudo := true },
  { page := .closeElection, name := "close election", needsSudo := true },
  { page := .addCandidate, name := "add candidate", needsSudo := true },
  { page := .vote, name := "vote", needsSudo := false },
  { page := .result, name := "result", needsSudo := false },
  { page := .blocks, name := "blocks", needsSudo := true }]

/-- The items that `Navbar` shows. -/
def menu (isSudo : Bool) : List MenuItem :=
  menuItens.foldl (fun acc curr => if !isSudo && curr.needsSudo then acc else acc ++ [curr]) []

theorem exists_sudo_menu_iff {isSudo : Bool} :
    (∃ item ∈ menu isSudo, item.needsSudo = true) ↔ isSudo = true := by
  cases isSudo <;> decide

/-- The form of a page, with what is typed and selected in it. -/
inductive AdminForm (Hash : Type) where
  | createElection (electionName : Text)
  | addCandidates (candidateName : Text) (electionId : Option Hash)
  | closeElection (electionId : Option Hash)

namespace AdminForm

/-- The form of a page that has just opened. -/
def blank : Page → Option (AdminForm Hash)
  | .createElection => some (.createElection [])
  | .addCandidate => some (.addCandidates [] none)
  | .closeElection => some (.closeElection none)
  | _ => none

/-- Typing replaces the text of the form, where it has one. -/
def typeText (text : Text) : AdminForm Hash → AdminForm Hash
  | .createElection _ => .createElection text
  | .addCandidates _ electionId => .addCandidates text electionId
  | .closeElection electionId => .closeElection electionId

def selectElection (electionId : Hash) : AdminForm Hash → AdminForm Hash
  | .createElection electionName => .createElection electionName
  | .addCandidates candidateName _ => .addCandidates candidateName (some electionId)
  | .closeElection _ => .closeElection (some electionId)

def selected : AdminForm Hash → Option Hash
  | .createElection _ => none
  | .addCandidates _ electionId | .closeElection electionId => electionId

def button (codec : Codec Hash) (currentAccount sudoKey : Option AccountId) :
    AdminForm Hash → Props Number AccountId
  | .createElection electionName =>
    sudoButton "createElection" [.plain (.text electionName)] currentAccount sudoKey
  | .addCandidates candidateName electionId =>
    sudoButton "createCandidate" [.plain (.text candidateName), codec.idParam electionId]
      currentAccount sudoKey
  | .closeElection electionId =>
    sudoButton "closeElection" [codec.idParam electionId] currentAccount sudoKey

end AdminForm

/-! ## The desk -/

/-- `log` has the extrinsics that were dispatched, `pool` the sudo transactions that wait for a
block, and `keys` the accounts that became the sudo key. While `Main` shows the pages, `page` is the
one that is open. A query for the sudo key is sent when there were so many `keys`: `checks` has
those of logins with their account, and `keyQuery` that of the button of the page. -/
structure Desk (Hash AccountId Args : Type) where
  log : List (Extrinsic Hash AccountId)
  pool : List (AccountId × Call Hash)
  keys : List AccountId
  shown : Bool
  page : Page
  currentAccount : Option AccountId
  isSudo : Bool
  checks : List (AccountId × Nat)
  sudoKey : Option AccountId
  keyQuery : Option Nat
  fetches : Nat
  context : ContextState Hash AccountId Args
  form : Option (AdminForm Hash)

/-- What the administrator does on the pages, and the replies that only they take. -/
inductive PageEvent (Hash AccountId : Type) where
  | login (account : AccountId)
  | logout
  | checkSudo (account : AccountId) (sent : Nat) (sudoKey : AccountId)
  | loadSudoKey (sudoKey : AccountId)
  | visit (page : Page)
  | typeText (text : Text)
  | selectElection (electionId : Hash)
  | submit

/-- `Main` begins or ceases to show the pages, the administrator does something, the elections
arrive, a transaction of the pool gets into a block, the sudo key changes, or any other extrinsic is
dispatched. -/
inductive DeskEvent (Hash AccountId : Type) where
  | connect (page : Page)
  | disconnect
  | act (event : PageEvent Hash AccountId)
  | fetched (entries : List (Hash × Election))
  | inBlock (account : AccountId) (call : Call Hash)
  | setKey (account : AccountId)
  | other (x : Extrinsic Hash AccountId)

/-- An event is ignored or handled. A transaction of the pool is dispatched as a root call, or it is
refused because its account is not the sudo key. -/
inductive DeskAnswer where
  | ignored
  | done
  | dispatched (result : Except DispatchError Unit)
  | refused

namespace Desk

/-- The client has just been loaded. -/
def start : Desk Hash AccountId Args where
  log := []
  pool := []
  keys := []
  shown := false
  page := .home
  currentAccount := none
  isSudo := false
  checks := []
  sudoKey := none
  keyQuery := none
  fetches := 0
  context := initialState
  form := none

/-- The client, the chain and what they rely on: the configuration of the pallet, the first sudo
key, which accounts are printed as nothing, and how texts are shown and numbers read. -/
structure Setting (Hash AccountId Number : Type) extends Display Hash Number where
  T : Config Hash
  key : AccountId
  isEmpty : AccountId → Bool
  hexToString : String → Option String

section
variable (E : Setting Hash AccountId Number) (d : Desk Hash AccountId Args)

/-- The sudo key of the chain. -/
def key : AccountId := d.keys.getLastD E.key

/-- The sudo keys since there were so many, the one of then included. -/
def keysSince (sent : Nat) : List AccountId := (E.key :: d.keys).drop sent

/-- A page opens with a blank form, and its button asks for the sudo key. -/
def openPage (page : Page) : Desk Hash AccountId Args :=
  { d with
    page
    form := AdminForm.blank page
    sudoKey := none
    keyQuery := some d.keys.length
    fetches := if page.fetchesElections then d.fetches + 1 else d.fetches }

/-- The page that is open stays as it is. -/
def visit (page : Page) : Desk Hash AccountId Args := if d.page = page then d else d.openPage page

/-- The menu has a page of the administrator. -/
def OffersAdmin : Prop := d.shown = true ∧ ∃ item ∈ menu d.isSudo, item.needsSudo = true

variable [DecidableEq Hash] [DecidableEq AccountId]

/-- What the chain stores. -/
def chain : Storage Hash AccountId := run E.T d.log

/-- The transaction that pressing the button of the page sends. -/
def submission : Option (AccountId × Call Hash) :=
  match d.form.bind fun form => (form.button E.toCodec d.currentAccount d.sudoKey).press E.numbers
  with
  | some (.sudoTx (some account) "votechain" callable params) =>
    (E.toCall callable params).map fun call => (account, call)
  | _ => none

end

variable [DecidableEq Hash] [DecidableEq AccountId]

/-- Only without an account there is a login, and only with one a logout, which leads to the home
page. -/
def act (E : Setting Hash AccountId Number) :
    PageEvent Hash AccountId → Desk Hash AccountId Args → DeskAnswer × Desk Hash AccountId Args
  | .login account, d =>
    if d.currentAccount = none then
      (.done, { d with
        currentAccount := some account
        checks := d.checks ++ [(account, d.keys.length)] })
    else
      (.ignored, d)
  | .logout, d =>
    if d.currentAccount = none then
      (.ignored, d)
    else
      (.done, { d.visit .home with currentAccount := none, isSudo := false })
  | .checkSudo account sent sudoKey, d =>
    if (account, sent) ∈ d.checks ∧ sudoKey ∈ d.keysSince E sent then
      (.done, { d with isSudo := account = sudoKey, checks := d.checks.erase (account, sent) })
    else
      (.ignored, d)
  | .loadSudoKey sudoKey, d =>
    if ∃ sent ∈ d.keyQuery, sudoKey ∈ d.keysSince E sent then
      (.done, { d with
        sudoKey := if E.isEmpty sudoKey then none else some sudoKey
        keyQuery := none })
    else
      (.ignored, d)
  | .visit page, d => (.done, d.visit page)
  | .typeText text, d => (.done, { d with form := d.form.map (·.typeText text) })
  | .selectElection electionId, d =>
    if electionId ∈ d.context.elections.map SelectOption.value then
      (.done, { d with form := d.form.map (·.selectElection electionId) })
    else
      (.ignored, d)
  | .submit, d => (.done, { d with pool := d.pool ++ (d.submission E).toList })

/-- When `Main` shows the pages again, the navigation bar starts anew. A reply of elections may be
an old one: it lists ids that are stored. -/
def step (E : Setting Hash AccountId Number) :
    DeskEvent Hash AccountId → Desk Hash AccountId Args → DeskAnswer × Desk Hash AccountId Args
  | .connect page, d =>
    if d.shown then
      (.ignored, d)
    else
      (.done, { d.openPage page with shown := true, isSudo := false, checks := [] })
  | .disconnect, d => (.done, { d with shown := false })
  | .act event, d => if d.shown then d.act E event else (.ignored, d)
  | .fetched entries, d =>
    if 0 < d.fetches ∧ ∀ entry ∈ entries, ((d.chain E).elections.get entry.1).isSome then
      (.done, { d with
        fetches := d.fetches - 1
        context := reducer d.context
          (.fetchElections (fetchElections E.toHuman E.hexToString entries)) })
    else
      (.ignored, d)
  | .inBlock account call, d =>
    if (account, call) ∈ d.pool then
      let d' := { d with pool := d.pool.erase (account, call) }
      if account = d.key E then
        (.dispatched (apply E.T ⟨.root, call⟩ (d.chain E)).1,
          { d' with log := d.log ++ [⟨.root, call⟩] })
      else
        (.refused, d')
    else
      (.ignored, d)
  | .setKey account, d => (.done, { d with keys := d.keys ++ [account] })
  | .other x, d => (.done, { d with log := d.log ++ [x] })

end Desk

end Votechain.Client

namespace Votechain.Mock
open Client

/-- The mock runtime with account 1 as the sudo key. -/
def setting : Desk.Setting (List UInt8) Nat Nat where
  toDisplay := display
  T := config
  key := 1
  isEmpty account := account = 0
  hexToString _ := none

end Votechain.Mock
