import Votechain.Theory.Run

/-!
# The connection to the node

`SubstrateContext` opens an API object while it renders, and loads the accounts of the wallet
extension in an effect once the connection is ready. The listeners of the API object and the end of
the load reach the state of the context at any time and in any order. `Main` of `App` shows the
pages when both are done. An error that is about no socket makes it throw, and nothing catches that:
the tree is unmounted.
-/

open Machine

namespace Votechain.Client.Substrate

variable {Pair : Type}

/-- An error that the API object raises. One that is about a socket has it as its `target`, given by
its url. -/
structure ApiError where
  target : Option String
  deriving DecidableEq

inductive ApiState where
  | connectInit
  | connecting
  | ready
  | error
  deriving DecidableEq

inductive KeyringState where
  | loading
  | ready
  | error
  deriving DecidableEq

structure Account where
  address : String
  name : String
  source : String
  deriving DecidableEq

/-- What `Keyring.loadAll` is given. -/
structure Keyring where
  isDevelopment : Bool
  accounts : List Account
  deriving DecidableEq

/-- An API object is given by its number among those that were opened. -/
structure State (Pair : Type) where
  socket : String
  keyring : Option Keyring
  keyringState : Option KeyringState
  api : Option Nat
  apiError : Option ApiError
  apiState : Option ApiState
  currentAccount : Option Pair

/-- The socket of the query of the page, if there is one, and else that of the configuration. -/
def connectedSocket (rpc : Option String) (providerSocket : String) : String :=
  match rpc with
  | none | some "" => providerSocket
  | some socket => socket

/-- A socket in the properties of the context comes first. -/
def initialState (rpc prop : Option String) (providerSocket : String) : State Pair where
  socket := prop.getD (connectedSocket rpc providerSocket)
  keyring := none
  keyringState := none
  api := none
  apiError := none
  apiState := none
  currentAccount := none

inductive Action (Pair : Type) where
  | connectInit
  | connect (payload : Nat)
  | connectSuccess
  | connectError (payload : ApiError)
  | loadKeyring
  | setKeyring (payload : Keyring)
  | keyringError
  | setCurrentAccount (payload : Option Pair)

def reducer (state : State Pair) : Action Pair → State Pair
  | .connectInit => { state with apiState := some .connectInit }
  | .connect payload => { state with api := some payload, apiState := some .connecting }
  | .connectSuccess => { state with apiState := some .ready }
  | .connectError payload => { state with apiState := some .error, apiError := some payload }
  | .loadKeyring => { state with keyringState := some .loading }
  | .setKeyring payload => { state with keyring := some payload, keyringState := some .ready }
  | .keyringError => { state with keyring := none, keyringState := some .error }
  | .setCurrentAccount payload => { state with currentAccount := payload }

/-! ## The chain and the accounts -/

inductive ChainType where
  | development
  | local
  | live
  | custom
  deriving DecidableEq

/-- What the extension and the node answer. The name of the chain is an object, also where it is the
empty text. A node may have no method for the type of the chain. -/
structure Answers where
  accounts : List Account
  systemChain : String
  chainType : Option ChainType

def retrieveChainInfo (answers : Answers) : String × ChainType :=
  (answers.systemChain, answers.chainType.getD .live)

/-- The keyring that the accounts are loaded into. -/
def loadKeyring (isTestChain : String → Bool) (answers : Answers) : Keyring :=
  let (systemChain, systemChainType) := retrieveChainInfo answers
  { isDevelopment :=
      systemChainType = .development || systemChainType = .local || isTestChain systemChain
    accounts := answers.accounts.map fun account =>
      { account with name := account.name ++ " (" ++ account.source ++ ")" } }

/-! ## What is shown -/

inductive View where
  | message (header content : String)
  | loader (text : String)
  | pages
  deriving DecidableEq

namespace View

def connectionFailed (url : String) : View :=
  .message "Error Connecting to Substrate" ("Connection to websocket '" ++ url ++ "' failed.")

def connecting : View := .loader "Connecting to Substrate"

def loadingAccounts : View :=
  .loader "Loading accounts (please review any extension's authorization)"

end View

/-- `Main` of `App`. The message reads the url of the target, and throws where there is none. -/
def main (state : State Pair) : Option View :=
  if state.apiState = some .error then
    (state.apiError.bind ApiError.target).map .connectionFailed
  else if state.apiState ≠ some .ready then
    some .connecting
  else if state.keyringState ≠ some .ready then
    some .loadingAccounts
  else
    some .pages

/-! ## The context -/

/-- An API object: whether it has been connected, whether its promise `isReady` is resolved, and how
many callbacks wait for the promise. -/
structure ApiPromise where
  socket : String
  hasConnected : Bool
  isReady : Bool
  callbacks : Nat

/-- A load of the accounts, with the API object that it asks. -/
structure Load where
  api : Option Nat
  isPending : Bool

/-- The state, the state of the last render, which is what `Main` and the effects see, and what has
been opened and loaded. -/
structure Provider (Pair : Type) where
  state : State Pair
  rendered : State Pair
  isUnmounted : Bool
  keyringLoadAll : Bool
  apis : List ApiPromise
  loads : List Load

namespace Provider

variable (p : Provider Pair)

def mount (state : State Pair) : Provider Pair := ⟨state, state, false, false, [], []⟩

def dispatch (action : Action Pair) : Provider Pair :=
  { p with state := reducer p.state action }

def connect : Provider Pair :=
  if p.state.apiState.isSome then
    p
  else
    { p.dispatch .connectInit with apis := p.apis ++ [⟨p.state.socket, false, false, 0⟩] }

/-- What is dispatched in a render is rendered with it. Where `Main` throws, no part of the tree is
left. -/
def render : Provider Pair :=
  { p.connect with
    rendered := p.connect.state
    isUnmounted := (main p.connect.state).isNone }

/-- What the user sees. -/
def screen : Option View := if p.isUnmounted then none else main p.rendered

def loadAccounts (state : State Pair) : Provider Pair :=
  { p.dispatch .loadKeyring with loads := p.loads ++ [⟨state.api, true⟩] }

def effect : Provider Pair :=
  if p.rendered.apiState = some .ready ∧ p.rendered.keyringState = none ∧
      p.keyringLoadAll = false then
    { p with keyringLoadAll := true }.loadAccounts p.rendered
  else
    p

end Provider

/-- What React, the API objects, the loads and the user do. A reply without answers is one that
throws. -/
inductive ProviderEvent (Pair : Type) where
  | render
  | effect
  | connected (i : Nat)
  | ready (i : Nat)
  | callback (i : Nat)
  | error (i : Nat) (err : ApiError)
  | reply (j : Nat) (answers : Option Answers)
  | setCurrentAccount (acct : Option Pair)

namespace Provider

/-- The event happens, or it cannot happen and is answered with `false`. An API object becomes ready
once, after it has been connected, and then its promise is resolved. -/
def handle (isTestChain : String → Bool) :
    ProviderEvent Pair → Provider Pair → Bool × Provider Pair
  | .render, p => (true, p.render)
  | .effect, p => (true, p.effect)
  | .connected i, p =>
    match p.apis[i]? with
    | some api =>
      let apis := p.apis.set i { api with hasConnected := true, callbacks := api.callbacks + 1 }
      (true, { p.dispatch (.connect i) with apis })
    | none => (false, p)
  | .ready i, p =>
    match p.apis[i]? with
    | some api =>
      if api.hasConnected ∧ ¬ api.isReady then
        let apis := p.apis.set i { api with isReady := true }
        (true, { p.dispatch .connectSuccess with apis })
      else
        (false, p)
    | none => (false, p)
  | .callback i, p =>
    match p.apis[i]? with
    | some api =>
      if api.isReady ∧ 0 < api.callbacks then
        let apis := p.apis.set i { api with callbacks := api.callbacks - 1 }
        (true, { p.dispatch .connectSuccess with apis })
      else
        (false, p)
    | none => (false, p)
  | .error i err, p =>
    if i < p.apis.length then
      (true, p.dispatch (.connectError err))
    else
      (false, p)
  | .reply j answers, p =>
    match p.loads[j]? with
    | some ⟨api, true⟩ =>
      let loads := p.loads.set j ⟨api, false⟩
      match api, answers with
      | some _, some answers =>
        (true, { p.dispatch (.setKeyring (loadKeyring isTestChain answers)) with loads })
      -- without an API object the load throws
      | _, _ => (true, { p.dispatch .keyringError with loads })
    | _ => (false, p)
  | .setCurrentAccount acct, p => (true, p.dispatch (.setCurrentAccount acct))

/-- Nothing reaches a tree that is unmounted. -/
def step (isTestChain : String → Bool) (ev : ProviderEvent Pair) (p : Provider Pair) :
    Bool × Provider Pair :=
  if p.isUnmounted then (false, p) else p.handle isTestChain ev

end Provider

end Votechain.Client.Substrate
