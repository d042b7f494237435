import LowJs.Core.Machine

/-!
# The sockets of an agent

`Agent` of `http.js` with the part of `ClientRequest` and `IncomingMessage` of `internal/http.js` that calls
it: the tables of the sockets in use, of the free ones and of the requests that wait, each of them under a
name. Requests and sockets are numbered.
-/

namespace LowJs.HTTP

variable {ν : Type*}

/-- What an agent is made with; `maxSockets` is `none` for `Infinity`. -/
structure Options where
  keepAlive : Bool
  maxSockets : Option Nat
  maxFreeSockets : Nat

/-- An agent with its requests, of which `made` exist, and its sockets, of which `created` exist. Of a
request, `name` is `getName` of its options and `agent` says that its agent is not `null`; of a socket,
`httpSetup` is the request in `_httpSetup`. An entry of the tables may be missing. The rest is history:
which request has been given which socket, whether one was given away that a request still had, the
requests that have been queued, and whether a method has thrown. -/
structure Agent (ν : Type*) where
  requests : ν → Option (List Nat)
  sockets : ν → Option (List Nat)
  freeSockets : ν → Option (List Nat)
  made : Nat
  name : Nat → ν
  agent : Nat → Bool
  created : Nat
  socketName : Nat → ν
  httpSetup : Nat → Option Nat
  closed : Nat → Bool
  assigned : List (Nat × Nat)
  takenAway : Bool
  queued : ν → List Nat
  thrown : Bool

def init [Inhabited ν] : Agent ν :=
  ⟨fun _ => none, fun _ => none, fun _ => none, 0, fun _ => default, fun _ => false, 0,
    fun _ => default, fun _ => none, fun _ => false, [], false, fun _ => [], false⟩

/-- What can happen: a new request, the end of a response on a socket, after which the socket may be used
again or not, the `close` event of a socket, and its `agentRemove` event. -/
inductive Input (ν : Type*)
  | addRequest (name : ν)
  | responseEnd (socket : Nat) (reuse : Bool)
  | socketClose (socket : Nat)
  | agentRemove (socket : Nat)
  deriving DecidableEq

namespace Agent

variable [DecidableEq ν]

/-- What stands in the tables under a name. -/
def queue (s : Agent ν) (name : ν) : List Nat := (s.requests name).getD []

def inUse (s : Agent ν) (name : ν) : List Nat := (s.sockets name).getD []

def free (s : Agent ν) (name : ν) : List Nat := (s.freeSockets name).getD []

/-- `_onSocket` of a request. -/
def onSocket (s : Agent ν) (request socket : Nat) : Agent ν :=
  { s with
    httpSetup := Function.update s.httpSetup socket (some request)
    assigned := s.assigned ++ [(request, socket)]
    takenAway := s.takenAway || (s.httpSetup socket).any (· != request) }

/-- `createConnection`. -/
def createConnection (s : Agent ν) (name : ν) : Nat × Agent ν :=
  (s.created, { s with
    created := s.created + 1
    socketName := Function.update s.socketName s.created name })

/-- A socket is taken out of a table, and so is an entry that becomes empty. -/
def takeOut (table : ν → Option (List Nat)) (name : ν) (socket : Nat) : ν → Option (List Nat) :=
  match table name with
  | none => table
  | some sockets =>
    if socket ∈ sockets then
      let rest := sockets.erase socket
      Function.update table name (if rest = [] then none else some rest)
    else table

/-- `this.sockets[name].push(socket)`, which throws where there is no entry. -/
def pushSocket (s : Agent ν) (name : ν) (socket : Nat) : Bool × Agent ν :=
  match s.sockets name with
  | none => (true, { s with thrown := true })
  | some sockets =>
    (false, { s with sockets := Function.update s.sockets name (some (sockets ++ [socket])) })

/-- `removeSocket`, and whether it throws. -/
def removeSocket (s : Agent ν) (socket : Nat) (name : ν) : Bool × Agent ν :=
  let s := { s with
    sockets := takeOut s.sockets name socket
    freeSockets := takeOut s.freeSockets name socket }
  match s.queue name with
  | [] => (false, s)
  | request :: _ =>
    let (new, s) := s.createConnection name
    (s.onSocket request new).pushSocket name new

/-- `freeSocket` keeps a socket for which no request waits. -/
def parks (O : Options) (s : Agent ν) (name : ν) : Bool :=
  O.keepAlive && !((O.maxSockets.any fun max =>
    decide (max < (s.free name).length + (s.inUse name).length)) ||
      decide (O.maxFreeSockets ≤ (s.free name).length))

/-- `freeSocket`; a socket that is not kept is destroyed, and its `close` event comes later. -/
def freeSocket (O : Options) (s : Agent ν) (socket : Nat) (name : ν) : Agent ν :=
  match s.queue name with
  | request :: rest =>
    { s with
      requests := Function.update s.requests name (if rest = [] then none else some rest) }.onSocket
        request socket
  | [] =>
    if parks O s name then
      { s with freeSockets := Function.update s.freeSockets name (some (s.free name ++ [socket])) }
    else s

/-- The `sockLen` of `addRequest` is below `maxSockets`. -/
def hasRoom (O : Options) (s : Agent ν) (name : ν) : Bool :=
  O.maxSockets.all fun max => decide ((s.free name).length + (s.inUse name).length < max)

/-- `addRequest`, for a new request. -/
def addRequest (O : Options) (s : Agent ν) (name : ν) : Agent ν :=
  let request := s.made
  let s := { s with
    made := s.made + 1
    name := Function.update s.name request name
    agent := Function.update s.agent request true
    sockets := Function.update s.sockets name (some (s.inUse name)) }
  match s.free name with
  | socket :: rest =>
    let s := { s with
      freeSockets := Function.update s.freeSockets name (if rest = [] then none else some rest) }
    ((s.onSocket request socket).pushSocket name socket).2
  | [] =>
    if hasRoom O s name then
      let (new, s) := s.createConnection name
      ((s.onSocket request new).pushSocket name new).2
    else { s with
      requests := Function.update s.requests name (some (s.queue name ++ [request]))
      queued := Function.update s.queued name (s.queued name ++ [request]) }

/-- The listeners of the request for `close` and `agentRemove`: the agent becomes `null` unless
`removeSocket` throws. -/
def drop (s : Agent ν) (socket : Nat) : Agent ν :=
  match s.httpSetup socket with
  | none => s
  | some request =>
    if s.agent request then
      let (threw, t) := s.removeSocket socket (s.name request)
      if threw then t else { t with agent := Function.update t.agent request false }
    else s

/-- The end of a response. -/
def responseEnd (O : Options) (s : Agent ν) (socket : Nat) (reuse : Bool) : Agent ν :=
  match s.httpSetup socket with
  | none => s
  | some request =>
    if s.agent request then
      let s := { s with httpSetup := Function.update s.httpSetup socket none }
      if reuse then freeSocket O s socket (s.name request)
      else (s.removeSocket socket (s.name request)).2
    else s

def step (O : Options) (s : Agent ν) : Input ν → Agent ν
  | .addRequest name => addRequest O s name
  | .responseEnd socket reuse => responseEnd O s socket reuse
  | .socketClose socket =>
    if s.closed socket = true ∨ s.created ≤ socket then s
    else { s with closed := Function.update s.closed socket true }.drop socket
  | .agentRemove socket => s.drop socket

end Agent

def machine [DecidableEq ν] (O : Options) : Machine (Agent ν) (Input ν) := ⟨Agent.step O⟩

end LowJs.HTTP
