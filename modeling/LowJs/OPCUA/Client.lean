import LowJs.Core.Machine
import Mathlib.Data.List.Count

/-!
# The OPC-UA client

`LowOPCUA` of low_opcua.cpp: the methods of the client, its nodes and subscriptions, the responses and
errors of the web thread, the timeouts of the tasks, and `OnLoop` with the calls into JavaScript it makes.
The JavaScript objects share a cell with the pointer to the `LowOPCUA`; the tasks are kept in `mTasks`.
-/

namespace LowJs.OPCUA

/-- The requests of which something is kept: `DESTROY` of the client, the creation and destruction of
subscriptions, their monitored items, and the others. -/
inductive TaskType
  | destroy
  | createSubscription
  | destroySubscription (sub : Nat)
  | add (sub node : Nat)
  | remove (sub node item : Nat)
  | other
  deriving DecidableEq, Repr

/-- A response: it says that the request has failed, or has been carried out, with the identifier of the
new item where one is created. -/
inductive Response
  | failed
  | done (item : Nat)
  deriving DecidableEq, Repr

/-- `LowOPCUATask`; a task without a callback has the stash index 0. -/
structure Task where
  id : Nat
  type : TaskType
  callback : Bool
  result : Option Response
  deriving DecidableEq, Repr

/-- What a request's callback is called with. -/
inductive Ending
  | response (r : Response)
  | timeout
  | closed
  deriving DecidableEq, Repr

/-- Where the main thread is: in the `error` event of `OnLoop`, in its loop over the tasks, in the callback
of a timeout, or elsewhere. `OnLoop` is called by the main loop, or by `OnTaskTimeout`, which does not look
at its result. -/
inductive PC
  | idle
  | inError (byLoop : Bool)
  | inTasks (byLoop : Bool)
  | inTimeout
  deriving DecidableEq, Repr

/-- What a method of a JavaScript object asks for. -/
inductive Request
  | createSubscription
  | destroySubscription (sub : Nat)
  | add (sub node : Nat)
  | remove (sub node : Nat)
  | other
  deriving DecidableEq, Repr

/-- The object, the cell that points to it, and the hidden properties of the subscriptions and nodes. The
rest is history: the items the server monitors for each subscription, the calls of the callbacks with the
response that has come for each request, and whether a task has been read after it was erased, or the
object after it was deleted. -/
structure Client where
  alive : Bool
  cell : Bool
  mConnectState : Nat
  mError : Bool
  mDisabledState : Nat
  mDetachedState : Nat
  mTasks : List Task
  looping : Bool
  pc : PC
  requests : Nat
  subs : Nat
  subId : Nat → Bool
  itemCount : Nat → Int
  monitoredItemID : Nat → Option Nat
  items : List (Nat × Nat)
  calls : List (Nat × Ending)
  answered : Nat → Option Response
  freed : Bool

/-- What happens: a method is called, with arguments of the right kind or not, with a callback or not, and
`__UA_Client_AsyncServiceEx` sends the request or fails; `destroy` of the client, which may have something
to send; what the web thread does; a task's timeout; and the steps of `OnLoop` and `OnTaskTimeout`. -/
inductive Input
  | request (r : Request) (args callback sent : Bool)
  | destroy (callback sent : Bool)
  | connected (err : Bool)
  | response (id : Nat) (r : Response)
  | error
  | disconnected
  | timeout (id : Nat)
  | timeoutReturns
  | loop
  | errorReturns
  | task (id : Nat)
  | tasksEnd (skipped : Bool)
  deriving DecidableEq, Repr

namespace Client

/-- The object after its constructor. -/
def start : Client where
  alive := true
  cell := true
  mConnectState := 0
  mError := false
  mDisabledState := 0
  mDetachedState := 0
  mTasks := []
  looping := false
  pc := .idle
  requests := 0
  subs := 0
  subId _ := false
  itemCount _ := 0
  monitoredItemID _ := none
  items := []
  calls := []
  answered _ := none
  freed := false

def find (s : Client) (id : Nat) : Option Task := s.mTasks.find? (·.id == id)

def call (s : Client) (task : Task) (ending : Ending) : Client :=
  if task.callback then { s with calls := s.calls ++ [(task.id, ending)] } else s

def addItemCount (s : Client) (sub : Nat) (n : Int) : Client :=
  { s with itemCount := Function.update s.itemCount sub (s.itemCount sub + n) }

/-! ### The methods -/

/-- The sending of a request, and `AddAsyncRequestAndUnlock`. -/
def send (s : Client) (type : TaskType) (callback sent : Bool) : Client :=
  if sent then
    { s with mTasks := s.mTasks ++ [⟨s.requests, type, callback, none⟩], requests := s.requests + 1 }
  else
    { s with
      mError := true
      mDisabledState := if s.mDisabledState = 0 then 1 else s.mDisabledState
      looping := true }

/-- `subscription.add`: the count goes up before the node and its properties are looked at. -/
def add (s : Client) (sub node : Nat) (args callback sent : Bool) : Client :=
  if s.subId sub then
    let s := s.addItemCount sub 1
    if (s.monitoredItemID node).isSome || !args then s else s.send (.add sub node) callback sent
  else s

/-- `subscription.remove`. -/
def remove (s : Client) (sub node : Nat) (callback sent : Bool) : Client :=
  if s.subId sub then
    match s.monitoredItemID node with
    | none => s
    | some item => s.send (.remove sub node item) callback sent
  else s

/-- `subscription.destroy`. -/
def destroySubscription (s : Client) (sub : Nat) (callback sent : Bool) : Client :=
  if s.subId sub && s.itemCount sub == 0 then s.send (.destroySubscription sub) callback sent else s

/-- The methods throw where the cell is cleared, and where the client is not connected, or has thrown an
error, which is read in the object. -/
def request (s : Client) (r : Request) (args callback sent : Bool) : Client :=
  if !s.cell then s
  else if !s.alive then { s with freed := true }
  else if s.mConnectState ≠ 2 ∨ s.mDisabledState = 2 then s
  else match r with
    | .createSubscription => if args then s.send .createSubscription callback sent else s
    | .destroySubscription sub => s.destroySubscription sub callback sent
    | .add sub node => s.add sub node args callback sent
    | .remove sub node => s.remove sub node callback sent
    | .other => if args then s.send .other callback sent else s

/-- `destroy` of the client clears the cell; `DisconnectAndDetach`. -/
def destroy (s : Client) (callback sent : Bool) : Client :=
  if !s.cell then s
  else
    let s := { s with cell := false }
    if !s.alive then { s with freed := true }
    else if s.mConnectState ≠ 0 ∧ s.mDisabledState = 0 ∧ sent then
      { s with
        mDetachedState := 1
        mTasks := s.mTasks ++ [⟨s.requests, .destroy, callback, none⟩]
        requests := s.requests + 1 }
    else { s with mDetachedState := 2, looping := true }

/-! ### The web thread -/

/-- `OnConnect`. -/
def connected (s : Client) (err : Bool) : Client :=
  if s.alive ∧ s.mDisabledState = 0 ∧ s.mConnectState = 0 then
    { s with mConnectState := 1, mError := err, looping := true }
  else s

/-- `OnTaskCallback`. -/
def response (s : Client) (id : Nat) (r : Response) : Client :=
  if s.alive ∧ s.mDisabledState = 0 then
    match s.find id with
    | some task =>
      if task.result.isNone then
        { s with
          mTasks := s.mTasks.map fun t => if t.id = id then { t with result := some r } else t
          answered := Function.update s.answered id (some r)
          looping := true }
      else s
    | none => s
  else s

/-- `OnEvents` with an error of the connection. -/
def error (s : Client) : Client :=
  if s.alive ∧ s.mDisabledState = 0 then
    { s with mError := true, mDisabledState := 1, looping := true }
  else s

/-- `OnEvents` when the connection is down after a disconnect. -/
def disconnected (s : Client) : Client :=
  if s.alive ∧ s.mDisabledState = 0 ∧ s.mDetachedState = 1 then
    { s with mDetachedState := 2, looping := true }
  else s

/-! ### `OnLoop` -/

/-- The main loop deletes the object: the tasks are gone, and the callback of a `DESTROY` is called. -/
def delete (s : Client) : Client :=
  { s with
    alive := false
    mTasks := []
    looping := false
    calls := s.calls ++ ((s.mTasks.filter fun t => t.type == .destroy && t.callback).getLast?.map
      fun t => (t.id, Ending.closed)).toList }

/-- The end of `OnLoop`, with its result. -/
def returns (s : Client) (byLoop result : Bool) : Client :=
  let s := { s with pc := .idle }
  if byLoop && !result then s.delete else s

/-- `OnLoop` up to the first call into JavaScript, or to its loop over the tasks. -/
def onLoop (s : Client) (byLoop : Bool) : Client :=
  if (s.mConnectState = 1 ∧ s.mError ∧ s.mDisabledState ≠ 2) ∨ s.mDisabledState = 1 then
    { s with pc := .inError byLoop }
  else if s.mDisabledState ≠ 0 ∨ s.mDetachedState ≠ 0 then
    s.returns byLoop
      (!decide ((s.mDetachedState ≠ 0 ∧ s.mDisabledState ≠ 0) ∨ s.mDetachedState = 2))
  else
    { s with mConnectState := if s.mConnectState = 1 then 2 else s.mConnectState, pc := .inTasks byLoop }

/-- What `OnLoop` does with the response to a task, before it calls the callback. -/
def settle (s : Client) (task : Task) (r : Response) : Client :=
  match task.type, r with
  | .createSubscription, .done _ =>
    if task.callback then
      { s with
        subs := s.subs + 1
        subId := Function.update s.subId s.subs true
        itemCount := Function.update s.itemCount s.subs 0 }
    else s
  | .destroySubscription sub, .done _ => { s with subId := Function.update s.subId sub false }
  | .add sub _, .failed => s.addItemCount sub (-1)
  | .add sub node, .done item =>
    { s with
      monitoredItemID := Function.update s.monitoredItemID node (some item)
      items := (sub, item) :: s.items }
  | .remove sub _ item, .done _ => { s.addItemCount sub (-1) with items := s.items.erase (sub, item) }
  | _, _ => s

/-- A task that has its response is erased and settled. -/
def process (s : Client) (task : Task) (r : Response) : Client :=
  ({ s with mTasks := s.mTasks.erase task }.settle task r).call task (.response r)

def task (s : Client) (id : Nat) : Client :=
  match s.find id with
  | some task =>
    match task.result with
    | some r => if task.type = .destroy then s else s.process task r
    | none => s
  | none => s

/-- `OnTaskTimeout` up to the callback. The callback is read from the task, which has been erased. -/
def timeout (s : Client) (id : Nat) : Client :=
  match s.find id with
  | some task =>
    if task.result.isSome ∨ s.mDisabledState ≠ 0 then s
    else
      { s.call task .timeout with
        mDetachedState := if task.type = .destroy then 2 else s.mDetachedState
        mTasks := s.mTasks.erase task
        freed := s.freed || task.callback
        pc := .inTimeout }
  | none => s

/-- `OnTaskTimeout` behind the callback. -/
def timeoutReturns (s : Client) : Client :=
  if s.mDetachedState = 2 then { s with looping := true, pc := .idle }
  else { s with pc := .idle }.onLoop false

/-- An input that cannot happen leaves the client as it is. The timeouts of a deleted object are cleared. -/
def step (s : Client) : Input → Client
  | .request r args callback sent => s.request r args callback sent
  | .destroy callback sent => s.destroy callback sent
  | .connected err => s.connected err
  | .response id r => s.response id r
  | .error => s.error
  | .disconnected => s.disconnected
  | .timeout id => if s.alive ∧ s.pc = .idle then s.timeout id else s
  | .timeoutReturns => if s.pc = .inTimeout then s.timeoutReturns else s
  | .loop => if s.alive ∧ s.pc = .idle ∧ s.looping then { s with looping := false }.onLoop true else s
  | .errorReturns =>
    match s.pc with
    | .inError byLoop => { s with mDisabledState := 2 }.returns byLoop false
    | _ => s
  | .task id =>
    match s.pc with
    | .inTasks _ => s.task id
    | _ => s
  | .tasksEnd skipped =>
    match s.pc with
    | .inTasks byLoop => { s with looping := s.looping || skipped }.returns byLoop true
    | _ => s

end Client

/-- The machine of one client. -/
def machine : Machine Client Input := ⟨Client.step⟩

end LowJs.OPCUA
