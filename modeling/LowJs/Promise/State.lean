import LowJs.Core.Machine

/-!
# Promises

The functions of `low_promise.cpp` on a heap of promise objects. A promise keeps its subscribers
in `chain`; `promise_handle_thens` detaches the chain and walks it, calls the handlers, settles
the derived promises and enters itself for each of them. The walk stops where a handler of the
user runs, so it is a stack of frames here, and a run interleaves its pieces with the calls that
user code makes.
-/

namespace LowJs.Promise

/-- `_promiseStatus`: 0, 1 and 2. -/
inductive Status
  | pending
  | fulfilled
  | rejected
  deriving DecidableEq, Repr, Inhabited

/-- A JavaScript value: not an object, an object that is no promise, a promise, the array in which
the promise `id` of `Promise.all` collects its values, and the error Duktape throws itself. -/
inductive Value
  | undefined
  | plain (n : Nat)
  | object (n : Nat)
  | promise (id : Nat)
  | array (id : Nat)
  | typeError
  deriving DecidableEq, Repr, Inhabited

/-- What is stored under `_then` and `_catch`: a function of the user, or one of the two functions
that `promise_all` binds to the object itself. -/
inductive Handler
  | user (f : Nat)
  | allResolved
  | allRejected
  deriving DecidableEq, Repr

/-- A promise object, or one of the objects that `promise_all` puts into the chains of its elements
(these have a `promise` and an `index`). `result` is the array behind `Value.array`; `constructed`
says that the user has got functions to resolve and reject it. The rest is history: `called` says
that one of the two functions has been called, `joined` are the subscribers in the order of their
registration, `ran` those the walks have taken, in that order. -/
structure Object where
  promiseStatus : Status
  value : Value
  chain : List Nat
  thenHandler : Option Handler
  catchHandler : Option Handler
  warnedUnhandled : Bool
  left : Option Int
  promise : Nat
  index : Nat
  result : List Value
  constructed : Bool
  called : Bool
  joined : List Nat
  ran : List Nat
  deriving DecidableEq, Repr

/-- A promise as the functions create it. -/
def Object.new (status : Status) (value : Value) : Object :=
  ⟨status, value, [], none, none, false, none, 0, 0, [], false, false, [], []⟩

instance : Inhabited Object := ⟨.new .pending .undefined⟩

/-- A call that has not returned: `promise_handle_thens` with what is left of the chain, the handler
of a derived promise, or the executor of a constructor. -/
inductive Frame
  | handleThens (promise : Nat) (status : Status) (value : Value) (rest : List Nat) (count : Nat)
  | pcall (sub : Nat)
  | executor (this : Nat)
  deriving DecidableEq, Repr

/-- The objects below `size` exist. `ticks` are the promises for which `promise_handle_thens` is in
the next-tick queue, the one that is called next first; `control` are the calls, the innermost
first. `calls` and `unhandled` are the calls of handlers and the reasons thrown as unhandled. -/
structure State where
  heap : Nat → Object
  size : Nat
  ticks : List Nat
  control : List Frame
  dukFlagStop : Bool
  calls : List (Nat × Value)
  unhandled : List Value

def init : State := ⟨fun _ => default, 0, [], [], false, [], []⟩

namespace State

/-! ### Small operations -/

def status (s : State) (id : Nat) : Status := (s.heap id).promiseStatus

def modify (s : State) (id : Nat) (f : Object → Object) : State :=
  { s with heap := Function.update s.heap id (f (s.heap id)) }

/-- A new object gets the number `size`. -/
def alloc (s : State) (o : Object) : State :=
  { s with heap := Function.update s.heap s.size o, size := s.size + 1 }

/-- `low_call_next_tick` for `promise_handle_thens`; the main loop takes the latest call first. -/
def callNextTick (s : State) (id : Nat) : State := { s with ticks := id :: s.ticks }

@[simp] lemma modify_heap (s : State) (id : Nat) (f : Object → Object) (p : Nat) :
    (s.modify id f).heap p = if p = id then f (s.heap p) else s.heap p := by
  by_cases h : p = id
  · subst h
    simp [modify]
  · simp [modify, h]

@[simp] lemma alloc_heap (s : State) (o : Object) (p : Nat) :
    (s.alloc o).heap p = if p = s.size then o else s.heap p := by
  by_cases h : p = s.size <;> simp [alloc, h]

@[simp] lemma modify_size (s : State) (id : Nat) (f : Object → Object) :
    (s.modify id f).size = s.size := rfl

@[simp] lemma modify_ticks (s : State) (id : Nat) (f : Object → Object) :
    (s.modify id f).ticks = s.ticks := rfl

@[simp] lemma modify_control (s : State) (id : Nat) (f : Object → Object) :
    (s.modify id f).control = s.control := rfl

@[simp] lemma alloc_size (s : State) (o : Object) : (s.alloc o).size = s.size + 1 := rfl

@[simp] lemma alloc_ticks (s : State) (o : Object) : (s.alloc o).ticks = s.ticks := rfl

@[simp] lemma alloc_control (s : State) (o : Object) : (s.alloc o).control = s.control := rfl

@[simp] lemma callNextTick_heap (s : State) (id : Nat) : (s.callNextTick id).heap = s.heap := rfl

@[simp] lemma callNextTick_size (s : State) (id : Nat) : (s.callNextTick id).size = s.size := rfl

@[simp] lemma callNextTick_control (s : State) (id : Nat) :
    (s.callNextTick id).control = s.control := rfl

@[simp] lemma callNextTick_ticks (s : State) (id : Nat) :
    (s.callNextTick id).ticks = id :: s.ticks := rfl

/-- `_promiseStatus` and `_value` are set. -/
def settle (s : State) (id : Nat) (status : Status) (value : Value) : State :=
  s.modify id fun o => { o with promiseStatus := status, value := value }

/-- The result of a settled promise `q` is copied; its rejection counts as handled. -/
def adopt (s : State) (id q : Nat) : State :=
  let t := s.settle id (s.status q) (s.heap q).value
  if s.status q = .rejected then t.modify q fun o => { o with warnedUnhandled := true } else t

/-- `sub` joins the chain of `q`. -/
def subscribe (s : State) (q sub : Nat) : State :=
  s.modify q fun o => { o with chain := o.chain ++ [sub], joined := o.joined ++ [sub] }

/-! ### The functions of a promise -/

/-- `promise_param_resolve`. -/
def promise_param_resolve (s : State) (this : Nat) (value : Value) : State :=
  let s := s.modify this fun o => { o with called := true }
  if s.status this = .pending then
    match value with
    | .promise q =>
      if s.status q ≠ .pending then (s.adopt this q).callNextTick this
      else s.subscribe q this
    | v => (s.settle this .fulfilled v).callNextTick this
  else s

/-- `promise_param_reject`. -/
def promise_param_reject (s : State) (this : Nat) (reason : Value) : State :=
  let s := s.modify this fun o => { o with called := true }
  if s.status this = .pending then (s.settle this .rejected reason).callNextTick this else s

/-- `promise_constructor`, up to the call of the executor. -/
def promise_constructor (s : State) : State :=
  { s.alloc { Object.new .pending .undefined with constructed := true } with
    control := .executor s.size :: s.control }

/-- `promise_handle_thens`, up to the loop. -/
def promise_handle_thens (s : State) (id : Nat) : State :=
  let o := s.heap id
  { s.modify id fun o => { o with chain := [] } with
    control := .handleThens id o.promiseStatus o.value o.chain o.chain.length :: s.control }

/-- Lines 200 to 265: the derived promise gets the result of its handler. -/
def handlerResult (s : State) (sub : Nat) (result : Except Value Value) : State :=
  match result with
  | .ok (.promise q) =>
    if s.status q ≠ .pending then (s.adopt sub q).promise_handle_thens sub
    else (s.modify sub fun o => { o with thenHandler := none, catchHandler := none }).subscribe q sub
  | .ok v => (s.settle sub .fulfilled v).promise_handle_thens sub
  | .error v => (s.settle sub .rejected v).promise_handle_thens sub

/-! ### `Promise.all` -/

/-- An array is written behind its end as well. -/
def setAt (l : List Value) (i : Nat) (v : Value) : List Value :=
  if i < l.length then l.set i v else l ++ List.replicate (i - l.length) .undefined ++ [v]

/-- `duk_put_prop_index`; it throws where the target is not an object. -/
def putIndex (s : State) (target : Value) (i : Nat) (v : Value) : Option State :=
  match target with
  | .undefined => none
  | .plain _ => none
  | .array id => some (s.modify id fun o => { o with result := setAt o.result i v })
  | _ => some s

/-- `promise_all_resolved`, bound to `this`. -/
def promise_all_resolved (s : State) (this : Nat) (value : Value) : Except Value Value × State :=
  let id := (s.heap this).promise
  match (s.heap id).left with
  | none => (.error .typeError, s)
  | some left =>
    match s.putIndex (s.heap id).value (s.heap this).index value with
    | none => (.error .typeError, s)
    | some s =>
      if left - 1 = 0 then
        (.ok .undefined,
          (s.modify id fun o => { o with promiseStatus := .fulfilled }).callNextTick id)
      else (.ok .undefined, s.modify id fun o => { o with left := some (left - 1) })

/-- `promise_all_rejected`, bound to `this`. -/
def promise_all_rejected (s : State) (this : Nat) (reason : Value) : State :=
  let id := (s.heap this).promise
  (s.settle id .rejected reason).callNextTick id

/-- The object that waits for the element `index` of `id`. -/
def waiter (id index : Nat) : Object :=
  { Object.new .pending .undefined with
    thenHandler := some .allResolved
    catchHandler := some .allRejected
    promise := id
    index := index }

/-- The loop of `promise_all` and what follows it. -/
def allLoop (s : State) (id : Nat) (left : Int) : List Value → Nat → State
  | [], _ => s.modify id fun o => { o with
      left := if left ≠ 0 then some left else o.left
      promiseStatus := if left = 0 then .fulfilled else .pending }
  | v :: elems, i =>
    let put (v : Value) := s.modify id fun o => { o with result := setAt o.result i v }
    match v with
    | .promise q =>
      match s.status q with
      | .fulfilled => (put (s.heap q).value).allLoop id left elems (i + 1)
      | .rejected => (s.adopt id q).callNextTick id
      | .pending => ((s.alloc (waiter id i)).subscribe q s.size).allLoop id (left + 1) elems (i + 1)
    | v => (put v).allLoop id left elems (i + 1)

/-- `promise_all`. -/
def promise_all (s : State) (elems : List Value) : State :=
  (s.alloc (.new .fulfilled (.array s.size))).allLoop s.size 0 elems 0

/-! ### `Promise.race` and the rest -/

/-- The loop of `promise_race`. -/
def raceLoop (s : State) (id : Nat) : List Value → State
  | [] => s.modify id fun o => { o with promiseStatus := .pending }
  | v :: elems =>
    match v with
    | .promise q =>
      match s.status q with
      | .fulfilled => s.adopt id q
      | .rejected => (s.adopt id q).callNextTick id
      | .pending => (s.subscribe q id).raceLoop id elems
    | v => s.settle id .fulfilled v

/-- `promise_race`. -/
def promise_race (s : State) (elems : List Value) : State :=
  (s.alloc (.new .pending .undefined)).raceLoop s.size elems

/-- `promise_then_catch`. -/
def promise_then_catch (s : State) (this : Nat) (onThen onCatch : Option Nat) : State :=
  let t := (s.alloc { Object.new .pending .undefined with
    thenHandler := onThen.map .user
    catchHandler := onCatch.map .user }).subscribe this s.size
  if s.status this ≠ .pending then t.callNextTick this else t

/-- `promise_resolve`. -/
def promise_resolve (s : State) (value : Value) : State :=
  match value with
  | .promise _ => s
  | v => s.alloc (.new .fulfilled v)

/-- `promise_reject`. -/
def promise_reject (s : State) (reason : Value) : State :=
  (s.alloc (.new .rejected reason)).callNextTick s.size

/-! ### The walk -/

/-- The next iteration of the loop of `promise_handle_thens`. -/
def walkNext (s : State) (status : Status) (value : Value) (sub : Nat) : State :=
  match (if status = .fulfilled then (s.heap sub).thenHandler else (s.heap sub).catchHandler) with
  | none => (s.settle sub status value).promise_handle_thens sub
  | some (.user f) =>
    { s with control := .pcall sub :: s.control, calls := s.calls ++ [(f, value)] }
  | some .allResolved =>
    let (result, s) := s.promise_all_resolved sub value
    s.handlerResult sub result
  | some .allRejected => (s.promise_all_rejected sub value).handlerResult sub (.ok .undefined)

/-- The end of `promise_handle_thens`. An unhandled rejection is thrown through all the calls up to
the main loop; nothing catches it in between, as the walks are not entered from user code. -/
def walkEnd (s : State) (id : Nat) (status : Status) (value : Value) (count : Nat) : State :=
  if count = 0 ∧ status = .rejected then
    if (s.heap id).warnedUnhandled then s
    else
      let s := s.modify id fun o => { o with warnedUnhandled := true }
      if s.dukFlagStop then s
      else { s with control := [], unhandled := s.unhandled ++ [value] }
  else if status = .rejected then s.modify id fun o => { o with warnedUnhandled := true }
  else s

/-- A piece of the innermost walk. -/
def walk (s : State) : State :=
  match s.control with
  | .handleThens id status value (sub :: rest) count :: frames =>
    let s := { s with control := .handleThens id status value rest count :: frames }
    (s.modify id fun o => { o with ran := o.ran ++ [sub] }).walkNext status value sub
  | .handleThens id status value [] count :: frames =>
    walkEnd { s with control := frames } id status value count
  | _ => s

/-- The innermost function of the user returns, or throws. -/
def userReturn (s : State) (result : Except Value Value) : State :=
  match s.control with
  | .pcall sub :: frames => handlerResult { s with control := frames } sub result
  | .executor this :: frames =>
    match result with
    | .ok _ => { s with control := frames }
    | .error reason => promise_param_reject { s with control := frames } this reason
  | _ => s

/-- The main loop takes a call from the next-tick queue. -/
def tick (s : State) : State :=
  match s.ticks with
  | [] => s
  | id :: ticks => promise_handle_thens { s with ticks := ticks } id

/-- User code runs: in a handler, in an executor, or called by the main loop. -/
def userRuns (s : State) : Bool :=
  match s.control with
  | .handleThens .. :: _ => false
  | _ => true

end State

/-- What can happen: a call that user code makes, its return, a piece of a walk, a call that the
main loop takes from the next-tick queue, and the end of the program being set. -/
inductive Input
  | construct
  | resolve (id : Nat) (value : Value)
  | reject (id : Nat) (reason : Value)
  | thenCatch (id : Nat) (onThen onCatch : Option Nat)
  | all (elems : List Value)
  | race (elems : List Value)
  | promiseResolve (value : Value)
  | promiseReject (reason : Value)
  | userReturn (result : Except Value Value)
  | walk
  | tick
  | stop

namespace State

/-- A value that names a promise names one that exists. -/
def ofHeap (s : State) : Value → Bool
  | .promise id => id < s.size
  | _ => true

/-- The inputs that can happen in a state. -/
def enabled (s : State) : Input → Bool
  | .construct => s.userRuns
  | .resolve id value =>
    s.userRuns && decide (id < s.size) && (s.heap id).constructed && s.ofHeap value
  | .reject id reason =>
    s.userRuns && decide (id < s.size) && (s.heap id).constructed && s.ofHeap reason
  | .thenCatch id _ _ => s.userRuns && decide (id < s.size)
  | .all elems => s.userRuns && elems.all s.ofHeap
  | .race elems => s.userRuns && elems.all s.ofHeap
  | .promiseResolve value => s.userRuns && s.ofHeap value
  | .promiseReject reason => s.userRuns && s.ofHeap reason
  | .userReturn (.ok value) => s.userRuns && s.ofHeap value
  | .userReturn (.error reason) => s.userRuns && s.ofHeap reason
  | .walk => !s.userRuns
  | .tick => s.control.isEmpty && !s.dukFlagStop
  | .stop => s.userRuns

/-- What an input that can happen does. -/
def perform (s : State) : Input → State
  | .construct => s.promise_constructor
  | .resolve id value => s.promise_param_resolve id value
  | .reject id reason => s.promise_param_reject id reason
  | .thenCatch id onThen onCatch => s.promise_then_catch id onThen onCatch
  | .all elems => s.promise_all elems
  | .race elems => s.promise_race elems
  | .promiseResolve value => s.promise_resolve value
  | .promiseReject reason => s.promise_reject reason
  | .userReturn result => s.userReturn result
  | .walk => s.walk
  | .tick => s.tick
  | .stop => { s with dukFlagStop := true }

def step (s : State) (i : Input) : State := if s.enabled i then s.perform i else s

end State

def machine : Machine State Input := ⟨State.step⟩

end LowJs.Promise
