import LowJs.Core.Machine

/-!
# Event emitters

The methods of an emitter call functions of the program, and these may call the methods again: while the
listeners of one event are called, others are added and removed, and other events are emitted. The calls that
are not yet finished make up a stack. What the program does while one of its functions runs is the input.

The arrays of listeners are objects of their own, that `removeAllListeners` goes on reading while listeners are
removed. Not modelled are the domains, `_maxListeners`, names of events that are symbols or numbers, and functions
of the program that have a property `listener` or are wrappers which it got from `rawListeners`.
-/

namespace LowJs.Events

/-- The names of events. -/
inductive EventType
  | newListener
  | removeListener
  | error
  | named (name : String)
  deriving DecidableEq, Repr

/-- A function in a list of listeners: one of the program, or a wrapper made by `_onceWrap`. -/
inductive Fn (φ : Type*)
  | user (f : φ)
  | wrapper (id : Nat)
  deriving DecidableEq, Repr

/-- What stands under a type in `_events`: a function, or an array. -/
inductive Handler (φ : Type*)
  | single (fn : Fn φ)
  | array (a : Nat)
  deriving DecidableEq, Repr

/-- The state of a wrapper. -/
structure Wrap (φ : Type*) where
  type : EventType
  listener : φ
  fired : Bool
  deriving DecidableEq, Repr

/-- The arguments of a call of `emit`: those that the program gives, or a type and a listener. -/
inductive Args (φ : Type*)
  | given (args : List Nat)
  | about (type : EventType) (listener : Fn φ)
  deriving DecidableEq, Repr

/-- A call that is not yet finished. -/
inductive Frame (φ : Type*)
  /-- A function of the program runs. -/
  | user
  /-- The loop of `emit`, with the listeners of the clone that are left. -/
  | emit (type : EventType) (args : Args φ) (rest : List (Fn φ))
  /-- `onceWrapper` behind `removeListener`. -/
  | wrapper (id : Nat) (args : Args φ)
  /-- `_addListener` behind the event `newListener`. -/
  | add (type : EventType) (fn : Fn φ) (prepend : Bool)
  /-- The loop of `removeAllListeners` over the keys that are left. -/
  | removeKeys (keys : List EventType)
  /-- The end of that call. -/
  | reset
  /-- The loop of `removeAllListeners` over an array, from the index below `i` on. -/
  | removeArray (type : EventType) (a : Nat) (i : Nat)
  deriving DecidableEq, Repr

def Frame.isUser {φ : Type*} : Frame φ → Bool
  | .user => true
  | _ => false

/-- A call of a function of the program that is in a list of listeners. -/
structure Called (φ : Type*) where
  /-- The function of the list that the call goes through. -/
  fn : Fn φ
  args : Args φ
  /-- How many calls are not yet finished at that time. -/
  depth : Nat
  deriving DecidableEq, Repr

structure Emitter (φ : Type*) where
  _events : List (EventType × Handler φ)
  _eventsCount : Int
  /-- The arrays that were made. -/
  arrays : List (List (Fn φ))
  /-- The wrappers that were made. -/
  wraps : List (Wrap φ)
  stack : List (Frame φ)
  calls : List (Called φ)
  deriving Repr

/-- What the program does. -/
inductive Op (φ : Type*)
  | on (type : EventType) (listener : φ) (prepend : Bool)
  | once (type : EventType) (listener : φ) (prepend : Bool)
  | removeListener (type : EventType) (listener : Fn φ)
  | removeAllListeners (type : Option EventType)
  | emit (type : EventType) (args : List Nat)
  deriving DecidableEq, Repr

/-- What happens next, while a function of the program runs: it calls a method, returns or throws. -/
inductive Input (φ : Type*)
  | call (op : Op φ)
  | ret
  | throw
  deriving DecidableEq, Repr

namespace Emitter

variable {φ : Type*}

def new : Emitter φ := ⟨[], 0, [], [], [], []⟩

def push (s : Emitter φ) (frame : Frame φ) : Emitter φ := { s with stack := frame :: s.stack }

/-- The exception goes to the function of the program that is called last. -/
def raise (s : Emitter φ) : Emitter φ := { s with stack := s.stack.dropWhile fun frame => !frame.isUser }

/-- `fn.listener`. -/
def listenerOf (s : Emitter φ) : Fn φ → Option (Fn φ)
  | .user _ => none
  | .wrapper id => s.wraps[id]?.map fun w => .user w.listener

/-- `events[type]`. -/
def handler (s : Emitter φ) (type : EventType) : Option (Handler φ) := s._events.lookup type

/-- The functions of a handler. -/
def listOf (s : Emitter φ) : Handler φ → List (Fn φ)
  | .single fn => [fn]
  | .array a => s.arrays[a]?.getD []

/-- `events[type] = handler` for a type that is there. -/
def setHandler (s : Emitter φ) (type : EventType) (h : Handler φ) : Emitter φ :=
  { s with _events := s._events.map fun p => if p.1 = type then (type, h) else p }

/-- `delete events[type]`. -/
def deleteHandler (s : Emitter φ) (type : EventType) : Emitter φ :=
  { s with _events := s._events.filter fun p => p.1 ≠ type }

def rawListeners (s : Emitter φ) (type : EventType) : List (Fn φ) := ((s.handler type).map s.listOf).getD []

def listenerCount (s : Emitter φ) (type : EventType) : Nat :=
  match s.handler type with
  | none => 0
  | some (.single _) => 1
  | some (.array a) => (s.listOf (.array a)).length

def eventNames (s : Emitter φ) : List EventType := if s._eventsCount > 0 then s._events.map Prod.fst else []

/-- The last function of an array stands under the type itself. -/
def settle (s : Emitter φ) (type : EventType) : List (Fn φ) → Emitter φ
  | [fn] => s.setHandler type (.single fn)
  | _ => s

/-- `emit`; without a listener, that of an error throws. -/
def emit (s : Emitter φ) (type : EventType) (args : Args φ) : Emitter φ :=
  match s.handler type with
  | none => if type = .error then s.raise else s
  | some h => s.push (.emit type args (s.listOf h))

/-- `_addListener` behind the event. -/
def addListener (s : Emitter φ) (type : EventType) (fn : Fn φ) (prepend : Bool) : Emitter φ :=
  match s.handler type with
  | none => { s with _events := s._events ++ [(type, .single fn)], _eventsCount := s._eventsCount + 1 }
  | some (.single existing) =>
    { s with arrays := s.arrays ++ [if prepend then [fn, existing] else [existing, fn]] }.setHandler type
      (.array s.arrays.length)
  | some (.array a) =>
    { s with arrays := s.arrays.modify a fun list => if prepend then fn :: list else list ++ [fn] }

def _addListener (s : Emitter φ) (type : EventType) (fn : Fn φ) (prepend : Bool) : Emitter φ :=
  if (s.handler .newListener).isSome then
    (s.push (.add type fn prepend)).emit .newListener (.about type ((s.listenerOf fn).getD fn))
  else s.addListener type fn prepend

/-- `once`: the wrapper is added. -/
def once (s : Emitter φ) (type : EventType) (listener : φ) (prepend : Bool) : Emitter φ :=
  _addListener { s with wraps := s.wraps ++ [⟨type, listener, false⟩] } type (.wrapper s.wraps.length) prepend

/-- The event of a removal, when somebody listens for it. -/
def emitRemoved (s : Emitter φ) (type : EventType) (listener : Fn φ) : Emitter φ :=
  if (s.handler .removeListener).isSome then s.emit .removeListener (.about type listener) else s

variable [DecidableEq φ]

/-- `g === fn || g.listener === fn`. -/
def matchesFn (s : Emitter φ) (fn g : Fn φ) : Bool := g = fn || s.listenerOf g = some fn

/-- The index of the last function that matches. -/
def position (s : Emitter φ) (fn : Fn φ) (list : List (Fn φ)) : Option Nat :=
  (list.reverse.findIdx? (s.matchesFn fn)).map fun k => list.length - 1 - k

def removeListener (s : Emitter φ) (type : EventType) (fn : Fn φ) : Emitter φ :=
  match s.handler type with
  | none => s
  | some (.single g) =>
    if s.matchesFn fn g then
      if s._eventsCount - 1 = 0 then { s with _events := [], _eventsCount := 0 }
      else
        ({ s with _eventsCount := s._eventsCount - 1 }.deleteHandler type).emitRemoved type
          ((s.listenerOf g).getD fn)
    else s
  | some (.array a) =>
    let list := s.listOf (.array a)
    match s.position fn list with
    | none => s
    | some p =>
      let originalListener := (list[p]?.bind s.listenerOf).getD fn
      let list := list.eraseIdx p
      ({ s with arrays := s.arrays.set a list }.settle type list).emitRemoved type originalListener

def removeAllListeners (s : Emitter φ) (type : Option EventType) : Emitter φ :=
  if (s.handler .removeListener).isNone then
    match type with
    | none => { s with _events := [], _eventsCount := 0 }
    | some type =>
      if (s.handler type).isSome then
        if s._eventsCount - 1 = 0 then { s with _events := [], _eventsCount := 0 }
        else { s with _eventsCount := s._eventsCount - 1 }.deleteHandler type
      else s
  else
    match type with
    | none => s.push (.removeKeys (s._events.map Prod.fst))
    | some type =>
      match s.handler type with
      | none => s
      | some (.single g) => s.removeListener type g
      | some (.array a) => s.push (.removeArray type a (s.listOf (.array a)).length)

/-- A method that the program calls. -/
def call (s : Emitter φ) : Op φ → Emitter φ
  | .on type listener prepend => s._addListener type (.user listener) prepend
  | .once type listener prepend => s.once type listener prepend
  | .removeListener type listener => s.removeListener type listener
  | .removeAllListeners type => s.removeAllListeners type
  | .emit type args => s.emit type (.given args)

/-- A function of a list of listeners is called. -/
def apply (s : Emitter φ) (fn : Fn φ) (args : Args φ) : Emitter φ :=
  match fn with
  | .user _ => { s with stack := .user :: s.stack, calls := s.calls ++ [⟨fn, args, s.stack.length⟩] }
  | .wrapper id =>
    match s.wraps[id]? with
    | none => s
    | some w => if w.fired then s else (s.push (.wrapper id args)).removeListener w.type fn

/-- A function of the program runs, or none does. -/
def program (s : Emitter φ) : Input φ → Emitter φ
  | .call op => s.call op
  | .ret => { s with stack := s.stack.tail }
  | .throw => { s with stack := s.stack.tail }.raise

/-- The call on top of the stack goes on; `below` are the calls below it. -/
def resume (s : Emitter φ) (frame : Frame φ) (below : List (Frame φ)) (i : Input φ) : Emitter φ :=
  let t := { s with stack := below }
  match frame with
  | .user => s.program i
  | .emit _ _ [] => t
  | .emit type args (fn :: rest) => (t.push (.emit type args rest)).apply fn args
  | .wrapper id args =>
    { t with
      wraps := s.wraps.modify id fun w => { w with fired := true }
      stack := .user :: below
      calls := s.calls ++ [⟨.wrapper id, args, below.length⟩] }
  | .add type fn prepend => t.addListener type fn prepend
  | .removeKeys [] => (t.push .reset).removeAllListeners (some .removeListener)
  | .removeKeys (key :: keys) =>
    if key = .removeListener then t.push (.removeKeys keys)
    else (t.push (.removeKeys keys)).removeAllListeners (some key)
  | .reset => { t with _events := [], _eventsCount := 0 }
  | .removeArray _ _ 0 => t
  | .removeArray type a (i + 1) =>
    match (s.listOf (.array a))[i]? with
    | none => t.raise -- the listener is `undefined`
    | some fn => (t.push (.removeArray type a i)).removeListener type fn

/-- A step. While a function of the program runs, or none, the input says what happens; else the call on top
goes on. -/
def step (s : Emitter φ) (i : Input φ) : Emitter φ :=
  match s.stack with
  | [] => s.program i
  | frame :: below => s.resume frame below i

end Emitter

def emitter (φ : Type*) [DecidableEq φ] : Machine (Emitter φ) (Input φ) := ⟨Emitter.step⟩

end LowJs.Events
