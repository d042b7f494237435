import LowJs.Stream.Readable
import LowJs.Stream.Writable

/-!
# Transforms

The classes `Transform` and `PassThrough` of `stream.js`: a readable and a writable side that run on
one stack of calls, coupled by `_read`, `_write` and `_final`. Transforms that are given a `read`,
`write`, `writev` or `final` of their own are left out.
-/

namespace LowJs.Stream

variable {β ε : Type*}

/-- What is fixed for a transform. A chunk is a list as in `Readable`, and `truthy` is its value as a
condition. `passThrough` says that `_transform` is that of `PassThrough`, `hasFlush` that there is a
`_flush`. -/
structure Transform.Options (β ε : Type*) where
  readable : Readable.Options β
  objectMode : Bool
  highWaterMark : Int
  length : List β → Nat
  concat : List β → List β → Option (List β)
  decode : List β → ε → List β
  truthy : List β → Bool
  passThrough : Bool
  hasFlush : Bool

/-- The writable side of a transform. -/
def Transform.Options.writable (O : Transform.Options β ε) : Stream.Options (List β) ε where
  objectMode := O.objectMode
  highWaterMark := O.highWaterMark
  hasWritev := false
  noUncorkOnEnd := false
  length := O.length
  concat := O.concat
  decode := O.decode

/-- A call that has not returned: user code, a method of one of the sides, `_read`, the `_write` or
`_final` of an operation, and the callback of `_transform` behind its `push`. -/
inductive Transform.Frame (β : Type*)
  | user
  | readable (f : Readable.Frame β)
  | writable (f : Stream.Frame)
  | read
  | start (op : Op)
  | transformed (err : Bool)

/-- A callback registered with `process.nextTick`: that of a write, of the `_transform` of a
`PassThrough`, and of `_final`. -/
inductive Transform.Tick (β : Type*)
  | write (id : Nat)
  | transform (chunk : List β)
  | final

/-- A `Transform`. The calls and the callbacks of the sides are in `control` and `nextTicks`; the
fields of the sides for them stay empty. `transformCallback` names an operation of the writable side,
and `callbacks` are the chunks whose `_transform` has not called its callback yet. -/
structure Transform (β ε : Type*) where
  readable : Readable β
  writable : Writable (List β) ε
  transformChunk : Option (List β)
  transformCallback : Option Op
  transformNeeded : Bool
  transforming : Bool
  callbacks : List (List β)
  control : List (Transform.Frame β)
  nextTicks : List (Transform.Tick β)

namespace Transform

/-- A transform as the constructor leaves it. -/
def init : Transform β ε := ⟨.init, .init, none, none, false, false, [], [], []⟩

def Frame.ofReadable : Readable.Frame β → Frame β
  | .user => .user
  | f => .readable f

def Frame.ofWritable : Stream.Frame → Frame β
  | .user => .user
  | f => .writable f

/-- A method of the readable side. -/
def onReadable (s : Transform β ε) (f : Readable β → Readable β) : Transform β ε :=
  let t := f { s.readable with control := [] }
  { s with
    readable := { t with control := [] }
    control := t.control.map .ofReadable ++ s.control }

/-- A method of the writable side. Where it starts an operation, the call of user code on top is that
of `_write` or `_final`. -/
def onWritable (s : Transform β ε) (f : Writable (List β) ε → Writable (List β) ε) :
    Transform β ε :=
  let t := f { s.writable with control := [], nextTicks := [] }
  let frames :=
    match t.inFlight[s.writable.inFlight.length]? with
    | some op => .start op :: t.control.tail.map .ofWritable
    | none => t.control.map .ofWritable
  { s with
    writable := { t with control := [], nextTicks := [] }
    control := frames ++ s.control
    nextTicks := t.nextTicks.map .write ++ s.nextTicks }

variable (O : Options β ε)

/-- `_transform`. -/
def transform (s : Transform β ε) (chunk : List β) : Transform β ε :=
  if O.passThrough then { s with nextTicks := .transform chunk :: s.nextTicks }
  else { s with callbacks := s.callbacks ++ [chunk], control := .user :: s.control }

/-- `_read`. What is set back here is `_trasformNeeded`: `transformNeeded` stays set. -/
def read (s : Transform β ε) : Transform β ε :=
  match s.transformChunk with
  | some chunk =>
    if O.truthy chunk ∧ ¬s.transforming then transform O { s with transforming := true } chunk
    else { s with transformNeeded := true }
  | none => { s with transformNeeded := true }

/-- `_write`. -/
def write (s : Transform β ε) (chunk : List β) (op : Op) : Transform β ε :=
  let s := { s with transformChunk := some chunk, transformCallback := some op }
  if s.transformNeeded then s.read O else s

/-- `_final`. -/
def final (s : Transform β ε) : Transform β ε :=
  if O.hasFlush then { s with control := .user :: s.control }
  else { s with nextTicks := .final :: s.nextTicks }

/-- The call of `_write` or `_final` for an operation. -/
def start (s : Transform β ε) (op : Op) : Transform β ε :=
  match op, s.writable.sent.getLast? with
  | .final, _ => s.final O
  | op, some e => s.write O e.chunk op
  | _, none => s

/-- The callback of an operation of the writable side is called. -/
def complete (s : Transform β ε) (op : Op) (err : Bool) : Transform β ε :=
  s.onWritable fun w => w.complete (w.inFlight.idxOf op) err

/-- The callback of `_transform` is called; the data may be missing, and may be `null`. -/
def transformCalled (s : Transform β ε) (data : Option (Option (List β))) (err : Bool) :
    Transform β ε :=
  let s := { s with control := .transformed err :: s.control }
  match data with
  | some chunk => s.onReadable fun r => r.push chunk
  | none => s

/-- The end of the callback of `_transform`. -/
def transformed (s : Transform β ε) (err : Bool) : Transform β ε :=
  let s := { s with transforming := false, transformChunk := none }
  match s.transformCallback with
  | some op => s.complete op err
  | none => s

/-- What waits on top of the calls goes on. -/
def advance (s : Transform β ε) : Transform β ε :=
  match s.control with
  | .readable f :: control =>
    onReadable { s with control := control } fun r =>
      Readable.advance O.readable { r with control := [f] }
  | .writable f :: control =>
    onWritable { s with control := control } fun w =>
      Writable.advance O.writable { w with control := [f] }
  | .read :: control => read O { s with control := control }
  | .start op :: control => start O { s with control := control } op
  | .transformed err :: control => transformed { s with control := control } err
  | _ => s

/-- A callback from the next-tick queue. -/
def runTick (s : Transform β ε) : Tick β → Transform β ε
  | .write id => s.onWritable fun w => w.callCallback O.writable id
  | .transform chunk => s.transformCalled (some (some chunk)) false
  | .final => s.complete .final false

/-- User code runs: called by a method, or by the main loop. -/
def userRuns (s : Transform β ε) : Bool :=
  match s.control with
  | [] => true
  | .user :: _ => true
  | _ => false

/-- Not user code. -/
def Frame.isMethod : Frame β → Bool
  | .user => false
  | _ => true

/-- An exception leaves the methods and reaches the user code that has called them. -/
def unwind (control : List (Frame β)) : List (Frame β) := control.dropWhile Frame.isMethod

end Transform

/-- What can happen: a call of the user (`transformed` is the callback of the `k`-th `_transform` in
flight, and `flushed` that of `_flush`), the return of the innermost user code or an
exception that leaves it, the rest of a method, the call that waits in `setImmediate`, and a callback
from the next-tick queue. -/
inductive Transform.Input (β ε : Type*)
  | write (chunk : List β) (encoding : ε)
  | cork
  | uncork
  | end_ (chunk : Option (List β × ε))
  | push (chunk : Option (List β))
  | unshift (chunk : List β)
  | read (len : Option Nat)
  | pause
  | resume
  | onData
  | pipe (first : Bool)
  | transformed (k : Nat) (data : Option (Option (List β))) (err : Bool)
  | flushed (err : Bool)
  | ret
  | throw
  | advance
  | immediate
  | tick

namespace Transform

variable (O : Options β ε) [DecidableEq ε]

/-- What user code does, and the main loop. The call of `end` by the `end` listener of a `Duplex` is
one of user code. -/
def userStep (s : Transform β ε) : Input β ε → Transform β ε
  | .write chunk encoding => s.onWritable fun w => w.write O.writable chunk encoding
  | .cork => s.onWritable fun w => w.userStep O.writable .cork
  | .uncork => s.onWritable fun w => w.userStep O.writable .uncork
  | .end_ chunk => s.onWritable fun w => w.end_ O.writable chunk
  | .push chunk => s.onReadable fun r => r.userStep O.readable (.push chunk)
  | .unshift chunk => s.onReadable fun r => r.userStep O.readable (.unshift chunk)
  | .read len => s.onReadable fun r => r.userStep O.readable (.read len)
  | .pause => s.onReadable fun r => r.userStep O.readable .pause
  | .resume => s.onReadable fun r => r.userStep O.readable .resume
  | .onData => s.onReadable fun r => r.userStep O.readable .onData
  | .pipe first => s.onReadable fun r => r.userStep O.readable (.pipe first)
  | .transformed k data err =>
    if k < s.callbacks.length then
      transformCalled { s with callbacks := s.callbacks.eraseIdx k } data err
    else s
  | .flushed err => if O.hasFlush then s.complete .final err else s
  | .ret => { s with control := s.control.tail }
  | .throw => { s with control := unwind s.control.tail }
  | .immediate =>
    match s.control with
    | [] =>
      if s.readable.readableCalling then
        -- the call of user code is that of `_read`
        let r := s.readable.reconsiderRead O.readable
        { s with
          readable := { r with control := [] }
          control := r.control.map fun _ => .read }
      else s
    | _ => s
  | .tick =>
    match s.control, s.nextTicks with
    | [], tick :: nextTicks => runTick O { s with nextTicks := nextTicks } tick
    | _, _ => s
  | .advance => s

def step (s : Transform β ε) (i : Input β ε) : Transform β ε :=
  if s.userRuns then s.userStep O i
  else
    match i with
    | .advance => s.advance O
    | _ => s

end Transform

/-- A transform as a machine. -/
def Transform.machine (O : Transform.Options β ε) [DecidableEq ε] :
    Machine (Transform β ε) (Transform.Input β ε) := ⟨Transform.step O⟩

end LowJs.Stream
