import LowJs.Core.Machine

/-!
# Readable streams

The class `Readable` of `stream.js`, with the calls that have not returned as in the model of
`Writable`: the methods emit events in the middle, and the listeners may call the methods again.
-/

namespace LowJs.Stream

variable {β : Type*}

/-- What is fixed for a stream. A chunk is a list of bytes or characters, and in object mode a list
with the object; `convert` is what `_readableEncoding` does to a chunk. -/
structure Readable.Options (β : Type*) where
  objectMode : Bool
  highWaterMark : Int
  convert : List β → List β

/-- A call that has not returned. `user` is user code; the others are what a method has still to do:
`push` behind the `push` listeners, and behind the listeners of what it has delivered; `resume`
behind the `resume` listeners, in its loop, and behind it; `pause` behind the `pause` listeners;
`pipe` behind the registration of its listeners, and behind the `pipe` listeners. -/
inductive Readable.Frame (β : Type*)
  | user
  | pushBody (chunk : Option (List β))
  | pushTail
  | resumeStart
  | resumeLoop
  | resumeTail
  | pauseTail
  | pipeEmit (first : Bool)
  | pipeRest (first : Bool)

/-- What a stream has got and what it has delivered. -/
inductive Readable.Event (β : Type*)
  | pushed (data : List β)
  | unshifted (data : List β)
  | delivered (data : List β)
  | ended
  deriving DecidableEq

/-- A `Readable`. `readableFlowing` is `none` for `null`; `readableCalling` says that a
`_reconsiderRead` waits in `setImmediate`; `log` is the history. -/
structure Readable (β : Type*) where
  readableFlowing : Option Bool
  readableLength : Int
  readableBuf : List (List β)
  readableReading : Bool
  readableCalling : Bool
  readableEOF : Bool
  finished : Bool
  control : List (Readable.Frame β)
  log : List (Readable.Event β)

namespace Readable

/-- A stream as the constructor leaves it. -/
def init : Readable β := ⟨none, 0, [], false, false, false, false, [], []⟩

variable (O : Options β)

/-- User code is called; `frame` waits for it. -/
def callUser (s : Readable β) (frame : Frame β) : Readable β :=
  { s with control := .user :: frame :: s.control }

def emit (s : Readable β) (e : Event β) : Readable β := { s with log := s.log ++ [e] }

/-- What a chunk adds to `readableLength`. -/
def size (chunk : List β) : Int := if O.objectMode then 1 else chunk.length

/-- The test in front of `_read`. -/
def wantsRead (s : Readable β) : Bool :=
  !s.readableEOF && !s.readableReading && decide (s.readableLength < O.highWaterMark)

/-- `setImmediate` with `_reconsiderRead`. -/
def considerRead (s : Readable β) : Readable β :=
  if s.wantsRead O then { s with readableCalling := true } else s

/-- `_reconsiderRead`. -/
def reconsiderRead (s : Readable β) : Readable β :=
  let s := { s with readableCalling := false }
  if s.wantsRead O then { s with readableReading := true, control := .user :: s.control } else s

/-- The loop of `read`: `len` bytes from the front of the buffer. -/
def takeBytes : Nat → List (List β) → List β × List (List β)
  | 0, buf => ([], buf)
  | _, [] => ([], [])
  | len, chunk :: rest =>
    if len < chunk.length then (chunk.take len, chunk.drop len :: rest)
    else
      let (res, rest) := takeBytes (len - chunk.length) rest
      (chunk ++ res, rest)

/-- The length that `read` takes: all of the buffer if none is given or the source has ended, and
nothing where there is less than that. -/
def readLength (s : Readable β) (len : Option Nat) : Option Int :=
  let len := if O.objectMode then some 1 else len
  match len with
  | none => some s.readableLength
  | some len =>
    if s.readableEOF then some s.readableLength
    else if s.readableLength < len then none
    else some len

/-- `read`; the data is the empty list for `null`. -/
def read (s : Readable β) (len : Option Nat) : List β × Readable β :=
  match s.readLength O len with
  | none => ([], s)
  | some len =>
    let (data, buf) :=
      if O.objectMode then (s.readableBuf.headD [], s.readableBuf.tail)
      else takeBytes len.toNat s.readableBuf
    (data, considerRead O { s with
      readableLength := s.readableLength - len
      readableBuf := buf })

/-- `unshift`. -/
def unshift (s : Readable β) (chunk : List β) : Readable β :=
  if s.finished then s
  else
    let chunk := O.convert chunk
    emit { s with
      readableBuf := chunk :: s.readableBuf
      readableLength := s.readableLength + size O chunk } (.unshifted chunk)

/-- `push`, up to the `push` listeners. -/
def push (s : Readable β) (chunk : Option (List β)) : Readable β :=
  if s.readableEOF then { s with readableReading := false } else s.callUser (.pushBody chunk)

/-- `push`, behind the `push` listeners. -/
def pushBody (s : Readable β) (chunk : Option (List β)) : Readable β :=
  match chunk with
  | none =>
    let s := { s with readableEOF := true }
    if s.readableFlowing = some true then
      callUser (emit { s with finished := true } .ended) .pushTail
    else s.callUser .pushTail
  | some data =>
    if O.objectMode ∨ data ≠ [] then
      let chunk := O.convert data
      let s := s.emit (.pushed chunk)
      if s.readableFlowing = some true then callUser (s.emit (.delivered chunk)) .pushTail
      else
        callUser { s with
          readableBuf := s.readableBuf ++ [chunk]
          readableLength := s.readableLength + size O chunk } .pushTail
    else { s with control := .pushTail :: s.control }

/-- The end of `push`. -/
def pushTail (s : Readable β) : Readable β :=
  considerRead O { s with readableReading := false }

/-- An iteration of the loop of `resume`, or what follows the loop. -/
def resumeLoop (s : Readable β) : Readable β :=
  if s.readableFlowing = some true ∧ s.readableBuf ≠ [] then
    let (data, s) := s.read O none
    callUser (s.emit (.delivered data)) .resumeLoop
  else if s.readableFlowing = some true ∧ s.readableEOF ∧ ¬s.finished then
    callUser (emit { s with finished := true } .ended) .resumeTail
  else { s with control := .resumeTail :: s.control }

/-- What waits on top of the calls goes on. -/
def advance (s : Readable β) : Readable β :=
  match s.control with
  | .pushBody chunk :: control => pushBody O { s with control := control } chunk
  | .pushTail :: control => pushTail O { s with control := control }
  | .resumeStart :: control =>
    { s with control := .resumeLoop :: control, readableFlowing := some true }
  | .resumeLoop :: control => resumeLoop O { s with control := control }
  | .resumeTail :: control => { s with control := control, readableCalling := true }
  | .pauseTail :: control =>
    considerRead O { s with control := control, readableFlowing := some false }
  | .pipeEmit first :: control => callUser { s with control := control } (.pipeRest first)
  | .pipeRest first :: control =>
    if first then callUser { s with control := control } .resumeStart
    else { s with control := control }
  | _ => s

/-- The `newListener` listener of the constructor, for a `data` listener. -/
def onData (s : Readable β) : Readable β :=
  if s.readableFlowing = none then s.callUser .resumeStart else s

/-- User code runs: called by a method, or by the main loop. -/
def userRuns (s : Readable β) : Bool :=
  match s.control with
  | [] => true
  | .user :: _ => true
  | _ => false

/-- Not user code. -/
def Frame.isMethod : Frame β → Bool
  | .user => false
  | _ => true

/-- An exception leaves the methods and reaches the user code that has called them. -/
def unwind (control : List (Frame β)) : List (Frame β) := control.dropWhile Frame.isMethod

end Readable

/-- What can happen: a call of the user (`first` says that the pipe is the only one), the return of
the innermost user code or an exception that leaves it, the rest of a method, and the call that
waits in `setImmediate`. -/
inductive Readable.Input (β : Type*)
  | push (chunk : Option (List β))
  | unshift (chunk : List β)
  | read (len : Option Nat)
  | pause
  | resume
  | onData
  | pipe (first : Bool)
  | ret
  | throw
  | advance
  | immediate

namespace Readable

variable (O : Options β)

/-- What user code does, and the main loop. -/
def userStep (s : Readable β) : Input β → Readable β
  | .push chunk => s.push chunk
  | .unshift chunk => s.unshift O chunk
  | .read len =>
    let (data, t) := s.read O len
    t.emit (.delivered data)
  | .pause => s.callUser .pauseTail
  | .resume => s.callUser .resumeStart
  | .onData => s.onData
  | .pipe first => onData { s with control := .pipeEmit first :: s.control }
  | .ret => { s with control := s.control.tail }
  | .throw => { s with control := unwind s.control.tail }
  | .immediate =>
    match s.control with
    | [] => if s.readableCalling then s.reconsiderRead O else s
    | _ => s
  | .advance => s

def step (s : Readable β) (i : Input β) : Readable β :=
  if s.userRuns then s.userStep O i
  else
    match i with
    | .advance => s.advance O
    | _ => s

end Readable

/-- A stream as a machine. -/
def Readable.machine (O : Readable.Options β) : Machine (Readable β) (Readable.Input β) :=
  ⟨Readable.step O⟩

end LowJs.Stream
