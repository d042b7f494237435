import LowJs.Core.Machine

/-!
# Writable streams

The class `Writable` of `stream.js`. Its methods call the functions of the user (`_write`, `_writev`,
`_final`, listeners and write callbacks) in the middle, and these may call the methods again. The
state therefore holds the calls that have not returned: a run interleaves the calls of the user
with the rest of the methods that wait for them.
-/

namespace LowJs.Stream

/-- An operation of the user that has been started and has not called its callback yet: a `_write`
for a chunk that has not been buffered, one for an entry of the buffer, a `_writev`, and `_final`. -/
inductive Op
  | direct (id : Nat)
  | entry (callbacks : List Nat)
  | writev
  | final
  deriving DecidableEq, Repr

/-- A call that has not returned. `user` is a call of user code; the others are what a method has
still to do when the user code above them has returned: `write` computes its result, `next` is
`_writableNext` behind the `drain` listeners, `nextWritev` behind the call of `_writev`; the `Done`
frames are the callbacks of the operations behind the `error` listeners, and `directTick` is the end
of that of a direct write. -/
inductive Frame
  | user
  | write
  | next
  | nextWritev
  | directDone (id : Nat)
  | directTick (id : Nat)
  | entryDone (callbacks : List Nat)
  | writevDone (i j : Nat)
  | finalDone
  deriving DecidableEq, Repr

/-- What the callback of an operation does behind the `error` listeners. -/
def Op.frame : Op → Frame
  | .direct id => .directDone id
  | .entry callbacks => .entryDone callbacks
  | .writev => .writevDone 0 0
  | .final => .finalDone

variable {α ε : Type*}

/-- An entry of `_writableBuf`. The callbacks are named by the numbers of their writes; `parts` are
the chunks that have been merged. -/
structure Entry (α ε : Type*) where
  chunk : α
  encoding : ε
  callbacks : List Nat
  parts : List α

/-- What is fixed for a stream: its options, whether it has a `_writev`, and the operations on
chunks. `decode` is what `_writableDecodeStrings` does to a chunk; `concat` joins two strings or
two buffers, and fails where `Buffer.concat` throws. -/
structure Options (α ε : Type*) where
  objectMode : Bool
  highWaterMark : Int
  hasWritev : Bool
  noUncorkOnEnd : Bool
  length : α → Nat
  concat : α → α → Option α
  decode : α → ε → α

/-- A `Writable`. `inFlight` are the operations in flight, `control` the calls that have not returned
with the innermost first, `nextTicks` the callbacks registered with `process.nextTick`, and
`endCallbacks` the writes that `end` has made with its own callback. The rest is history: the chunks
of the accepted writes, the entries handed to `_write` and `_writev`, the callbacks that have been
called, how many writes had been accepted when `end` was called, and how often `finish` has been
emitted. -/
structure Writable (α ε : Type*) where
  writableLength : Int
  emittedHighMark : Bool
  writableEOF : Bool
  writableBuf : List (Entry α ε)
  writableCorkCount : Nat
  writableWriting : Bool
  finished : Bool
  inFlight : List Op
  control : List Frame
  nextTicks : List Nat
  endCallbacks : List Nat
  written : List α
  sent : List (Entry α ε)
  called : List Nat
  endedAt : Option Nat
  finishes : Nat

namespace Writable

/-- A stream as the constructor leaves it. -/
def init : Writable α ε :=
  ⟨0, false, false, [], 0, false, false, [], [], [], [], [], [], [], none, 0⟩

variable (O : Options α ε)

/-- What a chunk adds to `writableLength`. -/
def size (chunk : α) : Int := if O.objectMode then 1 else O.length chunk

/-- User code is called; `frame` waits for it. -/
def callUser (s : Writable α ε) (frame : Frame) : Writable α ε :=
  { s with control := .user :: frame :: s.control }

/-- User code is called as the last thing a method does. -/
def callUserLast (s : Writable α ε) : Writable α ε := { s with control := .user :: s.control }

/-- An exception leaves the methods and reaches the user code that has called them. -/
def unwind (control : List Frame) : List Frame := control.dropWhile (· ≠ .user)

/-- The first entry of the buffer goes to `_write`. -/
def takeEntry (s : Writable α ε) : Writable α ε :=
  match s.writableBuf with
  | [] => { s with control := unwind s.control }
  | e :: rest =>
    callUserLast { s with
      writableBuf := rest
      writableLength := s.writableLength - size O e.chunk
      inFlight := s.inFlight ++ [.entry e.callbacks]
      sent := s.sent ++ [e] }

/-- `_writableNext` behind the `drain` listeners. -/
def nextRest (s : Writable α ε) : Writable α ε :=
  if s.writableCorkCount = 0 then
    if s.writableBuf ≠ [] then
      let s := { s with writableWriting := true }
      if O.hasWritev then
        callUser { s with
          writableLength := s.writableLength - (s.writableBuf.map fun e => size O e.chunk).sum
          inFlight := s.inFlight ++ [.writev]
          sent := s.sent ++ s.writableBuf } .nextWritev
      else s.takeEntry O
    else if s.writableEOF ∧ ¬s.finished then
      callUserLast { s with finished := true, inFlight := s.inFlight ++ [.final] }
    else s
  else s

/-- `_writableNext`. -/
def writableNext (s : Writable α ε) : Writable α ε :=
  if s.writableWriting then s
  else if s.emittedHighMark ∧ s.writableLength < O.highWaterMark ∧ ¬s.writableEOF then
    callUser { s with emittedHighMark := false } .next
  else s.nextRest O

/-- The result of `write`. -/
def writeResult (s : Writable α ε) : Writable α ε :=
  if s.writableLength < O.highWaterMark then s else { s with emittedHighMark := true }

/-- `write` on a stream that is not busy. -/
def writeDirect (s : Writable α ε) (chunk : α) (encoding : ε) : Writable α ε :=
  let id := s.written.length
  callUser { s with
    writableWriting := true
    inFlight := s.inFlight ++ [.direct id]
    written := s.written ++ [chunk]
    sent := s.sent ++ [⟨chunk, encoding, [id], [chunk]⟩] } .write

/-- A chunk joins the buffer as an entry of its own. -/
def pushEntry (s : Writable α ε) (chunk : α) (encoding : ε) : Writable α ε :=
  writeResult O { s with
    writableBuf := s.writableBuf ++ [⟨chunk, encoding, [s.written.length], [chunk]⟩]
    writableLength := s.writableLength + size O chunk
    written := s.written ++ [chunk] }

variable [DecidableEq ε]

/-- `write` on a stream that is busy or corked. A small chunk is merged with the last entry; where
this throws nothing happens. -/
def writeBuffered (s : Writable α ε) (chunk : α) (encoding : ε) : Writable α ε :=
  match s.writableBuf.getLast? with
  | some last =>
    if ¬O.objectMode ∧ O.length last.chunk + O.length chunk < 1024 ∧ last.encoding = encoding then
      match O.concat last.chunk chunk with
      | none => s
      | some merged =>
        writeResult O { s with
          writableBuf := s.writableBuf.dropLast ++
            [⟨merged, last.encoding, last.callbacks ++ [s.written.length], last.parts ++ [chunk]⟩]
          writableLength := s.writableLength + size O chunk
          written := s.written ++ [chunk] }
    else s.pushEntry O chunk encoding
  | none => s.pushEntry O chunk encoding

/-- `write`. -/
def write (s : Writable α ε) (chunk : α) (encoding : ε) : Writable α ε :=
  if s.finished ∨ s.writableEOF then s
  else
    let chunk := O.decode chunk encoding
    if s.writableCorkCount = 0 ∧ ¬s.writableWriting then s.writeDirect chunk encoding
    else s.writeBuffered O chunk encoding

omit [DecidableEq ε] in
/-- `end` without a chunk. -/
def endNow (s : Writable α ε) : Writable α ε :=
  if s.writableEOF then s
  else
    let s := { s with writableEOF := true }
    if O.noUncorkOnEnd then s else writableNext O { s with writableCorkCount := 0 }

/-- `end`. The history keeps the first call; a call that `write` leaves by an exception is none. -/
def end_ (s : Writable α ε) (chunk : Option (α × ε)) : Writable α ε :=
  let ended (t : Writable α ε) := { t with endedAt := some (s.endedAt.getD t.written.length) }
  if s.writableEOF then ended s
  else
    match chunk with
    | none => ended (s.endNow O)
    | some (chunk, encoding) =>
      let t := s.write O chunk encoding
      if t.written.length = s.written.length then t
      else ended { t with endCallbacks := t.endCallbacks ++ [s.written.length] }

omit [DecidableEq ε]

/-- The callback of a write is called. -/
def callCallback (s : Writable α ε) (id : Nat) : Writable α ε :=
  let s := { s with called := s.called ++ [id] }
  if id ∈ s.endCallbacks then s.endNow O else s.callUserLast

/-- `_writableNext` after a callback has set `_writableWriting` back. -/
def writingDone (s : Writable α ε) : Writable α ε := writableNext O { s with writableWriting := false }

/-- What waits on top of the calls goes on. -/
def advance (s : Writable α ε) : Writable α ε :=
  match s.control with
  | .write :: control => writeResult O { s with control := control }
  | .next :: control => nextRest O { s with control := control }
  | .nextWritev :: control => takeEntry O { s with control := control }
  | .directDone id :: control => writingDone O { s with control := .directTick id :: control }
  | .directTick id :: control => { s with control := control, nextTicks := id :: s.nextTicks }
  | .entryDone [] :: control => writingDone O { s with control := control }
  | .entryDone (id :: ids) :: control =>
    callCallback O { s with control := .entryDone ids :: control } id
  | .writevDone i j :: control =>
    -- the array that `_writev` got its chunks from is still `_writableBuf`
    match s.writableBuf[i]? with
    | none => writingDone O { s with control := control }
    | some e =>
      match e.callbacks[j]? with
      | none => { s with control := .writevDone (i + 1) 0 :: control }
      | some id => callCallback O { s with control := .writevDone i (j + 1) :: control } id
  | .finalDone :: control =>
    callUserLast { s with control := control, finishes := s.finishes + 1 }
  | _ => s

/-- The user calls the callback of the operation `k`, with or without an error. -/
def complete (s : Writable α ε) (k : Nat) (err : Bool) : Writable α ε :=
  match s.inFlight[k]? with
  | none => s
  | some op =>
    let s := { s with inFlight := s.inFlight.eraseIdx k, control := op.frame :: s.control }
    if err then s.callUserLast else s

/-- User code runs: called by a method, or by the main loop. -/
def userRuns (s : Writable α ε) : Bool :=
  match s.control with
  | [] => true
  | f :: _ => f = .user

end Writable

/-- What can happen: a call of the user, the return of the innermost user code or an exception that
leaves it, the rest of a method, and a callback from the next-tick queue. -/
inductive Writable.Input (α ε : Type*)
  | write (chunk : α) (encoding : ε)
  | cork
  | uncork
  | end_ (chunk : Option (α × ε))
  | complete (k : Nat) (err : Bool)
  | ret
  | throw
  | advance
  | tick

namespace Writable

variable (O : Options α ε) [DecidableEq ε]

/-- What user code does. -/
def userStep (s : Writable α ε) : Input α ε → Writable α ε
  | .write chunk encoding => s.write O chunk encoding
  | .cork => { s with writableCorkCount := s.writableCorkCount + 1 }
  | .uncork =>
    let s := { s with writableCorkCount := s.writableCorkCount - 1 }
    if s.writableCorkCount = 0 then s.writableNext O else s
  | .end_ chunk => s.end_ O chunk
  | .complete k err => s.complete k err
  | .ret => { s with control := s.control.tail }
  | .throw => { s with control := unwind s.control.tail }
  | .tick =>
    match s.control, s.nextTicks with
    | [], id :: nextTicks => callCallback O { s with nextTicks := nextTicks } id
    | _, _ => s
  | .advance => s

def step (s : Writable α ε) (i : Input α ε) : Writable α ε :=
  if s.userRuns then s.userStep O i
  else
    match i with
    | .advance => s.advance O
    | _ => s

end Writable

/-- A stream as a machine. -/
def Writable.machine (O : Options α ε) [DecidableEq ε] :
    Machine (Writable α ε) (Writable.Input α ε) := ⟨Writable.step O⟩

end LowJs.Stream
