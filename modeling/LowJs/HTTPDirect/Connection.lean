import LowJs.Core.Hex
import LowJs.Core.Machine
import LowJs.HTTPDirect.SocketData

/-!
# The methods of `LowHTTPDirect` and the connection as a machine

`OnLoop` calls JavaScript up to four times, and the called code may use the connection while
`OnLoop` waits. It is therefore cut into the pieces between these calls: each piece runs up to
the next call or to the end of `OnLoop`, and `inLoop` remembers which call it waits for. The web
thread may enter between any two pieces.
-/

namespace LowJs.HTTPDirect

namespace LowHTTPDirect

/-! ### Reading -/

/-- Lines 238 to 242 and 599 to 603: whether the client's socket can carry another request. -/
def reusable (s : LowHTTPDirect) : Bool :=
  !s.mIsServer && !s.mClosed && s.writer.mWriteDone && s.writer.mWriteBuffers.isEmpty

/-- The trailer loops and the callback with the end of the message, lines 207 to 244 and 566 to
604. Each block is taken off the list under `mMutex`. -/
def endMessage (E : Env) (s : LowHTTPDirect) (via : Via) : LowHTTPDirect :=
  let read := s.reader.mBytesRead
  let s := { s with reader.mBytesRead := 0 }
  let s := if s.parser.mParamFirst.isSome then s.lock.unlock else s
  match s.parser.takeTrailers E with
  | (none, p) => undefine { s with parser := p }
  | (some trailers, p) =>
    let s := { s with parser := p, rt.ended := s.rt.ended ++ [(p.history, s.mClosed)] }
    let s := if s.reusable then s.detach else s
    s.emit (.readEnd via read trailers s.reusable)

/-- Lines 196 to 246 and 554 to 608: the read callback gets the data, or the end of the message
where there is none. -/
def reportRead (E : Env) (s : LowHTTPDirect) (via : Via) : LowHTTPDirect :=
  let data := (s.reader.mReadData.getD []).take s.reader.mReadPos.toNat
  let s := { s with reader.mReadData := none }
  if s.reader.mReadPos = 0 then s.endMessage E via
  else
    let read := s.reader.mBytesRead
    emit { s with reader.mBytesRead := 0 } (.read via data read)

/-- Lines 178 to 188: the bytes kept back are parsed. -/
def readRemaining (E : Env) (s : LowHTTPDirect) : LowHTTPDirect :=
  match s.reader.mRemainingRead with
  | none => s.unlock
  | some data =>
    if s.mClosed then s.unlock
    else
      let (again, s) := SocketData E { s.unlock with reader.mRemainingRead := none } (.data data) true
      if again then s.triggerRead else s

/-- `LowHTTPDirect::Read`, lines 178 to 267, after the buffer has been taken over. -/
def readOutcome (E : Env) (s : LowHTTPDirect) : LowHTTPDirect :=
  let s := s.readRemaining E
  if s.rt.undefined then s
  else if s.reader.mReadPos ≠ 0 ∨ s.parser.mPhase = .sendingResponse ∨ s.mClosed then
    s.reportRead E .nextTick
  else if s.mReadError ∨ s.mHTTPError then
    let err := if s.mReadError then s.socketReadError else .httpParser
    let s := { s with mReadError := false, mHTTPError := false }
    s.detach.emit (.requestError err)
  else
    let (id, st) := s.rt.stash.add
    { s with reader.mReadCallID := id, rt.stash := st, rt.accepted := s.rt.accepted ++ [id] }

/-- `LowHTTPDirect::Read` with a buffer of `len` bytes. -/
def Read (E : Env) (s : LowHTTPDirect) (len : Nat) : LowHTTPDirect :=
  if !s.mIsRequest ∨ s.reader.mReadData.isSome ∨ !s.mSocket then
    s.emit (.readError .nextTick (.again "read"))
  else
    readOutcome E { s.lock with
      reader.mReadPos := 0
      reader.mReadLen := len
      reader.mReadData := some [] }

/-! ### Writing -/

/-- A result of `writev` on the socket: the number of bytes taken, or `EAGAIN` or `EINTR`, or
another error. -/
inductive WritevResult
  | size (n : Nat)
  | again
  | error (errno : Int)

/-- Lines 411 to 428: `size` bytes leave the queue, and a number of buffers with them. -/
def advance : Nat → List Iov → Nat → List Iov × Nat
  | _, [], invalid => ([], invalid)
  | size, b :: bs, invalid =>
    if b.base.length ≤ size then advance (size - b.base.length) bs (invalid + 1)
    else ({ b with base := b.base.drop size } :: bs, invalid)

/-- Lines 409 to 428: the socket has taken `size` bytes. -/
def written (s : LowHTTPDirect) (size : Nat) : LowHTTPDirect :=
  let (bufs, invalid) :=
    advance size s.writer.mWriteBuffers s.writer.mWriteBufferStashInvalidCount
  emit { s with
    writer.mBytesWritten := int32 (s.writer.mBytesWritten + size)
    writer.mWriteBuffers := bufs
    writer.mWriteBufferStashInvalidCount := invalid }
    (.sent ((s.writer.mWriteBuffers.flatMap Iov.base).take size))

/-- Lines 430 to 442: the response is sent. Where its length does not tell its end the socket is
shut down, else a server whose request has been read starts over. -/
def responseSent (s : LowHTTPDirect) : LowHTTPDirect :=
  if s.writer.mWriteDone then
    if !s.writer.mWriteChunkedEncoding ∧
        (s.writer.mWriteLen < 0 ∨ s.writer.mWritePos ≠ s.writer.mWriteLen) then
      if !s.writer.mShutdown ∧ s.mSocket then
        emit { s with writer.mShutdown := true } .shutdown
      else s
    else if s.mIsServer ∧ s.parser.mPhase = .sendingResponse then s.init
    else s
  else s

/-- `LowHTTPDirect::DoWrite`, with the results of its calls of `writev`; where they run out the
socket takes no more. -/
def DoWrite (s : LowHTTPDirect) (results : List WritevResult) : LowHTTPDirect :=
  if s.writer.mWriteBuffers = [] then s.responseSent
  else if !s.mSocket then s.undefine
  else
    match results with
    | [] => s
    | .again :: _ => s
    | .error errno :: _ => { s with writer.mWriteError := true, rt.writeErrno := errno }
    | .size n :: results => (s.written n).DoWrite results

/-- `LowHTTPDirect::WriteHeaders`. -/
def WriteHeaders (s : LowHTTPDirect) (txt : List UInt8) (len : Int) (isChunked : Bool)
    (results : List WritevResult) : LowHTTPDirect :=
  if (s.mIsServer ∧ !s.mIsRequest) ∨ s.writer.mWriting then s
  else
    let txt := txt.takeWhile (· ≠ 0)
    let txt := if isChunked then txt.take (txt.length - 2) else txt
    let (id, st) := s.rt.stash.add
    unlock (DoWrite { s.lock with
      writer.mWriting := true
      writer.mWritePos := 0
      writer.mWriteLen := len
      writer.mWriteChunkedEncoding := isChunked
      writer.mWriteBuffers := [⟨txt, false⟩]
      writer.mWriteBufferStashID := s.writer.mWriteBufferStashID.set 0 id
      rt.stash := st } results)

/-- Lines 319 to 327: the buffers already sent are let go. -/
def releaseSent : Nat → LowHTTPDirect → LowHTTPDirect
  | 0, s => { s with writer.mWriteBufferStashInvalidCount := 0 }
  | n + 1, s =>
    let ids := s.writer.mWriteBufferStashID
    releaseSent n { s.removeStash (ids.getD 0 0) with
      writer.mWriteBufferStashID := [ids.getD 1 0, ids.getD 2 0, 0] }

/-- A buffer joins the queue. -/
def pushBuffer (s : LowHTTPDirect) (b : Iov) (id : Nat) : LowHTTPDirect :=
  { s with
    writer.mWriteBuffers := s.writer.mWriteBuffers ++ [b]
    writer.mWriteBufferStashID :=
      s.writer.mWriteBufferStashID.set s.writer.mWriteBuffers.length id }

/-- Lines 329 to 361: the queue gets the buffer, behind its chunk size line; an empty buffer ends
the message. -/
def queueWrite (s : LowHTTPDirect) (data : List UInt8) : LowHTTPDirect :=
  if data = [] then
    let s := { s with writer.mWriteDone := true }
    if s.writer.mWriteChunkedEncoding then
      s.pushBuffer ⟨[CR, LF, 48, CR, LF, CR, LF], true⟩ 0
    else s
  else
    let s := { s with writer.mWritePos := int32 (s.writer.mWritePos + data.length) }
    let s :=
      if s.writer.mWriteChunkedEncoding then
        s.pushBuffer ⟨[CR, LF] ++ hexBytes data.length ++ [CR, LF], true⟩ 0
      else s
    let (id, st) := s.rt.stash.add
    pushBuffer { s with rt.stash := st } ⟨data, false⟩ id

/-- Lines 366 to 391: the outcome of the write, now or later. -/
def writeOutcome (s : LowHTTPDirect) : LowHTTPDirect :=
  if s.rt.undefined then s
  else if s.writer.mWriteError then
    emit { s with writer.mWriteError := false } (.writeError .nextTick s.socketWriteError)
  else if s.writer.mWriteBuffers = [] then
    emit { s with writer.mBytesWritten := 0 } (.write .nextTick s.writer.mBytesWritten)
  else
    let (id, st) := s.rt.stash.add
    triggerWrite { s with
      writer.mWriteCallID := id
      rt.stash := st
      rt.accepted := s.rt.accepted ++ [id] }

/-- `LowHTTPDirect::Write`. -/
def Write (s : LowHTTPDirect) (data : List UInt8) (results : List WritevResult) :
    LowHTTPDirect :=
  if (s.mIsServer ∧ !s.mIsRequest) ∨ !s.writer.mWriting ∨ s.writer.mWriteBuffers.length > 1 ∨
      s.writer.mWriteCallID ≠ 0 ∨ s.writer.mWriteDone ∨ !s.mSocket then
    s.emit (.writeError .nextTick (.again "write"))
  else
    let s := releaseSent s.writer.mWriteBufferStashInvalidCount s.lock
    writeOutcome (unlock ((s.queueWrite data).DoWrite results))

/-- `LowHTTPDirect::OnSocketWrite`. -/
def OnSocketWrite (s : LowHTTPDirect) (results : List WritevResult) : Bool × LowHTTPDirect :=
  let s := s.lock.DoWrite results
  let s :=
    if s.writer.mWriteCallID ≠ 0 ∧ (s.writer.mWriteBuffers = [] ∨ s.writer.mWriteError) then
      s.setLoopCallback
    else s
  (s.writer.mWriteBuffers ≠ [] ∧ !s.writer.mWriteError, s.unlock)

/-! ### The main loop -/

/-- The destructor, for an object that has left its socket. -/
def destroy (s : LowHTTPDirect) : LowHTTPDirect :=
  let sent := s.writer.mWriteBufferStashInvalidCount + s.writer.mWriteBuffers.length
  let ids := s.mRequestCallID :: s.reader.mReadCallID :: s.writer.mWriteCallID ::
    s.writer.mWriteBufferStashID.take sent
  { s with rt.stash := ids.foldl Stash.remove s.rt.stash, rt.deleted := true }

/-- `OnLoop` returns, and the main loop deletes an object without a socket. -/
def loopReturn (s : LowHTTPDirect) : LowHTTPDirect :=
  let s := { s with rt.inLoop := none }
  if s.mSocket then s else s.destroy

/-- Lines 610 to 639. -/
def onLoopWrite (s : LowHTTPDirect) : LowHTTPDirect :=
  if (s.writer.mWriteBuffers = [] ∨ (s.mSocket ∧ s.writer.mWriteError)) ∧
      s.writer.mWriteCallID ≠ 0 then
    let id := s.writer.mWriteCallID
    let s : LowHTTPDirect := { s.removeStash id with writer.mWriteCallID := 0, rt.inLoop := some .write }
    if s.mSocket ∧ s.writer.mWriteError then
      emit { s with writer.mWriteError := false } (.writeError (.stash id) s.socketWriteError)
    else
      emit { s with writer.mBytesWritten := 0 } (.write (.stash id) s.writer.mBytesWritten)
  else s.loopReturn

/-- Lines 522 to 609. -/
def onLoopRead (E : Env) (s : LowHTTPDirect) : LowHTTPDirect :=
  if !s.mIsRequest then s.loopReturn
  else if s.reader.mReadCallID ≠ 0 ∧
      (s.reader.mReadPos ≠ 0 ∨ s.parser.mPhase = .sendingResponse ∨
        (s.mSocket ∧ s.mReadError) ∨ s.mClosed ∨ s.mHTTPError) then
    let id := s.reader.mReadCallID
    let s : LowHTTPDirect :=
      { s.lock.removeStash id with reader.mReadCallID := 0, rt.inLoop := some .read }
    if (s.mSocket ∧ s.mReadError) ∨ s.mHTTPError then
      let err := if s.mSocket ∧ s.mReadError then s.socketReadError else .httpParser
      let s := { s with mReadError := false, mHTTPError := false }
      s.unlock.detach.emit (.requestError err)
    else s.unlock.reportRead E (.stash id)
  else s.onLoopWrite

/-- Lines 503 to 521. -/
def onLoopError (E : Env) (s : LowHTTPDirect) : LowHTTPDirect :=
  if !s.mIsRequest ∧ (s.mClosed ∨ (s.mSocket ∧ s.mReadError) ∨ s.mHTTPError) then
    let err :=
      if s.mSocket ∧ s.mReadError then s.socketReadError
      else if s.mHTTPError then .httpParser
      else .connReset
    let s := { s with mReadError := false, mHTTPError := false, rt.inLoop := some .error }
    s.detach.emit (.requestError err)
  else s.onLoopRead E

/-- Lines 451 to 501, entered when the main loop takes the object from its queue. -/
def onLoopRequest (E : Env) (s : LowHTTPDirect) : LowHTTPDirect :=
  let s := { s with rt.loopQueued := false }
  if s.mRequestCallID = 0 then
    loopReturn (if s.mClosed then s.detach else s)
  else
    match s.parser.mParamFirst with
    | none => s.onLoopError E
    | some b =>
      if !s.mIsRequest ∧ (s.parser.heap b).type = .header ∧ s.parser.mAtTrailer then
        let s := s.lock.unlock
        match s.parser.takeHeaders E with
        | (none, p) => undefine { s with parser := p }
        | (some data, p) =>
          emit { s with
            parser := p
            mIsRequest := true
            reader.mBytesRead := 0
            rt.inLoop := some .request } (.request data s.reader.mBytesRead)
      else s.onLoopError E

/-- `LowHTTPDirect::OnLoop`: from its start, or from the return of the call it waits for, up to
its next call or its end. -/
def OnLoop (E : Env) (s : LowHTTPDirect) : LowHTTPDirect :=
  match s.rt.inLoop with
  | none => if s.rt.loopQueued then s.onLoopRequest E else s
  | some .request => s.onLoopError E
  | some .error => s.onLoopRead E
  | some .read => s.onLoopWrite
  | some .write => s.loopReturn

/-! ### The socket's side, and the machine -/

/-- The read half of `LowSocket::OnEvents`: the object gets what has arrived, and the socket goes
on reading if it wants more. -/
def onEventsRead (E : Env) (s : LowHTTPDirect) (input : SocketInput) : LowHTTPDirect :=
  if s.mSocket ∧ s.rt.mDirectReadEnabled ∧ !s.rt.closed then
    let s := { s with rt.mDirectReadEnabled := false }
    let s :=
      match input with
      | .data [] => { s with rt.closed := true }
      | .data d => { s with rt.received := s.rt.received ++ d }
      | .error errno => { s with rt.readErrno := errno }
    let (again, s) := SocketData E s input false
    if again then { s with rt.mDirectReadEnabled := true } else s
  else s

/-- What `onEventsRead` does for what the socket has, in front of `SocketData`. -/
def received (s : LowHTTPDirect) : SocketInput → LowHTTPDirect
  | .data [] => { s with rt.closed := true }
  | .data d => { s with rt.received := s.rt.received ++ d }
  | .error errno => { s with rt.readErrno := errno }

/-- The write half of `LowSocket::OnEvents`. -/
def onEventsWrite (s : LowHTTPDirect) (results : List WritevResult) : LowHTTPDirect :=
  if s.mSocket ∧ s.rt.mDirectWriteEnabled then
    let (again, s) := OnSocketWrite { s with rt.mDirectWriteEnabled := false } results
    if again then s.triggerWrite else s
  else s

/-- `LowHTTPDirect::SetRequestCallID`. -/
def SetRequestCallID (s : LowHTTPDirect) : LowHTTPDirect :=
  let (id, st) := s.rt.stash.add
  let s := { s with mRequestCallID := id, rt.stash := st }
  if s.parser.mParamFirst.isSome ∨ s.mClosed then s.setLoopCallback else s

/-- `LowHTTPDirect::Detach(true)`: the remaining bytes go to the caller. -/
def Detach (s : LowHTTPDirect) : LowHTTPDirect :=
  s.detach.emit (.detached (s.reader.mRemainingRead.getD []))

/-- `LowHTTPDirect::LowHTTPDirect`. What the constructor leaves uninitialised, and what surrounds
the object, is taken from `u`. -/
def create (isServer : Bool) (u : LowHTTPDirect) : LowHTTPDirect :=
  let ids := u.writer.mWriteBufferStashID
  init { u with
    mIsServer := isServer
    mSocket := false
    mRequestCallID := 0
    mClosed := false
    mReadError := false
    mHTTPError := false
    mMutex := ⟨false, false⟩
    parser.mEraseNextN := false
    parser.mParamFirst := none
    parser.mParamLast := none
    parser.history := .start
    reader.mReadCallID := 0
    reader.mBytesRead := 0
    reader.mRemainingRead := none
    reader.mReadData := none
    writer.mWriteCallID := 0
    writer.mBytesWritten := 0
    writer.mWriteBuffers := []
    writer.mWriteBufferStashID := [ids.getD 0 0, ids.getD 1 0, ids.getD 2 0]
    writer.mWriteBufferStashInvalidCount := 0
    writer.mShutdown := false
    writer.mWriteError := false }

/-- A new object on a socket that has delivered nothing yet. -/
def start (isServer : Bool) (u : LowHTTPDirect) : LowHTTPDirect :=
  let s := create isServer u
  { s with
    mSocket := true
    rt.mDirectReadEnabled := true
    rt.closed := false
    rt.loopQueued := false
    rt.inLoop := none
    rt.received := []
    rt.copies := []
    rt.ended := []
    rt.accepted := []
    rt.log := []
    rt.deleted := false
    rt.undefined := false }

instance neZeroReadLength : NeZero (2 ^ 31) := ⟨by decide⟩

/-- What can happen to a connection: a call from JavaScript, an event of the socket, and a piece
of `OnLoop`. The length of a read buffer is an `int`. -/
inductive Input
  | setRequestCallID
  | read (len : Fin (2 ^ 31))
  | writeHeaders (txt : List UInt8) (len : Int) (isChunked : Bool) (results : List WritevResult)
  | write (data : List UInt8) (results : List WritevResult)
  | detach
  | socketRead (input : SocketInput)
  | socketWrite (results : List WritevResult)
  | onLoop

/-- A deleted object takes part in nothing, and nothing is said about a run after undefined
behaviour. -/
def step (E : Env) (s : LowHTTPDirect) (i : Input) : LowHTTPDirect :=
  if s.rt.deleted ∨ s.rt.undefined then s
  else
    match i with
    | .setRequestCallID => s.SetRequestCallID
    | .read len => s.Read E len
    | .writeHeaders txt len isChunked results => s.WriteHeaders txt len isChunked results
    | .write data results => s.Write data results
    | .detach => s.Detach
    | .socketRead input => s.onEventsRead E input
    | .socketWrite results => s.onEventsWrite results
    | .onLoop => s.OnLoop E

end LowHTTPDirect

/-- A connection as a machine. -/
def machine (E : Env) : Machine LowHTTPDirect LowHTTPDirect.Input := ⟨LowHTTPDirect.step E⟩

end LowJs.HTTPDirect
