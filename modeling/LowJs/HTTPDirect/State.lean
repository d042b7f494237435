import LowJs.HTTPDirect.Parser

/-!
# The state of a connection

`LowHTTPDirect` with the fields its methods read and write, grouped as the methods use them,
and what surrounds the object: the stash, the loop callback queue, the read and write switches
of the socket, and the log of the calls made to JavaScript.
-/

namespace LowJs.HTTPDirect

/-- The error objects that the callbacks get. -/
inductive Error
  | again (syscall : String)
  | connReset
  | httpParser
  | socket (syscall : String) (errno : Int)
  deriving DecidableEq, Repr

def EAGAIN : Int := 11
def ENOMEM : Int := 12

/-- How a callback of `Read` or `Write` is reached: through `low_call_next_tick` inside the
call, or from `OnLoop` by its stash index. -/
inductive Via
  | nextTick
  | stash (id : Nat)
  deriving DecidableEq, Repr

/-- What the connection does that can be seen from outside. The request callback gets the header
list, or an error; a read callback gets data, or the end of the message with the trailers and
whether the socket can be reused, or an error; a write callback a byte count, or an error. -/
inductive Event
  | request (data : List (List UInt8)) (bytesRead : Int)
  | requestError (err : Error)
  | read (via : Via) (data : List UInt8) (bytesRead : Int)
  | readEnd (via : Via) (bytesRead : Int) (trailers : List (List UInt8)) (reuse : Bool)
  | readError (via : Via) (err : Error)
  | write (via : Via) (bytesWritten : Int)
  | writeError (via : Via) (err : Error)
  | sent (data : List UInt8)
  | shutdown
  | detached (remaining : List UInt8)
  deriving DecidableEq, Repr

/-- `mMutex`. `relocked` records an attempt to lock it while it was held. -/
structure Mutex where
  held : Bool
  relocked : Bool
  deriving DecidableEq, Repr, Inhabited

def Mutex.lock (m : Mutex) : Mutex := ⟨true, m.relocked || m.held⟩
def Mutex.unlock (m : Mutex) : Mutex := { m with held := false }

/-- The values kept alive by the stash, by their indices. -/
structure Stash where
  last : Nat
  live : List Nat
  deriving DecidableEq, Repr, Inhabited

/-- `low_add_stash`. -/
def Stash.add (st : Stash) : Nat × Stash := (st.last + 1, ⟨st.last + 1, (st.last + 1) :: st.live⟩)

/-- `low_remove_stash`; the index 0 stands for no value. -/
def Stash.remove (st : Stash) (id : Nat) : Stash := { st with live := st.live.filter (· ≠ id) }

/-- An entry of `mWriteBuffers`: the bytes still to be sent, and whether they lie in
`mWriteChunkedHeaderLine`. -/
structure Iov where
  base : List UInt8
  isChunkLine : Bool
  deriving DecidableEq, Repr

/-- The reading fields. `mRemainingRead` are the `mRemainingReadLen` bytes kept back in the
socket's buffer, `mReadData` the bytes copied so far into the caller's buffer. -/
structure Reader where
  mReadCallID : Nat
  mBytesRead : Int
  mRemainingRead : Option (List UInt8)
  mReadData : Option (List UInt8)
  mReadPos : Int
  mReadLen : Int
  deriving Inhabited

/-- The writing fields. `mWriteBuffers` are the first `mWriteBufferCount` entries of the array. -/
structure Writer where
  mWriteCallID : Nat
  mBytesWritten : Int
  mWriteBuffers : List Iov
  mWriteBufferStashID : List Nat
  mWriteBufferStashInvalidCount : Nat
  mWritePos : Int
  mWriteLen : Int
  mWriting : Bool
  mWriteDone : Bool
  mWriteChunkedEncoding : Bool
  mShutdown : Bool
  mWriteError : Bool
  deriving Inhabited

/-- Where `OnLoop` is: inside the call of the request callback, of the request callback with an
error, of a read callback or of a write callback. -/
inductive LoopPoint
  | request
  | error
  | read
  | write
  deriving DecidableEq, Repr

/-- A `memcpy` into the caller's buffer: its size, the input there was, and the room left. -/
structure Copy where
  size : Int
  input : Nat
  room : Int
  deriving DecidableEq, Repr

/-- What surrounds the object. `mDirectReadEnabled`, `mDirectWriteEnabled` and `closed` belong to
the socket, `readErrno` and `writeErrno` are its last errors; `loopQueued` says that the object is
in the queue of the main loop, `inLoop` that `OnLoop` waits for a callback to return. The rest is
history: `received` the bytes given to `OnSocketData`, `copies` the calls of `memcpy`, `ended` the
messages whose end has been reported, with `mClosed` at that moment, `accepted` the stash indices
of the read and write callbacks that were told to wait, and `log` the events. -/
structure Runtime where
  mDirectReadEnabled : Bool
  mDirectWriteEnabled : Bool
  closed : Bool
  readErrno : Int
  writeErrno : Int
  loopQueued : Bool
  inLoop : Option LoopPoint
  stash : Stash
  received : List UInt8
  copies : List Copy
  ended : List (History × Bool)
  accepted : List Nat
  log : List Event
  deleted : Bool
  undefined : Bool
  deriving Inhabited

/-- `LowHTTPDirect`. `mSocket` says whether the object is attached to a socket; `setCallback` is
the local variable of `SocketData`; `undefined` in the runtime marks runs that have left the
behaviour C++ defines. -/
structure LowHTTPDirect where
  mIsServer : Bool
  mSocket : Bool
  mRequestCallID : Nat
  mIsRequest : Bool
  mClosed : Bool
  mReadError : Bool
  mHTTPError : Bool
  mMutex : Mutex
  setCallback : Bool
  parser : Parser
  reader : Reader
  writer : Writer
  rt : Runtime
  deriving Inhabited

namespace LowHTTPDirect

/-! ### Small operations -/

def lock (s : LowHTTPDirect) : LowHTTPDirect := { s with mMutex := s.mMutex.lock }

def unlock (s : LowHTTPDirect) : LowHTTPDirect := { s with mMutex := s.mMutex.unlock }

/-- `low_loop_set_callback(mLow, this)`. -/
def setLoopCallback (s : LowHTTPDirect) : LowHTTPDirect := { s with rt.loopQueued := true }

def emit (s : LowHTTPDirect) (e : Event) : LowHTTPDirect := { s with rt.log := s.rt.log ++ [e] }

def undefine (s : LowHTTPDirect) : LowHTTPDirect := { s with rt.undefined := true }

/-- `low_remove_stash`, also the removing half of `low_push_stash`. -/
def removeStash (s : LowHTTPDirect) (id : Nat) : LowHTTPDirect :=
  { s with rt.stash := s.rt.stash.remove id }

/-- `TriggerDirect(LOWSOCKET_TRIGGER_READ)`. -/
def triggerRead (s : LowHTTPDirect) : LowHTTPDirect := { s with rt.mDirectReadEnabled := true }

/-- `TriggerDirect(LOWSOCKET_TRIGGER_WRITE)`. -/
def triggerWrite (s : LowHTTPDirect) : LowHTTPDirect := { s with rt.mDirectWriteEnabled := true }

/-- `mSocket->PushError(0)`. -/
def socketReadError (s : LowHTTPDirect) : Error := .socket "read" s.rt.readErrno

/-- `mSocket->PushError(1)`. -/
def socketWriteError (s : LowHTTPDirect) : Error := .socket "write" s.rt.writeErrno

/-- `mSocket->SetDirect(NULL, 0)`, which calls `SetSocket(NULL)`; the remaining bytes are lost
with the socket's buffer. -/
def detach (s : LowHTTPDirect) : LowHTTPDirect :=
  if s.mSocket then setLoopCallback { s with mSocket := false } else s

/-- `LowHTTPDirect::Init`. Callbacks that wait are dropped. -/
def init (s : LowHTTPDirect) : LowHTTPDirect :=
  let st := s.rt.stash
  let st := if s.reader.mReadCallID ≠ 0 then st.remove s.reader.mReadCallID else st
  let st := if s.writer.mWriteCallID ≠ 0 then st.remove s.writer.mWriteCallID else st
  { s with
    mIsRequest := false
    parser := s.parser.init
    reader.mReadCallID := 0
    writer.mWriteCallID := 0
    writer.mWriting := false
    writer.mWriteDone := false
    rt.stash := st }

/-- Both sides of the exchange are done when the request ends. -/
def responseDone (s : LowHTTPDirect) : Bool :=
  s.mIsServer && s.writer.mWriteDone && s.writer.mWriteBuffers.isEmpty

end LowHTTPDirect

end LowJs.HTTPDirect
