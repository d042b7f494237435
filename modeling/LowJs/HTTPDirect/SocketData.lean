import LowJs.HTTPDirect.State

/-!
# `LowHTTPDirect::SocketData`

The byte loop. In the body the loop copies as much as fits into the caller's buffer, or keeps the
rest of the input back; elsewhere it takes one byte at a time.
-/

namespace LowJs.HTTPDirect

namespace LowHTTPDirect

/-- How an iteration of the byte loop ends: with the next one, with `break`, or with a jump to
`err` or `done`; `undef` is a `memcpy` whose size is negative. -/
inductive Exit
  | next
  | brk
  | err
  | done
  | undef
  deriving DecidableEq, Repr

/-- Lines 784 to 797: the announced length has been read. -/
def bodyRead (s : LowHTTPDirect) : LowHTTPDirect :=
  if s.parser.mContentLen ≥ 0 ∧ s.parser.mDataLen = s.parser.mContentLen then
    if s.parser.mChunkedEncoding then
      { s with parser.mPhase := .chunkHeader, parser.mChunkedHeaderLine := [] }
    else
      let s := { s with parser.mPhase := .sendingResponse }
      if s.responseDone then s.init else s
  else s

/-- The number of bytes line 777 copies. -/
def copySize (s : LowHTTPDirect) (len : Nat) : Int :=
  let left := int32 (s.parser.mContentLen - s.parser.mDataLen)
  let size : Int := if s.parser.mContentLen ≥ 0 ∧ (len : Int) > left then left else len
  let room := s.reader.mReadLen - s.reader.mReadPos
  if size > room then room else size

/-- Lines 757 to 800. -/
def bodyBytes (s : LowHTTPDirect) (data : List UInt8) : Exit × LowHTTPDirect × List UInt8 :=
  let s := s.lock
  match s.reader.mReadData with
  | none => (.brk, unlock { s with reader.mRemainingRead := some data }, data)
  | some buf =>
    if s.reader.mReadPos = s.reader.mReadLen then
      (.brk, unlock { s with reader.mRemainingRead := some data }, data)
    else
      let size := s.copySize data.length
      let copy := ⟨size, data.length, s.reader.mReadLen - s.reader.mReadPos⟩
      let s := { s with rt.copies := s.rt.copies ++ [copy] }
      if size < 0 then (.undef, s, data)
      else
        let s := { s with
          reader.mReadData := some (buf.take s.reader.mReadPos.toNat ++ data.take size.toNat)
          reader.mReadPos := int32 (s.reader.mReadPos + size)
          parser.mDataLen := int32 (s.parser.mDataLen + size)
          parser.history := s.parser.history.take (data.take size.toNat) }
        (.next, { s.bodyRead.unlock with setCallback := true }, data.drop size.toNat)

/-- Lines 906 to 943: the blank line. The message ends here where there is no body, and with the
trailers. -/
def sectionEnded (s : LowHTTPDirect) : LowHTTPDirect :=
  let s := { s with setCallback := true }
  if s.parser.mPhase = .sendingResponse then
    let s := s.lock
    unlock (if s.responseDone then s.init else s)
  else s

/-- Lines 685 to 725 and 801 to 976: a byte of the head or of the trailers. -/
def paramBytes (E : Env) (s : LowHTTPDirect) (c : UInt8) : Exit × LowHTTPDirect :=
  let store (s : LowHTTPDirect) (b : Nat) : Exit × LowHTTPDirect :=
    let s := { s with parser.history := s.parser.history.take [c] }
    match s.parser.paramByte E s.mIsServer b c with
    | (.next, p) => (.next, { s with parser := p })
    | (.err, p) => (.err, { s with parser := p })
    | (.ended, p) => (.next, sectionEnded { s with parser := p })
  match s.parser.allocParam E with
  | .param b => store s b
  | .linked b p => store (unlock { s.lock with parser := p }) b
  | .null p => (.done, { s with parser := p, rt.readErrno := ENOMEM })
  | .err p => (.err, { s.lock with parser := p })

/-- The end of `store` in `paramBytes`: what follows from the outcome of the byte. -/
def afterParam (s : LowHTTPDirect) : Parser.ParamExit × Parser → Exit × LowHTTPDirect
  | (.next, p) => (.next, { s with parser := p })
  | (.err, p) => (.err, { s with parser := p })
  | (.ended, p) => (.next, sectionEnded { s with parser := p })

/-- `store` in `paramBytes`. -/
def storeParam (E : Env) (c : UInt8) (s : LowHTTPDirect) (b : Nat) : Exit × LowHTTPDirect :=
  let s := { s with parser.history := s.parser.history.take [c] }
  s.afterParam (s.parser.paramByte E s.mIsServer b c)

lemma paramBytes_def (E : Env) (s : LowHTTPDirect) (c : UInt8) : s.paramBytes E c =
    match s.parser.allocParam E with
    | .param b => storeParam E c s b
    | .linked b p => storeParam E c (unlock { s.lock with parser := p }) b
    | .null p => (.done, { s with parser := p, rt.readErrno := ENOMEM })
    | .err p => (.err, { s.lock with parser := p }) := rfl

/-- One iteration of the byte loop on the input `c :: rest`. -/
def socketByte (E : Env) (s : LowHTTPDirect) (c : UInt8) (rest : List UInt8) :
    Exit × LowHTTPDirect × List UInt8 :=
  if s.parser.mEraseNextN ∧ c = LF then
    (.next, { s with parser.mEraseNextN := false, parser.history := s.parser.history.skip }, rest)
  else
    let s := { s with parser.mEraseNextN := decide (s.parser.mPhase ≠ Phase.body ∧ c = CR) }
    match s.parser.mPhase with
    | .sendingResponse => (.err, s, rest)
    | .body => s.bodyBytes (c :: rest)
    | .chunkHeader =>
      let s := { s with parser.history := s.parser.history.take [c] }
      match s.parser.chunkByte c with
      | none => (.err, s, rest)
      | some p => (.next, { s with parser := p }, rest)
    | _ =>
      let (exit, s) := s.paramBytes E c
      (exit, s, rest)

/-- The byte loop. Each iteration takes a byte at least, so that `fuel` need not exceed the length
of the input. -/
def socketLoop (E : Env) : Nat → LowHTTPDirect → List UInt8 → Exit × LowHTTPDirect × List UInt8
  | _, s, [] => (.next, s, [])
  | 0, s, data => (.next, s, data)
  | fuel + 1, s, c :: rest =>
    match s.socketByte E c rest with
    | (.next, s, rest) => socketLoop E fuel s rest
    | r => r

/-- What `DoRead` has got from the socket: some bytes, or none at the end of the stream, or an
error. -/
inductive SocketInput
  | data (d : List UInt8)
  | error (errno : Int)

/-- The labels `err` and `done`. -/
def closeDone (s : LowHTTPDirect) : Bool × LowHTTPDirect :=
  (false, setLoopCallback { s with mClosed := true })

/-- Behind the loop, where `len` is -1, or what `break` has left over. -/
def loopDone (s : LowHTTPDirect) (len : Int) (inLoop : Bool) : Bool × LowHTTPDirect :=
  let s := { s with reader.mBytesRead := int32 (s.reader.mBytesRead + len) }
  let s := if s.mRequestCallID ≠ 0 ∧ s.setCallback ∧ !inLoop then s.setLoopCallback else s
  (s.reader.mRemainingRead.isNone, s)

/-- `LowHTTPDirect::SocketData`. -/
def SocketData (E : Env) (s : LowHTTPDirect) (input : SocketInput) (inLoop : Bool) :
    Bool × LowHTTPDirect :=
  let s := { s with setCallback := false }
  match input with
  | .error _ => if s.mClosed then s.closeDone else closeDone { s with mReadError := true }
  | .data [] => s.closeDone
  | .data d =>
    if s.mClosed then s.closeDone
    else
      match s.socketLoop E d.length d with
      | (.next, s, _) => s.loopDone (-1) inLoop
      | (.brk, s, rest) => s.loopDone rest.length inLoop
      | (.err, s, _) => closeDone { s with mHTTPError := true }
      | (.done, s, _) => s.closeDone
      | (.undef, s, _) => (false, s.undefine)

end LowHTTPDirect

end LowJs.HTTPDirect
