import LowJs.Core.Machine

/-!
# A socket without a direct object

`Read`, `Write`, `Shutdown` and `Close` are called by JavaScript, `OnEvents` runs in the web thread
and `OnLoop` in the main loop. `OnLoop` is cut where it calls JavaScript, so that the other inputs can
come while a callback runs.
-/

namespace LowJs.Sockets

abbrev EINTR : Int := 4
abbrev EAGAIN : Int := 11
abbrev EPIPE : Int := 32
abbrev ENOTCONN : Int := 107
abbrev MBEDTLS_ERR_SSL_WANT_WRITE : Int := -0x6880
abbrev MBEDTLS_ERR_SSL_WANT_READ : Int := -0x6900
abbrev MBEDTLS_ERR_SSL_PEER_CLOSE_NOTIFY : Int := -0x7880

/-- The pairs `mReadErrno`, `mReadErrnoSSL` and `mWriteErrno`, `mWriteErrnoSSL`. -/
structure Errno where
  code : Int
  ssl : Bool
  deriving DecidableEq, Repr

/-- The operation has failed, it is not to be tried again. -/
def Errno.hard (e : Errno) : Bool := (e.code != EAGAIN && e.code != EINTR) || e.ssl

/-- What a call of `read`, `write` or their counterparts in mbedTLS returns: the number of bytes, or
`errno`, which for mbedTLS is the negative result. -/
inductive SysResult
  | size (n : Nat)
  | error (code : Int)
  deriving DecidableEq, Repr

/-- What `DoRead` makes of an error. The peer's close notify counts as the end of the stream. -/
def readError (tls : Bool) (code : Int) : Option Errno :=
  if tls then
    if code = MBEDTLS_ERR_SSL_PEER_CLOSE_NOTIFY then none
    else if code = MBEDTLS_ERR_SSL_WANT_READ then some ⟨EAGAIN, false⟩
    else some ⟨code, true⟩
  else some ⟨code, false⟩

/-- What `DoWrite` makes of an error. -/
def writeError (tls : Bool) (code : Int) : Option Errno :=
  if tls then
    if code = MBEDTLS_ERR_SSL_WANT_WRITE then some ⟨EAGAIN, false⟩ else some ⟨code, true⟩
  else some ⟨code, false⟩

/-- The loop of `DoRead` and of `DoWrite`. A call moves at most the bytes that are left; behind the
results listed the socket would block. -/
def transfer (onError : Int → Option Errno) (want : Nat) :
    Nat → Errno → List SysResult → Int × Errno
  | len, errno, [] =>
    if len = want then (len, errno) else (if len ≠ 0 then len else -1, ⟨EAGAIN, false⟩)
  | len, errno, r :: results =>
    if len = want then (len, errno)
    else
      match r with
      | .size 0 => (len, errno)
      | .size (n + 1) => transfer onError want (len + min (n + 1) (want - len)) errno results
      | .error code =>
        match onError code with
        | none => (len, errno)
        | some e => (if len ≠ 0 then len else -1, e)

/-- The error of the first call, if it is one. -/
def firstError (onError : Int → Option Errno) : List SysResult → Option Errno
  | [] => some ⟨EAGAIN, false⟩
  | .size _ :: _ => none
  | .error code :: _ => onError code

lemma le_transfer (onError : Int → Option Errno) {want len : Nat} (hlen : 0 < len) (errno : Errno)
    (results : List SysResult) : (len : Int) ≤ (transfer onError want len errno results).1 := by
  induction results generalizing len with
  | nil =>
    simp only [transfer]
    split_ifs <;> grind
  | cons r results ih =>
    by_cases hwant : len = want
    · simp [transfer, hwant]
    match r with
    | .size 0 => simp [transfer]
    | .size (n + 1) =>
      have := @ih (len + min (n + 1) (want - len)) (by omega)
      simp only [transfer, if_neg hwant]
      omega
    | .error code =>
      cases hcode : onError code with
      | none => simp [transfer, hcode]
      | some e => simp [transfer, hcode, hwant, Nat.pos_iff_ne_zero.mp hlen]

/-- An error of the first call is the outcome of the loop. -/
lemma transfer_of_error {onError : Int → Option Errno} {want : Nat} {results : List SysResult}
    {e : Errno} (hwant : want ≠ 0) (he : firstError onError results = some e) (errno : Errno) :
    transfer onError want 0 errno results = (-1, e) := by
  match results with
  | [] => cases he; simp [transfer, hwant.symm]
  | .error code :: results =>
    replace he : onError code = some e := he
    simp [transfer, hwant.symm, he]

/-- Otherwise the loop counts the bytes moved. -/
lemma transfer_nonneg {onError : Int → Option Errno} {want : Nat} {results : List SysResult}
    (h : want = 0 ∨ firstError onError results = none) (errno : Errno) :
    0 ≤ (transfer onError want 0 errno results).1 := by
  match results with
  | [] =>
    rcases h with rfl | h
    · simp [transfer]
    · cases h
  | .size 0 :: results => simp only [transfer]; split_ifs <;> simp
  | .size (n + 1) :: results =>
    simp only [transfer]
    split_ifs with hwant
    · simp
    · have := @le_transfer onError want (0 + min (n + 1) (want - 0)) (by omega) errno results
      omega
  | .error code :: results =>
    by_cases hwant : want = 0
    · simp [transfer, hwant]
    · have : onError code = none := h.resolve_left hwant
      simp [transfer, this]

lemma transfer_cases (onError : Int → Option Errno) (want : Nat) (errno : Errno)
    (results : List SysResult) :
    (0 ≤ (transfer onError want 0 errno results).1 ∧
        (want = 0 ∨ firstError onError results = none)) ∨
      ∃ e, want ≠ 0 ∧ firstError onError results = some e ∧
        transfer onError want 0 errno results = (-1, e) := by
  by_cases h : want = 0 ∨ firstError onError results = none
  · exact .inl ⟨transfer_nonneg h errno, h⟩
  · obtain ⟨hwant, herr⟩ := not_or.mp h
    obtain ⟨e, he⟩ := Option.ne_none_iff_exists'.mp herr
    exact .inr ⟨e, hwant, he, transfer_of_error hwant he errno⟩

/-- What a callback is called with: no error and a number, no error, or an error. -/
inductive Answer
  | ok (n : Int)
  | null
  | error (e : Errno)
  deriving DecidableEq, Repr

/-- What an attempt to serve a call has come to: the result of `DoRead` or `DoWrite` with its error, or
the `errno` of a `shutdown` that has failed. -/
inductive Attempt
  | moved (len : Int) (errno : Errno)
  | shut (failed : Option Int)
  deriving DecidableEq, Repr

/-- What the callback is to be told of an attempt: nothing where it is to be tried again. -/
def Attempt.verdict : Attempt → Option Answer
  | .moved len errno =>
    if len ≥ 0 then some (.ok len) else if errno.hard then some (.error errno) else none
  | .shut none => some .null
  | .shut (some code) => some (.error ⟨code, false⟩)

/-- The callback that `OnLoop` is calling. -/
inductive LoopPoint
  | accept
  | read
  | write
  deriving DecidableEq, Repr

/-- A `LowSocket` whose `mDirect` is null and which is not for the web thread only. `tls` says whether
there is an `mTLSContext`, `stdout` whether the descriptor is 1 or 2. `mReadData` and `mWriteData` say
whether the pointers are set; the call ids are the numbers of the calls, 0 for none. `pollIn` and
`pollOut` are the poll events requested. After `gone` the object is deleted. The rest is history:
`calls` counts the calls, `answers` are the calls of callbacks made or put in the next tick queue,
`strays` counts what was put there and is no callback, and `attempts` are the attempts made, each with
its call. -/
structure LowSocket where
  tls : Bool
  stdout : Bool
  handshakeOver : Bool
  mAcceptConnectCallID : Bool
  mAcceptConnectError : Bool
  mCloseCallID : Bool
  mConnected : Bool
  mClosed : Bool
  mDestroyed : Bool
  mReadData : Bool
  mReadLen : Nat
  mReadCallID : Nat
  mReadPos : Int
  mReadErrno : Errno
  mWriteData : Bool
  mWriteLen : Nat
  mWriteCallID : Nat
  mWritePos : Int
  mWriteErrno : Errno
  mDirectReadEnabled : Bool
  mDirectWriteEnabled : Bool
  pollIn : Bool
  pollOut : Bool
  loopQueued : Bool
  inCallback : Option LoopPoint
  gone : Bool
  calls : Nat
  answers : List (Nat × Answer)
  strays : Nat
  attempts : List (Nat × Attempt)

namespace LowSocket

/-- A callback is called, or put in the next tick queue. -/
def answer (s : LowSocket) (call : Nat) (a : Answer) : LowSocket :=
  { s with answers := s.answers ++ [(call, a)] }

def setPollEvents (s : LowSocket) (pollIn pollOut : Bool) : LowSocket :=
  { s with pollIn := pollIn, pollOut := pollOut }

def setLoopCallback (s : LowSocket) : LowSocket := { s with loopQueued := true }

/-- `DoRead`. -/
def DoRead (s : LowSocket) (len : Nat) (results : List SysResult) : Int × Errno :=
  transfer (readError s.tls) len 0 s.mReadErrno results

/-- `DoWrite`. -/
def DoWrite (s : LowSocket) (len : Nat) (results : List SysResult) : Int × Errno :=
  transfer (writeError s.tls) len 0 s.mWriteErrno results

/-- An attempt for `call` has been made. -/
def attempted (s : LowSocket) (call : Nat) (x : Attempt) : LowSocket :=
  { s with attempts := s.attempts ++ [(call, x)] }

/-- A call of `DoRead` for `call` has ended with `r`. -/
def tookRead (s : LowSocket) (call : Nat) (r : Int × Errno) : LowSocket :=
  { s with mReadErrno := r.2 }.attempted call (.moved r.1 r.2)

/-- A call of `DoWrite` for `call` has ended with `r`. -/
def tookWrite (s : LowSocket) (call : Nat) (r : Int × Errno) : LowSocket :=
  { s with mWriteErrno := r.2 }.attempted call (.moved r.1 r.2)

/-- Whether `Read` and `Write` make an attempt themselves. -/
def tryNow (s : LowSocket) : Bool := !s.tls && s.mConnected

/-- `Read` has `len` from `DoRead`, or 0 for the end of the stream. -/
def readDone (s : LowSocket) (call : Nat) (len : Int) : LowSocket :=
  { s with mReadData := false, mClosed := s.mClosed || len == 0 }.answer call
    (if len ≥ 0 then .ok len else .error s.mReadErrno)

/-- `Read` leaves the request to the web thread. -/
def readLater (s : LowSocket) (call : Nat) : LowSocket :=
  { s with mReadCallID := call }.setPollEvents (!s.mClosed)
    (!s.mClosed && (!s.mConnected || (s.mWriteData && s.mWritePos == 0) || s.mDirectWriteEnabled))

/-- `LowSocket::Read`. -/
def Read (s : LowSocket) (len : Nat) (results : List SysResult) : LowSocket :=
  let call := s.calls + 1
  let s := { s with calls := call }
  if s.mReadData then s.answer call (.error ⟨EAGAIN, false⟩)
  else
    let s := { s with mReadPos := 0, mReadData := true, mReadLen := len }
    if s.mClosed then s.readDone call 0
    else if s.tryNow then
      let r := s.DoRead len results
      let s := s.tookRead call r
      if r.1 ≥ 0 || s.mReadErrno.hard then s.readDone call r.1 else s.readLater call
    else s.readLater call

/-- The loop of `Write` for the descriptors 1 and 2: whether it ends with an error. It calls back with
the whole length all the same. -/
def stdoutWrite : Nat → List SysResult → Option Errno
  | _, [] => none
  | left, r :: results =>
    if left = 0 then none
    else
      match r with
      | .size n => stdoutWrite (left - n) results
      | .error code =>
        if code = EAGAIN ∨ code = EINTR then stdoutWrite left results else some ⟨code, false⟩

/-- `Write` has `len` from `DoWrite`, or 0 for a socket that the peer has closed. -/
def writeDone (s : LowSocket) (call : Nat) (len : Int) : LowSocket :=
  { s with mWriteData := false }.answer call
    (if len > 0 then .ok len else .error s.mWriteErrno)

/-- `Write` leaves the request to the web thread. -/
def writeLater (s : LowSocket) (call : Nat) : LowSocket :=
  { s with mWriteCallID := call }.setPollEvents
    ((s.mReadData && s.mReadPos == 0) || s.mDirectReadEnabled) true

/-- `LowSocket::Write`. -/
def Write (s : LowSocket) (len : Nat) (results : List SysResult) : LowSocket :=
  let call := s.calls + 1
  let s := { s with calls := call }
  if s.stdout then
    match stdoutWrite len results with
    | none => (s.attempted call (.moved len s.mWriteErrno)).answer call (.ok len)
    | some e => (s.attempted call (.moved (-1) e)).answer call (.ok len)
  else if s.mWriteData then s.answer call (.error ⟨EAGAIN, false⟩)
  else
    let s := { s with mWritePos := 0, mWriteData := true, mWriteLen := len }
    if s.mClosed then s.writeDone call 0
    else if s.tryNow then
      let r := s.DoWrite len results
      let s := s.tookWrite call r
      if r.1 ≥ 0 || s.mWriteErrno.hard then s.writeDone call r.1 else s.writeLater call
    else s.writeLater call

/-- `LowSocket::Shutdown`, where `failed` is the `errno` of a `shutdown` that fails. Without a
connection it ends in a second `low_call_next_tick`, which takes the arguments of the JavaScript
function: the descriptor and the callback. -/
def Shutdown (s : LowSocket) (failed : Option Int) : LowSocket :=
  let call := s.calls + 1
  let s := { s with calls := call }
  if !s.mConnected then
    { s.answer call (.error ⟨ENOTCONN, false⟩) with strays := s.strays + 1 }
  else
    match failed with
    | some code => (s.attempted call (.shut failed)).answer call (.error ⟨code, false⟩)
    | none => (s.attempted call (.shut failed)).answer call .null

/-- `LowSocket::Close`. -/
def Close (s : LowSocket) (callback : Bool) : LowSocket :=
  if s.mDestroyed then s
  else
    { s with
      mDestroyed := true
      mCloseCallID := s.mCloseCallID || callback
      loopQueued := s.loopQueued || s.mCloseCallID || callback }

/-- The outcome of the steps of the TLS handshake that one call of `OnEvents` makes. -/
inductive Handshake
  | finished
  | wantRead
  | wantWrite
  | failed
  deriving DecidableEq, Repr

/-- What `OnEvents` meets: whether the events contain one of `POLLIN`, `POLLHUP` and `POLLERR` and
whether they contain `POLLOUT`, the handshake, the pending error of the socket, and what the calls
that move data return. -/
structure Events where
  readable : Bool
  writable : Bool
  handshake : Handshake
  soError : Bool
  reads : List SysResult
  writes : List SysResult
  deriving DecidableEq, Repr

/-- The handshake or the connect has failed. -/
def connectFailed (s : LowSocket) : LowSocket :=
  { s with
    mAcceptConnectError := s.mAcceptConnectError || s.mAcceptConnectCallID
    loopQueued := s.loopQueued || s.mAcceptConnectCallID }.setPollEvents false false

/-- The read part of `OnEvents`, with the flag `change`. -/
def eventsRead (s : LowSocket) (e : Events) : LowSocket × Bool :=
  if e.readable && s.mReadData && s.mReadPos == 0 then
    let r := s.DoRead s.mReadLen e.reads
    let s := { s.tookRead s.mReadCallID r with mClosed := s.mClosed || r.1 == 0 }
    if r.1 ≥ 0 || s.mReadErrno.hard then ({ s with mReadPos := r.1 }, true) else (s, false)
  else (s, false)

/-- The write part of `OnEvents`, with the flag `change`. Its decision is on the error of the read
side. -/
def eventsWrite (s : LowSocket) (change : Bool) (e : Events) : LowSocket × Bool :=
  if e.writable && s.mWriteData && s.mWritePos == 0 then
    let r := s.DoWrite s.mWriteLen e.writes
    let s := s.tookWrite s.mWriteCallID r
    if r.1 ≥ 0 || s.mReadErrno.hard then ({ s with mWritePos := r.1 }, true) else (s, change)
  else (s, change)

/-- `OnEvents` for a connected socket. -/
def eventsTransfer (s : LowSocket) (e : Events) : LowSocket :=
  let (s, change) := s.eventsRead e
  let (s, change) := s.eventsWrite change e
  let s := s.setPollEvents false false
  if change then s.setLoopCallback else s

/-- `OnEvents` once the handshake is over. -/
def eventsConnect (s : LowSocket) (e : Events) : LowSocket :=
  if s.mConnected then s.eventsTransfer e
  else if e.soError then s.connectFailed
  else
    { s with mConnected := true, loopQueued := s.loopQueued || s.mAcceptConnectCallID }.eventsTransfer e

/-- `LowSocket::OnEvents`. -/
def OnEvents (s : LowSocket) (e : Events) : LowSocket :=
  if s.mDestroyed || s.mAcceptConnectError || s.mClosed then s.setPollEvents false false
  else if s.tls && !s.handshakeOver then
    match e.handshake with
    | .finished =>
      { s with
        handshakeOver := true
        mDirectReadEnabled := false
        mDirectWriteEnabled := false }.eventsConnect e
    | .wantRead =>
      { s with mDirectReadEnabled := true, mDirectWriteEnabled := false }.setPollEvents true false
    | .wantWrite =>
      { s with mDirectReadEnabled := false, mDirectWriteEnabled := true }.setPollEvents false true
    | .failed => { s with mDirectReadEnabled := false, mDirectWriteEnabled := false }.connectFailed
  else s.eventsConnect e

/-- The end of `OnLoop`. -/
def loopEnd (s : LowSocket) : LowSocket :=
  { s with inCallback := none }.setPollEvents (!s.mClosed && s.mReadData) (!s.mClosed && s.mWriteData)

/-- The write part of `OnLoop`, up to its callback. -/
def loopWrite (s : LowSocket) : LowSocket :=
  if s.mWriteData && s.mWritePos != 0 then
    { s with mWriteCallID := 0, mWriteData := false, inCallback := some .write }.answer
      s.mWriteCallID (if s.mWritePos > 0 then .ok s.mWritePos else .error s.mWriteErrno)
  else s.loopEnd

/-- The read part of `OnLoop`, up to its callback. -/
def loopRead (s : LowSocket) : LowSocket :=
  if !s.mConnected then { s with inCallback := none }
  else if s.mReadData && (s.mClosed || s.mReadPos != 0) then
    { s with mReadCallID := 0, mReadData := false, inCallback := some .read }.answer
      s.mReadCallID (if s.mReadPos ≥ 0 then .ok s.mReadPos else .error s.mReadErrno)
  else s.loopWrite

/-- `LowSocket::OnLoop`, up to its first callback. `addrError` says whether `CallAcceptConnect` fails
to get the local address. -/
def OnLoop (s : LowSocket) (addrError : Bool) : LowSocket :=
  let s := { s with loopQueued := false }
  if s.mDestroyed then { s with gone := true }
  else if s.mAcceptConnectCallID then
    let s := { s with
      mAcceptConnectCallID := false
      mAcceptConnectError := s.mAcceptConnectError || addrError }
    if s.mAcceptConnectError then { s with gone := true }
    else if s.mConnected then { s with inCallback := some .accept }
    else s.loopRead
  else if s.mAcceptConnectError then { s with gone := true }
  else s.loopRead

/-- `OnLoop` goes on when its callback has returned. -/
def resume (s : LowSocket) : LowSocket :=
  match s.inCallback with
  | none => s
  | some .accept => s.loopRead
  | some .read => s.loopWrite
  | some .write => s.loopEnd

/-- What can happen to the socket. `loop` is the main loop calling `OnLoop`, which it does only
outside of callbacks; `resume` and `throw` are the two ways in which a callback of `OnLoop` ends. -/
inductive Input
  | read (len : Nat) (results : List SysResult)
  | write (len : Nat) (results : List SysResult)
  | shutdown (failed : Option Int)
  | close (callback : Bool)
  | events (e : Events)
  | loop (addrError : Bool)
  | resume
  | throw
  deriving DecidableEq, Repr

def call (s : LowSocket) : Input → LowSocket
  | .read len results => s.Read len results
  | .write len results => s.Write len results
  | .shutdown failed => s.Shutdown failed
  | .close callback => s.Close callback
  | .events e => s.OnEvents e
  | .loop addrError => if s.loopQueued && s.inCallback.isNone then s.OnLoop addrError else s
  | .resume => s.resume
  | .throw => { s with inCallback := none }

def step (s : LowSocket) (i : Input) : LowSocket := if s.gone then s else s.call i

/-- The read part of `OnEvents` makes an attempt. -/
def TriesRead (s : LowSocket) (e : Events) : Prop :=
  e.readable = true ∧ s.mReadData = true ∧ s.mReadPos = 0

/-- The write part of `OnEvents` makes an attempt. -/
def TriesWrite (s : LowSocket) (e : Events) : Prop :=
  e.writable = true ∧ s.mWriteData = true ∧ s.mWritePos = 0

instance (s : LowSocket) (e : Events) : Decidable (s.TriesRead e) :=
  inferInstanceAs (Decidable (_ ∧ _))

instance (s : LowSocket) (e : Events) : Decidable (s.TriesWrite e) :=
  inferInstanceAs (Decidable (_ ∧ _))

/-- The read part makes no attempt, or one that is to be tried again, or one that ends the request. -/
lemma eventsRead_cases (s : LowSocket) (e : Events) :
    (¬s.TriesRead e ∧ s.eventsRead e = (s, false)) ∨
    (∃ errno, s.TriesRead e ∧ s.mReadLen ≠ 0 ∧ firstError (readError s.tls) e.reads = some errno ∧
      errno.hard = false ∧ s.eventsRead e = (s.tookRead s.mReadCallID (-1, errno), false)) ∨
    (∃ r, s.TriesRead e ∧ s.DoRead s.mReadLen e.reads = r ∧
      (0 ≤ r.1 ∨ (r.1 = -1 ∧ r.2.hard = true)) ∧
      s.eventsRead e = ({ s.tookRead s.mReadCallID r with
        mClosed := s.mClosed || r.1 == 0
        mReadPos := r.1 }, true)) := by
  by_cases htry : s.TriesRead e
  · have hcond : (e.readable && s.mReadData && s.mReadPos == 0) = true := by
      simp [htry.1, htry.2.1, htry.2.2]
    right
    rcases transfer_cases (readError s.tls) s.mReadLen s.mReadErrno e.reads with
      ⟨hpos, -⟩ | ⟨errno, hlen, hfirst, hr⟩
    · right
      exact ⟨_, htry, rfl, .inl hpos, by simp [eventsRead, hcond, DoRead, hpos]⟩
    · cases hhard : errno.hard with
      | true =>
        right
        exact ⟨_, htry, hr, .inr ⟨rfl, hhard⟩, by
          simp [eventsRead, hcond, DoRead, hr, tookRead, attempted, hhard]⟩
      | false =>
        left
        exact ⟨errno, htry, hlen, hfirst, hhard, by
          simp [eventsRead, hcond, DoRead, hr, tookRead, attempted, hhard]⟩
  · left
    have hcond : ¬(e.readable && s.mReadData && s.mReadPos == 0) = true := by
      simpa [TriesRead, and_assoc] using htry
    exact ⟨htry, by rw [eventsRead, if_neg hcond]⟩

/-- The same for the write part, whose decision is on the error of the read side. -/
lemma eventsWrite_cases (s : LowSocket) (change : Bool) (e : Events) :
    (¬s.TriesWrite e ∧ s.eventsWrite change e = (s, change)) ∨
    (∃ errno, s.TriesWrite e ∧ s.mWriteLen ≠ 0 ∧
      firstError (writeError s.tls) e.writes = some errno ∧ s.mReadErrno.hard = false ∧
      s.eventsWrite change e = (s.tookWrite s.mWriteCallID (-1, errno), change)) ∨
    (∃ r, s.TriesWrite e ∧ s.DoWrite s.mWriteLen e.writes = r ∧
      (0 ≤ r.1 ∨ (r.1 = -1 ∧ s.mReadErrno.hard = true)) ∧
      s.eventsWrite change e =
        ({ s.tookWrite s.mWriteCallID r with mWritePos := r.1 }, true)) := by
  by_cases htry : s.TriesWrite e
  · have hcond : (e.writable && s.mWriteData && s.mWritePos == 0) = true := by
      simp [htry.1, htry.2.1, htry.2.2]
    right
    rcases transfer_cases (writeError s.tls) s.mWriteLen s.mWriteErrno e.writes with
      ⟨hpos, -⟩ | ⟨errno, hlen, hfirst, hr⟩
    · right
      exact ⟨_, htry, rfl, .inl hpos, by simp [eventsWrite, hcond, DoWrite, hpos]⟩
    · cases hhard : s.mReadErrno.hard with
      | true =>
        right
        exact ⟨_, htry, hr, .inr ⟨rfl, rfl⟩, by
          simp [eventsWrite, hcond, DoWrite, hr, tookWrite, attempted, hhard]⟩
      | false =>
        left
        exact ⟨errno, htry, hlen, hfirst, rfl, by
          simp [eventsWrite, hcond, DoWrite, hr, tookWrite, attempted, hhard]⟩
  · left
    have hcond : ¬(e.writable && s.mWriteData && s.mWritePos == 0) = true := by
      simpa [TriesWrite, and_assoc] using htry
    exact ⟨htry, by rw [eventsWrite, if_neg hcond]⟩

/-- What the constructors and `Connect` leave. The main loop is only to run `OnLoop` for the callback
of the accept or the connect, which waits for the connection or for an error. -/
structure Initial (s : LowSocket) : Prop where
  mReadData : s.mReadData = false
  mReadCallID : s.mReadCallID = 0
  mWriteData : s.mWriteData = false
  mWriteCallID : s.mWriteCallID = 0
  mClosed : s.mClosed = false
  mDestroyed : s.mDestroyed = false
  mCloseCallID : s.mCloseCallID = false
  mDirectReadEnabled : s.mDirectReadEnabled = false
  mDirectWriteEnabled : s.mDirectWriteEnabled = false
  loopQueued : s.loopQueued = true →
    s.mAcceptConnectCallID = true ∧ (s.mConnected = true ∨ s.mAcceptConnectError = true)
  inCallback : s.inCallback = none
  gone : s.gone = false
  calls : s.calls = 0
  answers : s.answers = []
  strays : s.strays = 0
  attempts : s.attempts = []

/-- A socket that was accepted or connected without TLS, after the callback of the accept or the
connect. -/
def connected (readErrno writeErrno : Errno) : LowSocket where
  tls := false
  stdout := false
  handshakeOver := false
  mAcceptConnectCallID := false
  mAcceptConnectError := false
  mCloseCallID := false
  mConnected := true
  mClosed := false
  mDestroyed := false
  mReadData := false
  mReadLen := 0
  mReadCallID := 0
  mReadPos := 0
  mReadErrno := readErrno
  mWriteData := false
  mWriteLen := 0
  mWriteCallID := 0
  mWritePos := 0
  mWriteErrno := writeErrno
  mDirectReadEnabled := false
  mDirectWriteEnabled := false
  pollIn := false
  pollOut := false
  loopQueued := false
  inCallback := none
  gone := false
  calls := 0
  answers := []
  strays := 0
  attempts := []

lemma initial_connected (readErrno writeErrno : Errno) : (connected readErrno writeErrno).Initial := by
  constructor <;> first | rfl | (intro h; cases h)

end LowSocket

def machine : Machine LowSocket LowSocket.Input := ⟨LowSocket.step⟩

end LowJs.Sockets
