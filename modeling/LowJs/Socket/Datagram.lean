import LowJs.Core.Machine

/-!
# Datagram sockets

`LowDatagram` of LowDatagram.cpp: `Send` on the main thread, `OnEvents` on the web thread, `OnLoop` on
the main thread with the calls into JavaScript it makes, from which `Send` may be called again.
`mSendData`, the lengths and `mHasRecv` say which part of a send or a receipt is done.
-/

namespace LowJs.Datagram

abbrev Bytes := List UInt8

inductive Errno
  | EAGAIN
  | EINTR
  | other (code : Nat)
  deriving DecidableEq, Repr

/-- A socket address of either family. -/
structure Address where
  ipv4 : Bool
  host : Bytes
  port : Nat
  deriving DecidableEq, Repr

structure Message where
  data : Bytes
  remote : Address
  deriving DecidableEq, Repr

/-- The result of a system call, none for −1, and the value it leaves in `errno`. -/
structure Syscall (α : Type) where
  res : Option α
  errno : Errno
  deriving Repr

/-- What the message callback is called with. -/
inductive Report
  | message (m : Message)
  | recvfrom (err : Errno)
  | inet_ntop (err : Errno)
  deriving DecidableEq, Repr

/-- Where the main thread is in `OnLoop`: not in it, in the message callback, behind the part for
receipts, in the callback of a send, behind the part for sends. -/
inductive PC
  | idle
  | inMessage
  | received
  | inSend
  | sent
  deriving DecidableEq, Repr

/-- The object, what the web thread polls the socket for, and whether the object is in the list of the
main loop. The stash is modelled by the number of the `Send` call whose callback it keeps. The rest is
history: the number of `Send` calls, with what each is to send and whether `sendto` has taken it, their
callbacks, what `recvfrom` has returned, and the calls of the message callback. -/
structure LowDatagram where
  mSendData : Option Bytes
  mSendLen : Int
  mSendErr : Errno
  mSendAddr : Address
  mSendCallID : Option Nat
  mHasRecv : Bool
  mRecvData : Bytes
  mRecvLen : Int
  mRecvErr : Errno
  mRecvAddr : Address
  pollIn : Bool
  pollOut : Bool
  looping : Bool
  pc : PC
  sends : Nat
  packet : Nat → Bytes × Address
  sent : Nat → Bool
  calls : List (Nat × Option Errno)
  recv : List Message
  reports : List Report

/-- What happens: a call of `Send`, with the address as `inet_pton` gives it and what `sendto` does; an
event of the web thread, with what the two system calls do; the parts of `OnLoop`. -/
inductive Input
  | send (data : Bytes) (address : Except Errno Address) (sendto : Syscall Nat)
  | events (pollin pollout : Bool) (recvfrom : Syscall Message) (sendto : Syscall Nat)
  | loop (inet_ntop : Option Errno)
  | messageReturns
  | loopSend
  | loopEnd

namespace LowDatagram

def noAddress : Address := ⟨true, [], 0⟩

/-- The object after `Bind`. -/
def bound : LowDatagram where
  mSendData := none
  mSendLen := 0
  mSendErr := .other 0
  mSendAddr := noAddress
  mSendCallID := none
  mHasRecv := false
  mRecvData := []
  mRecvLen := 0
  mRecvErr := .other 0
  mRecvAddr := noAddress
  pollIn := true
  pollOut := false
  looping := false
  pc := .idle
  sends := 0
  packet := fun _ => ([], noAddress)
  sent := fun _ => false
  calls := []
  recv := []
  reports := []

/-- A callback of a `Send` call: null, or the error. -/
def call (s : LowDatagram) (id : Nat) (err : Option Errno) : LowDatagram :=
  { s with calls := s.calls ++ [(id, err)] }

/-- `sendto` of the data and the address the object holds, for the `Send` call `id`. -/
def attempt (s : LowDatagram) (id : Nat) (sendto : Syscall Nat) : LowDatagram :=
  { s with sent := Function.update s.sent id (s.sent id || (sendto.res.isSome &&
      s.mSendData == some (s.packet id).1 && s.mSendLen == (s.packet id).1.length &&
      s.mSendAddr == (s.packet id).2)) }

/-- `JavaScript` runs, and may call `Send`. -/
def PC.runsJS : PC → Bool
  | .idle | .inMessage | .inSend => true
  | .received | .sent => false

/-- The `Send` call is given its number. -/
def newSend (s : LowDatagram) (data : Bytes) (address : Address) : LowDatagram :=
  { s with sends := s.sends + 1, packet := Function.update s.packet s.sends (data, address) }

def send (s : LowDatagram) (data : Bytes) (address : Except Errno Address) (sendto : Syscall Nat) :
    LowDatagram :=
  let id := s.sends
  if s.mSendCallID.isSome then (s.newSend data noAddress).call id (some .EAGAIN)
  else match address with
    | .error err => (s.newSend data noAddress).call id (some err)
    | .ok addr =>
      let s := { s.newSend data addr with
        mSendAddr := addr, mSendData := some data, mSendLen := data.length }.attempt id sendto
      if sendto.res.isSome || (sendto.errno != .EAGAIN && sendto.errno != .EINTR) then
        { s with mSendData := none }.call id (if data.length > 0 then none else some sendto.errno)
      else { s with mSendCallID := some id, pollIn := true, pollOut := true }

/-- The part of `OnEvents` for receipts is run. -/
def receives (s : LowDatagram) (pollin : Bool) : Bool := pollin && !s.mHasRecv

/-- The part of `OnEvents` for sends is run. -/
def resends (s : LowDatagram) (pollout : Bool) : Bool := pollout && s.mSendCallID.isSome

/-- The system call is not to be tried again. -/
def Syscall.handled {α : Type} (c : Syscall α) : Bool := c.res.isSome || c.errno != .EAGAIN

/-- The fields `recvfrom` sets. -/
def onReceive (s : LowDatagram) (recvfrom : Syscall Message) : LowDatagram :=
  { s with
    mHasRecv := true
    mRecvErr := recvfrom.errno
    mRecvLen := recvfrom.res.elim (-1) (·.data.length)
    mRecvData := recvfrom.res.elim s.mRecvData (·.data)
    mRecvAddr := recvfrom.res.elim s.mRecvAddr (·.remote)
    recv := s.recv ++ recvfrom.res.toList }

/-- The fields `sendto` sets. -/
def onSend (s : LowDatagram) (id : Nat) (sendto : Syscall Nat) : LowDatagram :=
  { s.attempt id sendto with
    mSendLen := sendto.res.elim (-1) (·)
    mSendErr := sendto.errno
    mSendData := none }

def handled (s : LowDatagram) (pollin pollout : Bool) (recvfrom : Syscall Message)
    (sendto : Syscall Nat) : Bool :=
  (s.receives pollin && Syscall.handled recvfrom) || (s.resends pollout && Syscall.handled sendto)

def onEvents (s : LowDatagram) (pollin pollout : Bool) (recvfrom : Syscall Message)
    (sendto : Syscall Nat) : LowDatagram :=
  let s₁ := if s.receives pollin then s.onReceive recvfrom else s
  let s₂ := match s.mSendCallID with
    | some id => if pollout then s₁.onSend id sendto else s₁
    | none => s₁
  { s₂ with
    pollIn := s.receives pollin && !Syscall.handled recvfrom
    pollOut := s.resends pollout && !Syscall.handled sendto
    looping := s.looping || s.handled pollin pollout recvfrom sendto }

/-- The call of the message callback: a datagram, unless `recvfrom` has failed, or `inet_ntop` fails,
which is called for the addresses of IPv6. -/
def report (s : LowDatagram) (inet_ntop : Option Errno) : Report :=
  if s.mRecvLen = -1 then .recvfrom s.mRecvErr
  else match inet_ntop, s.mRecvAddr.ipv4 with
    | some err, false => .inet_ntop err
    | _, _ => .message ⟨s.mRecvData.take s.mRecvLen.toNat, s.mRecvAddr⟩

/-- A failure of `inet_ntop` takes the place of the datagram. -/
def onReport (s : LowDatagram) : Report → LowDatagram
  | .inet_ntop err => { s with mRecvErr := err, mRecvLen := -1 }
  | _ => s

/-- `OnLoop` up to the message callback. -/
def loop (s : LowDatagram) (inet_ntop : Option Errno) : LowDatagram :=
  let s := { s with looping := false }
  if s.mHasRecv then
    { s.onReport (s.report inet_ntop) with
      reports := s.reports ++ [s.report inet_ntop], pc := .inMessage }
  else { s with pc := .received }

/-- The part of `OnLoop` for sends, up to the callback. -/
def loopSend (s : LowDatagram) : LowDatagram :=
  match s.mSendData, s.mSendCallID with
  | none, some id =>
    { s.call id (if s.mSendLen = -1 then some s.mSendErr else none) with
      mSendCallID := none, pc := .inSend }
  | _, _ => { s with pc := .sent }

/-- The end of `OnLoop`. -/
def loopEnd (s : LowDatagram) : LowDatagram :=
  { s with pollOut := s.mSendCallID.isSome, pollIn := true, pc := .idle }

/-- The input can happen: events are those the socket is polled for, or others than the two. -/
def enabled (s : LowDatagram) : Input → Bool
  | .send .. => PC.runsJS s.pc
  | .events pollin pollout _ _ => (!pollin || s.pollIn) && (!pollout || s.pollOut)
  | .loop _ => s.pc == .idle && s.looping
  | .messageReturns => s.pc == .inMessage
  | .loopSend => s.pc == .received
  | .loopEnd => s.pc == .inSend || s.pc == .sent

def apply (s : LowDatagram) : Input → LowDatagram
  | .send data address sendto => s.send data address sendto
  | .events pollin pollout recvfrom sendto => s.onEvents pollin pollout recvfrom sendto
  | .loop inet_ntop => s.loop inet_ntop
  | .messageReturns => { s with mHasRecv := false, pc := .received }
  | .loopSend => s.loopSend
  | .loopEnd => s.loopEnd

def step (s : LowDatagram) (i : Input) : LowDatagram := if s.enabled i then s.apply i else s

end LowDatagram

/-- The machine of one datagram socket. -/
def machine : Machine LowDatagram Input := ⟨LowDatagram.step⟩

end LowJs.Datagram
