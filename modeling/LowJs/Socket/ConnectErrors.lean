import Mathlib

/-!
# Connections that fail

`LowSocket::Connect` sets a socket up and starts the connection. What fails is recorded in the fields
`mAcceptConnect…`; it is reported by `low_net_connect` where `Connect` returns `false`, by `OnLoop` where the
web thread finds the error, and by `CallAcceptConnect` itself.
-/

namespace LowJs.ConnectErrors

abbrev EPERM : Int := 1
abbrev ENOMEM : Int := 12
abbrev EALREADY : Int := 114
abbrev EISCONN : Int := 106
abbrev EINPROGRESS : Int := 115

/-- An error as JavaScript gets it: the number, whether it is one of mbedTLS, and the name of the call. -/
structure Failure where
  errno : Int
  ssl : Bool
  syscall : String
  deriving DecidableEq, Repr

/-- A call of the callback. -/
inductive Report
  | error (failure : Failure)
  | connected
  deriving DecidableEq, Repr

/-- A TLS context, with the results of the setup of the connection: whether there is memory, and the errors
of `mbedtls_ssl_setup`, `mbedtls_ssl_set_hostname` and later of `mbedtls_ssl_handshake_step`. -/
structure TLS where
  alloc : Bool
  setup : Option Int
  hostname : Option Int
  handshake : Option Int
  deriving DecidableEq, Repr

/-- The results of the calls, with the error if they fail. `ipv6` and `unix` say what the address is,
`soError` is what `getsockopt` gives or fails with, `localName` the error of `getsockname`. `unset` is what
stands in the variables of `low_net_connect` before anything is assigned to them. -/
structure System where
  ipv6 : Bool
  unix : Bool
  socket : Option Int
  inet_ntop : Option Int
  ioctl : Option Int
  tls : Option TLS
  connect : Option Int
  soError : Option Int
  localName : Option Int
  unset : Failure
  deriving DecidableEq, Repr

/-- The fields of a socket; the record stands for `mAcceptConnectErrno`, `mAcceptConnectErrnoSSL` and
`mAcceptConnectSyscall`. `queued` says whether `OnLoop` will run, `calls` is the history of the callback. -/
structure LowSocket where
  fd : Bool
  mAcceptConnectCallID : Bool
  mAcceptConnectError : Bool
  failure : Failure
  mConnected : Bool
  queued : Bool
  calls : List Report
  deriving DecidableEq, Repr

/-- What the constructor leaves. -/
def created (failure : Failure) : LowSocket := ⟨false, false, false, failure, false, false, []⟩

namespace LowSocket

/-- A failure is recorded. -/
def record (s : LowSocket) (errno : Int) (ssl : Bool) (syscall : String) : LowSocket :=
  { s with mAcceptConnectError := true, failure := ⟨errno, ssl, syscall⟩ }

/-- The setup of TLS in `InitSocket`. -/
def initTLS (s : LowSocket) (tls : TLS) : Bool × LowSocket :=
  if tls.alloc = false then (false, s.record ENOMEM false "malloc")
  else
    match tls.setup with
    | some ret => (false, s.record ret true "mbedtls_ssl_setup")
    | none =>
      match tls.hostname with
      | some ret => (false, s.record ret true "mbedtls_ssl_set_hostname")
      | none => (true, s)

/-- `InitSocket`. It goes on where `inet_ntop` fails. -/
def InitSocket (s : LowSocket) (sys : System) : Bool × LowSocket :=
  let s :=
    match sys.ipv6, sys.inet_ntop with
    | true, some errno => s.record errno false "inet_ntop"
    | _, _ => s
  match sys.ioctl with
  | some errno => (false, s.record errno false "ioctl")
  | none =>
    match sys.tls with
    | some tls => s.initTLS tls
    | none => (true, s)

/-- `CallAcceptConnect`: whether the socket lives on. -/
def CallAcceptConnect (s : LowSocket) (sys : System) : Bool × LowSocket :=
  let s := { s with mAcceptConnectCallID := false }
  let s :=
    match sys.unix, sys.localName with
    | false, some errno => if s.mAcceptConnectError then s else s.record errno false "getsockname"
    | _, _ => s
  if s.mAcceptConnectError then (false, { s with calls := s.calls ++ [.error s.failure] })
  else if s.mConnected then (true, { s with calls := s.calls ++ [.connected] })
  else (true, s)

/-- What `Connect` returns: `true`, or `false` with `err` and `syscall` assigned, or with both as they
were. -/
inductive Connected
  | true_
  | false_ (err : Int) (syscall : String)
  | unassigned
  deriving DecidableEq, Repr

/-- `connect` in `Connect`. -/
def startConnect (s : LowSocket) (sys : System) : LowSocket :=
  match sys.connect with
  | some errno => if errno ≠ EINPROGRESS then s.record errno false "connect" else s
  | none => if sys.tls.isNone then { s with mConnected := true } else s

/-- `Connect`, with a callback. Where something has failed, `err` gets the flag, which is 1. -/
def Connect (s : LowSocket) (sys : System) : Connected × LowSocket :=
  if s.fd then (.false_ (if s.mConnected then EISCONN else EALREADY) "connect", s)
  else
    match sys.socket with
    | some errno => (.false_ errno "socket", s)
    | none =>
      let (initialized, s) := { s with fd := true }.InitSocket sys
      let s := if initialized then s.startConnect sys else s
      if s.mAcceptConnectError then (.false_ EPERM s.failure.syscall, { s with fd := false })
      else if s.mConnected then
        let (alive, s) := s.CallAcceptConnect sys
        (if alive then .true_ else .unassigned, s)
      else (.true_, { s with mAcceptConnectCallID := true })

/-- `OnEvents`, in the round in which the handshake and the connection are through or have failed. -/
def OnEvents (s : LowSocket) (sys : System) : LowSocket :=
  match sys.tls.bind TLS.handshake with
  | some ret => { s.record ret true "mbedtls_ssl_handshake_step" with queued := true }
  | none =>
    if s.mConnected then s
    else
      match sys.soError with
      | some errno => { s.record errno false "connect" with queued := true }
      | none => { s with mConnected := true, queued := true }

/-- `OnLoop`, up to reading and writing. -/
def OnLoop (s : LowSocket) (sys : System) : LowSocket :=
  let s := { s with queued := false }
  if s.mAcceptConnectCallID then (s.CallAcceptConnect sys).2 else s

end LowSocket

open LowSocket in
/-- `low_net_connect`, behind the checks of the address. -/
def low_net_connect (sys : System) : LowSocket :=
  match (created sys.unset).Connect sys with
  | (.true_, s) => s
  | (.false_ err syscall, s) => { s with calls := s.calls ++ [.error ⟨err, false, syscall⟩] }
  | (.unassigned, s) => { s with calls := s.calls ++ [.error sys.unset] }

/-- A connection from the call to its end. The web thread and the main loop have the socket only where
`Connect` waits. -/
def run (sys : System) : LowSocket :=
  let s := low_net_connect sys
  if s.mAcceptConnectCallID then (s.OnEvents sys).OnLoop sys else s

/-! ### What the calls say -/

/-- The failure of the setup of TLS. -/
def TLS.failure (tls : TLS) : Option Failure :=
  if tls.alloc = false then some ⟨ENOMEM, false, "malloc"⟩
  else
    match tls.setup with
    | some ret => some ⟨ret, true, "mbedtls_ssl_setup"⟩
    | none => tls.hostname.map fun ret => ⟨ret, true, "mbedtls_ssl_set_hostname"⟩

/-- The failure of the setup or of `connect` that ends them. -/
def System.breaks (sys : System) : Option Failure :=
  match sys.ioctl with
  | some errno => some ⟨errno, false, "ioctl"⟩
  | none =>
    match sys.tls.bind TLS.failure with
    | some failure => some failure
    | none =>
      match sys.connect with
      | some errno => if errno ≠ EINPROGRESS then some ⟨errno, false, "connect"⟩ else none
      | none => none

/-- The failures of the setup and of `connect`, in the order of the calls. -/
def System.setup (sys : System) : List Failure :=
  (if sys.ipv6 then (sys.inet_ntop.map fun errno => ⟨errno, false, "inet_ntop"⟩).toList else []) ++
    sys.breaks.toList

/-- The connection exists as soon as `connect` returns. -/
def System.immediate (sys : System) : Bool := sys.connect.isNone && sys.tls.isNone

/-- The failures of the calls behind those. -/
def System.later (sys : System) : List Failure :=
  let name : List Failure :=
    if sys.unix then [] else (sys.localName.map fun errno => ⟨errno, false, "getsockname"⟩).toList
  if sys.immediate then name
  else
    match sys.tls.bind TLS.handshake with
    | some ret => [⟨ret, true, "mbedtls_ssl_handshake_step"⟩]
    | none =>
      match sys.soError with
      | some errno => [⟨errno, false, "connect"⟩]
      | none => name

/-- The calls that fail in a connection. -/
def System.failures (sys : System) : List Failure :=
  match sys.socket with
  | some errno => [⟨errno, false, "socket"⟩]
  | none => if sys.setup = [] then sys.later else sys.setup

/-- The callback is called once, with the error of a call that has failed if one has. -/
def Reported (sys : System) : Prop :=
  ∃ report, (run sys).calls = [report] ∧
    match report with
    | .error failure => failure ∈ sys.failures
    | .connected => sys.failures = []

/-- What `Connect` reports itself has the number 1, and `getsockname` does not fail for a connection that
exists at once. -/
def System.Regular (sys : System) : Prop :=
  sys.socket.isSome = true ∨
    (∃ failure, sys.setup.getLast? = some failure ∧ failure.errno = EPERM ∧ failure.ssl = false) ∨
    (sys.setup = [] ∧ (sys.immediate = true → sys.later = []))

/-! ### The setup -/

namespace LowSocket

/-- The part of `Connect` that can record a failure. -/
def attempt (s : LowSocket) (sys : System) : LowSocket :=
  if (s.InitSocket sys).1 then (s.InitSocket sys).2.startConnect sys else (s.InitSocket sys).2

end LowSocket

open LowSocket in
lemma attempt_setup (sys : System) (failure : Failure) :
    let t := ({ created failure with fd := true } : LowSocket).attempt sys
    (sys.setup = [] → t = { created failure with fd := true, mConnected := sys.immediate }) ∧
      ∀ f, sys.setup.getLast? = some f → t.mAcceptConnectError = true ∧ t.failure = f ∧ t.calls = [] := by
  obtain ⟨ipv6, unix, socket, inet_ntop, ioctl, tls, connect, so, name, unset⟩ := sys
  rcases ioctl with _ | ioctl
  swap
  · cases ipv6 <;> cases inet_ntop <;>
      simp [attempt, InitSocket, System.setup, System.breaks, record, created]
  rcases tls with _ | ⟨alloc, setup, hostname, handshake⟩
  · rcases connect with _ | e
    · cases ipv6 <;> cases inet_ntop <;>
        simp [attempt, InitSocket, System.setup, System.breaks, TLS.failure, System.immediate, startConnect, record, created]
    · by_cases he : e = EINPROGRESS <;> cases ipv6 <;> cases inet_ntop <;>
        simp [attempt, InitSocket, System.setup, System.breaks, TLS.failure, System.immediate, startConnect, record, created, he]
  · rcases alloc with _ | _
    · cases ipv6 <;> cases inet_ntop <;>
        simp [attempt, InitSocket, System.setup, System.breaks, TLS.failure, initTLS, record, created]
    rcases setup with _ | ret
    swap
    · cases ipv6 <;> cases inet_ntop <;>
        simp [attempt, InitSocket, System.setup, System.breaks, TLS.failure, initTLS, record, created]
    rcases hostname with _ | ret
    swap
    · cases ipv6 <;> cases inet_ntop <;>
        simp [attempt, InitSocket, System.setup, System.breaks, TLS.failure, initTLS, record, created]
    rcases connect with _ | e
    · cases ipv6 <;> cases inet_ntop <;>
        simp [attempt, InitSocket, System.setup, System.breaks, TLS.failure, System.immediate, initTLS, startConnect, record, created]
    · by_cases he : e = EINPROGRESS <;> cases ipv6 <;> cases inet_ntop <;>
        simp [attempt, InitSocket, System.setup, System.breaks, TLS.failure, System.immediate, initTLS, startConnect, record, created, he]

open LowSocket in
lemma connect_attempt {sys : System} (hsocket : sys.socket = none) :
    (created sys.unset).Connect sys =
      let t := ({ created sys.unset with fd := true } : LowSocket).attempt sys
      if t.mAcceptConnectError then (.false_ EPERM t.failure.syscall, { t with fd := false })
      else if t.mConnected then
        (if (t.CallAcceptConnect sys).1 then .true_ else .unassigned, (t.CallAcceptConnect sys).2)
      else (.true_, { t with mAcceptConnectCallID := true }) := by
  rw [Connect, hsocket]
  rfl

/-! ### The callback -/

/-- A failure of the setup is reported with the number 1. -/
lemma run_setup {sys : System} (hsocket : sys.socket = none) {f : Failure} (hf : sys.setup.getLast? = some f) :
    (run sys).calls = [.error ⟨EPERM, false, f.syscall⟩] := by
  obtain ⟨herror, hfailure, hcalls⟩ := (attempt_setup sys sys.unset).2 f hf
  have hcall : (LowSocket.mAcceptConnectCallID
      (({ created sys.unset with fd := true } : LowSocket).attempt sys)) = false := by
    obtain ⟨ipv6, unix, socket, inet_ntop, ioctl, tls, connect, so, name, unset⟩ := sys
    simp only [LowSocket.attempt, LowSocket.InitSocket, LowSocket.startConnect, LowSocket.initTLS, created,
      LowSocket.record]
    repeat' split
    all_goals rfl
  rw [run, low_net_connect, connect_attempt hsocket]
  simp only [herror, hfailure, hcall, hcalls, if_true, Bool.false_eq_true, if_false, List.nil_append]

/-- Without a failure of the setup, the outcome is that of the later calls. -/
lemma run_later {sys : System} (hsocket : sys.socket = none) (hsetup : sys.setup = []) :
    (run sys).calls =
      match sys.later with
      | [] => [.connected]
      | f :: _ => if sys.immediate then [.error f, .error sys.unset] else [.error f] := by
  rw [run, low_net_connect, connect_attempt hsocket, (attempt_setup sys sys.unset).1 hsetup]
  obtain ⟨ipv6, unix, socket, inet_ntop, ioctl, tls, connect, so, name, unset⟩ := sys
  cases himmediate : connect.isNone && tls.isNone with
  | true =>
    simp only [System.later, System.immediate, himmediate, created, if_true]
    cases unix <;> cases name <;> simp [LowSocket.CallAcceptConnect, LowSocket.record]
  | false =>
    simp only [System.later, System.immediate, himmediate, created, Bool.false_eq_true, if_false]
    cases hshake : tls.bind TLS.handshake with
    | some ret =>
      simp [LowSocket.OnEvents, LowSocket.OnLoop, LowSocket.CallAcceptConnect, LowSocket.record, hshake]
      cases unix <;> cases name <;> simp
    | none =>
      cases so with
      | some errno =>
        simp [LowSocket.OnEvents, LowSocket.OnLoop, LowSocket.CallAcceptConnect, LowSocket.record, hshake]
        cases unix <;> cases name <;> simp
      | none =>
        simp [LowSocket.OnEvents, LowSocket.OnLoop, LowSocket.CallAcceptConnect, LowSocket.record, hshake]
        cases unix <;> cases name <;> simp

lemma breaks_name {sys : System} {f : Failure} (hf : f ∈ sys.breaks) : f.syscall ≠ "inet_ntop" := by
  rw [Option.mem_def, System.breaks] at hf
  split at hf
  · rw [← Option.some.inj hf]
    simp
  split at hf
  · rename_i failure hfailure
    obtain ⟨tls, -, htls⟩ := Option.bind_eq_some_iff.mp hfailure
    rw [← Option.some.inj hf]
    rw [TLS.failure] at htls
    split at htls
    · rw [← Option.some.inj htls]
      simp
    split at htls
    · rw [← Option.some.inj htls]
      simp
    · obtain ⟨ret, -, rfl⟩ := Option.map_eq_some_iff.mp htls
      simp
  split at hf
  · split at hf
    · rw [← Option.some.inj hf]
      simp
    · exact absurd hf.symm (Option.some_ne_none _)
  · exact absurd hf.symm (Option.some_ne_none _)

/-- Only the last failure of the setup has the name of its call. -/
lemma setup_last {sys : System} {f g : Failure} (hf : sys.setup.getLast? = some f) (hg : g ∈ sys.setup)
    (hname : g.syscall = f.syscall) : g = f := by
  rw [System.setup] at hf hg
  cases hbreaks : sys.breaks with
  | none =>
    rw [hbreaks, Option.toList_none, List.append_nil] at hf hg
    split at hf <;> rename_i hipv6
    · rw [if_pos hipv6] at hg
      cases hntop : sys.inet_ntop with
      | none => simp [hntop] at hg
      | some errno =>
        simp only [hntop, Option.map_some, Option.toList_some, List.getLast?_singleton, Option.some.injEq,
          List.mem_singleton] at hf hg
        rw [hg, hf]
    · simp at hf
  | some h =>
    have hne := @breaks_name sys h hbreaks
    simp only [hbreaks, Option.toList_some, List.getLast?_append, List.getLast?_singleton, Option.some_or,
      Option.some.injEq] at hf
    subst hf
    rw [hbreaks, Option.toList_some, List.mem_append, List.mem_singleton] at hg
    rcases hg with hg | hg
    · split at hg
      · rw [Option.mem_toList, Option.map_eq_some_iff] at hg
        obtain ⟨errno, -, rfl⟩ := hg
        exact absurd hname.symm hne
      · exact absurd hg List.not_mem_nil
    · exact hg

end LowJs.ConnectErrors
