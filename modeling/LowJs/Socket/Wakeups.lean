import LowJs.Socket.State

/-!
# A request that waits has a wake-up

A request of `Read` or `Write` that is not answered is either moved by the web thread, which needs its
poll event, or answered by `OnLoop`, which needs the loop callback. `OnEvents` clears the poll events
and queues the callback only when an attempt has ended, and `OnLoop` asks for the events at its end,
which a callback that throws leaves out.
-/

namespace LowJs.Sockets

namespace LowSocket

/-- The socket is neither closed nor destroyed. -/
def Open (s : LowSocket) : Prop := s.mClosed = false ∧ s.mDestroyed = false ∧ s.gone = false

/-- The poll event of a read that waits is requested. -/
def ReadPolled (s : LowSocket) : Prop := s.mReadPos = 0 ∧ s.pollIn = true

/-- The poll event of a write that waits is requested. -/
def WritePolled (s : LowSocket) : Prop := s.mWritePos = 0 ∧ s.pollOut = true

/-- While `OnLoop` is in a callback, the wake-up is its end. -/
def Woken (s : LowSocket) : Prop :=
  s.Open →
    (s.mReadData = true → s.loopQueued = true ∨ s.inCallback.isSome = true ∨ s.ReadPolled) ∧
      (s.mWriteData = true → s.loopQueued = true ∨ s.inCallback.isSome = true ∨ s.WritePolled)

instance (s : LowSocket) : Decidable s.Open := inferInstanceAs (Decidable (_ ∧ _))
instance (s : LowSocket) : Decidable s.ReadPolled := inferInstanceAs (Decidable (_ ∧ _))
instance (s : LowSocket) : Decidable s.WritePolled := inferInstanceAs (Decidable (_ ∧ _))
instance (s : LowSocket) : Decidable s.Woken := inferInstanceAs (Decidable (_ → _))

/-! ### The condition -/

/-- The first call for a read ends it: it moves bytes, meets the end or fails for good. -/
def ReadMoves (s : LowSocket) (e : Events) : Prop :=
  s.TriesRead e ∧
    (s.mReadLen = 0 ∨ ∀ errno ∈ firstError (readError s.tls) e.reads, errno.hard = true)

/-- The first call for a write ends it. Where it fails, the error that counts is the last one of the
read side. -/
def WriteMoves (s : LowSocket) (e : Events) : Prop :=
  s.TriesWrite e ∧
    (s.mWriteLen = 0 ∨ firstError (writeError s.tls) e.writes = none ∨
      (¬s.TriesRead e ∧ s.mReadErrno.hard = true))

/-- A connected socket: an attempt ends a request, `OnLoop` is running or to run, or nothing waits. -/
def TransferWakes (s : LowSocket) (e : Events) : Prop :=
  s.loopQueued = true ∨ s.inCallback.isSome = true ∨ s.ReadMoves e ∨ s.WriteMoves e ∨
    (s.mReadData = false ∧ s.mWriteData = false)

/-- A connection that fails is reported by the main loop. -/
def FailureWakes (s : LowSocket) : Prop :=
  s.loopQueued = true ∨ s.inCallback.isSome = true ∨ s.mAcceptConnectCallID = true ∨
    (s.mReadData = false ∧ s.mWriteData = false)

/-- The main loop is in `OnLoop` or is to run it, or `P` holds. -/
def LoopOr (s : LowSocket) (P : Prop) : Prop := s.loopQueued = true ∨ s.inCallback.isSome = true ∨ P

/-- A handshake that goes on asks for one of the two poll events only. -/
def HandshakeWakes (s : LowSocket) : Handshake → Prop
  | .finished => True
  | .wantRead => s.LoopOr (s.mWriteData = false)
  | .wantWrite => s.LoopOr (s.mReadData = false)
  | .failed => s.FailureWakes

/-- The events leave no request that waits without a wake-up. -/
def EventsWake (s : LowSocket) (e : Events) : Prop :=
  if s.mAcceptConnectError = true then s.LoopOr (s.mReadData = false ∧ s.mWriteData = false)
  else if s.tls = true ∧ s.handshakeOver = false ∧ e.handshake ≠ .finished then
    s.HandshakeWakes e.handshake
  else if s.mConnected = true then s.TransferWakes e
  else if e.soError = true then s.FailureWakes
  else s.mAcceptConnectCallID = true ∨ s.TransferWakes e

/-- A callback of `OnLoop` that throws leaves requests only whose poll events are requested. -/
def ThrowWakes (s : LowSocket) : Prop :=
  s.loopQueued = true ∨
    ((s.mReadData = true → s.ReadPolled) ∧ (s.mWriteData = true → s.WritePolled))

/-- The condition: on the events that come, and on the callbacks that throw. -/
def Wakes (s : LowSocket) : Input → Prop
  | .events e => s.Open → s.EventsWake e
  | .throw => s.Open → s.inCallback.isSome = true → s.ThrowWakes
  | _ => True

instance (s : LowSocket) (e : Events) : Decidable (s.ReadMoves e) :=
  inferInstanceAs (Decidable (_ ∧ _))
instance (s : LowSocket) (e : Events) : Decidable (s.WriteMoves e) :=
  inferInstanceAs (Decidable (_ ∧ _))
instance (s : LowSocket) (e : Events) : Decidable (s.TransferWakes e) :=
  inferInstanceAs (Decidable (_ ∨ _))
instance (s : LowSocket) : Decidable s.FailureWakes := inferInstanceAs (Decidable (_ ∨ _))
instance (s : LowSocket) (P : Prop) [Decidable P] : Decidable (s.LoopOr P) :=
  inferInstanceAs (Decidable (_ ∨ _))
instance (s : LowSocket) : ∀ h, Decidable (s.HandshakeWakes h)
  | .finished => isTrue trivial
  | .wantRead | .wantWrite => inferInstanceAs (Decidable (s.LoopOr _))
  | .failed => inferInstanceAs (Decidable s.FailureWakes)
instance (s : LowSocket) (e : Events) : Decidable (s.EventsWake e) :=
  inferInstanceAs (Decidable (if s.mAcceptConnectError = true then _ else
    if s.tls = true ∧ s.handshakeOver = false ∧ e.handshake ≠ .finished then _ else
    if s.mConnected = true then _ else if e.soError = true then _ else _))
instance (s : LowSocket) : Decidable s.ThrowWakes :=
  inferInstanceAs (Decidable (s.loopQueued = true ∨
    (s.mReadData = true → s.ReadPolled) ∧ (s.mWriteData = true → s.WritePolled)))
instance (s : LowSocket) : ∀ i, Decidable (s.Wakes i)
  | .events e => inferInstanceAs (Decidable (s.Open → s.EventsWake e))
  | .throw => inferInstanceAs (Decidable (s.Open → s.inCallback.isSome = true → s.ThrowWakes))
  | .read .. | .write .. | .shutdown _ | .close _ | .loop _ | .resume => isTrue trivial

/-! ### The invariant -/

/-- What is waiting is served: by the main loop to come, by the rest of `OnLoop`, or by the poll
event. A read that `OnLoop` has passed needs one of the other two. -/
structure Served (s : LowSocket) : Prop where
  connected : s.loopQueued = true →
    s.mConnected = true ∨ s.mAcceptConnectError = true ∨ s.mDestroyed = true
  inCallback : s.inCallback.isSome = true → s.mConnected = true
  read : s.Open → s.mReadData = true →
    s.loopQueued = true ∨ s.inCallback = some .accept ∨
      (s.mReadPos = 0 ∧ (s.pollIn = true ∨ s.inCallback.isSome = true))
  write : s.Open → s.mWriteData = true →
    s.loopQueued = true ∨ s.inCallback = some .accept ∨ s.inCallback = some .read ∨
      (s.mWritePos = 0 ∧ (s.pollOut = true ∨ s.inCallback.isSome = true))

lemma Served.woken {s : LowSocket} (h : s.Served) : s.Woken := by
  intro hopen
  constructor
  · intro hread
    rcases h.read hopen hread with hq | ha | ⟨hpos, hp | hc⟩
    · exact .inl hq
    · exact .inr (.inl (by simp [ha]))
    · exact .inr (.inr ⟨hpos, hp⟩)
    · exact .inr (.inl hc)
  · intro hwrite
    rcases h.write hopen hwrite with hq | ha | ha | ⟨hpos, hp | hc⟩
    · exact .inl hq
    · exact .inr (.inl (by simp [ha]))
    · exact .inr (.inl (by simp [ha]))
    · exact .inr (.inr ⟨hpos, hp⟩)
    · exact .inr (.inl hc)

lemma Initial.served {s : LowSocket} (h : s.Initial) : s.Served where
  connected hq := (h.loopQueued hq).2.imp_right .inl
  inCallback hc := by simp [h.inCallback] at hc
  read _ hread := by simp [h.mReadData] at hread
  write _ hwrite := by simp [h.mWriteData] at hwrite

variable {s : LowSocket}

lemma Served.read_call (h : s.Served) (len : Nat) (results : List SysResult) :
    (s.Read len results).Served := by
  obtain ⟨h₁, h₂, h₃, h₄⟩ := h
  simp only [Open] at h₃ h₄
  constructor <;> simp only [Read, readDone, readLater, tookRead, attempted, answer, setPollEvents,
    tryNow, Open] <;> split_ifs <;> grind -ring -linarith

lemma Served.write_call (h : s.Served) (len : Nat) (results : List SysResult) :
    (s.Write len results).Served := by
  obtain ⟨h₁, h₂, h₃, h₄⟩ := h
  simp only [Open] at h₃ h₄
  constructor <;> simp only [Write, writeDone, writeLater, tookWrite, attempted, answer, setPollEvents,
    tryNow, Open] <;> split_ifs <;> try split
  all_goals grind -ring -linarith

lemma Served.shutdown_call (h : s.Served) (failed : Option Int) : (s.Shutdown failed).Served := by
  obtain ⟨h₁, h₂, h₃, h₄⟩ := h
  cases failed <;> constructor <;> simp only [Shutdown, attempted, answer] <;> split_ifs <;>
    assumption

lemma Served.close_call (h : s.Served) (callback : Bool) : (s.Close callback).Served := by
  unfold Close
  split_ifs with hd
  · exact h
  · exact ⟨fun _ => .inr (.inr rfl), h.inCallback, fun ho => absurd ho.2.1 (by simp),
      fun ho => absurd ho.2.1 (by simp)⟩

/-- The poll events do not matter once a socket is not open or `OnLoop` is to run. -/
lemma Served.of_queued (h₁ : s.mConnected = true ∨ s.mAcceptConnectError = true ∨ s.mDestroyed = true)
    (h₂ : s.inCallback.isSome = true → s.mConnected = true) (h : s.Open → s.loopQueued = true) :
    s.Served :=
  ⟨fun _ => h₁, h₂, fun ho _ => .inl (h ho), fun ho _ => .inl (h ho)⟩

lemma Served.events_transfer (hc : s.mConnected = true) {e : Events} (h : s.Served)
    (hok : s.Open → s.TransferWakes e) : (s.eventsTransfer e).Served := by
  have hqueued : ∀ t : LowSocket, t.mConnected = true →
      (t.setPollEvents false false).setLoopCallback.Served := fun t ht =>
    .of_queued (.inl ht) (fun _ => ht) fun _ => rfl
  obtain ⟨h₁, h₂, h₃, h₄⟩ := h
  simp only [eventsTransfer]
  rcases s.eventsRead_cases e with ⟨hr, hre⟩ | ⟨rerrno, hr, hrlen, hrfirst, hrsoft, hre⟩ | ⟨r, hr, -, -, hre⟩
  all_goals
    simp only [hre]
    rcases eventsWrite_cases _ _ e with ⟨hw, hwe⟩ | ⟨werrno, hw, hwlen, hwfirst, hwsoft, hwe⟩ |
      ⟨w, hw, -, -, hwe⟩
    all_goals rw [hwe]
  case inr.inr.inl | inr.inr.inr.inl | inr.inr.inr.inr | inl.inr.inr | inr.inl.inr.inr =>
    exact hqueued _ hc
  -- nothing has ended: the condition leaves only requests that the main loop serves
  all_goals
    simp only [TransferWakes, ReadMoves, WriteMoves, TriesRead, TriesWrite, Open, tookRead,
      attempted] at *
    constructor <;> simp only [setPollEvents, tookWrite, attempted, Open] <;> grind -ring -linarith

/-- A failure of the connection ends in the callback that waits for it. -/
lemma Served.connect_failed (h : s.Served) (hok : s.Open → s.FailureWakes) :
    s.connectFailed.Served := by
  obtain ⟨h₁, h₂, h₃, h₄⟩ := h
  simp only [FailureWakes, Open] at hok h₃ h₄
  constructor <;> simp only [connectFailed, setPollEvents, Open] <;> grind -ring -linarith

lemma Served.events_connect {e : Events} (h : s.Served)
    (hok : s.Open → if s.mConnected = true then s.TransferWakes e
      else if e.soError = true then s.FailureWakes
      else s.mAcceptConnectCallID = true ∨ s.TransferWakes e) : (s.eventsConnect e).Served := by
  unfold eventsConnect
  split_ifs with hc herr
  · exact h.events_transfer hc (by simpa [hc] using hok)
  · exact h.connect_failed (by simpa [hc, herr] using hok)
  · obtain ⟨h₁, h₂, h₃, h₄⟩ := h
    have hnc : s.inCallback.isSome = false := by
      cases hcb : s.inCallback.isSome with
      | true => exact absurd (h₂ hcb) hc
      | false => rfl
    refine events_transfer rfl ⟨fun _ => .inl rfl, fun _ => rfl, ?_, ?_⟩ ?_
    · simp only [Open] at *
      grind -ring -linarith
    · simp only [Open] at *
      grind -ring -linarith
    · intro ho
      have hok := hok ho
      rw [if_neg hc, if_neg herr] at hok
      rcases hok with ha | hw
      · exact .inl (by simp [ha])
      · rcases hw with hq | hw
        · exact .inl (by simp [hq])
        · exact .inr hw

lemma Served.events_call {e : Events} (h : s.Served) (hok : s.Open → s.EventsWake e) :
    (s.OnEvents e).Served := by
  unfold OnEvents
  split_ifs with hend htls
  · obtain ⟨h₁, h₂, h₃, h₄⟩ := h
    simp only [EventsWake, LoopOr, Open] at *
    constructor <;> simp only [setPollEvents, Open] <;> grind -ring -linarith
  · obtain ⟨⟨hd, herr⟩, hcl⟩ : (s.mDestroyed = false ∧ s.mAcceptConnectError = false) ∧
        s.mClosed = false := by simpa [not_or] using hend
    simp only [Bool.and_eq_true, Bool.not_eq_true'] at htls
    have hother : ∀ t : LowSocket, t = { s with
        mDirectReadEnabled := t.mDirectReadEnabled, mDirectWriteEnabled := t.mDirectWriteEnabled
        handshakeOver := t.handshakeOver } → t.Served := by
      intro t ht
      rw [ht]
      exact ⟨h.connected, h.inCallback, h.read, h.write⟩
    cases hh : e.handshake with
    | finished =>
      refine (hother _ rfl).events_connect fun ho => ?_
      have := hok ho
      simp only [EventsWake, herr, hh, Bool.false_eq_true, if_false, ne_eq, not_true, and_false] at this
      exact this
    | failed =>
      refine (hother _ rfl).connect_failed fun ho => ?_
      have := hok ho
      simp only [EventsWake, HandshakeWakes, herr, hh, htls, Bool.false_eq_true, if_false, ne_eq,
        reduceCtorEq, not_false_eq_true, and_self, if_true] at this
      exact this
    | wantRead | wantWrite =>
      obtain ⟨h₁, h₂, h₃, h₄⟩ := h
      simp only [EventsWake, HandshakeWakes, LoopOr, herr, hh, htls, Open] at *
      constructor <;> simp only [setPollEvents, Open] <;> grind -ring -linarith
  · obtain ⟨⟨hd, herr⟩, hcl⟩ : (s.mDestroyed = false ∧ s.mAcceptConnectError = false) ∧
        s.mClosed = false := by simpa [not_or] using hend
    refine h.events_connect fun ho => ?_
    have := hok ho
    have htls' : ¬(s.tls = true ∧ s.handshakeOver = false ∧ e.handshake ≠ .finished) :=
      fun hn => htls (by simp [hn.1, hn.2.1])
    simpa only [EventsWake, herr, Bool.false_eq_true, if_false, if_neg htls'] using this

/-! ### The main loop -/

lemma served_loopEnd (hc : s.mConnected = true)
    (hr : s.Open → s.mReadData = true → s.loopQueued = true ∨ s.mReadPos = 0)
    (hw : s.Open → s.mWriteData = true → s.loopQueued = true ∨ s.mWritePos = 0) :
    s.loopEnd.Served := by
  simp only [Open] at hr hw
  constructor <;> simp only [loopEnd, setPollEvents, Open] <;> grind -ring -linarith

lemma served_loopWrite (hc : s.mConnected = true)
    (hr : s.Open → s.mReadData = true → s.loopQueued = true ∨ s.mReadPos = 0) :
    s.loopWrite.Served := by
  unfold loopWrite
  by_cases hw : (s.mWriteData && s.mWritePos != 0) = true
  · rw [if_pos hw]
    simp only [Open] at hr
    constructor <;> simp only [answer, Open] <;> grind -ring -linarith
  · rw [if_neg hw]
    refine served_loopEnd hc hr fun _ hdata => .inr ?_
    simpa [hdata] using hw

lemma served_loopRead (hc : s.mConnected = true) : s.loopRead.Served := by
  unfold loopRead
  rw [if_neg (by simp [hc])]
  by_cases hr : (s.mReadData && (s.mClosed || s.mReadPos != 0)) = true
  · rw [if_pos hr]
    constructor <;> simp only [answer, Open] <;> grind -ring -linarith
  · rw [if_neg hr]
    refine served_loopWrite hc fun _ hdata => .inr ?_
    have : s.mClosed = false ∧ s.mReadPos = 0 := by simpa [hdata] using hr
    exact this.2

lemma served_gone {t : LowSocket} (hg : t.gone = true)
    (h₁ : t.mConnected = true ∨ t.mAcceptConnectError = true ∨ t.mDestroyed = true)
    (h₂ : t.inCallback.isSome = true → t.mConnected = true) : t.Served :=
  .of_queued h₁ h₂ fun ho => by simp [ho.2.2] at hg

lemma Served.loop_call (h : s.Served) (hq : s.loopQueued = true) (addrError : Bool) :
    (s.OnLoop addrError).Served := by
  have hconn := h.connected hq
  simp only [OnLoop]
  split_ifs with hd ha herr hm herr
  · exact served_gone rfl hconn h.inCallback
  · exact served_gone rfl (.inr (.inl herr)) h.inCallback
  · exact ⟨fun hq => by simp at hq, fun _ => hm, fun _ _ => .inr (.inl rfl), fun _ _ => .inr (.inl rfl)⟩
  · -- a callback that waits for a connection is only queued with one, or with an error
    simp only [Bool.or_eq_true, not_or] at herr
    rcases hconn with hc | hc | hc
    · exact absurd hc hm
    · exact absurd hc herr.1
    · exact absurd hc hd
  · exact served_gone rfl hconn h.inCallback
  · apply served_loopRead
    rcases hconn with hc | hc | hc
    · exact hc
    · exact absurd hc herr
    · exact absurd hc hd

lemma Served.resume_call (h : s.Served) : s.resume.Served := by
  unfold resume
  split
  · exact h
  · exact served_loopRead (h.inCallback (by simp [*]))
  · refine served_loopWrite (h.inCallback (by simp [*])) fun ho hdata => ?_
    rcases h.read ho hdata with hq | hc | ⟨hpos, -⟩
    · exact .inl hq
    · simp_all
    · exact .inr hpos
  · refine served_loopEnd (h.inCallback (by simp [*])) (fun ho hdata => ?_) fun ho hdata => ?_
    · rcases h.read ho hdata with hq | hc | ⟨hpos, -⟩
      · exact .inl hq
      · simp_all
      · exact .inr hpos
    · rcases h.write ho hdata with hq | hc | hc | ⟨hpos, -⟩
      · exact .inl hq
      · simp_all
      · simp_all
      · exact .inr hpos

lemma Served.throw_call (h : s.Served)
    (hok : s.Open → s.inCallback.isSome = true → s.ThrowWakes) :
    ({ s with inCallback := none } : LowSocket).Served := by
  obtain ⟨h₁, h₂, h₃, h₄⟩ := h
  simp only [ThrowWakes, ReadPolled, WritePolled, Open] at *
  constructor <;> simp only [Open] <;> grind -ring -linarith

lemma Served.step {i : Input} (h : s.Served) (hok : s.Wakes i) : (s.step i).Served := by
  unfold LowSocket.step
  split_ifs with hgone
  · exact h
  cases i with
  | read len results => exact h.read_call len results
  | write len results => exact h.write_call len results
  | shutdown failed => exact h.shutdown_call failed
  | close callback => exact h.close_call callback
  | events e => exact h.events_call hok
  | loop addrError =>
    simp only [call]
    split_ifs with hq
    · exact h.loop_call (by simp_all) addrError
    · exact h
  | resume => exact h.resume_call
  | throw => exact h.throw_call hok

/-- In every run in which no poll event ends without an attempt that ends a request and no callback
throws before `OnLoop` has asked for the poll events, a request that waits has a wake-up. -/
theorem requests_woken {s : LowSocket} (h : s.Initial) {is : List Input}
    (hok : machine.Guarded Wakes s is) : (machine.run s is).Woken :=
  (machine.run_invariant (fun _ _ => Served.step) h.served hok).woken

/-- A read waits for the poll event, gets its bytes, and its callback reads again. -/
theorem requests_woken_twice :
    (machine.run (connected ⟨0, false⟩ ⟨0, false⟩) [.read 5 [],
      .events ⟨true, false, .finished, false, [.size 3], []⟩, .loop false, .read 5 [], .resume]).Woken :=
  requests_woken (initial_connected _ _) (by decide)

/-- A poll event for which the read gets `EAGAIN` leaves the read without a wake-up. -/
theorem request_not_woken :
    ¬(machine.run (connected ⟨0, false⟩ ⟨0, false⟩) [.read 5 [],
      .events ⟨true, false, .finished, false, [.error EAGAIN], []⟩]).Woken := by
  decide

end LowSocket

end LowJs.Sockets
