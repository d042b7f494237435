import LowJs.Core.Prefixes

/-!
# Reads in front of a connection

A `net.Socket` is corked until it is connected. A read in front of that waits in `_waitConnect`; when the
connection is there it is done by a second copy of the code for reads, which only pushes. An `end()` in
front of the connection comes to `final` when the socket is uncorked. The same step is defined with the copy
and without it; without it is what a read behind the connection does.
-/

namespace LowJs.DeferredReads

abbrev Bytes := List UInt8

inductive Phase
  | idle
  | connecting
  | connected
  deriving DecidableEq, Repr

/-- What is pushed: data, a buffer to which nothing was read, or `null`. -/
inductive Push
  | chunk (data : Bytes)
  | garbage (size : Nat)
  | eof
  deriving DecidableEq, Repr

/-- A socket without a descriptor at first. `waitConnect` is `some none` for `null`; `reading` is the size of
the read that waits for its callback, and whether the copy has asked for it. `shuttingDown` and `closing`
stand for the other calls that wait for theirs. The rest is history: the calls of `refresh`, the errors with
which the socket was destroyed, the calls of `shutdown`, the completions of `final`, whether `end()` came
before the connection, and the reads requested and answered. -/
structure Socket where
  phase : Phase
  corkCount : Nat
  writableEOF : Bool
  finished : Bool
  readableEOF : Bool
  destroyed : Bool
  waitConnect : Option (Option Nat)
  socketReading : Bool
  ref : Bool
  refSet : Bool
  timeout : Bool
  reading : Option (Nat × Bool)
  shuttingDown : Bool
  closing : Bool
  bytesRead : Nat
  pushed : List Push
  refreshes : Nat
  errors : Nat
  shutdowns : Nat
  finals : Nat
  endedEarly : Bool
  requested : Nat
  answered : Nat
  deriving DecidableEq, Repr

def start : Socket where
  phase := .idle
  corkCount := 1
  writableEOF := false
  finished := false
  readableEOF := false
  destroyed := false
  waitConnect := none
  socketReading := false
  ref := true
  refSet := false
  timeout := false
  reading := none
  shuttingDown := false
  closing := false
  bytesRead := 0
  pushed := []
  refreshes := 0
  errors := 0
  shutdowns := 0
  finals := 0
  endedEarly := false
  requested := 0
  answered := 0

/-- The callback of `native.read` gets an error or the bytes read, none at the end of the stream. -/
inductive Result
  | error
  | data (bs : Bytes)
  deriving DecidableEq, Repr

/-- The calls of the user and of the base class, and the callbacks. -/
inductive Input
  | connect
  | connectFailed
  | connected
  | read (size : Nat)
  | end_
  | readDone (result : Result)
  | shutdownDone
  | closeDone
  | setTimeout
  | setRef (ref : Bool)
  deriving DecidableEq, Repr

namespace Socket

/-- `_updateRef`. -/
def updateRef (s : Socket) : Socket :=
  { s with refSet := s.ref && !s.destroyed &&
      (s.phase == .connecting || s.waitConnect.isSome || s.socketReading) }

/-- `push`. -/
def push (s : Socket) (p : Push) : Socket :=
  if s.readableEOF then s else { s with pushed := s.pushed ++ [p], readableEOF := p == .eof }

/-- `destroy`, with an error or without one. -/
def destroy (s : Socket) (error : Bool) : Socket :=
  if s.destroyed then s
  else
    { s with
      destroyed := true
      readableEOF := true
      writableEOF := true
      finished := true
      timeout := false
      closing := s.phase == .connected
      errors := s.errors + error.toNat }

/-- `final`. -/
def final (s : Socket) : Socket :=
  if s.phase ≠ .connected then updateRef { s with waitConnect := some none }
  else if s.readableEOF then { s.destroy false with finals := s.finals + 1 }
  else { s with shutdowns := s.shutdowns + 1, shuttingDown := true }

/-- `_writableNext`; nothing is written here. -/
def writableNext (s : Socket) : Socket :=
  if s.destroyed then s
  else if s.corkCount = 0 ∧ s.writableEOF = true ∧ s.finished = false then { s with finished := true }.final
  else s

/-- `uncork`. -/
def uncork (s : Socket) : Socket :=
  let s := { s with corkCount := s.corkCount - 1 }
  if s.corkCount = 0 then s.writableNext else s

def refresh (s : Socket) : Socket := { s with refreshes := s.refreshes + s.timeout.toNat }

/-- `read`. -/
def read (s : Socket) (size : Nat) : Socket :=
  let s := { s with requested := s.requested + 1 }
  if s.phase ≠ .connected then updateRef { s with waitConnect := some (some size) }
  else updateRef { s with socketReading := true, reading := some (size, false) }

/-- The callback of the `native.read` of `read`. -/
def readDone (s : Socket) (result : Result) : Socket :=
  let s := updateRef { s with socketReading := false }
  match result with
  | .error => s.destroy true
  | .data bs =>
    let s := s.refresh
    if bs = [] then if s.writableEOF then s.destroy false else s.push .eof
    else { s with bytesRead := s.bytesRead + bs.length }.push (.chunk bs)

/-- The callback of the `native.read` of the copy; its slice of the buffer is all of it where `bytesRead` is
`undefined`. -/
def deferredDone (s : Socket) (size : Nat) (result : Result) : Socket :=
  match result with
  | .error => s.push (.garbage size)
  | .data bs => s.push (.chunk bs)

/-- The deferred actions. -/
def deferred (s : Socket) : Socket :=
  match s.waitConnect with
  | none => s
  | some none =>
    if s.readableEOF then { s with waitConnect := none }.destroy false
    else { s with waitConnect := none, shutdowns := s.shutdowns + 1 }
  | some (some size) => { s with waitConnect := none, socketReading := true, reading := some (size, true) }

/-- The callback of `native.connect`. -/
def connected (s : Socket) : Socket :=
  if s.destroyed then updateRef { s with phase := .idle }
  else (updateRef { s with phase := .connected }.uncork).deferred.refresh

/-- `end`; a socket that was corked in its constructor is not uncorked. -/
def end_ (s : Socket) : Socket :=
  if s.writableEOF then s
  else { s with writableEOF := true, endedEarly := s.phase != .connected }

/-- The inputs that can happen. The base class asks for one read at a time. -/
def Enabled (s : Socket) : Input → Prop
  | .connect => s.phase = .idle ∧ s.destroyed = false
  | .connectFailed | .connected => s.phase = .connecting
  | .read _ => s.readableEOF = false ∧ s.reading = none ∧ s.waitConnect = none
  | .readDone .error => s.reading.isSome = true
  | .readDone (.data bs) => ∃ r ∈ s.reading, bs.length ≤ r.1
  | .shutdownDone => s.shuttingDown = true
  | .closeDone => s.closing = true
  | .end_ | .setTimeout | .setRef _ => True

instance (s : Socket) : ∀ i, Decidable (s.Enabled i)
  | .connect => inferInstanceAs (Decidable (_ ∧ _))
  | .read _ => inferInstanceAs (Decidable (_ ∧ _ ∧ _))
  | .readDone (.data bs) => inferInstanceAs (Decidable (∃ r ∈ s.reading, bs.length ≤ r.1))
  | .readDone .error | .connectFailed | .connected | .shutdownDone | .closeDone =>
    inferInstanceAs (Decidable (_ = _))
  | .end_ | .setTimeout | .setRef _ => inferInstanceAs (Decidable True)

/-- The callback of a read; `copy` says whether the copy has one of its own. -/
def answer (copy : Bool) (s : Socket) (result : Result) : Socket :=
  match s.reading with
  | none => s
  | some (size, deferred) =>
    let s := { s with reading := none, answered := s.answered + 1 }
    if copy && deferred then s.deferredDone size result else s.readDone result

def call (copy : Bool) (s : Socket) : Input → Socket
  | .connect => updateRef { s with phase := .connecting }
  | .connectFailed => updateRef { s with phase := .idle }
  | .connected => s.connected
  | .read size => s.read size
  | .end_ => s.end_
  | .readDone result => s.answer copy result
  | .shutdownDone => { s with shuttingDown := false, finals := s.finals + 1 }
  | .closeDone => updateRef { s with closing := false, ref := false }
  | .setTimeout => if s.destroyed then s else { s with timeout := true }
  | .setRef ref => updateRef { s with ref := ref }

def step (copy : Bool) (s : Socket) (i : Input) : Socket := if s.Enabled i then s.call copy i else s

end Socket

/-- The socket of the source, and the one with one piece of code for reads. -/
def machine (copy : Bool) : Machine Socket Input := ⟨Socket.step copy⟩

/-- What can be seen of a socket: the data pushed and counted, the timeout, the reference of the loop,
destruction, and how it is shut down. -/
def Socket.seen (s : Socket) : List Push × Nat × Nat × Bool × Bool × Nat × Nat × Nat :=
  (s.pushed, s.bytesRead, s.refreshes, s.refSet, s.destroyed, s.errors, s.shutdowns, s.finals)

/-- No read is lost, and an `end()` before the connection shuts it down and completes once. -/
structure Socket.EndSound (s : Socket) : Prop where
  kept : s.requested = s.answered + s.reading.isSome.toNat + s.waitConnect.isSome.toNat
  once : s.phase = .connected → s.endedEarly = true →
    s.shutdowns = 1 ∧ s.finals + s.shuttingDown.toNat = 1
  most : s.finals ≤ 1

/-- The callback that comes is not that of a read that waited for the connection. -/
def Socket.Direct (s : Socket) : Input → Prop
  | .readDone result => s.Enabled (.readDone result) → ∀ r ∈ s.reading, r.2 = false
  | _ => True

namespace Socket

/-! ### The invariant -/

/-- In front of the connection nothing is done; `final` comes with it if `end()` was called before. -/
structure Inv (s : Socket) : Prop where
  early : s.phase ≠ .connected → s.corkCount = 1 ∧ s.reading = none ∧ s.readableEOF = false ∧
    s.destroyed = false ∧ s.finished = false ∧ s.finals = 0 ∧ s.shutdowns = 0 ∧
    s.shuttingDown = false ∧ s.endedEarly = s.writableEOF
  late : s.phase = .connected → s.corkCount = 0 ∧ s.waitConnect = none ∧ s.shutdowns = s.endedEarly.toNat ∧
    s.finals + s.shuttingDown.toNat = s.endedEarly.toNat
  wait : s.waitConnect ≠ some none
  open_ : s.reading.isSome = true → s.readableEOF = false
  kept : s.requested = s.answered + s.reading.isSome.toNat + s.waitConnect.isSome.toNat
  ended : s.endedEarly = true → s.writableEOF = true

lemma inv_start : start.Inv :=
  ⟨fun _ => by decide, fun h => absurd h (by decide), by decide, by decide, by decide, by decide⟩

variable {s : Socket}

lemma Inv.endSound (h : s.Inv) : s.EndSound := by
  refine ⟨h.kept, fun hphase hended => ?_, ?_⟩
  · obtain ⟨-, -, hshut, hfinal⟩ := h.late hphase
    rw [hended] at hshut hfinal
    exact ⟨hshut, hfinal⟩
  · by_cases hphase : s.phase = .connected
    · have hfinal := (h.late hphase).2.2.2
      have := s.endedEarly.toNat_le
      omega
    · rw [(h.early hphase).2.2.2.2.2.1]
      exact Nat.zero_le _

/-- The fields that the invariant is about. -/
structure Same (s t : Socket) : Prop where
  phase : t.phase = s.phase
  corkCount : t.corkCount = s.corkCount
  waitConnect : t.waitConnect = s.waitConnect
  shuttingDown : t.shuttingDown = s.shuttingDown
  shutdowns : t.shutdowns = s.shutdowns
  finals : t.finals = s.finals
  endedEarly : t.endedEarly = s.endedEarly
  requested : t.requested = s.requested
  answered : t.answered = s.answered
  reading : t.reading = s.reading
  writableEOF : s.writableEOF = true → t.writableEOF = true

lemma Same.updateRef {t : Socket} (h : Same s t) : Same s t.updateRef := by
  cases h
  constructor <;> assumption

lemma Same.push {t : Socket} (h : Same s t) (p : Push) : Same s (t.push p) := by
  rw [Socket.push]
  split
  · exact h
  · cases h
    constructor <;> assumption

lemma Same.destroy {t : Socket} (h : Same s t) (error : Bool) : Same s (t.destroy error) := by
  rw [Socket.destroy]
  split
  · exact h
  · cases h
    constructor <;> first | assumption | exact fun _ => rfl

lemma Same.readDone (h : Same s s) (result : Result) : Same s (s.readDone result) := by
  have hfirst : Same s (Socket.updateRef { s with socketReading := false }) := by
    apply Same.updateRef
    cases h
    constructor <;> assumption
  rw [Socket.readDone.eq_def]
  cases result with
  | error => exact hfirst.destroy true
  | data bs =>
    have hsecond : Same s (Socket.updateRef { s with socketReading := false }).refresh := by
      cases hfirst
      constructor <;> assumption
    dsimp only
    split
    · split
      · exact hsecond.destroy false
      · exact hsecond.push .eof
    · apply Same.push
      cases hsecond
      constructor <;> assumption

/-- Behind the connection, while no read is under way, the rest of the socket can change freely. -/
lemma Inv.of_same {t : Socket} (h : s.Inv) (hsame : Same s t) (hphase : s.phase = .connected)
    (hreading : s.reading = none) : t.Inv := by
  obtain ⟨hp, hc, hw, hsd, hsh, hf, he, hrq, ha, hr, hwr⟩ := hsame
  refine ⟨fun hne => absurd (hp.trans hphase) hne, fun _ => ?_, ?_, fun hsome => ?_, ?_, fun hended => ?_⟩
  · rw [hc, hw, hsd, hsh, hf, he]
    exact h.late hphase
  · rw [hw]
    exact h.wait
  · rw [hr, hreading] at hsome
    exact absurd hsome Bool.false_ne_true
  · rw [hrq, ha, hr, hw]
    exact h.kept
  · exact hwr (h.ended (he.symm.trans hended))

lemma Inv.answer (h : s.Inv) (result : Result) (hdirect : ∀ r ∈ s.reading, r.2 = false) :
    (s.answer true result).Inv := by
  rw [Socket.answer]
  cases hreading : s.reading with
  | none => exact h
  | some r =>
    obtain ⟨size, deferred⟩ := r
    have hdeferred : deferred = false := hdirect (size, deferred) hreading
    subst hdeferred
    have hphase : s.phase = .connected := by
      by_contra hne
      rw [(h.early hne).2.1] at hreading
      exact absurd hreading.symm (Option.some_ne_none _)
    have hinv : Inv { s with reading := none, answered := s.answered + 1 } := by
      refine ⟨fun hne => absurd hphase hne, fun _ => h.late hphase, h.wait, fun hsome => ?_, ?_, h.ended⟩
      · exact absurd hsome Bool.false_ne_true
      · have hkept := h.kept
        rw [hreading] at hkept
        simpa using hkept
    exact hinv.of_same (Same.readDone ⟨rfl, rfl, rfl, rfl, rfl, rfl, rfl, rfl, rfl, rfl, id⟩ result) hphase rfl

/-- The socket with the connection, uncorked. -/
lemma Inv.uncork (h : s.Inv) (hphase : s.phase = .connecting) :
    let t := ({ s with phase := .connected } : Socket).uncork
    t.phase = .connected ∧ t.corkCount = 0 ∧ t.waitConnect = s.waitConnect ∧ t.reading = none ∧
      t.readableEOF = false ∧ t.destroyed = false ∧ t.endedEarly = s.endedEarly ∧
      t.shutdowns = s.endedEarly.toNat ∧ t.finals + t.shuttingDown.toNat = s.endedEarly.toNat ∧
      t.requested = s.requested ∧ t.answered = s.answered ∧ t.writableEOF = s.writableEOF := by
  obtain ⟨hcork, hreading, heof, hdestroyed, hfinished, hfinals, hshut, hshutting, hended⟩ :=
    h.early (by rw [hphase]; decide)
  have hended' := hended
  cases hwritable : s.writableEOF with
  | true =>
    rw [hwritable] at hended'
    simp [Socket.uncork, writableNext, final, hcork, hreading, heof, hdestroyed, hfinished, hfinals, hshut,
      hended']
  | false =>
    rw [hwritable] at hended'
    simp [Socket.uncork, writableNext, hcork, hreading, heof, hdestroyed, hfinals, hshut, hshutting,
      hended']

lemma Inv.connected (h : s.Inv) (hphase : s.phase = .connecting) : s.connected.Inv := by
  have huncork := h.uncork hphase
  have hkept := h.kept
  have hended := h.ended
  have hwait := h.wait
  obtain ⟨-, hreading, -, hdestroyed, -⟩ := h.early (by rw [hphase]; decide)
  rw [hreading] at hkept
  rw [Socket.connected, if_neg (by rw [hdestroyed]; exact Bool.false_ne_true)]
  dsimp only at huncork
  generalize ({ s with phase := .connected } : Socket).uncork = t at huncork ⊢
  obtain ⟨hp, hc, hw, hr, heof, -, he, hsh, hf, hrq, ha, hwr⟩ := huncork
  have hended' : t.endedEarly = true → t.writableEOF = true := by
    rw [he, hwr]
    exact hended
  rw [← he] at hsh hf
  cases hsize : s.waitConnect with
  | none =>
    rw [hsize] at hw hkept
    have hdeferred : t.updateRef.deferred = t.updateRef := by
      rw [deferred, show t.updateRef.waitConnect = none from hw]
    rw [hdeferred]
    refine ⟨fun hne => absurd hp hne, fun _ => ⟨hc, hw, hsh, hf⟩, ?_, fun _ => heof, ?_, hended'⟩
    · simp [refresh, updateRef, hw]
    · simpa [refresh, updateRef, hw, hr, hrq, ha] using hkept
  | some size =>
    cases size with
    | none => exact absurd hsize hwait
    | some size =>
      rw [hsize] at hw hkept
      have hdeferred : t.updateRef.deferred =
          { t.updateRef with waitConnect := none, socketReading := true, reading := some (size, true) } := by
        rw [deferred, show t.updateRef.waitConnect = some (some size) from hw]
      rw [hdeferred]
      refine ⟨fun hne => absurd hp hne, fun _ => ⟨hc, rfl, hsh, hf⟩, ?_, fun _ => heof, ?_, hended'⟩
      · simp [refresh]
      · simpa [refresh, updateRef, hr, hrq, ha] using hkept

lemma Inv.step (h : s.Inv) {i : Input} (hdirect : s.Direct i) : (s.step true i).Inv := by
  rw [Socket.step]
  split
  swap
  · exact h
  rename_i henabled
  cases i with
  | connect =>
    have hne : s.phase ≠ .connected := by rw [henabled.1]; decide
    exact ⟨fun _ => h.early hne, fun hp => absurd hp (by simp [call, updateRef]), h.wait, h.open_, h.kept, h.ended⟩
  | connectFailed =>
    have henabled : s.phase = .connecting := henabled
    have hne : s.phase ≠ .connected := by rw [henabled]; decide
    exact ⟨fun _ => h.early hne, fun hp => absurd hp (by simp [call, updateRef]), h.wait, h.open_, h.kept, h.ended⟩
  | connected => exact h.connected henabled
  | read size =>
    obtain ⟨heof, hreading, hwait⟩ := henabled
    have hkept := h.kept
    rw [call, Socket.read]
    dsimp only
    split
    · rename_i hne
      refine ⟨fun _ => h.early hne, fun hp => absurd hp hne, by simp [updateRef], h.open_, ?_, h.ended⟩
      simp only [updateRef]
      rw [hwait] at hkept
      simp only [Option.isSome_none, Bool.toNat_false] at hkept
      simp only [Option.isSome_some, Bool.toNat_true]
      omega
    · rename_i hconnected
      rw [not_not] at hconnected
      refine ⟨fun hne => absurd hconnected hne, fun _ => h.late hconnected, h.wait, fun _ => heof, ?_, h.ended⟩
      simp only [updateRef]
      rw [hreading] at hkept
      simp only [Option.isSome_none, Bool.toNat_false] at hkept
      simp only [Option.isSome_some, Bool.toNat_true]
      omega
  | end_ =>
    rw [call, Socket.end_]
    split
    · exact h
    · rename_i hwritable
      refine ⟨fun hne => ?_, fun hp => ?_, h.wait, h.open_, h.kept, fun _ => rfl⟩
      · obtain ⟨h1, h2, h3, h4, h5, h6, h7, h8, -⟩ := h.early hne
        exact ⟨h1, h2, h3, h4, h5, h6, h7, h8, by simpa using hne⟩
      · obtain ⟨h1, h2, h3, h4⟩ := h.late hp
        have hended : s.endedEarly = false := Bool.eq_false_of_not_eq_true fun hended => hwritable (h.ended hended)
        have hphase : (s.phase != .connected) = false := by rw [show s.phase = .connected from hp]; rfl
        rw [hended] at h3 h4
        simp only [hphase]
        exact ⟨h1, h2, h3, h4⟩
  | readDone result => exact h.answer result (hdirect henabled)
  | shutdownDone =>
    have henabled : s.shuttingDown = true := henabled
    have hphase : s.phase = .connected := by
      by_contra hne
      exact absurd ((h.early hne).2.2.2.2.2.2.2.1.symm.trans henabled) Bool.false_ne_true
    obtain ⟨h1, h2, h3, h4⟩ := h.late hphase
    refine ⟨fun hne => absurd hphase hne, fun _ => ⟨h1, h2, h3, ?_⟩, h.wait, h.open_, h.kept, h.ended⟩
    rw [henabled] at h4
    exact h4
  | closeDone => exact ⟨h.early, h.late, h.wait, h.open_, h.kept, h.ended⟩
  | setTimeout =>
    rw [call]
    split
    · exact h
    · exact ⟨h.early, h.late, h.wait, h.open_, h.kept, h.ended⟩
  | setRef ref => exact ⟨h.early, h.late, h.wait, h.open_, h.kept, h.ended⟩

/-! ### The two sockets -/

/-- Where the copy is not asked for, both sockets take the same step. -/
lemma step_eq {i : Input} (hdirect : s.Direct i) : s.step false i = s.step true i := by
  rw [Socket.step, Socket.step]
  split
  swap
  · rfl
  rename_i henabled
  cases i with
  | readDone result =>
    rw [call, call, Socket.answer, Socket.answer]
    cases hreading : s.reading with
    | none => rfl
    | some r =>
      have hdeferred : r.2 = false := hdirect henabled r hreading
      simp [hdeferred]
  | _ => rfl

/-- An answer that the copy gets can be told from the one that the other code gets. -/
lemma Inv.told (h : s.Inv) {result : Result} {size : Nat} (hreading : s.reading = some (size, true)) :
    (s.answer true result).seen ≠ (s.answer false result).seen := by
  have heof : s.readableEOF = false := h.open_ (by rw [hreading]; rfl)
  rw [Socket.answer, Socket.answer, hreading]
  intro heq
  cases result with
  | error =>
    -- the copy pushes the buffer, the other code destroys the socket
    have hpushed := congrArg Prod.fst heq
    simp [Socket.seen, deferredDone, Socket.readDone, Socket.push, Socket.destroy, updateRef, heof] at hpushed
    split at hpushed <;> simp at hpushed
  | data bs =>
    cases bs with
    | nil =>
      have hpushed := congrArg Prod.fst heq
      simp [Socket.seen, deferredDone, Socket.readDone, Socket.push, Socket.destroy, updateRef, refresh, heof] at hpushed
      split at hpushed
      · split at hpushed <;> simp at hpushed
      · simp at hpushed
    | cons b bs =>
      -- the copy does not count the bytes
      have hread := congrArg (fun x => x.2.1) heq
      simp [Socket.seen, deferredDone, Socket.readDone, Socket.push, updateRef, refresh, heof] at hread

end Socket

/-- Both sockets beside each other. -/
def both : Machine (Socket × Socket) Input := ⟨fun p i => (p.1.step true i, p.2.step false i)⟩

lemma run_both (p : Socket × Socket) (is : List Input) :
    both.run p is = ((machine true).run p.1 is, (machine false).run p.2 is) := by
  induction is generalizing p with
  | nil => rfl
  | cons i is ih => exact ih _

/-- The deferred actions behave like those behind the connection, and an `end()` in front of it shuts it
down, in every state of a run exactly if no read that waited for the connection gets its answer. -/
theorem deferred_iff_direct (is : List Input) :
    (∀ js, js <+: is → ((machine true).run start js).seen = ((machine false).run start js).seen ∧
      ((machine true).run start js).EndSound) ↔ (machine true).Guarded Socket.Direct start is := by
  have hpair : (∀ js, js <+: is → (fun p : Socket × Socket => p.1.seen = p.2.seen ∧ p.1.EndSound)
      (both.run (start, start) js)) ↔ both.Guarded (fun p i => p.1.Direct i) (start, start) is := by
    refine @Machine.forall_prefix_iff_guarded _ _ both (fun p i => p.1.Direct i)
      (fun p => p.1 = p.2 ∧ p.1.Inv) (fun p => p.1.seen = p.2.seen ∧ p.1.EndSound) (fun _ => True)
      (fun p hp => ⟨by rw [hp.1], hp.2.endSound⟩) ?_ ?_ (start, start) ⟨rfl, Socket.inv_start⟩ is
      (fun _ _ => trivial)
    · rintro ⟨s, t⟩ i ⟨heq, hinv⟩ - hdirect
      cases heq
      exact ⟨(Socket.step_eq hdirect).symm, hinv.step hdirect⟩
    · rintro ⟨s, t⟩ i ⟨heq, hinv⟩ - hdirect ⟨hseen, -⟩
      cases heq
      cases i with
      | readDone result =>
        simp only [Socket.Direct, not_forall] at hdirect
        obtain ⟨henabled, ⟨size, deferred⟩, hreading, hdeferred⟩ := hdirect
        rw [Bool.not_eq_false] at hdeferred
        cases hdeferred
        apply @Socket.Inv.told _ hinv result _ hreading
        simpa only [both, Socket.step, if_pos henabled, Socket.call] using hseen
      | _ => exact hdirect trivial
  have hguard : ∀ (s t : Socket) (ks : List Input),
      both.Guarded (fun p i => p.1.Direct i) (s, t) ks ↔ (machine true).Guarded Socket.Direct s ks := by
    intro s t ks
    induction ks generalizing s t with
    | nil => exact Iff.rfl
    | cons i ks ih =>
      rw [Machine.guarded_cons, Machine.guarded_cons]
      exact and_congr Iff.rfl (ih _ _)
  rw [← hguard start start is, ← hpair]
  simp only [run_both]

/-- A read waits for the connection, and the byte it gets is not counted. -/
theorem waiting_read_told :
    ((machine true).run start [.connect, .read 8, .connected, .readDone (.data [1])]).seen ≠
      ((machine false).run start [.connect, .read 8, .connected, .readDone (.data [1])]).seen := by
  intro h
  exact absurd (congrArg (fun x => x.2.1) h) (by decide)

end LowJs.DeferredReads
