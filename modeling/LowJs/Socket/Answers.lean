import LowJs.Socket.WriteOutcome

/-!
# Every call is answered once

The calls of `Read`, `Write` and `Shutdown` are either answered or wait, never both. An answer is right
when it says what the attempts for the call have come to. A request that waits keeps its wake-up also
when the peer has closed the connection.
-/

namespace LowJs.Sockets

namespace LowSocket

/-! ### The property -/

/-- How often the callback of a call has been called. -/
def answered (s : LowSocket) (c : Nat) : Nat := (s.answers.map Prod.fst).count c

/-- Whether a call waits. -/
def waits (s : LowSocket) (c : Nat) : Nat :=
  (if s.mReadData = true ∧ s.mReadCallID = c then 1 else 0) +
    if s.mWriteData = true ∧ s.mWriteCallID = c then 1 else 0

/-- Every call so far is answered once or waits, and nothing else is. -/
def Accounted (s : LowSocket) : Prop :=
  ∀ c, (1 ≤ c → c ≤ s.calls → s.answered c + s.waits c = 1) ∧
    (c = 0 ∨ s.calls < c → s.answered c + s.waits c = 0)

/-- Nothing is to be told of the attempts for a call. -/
def Untold (attempts : List (Nat × Attempt)) (c : Nat) : Prop :=
  ∀ x, (c, x) ∈ attempts → x.verdict = none

/-- The answer is what there is to tell of an attempt for the call. Where none was made, because the
socket was busy, not connected or closed by the peer, it is an error or the end of the stream. -/
structure RightAnswer (attempts : List (Nat × Attempt)) (c : Nat) (a : Answer) : Prop where
  told : ∀ x, (c, x) ∈ attempts → x.verdict = none ∨ x.verdict = some a
  reason : (∃ x, (c, x) ∈ attempts ∧ x.verdict = some a) ∨
    ((∀ x, (c, x) ∉ attempts) ∧ (a = .ok 0 ∨ ∃ e, a = .error e))

/-- A socket that stays alive has a wake-up for every request that waits. -/
def KeepsWakeups (s : LowSocket) : Prop :=
  s.mDestroyed = false → s.gone = false →
    (s.mReadData = true →
      s.loopQueued = true ∨ s.inCallback.isSome = true ∨ (s.mClosed = false ∧ s.ReadPolled)) ∧
    (s.mWriteData = true →
      s.loopQueued = true ∨ s.inCallback.isSome = true ∨ (s.mClosed = false ∧ s.WritePolled))

/-- Every call is answered once or waits with a wake-up, the answers are right, and nothing else is
called. -/
structure Answered (s : LowSocket) : Prop where
  accounted : s.Accounted
  right : ∀ c a, (c, a) ∈ s.answers → RightAnswer s.attempts c a
  keeps : s.KeepsWakeups
  strays : s.strays = 0

/-! ### The condition -/

/-- The first call for a read meets the end of the stream, or nothing is to be read. -/
def MeetsEnd (tls : Bool) (len : Nat) : List SysResult → Prop
  | [] => len = 0
  | .size n :: _ => len = 0 ∨ n = 0
  | .error code :: _ => len = 0 ∨ readError tls code = none

instance (tls : Bool) (len : Nat) : ∀ results, Decidable (MeetsEnd tls len results)
  | [] => inferInstanceAs (Decidable (_ = _))
  | .size _ :: _ | .error _ :: _ => inferInstanceAs (Decidable (_ ∨ _))

/-- No write waits that has not been moved. -/
def NoWriteLeft (s : LowSocket) : Prop := s.mWriteData = true → s.mWritePos ≠ 0

/-- A write: it has bytes, and the first call writes some or fails. On the descriptors 1 and 2 no call
fails. -/
def WriteCounts (s : LowSocket) (len : Nat) (results : List SysResult) : Prop :=
  if s.stdout = true then stdoutWrite len results = none
  else s.mWriteData = false → len ≠ 0 ∧ (s.mClosed = false → s.tryNow = true →
    results.head? ≠ some (.size 0))

/-- Poll events: the write that is tried is decided rightly, and the end of the stream is not met while a
write waits. -/
def EventsAnswer (s : LowSocket) (e : Events) : Prop :=
  (s.TriesWrite e → s.Decides s.mWriteLen e) ∧
    (s.TriesRead e → MeetsEnd s.tls s.mReadLen e.reads → s.mWriteData = true →
      s.mWritePos ≠ 0 ∨
        (s.TriesWrite e ∧ ∀ errno ∈ firstError (writeError s.tls) e.writes, errno.hard = true))

/-- The condition. -/
def Answers (s : LowSocket) : Input → Prop
  | .read len results => s.mReadData = false → s.mClosed = false → s.tryNow = true →
      MeetsEnd s.tls len results → s.NoWriteLeft
  | .write len results => s.WriteCounts len results
  | .shutdown _ => s.mConnected = true
  | .events e => (s.Open → s.EventsWake e) ∧ s.EventsAnswer e
  | .throw => s.mDestroyed = false → s.inCallback.isSome = true → s.ThrowWakes ∧
      (s.mClosed = true → s.loopQueued = true ∨ (s.mReadData = false ∧ s.mWriteData = false))
  | _ => True

/-! ### Every call is answered or waits -/

section Accounting

variable {s : LowSocket}

@[simp] lemma answered_answer (call c : Nat) (a : Answer) :
    (s.answer call a).answered c = s.answered c + if call = c then 1 else 0 := by
  simp [answered, answer, List.count_singleton, beq_iff_eq]

lemma Accounted.read_call (h : s.Accounted) (len : Nat) (results : List SysResult) :
    (s.Read len results).Accounted := by
  intro c
  have hc := h c
  simp only [Read]
  split_ifs <;>
    simp only [readDone, readLater, setPollEvents, answered, answer, waits, tookRead, attempted,
      List.map_append, List.count_append, List.map_cons, List.map_nil, List.count_singleton, beq_iff_eq]
      at hc ⊢ <;> grind -ring -linarith

lemma Accounted.write_call (h : s.Accounted) (len : Nat) (results : List SysResult) :
    (s.Write len results).Accounted := by
  intro c
  have hc := h c
  simp only [Write]
  split_ifs <;> try split
  all_goals
    simp only [writeDone, writeLater, setPollEvents, answered, answer, waits, tookWrite, attempted,
      List.map_append, List.count_append, List.map_cons, List.map_nil, List.count_singleton, beq_iff_eq]
      at hc ⊢
    grind -ring -linarith

lemma Accounted.shutdown_call (h : s.Accounted) (failed : Option Int) :
    (s.Shutdown failed).Accounted := by
  intro c
  have hc := h c
  simp only [Shutdown]
  split_ifs <;> try split
  all_goals
    simp only [answered, answer, waits, attempted, List.map_append, List.count_append, List.map_cons,
      List.map_nil, List.count_singleton, beq_iff_eq] at hc ⊢
    grind -ring -linarith

/-- Nothing that the account is about has changed. -/
structure SameCalls (s t : LowSocket) : Prop where
  answers : t.answers = s.answers
  calls : t.calls = s.calls
  mReadData : t.mReadData = s.mReadData
  mReadCallID : t.mReadCallID = s.mReadCallID
  mWriteData : t.mWriteData = s.mWriteData
  mWriteCallID : t.mWriteCallID = s.mWriteCallID
  strays : t.strays = s.strays

lemma SameCalls.trans {t u : LowSocket} (h₁ : s.SameCalls t) (h₂ : t.SameCalls u) : s.SameCalls u :=
  ⟨h₂.1.trans h₁.1, h₂.2.trans h₁.2, h₂.3.trans h₁.3, h₂.4.trans h₁.4, h₂.5.trans h₁.5,
    h₂.6.trans h₁.6, h₂.7.trans h₁.7⟩

lemma Accounted.congr {t : LowSocket} (h : s.Accounted) (hst : s.SameCalls t) : t.Accounted := by
  intro c
  have := h c
  simpa only [answered, waits, hst.1, hst.2, hst.3, hst.4, hst.5, hst.6] using this

lemma sameCalls_eventsRead (s : LowSocket) (e : Events) : s.SameCalls (s.eventsRead e).1 := by
  rcases s.eventsRead_cases e with ⟨-, hre⟩ | ⟨_, -, -, -, -, hre⟩ | ⟨r, -, -, -, hre⟩ <;> rw [hre] <;>
    exact ⟨rfl, rfl, rfl, rfl, rfl, rfl, rfl⟩

lemma sameCalls_eventsWrite (s : LowSocket) (change : Bool) (e : Events) :
    s.SameCalls (s.eventsWrite change e).1 := by
  rcases s.eventsWrite_cases change e with ⟨-, hwe⟩ | ⟨_, -, -, -, -, hwe⟩ | ⟨w, -, -, -, hwe⟩ <;>
    rw [hwe] <;> exact ⟨rfl, rfl, rfl, rfl, rfl, rfl, rfl⟩

lemma sameCalls_eventsTransfer (s : LowSocket) (e : Events) : s.SameCalls (s.eventsTransfer e) := by
  have h := (s.sameCalls_eventsRead e).trans
    ((s.eventsRead e).1.sameCalls_eventsWrite (s.eventsRead e).2 e)
  simp only [eventsTransfer]
  generalize ((s.eventsRead e).1.eventsWrite (s.eventsRead e).2 e).1 = t at h ⊢
  split_ifs
  · exact h.trans ⟨rfl, rfl, rfl, rfl, rfl, rfl, rfl⟩
  · exact h.trans ⟨rfl, rfl, rfl, rfl, rfl, rfl, rfl⟩

lemma sameCalls_eventsConnect (s : LowSocket) (e : Events) : s.SameCalls (s.eventsConnect e) := by
  rw [eventsConnect]
  split_ifs
  · exact s.sameCalls_eventsTransfer e
  · exact ⟨rfl, rfl, rfl, rfl, rfl, rfl, rfl⟩
  · refine SameCalls.trans ?_ (sameCalls_eventsTransfer _ e)
    exact ⟨rfl, rfl, rfl, rfl, rfl, rfl, rfl⟩

/-- `OnEvents` calls no callback. -/
lemma sameCalls_OnEvents (s : LowSocket) (e : Events) : s.SameCalls (s.OnEvents e) := by
  rw [OnEvents]
  split_ifs
  · exact ⟨rfl, rfl, rfl, rfl, rfl, rfl, rfl⟩
  · cases e.handshake with
    | finished =>
      refine SameCalls.trans ?_ (sameCalls_eventsConnect _ e)
      exact ⟨rfl, rfl, rfl, rfl, rfl, rfl, rfl⟩
    | wantRead | wantWrite | failed => exact ⟨rfl, rfl, rfl, rfl, rfl, rfl, rfl⟩
  · exact s.sameCalls_eventsConnect e

lemma Accounted.loopEnd (h : s.Accounted) : s.loopEnd.Accounted :=
  h.congr ⟨rfl, rfl, rfl, rfl, rfl, rfl, rfl⟩

lemma Accounted.loopWrite (h : s.Accounted) : s.loopWrite.Accounted := by
  rw [LowSocket.loopWrite]
  by_cases hw : (s.mWriteData && s.mWritePos != 0) = true
  · rw [if_pos hw]
    intro c
    have := h c
    simp only [answered, answer, waits, List.map_append, List.count_append, List.map_cons,
      List.map_nil, List.count_singleton, beq_iff_eq] at this ⊢
    grind -ring -linarith
  · rw [if_neg hw]
    exact h.loopEnd

lemma Accounted.loopRead (h : s.Accounted) : s.loopRead.Accounted := by
  rw [LowSocket.loopRead]
  by_cases hc : (!s.mConnected) = true
  · rw [if_pos hc]
    exact h.congr ⟨rfl, rfl, rfl, rfl, rfl, rfl, rfl⟩
  rw [if_neg hc]
  by_cases hr : (s.mReadData && (s.mClosed || s.mReadPos != 0)) = true
  · rw [if_pos hr]
    intro c
    have := h c
    simp only [answered, answer, waits, List.map_append, List.count_append, List.map_cons,
      List.map_nil, List.count_singleton, beq_iff_eq] at this ⊢
    grind -ring -linarith
  · rw [if_neg hr]
    exact h.loopWrite

lemma Accounted.step (h : s.Accounted) (i : Input) : (s.step i).Accounted := by
  rw [LowSocket.step]
  split_ifs
  · exact h
  cases i with
  | read len results => exact h.read_call len results
  | write len results => exact h.write_call len results
  | shutdown failed => exact h.shutdown_call failed
  | close callback =>
    simp only [call, Close]
    split_ifs
    · exact h
    · exact h.congr ⟨rfl, rfl, rfl, rfl, rfl, rfl, rfl⟩
  | events e => exact h.congr (s.sameCalls_OnEvents e)
  | loop addrError =>
    simp only [call, OnLoop]
    split_ifs
    · exact h.congr ⟨rfl, rfl, rfl, rfl, rfl, rfl, rfl⟩
    · exact h.congr ⟨rfl, rfl, rfl, rfl, rfl, rfl, rfl⟩
    · exact h.congr ⟨rfl, rfl, rfl, rfl, rfl, rfl, rfl⟩
    · apply Accounted.loopRead
      exact h.congr ⟨rfl, rfl, rfl, rfl, rfl, rfl, rfl⟩
    · exact h.congr ⟨rfl, rfl, rfl, rfl, rfl, rfl, rfl⟩
    · apply Accounted.loopRead
      exact h.congr ⟨rfl, rfl, rfl, rfl, rfl, rfl, rfl⟩
    · exact h
  | resume =>
    simp only [call, resume]
    split
    · exact h
    · exact h.loopRead
    · exact h.loopWrite
    · exact h.loopEnd
  | throw => exact h.congr ⟨rfl, rfl, rfl, rfl, rfl, rfl, rfl⟩

end Accounting

/-! ### The answers are right -/

section Right

variable {attempts : List (Nat × Attempt)} {c k : Nat} {a : Answer} {x : Attempt}

lemma Untold.append_other {new : List (Nat × Attempt)} (h : Untold attempts c)
    (hnew : ∀ y ∈ new, y.1 ≠ c) : Untold (attempts ++ new) c := by
  intro y hy
  rcases List.mem_append.mp hy with hy | hy
  · exact h y hy
  · exact absurd rfl (hnew _ hy)

/-- An attempt that is to be tried again. -/
lemma Untold.append_again (h : Untold attempts c) (hx : x.verdict = none) :
    Untold (attempts ++ [(c, x)]) c := by
  intro y hy
  rcases List.mem_append.mp hy with hy | hy
  · exact h y hy
  · cases List.mem_singleton.mp hy
    exact hx

/-- An attempt that settles the call. -/
lemma Untold.settle (h : Untold attempts c) (hx : x.verdict = some a) :
    RightAnswer (attempts ++ [(c, x)]) c a := by
  refine ⟨fun y hy => ?_, .inl ⟨x, by simp, hx⟩⟩
  rcases List.mem_append.mp hy with hy | hy
  · exact .inl (h y hy)
  · cases List.mem_singleton.mp hy
    exact .inr hx

lemma RightAnswer.append_other {new : List (Nat × Attempt)} (h : RightAnswer attempts c a)
    (hnew : ∀ y ∈ new, y.1 ≠ c) : RightAnswer (attempts ++ new) c a := by
  have hmem : ∀ y, (c, y) ∈ attempts ++ new ↔ (c, y) ∈ attempts := fun y => by
    rw [List.mem_append]
    exact or_iff_left fun hy => hnew _ hy rfl
  refine ⟨fun y hy => h.told y ((hmem y).mp hy), ?_⟩
  rcases h.reason with ⟨y, hy, hv⟩ | ⟨hno, ha⟩
  · exact .inl ⟨y, (hmem y).mpr hy, hv⟩
  · exact .inr ⟨fun y hy => hno y ((hmem y).mp hy), ha⟩

lemma rightAnswer_of_none (h : ∀ x, (c, x) ∉ attempts) (ha : a = .ok 0 ∨ ∃ e, a = .error e) :
    RightAnswer attempts c a :=
  ⟨fun x hx => absurd hx (h x), .inr ⟨h, ha⟩⟩

variable {s : LowSocket}

/-- The answer that the position and the error of a request stand for. -/
def positionAnswer (pos : Int) (e : Errno) : Answer := if pos ≥ 0 then .ok pos else .error e

lemma verdict_moved {r : Int × Errno} (h : 0 ≤ r.1 ∨ r.2.hard = true) :
    (Attempt.moved r.1 r.2).verdict = some (positionAnswer r.1 r.2) := by
  by_cases hpos : 0 ≤ r.1
  · simp [Attempt.verdict, positionAnswer, hpos]
  · simp [Attempt.verdict, positionAnswer, hpos, h.resolve_left hpos]

/-- What is told and what waits agrees with the attempts. -/
structure Righted (s : LowSocket) : Prop where
  answers : ∀ c a, (c, a) ∈ s.answers → RightAnswer s.attempts c a
  read : s.mReadData = true →
    (s.mReadPos = 0 ∧ s.mClosed = false ∧ Untold s.attempts s.mReadCallID) ∨
      ((s.mClosed = true ∨ s.mReadPos ≠ 0) ∧
        RightAnswer s.attempts s.mReadCallID (positionAnswer s.mReadPos s.mReadErrno))
  write : s.mWriteData = true →
    (s.mWritePos = 0 ∧ Untold s.attempts s.mWriteCallID) ∨
      (s.mWritePos ≠ 0 ∧
        RightAnswer s.attempts s.mWriteCallID (positionAnswer s.mWritePos s.mWriteErrno))
  fresh : ∀ x ∈ s.attempts, x.1 ≤ s.calls
  stdout : s.stdout = true → s.mWriteData = false

lemma Accounted.answers_le (h : s.Accounted) (hmem : (c, a) ∈ s.answers) : 1 ≤ c ∧ c ≤ s.calls := by
  by_contra hc
  have hzero := (h c).2 (by omega)
  have hpos : 0 < s.answered c :=
    List.count_pos_iff.mpr (List.mem_map.mpr ⟨_, hmem, rfl⟩)
  omega

lemma Accounted.waits_le (h : s.Accounted) (hw : 0 < s.waits c) : 1 ≤ c ∧ c ≤ s.calls := by
  by_contra hc
  have hzero := (h c).2 (by omega)
  omega

lemma Accounted.not_answered (h : s.Accounted) (hw : 0 < s.waits c) : (c, a) ∉ s.answers := by
  intro hmem
  obtain ⟨h₁, h₂⟩ := h.waits_le hw
  have hone := (h c).1 h₁ h₂
  have hpos : 0 < s.answered c := List.count_pos_iff.mpr (List.mem_map.mpr ⟨_, hmem, rfl⟩)
  omega

lemma waits_read (hr : s.mReadData = true) : 0 < s.waits s.mReadCallID := by simp [waits, hr]

lemma waits_write (hw : s.mWriteData = true) : 0 < s.waits s.mWriteCallID := by simp [waits, hw]

lemma Accounted.ids_ne (h : s.Accounted) (hr : s.mReadData = true) (hw : s.mWriteData = true) :
    s.mReadCallID ≠ s.mWriteCallID := by
  intro heq
  obtain ⟨h₁, h₂⟩ := h.waits_le (waits_read hr)
  have hone := (h s.mReadCallID).1 h₁ h₂
  simp [waits, hr, hw, heq] at hone

/-- The state after a new call, with its attempts `xs` and the answers `told` that it has got. A side
that waits has waited before, or it waits for the new call. -/
lemma Righted.new_call (h : s.Righted) (hacc : s.Accounted) {t : LowSocket} (xs : List Attempt)
    (told : List Answer) (hcalls : t.calls = s.calls + 1)
    (hatt : t.attempts = s.attempts ++ xs.map (s.calls + 1, ·))
    (hans : t.answers = s.answers ++ told.map (s.calls + 1, ·))
    (hright : ∀ a ∈ told, RightAnswer t.attempts (s.calls + 1) a)
    (hread : t.mReadData = true →
      (s.mReadData = true ∧ t.mReadPos = s.mReadPos ∧ t.mReadErrno = s.mReadErrno ∧
        t.mReadCallID = s.mReadCallID ∧ t.mClosed = s.mClosed) ∨
      (t.mReadPos = 0 ∧ t.mClosed = false ∧ t.mReadCallID = s.calls + 1 ∧
        Untold t.attempts (s.calls + 1)))
    (hwrite : t.mWriteData = true →
      (s.mWriteData = true ∧ t.mWritePos = s.mWritePos ∧ t.mWriteErrno = s.mWriteErrno ∧
        t.mWriteCallID = s.mWriteCallID) ∨
      (t.mWritePos = 0 ∧ t.mWriteCallID = s.calls + 1 ∧ Untold t.attempts (s.calls + 1)))
    (hout : t.stdout = true → t.mWriteData = false) : t.Righted := by
  have hother : ∀ {c}, c ≤ s.calls → ∀ y ∈ xs.map (s.calls + 1, ·), y.1 ≠ c := by
    intro c hc y hy
    obtain ⟨x, -, rfl⟩ := List.mem_map.mp hy
    exact fun heq => absurd hc (by simp [← heq])
  constructor
  · intro c a hmem
    rw [hans] at hmem
    rcases List.mem_append.mp hmem with hmem | hmem
    · rw [hatt]
      exact (h.answers c a hmem).append_other (hother (hacc.answers_le hmem).2)
    · obtain ⟨a', ha', heq⟩ := List.mem_map.mp hmem
      cases heq
      exact hright _ ha'
  · intro hr
    rcases hread hr with ⟨hr', hpos, herr, hid, hcl⟩ | ⟨hpos, hcl, hid, hun⟩
    · rw [hpos, herr, hid, hcl, hatt]
      have hne := hother (hacc.waits_le (waits_read hr')).2
      exact (h.read hr').imp (fun hw => ⟨hw.1, hw.2.1, hw.2.2.append_other hne⟩)
        fun hw => ⟨hw.1, hw.2.append_other hne⟩
    · rw [hid]
      exact .inl ⟨hpos, hcl, hun⟩
  · intro hw
    rcases hwrite hw with ⟨hw', hpos, herr, hid⟩ | ⟨hpos, hid, hun⟩
    · rw [hpos, herr, hid, hatt]
      have hne := hother (hacc.waits_le (waits_write hw')).2
      exact (h.write hw').imp (fun hw => ⟨hw.1, hw.2.append_other hne⟩)
        fun hw => ⟨hw.1, hw.2.append_other hne⟩
    · rw [hid]
      exact .inl ⟨hpos, hun⟩
  · intro y hy
    rw [hatt] at hy
    rcases List.mem_append.mp hy with hy | hy
    · exact (h.fresh y hy).trans (by omega)
    · obtain ⟨x, -, rfl⟩ := List.mem_map.mp hy
      exact hcalls.ge
  · exact hout

lemma Righted.untold_new (h : s.Righted) : Untold s.attempts (s.calls + 1) := fun x hx =>
  absurd (h.fresh _ hx) (by simp)

lemma Righted.none_new (h : s.Righted) (x : Attempt) : (s.calls + 1, x) ∉ s.attempts := fun hx =>
  absurd (h.fresh _ hx) (by simp)

lemma Righted.read_call (h : s.Righted) (hacc : s.Accounted) (len : Nat)
    (results : List SysResult) : (s.Read len results).Righted := by
  simp only [Read]
  by_cases hdata : s.mReadData = true
  · rw [if_pos hdata]
    refine h.new_call hacc [] [.error ⟨EAGAIN, false⟩] rfl (by simp [answer]) rfl ?_
      (fun _ => .inl ⟨hdata, rfl, rfl, rfl, rfl⟩) (fun hw => .inl ⟨hw, rfl, rfl, rfl⟩) h.stdout
    intro a ha
    cases List.mem_singleton.mp ha
    exact rightAnswer_of_none h.none_new (.inr ⟨_, rfl⟩)
  rw [if_neg hdata]
  by_cases hcl : s.mClosed = true
  · rw [if_pos hcl]
    refine h.new_call hacc [] [.ok 0] rfl (by simp [readDone, answer]) rfl ?_
      (fun hr => by cases hr) (fun hw => .inl ⟨hw, rfl, rfl, rfl⟩) h.stdout
    intro a ha
    cases List.mem_singleton.mp ha
    exact rightAnswer_of_none h.none_new (.inl rfl)
  rw [if_neg hcl]
  have hcl' : s.mClosed = false := by simpa using hcl
  split_ifs with htry hdone
  · refine h.new_call hacc [_] [_] rfl rfl rfl ?_ (fun hr => by cases hr)
      (fun hw => .inl ⟨hw, rfl, rfl, rfl⟩) h.stdout
    intro a ha
    cases List.mem_singleton.mp ha
    simp only [Bool.or_eq_true, decide_eq_true_eq] at hdone
    exact h.untold_new.settle (verdict_moved hdone)
  · simp only [Bool.or_eq_true, decide_eq_true_eq, not_or] at hdone
    have hagain : (Attempt.moved (s.DoRead len results).1 (s.DoRead len results).2).verdict = none := by
      have hsoft : (s.DoRead len results).2.hard = false := Bool.eq_false_iff.mpr hdone.2
      have hneg : ¬0 ≤ (s.DoRead len results).1 := hdone.1
      simp [Attempt.verdict, hneg, hsoft]
    refine h.new_call hacc [_] [] rfl rfl (by simp [readLater, setPollEvents, tookRead, attempted])
      (by simp) (fun _ => .inr ⟨rfl, hcl', rfl, h.untold_new.append_again hagain⟩)
      (fun hw => .inl ⟨hw, rfl, rfl, rfl⟩) h.stdout
  · refine h.new_call hacc [] [] rfl (by simp [readLater, setPollEvents])
      (by simp [readLater, setPollEvents]) (by simp) (fun _ => .inr ⟨rfl, hcl', rfl, h.untold_new⟩)
      (fun hw => .inl ⟨hw, rfl, rfl, rfl⟩) h.stdout

lemma Righted.write_call (h : s.Righted) (hacc : s.Accounted) {len : Nat} {results : List SysResult}
    (hok : s.WriteCounts len results) : (s.Write len results).Righted := by
  simp only [Write]
  by_cases hout : s.stdout = true
  · rw [if_pos hout]
    rw [WriteCounts, if_pos hout] at hok
    simp only [hok]
    refine h.new_call hacc [_] [_] rfl rfl rfl ?_ (fun hr => .inl ⟨hr, rfl, rfl, rfl, rfl⟩)
      (fun hw => .inl ⟨hw, rfl, rfl, rfl⟩) h.stdout
    intro a ha
    cases List.mem_singleton.mp ha
    exact h.untold_new.settle (by simp [Attempt.verdict])
  rw [if_neg hout]
  rw [WriteCounts, if_neg hout] at hok
  by_cases hdata : s.mWriteData = true
  · rw [if_pos hdata]
    refine h.new_call hacc [] [.error ⟨EAGAIN, false⟩] rfl (by simp [answer]) rfl ?_
      (fun hr => .inl ⟨hr, rfl, rfl, rfl, rfl⟩) (fun _ => .inl ⟨hdata, rfl, rfl, rfl⟩) h.stdout
    intro a ha
    cases List.mem_singleton.mp ha
    exact rightAnswer_of_none h.none_new (.inr ⟨_, rfl⟩)
  rw [if_neg hdata]
  obtain ⟨hlen, hhead⟩ := hok (by simpa using hdata)
  by_cases hcl : s.mClosed = true
  · rw [if_pos hcl]
    refine h.new_call hacc [] [.error s.mWriteErrno] rfl (by simp [writeDone, answer]) rfl ?_
      (fun hr => .inl ⟨hr, rfl, rfl, rfl, rfl⟩) (fun hw => by cases hw) fun ho => absurd ho hout
    intro a ha
    cases List.mem_singleton.mp ha
    exact rightAnswer_of_none h.none_new (.inr ⟨_, rfl⟩)
  rw [if_neg hcl]
  have hnotout : ∀ {b : Bool}, s.stdout = true → b = false := fun ho => absurd ho hout
  split_ifs with htry hdone
  · refine h.new_call hacc [_] [_] rfl rfl rfl ?_ (fun hr => .inl ⟨hr, rfl, rfl, rfl, rfl⟩)
      (fun hw => by cases hw) hnotout
    intro a ha
    cases List.mem_singleton.mp ha
    simp only [Bool.or_eq_true, decide_eq_true_eq] at hdone
    have hpos : (s.DoWrite len results).1 ≠ 0 := by
      rcases s.DoWrite_cases len results with ⟨-, -, -, hw⟩ | ⟨hz, -⟩ | ⟨errno, -, -, hw⟩
      · exact hw.ne'
      · exact absurd hz (not_or.mpr ⟨hlen, fun hz => hhead (by simpa using hcl) htry hz.2⟩)
      · simp [hw]
    have hsame : positionAnswer (s.DoWrite len results).1 (s.DoWrite len results).2 =
        if (s.DoWrite len results).1 > 0 then .ok (s.DoWrite len results).1
        else .error (s.DoWrite len results).2 := by
      rw [positionAnswer]
      split_ifs <;> first | rfl | omega
    exact h.untold_new.settle ((verdict_moved hdone).trans (congrArg some hsame))
  · simp only [Bool.or_eq_true, decide_eq_true_eq, not_or] at hdone
    have hagain :
        (Attempt.moved (s.DoWrite len results).1 (s.DoWrite len results).2).verdict = none := by
      have hsoft : (s.DoWrite len results).2.hard = false := Bool.eq_false_iff.mpr hdone.2
      have hneg : ¬0 ≤ (s.DoWrite len results).1 := hdone.1
      simp [Attempt.verdict, hneg, hsoft]
    exact h.new_call hacc [_] [] rfl rfl
      (by simp [writeLater, setPollEvents, tookWrite, attempted]) (by simp)
      (fun hr => .inl ⟨hr, rfl, rfl, rfl, rfl⟩)
      (fun _ => .inr ⟨rfl, rfl, h.untold_new.append_again hagain⟩) hnotout
  · exact h.new_call hacc [] [] rfl (by simp [writeLater, setPollEvents])
      (by simp [writeLater, setPollEvents]) (by simp) (fun hr => .inl ⟨hr, rfl, rfl, rfl, rfl⟩)
      (fun _ => .inr ⟨rfl, rfl, h.untold_new⟩) hnotout

lemma Righted.shutdown_call (h : s.Righted) (hacc : s.Accounted) (hc : s.mConnected = true)
    (failed : Option Int) : (s.Shutdown failed).Righted := by
  simp only [Shutdown, hc, Bool.not_true, Bool.false_eq_true, if_false]
  cases failed <;>
  · refine h.new_call hacc [_] [_] rfl rfl rfl ?_ (fun hr => .inl ⟨hr, rfl, rfl, rfl, rfl⟩)
      (fun hw => .inl ⟨hw, rfl, rfl, rfl⟩) h.stdout
    intro a ha
    cases List.mem_singleton.mp ha
    exact h.untold_new.settle rfl

/-- What the answers are about has not changed. -/
lemma Righted.congr {t : LowSocket} (h : s.Righted) (hst : s.SameCalls t)
    (hrest : (t.attempts, t.mClosed, t.stdout, (t.mReadPos, t.mReadErrno), t.mWritePos, t.mWriteErrno) =
      (s.attempts, s.mClosed, s.stdout, (s.mReadPos, s.mReadErrno), s.mWritePos, s.mWriteErrno)) :
    t.Righted := by
  simp only [Prod.mk.injEq] at hrest
  obtain ⟨hatt, hcl, hout, hr, hw⟩ := hrest
  obtain ⟨h₁, h₂, h₃, h₄, h₅⟩ := h
  obtain ⟨e₁, e₂, e₃, e₄, e₅, e₆, -⟩ := hst
  constructor
  · simpa only [e₁, hatt] using h₁
  · simpa only [e₃, e₄, hr.1, hr.2, hcl, hatt] using h₂
  · simpa only [e₅, e₆, hw.1, hw.2, hatt] using h₃
  · simpa only [e₂, hatt] using h₄
  · simpa only [e₅, hout] using h₅

/-- An attempt for a call that waits does not concern the answered ones. -/
lemma Righted.answers_append (h : s.Righted) (hacc : s.Accounted) (hk : 0 < s.waits k) (x : Attempt) :
    ∀ c a, (c, a) ∈ s.answers → RightAnswer (s.attempts ++ [(k, x)]) c a := by
  intro c a hmem
  refine (h.answers c a hmem).append_other fun y hy heq => ?_
  rw [List.mem_singleton.mp hy] at heq
  exact hacc.not_answered hk (heq ▸ hmem)

lemma Righted.fresh_append (h : s.Righted) (hacc : s.Accounted) (hk : 0 < s.waits k) (x : Attempt) :
    ∀ y ∈ s.attempts ++ [(k, x)], y.1 ≤ s.calls := by
  intro y hy
  rcases List.mem_append.mp hy with hy | hy
  · exact h.fresh y hy
  · rw [List.mem_singleton.mp hy]
    exact (hacc.waits_le hk).2

lemma verdict_again {e : Errno} (h : e.hard = false) : (Attempt.moved (-1) e).verdict = none := by
  simp [Attempt.verdict, h]

lemma Righted.eventsRead (h : s.Righted) (hacc : s.Accounted) (hcl : s.mClosed = false)
    (e : Events) : (s.eventsRead e).1.Righted := by
  rcases s.eventsRead_cases e with ⟨-, hre⟩ | ⟨errno, hr, -, -, hsoft, hre⟩ | ⟨r, hr, -, hmoved, hre⟩
  · rw [hre]
    exact h
  all_goals
    rw [hre]
    obtain ⟨-, hdata, hpos⟩ := hr
    have hk := waits_read hdata
    have hun : Untold s.attempts s.mReadCallID := by
      rcases h.read hdata with hun | ⟨hend, -⟩
      · exact hun.2.2
      · simp [hcl, hpos] at hend
    have hother : ∀ x : Attempt, s.mWriteData = true →
        ∀ y ∈ [(s.mReadCallID, x)], y.1 ≠ s.mWriteCallID := fun x hw y hy => by
      rw [List.mem_singleton.mp hy]
      exact hacc.ids_ne hdata hw
  · exact ⟨h.answers_append hacc hk _, fun _ => .inl ⟨hpos, hcl, hun.append_again (verdict_again hsoft)⟩,
      fun hw => (h.write hw).imp (fun hw' => ⟨hw'.1, hw'.2.append_other (hother _ hw)⟩)
        fun hw' => ⟨hw'.1, hw'.2.append_other (hother _ hw)⟩,
      h.fresh_append hacc hk _, h.stdout⟩
  · refine ⟨h.answers_append hacc hk _, fun _ => .inr ⟨?_, ?_⟩,
      fun hw => (h.write hw).imp (fun hw' => ⟨hw'.1, hw'.2.append_other (hother _ hw)⟩)
        fun hw' => ⟨hw'.1, hw'.2.append_other (hother _ hw)⟩,
      h.fresh_append hacc hk _, h.stdout⟩
    · by_cases hz : r.1 = 0
      · exact .inl (by simp [hz])
      · exact .inr hz
    · exact hun.settle (verdict_moved (hmoved.imp_right And.right))

/-- The write part decides rightly where the first call writes something, or fails as the read side has
failed last. -/
lemma Righted.eventsWrite (h : s.Righted) (hacc : s.Accounted) (change : Bool) {e : Events}
    (hok : s.TriesWrite e → s.mWriteLen ≠ 0 ∧ match firstError (writeError s.tls) e.writes with
      | some errno => errno.hard = s.mReadErrno.hard
      | none => e.writes.head? ≠ some (.size 0)) : (s.eventsWrite change e).1.Righted := by
  rcases s.eventsWrite_cases change e with ⟨-, hwe⟩ | ⟨errno, hw, -, hfirst, hsoft, hwe⟩ |
    ⟨r, hw, hr, hmoved, hwe⟩
  · rw [hwe]
    exact h
  all_goals
    rw [hwe]
    obtain ⟨hlen, hdec⟩ := hok hw
    obtain ⟨-, hdata, hpos⟩ := hw
    have hk := waits_write hdata
    have hun : Untold s.attempts s.mWriteCallID := by
      rcases h.write hdata with hun | ⟨hne, -⟩
      · exact hun.2
      · exact absurd hpos hne
    have hother : ∀ x : Attempt, s.mReadData = true →
        ∀ y ∈ [(s.mWriteCallID, x)], y.1 ≠ s.mReadCallID := fun x hr y hy => by
      rw [List.mem_singleton.mp hy]
      exact (hacc.ids_ne hr hdata).symm
    have hread : ∀ x, s.mReadData = true →
        (s.mReadPos = 0 ∧ s.mClosed = false ∧
            Untold (s.attempts ++ [(s.mWriteCallID, x)]) s.mReadCallID) ∨
          ((s.mClosed = true ∨ s.mReadPos ≠ 0) ∧ RightAnswer (s.attempts ++ [(s.mWriteCallID, x)])
            s.mReadCallID (positionAnswer s.mReadPos s.mReadErrno)) := fun x hr =>
      (h.read hr).imp (fun hr' => ⟨hr'.1, hr'.2.1, hr'.2.2.append_other (hother _ hr)⟩)
        fun hr' => ⟨hr'.1, hr'.2.append_other (hother _ hr)⟩
  · simp only [hfirst, hsoft] at hdec
    exact ⟨h.answers_append hacc hk _, hread _,
      fun _ => .inl ⟨hpos, hun.append_again (verdict_again hdec)⟩, h.fresh_append hacc hk _, h.stdout⟩
  · have hsettled : r.1 ≠ 0 ∧ (0 ≤ r.1 ∨ r.2.hard = true) := by
      rcases s.DoWrite_cases s.mWriteLen e.writes with ⟨-, -, -, hpos⟩ | ⟨hz, -⟩ | ⟨errno, -, hfirst, hd⟩
      · rw [hr] at hpos
        exact ⟨hpos.ne', .inl hpos.le⟩
      · rcases hz with hz | ⟨hfirst, hhead⟩
        · exact absurd hz hlen
        · simp only [hfirst] at hdec
          exact absurd hhead hdec
      · rw [hr] at hd
        simp only [hfirst] at hdec
        rw [hd] at hmoved ⊢
        have : s.mReadErrno.hard = true := by simpa using hmoved
        exact ⟨by simp, .inr (hdec.trans this)⟩
    exact ⟨h.answers_append hacc hk _, hread _,
      fun _ => .inr ⟨hsettled.1, hun.settle (verdict_moved hsettled.2)⟩, h.fresh_append hacc hk _,
      h.stdout⟩

lemma Righted.events_transfer (h : s.Righted) (hacc : s.Accounted) (hcl : s.mClosed = false)
    {e : Events} (hok : s.TriesWrite e → s.Decides s.mWriteLen e) : (s.eventsTransfer e).Righted := by
  have hread := h.eventsRead hacc hcl e
  have hsame : (s.eventsRead e).1.mReadErrno = s.readErrnoThen e ∧
      (s.eventsRead e).1.mWritePos = s.mWritePos ∧ (s.eventsRead e).1.mWriteLen = s.mWriteLen ∧
      (s.eventsRead e).1.tls = s.tls := by
    rcases s.eventsRead_cases e with ⟨hr, hre⟩ | ⟨errno, hr, hlen, hfirst, -, hre⟩ | ⟨r, hr, hd, -, hre⟩
    · rw [hre, readErrnoThen, if_neg hr]
      exact ⟨rfl, rfl, rfl, rfl⟩
    · have hd : s.DoRead s.mReadLen e.reads = (-1, errno) := transfer_of_error hlen hfirst _
      rw [hre, readErrnoThen, if_pos hr, hd]
      exact ⟨rfl, rfl, rfl, rfl⟩
    · rw [hre, readErrnoThen, if_pos hr, hd]
      exact ⟨rfl, rfl, rfl, rfl⟩
  have hst := s.sameCalls_eventsRead e
  have hwrite := hread.eventsWrite (hacc.congr hst) (s.eventsRead e).2 (e := e) fun htry => by
    have htry' : s.TriesWrite e := ⟨htry.1, hst.mWriteData ▸ htry.2.1, hsame.2.1 ▸ htry.2.2⟩
    have hdec := hok htry'
    have hout : s.stdout ≠ true := fun ho => by
      have hdata := htry'.2.1
      simp [h.stdout ho] at hdata
    rw [Decides, if_neg hout] at hdec
    rw [hsame.2.2.1, hsame.2.2.2, hsame.1]
    exact hdec
  simp only [eventsTransfer]
  generalize ((s.eventsRead e).1.eventsWrite (s.eventsRead e).2 e).1 = t at hwrite ⊢
  split_ifs
  · exact hwrite.congr ⟨rfl, rfl, rfl, rfl, rfl, rfl, rfl⟩ rfl
  · exact hwrite.congr ⟨rfl, rfl, rfl, rfl, rfl, rfl, rfl⟩ rfl

lemma Righted.events_connect (h : s.Righted) (hacc : s.Accounted) (hcl : s.mClosed = false)
    {e : Events} (hok : s.TriesWrite e → s.Decides s.mWriteLen e) : (s.eventsConnect e).Righted := by
  rw [eventsConnect]
  split_ifs
  · exact h.events_transfer hacc hcl hok
  · exact h.congr ⟨rfl, rfl, rfl, rfl, rfl, rfl, rfl⟩ rfl
  · apply Righted.events_transfer
    · exact h.congr ⟨rfl, rfl, rfl, rfl, rfl, rfl, rfl⟩ rfl
    · exact hacc.congr ⟨rfl, rfl, rfl, rfl, rfl, rfl, rfl⟩
    · exact hcl
    · exact hok

lemma Righted.events_call (h : s.Righted) (hacc : s.Accounted) {e : Events}
    (hok : s.TriesWrite e → s.Decides s.mWriteLen e) : (s.OnEvents e).Righted := by
  rw [OnEvents]
  split_ifs with hend htls
  · exact h.congr ⟨rfl, rfl, rfl, rfl, rfl, rfl, rfl⟩ rfl
  · have hcl : s.mClosed = false := by
      simp only [Bool.or_eq_true, not_or] at hend
      simpa using hend.2
    cases e.handshake with
    | finished =>
      apply Righted.events_connect
      · exact h.congr ⟨rfl, rfl, rfl, rfl, rfl, rfl, rfl⟩ rfl
      · exact hacc.congr ⟨rfl, rfl, rfl, rfl, rfl, rfl, rfl⟩
      · exact hcl
      · exact hok
    | wantRead | wantWrite | failed =>
      exact h.congr ⟨rfl, rfl, rfl, rfl, rfl, rfl, rfl⟩ rfl
  · have hcl : s.mClosed = false := by
      simp only [Bool.or_eq_true, not_or] at hend
      simpa using hend.2
    exact h.events_connect hacc hcl hok

lemma Righted.loopEnd (h : s.Righted) : s.loopEnd.Righted :=
  h.congr ⟨rfl, rfl, rfl, rfl, rfl, rfl, rfl⟩ rfl

/-- An answer that is right joins the others. -/
lemma Righted.answers_concat (h : s.Righted) (hk : RightAnswer s.attempts k a) :
    ∀ c b, (c, b) ∈ s.answers ++ [(k, a)] → RightAnswer s.attempts c b := by
  intro c b hmem
  rcases List.mem_append.mp hmem with hmem | hmem
  · exact h.answers c b hmem
  · cases List.mem_singleton.mp hmem
    exact hk

lemma Righted.loopWrite (h : s.Righted) : s.loopWrite.Righted := by
  rw [LowSocket.loopWrite]
  by_cases hw : (s.mWriteData && s.mWritePos != 0) = true
  · rw [if_pos hw]
    simp only [Bool.and_eq_true, bne_iff_ne] at hw
    rcases h.write hw.1 with ⟨hz, -⟩ | ⟨-, hright⟩
    · exact absurd hz hw.2
    · refine ⟨h.answers_concat ?_, h.read, (fun hd => by cases hd), h.fresh, fun _ => rfl⟩
      have hsame : positionAnswer s.mWritePos s.mWriteErrno =
          if s.mWritePos > 0 then .ok s.mWritePos else .error s.mWriteErrno := by
        have := hw.2
        rw [positionAnswer]
        split_ifs <;> first | rfl | omega
      exact hsame ▸ hright
  · rw [if_neg hw]
    exact h.loopEnd

lemma Righted.loopRead (h : s.Righted) : s.loopRead.Righted := by
  rw [LowSocket.loopRead]
  by_cases hc : (!s.mConnected) = true
  · rw [if_pos hc]
    exact h.congr ⟨rfl, rfl, rfl, rfl, rfl, rfl, rfl⟩ rfl
  rw [if_neg hc]
  by_cases hr : (s.mReadData && (s.mClosed || s.mReadPos != 0)) = true
  · rw [if_pos hr]
    simp only [Bool.and_eq_true, Bool.or_eq_true, bne_iff_ne] at hr
    rcases h.read hr.1 with ⟨hz, hcl, -⟩ | ⟨-, hright⟩
    · simp [hz, hcl] at hr
    · exact ⟨h.answers_concat hright, (fun hd => by cases hd), h.write, h.fresh, h.stdout⟩
  · rw [if_neg hr]
    exact h.loopWrite

lemma Righted.loop_call (h : s.Righted) (addrError : Bool) : (s.OnLoop addrError).Righted := by
  simp only [OnLoop]
  split_ifs
  · exact h.congr ⟨rfl, rfl, rfl, rfl, rfl, rfl, rfl⟩ rfl
  · exact h.congr ⟨rfl, rfl, rfl, rfl, rfl, rfl, rfl⟩ rfl
  · exact h.congr ⟨rfl, rfl, rfl, rfl, rfl, rfl, rfl⟩ rfl
  · apply Righted.loopRead
    exact h.congr ⟨rfl, rfl, rfl, rfl, rfl, rfl, rfl⟩ rfl
  · exact h.congr ⟨rfl, rfl, rfl, rfl, rfl, rfl, rfl⟩ rfl
  · apply Righted.loopRead
    exact h.congr ⟨rfl, rfl, rfl, rfl, rfl, rfl, rfl⟩ rfl

lemma Righted.step {i : Input} (h : s.Righted) (hacc : s.Accounted) (hok : s.Answers i) :
    (s.step i).Righted := by
  rw [LowSocket.step]
  split_ifs
  · exact h
  cases i with
  | read len results => exact h.read_call hacc len results
  | write len results => exact h.write_call hacc hok
  | shutdown failed => exact h.shutdown_call hacc hok failed
  | close callback =>
    simp only [call, Close]
    split_ifs
    · exact h
    · exact h.congr ⟨rfl, rfl, rfl, rfl, rfl, rfl, rfl⟩ rfl
  | events e => exact h.events_call hacc hok.2.1
  | loop addrError =>
    simp only [call]
    split_ifs
    · exact h.loop_call addrError
    · exact h
  | resume =>
    simp only [call, resume]
    split
    · exact h
    · exact h.loopRead
    · exact h.loopWrite
    · exact h.loopEnd
  | throw => exact h.congr ⟨rfl, rfl, rfl, rfl, rfl, rfl, rfl⟩ rfl

end Right

/-! ### Closed connections -/

section Closed

variable {s : LowSocket}

/-- What waits on a connection that the peer has closed is answered by the main loop. -/
structure ClosedServed (s : LowSocket) : Prop where
  read : s.mDestroyed = false → s.gone = false → s.mClosed = true → s.mReadData = true →
    s.loopQueued = true ∨ s.inCallback = some .accept
  write : s.mDestroyed = false → s.gone = false → s.mClosed = true → s.mWriteData = true →
    s.mWritePos ≠ 0 ∧
      (s.loopQueued = true ∨ s.inCallback = some .accept ∨ s.inCallback = some .read)

lemma meetsEnd_of_zero {len : Nat} {results : List SysResult}
    (h : (s.DoRead len results).1 = 0) : MeetsEnd s.tls len results := by
  by_cases hlen : len = 0
  · cases results with
    | nil => exact hlen
    | cons r results => cases r <;> exact .inl hlen
  match results with
  | [] => simp [DoRead, transfer, Ne.symm hlen] at h
  | .size 0 :: results => exact .inr rfl
  | .size (n + 1) :: results => exact absurd h (transfer_pos hlen _ _).ne'
  | .error code :: results =>
    refine .inr ?_
    cases he : readError s.tls code with
    | none => rfl
    | some errno => simp [DoRead, transfer, Ne.symm hlen, he] at h

lemma ClosedServed.read_call (h : s.ClosedServed) (hs : s.Served) {len : Nat}
    {results : List SysResult} (hok : s.Answers (.read len results)) :
    (s.Read len results).ClosedServed := by
  obtain ⟨h₁, h₂⟩ := h
  have hw := hs.write
  have hend := @meetsEnd_of_zero s len results
  simp only [Answers, NoWriteLeft, Open, tryNow, DoRead] at hok hw hend
  constructor <;> simp only [Read, readDone, readLater, tookRead, attempted, answer, setPollEvents,
    tryNow, DoRead] <;> split_ifs <;> grind -ring -linarith

lemma ClosedServed.write_call (h : s.ClosedServed) (len : Nat) (results : List SysResult) :
    (s.Write len results).ClosedServed := by
  obtain ⟨h₁, h₂⟩ := h
  constructor <;> simp only [Write, writeDone, writeLater, tookWrite, attempted, answer, setPollEvents,
    tryNow] <;> split_ifs <;> try split
  all_goals grind -ring -linarith

/-- A connection that is not closed by the peer. -/
lemma closedServed_of_open (h : s.mClosed = false) : s.ClosedServed :=
  ⟨fun _ _ hc => by simp [h] at hc, fun _ _ hc => by simp [h] at hc⟩

lemma Decides.doWrite_ne_zero {n : Nat} {e : Events} (h : s.Decides n e) (hout : s.stdout ≠ true) :
    (s.DoWrite n e.writes).1 ≠ 0 := by
  rw [Decides, if_neg hout] at h
  rcases s.DoWrite_cases n e.writes with ⟨-, -, -, hw⟩ | ⟨hz, -⟩ | ⟨errno, -, -, hw⟩
  · exact hw.ne'
  · rcases hz with hz | ⟨hfirst, hhead⟩
    · exact absurd hz h.1
    · simp only [hfirst] at h
      exact absurd hhead h.2
  · simp [hw]

/-- The end of the stream comes with no write left that has not been moved. -/
lemma closedServed_eventsTransfer {e : Events} (hcl : s.mClosed = false)
    (hok : s.TriesRead e → MeetsEnd s.tls s.mReadLen e.reads → s.mWriteData = true →
      s.mWritePos ≠ 0 ∨ (s.TriesWrite e ∧
        ∀ errno ∈ firstError (writeError s.tls) e.writes, errno.hard = true))
    (hdec : s.TriesWrite e → s.Decides s.mWriteLen e) (hout : s.stdout = true → s.mWriteData = false) :
    (s.eventsTransfer e).ClosedServed := by
  have hzero := @meetsEnd_of_zero s s.mReadLen e.reads
  simp only [eventsTransfer]
  rcases s.eventsRead_cases e with ⟨-, hre⟩ | ⟨errno, -, -, -, -, hre⟩ | ⟨r, hr, hd, -, hre⟩
  · rw [hre]
    rcases eventsWrite_cases s false e with ⟨-, hwe⟩ | ⟨_, -, -, -, -, hwe⟩ | ⟨w, -, -, -, hwe⟩ <;>
      rw [hwe] <;> exact closedServed_of_open hcl
  · rw [hre]
    rcases eventsWrite_cases (s.tookRead s.mReadCallID (-1, errno)) false e with
      ⟨-, hwe⟩ | ⟨_, -, -, -, -, hwe⟩ | ⟨w, -, -, -, hwe⟩ <;>
      rw [hwe] <;> exact closedServed_of_open hcl
  · rw [hre]
    -- the read has ended: what is left to show is that a write that waits has been moved
    have hserved : ∀ t : LowSocket, (t.mClosed = true → t.mWriteData = true → t.mWritePos ≠ 0) →
        (t.setPollEvents false false).setLoopCallback.ClosedServed := fun t ht =>
      ⟨fun _ _ _ _ => .inl rfl, fun _ _ hc hw => ⟨ht hc hw, .inl rfl⟩⟩
    have hend : (s.mClosed || r.1 == 0) = true → s.mWriteData = true → s.mWritePos ≠ 0 ∨
        (s.TriesWrite e ∧ ∀ errno ∈ firstError (writeError s.tls) e.writes, errno.hard = true) := by
      intro hc
      have hz : r.1 = 0 := by simpa [hcl] using hc
      exact hok hr (hzero (by rw [hd, hz]))
    rcases eventsWrite_cases { s.tookRead s.mReadCallID r with
        mClosed := s.mClosed || r.1 == 0, mReadPos := r.1 } true e with
      ⟨hnt, hwe⟩ | ⟨errno, ht, -, hfirst, hsoft, hwe⟩ | ⟨w, ht, hw, -, hwe⟩
    · rw [hwe]
      refine hserved _ fun hc hdata => ?_
      rcases hend hc hdata with hne | ⟨ht, -⟩
      · exact hne
      · exact absurd ht hnt
    · rw [hwe]
      refine hserved _ fun hc hdata => ?_
      rcases hend hc hdata with hne | ⟨-, hhard⟩
      · exact hne
      · have hdec := hdec ht
        have hdata : s.mWriteData = true := hdata
        have hfirst : firstError (writeError s.tls) e.writes = some errno := hfirst
        have hsoft : r.2.hard = false := hsoft
        rw [Decides, if_neg (fun ho => by simp [hout ho] at hdata), hfirst, readErrnoThen, if_pos hr,
          hd, hsoft] at hdec
        simp [hhard errno hfirst] at hdec
    · rw [hwe]
      refine hserved _ fun _ hdata => ?_
      have hne := (hdec ht).doWrite_ne_zero fun ho => by
        have hdata : s.mWriteData = true := hdata
        simp [hout ho] at hdata
      have hw : s.DoWrite s.mWriteLen e.writes = w := hw
      rwa [hw] at hne

lemma closedServed_eventsConnect {e : Events} (hcl : s.mClosed = false) (hok : s.EventsAnswer e)
    (hout : s.stdout = true → s.mWriteData = false) : (s.eventsConnect e).ClosedServed := by
  rw [eventsConnect]
  split_ifs
  · exact closedServed_eventsTransfer hcl hok.2 hok.1 hout
  · exact closedServed_of_open hcl
  · apply closedServed_eventsTransfer
    · exact hcl
    · exact hok.2
    · exact hok.1
    · exact hout

lemma ClosedServed.events_call (h : s.ClosedServed) {e : Events} (hok : s.EventsAnswer e)
    (hout : s.stdout = true → s.mWriteData = false) : (s.OnEvents e).ClosedServed := by
  rw [OnEvents]
  split_ifs with hend htls
  · exact ⟨h.read, h.write⟩
  · have hcl : s.mClosed = false := by
      simp only [Bool.or_eq_true, not_or] at hend
      simpa using hend.2
    cases e.handshake with
    | finished =>
      apply closedServed_eventsConnect
      · exact hcl
      · exact hok
      · exact hout
    | wantRead | wantWrite | failed => exact closedServed_of_open hcl
  · have hcl : s.mClosed = false := by
      simp only [Bool.or_eq_true, not_or] at hend
      simpa using hend.2
    exact closedServed_eventsConnect hcl hok hout

lemma closedServed_loopWrite (hr : s.mDestroyed = false → s.gone = false → s.mClosed = true →
      s.mReadData = true → s.loopQueued = true)
    (hw : s.mDestroyed = false → s.gone = false → s.mClosed = true → s.mWriteData = true →
      s.mWritePos ≠ 0) : s.loopWrite.ClosedServed := by
  rw [loopWrite]
  by_cases hwrite : (s.mWriteData && s.mWritePos != 0) = true
  · rw [if_pos hwrite]
    exact ⟨fun hd hg hc hdata => .inl (hr hd hg hc hdata), fun _ _ _ hdata => by cases hdata⟩
  · rw [if_neg hwrite]
    refine ⟨fun hd hg hc hdata => .inl (hr hd hg hc hdata), fun hd hg hc hdata => ?_⟩
    have hdata : s.mWriteData = true := hdata
    exact absurd (by simpa [hdata] using hwrite) (hw hd hg hc hdata)

lemma closedServed_loopRead (hconn : s.mConnected = true)
    (hw : s.mDestroyed = false → s.gone = false → s.mClosed = true → s.mWriteData = true →
      s.mWritePos ≠ 0) : s.loopRead.ClosedServed := by
  rw [loopRead]
  rw [if_neg (by simp [hconn])]
  by_cases hread : (s.mReadData && (s.mClosed || s.mReadPos != 0)) = true
  · rw [if_pos hread]
    exact ⟨(fun _ _ _ hdata => by cases hdata),
      fun hd hg hc hdata => ⟨hw hd hg hc hdata, .inr (.inr rfl)⟩⟩
  · rw [if_neg hread]
    refine closedServed_loopWrite (fun _ _ hc hdata => ?_) hw
    simp [hc, hdata] at hread

lemma ClosedServed.loop_call (h : s.ClosedServed) (hs : s.Served) (hq : s.loopQueued = true)
    (addrError : Bool) : (s.OnLoop addrError).ClosedServed := by
  have hgone : ∀ t : LowSocket, t.gone = true → t.ClosedServed := fun t ht =>
    ⟨fun _ hg => by simp [ht] at hg, fun _ hg => by simp [ht] at hg⟩
  have hw := fun hd hg hc hdata => (h.write hd hg hc hdata).1
  have hconn := hs.connected hq
  simp only [OnLoop]
  split_ifs with hd ha herr hm herr
  · exact hgone _ rfl
  · exact hgone _ rfl
  · exact ⟨fun _ _ _ _ => .inr rfl, fun hd hg hc hdata => ⟨hw hd hg hc hdata, .inr (.inl rfl)⟩⟩
  · simp only [Bool.or_eq_true, not_or] at herr
    rcases hconn with hc | hc | hc
    · exact absurd hc hm
    · exact absurd hc herr.1
    · exact absurd hc hd
  · exact hgone _ rfl
  · rcases hconn with hc | hc | hc
    · apply closedServed_loopRead
      · exact hc
      · exact hw
    · exact absurd hc herr
    · exact absurd hc hd

lemma ClosedServed.resume_call (h : s.ClosedServed) (hs : s.Served) : s.resume.ClosedServed := by
  have hw := fun hd hg hc hdata => (h.write hd hg hc hdata).1
  rw [resume]
  split
  · exact h
  · exact closedServed_loopRead (hs.inCallback (by simp [*])) hw
  · refine closedServed_loopWrite (fun hd hg hc hdata => ?_) hw
    rcases h.read hd hg hc hdata with hq | hq
    · exact hq
    · simp_all
  · -- behind the write callback only what is queued again waits
    refine ⟨fun hd hg hc hdata => ?_, fun hd hg hc hdata => ?_⟩
    · rcases h.read hd hg hc hdata with hq | hq
      · exact .inl hq
      · simp_all
    · obtain ⟨hne, hq | hq | hq⟩ := h.write hd hg hc hdata
      · exact ⟨hne, .inl hq⟩
      · simp_all
      · simp_all

lemma ClosedServed.throw_call (h : s.ClosedServed) (hok : s.Answers .throw) :
    ({ s with inCallback := none } : LowSocket).ClosedServed := by
  obtain ⟨h₁, h₂⟩ := h
  simp only [Answers] at hok
  constructor <;> grind -ring -linarith

lemma ClosedServed.step {i : Input} (h : s.ClosedServed) (hs : s.Served) (hr : s.Righted)
    (hok : s.Answers i) : (s.step i).ClosedServed := by
  rw [LowSocket.step]
  split_ifs
  · exact h
  cases i with
  | read len results => exact h.read_call hs hok
  | write len results => exact h.write_call len results
  | shutdown failed =>
    simp only [call, Shutdown]
    split_ifs
    · exact ⟨h.read, h.write⟩
    · cases failed <;> exact ⟨h.read, h.write⟩
  | close callback =>
    simp only [call, Close]
    split_ifs
    · exact h
    · exact ⟨fun hd => by simp at hd, fun hd => by simp at hd⟩
  | events e => exact h.events_call hok.2 hr.stdout
  | loop addrError =>
    simp only [call]
    split_ifs with hq
    · exact h.loop_call hs (by simp_all) addrError
    · exact h
  | resume => exact h.resume_call hs
  | throw => exact h.throw_call hok

end Closed

/-! ### Runs -/

variable {s : LowSocket}

lemma Answers.wakes {i : Input} (h : s.Answers i) : s.Wakes i := by
  cases i with
  | events e => exact h.1
  | throw => exact fun ho hc => (h ho.2.1 hc).1
  | read | write | shutdown | close | loop | resume => trivial

@[simp] lemma loopWrite_strays : s.loopWrite.strays = s.strays := by
  rw [loopWrite, loopEnd]
  split <;> rfl

@[simp] lemma loopRead_strays : s.loopRead.strays = s.strays := by
  rw [loopRead]
  by_cases hc : (!s.mConnected) = true
  · rw [if_pos hc]
  rw [if_neg hc]
  split
  · rfl
  · exact loopWrite_strays

lemma OnLoop_strays (addrError : Bool) : (s.OnLoop addrError).strays = s.strays := by
  simp only [OnLoop]
  split_ifs <;> first | rfl | exact loopRead_strays

lemma Read_strays (len : Nat) (results : List SysResult) :
    (s.Read len results).strays = s.strays := by
  simp only [Read]
  split_ifs <;> rfl

lemma Write_strays (len : Nat) (results : List SysResult) :
    (s.Write len results).strays = s.strays := by
  simp only [Write]
  split_ifs <;> first | rfl | (split <;> rfl)

/-- Only a shutdown without a connection puts something else than a callback in the queue. -/
lemma strays_step {i : Input} (h : s.strays = 0) (hok : s.Answers i) : (s.step i).strays = 0 := by
  rw [LowSocket.step]
  split_ifs
  · exact h
  cases i with
  | read len results => exact (Read_strays len results).trans h
  | write len results => exact (Write_strays len results).trans h
  | shutdown failed =>
    have hc : s.mConnected = true := hok
    cases failed <;> simpa [call, Shutdown, hc, attempted, answer] using h
  | close callback =>
    simp only [call, Close]
    split_ifs <;> exact h
  | events e => exact (s.sameCalls_OnEvents e).strays.trans h
  | loop addrError =>
    simp only [call]
    split_ifs
    · exact (OnLoop_strays addrError).trans h
    · exact h
  | resume =>
    simp only [call, resume]
    split
    · exact h
    · exact loopRead_strays.trans h
    · exact loopWrite_strays.trans h
    · exact h
  | throw => exact h

/-- All that the runs keep. -/
structure Inv (s : LowSocket) : Prop where
  accounted : s.Accounted
  righted : s.Righted
  served : s.Served
  closed : s.ClosedServed
  strays : s.strays = 0

lemma Initial.inv (h : s.Initial) : s.Inv where
  accounted c := by
    simp [answered, waits, h.answers, h.mReadData, h.mWriteData, h.calls]
    omega
  righted := by
    refine ⟨?_, ?_, ?_, ?_, fun _ => h.mWriteData⟩
    · simp [h.answers]
    · simp [h.mReadData]
    · simp [h.mWriteData]
    · simp [h.attempts]
  served := h.served
  closed := closedServed_of_open h.mClosed
  strays := h.strays

lemma Inv.step {i : Input} (h : s.Inv) (hok : s.Answers i) : (s.step i).Inv where
  accounted := h.accounted.step i
  righted := h.righted.step h.accounted hok
  served := h.served.step hok.wakes
  closed := h.closed.step h.served h.righted hok
  strays := strays_step h.strays hok

lemma Inv.answered (h : s.Inv) : s.Answered := by
  refine ⟨h.accounted, h.righted.answers, fun hd hg => ?_, h.strays⟩
  cases hc : s.mClosed with
  | false =>
    have hw := h.served.woken ⟨hc, hd, hg⟩
    exact ⟨fun hr => (hw.1 hr).imp_right (.imp_right fun hp => ⟨rfl, hp⟩),
      fun hr => (hw.2 hr).imp_right (.imp_right fun hp => ⟨rfl, hp⟩)⟩
  | true =>
    refine ⟨fun hr => ?_, fun hr => ?_⟩
    · rcases h.closed.read hd hg hc hr with hq | hq
      · exact .inl hq
      · exact .inr (.inl (by simp [hq]))
    · obtain ⟨-, hq | hq | hq⟩ := h.closed.write hd hg hc hr
      · exact .inl hq
      · exact .inr (.inl (by simp [hq]))
      · exact .inr (.inl (by simp [hq]))

/-- In every run that meets the condition every call is answered once or waits with a wake-up, its answer
is right, and nothing but callbacks is called. -/
theorem calls_answered {s : LowSocket} (h : s.Initial) {is : List Input}
    (hok : machine.Guarded Answers s is) : (machine.run s is).Answered :=
  (machine.run_invariant (fun _ _ => Inv.step) h.inv hok).answered

instance (s : LowSocket) (e : Events) : Decidable (s.EventsAnswer e) :=
  inferInstanceAs (Decidable (_ ∧ (s.TriesRead e → MeetsEnd s.tls s.mReadLen e.reads →
    s.mWriteData = true → s.mWritePos ≠ 0 ∨ (s.TriesWrite e ∧
      ∀ errno ∈ firstError (writeError s.tls) e.writes, errno.hard = true))))

instance (s : LowSocket) (len : Nat) (results : List SysResult) :
    Decidable (s.WriteCounts len results) := by
  rw [WriteCounts]
  infer_instance

instance (s : LowSocket) : ∀ i, Decidable (s.Answers i)
  | .read len results => inferInstanceAs (Decidable (s.mReadData = false → s.mClosed = false →
      s.tryNow = true → MeetsEnd s.tls len results → s.mWriteData = true → s.mWritePos ≠ 0))
  | .write len results => inferInstanceAs (Decidable (s.WriteCounts len results))
  | .shutdown _ => inferInstanceAs (Decidable (s.mConnected = true))
  | .events e => inferInstanceAs (Decidable ((s.Open → s.EventsWake e) ∧ s.EventsAnswer e))
  | .throw => inferInstanceAs (Decidable (s.mDestroyed = false → s.inCallback.isSome = true →
      s.ThrowWakes ∧ (s.mClosed = true →
        s.loopQueued = true ∨ (s.mReadData = false ∧ s.mWriteData = false))))
  | .close _ | .loop _ | .resume => isTrue trivial

/-- A write of five bytes that waits for two of them, a read and a shutdown. -/
theorem calls_answered_three :
    (machine.run (connected ⟨0, false⟩ ⟨0, false⟩) [.write 5 [.error EAGAIN], .read 4 [.size 2],
      .events ⟨false, true, .finished, false, [], [.size 5]⟩, .loop false, .resume,
      .shutdown none]).Answered :=
  calls_answered (initial_connected _ _) (by decide)

/-- A write of no bytes is answered with an error. -/
theorem empty_write_fails :
    (machine.run (connected ⟨0, false⟩ ⟨0, false⟩) [.write 0 []]).answers =
        [(1, .error ⟨0, false⟩)] ∧
      ¬(machine.run (connected ⟨0, false⟩ ⟨0, false⟩) [.write 0 []]).Answered := by
  refine ⟨by decide, fun h => ?_⟩
  have hans : (1, Answer.error ⟨0, false⟩) ∈
      (machine.run (connected ⟨0, false⟩ ⟨0, false⟩) [.write 0 []]).answers := by decide
  have hatt : (1, Attempt.moved 0 ⟨0, false⟩) ∈
      (machine.run (connected ⟨0, false⟩ ⟨0, false⟩) [.write 0 []]).attempts := by decide
  rcases (h.right _ _ hans).told _ hatt with hv | hv <;> cases hv

end LowSocket

end LowJs.Sockets
