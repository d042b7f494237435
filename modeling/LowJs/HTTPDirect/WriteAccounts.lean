import LowJs.HTTPDirect.ChunkedWriting
import LowJs.HTTPDirect.Readers
import LowJs.HTTPDirect.WriteStash

/-!
# The account of the bytes written

The bytes of the queued buffers are recorded beside a connection. However the socket takes them, what it
has taken is the beginning of the record and the rest is in the queue, and each byte is counted once in
`mBytesWritten` until a callback of `Write` reports it. The bytes of a header are reported with the first
`Write` behind it.
-/

open LowJs.HTTPDirect.Parser

namespace LowJs.HTTPDirect

/-- The count that an event reports to a callback of `Write`. -/
def Event.count : Event → Int
  | .write _ bytesWritten => bytesWritten
  | _ => 0

/-- The bytes of the buffers queued so far, and whether a header has been queued for whose bytes no `Write`
has asked yet. -/
structure Book where
  queued : List UInt8
  opened : Bool
  deriving DecidableEq, Repr

namespace LowHTTPDirect

/-- The bytes that the socket takes in a row of calls of `writev`, up to the first that fails. -/
def taken : List WritevResult → Nat
  | .size n :: results => n + taken results
  | _ => 0

def WritevResult.isError : WritevResult → Bool
  | .error _ => true
  | _ => false

/-- The bytes the socket has taken. -/
def sent (s : LowHTTPDirect) : List UInt8 := s.rt.log.flatMap Event.sentBytes

/-- The sum of the counts reported. -/
def reported (s : LowHTTPDirect) : Int := (s.rt.log.map Event.count).sum

/-- The buffer that `WriteHeaders` queues. -/
def headerBytes (txt : List UInt8) (isChunked : Bool) : List UInt8 :=
  let txt := txt.takeWhile (· ≠ 0)
  if isChunked then txt.take (txt.length - 2) else txt

/-- The buffers that `Write` queues. -/
def writeBytes (isChunked : Bool) (data : List UInt8) : List UInt8 :=
  if data = [] then if isChunked then [CR, LF, 48, CR, LF, CR, LF] else []
  else (if isChunked then [CR, LF] ++ hexBytes data.length ++ [CR, LF] else []) ++ data

/-- The bytes that an input queues. -/
def queueing (s : LowHTTPDirect) : Input → List UInt8
  | .writeHeaders txt _ isChunked _ => if s.mayWriteHeaders then headerBytes txt isChunked else []
  | .write data _ => if s.mayWrite then writeBytes s.writer.mWriteChunkedEncoding data else []
  | _ => []

/-- What `writev` returns in the step. -/
def Input.results : Input → List WritevResult
  | .writeHeaders _ _ _ results => results
  | .write _ results => results
  | .socketWrite results => results
  | _ => []

/-- The length of the response is known to its reader. -/
def complete (s : LowHTTPDirect) : Bool :=
  ¬(!s.writer.mWriteChunkedEncoding ∧ (s.writer.mWriteLen < 0 ∨ s.writer.mWritePos ≠ s.writer.mWriteLen))

end LowHTTPDirect

open LowHTTPDirect

/-- What a step adds to the record. -/
def Book.record (b : Book) (s : LowHTTPDirect) (i : LowHTTPDirect.Input) : Book where
  queued := b.queued ++ s.queueing i
  opened :=
    match i with
    | .writeHeaders .. => b.opened || s.mayWriteHeaders
    | .write .. => b.opened && !s.mayWrite
    | _ => b.opened

/-- A connection and its record. -/
def booked (E : Env) : Machine (LowHTTPDirect × Book) LowHTTPDirect.Input :=
  ⟨fun r i => (step E r.1 i, if r.1.rt.deleted ∨ r.1.rt.undefined then r.2 else r.2.record r.1 i)⟩

/-- The socket has taken the beginning of what was queued, and all of it where the queue is empty; each
byte it has taken is reported or counted in `mBytesWritten`, and reported where no callback waits and no
header has come since the last `Write`; and `Write` does not write a size line over a queued one. -/
structure Accounted (s : LowHTTPDirect) (b : Book) : Prop where
  order : s.sent <+: b.queued
  complete : s.writer.mWriteBuffers = [] → s.sent = b.queued
  counted : s.reported + s.writer.mBytesWritten = s.sent.length
  told : b.opened = false → s.writer.mWriteCallID = 0 → s.reported = s.sent.length
  lines : s.mayWrite = true → ∀ q ∈ s.writer.mWriteBuffers, q.isChunkLine = false

/-- `writev` takes a part of what it is given, or it fails with `EAGAIN` or `EINTR`; and the bytes that are
not reported yet can be counted in an `int`. -/
def Takes (r : LowHTTPDirect × Book) (i : LowHTTPDirect.Input) : Prop :=
  (∀ x ∈ i.results, x.isError = false) ∧
    r.1.sent.length + taken i.results ≤ (r.2.record r.1 i).queued.length ∧
    r.1.writer.mBytesWritten + taken i.results < 2 ^ 31

/-- `Init` does not run while a callback of `Write` waits: the socket does not take the last bytes of a
response to a request that has been read, and no request with a finished response is read to its end. -/
def Retains (E : Env) (r : LowHTTPDirect × Book) (i : LowHTTPDirect.Input) : Prop :=
  r.1.writer.mWriteCallID ≠ 0 →
    match i with
    | .socketWrite results =>
      ¬(r.1.mIsServer ∧ r.1.parser.mPhase = .sendingResponse ∧ r.1.writer.mWriteDone ∧ r.1.complete ∧
        r.1.sent.length + taken results = r.2.queued.length)
    | .read _ => r.1.responseDone = true → (step E r.1 i).mIsRequest = true
    | .socketRead _ => r.1.responseDone = true → (step E r.1 i).mIsRequest = true
    | _ => True

namespace LowHTTPDirect

variable {E : Env} {s t u : LowHTTPDirect} {b : Book} {i : Input}

/-! ### Reading -/

/-- What the account depends on. -/
def tally (s : LowHTTPDirect) := (s.sent, s.reported, s.writer)

/-- What the account and `Init` depend on. -/
def account (s : LowHTTPDirect) := (s.sent, s.reported, s.writer, s.mIsServer, s.mIsRequest)

lemma sent_emit (s : LowHTTPDirect) (e : Event) : (s.emit e).sent = s.sent ++ e.sentBytes := by
  simp [sent, emit]

lemma reported_emit (s : LowHTTPDirect) (e : Event) : (s.emit e).reported = s.reported + e.count := by
  simp [reported, emit]

lemma account_emit {e : Event} (he : e.ofReader = true) : (s.emit e).account = s.account := by
  have hbytes := Event.sentBytes_ofReader he
  have hcount : e.count = 0 := by cases e <;> first | rfl | cases he
  rw [account]
  rw [sent_emit, reported_emit, hbytes, hcount, List.append_nil, add_zero]
  rfl

lemma account_unread (h : t.unread = s.unread) : t.account = s.account := by
  simp only [unread, Prod.mk.injEq] at h
  obtain ⟨hwriter, hserver, hrequest, -, -, -, hlog⟩ := h
  unfold account sent reported
  rw [hwriter, hserver, hrequest, hlog]

lemma account_init (h : t.account = s.account) : t.init.account = s.init.account := by
  simp only [account, Prod.mk.injEq] at h
  obtain ⟨hsent, hreported, hwriter, hserver, -⟩ := h
  unfold account
  simp only [Prod.mk.injEq]
  refine ⟨hsent, hreported, ?_, hserver, rfl⟩
  show ({ t.writer with mWriteCallID := 0, mWriting := false, mWriteDone := false } : Writer) =
    { s.writer with mWriteCallID := 0, mWriting := false, mWriteDone := false }
  rw [hwriter]

lemma responseDone_account (h : t.account = s.account) : t.responseDone = s.responseDone := by
  simp only [account, Prod.mk.injEq] at h
  obtain ⟨-, -, hwriter, hserver, -⟩ := h
  unfold responseDone
  rw [hwriter, hserver]

/-- `t` has the account of `s`, or that after `Init`. -/
def Leaves (s t : LowHTTPDirect) : Prop :=
  t.account = s.account ∨ s.responseDone = true ∧ t.account = s.init.account

lemma Leaves.trans (h : Leaves s t) (h' : Leaves t u) : Leaves s u := by
  rcases h with h | ⟨hdone, h⟩
  · rcases h' with h' | ⟨hdone', h'⟩
    · exact .inl (h'.trans h)
    · exact .inr ⟨responseDone_account h ▸ hdone', h'.trans (account_init h)⟩
  · rcases h' with h' | ⟨hdone', -⟩
    · exact .inr ⟨hdone, h'.trans h⟩
    · have hnot : s.init.responseDone = false := by simp [responseDone, init]
      rw [responseDone_account h, hnot] at hdone'
      cases hdone'

lemma reading_leaves : Reading Leaves where
  frame h := .inl (account_unread h)
  trans := Leaves.trans
  emit _ _ he := .inl (account_emit he)
  init h := .inr ⟨h, rfl⟩
  wait _ _ := .inl rfl

lemma reporting_account : Reporting fun s t => t.account = s.account where
  frame := account_unread
  trans h h' := h'.trans h
  emit _ _ := account_emit

/-! ### The main loop -/

/-- Nothing changes in the account, or the callback that waits gets the count. -/
def Tells (s t : LowHTTPDirect) : Prop :=
  t.tally = s.tally ∨ s.writer.mWriteBuffers = [] ∧ t.tally = (s.sent, s.reported + s.writer.mBytesWritten,
    { s.writer with mWriteCallID := 0, mBytesWritten := 0 })

lemma tally_account (h : t.account = s.account) : t.tally = s.tally := by
  simp only [account, Prod.mk.injEq] at h
  obtain ⟨hsent, hreported, hwriter, -⟩ := h
  unfold tally
  rw [hsent, hreported, hwriter]

lemma Tells.start (h : Tells u t) (heq : u.tally = s.tally) : Tells s t := by
  simp only [tally, Prod.mk.injEq] at heq
  obtain ⟨hsent, hreported, hwriter⟩ := heq
  unfold Tells tally at *
  rwa [hsent, hreported, hwriter] at h

lemma tells_loopReturn (s : LowHTTPDirect) : Tells s s.loopReturn := by
  rw [loopReturn]
  dsimp only
  split
  · exact .inl rfl
  · exact .inl rfl

lemma tells_onLoopWrite (herror : s.writer.mWriteError = false) : Tells s s.onLoopWrite := by
  rw [onLoopWrite]
  split
  · next hready =>
    have hempty : s.writer.mWriteBuffers = [] :=
      hready.1.resolve_right fun h => by simp [herror] at h
    dsimp only
    split
    · next h => simp [removeStash, herror] at h
    · refine .inr ⟨hempty, ?_⟩
      rw [tally]
      rw [sent_emit, reported_emit]
      simp only [Event.sentBytes, List.append_nil]
      rfl
  · exact tells_loopReturn s

lemma tells_onLoopRead (herror : s.writer.mWriteError = false) : Tells s (s.onLoopRead E) := by
  rw [onLoopRead]
  split
  · exact tells_loopReturn s
  · split
    · dsimp only
      split
      · left
        refine tally_account ((reporting_account.trans (reporting_account.detach _)
          (reporting_account.emit _ _ ?_)).trans rfl)
        rfl
      · left
        exact tally_account ((reporting_account.reportRead _ _).trans rfl)
    · exact tells_onLoopWrite herror

lemma tells_onLoopError (herror : s.writer.mWriteError = false) : Tells s (s.onLoopError E) := by
  rw [onLoopError]
  split
  · left
    refine tally_account ((reporting_account.trans (reporting_account.detach _)
      (reporting_account.emit _ _ ?_)).trans rfl)
    rfl
  · exact tells_onLoopRead herror

lemma tells_OnLoop (herror : s.writer.mWriteError = false) : Tells s (s.OnLoop E) := by
  rw [OnLoop]
  split
  · split
    · rw [onLoopRequest]
      dsimp only
      have herror : ({ s with rt.loopQueued := false } : LowHTTPDirect).writer.mWriteError = false := herror
      refine Tells.start (u := { s with rt.loopQueued := false }) ?_ rfl
      split
      · split
        · exact (tells_loopReturn _).start (tally_account (reporting_account.detach _))
        · exact tells_loopReturn _
      · split
        · exact tells_onLoopError herror
        · split
          · split
            · exact .inl rfl
            · left
              rw [tally]
              rw [sent_emit, reported_emit]
              simp only [Event.sentBytes, Event.count, List.append_nil, add_zero]
              rfl
          · exact tells_onLoopError herror
    · exact .inl rfl
  · exact tells_onLoopError herror
  · exact tells_onLoopRead herror
  · exact tells_onLoopWrite herror
  · exact tells_loopReturn s

/-! ### `DoWrite` -/

/-- The socket has taken `n` bytes. Where that ends the response to a request that has been read, `Init`
has run. -/
structure Wrote (n : Nat) (s t : LowHTTPDirect) : Prop where
  stream : t.stream = s.stream
  sent : t.sent.length = s.sent.length + n
  reported : t.reported = s.reported
  bytes : t.writer.mBytesWritten = s.writer.mBytesWritten + n
  error : t.writer.mWriteError = s.writer.mWriteError
  lines : ∃ k, t.writer.mWriteBuffers.map Iov.isChunkLine =
    (s.writer.mWriteBuffers.drop k).map Iov.isChunkLine
  ended : t.writer.mWriteCallID = s.writer.mWriteCallID ∧ t.writer.mWriteDone = s.writer.mWriteDone ∧
      t.writer.mWriting = s.writer.mWriting ∨
    t.writer.mWriteBuffers = [] ∧ t.writer.mWriteCallID = 0 ∧ s.mIsServer = true ∧
      s.parser.mPhase = .sendingResponse ∧ s.writer.mWriteDone = true ∧ s.complete = true

lemma Wrote.of_tally (h : t.tally = s.tally) : Wrote 0 s t := by
  simp only [tally, Prod.mk.injEq] at h
  obtain ⟨hsent, hreported, hwriter⟩ := h
  refine ⟨?_, ?_, hreported, ?_, by rw [hwriter], ⟨0, by rw [hwriter]; rfl⟩, .inl ?_⟩
  · have hsent : t.rt.log.flatMap Event.sentBytes = s.rt.log.flatMap Event.sentBytes := hsent
    unfold LowHTTPDirect.stream
    rw [hsent, hwriter]
  · rw [hsent, Nat.add_zero]
  · rw [hwriter, Nat.cast_zero, add_zero]
  · rw [hwriter]
    exact ⟨rfl, rfl, rfl⟩

lemma wrote_responseSent (hempty : s.writer.mWriteBuffers = []) : Wrote 0 s s.responseSent := by
  rw [responseSent]
  split
  · next hdone =>
    split
    · split
      · refine ⟨?_, ?_, ?_, (add_zero _).symm, rfl, ⟨0, rfl⟩, .inl ⟨rfl, rfl, rfl⟩⟩
        · simp [LowHTTPDirect.stream, emit, Event.sentBytes]
        · rw [sent_emit]
          exact congrArg List.length (List.append_nil s.sent)
        · rw [reported_emit]
          exact add_zero _
      · exact .of_tally rfl
    · next hcomplete =>
      split
      · next hserver =>
        exact ⟨rfl, rfl, rfl, (add_zero _).symm, rfl, ⟨0, rfl⟩,
          .inr ⟨hempty, rfl, hserver.1, hserver.2, hdone, decide_eq_true hcomplete⟩⟩
      · exact .of_tally rfl
  · exact .of_tally rfl

lemma wrote_written {n : Nat} (hn : n ≤ (s.writer.mWriteBuffers.flatMap Iov.base).length)
    (hpos : 0 ≤ s.writer.mBytesWritten) (hfit : s.writer.mBytesWritten + n < 2 ^ 31) :
    Wrote n s (s.written n) := by
  obtain ⟨k, -, -, hlines⟩ :=
    advance_buffers n s.writer.mWriteBuffers s.writer.mWriteBufferStashInvalidCount
  have hstream : (s.written n).stream = s.stream := by
    simpa using (adds_written s n).stream
  refine ⟨hstream, ?_, ?_, ?_, rfl, ⟨k, hlines⟩, .inl ⟨rfl, rfl, rfl⟩⟩
  · rw [written]
    rw [sent_emit, List.length_append]
    show s.sent.length + ((s.writer.mWriteBuffers.flatMap Iov.base).take n).length = _
    rw [List.length_take, Nat.min_eq_left hn]
  · rw [written]
    rw [reported_emit]
    exact add_zero _
  · exact int32_eq (by unfold IsInt32; omega)

lemma Wrote.trans {n m : Nat} (h : Wrote n s t) (h' : Wrote m t u)
    (hsame : t.mIsServer = s.mIsServer ∧ t.parser.mPhase = s.parser.mPhase ∧ t.complete = s.complete ∧
      t.writer.mWriteCallID = s.writer.mWriteCallID ∧ t.writer.mWriteDone = s.writer.mWriteDone ∧
      t.writer.mWriting = s.writer.mWriting) : Wrote (n + m) s u where
  stream := h'.stream.trans h.stream
  sent := by rw [h'.sent, h.sent, Nat.add_assoc]
  reported := h'.reported.trans h.reported
  bytes := by rw [h'.bytes, h.bytes, Nat.cast_add, add_assoc]
  error := h'.error.trans h.error
  lines := by
    obtain ⟨k, hk⟩ := h.lines
    obtain ⟨l, hl⟩ := h'.lines
    exact ⟨k + l, by rw [hl, List.map_drop, hk, ← List.map_drop, List.drop_drop]⟩
  ended := by
    obtain ⟨hserver, hphase, hcomplete, hid, hdone, hwriting⟩ := hsame
    rcases h'.ended with ⟨hid', hdone', hwriting'⟩ | ⟨hempty, hid', hserver', hphase', hdone', hcomplete'⟩
    · exact .inl ⟨hid'.trans hid, hdone'.trans hdone, hwriting'.trans hwriting⟩
    · exact .inr ⟨hempty, hid', hserver ▸ hserver', hphase ▸ hphase', hdone ▸ hdone', hcomplete ▸ hcomplete'⟩

lemma base_written (s : LowHTTPDirect) (n : Nat) :
    ((s.written n).writer.mWriteBuffers.flatMap Iov.base).length =
      (s.writer.mWriteBuffers.flatMap Iov.base).length - n := by
  have hbase := advance_base n s.writer.mWriteBuffers s.writer.mWriteBufferStashInvalidCount
  rw [written]
  rw [← List.length_drop, ← hbase]
  rfl

/-- `DoWrite` takes bytes from the front of the queue and counts them, over the results of `writev`. -/
lemma wrote_DoWrite {results : List WritevResult} (herr : ∀ x ∈ results, x.isError = false)
    (hn : taken results ≤ (s.writer.mWriteBuffers.flatMap Iov.base).length)
    (hpos : 0 ≤ s.writer.mBytesWritten) (hfit : s.writer.mBytesWritten + taken results < 2 ^ 31) :
    ∃ n ≤ taken results, Wrote n s (s.DoWrite results) := by
  induction results generalizing s with
  | nil =>
    unfold DoWrite
    split
    · next hempty => exact ⟨0, le_rfl, wrote_responseSent hempty⟩
    · split
      · exact ⟨0, le_rfl, .of_tally rfl⟩
      · exact ⟨0, le_rfl, .of_tally rfl⟩
  | cons r results ih =>
    unfold DoWrite
    split
    · next hempty => exact ⟨0, Nat.zero_le _, wrote_responseSent hempty⟩
    · split
      · exact ⟨0, Nat.zero_le _, .of_tally rfl⟩
      · cases r with
        | size n =>
          simp only [taken] at hn hfit ⊢
          have hw : Wrote n s (s.written n) := wrote_written (by omega) hpos (by omega)
          have hbytes := hw.bytes
          obtain ⟨m, hm, hrest⟩ := ih (s := s.written n)
            (fun x hx => herr x (List.mem_cons_of_mem _ hx))
            (by rw [base_written]; omega) (by omega) (by omega)
          exact ⟨n + m, by omega, hw.trans hrest ⟨rfl, rfl, rfl, rfl, rfl, rfl⟩⟩
        | again => exact ⟨0, Nat.zero_le _, .of_tally rfl⟩
        | error errno =>
          have herror := herr _ List.mem_cons_self
          cases herror

/-! ### The invariant -/

/-- Everything that is queued and not sent is in the queue, the counter holds what is not reported, and it
is 0 unless a header has been queued last or a callback waits. A size line is queued last only where the
message is done. -/
structure Balanced (s : LowHTTPDirect) (b : Book) : Prop where
  stream : s.stream = b.queued
  counted : s.reported + s.writer.mBytesWritten = s.sent.length
  nonneg : 0 ≤ s.writer.mBytesWritten
  error : s.writer.mWriteError = false
  idle : s.writer.mWriting = false → s.writer.mWriteBuffers = []
  waits : b.opened = true ∨ s.writer.mWriteCallID ≠ 0 ∨
    s.writer.mWriteBuffers = [] ∧ s.writer.mBytesWritten = 0
  lines : s.writer.mWriteDone = false →
    ∀ x ∈ (s.writer.mWriteBuffers.map Iov.isChunkLine).getLast?, x = false

lemma stream_eq (s : LowHTTPDirect) : s.stream = s.sent ++ s.writer.mWriteBuffers.flatMap Iov.base := rfl

lemma Balanced.accounted (h : Balanced s b) : Accounted s b where
  order := ⟨_, (stream_eq s).symm.trans h.stream⟩
  complete := fun hempty => by
    rw [← h.stream, stream_eq, hempty]
    exact (List.append_nil s.sent).symm
  counted := h.counted
  told := fun hopened hid => by
    rcases h.waits with ho | hne | ⟨-, hzero⟩
    · rw [hopened] at ho
      cases ho
    · exact absurd hid hne
    · have hcounted := h.counted
      rwa [hzero, add_zero] at hcounted
  lines := fun hmay q hq => by
    have hguard := mayWrite_iff.mp hmay
    simp only [not_or, Bool.not_eq_true, not_lt] at hguard
    obtain ⟨-, -, hlen, -, hdone, -⟩ := hguard
    have hlast := h.lines hdone
    match hbuf : s.writer.mWriteBuffers with
    | [] => simp [hbuf] at hq
    | [q'] =>
      rw [hbuf, List.mem_singleton] at hq
      rw [hbuf] at hlast
      rw [hq]
      exact hlast _ (by simp)
    | _ :: _ :: _ =>
      rw [hbuf] at hlen
      simp at hlen

lemma Balanced.congr (h : Balanced s b) (heq : t.tally = s.tally) : Balanced t b := by
  simp only [tally, Prod.mk.injEq] at heq
  obtain ⟨hsent, hreported, hwriter⟩ := heq
  refine ⟨?_, ?_, ?_, ?_, ?_, ?_, ?_⟩
  · rw [stream_eq, hsent, hwriter]
    exact h.stream
  · rw [hreported, hwriter, hsent]
    exact h.counted
  · rw [hwriter]
    exact h.nonneg
  · rw [hwriter]
    exact h.error
  · rw [hwriter]
    exact h.idle
  · rw [hwriter]
    exact h.waits
  · rw [hwriter]
    exact h.lines

lemma Balanced.leaves (h : Balanced s b) (hl : Leaves s t)
    (hkeep : s.writer.mWriteCallID ≠ 0 → s.responseDone = true → t.mIsRequest = true) : Balanced t b := by
  rcases hl with hl | ⟨hdone, hl⟩
  · exact h.congr (tally_account hl)
  · have hempty := responseDone_empty hdone
    simp only [account, Prod.mk.injEq] at hl
    obtain ⟨hsent, hreported, hwriter, -, hrequest⟩ := hl
    have hsent : t.sent = s.sent := hsent
    have hreported : t.reported = s.reported := hreported
    have hwriter : t.writer = { s.writer with mWriteCallID := 0, mWriting := false, mWriteDone := false } :=
      hwriter
    have hrequest : t.mIsRequest = false := hrequest
    refine ⟨?_, ?_, ?_, ?_, ?_, ?_, ?_⟩
    · rw [stream_eq, hsent, hwriter]
      exact h.stream
    · rw [hreported, hwriter, hsent]
      exact h.counted
    · rw [hwriter]
      exact h.nonneg
    · rw [hwriter]
      exact h.error
    · rw [hwriter]
      exact fun _ => hempty
    · rw [hwriter]
      rcases h.waits with ho | hid | hzero
      · exact .inl ho
      · rw [hkeep hid hdone] at hrequest
        cases hrequest
      · exact .inr (.inr hzero)
    · rw [hwriter]
      intro _ x hx
      simp only [hempty, List.map_nil, List.getLast?_nil, Option.mem_def, reduceCtorEq] at hx

lemma Balanced.tells (h : Balanced s b) (ht : Tells s t) : Balanced t b := by
  rcases ht with ht | ⟨hempty, ht⟩
  · exact h.congr ht
  · simp only [tally, Prod.mk.injEq] at ht
    obtain ⟨hsent, hreported, hwriter⟩ := ht
    refine ⟨?_, ?_, ?_, ?_, ?_, ?_, ?_⟩
    · rw [stream_eq, hsent, hwriter]
      exact h.stream
    · rw [hreported, hwriter, hsent]
      exact (add_zero _).trans h.counted
    · rw [hwriter]
    · rw [hwriter]
      exact h.error
    · rw [hwriter]
      exact h.idle
    · rw [hwriter]
      exact .inr (.inr ⟨hempty, rfl⟩)
    · rw [hwriter]
      exact h.lines

/-- The bytes that the socket takes are in the queue. -/
lemma Wrote.le {n : Nat} (h : Wrote n s t) : n ≤ (s.writer.mWriteBuffers.flatMap Iov.base).length := by
  have hlen := congrArg List.length h.stream
  have hsent := h.sent
  rw [stream_eq, stream_eq, List.length_append, List.length_append] at hlen
  omega

lemma Wrote.all {n : Nat} (h : Wrote n s t) (hempty : t.writer.mWriteBuffers = []) :
    s.sent.length + n = s.stream.length := by
  have hlen := congrArg List.length h.stream
  rw [stream_eq t, hempty, List.flatMap_nil, List.append_nil] at hlen
  rw [← hlen, h.sent]

lemma Wrote.empty {n : Nat} (h : Wrote n s t) (hempty : s.writer.mWriteBuffers = []) :
    t.writer.mWriteBuffers = [] := by
  obtain ⟨k, hk⟩ := h.lines
  rw [hempty, List.drop_nil, List.map_nil] at hk
  exact List.map_eq_nil_iff.mp hk

lemma Balanced.wrote (h : Balanced s b) {n : Nat} (hw : Wrote n s t)
    (hkeep : b.opened = false → s.writer.mWriteCallID ≠ 0 → t.writer.mWriteCallID ≠ 0) : Balanced t b where
  stream := hw.stream.trans h.stream
  counted := by
    have hcounted := h.counted
    rw [hw.reported, hw.bytes, hw.sent, Nat.cast_add, ← hcounted, add_assoc]
  nonneg := by
    have hpos := h.nonneg
    rw [hw.bytes]
    omega
  error := hw.error.trans h.error
  idle := by
    intro hidle
    rcases hw.ended with ⟨-, -, hwriting⟩ | ⟨hempty, -⟩
    · exact hw.empty (h.idle (hwriting ▸ hidle))
    · exact hempty
  waits := by
    rcases h.waits with ho | hid | ⟨hempty, hzero⟩
    · exact .inl ho
    · cases ho : b.opened with
      | true => exact .inl rfl
      | false => exact .inr (.inl (hkeep ho hid))
    · refine .inr (.inr ⟨hw.empty hempty, ?_⟩)
      have hle := hw.le
      rw [hempty] at hle
      have hn : n = 0 := by simpa using hle
      rw [hw.bytes, hzero, hn]
      rfl
  lines := by
    intro hdone x hx
    rcases hw.ended with ⟨-, hdone', -⟩ | ⟨hempty, -⟩
    · obtain ⟨k, hk⟩ := hw.lines
      rw [hk, List.map_drop, List.getLast?_drop] at hx
      split at hx
      · cases hx
      · exact h.lines (hdone' ▸ hdone) x hx
    · rw [hempty] at hx
      cases hx

/-! ### The steps that write -/

lemma WriteHeaders_opened (hmay : s.mayWriteHeaders = true) (hempty : s.writer.mWriteBuffers = [])
    (txt : List UInt8) (len : Int) (isChunked : Bool) (results : List WritevResult) :
    s.WriteHeaders txt len isChunked results =
      unlock (((s.opened len isChunked).pushBuffer ⟨headerBytes txt isChunked, false⟩
        (s.rt.stash.last + 1)).DoWrite results) := by
  rw [LowHTTPDirect.WriteHeaders]
  rw [if_neg (mayWriteHeaders_iff.mp hmay)]
  rw [LowHTTPDirect.pushBuffer]
  simp only [opened, lock, hempty, List.nil_append, List.length_nil]
  rfl

/-- The buffers of `Write` join the queue, the size line before the data. -/
structure Queues (s : LowHTTPDirect) (data : List UInt8) (u : LowHTTPDirect) : Prop where
  log : u.rt.log = s.rt.log
  bytes : u.writer.mBytesWritten = s.writer.mBytesWritten
  error : u.writer.mWriteError = s.writer.mWriteError
  writing : u.writer.mWriting = s.writer.mWriting
  socket : u.mSocket = s.mSocket
  defined : u.rt.undefined = s.rt.undefined
  queue : u.writer.mWriteBuffers.flatMap Iov.base =
    s.writer.mWriteBuffers.flatMap Iov.base ++ writeBytes s.writer.mWriteChunkedEncoding data
  lines : u.writer.mWriteDone = false →
    ∀ x ∈ (u.writer.mWriteBuffers.map Iov.isChunkLine).getLast?, x = false

lemma queues_queueWrite (s : LowHTTPDirect) (data : List UInt8) : Queues s data (s.queueWrite data) := by
  by_cases hdata : data = []
  · rw [queueWrite]
    rw [if_pos hdata]
    dsimp only
    split
    · next hc =>
      refine ⟨rfl, rfl, rfl, rfl, rfl, rfl, ?_, fun hdone => ?_⟩
      · have hc : s.writer.mWriteChunkedEncoding = true := hc
        simp [pushBuffer, writeBytes, hdata, hc]
      · cases hdone
    · next hc =>
      refine ⟨rfl, rfl, rfl, rfl, rfl, rfl, ?_, fun hdone => ?_⟩
      · have hc : s.writer.mWriteChunkedEncoding = false := by simpa using hc
        simp [writeBytes, hdata, hc]
      · cases hdone
  · rw [queueWrite]
    rw [if_neg hdata]
    dsimp only
    split
    · next hc =>
      refine ⟨rfl, rfl, rfl, rfl, rfl, rfl, ?_, fun _ x hx => ?_⟩
      · have hc : s.writer.mWriteChunkedEncoding = true := hc
        simp [pushBuffer, writeBytes, hdata, hc]
      · simpa [pushBuffer] using hx.symm
    · next hc =>
      refine ⟨rfl, rfl, rfl, rfl, rfl, rfl, ?_, fun _ x hx => ?_⟩
      · have hc : s.writer.mWriteChunkedEncoding = false := by simpa using hc
        simp [pushBuffer, writeBytes, hdata, hc]
      · simpa [pushBuffer] using hx.symm

lemma responseSent_undefined (s : LowHTTPDirect) : s.responseSent.rt.undefined = s.rt.undefined := by
  rw [responseSent]
  split
  · split
    · split <;> rfl
    · split <;> rfl
  · rfl

lemma DoWrite_undefined (hsocket : s.mSocket = true) (hdef : s.rt.undefined = false)
    (results : List WritevResult) : (s.DoWrite results).rt.undefined = false := by
  induction results generalizing s with
  | nil =>
    unfold DoWrite
    split
    · rw [responseSent_undefined, hdef]
    · split
      · next hs => simp [hsocket] at hs
      · exact hdef
  | cons r results ih =>
    unfold DoWrite
    split
    · rw [responseSent_undefined, hdef]
    · split
      · next hs => simp [hsocket] at hs
      · cases r with
        | size n => exact ih (s := s.written n) hsocket hdef
        | again => exact hdef
        | error errno => exact hdef

/-- `Write` tells the count, or its callback waits. -/
lemma Balanced.writeOutcome (h : Balanced s b) (hdef : s.rt.undefined = false) :
    Balanced s.writeOutcome { b with opened := false } := by
  rw [LowHTTPDirect.writeOutcome]
  rw [if_neg (by simp [hdef]), if_neg (by simp [h.error])]
  split
  · next hempty =>
    refine ⟨?_, ?_, le_rfl, h.error, h.idle, .inr (.inr ⟨hempty, rfl⟩), h.lines⟩
    · rw [stream_eq, sent_emit]
      show s.sent ++ [] ++ _ = _
      rw [List.append_nil]
      exact h.stream
    · rw [reported_emit, sent_emit]
      show s.reported + s.writer.mBytesWritten + 0 = ((s.sent ++ []).length : Int)
      rw [add_zero, List.append_nil]
      exact h.counted
  · exact ⟨h.stream, h.counted, h.nonneg, h.error, h.idle, .inr (.inl (Nat.succ_ne_zero _)), h.lines⟩

/-- What `Takes` says of the queue that `DoWrite` meets. -/
lemma takes_queue (ht : Takes (s, b) i) (hstream : u.stream = (b.record s i).queued)
    (hsent : u.sent = s.sent) : taken i.results ≤ (u.writer.mWriteBuffers.flatMap Iov.base).length := by
  have hle := ht.2.1
  have hlen := congrArg List.length hstream
  rw [stream_eq, List.length_append, hsent] at hlen
  dsimp only at hle
  omega

lemma Balanced.WriteHeaders (h : Balanced s b) {txt : List UInt8} {len : Int} {isChunked : Bool}
    {results : List WritevResult} (ht : Takes (s, b) (.writeHeaders txt len isChunked results)) :
    Balanced (s.WriteHeaders txt len isChunked results)
      (b.record s (.writeHeaders txt len isChunked results)) := by
  by_cases hmay : s.mayWriteHeaders = true
  · have hempty : s.writer.mWriteBuffers = [] := by
      refine h.idle ?_
      have hnot := mayWriteHeaders_iff.mp hmay
      simpa using fun hw => hnot (.inr hw)
    have hrecord : b.record s (.writeHeaders txt len isChunked results) =
        ⟨b.queued ++ headerBytes txt isChunked, true⟩ := by
      simp [Book.record, queueing, hmay]
    have hstream : s.sent = b.queued := by
      rw [← h.stream, stream_eq, hempty]
      exact (List.append_nil s.sent).symm
    rw [WriteHeaders_opened hmay hempty]
    let u := (s.opened len isChunked).pushBuffer ⟨headerBytes txt isChunked, false⟩ (s.rt.stash.last + 1)
    have hqueue : u.writer.mWriteBuffers = [⟨headerBytes txt isChunked, false⟩] := by
      show s.writer.mWriteBuffers ++ _ = _
      rw [hempty, List.nil_append]
    have hu : Balanced u (b.record s (.writeHeaders txt len isChunked results)) := by
      refine ⟨?_, h.counted, h.nonneg, h.error, (fun hw => by cases hw), ?_, fun _ x hx => ?_⟩
      · rw [stream_eq, hqueue, hrecord]
        show s.sent ++ _ = _
        rw [hstream, List.flatMap_singleton]
      · rw [hrecord]
        exact .inl rfl
      · rw [hqueue] at hx
        simpa using hx.symm
    obtain ⟨n, -, hw⟩ := wrote_DoWrite ht.1 (takes_queue ht hu.stream rfl) hu.nonneg ht.2.2
    refine (hu.wrote hw fun hopened => ?_).congr rfl
    rw [hrecord] at hopened
    cases hopened
  · have heq : s.WriteHeaders txt len isChunked results = s :=
      if_pos (not_not.mp (mayWriteHeaders_iff.not.mp hmay))
    have hrecord : b.record s (.writeHeaders txt len isChunked results) = b := by
      simp [Book.record, queueing, hmay]
    rw [heq, hrecord]
    exact h

lemma Balanced.Write (h : Balanced s b) (hdef : s.rt.undefined = false) {data : List UInt8}
    {results : List WritevResult} (ht : Takes (s, b) (.write data results)) :
    Balanced (s.Write data results) (b.record s (.write data results)) := by
  by_cases hmay : s.mayWrite = true
  · have hguard := mayWrite_iff.mp hmay
    have hstate : s.Write data results = LowHTTPDirect.writeOutcome (unlock
        (((LowHTTPDirect.releaseSent s.writer.mWriteBufferStashInvalidCount s.lock).queueWrite data).DoWrite
          results)) := if_neg hguard
    simp only [not_or, Bool.not_eq_true, Bool.not_eq_false, Bool.not_eq_true'] at hguard
    obtain ⟨-, hwriting, -, -, -, hsocket⟩ := hguard
    obtain ⟨st, ids, hrel⟩ := releaseSent_eq s.writer.mWriteBufferStashInvalidCount s.lock
    have hq := queues_queueWrite (LowHTTPDirect.releaseSent s.writer.mWriteBufferStashInvalidCount s.lock) data
    rw [hstate]
    generalize (LowHTTPDirect.releaseSent s.writer.mWriteBufferStashInvalidCount s.lock).queueWrite data = u
      at hq ⊢
    rw [hrel] at hq
    have hsent : u.sent = s.sent := by
      rw [sent]
      rw [hq.log]
      rfl
    have hreported : u.reported = s.reported := by
      rw [reported]
      rw [hq.log]
      rfl
    have hrecord : b.record s (.write data results) =
        ⟨b.queued ++ writeBytes s.writer.mWriteChunkedEncoding data, false⟩ := by
      simp [Book.record, queueing, hmay]
    have hu : Balanced u ⟨(b.record s (.write data results)).queued, true⟩ := by
      refine ⟨?_, ?_, ?_, ?_, fun hw => ?_, .inl rfl, hq.lines⟩
      · rw [stream_eq, hsent, hq.queue, hrecord, ← h.stream, stream_eq, List.append_assoc]
        rfl
      · rw [hreported, hq.bytes, hsent]
        exact h.counted
      · rw [hq.bytes]
        exact h.nonneg
      · rw [hq.error]
        exact h.error
      · rw [hq.writing] at hw
        have hw : s.writer.mWriting = false := hw
        rw [hw] at hwriting
        cases hwriting
    have hbytes : u.writer.mBytesWritten = s.writer.mBytesWritten := hq.bytes
    obtain ⟨n, -, hw⟩ := wrote_DoWrite ht.1 (takes_queue ht hu.stream hsent) hu.nonneg
      (by rw [hbytes]; exact ht.2.2)
    have hdone := DoWrite_undefined (hq.socket.trans hsocket) (hq.defined.trans hdef) results
    have hwrote := (hu.wrote hw fun hopened => by cases hopened).congr
      (t := unlock (u.DoWrite results)) rfl
    rw [hrecord] at hwrote ⊢
    exact hwrote.writeOutcome hdone
  · have heq : s.Write data results = s.emit (.writeError .nextTick (.again "write")) :=
      if_pos (not_not.mp (mayWrite_iff.not.mp hmay))
    have hrecord : b.record s (.write data results) = b := by
      simp [Book.record, queueing, hmay]
    rw [heq, hrecord]
    refine h.congr ?_
    rw [tally]
    rw [sent_emit, reported_emit]
    simp only [Event.sentBytes, Event.count, List.append_nil, add_zero]
    rfl

lemma Wrote.start {n : Nat} (h : Wrote n u t) (heq : u.tally = s.tally) (hserver : u.mIsServer = s.mIsServer)
    (hphase : u.parser.mPhase = s.parser.mPhase) : Wrote n s t := by
  simp only [tally, Prod.mk.injEq] at heq
  obtain ⟨hsent, hreported, hwriter⟩ := heq
  obtain ⟨hs, hl, hr, hb, he, hlines, hended⟩ := h
  have hcomplete : u.complete = s.complete := by
    unfold complete
    rw [hwriter]
  rw [stream_eq u, hsent, hwriter] at hs
  rw [hsent] at hl
  rw [hreported] at hr
  rw [hwriter] at hb he hlines hended
  rw [hserver, hphase, hcomplete] at hended
  exact ⟨hs, hl, hr, hb, he, hlines, hended⟩

lemma Wrote.next {n : Nat} (h : Wrote n s u) (heq : t.tally = u.tally) : Wrote n s t := by
  simp only [tally, Prod.mk.injEq] at heq
  obtain ⟨hsent, hreported, hwriter⟩ := heq
  refine ⟨?_, by rw [hsent, h.sent], hreported.trans h.reported, ?_, ?_, ?_, ?_⟩
  · rw [stream_eq t, hsent, hwriter]
    exact h.stream
  · rw [hwriter]
    exact h.bytes
  · rw [hwriter]
    exact h.error
  · rw [hwriter]
    exact h.lines
  · rw [hwriter]
    exact h.ended

lemma wrote_onEventsWrite (h : Balanced s b) {results : List WritevResult}
    (ht : Takes (s, b) (.socketWrite results)) : ∃ n ≤ taken results, Wrote n s (s.onEventsWrite results) := by
  have hstream : s.stream = (b.record s (.socketWrite results)).queued := by
    rw [h.stream]
    exact (List.append_nil b.queued).symm
  rw [onEventsWrite]
  split
  · let u := lock { s with rt.mDirectWriteEnabled := false }
    obtain ⟨n, hn, hw⟩ := wrote_DoWrite (s := u) ht.1 (takes_queue (u := u) ht hstream rfl) h.nonneg ht.2.2
    have hw := hw.start (s := s) rfl rfl rfl
    have hcall : Wrote n s (OnSocketWrite { s with rt.mDirectWriteEnabled := false } results).2 := by
      rw [OnSocketWrite]
      dsimp only
      split
      · exact hw.next rfl
      · exact hw.next rfl
    refine ⟨n, hn, ?_⟩
    dsimp only
    split
    · exact hcall.next rfl
    · exact hcall
  · exact ⟨0, Nat.zero_le _, .of_tally rfl⟩

lemma Balanced.onEventsWrite (h : Balanced s b) {results : List WritevResult}
    (ht : Takes (s, b) (.socketWrite results)) (hr : Retains E (s, b) (.socketWrite results)) :
    Balanced (s.onEventsWrite results) b := by
  obtain ⟨n, hn, hw⟩ := wrote_onEventsWrite h ht
  refine h.wrote hw fun _ hid => ?_
  rcases hw.ended with ⟨heq, -⟩ | ⟨hempty, -, hserver, hphase, hdone, hcomplete⟩
  · rwa [heq]
  · have hall := hw.all hempty
    have hle : s.sent.length + taken results ≤ (b.queued ++ []).length := ht.2.1
    rw [h.stream] at hall
    rw [List.append_nil] at hle
    have htaken : s.sent.length + taken results = b.queued.length := by omega
    exact absurd ⟨hserver, hphase, hdone, hcomplete, htaken⟩ (hr hid)

/-! ### Runs -/

/-- An input that queues nothing leaves the record. -/
lemma record_eq (b : Book) (hq : s.queueing i = [])
    (hopened : (b.record s i).opened = b.opened) : b.record s i = b := by
  have hqueued : (b.record s i).queued = b.queued := by
    show b.queued ++ s.queueing i = b.queued
    rw [hq, List.append_nil]
  cases hb : b.record s i
  rw [hb] at hqueued hopened
  cases b
  cases hqueued
  cases hopened
  rfl

/-- What each step keeps. -/
lemma Balanced.step (h : Balanced s b) (hdel : s.rt.deleted = false) (hdef : s.rt.undefined = false)
    (ht : Takes (s, b) i) (hr : Retains E (s, b) i) :
    Balanced (LowHTTPDirect.step E s i) (b.record s i) := by
  have hstep := step_alive (E := E) hdel hdef i
  cases i with
  | setRequestCallID =>
    rw [hstep, record_eq b rfl rfl]
    refine h.congr ?_
    show s.SetRequestCallID.tally = s.tally
    rw [SetRequestCallID]
    dsimp only
    split <;> rfl
  | read len =>
    rw [record_eq b rfl rfl]
    refine h.leaves ?_ hr
    rw [hstep]
    exact reading_leaves.Read s len
  | writeHeaders txt len isChunked results =>
    rw [hstep]
    exact h.WriteHeaders ht
  | write data results =>
    rw [hstep]
    exact h.Write hdef ht
  | detach =>
    rw [hstep, record_eq b rfl rfl]
    refine h.congr ?_
    show s.Detach.tally = s.tally
    rw [Detach, tally]
    rw [sent_emit, reported_emit]
    simp only [Event.sentBytes, Event.count, List.append_nil, add_zero]
    exact tally_account (reporting_account.detach s)
  | socketRead input =>
    rw [record_eq b rfl rfl]
    refine h.leaves ?_ hr
    rw [hstep]
    exact reading_leaves.onEventsRead s input
  | socketWrite results =>
    rw [hstep, record_eq b rfl rfl]
    exact h.onEventsWrite ht hr
  | onLoop =>
    rw [hstep, record_eq b rfl rfl]
    exact h.tells (tells_OnLoop h.error)

lemma balanced_start (isServer : Bool) (u : LowHTTPDirect) : Balanced (start isServer u) ⟨[], false⟩ where
  stream := rfl
  counted := rfl
  nonneg := le_rfl
  error := rfl
  idle := fun _ => rfl
  waits := .inr (.inr ⟨rfl, rfl⟩)
  lines := fun _ x hx => by cases hx

/-- The record does not change the run. -/
lemma booked_fst (s : LowHTTPDirect) (b : Book) (is : List Input) :
    ((booked E).run (s, b) is).1 = (machine E).run s is := by
  induction is generalizing s b with
  | nil => rfl
  | cons i is ih => exact ih (LowHTTPDirect.step E s i) _

/-- In every run in which `Init` meets no callback of `Write` that waits, the socket gets what is queued, in
its order and each byte once, and the counts reported add up to what it has taken. -/
theorem run_accounted (E : Env) (isServer : Bool) (u : LowHTTPDirect) {is : List Input}
    (hok : (booked E).Guarded (fun r i => Takes r i ∧ Retains E r i) (start isServer u, ⟨[], false⟩) is) :
    Accounted ((machine E).run (start isServer u) is)
      ((booked E).run (start isServer u, ⟨[], false⟩) is).2 := by
  have hinv := Machine.run_invariant (P := fun r : LowHTTPDirect × Book => Balanced r.1 r.2)
    (fun r i h hi => ?_) (balanced_start isServer u) hok
  · rw [← booked_fst (start isServer u) ⟨[], false⟩ is]
    exact hinv.accounted
  · obtain ⟨s, b⟩ := r
    by_cases hstop : s.rt.deleted ∨ s.rt.undefined
    · have heq : (booked E).step (s, b) i = (s, b) := by
        simp only [booked, LowHTTPDirect.step, if_pos hstop]
      rw [heq]
      exact h
    · have heq : (booked E).step (s, b) i = (LowHTTPDirect.step E s i, b.record s i) := by
        simp only [booked, if_neg hstop]
      rw [heq]
      obtain ⟨hdel, hdef⟩ := not_or.mp hstop
      exact h.step (by simpa using hdel) (by simpa using hdef) hi.1 hi.2

instance (r : LowHTTPDirect × Book) (i : Input) : Decidable (Takes r i) :=
  inferInstanceAs (Decidable (_ ∧ _ ∧ _))

instance (r : LowHTTPDirect × Book) : ∀ i : Input, Decidable (Retains E r i)
  | .socketWrite _ => inferInstanceAs (Decidable (_ → ¬(_ ∧ _ ∧ _ ∧ _ ∧ _)))
  | .read _ => inferInstanceAs (Decidable (_ → _ → _))
  | .socketRead _ => inferInstanceAs (Decidable (_ → _ → _))
  | .setRequestCallID => isTrue fun _ => trivial
  | .writeHeaders .. => isTrue fun _ => trivial
  | .write .. => isTrue fun _ => trivial
  | .detach => isTrue fun _ => trivial
  | .onLoop => isTrue fun _ => trivial

/-- A request and the header of a chunked response to it, of which the socket takes 20 bytes. -/
def answering : List Input :=
  [.setRequestCallID, .socketRead (.data (bytes "GET / HTTP/1.1\r\n\r\n")), .onLoop, .onLoop,
    .writeHeaders (bytes "HTTP/1.1 200 OK\r\nTransfer-Encoding: chunked\r\n\r\n") (-1) true [.size 20, .again]]

/-- The socket takes the header and two bytes of data in three parts, and the end at once. -/
theorem answered_accounted :
    let is := answering ++ [.write [1, 2] [.again], .socketWrite [.size 26, .again], .socketWrite [.size 6],
      .onLoop, .onLoop, .write [] [.size 7]]
    Accounted ((machine deviceEnv).run (start true default) is)
      ((booked deviceEnv).run (start true default, ⟨[], false⟩) is).2 :=
  run_accounted deviceEnv true default (by decide +kernel)

/-- The web thread sends the end of the response, and nobody is told of its 52 bytes. -/
theorem answered_not_accounted :
    let is := answering ++ [.write [] [.again], .socketWrite [.size 32]]
    (booked deviceEnv).Guarded Takes (start true default, ⟨[], false⟩) is ∧
      ¬Accounted ((machine deviceEnv).run (start true default) is)
        ((booked deviceEnv).run (start true default, ⟨[], false⟩) is).2 := by
  refine ⟨by decide +kernel, fun h => ?_⟩
  have htold := h.told (by decide +kernel) (by decide +kernel)
  exact absurd htold (by decide +kernel)

end LowHTTPDirect

end LowJs.HTTPDirect
