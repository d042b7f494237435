import LowJs.HTTPDirect.ChunkDecoding
import LowJs.HTTPDirect.Readers

/-!
# What a connection writes with the chunked coding

The bytes the socket has taken and those still queued make up one stream. Only accepted calls of
`WriteHeaders` and `Write` add to it: however the socket takes the bytes and whatever else happens to
the connection, the buffers of a chunked message go out as its head and the chunked coding of the
buffers.
-/

open LowJs.HTTPDirect.Parser

namespace LowJs.HTTPDirect

/-- The bytes that an event hands to the socket. -/
def Event.sentBytes : Event → List UInt8
  | .sent data => data
  | _ => []

lemma Event.sentBytes_ofReader {e : Event} (he : e.ofReader = true) : e.sentBytes = [] := by
  cases e with
  | sent => cases he
  | _ => rfl

namespace LowHTTPDirect

variable {E : Env} {s t u : LowHTTPDirect}

/-- What the connection has written, sent or not. -/
def stream (s : LowHTTPDirect) : List UInt8 :=
  s.rt.log.flatMap Event.sentBytes ++ s.writer.mWriteBuffers.flatMap Iov.base

/-- A call of `Write` that is not answered with `EAGAIN`. -/
def Accepts (s : LowHTTPDirect) : Prop :=
  ¬(s.rt.deleted ∨ s.rt.undefined) ∧
    ¬((s.mIsServer ∧ !s.mIsRequest) ∨ !s.writer.mWriting ∨ s.writer.mWriteBuffers.length > 1 ∨
      s.writer.mWriteCallID ≠ 0 ∨ s.writer.mWriteDone ∨ !s.mSocket)

instance (s : LowHTTPDirect) : Decidable s.Accepts := inferInstanceAs (Decidable (_ ∧ _))

/-- The buffers of the accepted calls of `Write` in a run. -/
def acceptedBuffers (E : Env) : LowHTTPDirect → List Input → List (List UInt8)
  | _, [] => []
  | s, i :: is =>
    (match i with
      | .write data _ => if s.Accepts then [data] else []
      | _ => []) ++ acceptedBuffers E (step E s i) is

/-- What a buffer adds to the stream of a chunked message: its chunk size line and its bytes, or
the last chunk. The line end before the size line ends the head, or the data of the chunk before. -/
def lineAndData (data : List UInt8) : List UInt8 :=
  if data = [] then [CR, LF, 48, CR, LF, CR, LF]
  else [CR, LF] ++ hexBytes data.length ++ [CR, LF] ++ data

/-- `t` has the stream of `s`, with `bs` behind it. -/
structure Adds (s : LowHTTPDirect) (bs : List UInt8) (t : LowHTTPDirect) : Prop where
  stream : t.stream = s.stream ++ bs
  chunked : t.writer.mWriteChunkedEncoding = s.writer.mWriteChunkedEncoding

lemma Adds.of_eq (hlog : t.rt.log = s.rt.log)
    (hbuf : t.writer.mWriteBuffers = s.writer.mWriteBuffers)
    (hc : t.writer.mWriteChunkedEncoding = s.writer.mWriteChunkedEncoding) : Adds s [] t :=
  ⟨by rw [LowHTTPDirect.stream, LowHTTPDirect.stream, hlog, hbuf, List.append_nil], hc⟩

/-- The fields that `stream` does not read may change before. -/
lemma Adds.start {bs : List UInt8} (h : Adds u bs t) (hlog : u.rt.log = s.rt.log)
    (hbuf : u.writer.mWriteBuffers = s.writer.mWriteBuffers)
    (hc : u.writer.mWriteChunkedEncoding = s.writer.mWriteChunkedEncoding) : Adds s bs t :=
  ⟨by rw [h.stream, LowHTTPDirect.stream, LowHTTPDirect.stream, hlog, hbuf], h.chunked.trans hc⟩

lemma Adds.refl (s : LowHTTPDirect) : Adds s [] s := .of_eq rfl rfl rfl

lemma Adds.trans {bs cs : List UInt8} (h : Adds s bs t) (h' : Adds t cs u) : Adds s (bs ++ cs) u :=
  ⟨by rw [h'.stream, h.stream, List.append_assoc], h'.chunked.trans h.chunked⟩

lemma Adds.then (h : Adds s [] t) {bs : List UInt8} (h' : Adds t bs u) : Adds s bs u := h.trans h'

lemma Adds.next {bs : List UInt8} (h : Adds s bs t) (h' : Adds t [] u) : Adds s bs u := by
  simpa using h.trans h'

lemma Adds.of_emit {e : Event} (hlog : t.rt.log = s.rt.log ++ [e])
    (hbuf : t.writer.mWriteBuffers = s.writer.mWriteBuffers)
    (hc : t.writer.mWriteChunkedEncoding = s.writer.mWriteChunkedEncoding)
    (he : e.sentBytes = []) : Adds s [] t := by
  refine ⟨?_, hc⟩
  rw [LowHTTPDirect.stream, LowHTTPDirect.stream, hlog, hbuf, List.flatMap_append]
  simp [he]

/-! ### Writing -/

/-- The socket takes bytes from the front of the queue. -/
lemma advance_base (size : Nat) (bufs : List Iov) (invalid : Nat) :
    (advance size bufs invalid).1.flatMap Iov.base = (bufs.flatMap Iov.base).drop size := by
  induction bufs generalizing size invalid with
  | nil => simp [advance]
  | cons b bufs ih =>
    rw [advance, List.flatMap_cons]
    split
    · next hle =>
      rw [ih, List.drop_append, List.drop_eq_nil_of_le hle, List.nil_append]
    · next hlt =>
      rw [List.flatMap_cons, List.drop_append_of_le_length (by omega)]

lemma adds_written (s : LowHTTPDirect) (size : Nat) : Adds s [] (s.written size) := by
  refine ⟨?_, rfl⟩
  have hbase := advance_base size s.writer.mWriteBuffers s.writer.mWriteBufferStashInvalidCount
  simp only [stream, written, emit, hbase, List.flatMap_append, List.append_nil, List.append_assoc,
    List.append_cancel_left_eq]
  rw [List.flatMap_cons, List.flatMap_nil, List.append_nil]
  exact List.take_append_drop size _

lemma adds_responseSent (s : LowHTTPDirect) : Adds s [] s.responseSent := by
  rw [responseSent]
  split
  · split
    · split
      · exact .of_emit rfl rfl rfl rfl
      · exact .refl s
    · split
      · exact .of_eq rfl rfl rfl
      · exact .refl s
  · exact .refl s

lemma adds_DoWrite (s : LowHTTPDirect) (results : List WritevResult) : Adds s [] (s.DoWrite results) := by
  induction results generalizing s with
  | nil =>
    unfold DoWrite
    split
    · exact adds_responseSent s
    · split
      · exact .of_eq rfl rfl rfl
      · exact .refl s
  | cons r results ih =>
    unfold DoWrite
    split
    · exact adds_responseSent s
    · split
      · exact .of_eq rfl rfl rfl
      · cases r with
        | size n => exact (adds_written s n).then (ih _)
        | again => exact .refl s
        | error errno => exact .of_eq rfl rfl rfl

lemma adds_releaseSent (n : Nat) (s : LowHTTPDirect) : Adds s [] (releaseSent n s) := by
  induction n generalizing s with
  | zero => exact .of_eq rfl rfl rfl
  | succ n ih =>
    have h := ih { s.removeStash (s.writer.mWriteBufferStashID.getD 0 0) with
      writer.mWriteBufferStashID :=
        [s.writer.mWriteBufferStashID.getD 1 0, s.writer.mWriteBufferStashID.getD 2 0, 0] }
    exact ⟨h.stream, h.chunked⟩

lemma adds_writeOutcome (s : LowHTTPDirect) : Adds s [] s.writeOutcome := by
  rw [writeOutcome]
  split
  · exact .refl s
  · split
    · exact .of_emit rfl rfl rfl rfl
    · split
      · exact .of_emit rfl rfl rfl rfl
      · exact .of_eq rfl rfl rfl

lemma adds_pushBuffer (s : LowHTTPDirect) (b : Iov) (id : Nat) :
    Adds s b.base (s.pushBuffer b id) := by
  refine ⟨?_, rfl⟩
  simp [stream, pushBuffer]

/-- A buffer joins the queue of a chunked message. -/
lemma adds_queueWrite (hc : s.writer.mWriteChunkedEncoding = true) (data : List UInt8) :
    Adds s (lineAndData data) (s.queueWrite data) := by
  rw [queueWrite, lineAndData]
  by_cases hdata : data = []
  · rw [if_pos hdata, if_pos hdata]
    dsimp only
    rw [if_pos hc]
    exact (adds_pushBuffer { s with writer.mWriteDone := true }
      ⟨[CR, LF, 48, CR, LF, CR, LF], true⟩ 0).start rfl rfl rfl
  · rw [if_neg hdata, if_neg hdata]
    dsimp only
    rw [if_pos hc]
    let line : Iov := ⟨[CR, LF] ++ hexBytes data.length ++ [CR, LF], true⟩
    let u : LowHTTPDirect :=
      { s with writer.mWritePos := int32 (s.writer.mWritePos + data.length) }
    let t := u.pushBuffer line 0
    have hline : Adds s ([CR, LF] ++ hexBytes data.length ++ [CR, LF]) t :=
      (adds_pushBuffer u line 0).start rfl rfl rfl
    have hdata : Adds t data (pushBuffer { t with rt.stash := t.rt.stash.add.2 } ⟨data, false⟩
        t.rt.stash.add.1) :=
      (adds_pushBuffer { t with rt.stash := t.rt.stash.add.2 } ⟨data, false⟩ _).start rfl rfl rfl
    exact hline.trans hdata

lemma adds_Write (hc : s.writer.mWriteChunkedEncoding = true)
    (halive : ¬(s.rt.deleted ∨ s.rt.undefined)) (data : List UInt8) (results : List WritevResult) :
    Adds s (if s.Accepts then lineAndData data else []) (s.Write data results) := by
  rw [Write]
  by_cases hacc : s.Accepts
  · rw [if_pos hacc, if_neg hacc.2]
    have h₁ := adds_releaseSent s.writer.mWriteBufferStashInvalidCount s.lock
    have h₂ := adds_queueWrite (h₁.chunked.trans hc) data
    have h₃ := Adds.then (Adds.of_eq rfl rfl rfl : Adds s [] s.lock) (h₁.then h₂)
    refine (h₃.next (adds_DoWrite _ results)).next (Adds.then ?_ (adds_writeOutcome _))
    exact .of_eq rfl rfl rfl
  · rw [if_neg hacc, if_pos (not_not.mp fun hn => hacc ⟨halive, hn⟩)]
    exact .of_emit rfl rfl rfl rfl

lemma adds_onEventsWrite (s : LowHTTPDirect) (results : List WritevResult) :
    Adds s [] (s.onEventsWrite results) := by
  rw [onEventsWrite]
  split
  · have h (s : LowHTTPDirect) : Adds s [] (OnSocketWrite s results).2 := by
      rw [OnSocketWrite]
      have hw := (adds_DoWrite s.lock results).start (s := s) rfl rfl rfl
      dsimp only
      split
      · exact hw.next (.of_eq rfl rfl rfl)
      · exact hw.next (.of_eq rfl rfl rfl)
    have hw := (h { s with rt.mDirectWriteEnabled := false }).start (s := s) rfl rfl rfl
    dsimp only
    split
    · exact hw.next (.of_eq rfl rfl rfl)
    · exact hw
  · exact .refl s

/-! ### Reading -/

lemma adds_unread (h : t.unread = s.unread) : Adds s [] t := by
  simp only [unread, Prod.mk.injEq] at h
  obtain ⟨hwriter, -, -, -, -, -, hlog⟩ := h
  exact .of_eq hlog (by rw [hwriter]) (by rw [hwriter])

/-- Reading adds nothing. -/
lemma adds_reading : Reading fun s t => Adds s [] t where
  frame := adds_unread
  trans h h' := h.then h'
  emit _ _ he := .of_emit rfl rfl rfl (Event.sentBytes_ofReader he)
  init _ := .of_eq rfl rfl rfl
  wait _ _ := .of_eq rfl rfl rfl

/-! ### `OnLoop` -/

lemma adds_loopReturn (s : LowHTTPDirect) : Adds s [] s.loopReturn := by
  rw [loopReturn]
  dsimp only
  split
  · exact .of_eq rfl rfl rfl
  · exact .of_eq rfl rfl rfl

lemma adds_onLoopWrite (s : LowHTTPDirect) : Adds s [] s.onLoopWrite := by
  rw [onLoopWrite]
  split
  · dsimp only
    split
    · exact .of_emit rfl rfl rfl rfl
    · exact .of_emit rfl rfl rfl rfl
  · exact adds_loopReturn s

lemma adds_onLoopRead (s : LowHTTPDirect) : Adds s [] (s.onLoopRead E) := by
  rw [onLoopRead]
  split
  · exact adds_loopReturn s
  · split
    · dsimp only
      split
      · refine Adds.next ?_ (.of_emit rfl rfl rfl rfl)
        exact (adds_reading.detach _).start rfl rfl rfl
      · exact (adds_reading.reportRead _ _).start rfl rfl rfl
    · exact adds_onLoopWrite s

lemma adds_onLoopError (s : LowHTTPDirect) : Adds s [] (s.onLoopError E) := by
  rw [onLoopError]
  split
  · refine Adds.next ?_ (.of_emit rfl rfl rfl rfl)
    exact (adds_reading.detach _).start rfl rfl rfl
  · exact adds_onLoopRead s

lemma adds_OnLoop (s : LowHTTPDirect) : Adds s [] (s.OnLoop E) := by
  rw [OnLoop]
  split
  · split
    · rw [onLoopRequest]
      dsimp only
      have hq : Adds s [] { s with rt.loopQueued := false } := .of_eq rfl rfl rfl
      refine hq.then ?_
      split
      · refine Adds.then ?_ (adds_loopReturn _)
        split
        · exact adds_reading.detach _
        · exact .refl _
      · split
        · exact adds_onLoopError _
        · split
          · split
            · exact .of_eq rfl rfl rfl
            · exact .of_emit rfl rfl rfl rfl
          · exact adds_onLoopError _
    · exact .refl s
  · exact adds_onLoopError s
  · exact adds_onLoopRead s
  · exact adds_onLoopWrite s
  · exact adds_loopReturn s

/-! ### A chunked message -/

/-- A step adds what an accepted call of `Write` writes, and nothing else. -/
lemma adds_step (hc : s.writer.mWriteChunkedEncoding = true) {i : Input}
    (hi : ∀ txt len isChunked results, i ≠ .writeHeaders txt len isChunked results) :
    Adds s ((acceptedBuffers E s [i]).flatMap lineAndData) (step E s i) := by
  by_cases halive : s.rt.deleted ∨ s.rt.undefined
  · have heq : step E s i = s := if_pos halive
    have hacc : ¬s.Accepts := fun h => h.1 halive
    rw [heq]
    cases i with
    | write data results =>
      simp only [acceptedBuffers, if_neg hacc, List.append_nil, List.flatMap_nil]
      exact .refl s
    | _ => exact .refl s
  · cases i with
    | write data results =>
      rw [step, if_neg halive]
      have h := adds_Write hc halive data results
      by_cases hacc : s.Accepts
      · rw [if_pos hacc] at h
        simpa [acceptedBuffers, hacc] using h
      · rw [if_neg hacc] at h
        simpa [acceptedBuffers, hacc] using h
    | setRequestCallID =>
      change Adds s [] (step E s .setRequestCallID)
      rw [step, if_neg halive]
      rw [SetRequestCallID]
      dsimp only
      split
      · exact .of_eq rfl rfl rfl
      · exact .of_eq rfl rfl rfl
    | read len =>
      change Adds s [] (step E s (.read len))
      rw [step, if_neg halive]
      exact adds_reading.Read s len
    | writeHeaders txt len isChunked results => exact absurd rfl (hi txt len isChunked results)
    | detach =>
      change Adds s [] (step E s .detach)
      rw [step, if_neg halive]
      exact (adds_reading.detach s).next (.of_emit rfl rfl rfl rfl)
    | socketRead input =>
      change Adds s [] (step E s (.socketRead input))
      rw [step, if_neg halive]
      exact adds_reading.onEventsRead s input
    | socketWrite results =>
      change Adds s [] (step E s (.socketWrite results))
      rw [step, if_neg halive]
      exact adds_onEventsWrite s results
    | onLoop =>
      change Adds s [] (step E s .onLoop)
      rw [step, if_neg halive]
      exact adds_OnLoop s

/-- A run adds what its accepted calls of `Write` write, in their order. -/
lemma adds_run (hc : s.writer.mWriteChunkedEncoding = true) {is : List Input}
    (his : ∀ txt len isChunked results, .writeHeaders txt len isChunked results ∉ is) :
    Adds s ((acceptedBuffers E s is).flatMap lineAndData) ((machine E).run s is) := by
  induction is generalizing s with
  | nil => exact .refl s
  | cons i is ih =>
    have hstep := adds_step (E := E) hc (i := i) fun txt len isChunked results hi =>
      his txt len isChunked results (hi ▸ List.mem_cons_self)
    have hrun := ih (s := step E s i) (hstep.chunked.trans hc) fun txt len isChunked results hi =>
      his txt len isChunked results (List.mem_cons_of_mem i hi)
    have heq : acceptedBuffers E s (i :: is) =
        acceptedBuffers E s [i] ++ acceptedBuffers E (step E s i) is := by
      simp [acceptedBuffers]
    rw [heq, List.flatMap_append]
    exact hstep.trans hrun

/-- A call of `WriteHeaders` that starts a message. -/
def Starts (s : LowHTTPDirect) : Prop :=
  ¬(s.rt.deleted ∨ s.rt.undefined) ∧ ¬((s.mIsServer ∧ !s.mIsRequest) ∨ s.writer.mWriting)

/-- The head of a chunked message goes out without its last line end. -/
lemma adds_WriteHeaders (h : s.Starts) {head : List UInt8} (hhead : 0 ∉ head) (len : Int)
    (results : List WritevResult) :
    (step E s (.writeHeaders (head ++ [CR, LF]) len true results)).stream =
        s.rt.log.flatMap Event.sentBytes ++ head ∧
      (step E s (.writeHeaders (head ++ [CR, LF]) len true results)).writer.mWriteChunkedEncoding =
        true := by
  have hall : (head ++ [CR, LF]).takeWhile (· ≠ 0) = head ++ [CR, LF] := by
    refine List.takeWhile_eq_self_iff.mpr fun c hc => ?_
    rcases List.mem_append.mp hc with hc | hc
    · exact decide_eq_true fun h0 => hhead (h0 ▸ hc)
    · simp only [List.mem_cons, List.not_mem_nil, or_false] at hc
      rcases hc with rfl | rfl <;> decide
  have htake : (head ++ [CR, LF]).take ((head ++ [CR, LF]).length - 2) = head := by
    simp
  rw [step, if_neg h.1, WriteHeaders, if_neg h.2]
  dsimp only
  rw [hall, if_pos rfl, htake]
  let t : LowHTTPDirect := { s.lock with
    writer.mWriting := true
    writer.mWritePos := 0
    writer.mWriteLen := len
    writer.mWriteChunkedEncoding := true
    writer.mWriteBuffers := [⟨head, false⟩]
    writer.mWriteBufferStashID := s.writer.mWriteBufferStashID.set 0 s.rt.stash.add.1
    rt.stash := s.rt.stash.add.2 }
  have hw := adds_DoWrite t results
  have hstream : t.stream = s.rt.log.flatMap Event.sentBytes ++ head := by
    simp [t, stream, lock]
  exact ⟨by rw [← hstream, ← List.append_nil t.stream, ← hw.stream]; rfl, hw.chunked⟩

/-- The buffers of a message, with the empty one that ends it, are written as the chunked coding of
the message behind the line end that the head has left out. -/
lemma lineAndData_chunked {datas : List (List UInt8)} (hdatas : ∀ d ∈ datas, d ≠ []) :
    (datas ++ [[]]).flatMap lineAndData = [CR, LF] ++ chunked datas := by
  induction datas with
  | nil => rfl
  | cons d datas ih =>
    have hd := hdatas d List.mem_cons_self
    rw [List.cons_append, List.flatMap_cons, ih fun d hd => hdatas d (List.mem_cons_of_mem _ hd),
      chunked_cons, lineAndData, if_neg hd, chunk]
    simp

/-! ### Writes that the socket takes at once -/

lemma releaseSent_eq (n : Nat) (s : LowHTTPDirect) : ∃ st ids, releaseSent n s = { s with
    writer.mWriteBufferStashID := ids
    writer.mWriteBufferStashInvalidCount := 0
    rt.stash := st } := by
  induction n generalizing s with
  | zero => exact ⟨s.rt.stash, s.writer.mWriteBufferStashID, rfl⟩
  | succ n ih =>
    rw [releaseSent]
    dsimp only
    obtain ⟨st, ids, heq⟩ := ih { s.removeStash (s.writer.mWriteBufferStashID.getD 0 0) with
      writer.mWriteBufferStashID :=
        [s.writer.mWriteBufferStashID.getD 1 0, s.writer.mWriteBufferStashID.getD 2 0, 0] }
    exact ⟨st, ids, heq⟩

lemma advance_all {bufs : List Iov} {size invalid : Nat}
    (h : (bufs.flatMap Iov.base).length ≤ size) : (advance size bufs invalid).1 = [] := by
  induction bufs generalizing size invalid with
  | nil => rfl
  | cons b bufs ih =>
    simp only [List.flatMap_cons, List.length_append] at h
    rw [advance, if_pos (by omega)]
    exact ih (by omega)

/-- A connection on which the socket has taken everything that was written. -/
structure Ready (s : LowHTTPDirect) : Prop where
  alive : ¬(s.rt.deleted ∨ s.rt.undefined)
  server : ¬(s.mIsServer ∧ !s.mIsRequest)
  socket : s.mSocket = true
  writing : s.writer.mWriting = true
  chunked : s.writer.mWriteChunkedEncoding = true
  sent : s.writer.mWriteBuffers = []
  callID : s.writer.mWriteCallID = 0
  done : s.writer.mWriteDone = false
  error : s.writer.mWriteError = false

lemma Ready.accepts (h : Ready s) : s.Accepts := by
  refine ⟨h.alive, ?_⟩
  rintro (hserver | hn | hn | hn | hn | hn)
  · exact h.server hserver
  · simp [h.writing] at hn
  · simp [h.sent] at hn
  · exact hn h.callID
  · simp [h.done] at hn
  · simp [h.socket] at hn

/-- A buffer that the socket takes at once leaves the connection ready for the next one. -/
lemma Ready.write (h : Ready s) {d : List UInt8} (hd : d ≠ []) {n : Nat}
    (hn : (lineAndData d).length ≤ n) : Ready (s.Write d [.size n]) := by
  obtain ⟨st, ids, heq⟩ := releaseSent_eq s.writer.mWriteBufferStashInvalidCount s.lock
  rw [lineAndData, if_neg hd] at hn
  have hall (invalid : Nat) : (advance n
      [⟨CR :: LF :: (hexBytes d.length ++ [CR, LF]), true⟩, ⟨d, false⟩] invalid).1 = [] :=
    advance_all (by simpa using hn)
  have hund : s.rt.undefined = false := by simpa using fun hu => h.alive (.inr hu)
  rw [Write]
  rw [if_neg h.accepts.2, heq]
  simp only [queueWrite, if_neg hd, lock, h.chunked, if_true, pushBuffer, h.sent, List.nil_append,
    List.cons_append, DoWrite, h.socket, written, hall, responseSent, h.done, emit, unlock,
    writeOutcome, hund, h.error]
  simp only [reduceCtorEq, if_false, if_true, Bool.not_true, Bool.false_eq_true]
  exact ⟨by simpa [hund] using h.alive, h.server, rfl, h.writing, rfl, rfl, h.callID, rfl, rfl⟩

/-- The head of a message that announces the chunked coding, without its last line end. -/
def chunkedHead : List UInt8 := bytes "POST / HTTP/1.1\r\nTransfer-Encoding: chunked\r\n"

/-- The parser of a server that has received the head. -/
def behindHead : Parser :=
  match feeds deviceEnv true (start true default).parser (chunkedHead ++ [CR, LF]) with
  | .next p => p
  | _ => default

lemma behindHead_atSize : AtSize behindHead 0 [] := by
  have hfields : behindHead.mPhase = .chunkHeader ∧ behindHead.mChunkedHeaderLine = [] ∧
      behindHead.mChunkedEncoding = true ∧ behindHead.mAtTrailer = true ∧
      behindHead.mContentLen = 0 ∧ behindHead.mDataLen = 0 ∧
      behindHead.mParamStart = behindHead.mParamPos := by decide +kernel
  obtain ⟨hphase, hline, hchunked, htrailer, hlen, hdata, hpos⟩ := hfields
  refine ⟨⟨?_, ?_, ?_, ?_, ?_, ?_⟩, hphase, hline, hchunked, htrailer, hlen, hdata, .inr hpos⟩
  · rw [hlen]
    decide
  · simp [hdata]
  · exact fun _ => htrailer
  · exact fun hn => absurd htrailer hn
  · exact fun _ => ⟨by rw [hlen, hdata], by simp [hline]⟩
  · simp [hphase]

/-- A client that has sent the head. -/
def headSent : LowHTTPDirect :=
  step deviceEnv (start false default) (.writeHeaders (chunkedHead ++ [CR, LF]) (-1) true [.size 49])

lemma headSent_ready : Ready headSent := by
  have hfields : (¬(headSent.rt.deleted ∨ headSent.rt.undefined) ∧
      ¬(headSent.mIsServer ∧ !headSent.mIsRequest) ∧ headSent.mSocket = true) ∧
      headSent.writer.mWriting = true ∧ headSent.writer.mWriteChunkedEncoding = true ∧
      headSent.writer.mWriteBuffers = [] ∧ headSent.writer.mWriteCallID = 0 ∧
      headSent.writer.mWriteDone = false ∧ headSent.writer.mWriteError = false := by decide +kernel
  obtain ⟨⟨halive, hserver, hsocket⟩, hwriting, hchunked, hsent, hcall, hdone, herror⟩ := hfields
  exact ⟨halive, hserver, hsocket, hwriting, hchunked, hsent, hcall, hdone, herror⟩

lemma acceptedBuffers_twice {d : List UInt8} (hd : d ≠ []) {n : Nat}
    (hn : (lineAndData d).length ≤ n) (h : Ready s) :
    acceptedBuffers E s [.write d [.size n], .write d [.size n], .write [] []] = [d, d, []] := by
  have h₁ := h.write hd hn
  have h₂ := h₁.write hd hn
  simp only [acceptedBuffers, step, if_neg h.alive, if_pos h.accepts, if_neg h₁.alive,
    if_pos h₁.accepts, if_pos h₂.accepts]
  rfl

lemma headSent_starts : (start false default).Starts := by
  constructor <;> decide +kernel

/-! ### The round trip -/

end LowHTTPDirect

end LowJs.HTTPDirect
