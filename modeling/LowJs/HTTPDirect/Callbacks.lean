import LowJs.HTTPDirect.Lengths
import LowJs.HTTPDirect.ReadPaths

/-!
# The callbacks of `Read` and `Write`

Every call of `Read` and of `Write` is answered at once, or its callback waits under a stash index
in `mReadCallID` or `mWriteCallID` until `OnLoop` calls it. Three branches let a pending callback down:
`Init`, the report of an error to the request callback, and the early returns of `OnLoop`, which
leave a finished operation unreported.
-/

open LowJs.HTTPDirect.Parser

namespace LowJs.HTTPDirect

/-- How the event calls a callback of `Read` or `Write`. -/
def Event.via : Event → Option Via
  | .read via _ _ => some via
  | .readEnd via _ _ _ => some via
  | .readError via _ => some via
  | .write via _ => some via
  | .writeError via _ => some via
  | _ => none

/-- The stash index of the callback that the event calls. -/
def Event.stashID (e : Event) : Option Nat :=
  match e.via with
  | some (.stash id) => some id
  | _ => none

/-- A call of `Read` or `Write`, which brings a callback along. -/
def LowHTTPDirect.Input.calls : LowHTTPDirect.Input → Bool
  | .read _ => true
  | .write .. => true
  | _ => false

namespace LowHTTPDirect

variable {E : Env} {s t u : LowHTTPDirect} {n : Nat}

/-- The number of calls answered at once. -/
def answered (s : LowHTTPDirect) : Nat := s.rt.log.countP fun e => e.via = some .nextTick

/-- The stash indices of the callbacks that have been called. -/
def called (s : LowHTTPDirect) : List Nat := s.rt.log.filterMap Event.stashID

/-- The stash indices of the callbacks that wait. -/
def pending (s : LowHTTPDirect) : List Nat :=
  (if s.reader.mReadCallID ≠ 0 then [s.reader.mReadCallID] else []) ++
    if s.writer.mWriteCallID ≠ 0 then [s.writer.mWriteCallID] else []

/-- There is something to tell the reader. -/
def ReadReady (s : LowHTTPDirect) : Prop :=
  s.reader.mReadPos ≠ 0 ∨ s.parser.mPhase = .sendingResponse ∨ (s.mSocket ∧ s.mReadError) ∨
    s.mClosed ∨ s.mHTTPError

/-- There is something to tell the writer. -/
def WriteReady (s : LowHTTPDirect) : Prop :=
  s.writer.mWriteBuffers = [] ∨ (s.mSocket ∧ s.writer.mWriteError)

/-- After `n` calls of `Read` and `Write`: each has been answered, or its callback has been called
once or waits; and where `OnLoop` neither runs nor is queued, what waits is not finished. -/
structure CallsBack (n : Nat) (s : LowHTTPDirect) : Prop where
  calls : n = s.answered + s.rt.accepted.length
  accounted : s.rt.accepted.Perm (s.called ++ s.pending)
  nodup : s.rt.accepted.Nodup
  prompt : s.rt.loopQueued = false → s.rt.inLoop = none →
    (s.reader.mReadCallID ≠ 0 → ¬s.ReadReady) ∧ (s.writer.mWriteCallID ≠ 0 → ¬s.WriteReady)

/-! ### What breaks it -/

/-- The iteration of the byte loop ends a message whose response is finished, while a callback
waits. -/
def DropsAt (E : Env) (s : LowHTTPDirect) : List UInt8 → Prop
  | [] => False
  | c :: rest =>
    s.responseDone ∧ s.pending ≠ [] ∧ s.parser.mPhase ≠ .sendingResponse ∧
      (s.awaiting.socketByte E c rest).1 = .next ∧
      (s.awaiting.socketByte E c rest).2.1.parser.mPhase = .sendingResponse

/-- The socket takes all that is in the queue. -/
def Flushes (s : LowHTTPDirect) : List WritevResult → Prop
  | .size k :: results => s.writer.mWriteBuffers = [] ∨ s.mSocket ∧ (s.written k).Flushes results
  | _ => s.writer.mWriteBuffers = []

/-- `DoWrite` ends the response to a request that has been read, while a callback waits. -/
def DropsSent (s : LowHTTPDirect) (results : List WritevResult) : Prop :=
  s.Flushes results ∧ s.writer.mWriteDone ∧
    ¬(!s.writer.mWriteChunkedEncoding ∧
      (s.writer.mWriteLen < 0 ∨ s.writer.mWritePos ≠ s.writer.mWriteLen)) ∧
    s.mIsServer ∧ s.parser.mPhase = .sendingResponse ∧ s.pending ≠ []

/-- The state in which an input has `DoWrite` called, with the results of `writev`. -/
def sending (s : LowHTTPDirect) : Input → Option (LowHTTPDirect × List WritevResult)
  | .writeHeaders txt len isChunked results =>
    if (s.mIsServer ∧ !s.mIsRequest) ∨ s.writer.mWriting then none
    else
      let txt := txt.takeWhile (· ≠ 0)
      let txt := if isChunked then txt.take (txt.length - 2) else txt
      let (id, st) := s.rt.stash.add
      some ({ s.lock with
        writer.mWriting := true
        writer.mWritePos := 0
        writer.mWriteLen := len
        writer.mWriteChunkedEncoding := isChunked
        writer.mWriteBuffers := [⟨txt, false⟩]
        writer.mWriteBufferStashID := s.writer.mWriteBufferStashID.set 0 id
        rt.stash := st }, results)
  | .write data results =>
    if (s.mIsServer ∧ !s.mIsRequest) ∨ !s.writer.mWriting ∨ s.writer.mWriteBuffers.length > 1 ∨
        s.writer.mWriteCallID ≠ 0 ∨ s.writer.mWriteDone ∨ !s.mSocket then none
    else
      some ((releaseSent s.writer.mWriteBufferStashInvalidCount s.lock).queueWrite data, results)
  | .socketWrite results =>
    if s.mSocket ∧ s.rt.mDirectWriteEnabled then
      some (lock { s with rt.mDirectWriteEnabled := false }, results)
    else none
  | _ => none

/-- The read callback that waits is not called, as the request callback gets the error. -/
def RejectsRead (s : LowHTTPDirect) : Prop :=
  s.mIsRequest = true ∧ s.reader.mReadCallID ≠ 0 ∧
    ((s.mSocket ∧ s.mReadError) ∨ s.mHTTPError)

/-- An operation is finished whose callback waits. -/
def Unreported (s : LowHTTPDirect) : Prop :=
  s.mSocket = true ∧
    ((s.reader.mReadCallID ≠ 0 ∧ s.ReadReady) ∨ (s.writer.mWriteCallID ≠ 0 ∧ s.WriteReady))

/-- `OnLoop` gets to the read callback and does not let a callback go there. -/
def PassesOn (s : LowHTTPDirect) : Prop :=
  ¬s.RejectsRead ∧ (s.mIsRequest = false → ¬s.Unreported)

/-- `OnLoop` has headers for the request callback. -/
def headersReady (s : LowHTTPDirect) : Bool :=
  match s.parser.mParamFirst with
  | none => false
  | some b => !s.mIsRequest && (s.parser.heap b).type = .header && s.parser.mAtTrailer

/-- `OnLoop` has an error for the request callback. -/
def errorReady (s : LowHTTPDirect) : Bool :=
  !s.mIsRequest && (s.mClosed || (s.mSocket && s.mReadError) || s.mHTTPError)

/-- The piece of `OnLoop` that runs next lets no callback go. -/
def LoopKeeps (s : LowHTTPDirect) : Prop :=
  match s.rt.inLoop with
  | none =>
    (s.mRequestCallID = 0 → ¬s.Unreported) ∧
      (s.headersReady = false → s.errorReady = false → s.PassesOn)
  | some .request => s.errorReady = false → s.PassesOn
  | some .error => s.PassesOn
  | _ => True

/-- The input lets no callback go that waits. -/
def Keeps (E : Env) (s : LowHTTPDirect) (i : Input) : Prop :=
  s.LoopMeets E (fun s data => ¬s.DropsAt E data) i ∧
    (∀ t results, s.sending i = some (t, results) → ¬t.DropsSent results) ∧
    (i = .onLoop → s.LoopKeeps)

/-! ### The invariant -/

/-- Callbacks are called or wait, each under an index of its own. -/
structure Owes (n : Nat) (s : LowHTTPDirect) : Prop where
  calls : n = s.answered + s.rt.accepted.length
  accounted : s.rt.accepted.Perm (s.called ++ s.pending)
  nodup : s.rt.accepted.Nodup
  below : ∀ id ∈ s.rt.accepted, id ≤ s.rt.stash.last
  reading : s.reader.mReadCallID ≠ 0 → s.reader.mReadData ≠ none ∧ s.mRequestCallID ≠ 0
  request : s.mIsRequest = true → s.mRequestCallID ≠ 0
  writing : s.writer.mWriteCallID ≠ 0 → s.writer.mWriting = true

/-- `t` has the callbacks of `s`. -/
structure Eased (s t : LowHTTPDirect) : Prop where
  log : ∃ es, t.rt.log = s.rt.log ++ es ∧ ∀ e ∈ es, e.via = none
  accepted : t.rt.accepted = s.rt.accepted
  last : s.rt.stash.last ≤ t.rt.stash.last
  readID : t.reader.mReadCallID = s.reader.mReadCallID
  writeID : t.writer.mWriteCallID = s.writer.mWriteCallID
  readData : s.reader.mReadData ≠ none → t.reader.mReadData ≠ none
  isRequest : t.mIsRequest = s.mIsRequest
  requestID : s.mRequestCallID ≠ 0 → t.mRequestCallID ≠ 0
  writing : s.writer.mWriting = true → t.writer.mWriting = true

lemma log_of_eq (h : t.rt.log = s.rt.log) :
    ∃ es, t.rt.log = s.rt.log ++ es ∧ ∀ e ∈ es, e.via = none :=
  ⟨[], by rw [h, List.append_nil], by simp⟩

lemma log_of_emit {e : Event} (h : t.rt.log = s.rt.log ++ [e]) (he : e.via = none) :
    ∃ es, t.rt.log = s.rt.log ++ es ∧ ∀ e ∈ es, e.via = none :=
  ⟨[e], h, by simpa using he⟩

/-- What `Eased` is about. -/
def ledger (s : LowHTTPDirect) :=
  (s.rt.log, s.rt.accepted, s.rt.stash.last, s.reader.mReadCallID, s.writer.mWriteCallID,
    s.reader.mReadData, s.mIsRequest, s.mRequestCallID, s.writer.mWriting)

lemma Eased.of_ledger (h : t.ledger = s.ledger) : Eased s t := by
  simp only [ledger, Prod.mk.injEq] at h
  obtain ⟨hlog, haccepted, hlast, hread, hwrite, hdata, hrequest, hid, hwriting⟩ := h
  exact ⟨log_of_eq hlog, haccepted, hlast.ge, hread, hwrite, fun hd => by rwa [hdata], hrequest,
    fun hne => by rwa [hid], fun hw => by rwa [hwriting]⟩

lemma Eased.refl (s : LowHTTPDirect) : Eased s s := .of_ledger rfl

lemma Eased.trans (h : Eased s t) (h' : Eased t u) : Eased s u := by
  obtain ⟨es, hes, hsilent⟩ := h.log
  obtain ⟨es', hes', hsilent'⟩ := h'.log
  refine ⟨⟨es ++ es', by rw [hes', hes, List.append_assoc], fun e he => ?_⟩,
    h'.accepted.trans h.accepted, h.last.trans h'.last, h'.readID.trans h.readID,
    h'.writeID.trans h.writeID, fun hd => h'.readData (h.readData hd),
    h'.isRequest.trans h.isRequest, fun hr => h'.requestID (h.requestID hr),
    fun hw => h'.writing (h.writing hw)⟩
  exact (List.mem_append.mp he).elim (hsilent e) (hsilent' e)

lemma Eased.answered (h : Eased s t) : t.answered = s.answered := by
  obtain ⟨es, hes, hsilent⟩ := h.log
  have hnone : es.countP (fun e => e.via = some .nextTick) = 0 :=
    List.countP_eq_zero.mpr fun e he => by simp [hsilent e he]
  rw [LowHTTPDirect.answered, hes, List.countP_append, hnone]
  rfl

lemma Eased.called (h : Eased s t) : t.called = s.called := by
  obtain ⟨es, hes, hsilent⟩ := h.log
  have hnone : es.filterMap Event.stashID = [] :=
    List.filterMap_eq_nil_iff.mpr fun e he => by simp [Event.stashID, hsilent e he]
  rw [LowHTTPDirect.called, hes, List.filterMap_append, hnone, List.append_nil]
  rfl

lemma Eased.pending (h : Eased s t) : t.pending = s.pending := by
  rw [LowHTTPDirect.pending, h.readID, h.writeID]
  rfl

lemma Owes.eased (h : Owes n s) (he : Eased s t) : Owes n t where
  calls := by rw [he.answered, he.accepted]; exact h.calls
  accounted := by rw [he.accepted, he.called, he.pending]; exact h.accounted
  nodup := by rw [he.accepted]; exact h.nodup
  below := by
    rw [he.accepted]
    exact fun id hid => (h.below id hid).trans he.last
  reading := by
    rw [he.readID]
    exact fun hid => ⟨he.readData (h.reading hid).1, he.requestID (h.reading hid).2⟩
  request := by
    rw [he.isRequest]
    exact fun hr => he.requestID (h.request hr)
  writing := by
    rw [he.writeID]
    exact fun hid => he.writing (h.writing hid)

lemma pending_eq_nil : s.pending = [] ↔ s.reader.mReadCallID = 0 ∧ s.writer.mWriteCallID = 0 := by
  rw [pending]
  by_cases hr : s.reader.mReadCallID = 0 <;> by_cases hw : s.writer.mWriteCallID = 0 <;> simp [hr, hw]

/-- `Init` lets no callback go if none waits. -/
lemma Owes.init (h : Owes n s) (hw : s.pending = []) : Owes n s.init := by
  obtain ⟨hread, hwrite⟩ := pending_eq_nil.mp hw
  have hst : s.init.rt.stash.last = s.rt.stash.last := by simp [LowHTTPDirect.init, hread, hwrite]
  refine ⟨h.calls, ?_, h.nodup, fun id hid => ?_, fun hid => absurd rfl hid, fun hr => ?_,
    fun hid => absurd rfl hid⟩
  · have hacc := h.accounted
    rw [hw] at hacc
    exact hacc
  · rw [hst]
    exact h.below id hid
  · cases hr

/-- A call is answered at once. -/
lemma Owes.answer (h : Owes n s) {e : Event} (he : e.via = some .nextTick) :
    Owes (n + 1) (s.emit e) := by
  have hcalled : (s.emit e).called = s.called := by
    simp [called, emit, Event.stashID, he]
  refine ⟨?_, ?_, h.nodup, h.below, h.reading, h.request, h.writing⟩
  · have hanswered : (s.emit e).answered = s.answered + 1 := by simp [answered, emit, he]
    rw [hanswered, h.calls]
    change s.answered + s.rt.accepted.length + 1 = s.answered + 1 + s.rt.accepted.length
    omega
  · rw [hcalled]
    exact h.accounted

lemma Owes.fresh (h : Owes n s) : s.rt.stash.last + 1 ∉ s.rt.accepted := fun hmem =>
  absurd (h.below _ hmem) (by omega)

/-! ### Promptness -/

/-- `OnLoop` is queued, or has not got to the read callback yet. -/
def Awake (s : LowHTTPDirect) : Prop :=
  s.rt.loopQueued = true ∨ s.rt.inLoop = some .request ∨ s.rt.inLoop = some .error

/-- Callbacks wait only for what `OnLoop` will get to. -/
structure Owing (n : Nat) (s : LowHTTPDirect) : Prop where
  owes : Owes n s
  read : s.reader.mReadCallID ≠ 0 → s.ReadReady → s.Awake
  write : s.writer.mWriteCallID ≠ 0 → s.WriteReady → s.Awake ∨ s.rt.inLoop = some .read

/-- `t` has nothing to tell that `s` has not, and `OnLoop` will run where it was to run. -/
structure Lulled (s t : LowHTTPDirect) : Prop where
  queued : s.rt.loopQueued = true → t.rt.loopQueued = true
  inLoop : t.rt.inLoop = s.rt.inLoop
  read : t.reader.mReadCallID ≠ 0 → s.reader.mReadCallID ≠ 0 ∧ (t.ReadReady → s.ReadReady)
  writeID : t.writer.mWriteCallID ≠ 0 → s.writer.mWriteCallID ≠ 0

/-- What `Lulled` is about. -/
def agenda (s : LowHTTPDirect) :=
  (s.rt.loopQueued, s.rt.inLoop, s.reader.mReadCallID, s.writer.mWriteCallID, s.reader.mReadPos,
    s.parser.mPhase, s.mSocket, s.mReadError, s.mClosed, s.mHTTPError)

lemma Lulled.of_agenda (h : t.agenda = s.agenda) : Lulled s t := by
  simp only [agenda, Prod.mk.injEq] at h
  obtain ⟨hqueued, hloop, hread, hwrite, hpos, hphase, hsock, hre, hc, hhe⟩ := h
  refine ⟨fun hq => hqueued.trans hq, hloop, fun hne => ⟨by rwa [← hread], fun hr => ?_⟩,
    fun hne => by rwa [← hwrite]⟩
  unfold ReadReady at hr ⊢
  rwa [hpos, hphase, hsock, hre, hc, hhe] at hr

lemma Lulled.refl (s : LowHTTPDirect) : Lulled s s := .of_agenda rfl

lemma Lulled.trans (h : Lulled s t) (h' : Lulled t u) : Lulled s u := by
  refine ⟨fun hq => h'.queued (h.queued hq), h'.inLoop.trans h.inLoop, fun hid => ?_,
    fun hid => h.writeID (h'.writeID hid)⟩
  obtain ⟨hid', hready'⟩ := h'.read hid
  obtain ⟨hid, hready⟩ := h.read hid'
  exact ⟨hid, fun hr => hready (hready' hr)⟩

lemma Lulled.awake (h : Lulled s t) (ha : s.Awake) : t.Awake := by
  unfold Awake at ha ⊢
  rw [h.inLoop]
  exact ha.imp_left h.queued

lemma Owing.of_lulled (h : Owing n s) {m : Nat} (hl : Lulled s t) (ho : Owes m t)
    (hw : t.writer.mWriteCallID ≠ 0 → t.WriteReady →
      s.WriteReady ∨ t.Awake ∨ t.rt.inLoop = some .read) : Owing m t := by
  refine ⟨ho, fun hid hr => ?_, fun hid hr => ?_⟩
  · obtain ⟨hid, hready⟩ := hl.read hid
    exact hl.awake (h.read hid (hready hr))
  · rcases hw hid hr with hr | hawake
    · rw [hl.inLoop]
      exact (h.write (hl.writeID hid) hr).imp_left hl.awake
    · exact hawake

lemma lulled_detach (s : LowHTTPDirect) : Lulled s s.detach := by
  rw [detach]
  split
  · refine ⟨fun _ => rfl, rfl, fun hid => ⟨hid, ?_⟩, id⟩
    rintro (hr | hr | ⟨hr, -⟩ | hr)
    · exact .inl hr
    · exact .inr (.inl hr)
    · cases hr
    · exact .inr (.inr (.inr hr))
  · exact .refl s

lemma eased_detach (s : LowHTTPDirect) : Eased s s.detach := by
  rw [detach]
  split
  · exact .of_ledger rfl
  · exact .refl s

lemma writeReady_detach (h : s.detach.WriteReady) : s.WriteReady := by
  unfold detach at h
  split at h
  · rcases h with h | ⟨h, -⟩
    · exact .inl h
    · cases h
  · exact h

/-! ### Writing -/

lemma eased_written (s : LowHTTPDirect) (k : Nat) : Eased s (s.written k) :=
  ⟨log_of_emit rfl rfl, rfl, le_rfl, rfl, rfl, id, rfl, id, id⟩

lemma flushes_of_empty (hb : s.writer.mWriteBuffers = []) (results : List WritevResult) :
    s.Flushes results := by
  cases results with
  | nil => exact hb
  | cons r results =>
    cases r with
    | size k => exact .inl hb
    | again => exact hb
    | error errno => exact hb

lemma Owes.responseSent (h : Owes n s) (hb : s.writer.mWriteBuffers = [])
    {results : List WritevResult} (hk : ¬s.DropsSent results) : Owes n s.responseSent := by
  rw [LowHTTPDirect.responseSent]
  split
  · next hdone =>
    split
    · split
      · exact h.eased ⟨log_of_emit rfl rfl, rfl, le_rfl, rfl, rfl, id, rfl, id, id⟩
      · exact h
    · next hframe =>
      split
      · next hinit =>
        refine h.init ?_
        by_contra hne
        exact hk ⟨flushes_of_empty hb results, hdone, hframe, hinit.1, hinit.2, hne⟩
      · exact h
  · exact h

lemma Owes.DoWrite (h : Owes n s) {results : List WritevResult} (hk : ¬s.DropsSent results) :
    Owes n (s.DoWrite results) := by
  have hundef (s : LowHTTPDirect) : Eased s s.undefine := .of_ledger rfl
  induction results generalizing s with
  | nil =>
    unfold LowHTTPDirect.DoWrite
    split
    · next hb => exact h.responseSent hb hk
    · split
      · exact h.eased (hundef s)
      · exact h
  | cons r results ih =>
    unfold LowHTTPDirect.DoWrite
    split
    · next hb => exact h.responseSent hb hk
    · split
      · exact h.eased (hundef s)
      · next hsock =>
        cases r with
        | size k =>
          refine ih (h.eased (eased_written s k)) fun hd => hk ⟨.inr ⟨by simpa using hsock, hd.1⟩, ?_⟩
          exact hd.2
        | again => exact h
        | error errno => exact h.eased (.of_ledger rfl)

lemma lulled_init (s : LowHTTPDirect) : Lulled s s.init :=
  ⟨id, rfl, fun hid => absurd rfl hid, fun hid => absurd rfl hid⟩

/-- `DoWrite` wakes nobody, and goes on with the message as long as bytes are left. -/
lemma DoWrite_lulled (s : LowHTTPDirect) (results : List WritevResult) :
    Lulled s (s.DoWrite results) ∧
      ((s.DoWrite results).writer.mWriteBuffers ≠ [] →
        (s.DoWrite results).writer.mWriting = s.writer.mWriting) := by
  have hsent (s : LowHTTPDirect) (hb : s.writer.mWriteBuffers = []) :
      Lulled s s.responseSent ∧ (s.responseSent.writer.mWriteBuffers ≠ [] →
        s.responseSent.writer.mWriting = s.writer.mWriting) := by
    unfold responseSent
    split
    · split
      · split
        · exact ⟨.of_agenda rfl, fun _ => rfl⟩
        · exact ⟨.refl s, fun _ => rfl⟩
      · split
        · exact ⟨lulled_init s, fun hne => absurd hb hne⟩
        · exact ⟨.refl s, fun _ => rfl⟩
    · exact ⟨.refl s, fun _ => rfl⟩
  have hundef (s : LowHTTPDirect) : Lulled s s.undefine := .of_agenda rfl
  induction results generalizing s with
  | nil =>
    unfold DoWrite
    split
    · next hb => exact hsent s hb
    · split
      · exact ⟨hundef s, fun _ => rfl⟩
      · exact ⟨.refl s, fun _ => rfl⟩
  | cons r results ih =>
    unfold DoWrite
    split
    · next hb => exact hsent s hb
    · split
      · exact ⟨hundef s, fun _ => rfl⟩
      · cases r with
        | size k =>
          obtain ⟨hl, hw⟩ := ih (s.written k)
          have hk : Lulled s (s.written k) := .of_agenda rfl
          exact ⟨hk.trans hl, hw⟩
        | again => exact ⟨.refl s, fun _ => rfl⟩
        | error errno => exact ⟨.of_agenda rfl, fun _ => rfl⟩

/-- `DoWrite`, where no write callback waits. -/
lemma Owes.send (h : Owes n s) {results : List WritevResult} (hk : ¬u.DropsSent results)
    (he : Eased s u) (hl : Lulled s u) (hid : s.writer.mWriteCallID = 0) :
    Owes n (u.DoWrite results).unlock ∧ Lulled s (u.DoWrite results).unlock ∧
      (u.DoWrite results).unlock.writer.mWriteCallID = 0 := by
  have hunlock : Lulled (u.DoWrite results) (u.DoWrite results).unlock := .of_agenda rfl
  have hlulled := (hl.trans (DoWrite_lulled u results).1).trans hunlock
  refine ⟨?_, hlulled, ?_⟩
  · exact ((h.eased he).DoWrite hk).eased (.of_ledger rfl)
  · by_contra hne
    exact hlulled.writeID hne hid

lemma Owing.WriteHeaders (h : Owing n s) {txt : List UInt8} {len : Int} {isChunked : Bool}
    {results : List WritevResult}
    (hk : ∀ t rs, s.sending (.writeHeaders txt len isChunked results) = some (t, rs) →
      ¬t.DropsSent rs) : Owing n (s.WriteHeaders txt len isChunked results) := by
  rw [LowHTTPDirect.WriteHeaders]
  split
  · exact h
  · next hgo =>
    have hid : s.writer.mWriteCallID = 0 := by
      by_contra hne
      exact hgo (.inr (h.owes.writing hne))
    have hdrop := hk _ _ (if_neg hgo)
    obtain ⟨ho, hl, hfree⟩ := h.owes.send hdrop
      ⟨log_of_eq rfl, rfl, Nat.le_succ _, rfl, rfl, id, rfl, id, fun _ => rfl⟩
      (.of_agenda rfl) hid
    exact h.of_lulled hl ho fun hne => absurd hfree hne

lemma eased_releaseSent (k : Nat) (s : LowHTTPDirect) :
    Eased s (releaseSent k s) ∧ Lulled s (releaseSent k s) := by
  induction k generalizing s with
  | zero => exact ⟨.of_ledger rfl, .of_agenda rfl⟩
  | succ k ih =>
    obtain ⟨he, hl⟩ := ih { s.removeStash (s.writer.mWriteBufferStashID.getD 0 0) with
      writer.mWriteBufferStashID :=
        [s.writer.mWriteBufferStashID.getD 1 0, s.writer.mWriteBufferStashID.getD 2 0, 0] }
    refine ⟨Eased.trans ?_ he, Lulled.trans ?_ hl⟩
    · exact .of_ledger rfl
    · exact .of_agenda rfl

lemma eased_queueWrite (s : LowHTTPDirect) (data : List UInt8) :
    Eased s (s.queueWrite data) ∧ Lulled s (s.queueWrite data) ∧
      (s.queueWrite data).writer.mWriting = s.writer.mWriting := by
  rw [queueWrite]
  dsimp only
  split
  · split
    · exact ⟨.of_ledger rfl,
        .of_agenda rfl, rfl⟩
    · exact ⟨.of_ledger rfl,
        .of_agenda rfl, rfl⟩
  · split
    · exact ⟨⟨log_of_eq rfl, rfl, Nat.le_succ _, rfl, rfl, id, rfl, id, id⟩,
        .of_agenda rfl, rfl⟩
    · exact ⟨⟨log_of_eq rfl, rfl, Nat.le_succ _, rfl, rfl, id, rfl, id, id⟩,
        .of_agenda rfl, rfl⟩

/-- A write callback is told to wait. -/
lemma Owes.acceptWrite (h : Owes n s) (hid : s.writer.mWriteCallID = 0)
    (hw : s.writer.mWriting = true) :
    Owes (n + 1) { s with
      writer.mWriteCallID := s.rt.stash.last + 1
      rt.stash := s.rt.stash.add.2
      rt.accepted := s.rt.accepted ++ [s.rt.stash.last + 1]
      rt.mDirectWriteEnabled := true } where
  calls := by
    rw [List.length_append, List.length_singleton, ← add_assoc, h.calls]
    rfl
  accounted := by
    have hp : s.pending = if s.reader.mReadCallID ≠ 0 then [s.reader.mReadCallID] else [] := by
      rw [pending, hid]
      simp
    have hacc := h.accounted.append_right [s.rt.stash.last + 1]
    rw [hp, List.append_assoc] at hacc
    refine hacc.trans (List.Perm.of_eq ?_)
    simp [pending, called]
  nodup := List.nodup_append.mpr ⟨h.nodup, List.nodup_singleton _, fun a ha b hb hab =>
    h.fresh (by rwa [hab, List.mem_singleton.mp hb] at ha)⟩
  below := fun id hmem => by
    rcases List.mem_append.mp hmem with hmem | hmem
    · exact (h.below id hmem).trans (Nat.le_succ _)
    · exact (List.mem_singleton.mp hmem).le
  reading := h.reading
  request := h.request
  writing := fun _ => hw

/-- A read callback is told to wait. -/
lemma Owes.acceptRead (h : Owes n s) (hid : s.reader.mReadCallID = 0)
    (hd : s.reader.mReadData ≠ none) (hr : s.mRequestCallID ≠ 0) :
    Owes (n + 1) { s with
      reader.mReadCallID := s.rt.stash.last + 1
      rt.stash := s.rt.stash.add.2
      rt.accepted := s.rt.accepted ++ [s.rt.stash.last + 1] } where
  calls := by
    rw [List.length_append, List.length_singleton, ← add_assoc, h.calls]
    rfl
  accounted := by
    have hp : s.pending = if s.writer.mWriteCallID ≠ 0 then [s.writer.mWriteCallID] else [] := by
      rw [pending, hid]
      simp
    have hacc := h.accounted.append_right [s.rt.stash.last + 1]
    rw [hp, List.append_assoc] at hacc
    refine hacc.trans ((List.perm_append_comm.append_left s.called).trans (List.Perm.of_eq ?_))
    simp [pending, called]
  nodup := List.nodup_append.mpr ⟨h.nodup, List.nodup_singleton _, fun a ha b hb hab =>
    h.fresh (by rwa [hab, List.mem_singleton.mp hb] at ha)⟩
  below := fun id hmem => by
    rcases List.mem_append.mp hmem with hmem | hmem
    · exact (h.below id hmem).trans (Nat.le_succ _)
    · exact (List.mem_singleton.mp hmem).le
  reading := fun _ => ⟨hd, hr⟩
  request := h.request
  writing := h.writing

lemma Owing.Write (h : Owing n s) {data : List UInt8} {results : List WritevResult}
    (hk : ∀ t rs, s.sending (.write data results) = some (t, rs) → ¬t.DropsSent rs)
    (hu : (s.Write data results).rt.undefined = false) :
    Owing (n + 1) (s.Write data results) := by
  unfold LowHTTPDirect.Write at hu ⊢
  split at hu
  · next hrefused =>
    rw [if_pos hrefused]
    exact h.of_lulled (.of_agenda rfl) (h.owes.answer rfl) fun _ hr => .inl hr
  · next hgo =>
    rw [if_neg hgo]
    have hid : s.writer.mWriteCallID = 0 := by
      by_contra hne
      exact hgo (.inr (.inr (.inr (.inl hne))))
    have hwriting : s.writer.mWriting = true := by
      by_contra hne
      exact hgo (.inr (.inl (by simpa using hne)))
    obtain ⟨he, hl⟩ := eased_releaseSent s.writer.mWriteBufferStashInvalidCount s.lock
    obtain ⟨he', hl', hw'⟩ := eased_queueWrite
      (releaseSent s.writer.mWriteBufferStashInvalidCount s.lock) data
    have helock : Eased s s.lock := .of_ledger rfl
    have hllock : Lulled s s.lock := .of_agenda rfl
    have hdrop := hk _ _ (if_neg hgo)
    obtain ⟨ho, hlulled, hfree⟩ := h.owes.send hdrop ((helock.trans he).trans he')
      ((hllock.trans hl).trans hl') hid
    have hbusy := (DoWrite_lulled ((releaseSent s.writer.mWriteBufferStashInvalidCount
      s.lock).queueWrite data) results).2
    have hu' := ((helock.trans he).trans he').writing hwriting
    dsimp only at hu ⊢
    generalize ht : (((releaseSent s.writer.mWriteBufferStashInvalidCount s.lock).queueWrite
      data).DoWrite results).unlock = t at hu ho hlulled hfree ⊢
    have hbusy : t.writer.mWriteBuffers ≠ [] → t.writer.mWriting = true := by
      rw [← ht]
      exact fun hne => (hbusy hne).trans hu'
    have hready {t' : LowHTTPDirect} (hid : t'.writer.mWriteCallID = t.writer.mWriteCallID)
        (hne : t'.writer.mWriteCallID ≠ 0) : False := hne (hid.trans hfree)
    unfold writeOutcome at hu ⊢
    split
    · next hund =>
      rw [if_pos hund] at hu
      simp [hund] at hu
    · split
      · have heased : Eased t { t with writer.mWriteError := false } :=
          .of_ledger rfl
        refine h.of_lulled (hlulled.trans (.of_agenda rfl))
          ((ho.eased heased).answer rfl) fun hne => (hready rfl hne).elim
      · split
        · have heased : Eased t { t with writer.mBytesWritten := 0 } := .of_ledger rfl
          refine h.of_lulled (hlulled.trans (.of_agenda rfl))
            ((ho.eased heased).answer rfl) fun hne => (hready rfl hne).elim
        · next herr hbufs =>
          have hread := h.of_lulled hlulled ho fun hne => (hready rfl hne).elim
          refine ⟨ho.acceptWrite hfree (hbusy hbufs), hread.read, fun _ hr => ?_⟩
          rcases hr with hr | ⟨-, hr⟩
          · exact absurd hr hbufs
          · exact absurd hr herr

lemma Owing.onEventsWrite (h : Owing n s) {results : List WritevResult}
    (hk : ∀ t rs, s.sending (.socketWrite results) = some (t, rs) → ¬t.DropsSent rs) :
    Owing n (s.onEventsWrite results) := by
  rw [LowHTTPDirect.onEventsWrite]
  split
  · next hgo =>
    have hdrop := hk _ _ (if_pos hgo)
    have hstart : Eased s (lock { s with rt.mDirectWriteEnabled := false }) := .of_ledger rfl
    have hlstart : Lulled s (lock { s with rt.mDirectWriteEnabled := false }) := .of_agenda rfl
    have ho := (h.owes.eased hstart).DoWrite hdrop
    have hl := hlstart.trans (DoWrite_lulled (lock { s with rt.mDirectWriteEnabled := false })
      results).1
    rw [OnSocketWrite]
    dsimp only
    generalize (lock { s with rt.mDirectWriteEnabled := false }).DoWrite results = t at ho hl ⊢
    have hset : Owing n (if t.writer.mWriteCallID ≠ 0 ∧
        (t.writer.mWriteBuffers = [] ∨ t.writer.mWriteError) then t.setLoopCallback else t) := by
      split
      · refine h.of_lulled (hl.trans ⟨fun _ => rfl, rfl, fun h => ⟨h, id⟩, id⟩)
          (ho.eased (.of_ledger rfl))
          fun _ _ => .inr (.inl (.inl rfl))
      · next hnot =>
        refine h.of_lulled hl ho fun hid hr => absurd ⟨hid, ?_⟩ hnot
        exact hr.imp id And.right
    generalize (if t.writer.mWriteCallID ≠ 0 ∧
        (t.writer.mWriteBuffers = [] ∨ t.writer.mWriteError) then t.setLoopCallback else t) = v
      at hset ⊢
    have hunlock : Owing n v.unlock :=
      hset.of_lulled (.of_agenda rfl)
        (hset.owes.eased (.of_ledger rfl)) fun _ hr => .inl hr
    split
    · exact hunlock.of_lulled (.of_agenda rfl)
        (hunlock.owes.eased (.of_ledger rfl))
        fun _ hr => .inl hr
    · exact hunlock
  · exact h

/-! ### The byte loop -/

/-- What an iteration of the byte loop leaves alone. -/
structure Looping (s t : LowHTTPDirect) : Prop where
  queued : t.rt.loopQueued = s.rt.loopQueued
  inLoop : t.rt.inLoop = s.rt.inLoop
  requestID : t.mRequestCallID = s.mRequestCallID
  readData : s.reader.mReadData ≠ none → t.reader.mReadData ≠ none
  socket : t.mSocket = s.mSocket
  closed : t.mClosed = s.mClosed
  readError : t.mReadError = s.mReadError
  httpError : t.mHTTPError = s.mHTTPError
  buffers : t.writer.mWriteBuffers = s.writer.mWriteBuffers
  writeError : t.writer.mWriteError = s.writer.mWriteError
  readID : t.reader.mReadCallID = s.reader.mReadCallID ∨ t.reader.mReadCallID = 0
  writeID : t.writer.mWriteCallID = s.writer.mWriteCallID ∨ t.writer.mWriteCallID = 0

lemma Looping.refl (s : LowHTTPDirect) : Looping s s :=
  ⟨rfl, rfl, rfl, id, rfl, rfl, rfl, rfl, rfl, rfl, .inl rfl, .inl rfl⟩

lemma Looping.trans (h : Looping s t) (h' : Looping t u) : Looping s u where
  queued := h'.queued.trans h.queued
  inLoop := h'.inLoop.trans h.inLoop
  requestID := h'.requestID.trans h.requestID
  readData := fun hd => h'.readData (h.readData hd)
  socket := h'.socket.trans h.socket
  closed := h'.closed.trans h.closed
  readError := h'.readError.trans h.readError
  httpError := h'.httpError.trans h.httpError
  buffers := h'.buffers.trans h.buffers
  writeError := h'.writeError.trans h.writeError
  readID := by
    rcases h'.readID with hid | hid
    · rw [hid]
      exact h.readID
    · exact .inr hid
  writeID := by
    rcases h'.writeID with hid | hid
    · rw [hid]
      exact h.writeID
    · exact .inr hid

lemma looping_init (s : LowHTTPDirect) : Looping s s.init :=
  ⟨rfl, rfl, rfl, id, rfl, rfl, rfl, rfl, rfl, rfl, .inr rfl, .inr rfl⟩

/-- The reader, if one waits, has something to be told only if `setCallback` is set. -/
def Woken (s t : LowHTTPDirect) : Prop :=
  t.reader.mReadCallID = 0 ∨ t.setCallback = true ∨
    (t.setCallback = s.setCallback ∧ t.reader.mReadPos = s.reader.mReadPos ∧
      (t.parser.mPhase = .sendingResponse → s.parser.mPhase = .sendingResponse))

lemma Woken.trans (h : Woken s t) (hl : Looping t u) (h' : Woken t u) : Woken s u := by
  rcases h' with hid | hset | ⟨hset, hpos, hphase⟩
  · exact .inl hid
  · exact .inr (.inl hset)
  · rcases h with hid' | hset' | ⟨hset', hpos', hphase'⟩
    · exact .inl (hl.readID.elim (fun hid => hid.trans hid') id)
    · exact .inr (.inl (hset.trans hset'))
    · exact .inr (.inr ⟨hset.trans hset', hpos.trans hpos', fun hp => hphase' (hphase hp)⟩)

lemma Taken.eased {d copied rest : List UInt8} {exit : Exit}
    (h : Taken E s.awaiting d copied exit t rest) :
    Eased s (s.resume t) ∧ Looping s (s.resume t) ∧
      (exit = .next ∨ exit = .brk → Woken s (s.resume t)) := by
  have hdata (hd : s.reader.mReadData ≠ none) : (s.resume t).reader.mReadData ≠ none := by
    change t.reader.mReadData ≠ none
    rw [h.readData]
    exact fun hnone => hd (Option.map_eq_none_iff.mp hnone)
  refine ⟨⟨log_of_eq (congrArg (fun t => t.rt.log) h.frame),
    congrArg (fun t => t.rt.accepted) h.frame,
    (congrArg (fun t => t.rt.stash.last) h.frame).ge,
    congrArg (fun t => t.reader.mReadCallID) h.frame, rfl, hdata,
    congrArg (fun t => t.mIsRequest) h.frame, fun hid => ?_, id⟩,
    ⟨congrArg (fun t => t.rt.loopQueued) h.frame, congrArg (fun t => t.rt.inLoop) h.frame,
      congrArg (fun t => t.mRequestCallID) h.frame, hdata, congrArg (fun t => t.mSocket) h.frame,
      congrArg (fun t => t.mClosed) h.frame, congrArg (fun t => t.mReadError) h.frame,
      congrArg (fun t => t.mHTTPError) h.frame, rfl, rfl,
      .inl (congrArg (fun t => t.reader.mReadCallID) h.frame), .inl rfl⟩, fun hexit => ?_⟩
  · have hid' : t.mRequestCallID = s.mRequestCallID :=
      congrArg (fun t => t.mRequestCallID) h.frame
    change t.mRequestCallID ≠ 0
    rwa [hid']
  · rcases h.callback hexit with hset | ⟨hset, hnil, -, hphase⟩
    · exact .inr (.inl hset)
    · refine .inr (.inr ⟨hset, ?_, hphase⟩)
      have hpos := h.readPos
      rw [hnil, List.length_nil, Nat.cast_zero, add_zero] at hpos
      exact hpos

lemma socketByte_owes (hs : Loopable s.parser s) (ho : Owes n s) {c : UInt8} {rest : List UInt8}
    (hk : ¬s.DropsAt E (c :: rest)) :
    let r := s.socketByte E c rest
    Owes n r.2.1 ∧ Looping s r.2.1 ∧ (r.1 = .next ∨ r.1 = .brk → Woken s r.2.1) := by
  have hok : s.awaiting.LoopOk := ⟨hs.held, awaiting_responseDone s, hs.reader, hs.tracked.lens⟩
  obtain ⟨copied, htaken, -⟩ := socketByte_taken (E := E) hok c rest
  have hserver := congrArg (fun t => t.mIsServer) htaken.frame
  obtain ⟨he, hl, hw⟩ := htaken.eased
  have hk : ¬(s.responseDone ∧ s.pending ≠ [] ∧ s.parser.mPhase ≠ .sendingResponse ∧
      (s.awaiting.socketByte E c rest).1 = .next ∧
      (s.awaiting.socketByte E c rest).2.1.parser.mPhase = .sendingResponse) := hk
  dsimp only at hserver ⊢
  rw [socketByte_awaiting hs.tracked.lens]
  generalize s.awaiting.socketByte E c rest = r at hk hserver he hl hw
  have howes := ho.eased he
  rw [endRound]
  split
  · next hend =>
    rw [atEnd]
    split
    · next hdone =>
      refine ⟨howes.init ?_, hl.trans (looping_init _), fun _ => .inl rfl⟩
      by_contra hne
      rw [he.pending] at hne
      have hdone' : s.responseDone := by
        have heq : (s.resume r.2.1).responseDone = s.responseDone := by
          rw [responseDone]
          rw [show (s.resume r.2.1).mIsServer = s.mIsServer from hserver]
          rfl
        rwa [heq] at hdone
      exact hk ⟨hdone', hne, hend.2.1, hend.1, hend.2.2⟩
    · exact ⟨howes, hl, hw⟩
  · exact ⟨howes, hl, hw⟩

lemma socketLoop_owes (hs : Loopable s.parser s) (hrem : s.reader.mRemainingRead = none)
    (ho : Owes n s) {fuel : Nat} {d : List UInt8}
    (hmet : Met E (fun s data => ¬s.DropsAt E data) fuel s d) :
    let r := s.socketLoop E fuel d
    Owes n r.2.1 ∧ Looping s r.2.1 ∧ (r.1 = .next ∨ r.1 = .brk → Woken s r.2.1) := by
  refine socketLoop_rule
    (P := fun t _ => (Loopable t.parser t ∧ t.reader.mRemainingRead = none) ∧
      Owes n t ∧ Looping s t ∧ Woken s t)
    (Q := fun exit t _ => Owes n t ∧ Looping s t ∧ (exit = .next ∨ exit = .brk → Woken s t))
    (fun t d ht => ⟨ht.2.1, ht.2.2.1, fun _ => ht.2.2.2⟩) ?_
    ⟨⟨hs, hrem⟩, ho, .refl s, .inr (.inr ⟨rfl, rfl, id⟩)⟩ hmet
  rintro t c rest ⟨⟨ht, htrem⟩, hto, htl, htw⟩ hk
  obtain ⟨hends, -⟩ := socketByte_ends (E := E) ht htrem c rest
  obtain ⟨ho', hl', hw'⟩ := socketByte_owes ht hto hk
  refine ⟨fun hnext => ?_, fun _ => ⟨ho', htl.trans hl', fun hexit => htw.trans hl' (hw' hexit)⟩⟩
  rw [hnext] at hends
  exact ⟨hends, ho', htl.trans hl', htw.trans hl' (hw' (.inl hnext))⟩

/-- What the byte loop and the return of `SocketData` do to those who wait: a reader with something
to be told is told, unless `Read` has called. -/
structure Ran (isRead : Bool) (s t : LowHTTPDirect) : Prop where
  queued : s.rt.loopQueued = true → t.rt.loopQueued = true
  inLoop : t.rt.inLoop = s.rt.inLoop
  requestID : t.mRequestCallID = s.mRequestCallID
  readData : s.reader.mReadData ≠ none → t.reader.mReadData ≠ none
  read : t.reader.mReadCallID ≠ 0 → s.reader.mReadCallID ≠ 0 ∧
    (isRead = false → t.ReadReady → s.ReadReady ∨ t.rt.loopQueued = true)
  write : t.writer.mWriteCallID ≠ 0 → s.writer.mWriteCallID ≠ 0 ∧ (t.WriteReady → s.WriteReady)

lemma Looping.write (h : Looping s t) (hid : t.writer.mWriteCallID ≠ 0) :
    s.writer.mWriteCallID ≠ 0 ∧ (t.WriteReady → s.WriteReady) := by
  refine ⟨?_, fun hr => ?_⟩
  · rwa [h.writeID.resolve_right hid] at hid
  · unfold WriteReady at hr ⊢
    rwa [h.buffers, h.socket, h.writeError] at hr

lemma runLoop_owes (hs : Loopable s.parser s) (hrem : s.reader.mRemainingRead = none)
    (ho : Owes n s) {d : List UInt8}
    (hmet : Met E (fun s data => ¬s.DropsAt E data) d.length s d) (inLoop : Bool)
    (hund : (continued (s.runLoop E d inLoop)).rt.undefined = false) :
    Owes n (continued (s.runLoop E d inLoop)) ∧
      Ran inLoop s (continued (s.runLoop E d inLoop)) := by
  obtain ⟨howes, hl, hw⟩ := socketLoop_owes hs hrem ho hmet
  have hcontinued (r : Bool × LowHTTPDirect) : Eased r.2 (continued r) ∧
      (Ran inLoop s r.2 → Ran inLoop s (continued r)) := by
    rw [continued]
    split
    · exact ⟨.of_ledger rfl,
        fun h => ⟨h.queued, h.inLoop, h.requestID, h.readData, h.read, h.write⟩⟩
    · exact ⟨.refl _, id⟩
  obtain ⟨heased, hran⟩ := hcontinued (s.runLoop E d inLoop)
  have hundef : (s.runLoop E d inLoop).2.rt.undefined = false := by
    unfold continued at hund
    split at hund
    · exact hund
    · exact hund
  suffices h : Owes n (s.runLoop E d inLoop).2 ∧ Ran inLoop s (s.runLoop E d inLoop).2 from
    ⟨h.1.eased heased, hran h.2⟩
  unfold runLoop at hundef ⊢
  dsimp only at howes hl hw hundef ⊢
  generalize s.socketLoop E d.length d = r at howes hl hw hundef ⊢
  obtain ⟨exit, t, rest⟩ := r
  dsimp only at howes hl hw hundef ⊢
  have hdone (len : Int) (hexit : exit = .next ∨ exit = .brk) :
      Owes n (t.loopDone len inLoop).2 ∧ Ran inLoop s (t.loopDone len inLoop).2 := by
    rw [loopDone_eq]
    refine ⟨howes.eased (.of_ledger rfl), fun hq => ?_,
      hl.inLoop, hl.requestID, hl.readData, fun hid => ⟨?_, fun hloop hr => ?_⟩,
      fun hid => hl.write hid⟩
    · dsimp only
      rw [hl.queued, hq]
      rfl
    · rwa [← hl.readID.resolve_right hid]
    · have hreq := (howes.reading hid).2
      rcases hw hexit with hid' | hcallback | ⟨hcallback, hpos, hphase⟩
      · exact absurd hid' hid
      · right
        simp [hreq, hcallback, hloop]
      · left
        unfold ReadReady at hr ⊢
        dsimp only at hr
        rw [hpos, hl.socket, hl.readError, hl.closed, hl.httpError] at hr
        rcases hr with hr | hr | hr
        · exact .inl hr
        · exact .inr (.inl (hphase hr))
        · exact .inr (.inr hr)
  have hclose {v : LowHTTPDirect} (he : Eased t v) (hlv : Looping t v) :
      Owes n v.closeDone.2 ∧ Ran inLoop s v.closeDone.2 := by
    have hsv := hl.trans hlv
    refine ⟨(howes.eased he).eased (.of_ledger rfl),
      fun _ => rfl, hsv.inLoop, hsv.requestID, hsv.readData,
      fun hid => ⟨?_, fun _ _ => .inr rfl⟩, fun hid => hsv.write hid⟩
    have hid : v.reader.mReadCallID ≠ 0 := hid
    rwa [← hsv.readID.resolve_right hid]
  cases exit with
  | next => exact hdone _ (.inl rfl)
  | brk => exact hdone _ (.inr rfl)
  | err =>
    have h := hclose (.refl t) (.refl t)
    exact ⟨h.1.eased (.of_ledger rfl), fun _ => rfl,
      h.2.inLoop, h.2.requestID, h.2.readData,
      fun hid => ⟨(h.2.read hid).1, fun _ _ => .inr rfl⟩, h.2.write⟩
  | done => exact hclose (.refl t) (.refl t)
  | undef => cases hundef

/-! ### Reading -/

/-- A report, up to the call of the read callback. -/
lemma reportRead_cases (s : LowHTTPDirect) (via : Via) :
    (s.reportRead E via).rt.undefined = true ∨
      ∃ t e, s.reportRead E via = t.emit e ∧ e.via = some via ∧
        Eased { s with reader.mReadData := none } t ∧ Lulled s t ∧
        (t.WriteReady → s.WriteReady) := by
  rw [reportRead]
  dsimp only
  split
  · rw [endMessage_eq]
    split
    · exact .inl rfl
    · next trailers p hp =>
      right
      dsimp only
      generalize hw : ({ walked { s with reader.mReadData := none } p with
        rt.ended := s.rt.ended ++ [(p.history, s.mClosed)] } : LowHTTPDirect) = w
      have hphase : p.mPhase = s.parser.mPhase := by
        have htake := steady_takeParams (E := E) (p := s.parser) signedChar (fun _ => true)
          (s.parser.allocs + 2)
        rw [takeTrailers] at hp
        rw [show ({ s with reader.mReadData := none } : LowHTTPDirect).parser = s.parser from rfl]
          at hp
        rw [hp] at htake
        exact htake.2
      have hwe : Eased { s with reader.mReadData := none } w := by
        rw [← hw]
        exact .of_ledger rfl
      have hwl : Lulled s w := by
        rw [← hw]
        refine ⟨id, rfl, fun hid => ⟨hid, fun hr => ?_⟩, id⟩
        unfold ReadReady at hr ⊢
        dsimp only [walked] at hr
        rwa [hphase] at hr
      have hww (hr : w.WriteReady) : s.WriteReady := by
        rw [← hw] at hr
        exact hr
      refine ⟨_, _, rfl, rfl, ?_⟩
      split
      · exact ⟨hwe.trans (eased_detach w), hwl.trans (lulled_detach w),
          fun hr => hww (writeReady_detach hr)⟩
      · exact ⟨hwe, hwl, hww⟩
  · exact .inr ⟨_, _, rfl, rfl, .of_ledger rfl,
      ⟨id, rfl, fun hid => ⟨hid, id⟩, id⟩, id⟩

lemma Owes.dropData (h : Owes n s) (hid : s.reader.mReadCallID = 0) :
    Owes n { s with reader.mReadData := none } :=
  ⟨h.calls, h.accounted, h.nodup, h.below, fun hne => absurd hid hne, h.request, h.writing⟩

/-- The end of `Read`, after the bytes kept back. -/
lemma Owes.readOutcome (h : (s.readRemaining E).rt.undefined = false → Owes n (s.readRemaining E))
    (hid : (s.readRemaining E).reader.mReadCallID = 0)
    (hd : (s.readRemaining E).reader.mReadData ≠ none)
    (hreq : (s.readRemaining E).mRequestCallID ≠ 0) (hclosed : (s.readRemaining E).ErrorsClosed)
    (hund : (s.readOutcome E).rt.undefined = false) :
    Owes (n + 1) (s.readOutcome E) ∧
      ((s.readOutcome E).reader.mReadCallID ≠ 0 → ¬(s.readOutcome E).ReadReady) ∧
      ((s.readRemaining E).rt.loopQueued = true → (s.readOutcome E).rt.loopQueued = true) ∧
      (s.readOutcome E).rt.inLoop = (s.readRemaining E).rt.inLoop ∧
      ((s.readOutcome E).writer.mWriteCallID ≠ 0 → (s.readRemaining E).writer.mWriteCallID ≠ 0 ∧
        ((s.readOutcome E).WriteReady → (s.readRemaining E).WriteReady)) := by
  unfold LowHTTPDirect.readOutcome at hund ⊢
  dsimp only at hund ⊢
  generalize s.readRemaining E = t at h hid hd hreq hclosed hund ⊢
  split at hund
  · next hu => simp [hu] at hund
  · next hu =>
    have h := h (by simpa using hu)
    rw [if_neg hu]
    split at hund
    · next hready =>
      rw [if_pos hready]
      rcases reportRead_cases (E := E) t .nextTick with hu' | ⟨v, e, heq, he, heased, hl, hw⟩
      · simp [hu'] at hund
      · rw [heq]
        have hvid : v.reader.mReadCallID = 0 := heased.readID.trans hid
        exact ⟨((h.dropData hid).eased heased).answer he, fun hne => absurd hvid hne, hl.queued,
          hl.inLoop, fun hne => ⟨hl.writeID hne, hw⟩⟩
    · next hready =>
      rw [if_neg hready]
      simp only [ne_eq, not_or, not_not, Bool.not_eq_true] at hready
      have hnoerr : ¬(t.mReadError ∨ t.mHTTPError) := fun herr => by
        simp [hclosed herr] at hready
      rw [if_neg hnoerr]
      refine ⟨h.acceptRead hid hd hreq, fun _ hr => ?_, id, rfl, fun hne => ⟨hne, id⟩⟩
      rcases hr with hr | hr | ⟨-, hr⟩ | hr | hr
      · exact hr hready.1
      · exact hready.2.1 hr
      · exact hnoerr (.inl hr)
      · exact absurd hready.2.2 (by simpa using hr)
      · exact hnoerr (.inr hr)

/-- The byte that has been kept back is met again. -/
lemma met_kept (hbody : s.parser.mPhase = .body) (hmarked : s.parser.mEraseNextN = false) {e : Bool}
    {c : UInt8} (herase : ¬(e ∧ c = LF)) {rest : List UInt8} {fuel : Nat}
    (h : Met E (fun s data => ¬s.DropsAt E data) fuel s (c :: rest)) :
    Met E (fun s data => ¬s.DropsAt E data) fuel { s with parser.mEraseNextN := e } (c :: rest) := by
  have hbyte (t : LowHTTPDirect) (ht : t.parser = s.parser) : t.socketByte E c rest =
      socketByte E { t with parser := { t.parser with mEraseNextN := e } } c rest := by
    refine (socketByte_body (by simp [ht, hmarked]) (by rw [ht]; exact hbody) rest).trans (Eq.symm ?_)
    exact socketByte_body (s := { t with parser := { t.parser with mEraseNextN := e } }) herase
      (by rw [ht]; exact hbody) rest
  cases fuel with
  | zero => exact trivial
  | succ fuel =>
    obtain ⟨hok, hmet⟩ := h
    refine ⟨fun hdrops => hok ?_, ?_⟩
    · obtain ⟨hdone, hne, hphase, hnext, hend⟩ := hdrops
      have hawait := hbyte s.awaiting rfl
      refine ⟨hdone, hne, hphase, ?_⟩
      rw [hawait]
      exact ⟨hnext, hend⟩
    · rw [hbyte s rfl] at hmet
      exact hmet

/-- A call of `Read` with the bytes that have been kept back, and those who wait meanwhile. -/
lemma Stage.readRemaining_owes (hs : Stage s) (hund : s.rt.undefined = false) {len : Nat}
    (hlen : len < 2 ^ 31) (ho : Owes n s) (hid : s.reader.mReadCallID = 0)
    (hmet : ∀ d, s.reader.mRemainingRead = some d → s.mClosed = false →
      Met E (fun s data => ¬s.DropsAt E data) d.length (s.takeBuffer len).reread d) :
    (((s.takeBuffer len).lock.readRemaining E).rt.undefined = false →
        Owes n ((s.takeBuffer len).lock.readRemaining E) ∧
        Ran true (s.takeBuffer len) ((s.takeBuffer len).lock.readRemaining E)) := by
  have hreader : (s.takeBuffer len).reader.Ok := by
    intro buf hbuf
    cases hbuf
    have hlen' : (len : Int) < 2 ^ 31 := by exact_mod_cast hlen
    exact ⟨rfl, Int.natCast_nonneg len, hlen'⟩
  have htake : Owes n (s.takeBuffer len) :=
    ⟨ho.calls, ho.accounted, ho.nodup, ho.below, fun hne => absurd hid hne, ho.request, ho.writing⟩
  intro hu
  by_cases hkept : s.reader.mRemainingRead = none ∨ s.mClosed
  · rw [readRemaining_kept (s := s.takeBuffer len) hkept]
    exact ⟨htake.eased (.of_ledger rfl), id, rfl, rfl,
      id, fun hne => absurd hid hne, fun hne => ⟨hne, id⟩⟩
  · obtain ⟨hrem, hc⟩ := not_or.mp hkept
    have hc : s.mClosed = false := by simpa using hc
    cases hs with
    | fed h hnone => exact absurd hnone hrem
    | stopped hstop hok h => simp [hc, hund] at hstop
    | kept e c rest h hbody herase hmarked hcons hread =>
      have heq : (s.takeBuffer len).lock.readRemaining E =
          continued ((s.takeBuffer len).reread.runLoop E (c :: rest) true) :=
        readRemaining_loop (s := s.takeBuffer len) hcons hc
      rw [heq, runLoop_kept (s := (s.takeBuffer len).reread) hbody hmarked herase] at hu ⊢
      obtain ⟨howes, hran⟩ := runLoop_owes (E := E) (n := n)
        (s := { (s.takeBuffer len).reread with parser.mEraseNextN := e })
        ⟨rfl, h.tracked, hreader, h.copies⟩ rfl
        (htake.eased (.of_ledger rfl))
        (met_kept (s := (s.takeBuffer len).reread) hbody hmarked herase (hmet _ hcons hc)) true hu
      exact ⟨howes, hran.queued, hran.inLoop, hran.requestID, hran.readData,
        fun hne => absurd hid (hran.read hne).1, hran.write⟩

lemma Owing.Read (h : Owing n s) (hs : Stage s) (hclosed : s.ErrorsClosed)
    (hdel : s.rt.deleted = false) (hund : s.rt.undefined = false) {len : Fin (2 ^ 31)}
    (hmet : s.LoopMeets E (fun s data => ¬s.DropsAt E data) (.read len))
    (hu : (s.Read E len).rt.undefined = false) : Owing (n + 1) (s.Read E len) := by
  by_cases hgo : !s.mIsRequest ∨ s.reader.mReadData.isSome ∨ !s.mSocket
  · have heq : s.Read E len = s.emit (.readError .nextTick (.again "read")) := if_pos hgo
    rw [heq]
    exact h.of_lulled (.of_agenda rfl) (h.owes.answer rfl) fun _ hr => .inl hr
  · simp only [Bool.not_eq_true', not_or, Bool.not_eq_false, Option.not_isSome_iff_eq_none] at hgo
    obtain ⟨hreq, hdata, hsock⟩ := hgo
    have hid : s.reader.mReadCallID = 0 := by
      by_contra hne
      exact (h.owes.reading hne).1 hdata
    have hstop := hs.readRemaining_owes (E := E) hund len.isLt h.owes hid fun d hd hc =>
      hmet _ _ (by simp [looped, hdel, hund, hreq, hdata, hsock, hc, hd])
    rw [Read_eq hreq hdata hsock] at hu ⊢
    have hund' : ((s.takeBuffer len).lock.readRemaining E).rt.undefined = false := by
      by_contra hne
      have heq : (s.takeBuffer len).lock.readOutcome E =
          (s.takeBuffer len).lock.readRemaining E := if_pos (by simpa using hne)
      rw [heq] at hu
      exact hne hu
    obtain ⟨howes, hran⟩ := hstop hund'
    have hid' : ((s.takeBuffer len).lock.readRemaining E).reader.mReadCallID = 0 := by
      by_contra hne
      exact (hran.read hne).1 hid
    have hreq' : ((s.takeBuffer len).lock.readRemaining E).mRequestCallID ≠ 0 := by
      rw [hran.requestID]
      exact h.owes.request hreq
    have hdata' : ((s.takeBuffer len).lock.readRemaining E).reader.mReadData ≠ none :=
      hran.readData (by simp [takeBuffer])
    obtain ⟨ho, hready, hqueued, hloop, hw⟩ := Owes.readOutcome (fun _ => howes) hid' hdata' hreq'
      (ErrorsClosed.readRemaining (E := E) (s := s.takeBuffer len) hclosed).1 hu
    refine ⟨ho, fun hne hr => absurd hr (hready hne), fun hne hr => ?_⟩
    obtain ⟨hne, hwr⟩ := hw hne
    obtain ⟨hne, hwr'⟩ := hran.write hne
    have hawake := h.write hne (hwr' (hwr hr))
    unfold Awake at hawake ⊢
    rw [hloop, hran.inLoop]
    exact hawake.imp_left (Or.imp_left fun hq => hqueued (hran.queued hq))

/-- The end of the stream, an error, or bytes that come too late. -/
lemma Owing.onEventsRead_stop (h : Owing n s) {input : SocketInput}
    (hstop : ∀ d, input = .data d → d = [] ∨ s.mClosed) : Owing n (s.onEventsRead E input) := by
  have hclose (t : LowHTTPDirect) (ht : Eased s t) (hl : t.rt.inLoop = s.rt.inLoop)
      (hc : t.mClosed = s.mClosed) : Owing n (continued (SocketData E t input false)) := by
    have hdone {v : LowHTTPDirect} (hv : Eased s v) : Owing n v.closeDone.2 :=
      ⟨(h.owes.eased hv).eased (.of_ledger rfl),
        fun _ _ => .inl rfl, fun _ _ => .inl (.inl rfl)⟩
    have hstop' : (SocketData E t input false).1 = false :=
      SocketData_stop (fun d hd => (hstop d hd).imp_right fun hcl => hc.trans hcl) false
    rw [continued, if_neg (by simp [hstop'])]
    cases input with
    | error errno =>
      rw [SocketData]
      dsimp only
      split
      · exact hdone (ht.trans (.of_ledger rfl))
      · exact hdone (ht.trans (.of_ledger rfl))
    | data d =>
      cases d with
      | nil => exact hdone (ht.trans (.of_ledger rfl))
      | cons c d =>
        have hclosed : t.mClosed = true := hc.trans ((hstop _ rfl).resolve_left (by simp))
        have heq : SocketData E t (.data (c :: d)) false =
            closeDone { t with setCallback := false } := if_pos hclosed
        rw [heq]
        exact hdone (ht.trans (.of_ledger rfl))
  by_cases hopen : s.mSocket ∧ s.rt.mDirectReadEnabled ∧ !s.rt.closed
  · rw [onEventsRead]
    rw [if_pos hopen]
    cases input with
    | error errno =>
      exact hclose _ (.of_ledger rfl) rfl rfl
    | data d =>
      cases d with
      | nil => exact hclose _ (.of_ledger rfl) rfl rfl
      | cons c d => exact hclose _ (.of_ledger rfl) rfl rfl
  · have heq : s.onEventsRead E input = s := if_neg hopen
    rwa [heq]

lemma Owing.onEventsRead (h : Owing n s) (hs : Stage s) (hdel : s.rt.deleted = false)
    (hund : s.rt.undefined = false) {input : SocketInput}
    (hmet : s.LoopMeets E (fun s data => ¬s.DropsAt E data) (.socketRead input))
    (hu : (s.onEventsRead E input).rt.undefined = false) : Owing n (s.onEventsRead E input) := by
  by_cases hstop : ∀ d, input = .data d → d = [] ∨ s.mClosed
  · exact h.onEventsRead_stop hstop
  simp only [not_forall, not_or] at hstop
  obtain ⟨d, rfl, hne, hc⟩ := hstop
  have hc : s.mClosed = false := by simpa using hc
  obtain ⟨c, d, rfl⟩ := List.exists_cons_of_ne_nil hne
  by_cases hopen : s.mSocket ∧ s.rt.mDirectReadEnabled ∧ !s.rt.closed
  · have hl : s.looped (.socketRead (.data (c :: d))) = some ({ s with
        setCallback := false
        rt.mDirectReadEnabled := false
        rt.received := s.rt.received ++ (c :: d) }, c :: d) := by
      simp [looped, hdel, hund, hopen, hc]
    have heq : s.onEventsRead E (.data (c :: d)) = continued (runLoop E { s with
        setCallback := false
        rt.mDirectReadEnabled := false
        rt.received := s.rt.received ++ (c :: d) } (c :: d) false) := onEventsRead_loop hl
    rw [heq] at hu ⊢
    cases hs with
    | fed hs hrem =>
      obtain ⟨ho, hran⟩ := runLoop_owes (E := E) (n := n) (s := { s with
        setCallback := false
        rt.mDirectReadEnabled := false
        rt.received := s.rt.received ++ (c :: d) }) ⟨hs.held, hs.tracked, hs.reader, hs.copies⟩ hrem
        (h.owes.eased (.of_ledger rfl)) (hmet _ _ hl) false hu
      refine ⟨ho, fun hne hr => ?_, fun hne hr => ?_⟩
      · obtain ⟨hne, hready⟩ := hran.read hne
        rcases hready rfl hr with hr | hq
        · have hawake := h.read hne hr
          unfold Awake at hawake ⊢
          rw [hran.inLoop]
          exact hawake.imp_left hran.queued
        · exact .inl hq
      · obtain ⟨hne, hready⟩ := hran.write hne
        have hawake := h.write hne (hready hr)
        unfold Awake at hawake ⊢
        rw [hran.inLoop]
        exact hawake.imp_left (Or.imp_left hran.queued)
    | kept e b rest h hbody herase hmarked hrem hoff => simp [hoff] at hopen
    | stopped hstop hok h => simp [hc, hund] at hstop
  · have heq : s.onEventsRead E (.data (c :: d)) = s := if_neg hopen
    rwa [heq]

/-! ### `OnLoop` -/

/-- A callback that waits is called: `u` is `s` without it. -/
lemma Owes.callBack (h : Owes n s) {u : LowHTTPDirect} (ht : Eased u t) (hrt : u.rt = s.rt)
    {id : Nat} (hpending : s.pending.Perm (id :: u.pending)) {e : Event} (he : e.via = some (.stash id))
    (hreading : t.reader.mReadCallID ≠ 0 → t.reader.mReadData ≠ none ∧ t.mRequestCallID ≠ 0)
    (hrequest : t.mIsRequest = true → t.mRequestCallID ≠ 0)
    (hwriting : t.writer.mWriteCallID ≠ 0 → t.writer.mWriting = true) : Owes n (t.emit e) := by
  have haccepted : (t.emit e).rt.accepted = s.rt.accepted := ht.accepted.trans (by rw [hrt])
  have hanswered : (t.emit e).answered = s.answered := by
    have heq : (t.emit e).answered = t.answered := by simp [answered, emit, he]
    rw [heq, ht.answered, answered, answered, hrt]
  have hcalled : (t.emit e).called = s.called ++ [id] := by
    have heq : (t.emit e).called = t.called ++ [id] := by simp [called, emit, Event.stashID, he]
    rw [heq, ht.called, called, called, hrt]
  have hleft : (t.emit e).pending = u.pending := ht.pending
  refine ⟨?_, ?_, ?_, fun id hmem => ?_, hreading, hrequest, hwriting⟩
  · rw [hanswered, haccepted]
    exact h.calls
  · rw [haccepted, hcalled, hleft, List.append_assoc]
    exact h.accounted.trans (hpending.append_left s.called)
  · rw [haccepted]
    exact h.nodup
  · rw [haccepted] at hmem
    have hlast : u.rt.stash.last ≤ t.rt.stash.last := ht.last
    rw [hrt] at hlast
    exact (h.below id hmem).trans hlast

/-- The read callback that waits is called, and its buffer is given back. -/
lemma Owes.callRead (h : Owes n s) (hid : s.reader.mReadCallID ≠ 0) {e : Event}
    (he : e.via = some (.stash s.reader.mReadCallID))
    (ht : Eased { s with reader.mReadCallID := 0, reader.mReadData := none } t) :
    Owes n (t.emit e) := by
  have htid : t.reader.mReadCallID = 0 := ht.readID
  refine h.callBack ht rfl ?_ he (fun hne => absurd htid hne) (fun hr => ?_) fun hne => ?_
  · simp [pending, hid]
  · rw [ht.isRequest] at hr
    exact ht.requestID (h.request hr)
  · rw [ht.writeID] at hne
    exact ht.writing (h.writing hne)

/-- The write callback that waits is called. -/
lemma Owes.callWrite (h : Owes n s) (hid : s.writer.mWriteCallID ≠ 0) {e : Event}
    (he : e.via = some (.stash s.writer.mWriteCallID))
    (ht : Eased { s with writer.mWriteCallID := 0 } t) : Owes n (t.emit e) := by
  have htid : t.writer.mWriteCallID = 0 := ht.writeID
  refine h.callBack ht rfl ?_ he (fun hne => ?_) (fun hr => ?_) fun hne => absurd htid hne
  · simp [pending, hid]
  · rw [ht.readID] at hne
    exact ⟨ht.readData (h.reading hne).1, ht.requestID (h.reading hne).2⟩
  · rw [ht.isRequest] at hr
    exact ht.requestID (h.request hr)

/-- `OnLoop` may return where no finished operation waits. -/
lemma Owes.loopReturn (h : Owes n s)
    (hr : s.mSocket = true → s.reader.mReadCallID ≠ 0 → s.ReadReady → s.rt.loopQueued = true)
    (hw : s.mSocket = true → s.writer.mWriteCallID ≠ 0 → s.WriteReady → s.rt.loopQueued = true)
    (hdel : s.loopReturn.rt.deleted = false) : Owing n s.loopReturn := by
  unfold LowHTTPDirect.loopReturn at hdel ⊢
  dsimp only at hdel ⊢
  split
  · next hsock =>
    exact ⟨h.eased (.of_ledger rfl),
      fun hne hready => .inl (hr hsock hne hready),
      fun hne hready => .inl (.inl (hw hsock hne hready))⟩
  · next hsock =>
    rw [if_neg hsock] at hdel
    cases hdel

lemma Owes.onLoopWrite (h : Owes n s)
    (hr : s.reader.mReadCallID ≠ 0 → s.ReadReady → s.rt.loopQueued = true)
    (hdel : s.onLoopWrite.rt.deleted = false) : Owing n s.onLoopWrite := by
  unfold LowHTTPDirect.onLoopWrite at hdel ⊢
  split
  · next hgo =>
    dsimp only
    split
    · exact ⟨h.callWrite hgo.2 rfl (.of_ledger rfl),
        fun hne hready => .inl (hr hne hready), fun hne => absurd rfl hne⟩
    · exact ⟨h.callWrite hgo.2 rfl (.of_ledger rfl),
        fun hne hready => .inl (hr hne hready), fun hne => absurd rfl hne⟩
  · next hgo =>
    rw [if_neg hgo] at hdel
    exact h.loopReturn (fun _ => hr) (fun _ hne hready => absurd ⟨hready, hne⟩ hgo) hdel

lemma Owes.onLoopRead (h : Owes n s) (hp : s.PassesOn) (hdel : (s.onLoopRead E).rt.deleted = false)
    (hu : (s.onLoopRead E).rt.undefined = false) : Owing n (s.onLoopRead E) := by
  unfold LowHTTPDirect.onLoopRead at hdel hu ⊢
  split
  · next hreq =>
    rw [if_pos hreq] at hdel
    have hnot := hp.2 (by simpa using hreq)
    exact h.loopReturn (fun hsock hne hready => absurd ⟨hsock, .inl ⟨hne, hready⟩⟩ hnot)
      (fun hsock hne hready => absurd ⟨hsock, .inr ⟨hne, hready⟩⟩ hnot) hdel
  · next hreq =>
    rw [if_neg hreq] at hdel hu
    split
    · next hgo =>
      rw [if_pos hgo] at hdel hu
      have herr : ¬((s.mSocket ∧ s.mReadError) ∨ s.mHTTPError) := fun herr =>
        hp.1 ⟨by simpa using hreq, hgo.1, herr⟩
      dsimp only at hdel hu ⊢
      rw [if_neg (by exact herr)] at hdel hu ⊢
      rcases reportRead_cases (E := E) (unlock { s.lock.removeStash s.reader.mReadCallID with
        reader.mReadCallID := 0
        rt.inLoop := some .read }) (.stash s.reader.mReadCallID) with
        hu' | ⟨v, e, heq, he, heased, hl, hw⟩
      · simp [hu'] at hu
      · rw [heq]
        refine ⟨h.callRead hgo.1 he (Eased.trans ?_ heased), fun hne => ?_, fun _ _ => .inr hl.inLoop⟩
        · exact .of_ledger rfl
        · exact absurd heased.readID hne
    · next hgo =>
      rw [if_neg hgo] at hdel
      refine h.onLoopWrite (fun hne hready => absurd ⟨hne, ?_⟩ hgo) hdel
      exact hready

lemma Owes.onLoopError (h : Owes n s) (hp : s.errorReady = false → s.PassesOn)
    (hdel : (s.onLoopError E).rt.deleted = false) (hu : (s.onLoopError E).rt.undefined = false) :
    Owing n (s.onLoopError E) := by
  unfold LowHTTPDirect.onLoopError at hdel hu ⊢
  split
  · dsimp only
    generalize hv : ({ s with
      mReadError := false
      mHTTPError := false
      rt.inLoop := some .error } : LowHTTPDirect) = v
    have hev : Eased s v := by
      rw [← hv]
      exact .of_ledger rfl
    have hloop : v.detach.rt.inLoop = some .error := by
      rw [(lulled_detach v).inLoop, ← hv]
    exact ⟨h.eased ((hev.trans (eased_detach v)).trans
      ⟨log_of_emit rfl rfl, rfl, le_rfl, rfl, rfl, id, rfl, id, id⟩),
      fun _ _ => .inr (.inr hloop), fun _ _ => .inl (.inr (.inr hloop))⟩
  · next hgo =>
    rw [if_neg hgo] at hdel hu
    refine h.onLoopRead (hp ?_) hdel hu
    simp only [errorReady]
    simpa [not_and, not_or, and_assoc] using hgo

lemma Owes.onLoopRequest (h : Owes n s) (hk : s.mRequestCallID = 0 → ¬s.Unreported)
    (hp : s.headersReady = false → s.errorReady = false → s.PassesOn)
    (hdel : (s.onLoopRequest E).rt.deleted = false) (hu : (s.onLoopRequest E).rt.undefined = false) :
    Owing n (s.onLoopRequest E) := by
  have hqueue : Eased s { s with rt.loopQueued := false } := .of_ledger rfl
  unfold LowHTTPDirect.onLoopRequest at hdel hu ⊢
  dsimp only at hdel hu ⊢
  split
  · next hid =>
    rw [if_pos hid] at hdel
    have hnot := hk hid
    have hsock (hs : (if s.mClosed then detach { s with rt.loopQueued := false }
        else { s with rt.loopQueued := false }).mSocket = true) :
        s.mSocket = true ∧ (if s.mClosed then detach { s with rt.loopQueued := false }
          else { s with rt.loopQueued := false }) = { s with rt.loopQueued := false } := by
      split at hs
      · unfold detach at hs
        split at hs
        · cases hs
        · next hn => exact absurd hs hn
      · next hc => exact ⟨hs, if_neg hc⟩
    refine Owes.loopReturn ?_ (fun hs hne hready => ?_) (fun hs hne hready => ?_) hdel
    · split
      · exact h.eased (hqueue.trans (eased_detach _))
      · exact h.eased hqueue
    · obtain ⟨hs, heq⟩ := hsock hs
      rw [heq] at hne hready
      exact absurd ⟨hs, .inl ⟨hne, hready⟩⟩ hnot
    · obtain ⟨hs, heq⟩ := hsock hs
      rw [heq] at hne hready
      exact absurd ⟨hs, .inr ⟨hne, hready⟩⟩ hnot
  · next hid =>
    rw [if_neg hid] at hdel hu
    have hheaders : s.headersReady = match s.parser.mParamFirst with
      | none => false
      | some b => !s.mIsRequest && (s.parser.heap b).type = .header && s.parser.mAtTrailer := rfl
    split
    · next hfirst =>
      simp only [hfirst] at hdel hu hheaders
      exact (h.eased hqueue).onLoopError (hp hheaders) hdel hu
    · next b hfirst =>
      simp only [hfirst] at hdel hu hheaders
      split
      · next hgo =>
        rw [if_pos hgo] at hu
        split
        · next hnone => simp only [hnone] at hu; cases hu
        · next data p hsome =>
          have hreq : Owes n { s with mIsRequest := true } :=
            ⟨h.calls, h.accounted, h.nodup, h.below, h.reading, fun _ => hid, h.writing⟩
          exact ⟨hreq.eased ⟨log_of_emit rfl rfl, rfl, le_rfl, rfl, rfl, id, rfl, id, id⟩,
            fun _ _ => .inr (.inl rfl), fun _ _ => .inl (.inr (.inl rfl))⟩
      · next hgo =>
        rw [if_neg hgo] at hdel hu
        refine (h.eased hqueue).onLoopError (hp ?_) hdel hu
        rw [hheaders]
        simpa [not_and, and_assoc] using hgo

lemma Owing.OnLoop (h : Owing n s) (hk : s.LoopKeeps) (hdel : (s.OnLoop E).rt.deleted = false)
    (hu : (s.OnLoop E).rt.undefined = false) : Owing n (s.OnLoop E) := by
  unfold LowHTTPDirect.OnLoop at hdel hu ⊢
  unfold LoopKeeps at hk
  have hawake (hloop : s.rt.inLoop = some .read ∨ s.rt.inLoop = some .write) (ha : s.Awake) :
      s.rt.loopQueued = true := by
    unfold Awake at ha
    rcases hloop with hloop | hloop
    · simpa [hloop] using ha
    · simpa [hloop] using ha
  split
  · next hloop =>
    simp only [hloop] at hk hdel hu
    split
    · next hq =>
      rw [if_pos hq] at hdel hu
      exact h.owes.onLoopRequest hk.1 hk.2 hdel hu
    · exact h
  · next hloop =>
    simp only [hloop] at hk hdel hu
    exact h.owes.onLoopError hk hdel hu
  · next hloop =>
    simp only [hloop] at hk hdel hu
    exact h.owes.onLoopRead hk hdel hu
  · next hloop =>
    simp only [hloop] at hdel
    exact h.owes.onLoopWrite (fun hne hr => hawake (.inl hloop) (h.read hne hr)) hdel
  · next hloop =>
    simp only [hloop] at hdel
    refine h.owes.loopReturn (fun _ hne hr => hawake (.inr hloop) (h.read hne hr))
      (fun _ hne hr => ?_) hdel
    exact (h.write hne hr).elim (hawake (.inr hloop)) fun hread => by simp [hloop] at hread

/-! ### The steps -/

/-- The state of a run in which no callback has been let go, after `n` calls. -/
structure Kept (n : Nat) (s : LowHTTPDirect) : Prop where
  stage : Stage s
  errors : s.ErrorsClosed
  owing : s.rt.deleted = false → s.rt.undefined = false → Owing n s

lemma Owing.step (h : Owing n s) (hs : Stage s) (hclosed : s.ErrorsClosed)
    (hdel : s.rt.deleted = false) (hund : s.rt.undefined = false) {i : Input} (hk : s.Keeps E i)
    (hdel' : (step E s i).rt.deleted = false) (hund' : (step E s i).rt.undefined = false) :
    Owing (n + if i.calls then 1 else 0) (step E s i) := by
  obtain ⟨hmet, hsent, hloop⟩ := hk
  rw [step_alive hdel hund] at hdel' hund' ⊢
  cases i with
  | setRequestCallID =>
    change Owing n s.SetRequestCallID
    rw [SetRequestCallID]
    dsimp only
    split
    · exact h.of_lulled ⟨fun _ => rfl, rfl, fun h => ⟨h, id⟩, id⟩ (h.owes.eased
        ⟨log_of_eq rfl, rfl, Nat.le_succ _, rfl, rfl, id, rfl, fun _ => Nat.succ_ne_zero _, id⟩)
        fun _ hr => .inl hr
    · exact h.of_lulled (.of_agenda rfl) (h.owes.eased
        ⟨log_of_eq rfl, rfl, Nat.le_succ _, rfl, rfl, id, rfl, fun _ => Nat.succ_ne_zero _, id⟩)
        fun _ hr => .inl hr
  | read len => exact h.Read hs hclosed hdel hund hmet hund'
  | writeHeaders txt len isChunked results => exact h.WriteHeaders hsent
  | write data results => exact h.Write hsent hund'
  | detach =>
    have hemit : Eased s.detach (s.detach.emit (.detached (s.reader.mRemainingRead.getD []))) :=
      ⟨log_of_emit rfl rfl, rfl, le_rfl, rfl, rfl, id, rfl, id, id⟩
    have hlulled : Lulled s.detach (s.detach.emit (.detached (s.reader.mRemainingRead.getD []))) := .of_agenda rfl
    exact h.of_lulled ((lulled_detach s).trans hlulled)
      (h.owes.eased ((eased_detach s).trans hemit)) fun _ hr => .inl (writeReady_detach hr)
  | socketRead input => exact h.onEventsRead hs hdel hund hmet hund'
  | socketWrite results => exact h.onEventsWrite hsent
  | onLoop => exact h.OnLoop (hloop rfl) hdel' hund'

lemma Kept.step (h : Kept n s) {i : Input} (hk : s.Keeps E i) :
    Kept (n + if i.calls then 1 else 0) (step E s i) := by
  refine ⟨h.stage.step i, h.errors.step i, fun hdel' hund' => ?_⟩
  by_cases halive : s.rt.deleted ∨ s.rt.undefined
  · have heq : LowHTTPDirect.step E s i = s := if_pos halive
    rw [heq] at hdel' hund'
    simp [hdel', hund'] at halive
  · simp only [not_or, Bool.not_eq_true] at halive
    exact (h.owing halive.1 halive.2).step h.stage h.errors halive.1 halive.2 hk hdel' hund'

lemma kept_start (isServer : Bool) (u : LowHTTPDirect) : Kept 0 (start isServer u) := by
  refine ⟨stage_start isServer u, ?_, fun _ _ => ⟨⟨rfl, .refl _, List.nodup_nil, ?_, ?_, ?_, ?_⟩,
    fun hne => absurd rfl hne, fun hne => absurd rfl hne⟩⟩
  · rintro (h | h)
    · cases h
    · cases h
  · simp [start]
  · exact fun hne => absurd rfl hne
  · exact fun hr => by cases hr
  · exact fun hne => absurd rfl hne

lemma Kept.run (h : Kept n s) {is : List Input} (hk : (machine E).Guarded (Keeps E) s is) :
    Kept (n + is.countP Input.calls) ((machine E).run s is) := by
  induction is generalizing n s with
  | nil => exact h
  | cons i is ih =>
    obtain ⟨hi, his⟩ := hk
    have hrun := ih (h.step hi) his
    rw [List.countP_cons, Nat.add_comm (is.countP Input.calls), ← Nat.add_assoc]
    exact hrun

lemma Owing.callsBack (h : Owing n s) : CallsBack n s := by
  refine ⟨h.owes.calls, h.owes.accounted, h.owes.nodup, fun hq hloop => ⟨fun hne hr => ?_,
    fun hne hr => ?_⟩⟩
  · have hawake := h.read hne hr
    simp [Awake, hq, hloop] at hawake
  · have hawake := h.write hne hr
    simp [Awake, hq, hloop] at hawake

instance (s : LowHTTPDirect) : Decidable s.ReadReady := inferInstanceAs (Decidable (_ ∨ _))

instance (s : LowHTTPDirect) : Decidable s.WriteReady := inferInstanceAs (Decidable (_ ∨ _))

instance (s : LowHTTPDirect) : Decidable s.PassesOn :=
  have : Decidable s.RejectsRead := inferInstanceAs (Decidable (_ ∧ _))
  have : Decidable s.Unreported := inferInstanceAs (Decidable (_ ∧ _))
  inferInstanceAs (Decidable (_ ∧ _))

instance (s : LowHTTPDirect) : Decidable s.LoopKeeps :=
  have : Decidable s.Unreported := inferInstanceAs (Decidable (_ ∧ _))
  match h : s.rt.inLoop with
  | none => decidable_of_iff ((s.mRequestCallID = 0 → ¬s.Unreported) ∧
      (s.headersReady = false → s.errorReady = false → s.PassesOn)) (by simp [LoopKeeps, h])
  | some .request => decidable_of_iff (s.errorReady = false → s.PassesOn) (by simp [LoopKeeps, h])
  | some .error => decidable_of_iff s.PassesOn (by simp [LoopKeeps, h])
  | some .read => isTrue (by simp [LoopKeeps, h])
  | some .write => isTrue (by simp [LoopKeeps, h])

instance (s : LowHTTPDirect) : ∀ data, Decidable (s.DropsAt E data)
  | [] => isFalse id
  | _ :: _ => inferInstanceAs (Decidable (_ ∧ _))

instance decidableFlushes : ∀ (s : LowHTTPDirect) (results : List WritevResult),
    Decidable (s.Flushes results)
  | s, [] => inferInstanceAs (Decidable (s.writer.mWriteBuffers = []))
  | s, .size k :: results =>
    have := decidableFlushes (s.written k) results
    inferInstanceAs (Decidable (_ ∨ _))
  | s, .again :: _ => inferInstanceAs (Decidable (s.writer.mWriteBuffers = []))
  | s, .error _ :: _ => inferInstanceAs (Decidable (s.writer.mWriteBuffers = []))

instance (s : LowHTTPDirect) (results : List WritevResult) : Decidable (s.DropsSent results) :=
  inferInstanceAs (Decidable (_ ∧ _))

instance decidableMet {ok : LowHTTPDirect → List UInt8 → Prop} [∀ s data, Decidable (ok s data)] :
    ∀ (fuel : Nat) (s : LowHTTPDirect) (data : List UInt8), Decidable (Met E ok fuel s data)
  | _, _, [] => isTrue (by simp [Met])
  | 0, _, _ :: _ => isTrue trivial
  | fuel + 1, s, c :: rest =>
    match h : s.socketByte E c rest with
    | (.next, t, rest') =>
      have : Decidable (Met E ok fuel t rest') := decidableMet fuel t rest'
      decidable_of_iff (ok s (c :: rest) ∧ Met E ok fuel t rest') (by simp [Met, h])
    | (.brk, _, _) => decidable_of_iff (ok s (c :: rest)) (by simp [Met, h])
    | (.err, _, _) => decidable_of_iff (ok s (c :: rest)) (by simp [Met, h])
    | (.done, _, _) => decidable_of_iff (ok s (c :: rest)) (by simp [Met, h])
    | (.undef, _, _) => decidable_of_iff (ok s (c :: rest)) (by simp [Met, h])

instance (s : LowHTTPDirect) (i : Input) :
    Decidable (s.LoopMeets E (fun s data => ¬s.DropsAt E data) i) :=
  match h : s.looped i with
  | none => isTrue fun t d ht => by rw [h] at ht; cases ht
  | some (t, d) =>
    decidable_of_iff (Met E (fun s data => ¬s.DropsAt E data) d.length t d)
      ⟨fun hm t' d' ht => by rw [h] at ht; cases ht; exact hm, fun hm => hm t d h⟩

instance (s : LowHTTPDirect) (i : Input) :
    Decidable (∀ t results, s.sending i = some (t, results) → ¬t.DropsSent results) :=
  match h : s.sending i with
  | none => isTrue fun t results ht => by cases ht
  | some (t, results) =>
    decidable_of_iff (¬t.DropsSent results)
      ⟨fun hd t' rs ht => by cases ht; exact hd, fun hd => hd t results rfl⟩

instance (s : LowHTTPDirect) : ∀ i : Input, Decidable (i = .onLoop → s.LoopKeeps)
  | .onLoop => decidable_of_iff s.LoopKeeps ⟨fun h _ => h, fun h => h rfl⟩
  | .setRequestCallID => isTrue fun h => by cases h
  | .read _ => isTrue fun h => by cases h
  | .writeHeaders .. => isTrue fun h => by cases h
  | .write .. => isTrue fun h => by cases h
  | .detach => isTrue fun h => by cases h
  | .socketRead _ => isTrue fun h => by cases h
  | .socketWrite _ => isTrue fun h => by cases h

instance (s : LowHTTPDirect) (i : Input) : Decidable (s.Keeps E i) :=
  inferInstanceAs (Decidable (_ ∧ _ ∧ _))

/-- A request with a body of three bytes, and a read that waits for them. -/
def readThree : List Input :=
  [.setRequestCallID,
    .socketRead (.data (bytes "POST / HTTP/1.1\r\nContent-Length: 3\r\n\r\n")), .onLoop, .onLoop,
    .read 10, .socketRead (.data (bytes "abc")), .onLoop]

/-- A chunked response to a request; the socket takes its end later. -/
def flushedLater : List Input :=
  [.setRequestCallID, .socketRead (.data (bytes "GET / HTTP/1.1\r\n\r\n")), .onLoop, .onLoop,
    .writeHeaders (bytes "HTTP/1.1 200 OK\r\nTransfer-Encoding: chunked\r\n\r\n") (-1) true
      [.size 1000],
    .write [] [], .socketWrite [.size 1000]]

end LowHTTPDirect

end LowJs.HTTPDirect
