import LowJs.HTTPDirect.Rounds

/-!
# What a step of the connection can do to the reading side

Writing, the registration of callbacks and the log leave the reading side alone, up to the `Init`
that follows a finished response. What remains are the byte loop, the buffer that `Read` takes over,
the reports to the request callback and to read callbacks, and the end of the stream.
-/

open LowJs.HTTPDirect.Parser

namespace LowJs.HTTPDirect

namespace LowHTTPDirect

variable {E : Env} {s t u : LowHTTPDirect}

/-- `t` has the reading side of `s`. -/
structure Aside (s t : LowHTTPDirect) : Prop where
  isServer : t.mIsServer = s.mIsServer
  isRequest : t.mIsRequest = s.mIsRequest
  closed : t.mClosed = s.mClosed
  readError : t.mReadError = s.mReadError
  httpError : t.mHTTPError = s.mHTTPError
  parser : t.parser = s.parser
  bytesRead : t.reader.mBytesRead = s.reader.mBytesRead
  remainingRead : t.reader.mRemainingRead = s.reader.mRemainingRead
  readData : t.reader.mReadData = s.reader.mReadData
  readPos : t.reader.mReadPos = s.reader.mReadPos
  readLen : t.reader.mReadLen = s.reader.mReadLen
  received : t.rt.received = s.rt.received
  copies : t.rt.copies = s.rt.copies
  ended : t.rt.ended = s.rt.ended
  directRead : t.rt.mDirectReadEnabled = s.rt.mDirectReadEnabled
  undefined : s.rt.undefined ≤ t.rt.undefined

namespace Aside

@[refl] lemma refl (s : LowHTTPDirect) : Aside s s := by
  constructor <;> rfl

@[trans] lemma trans (h : Aside s t) (h' : Aside t u) : Aside s u where
  isServer := h'.isServer.trans h.isServer
  isRequest := h'.isRequest.trans h.isRequest
  closed := h'.closed.trans h.closed
  readError := h'.readError.trans h.readError
  httpError := h'.httpError.trans h.httpError
  parser := h'.parser.trans h.parser
  bytesRead := h'.bytesRead.trans h.bytesRead
  remainingRead := h'.remainingRead.trans h.remainingRead
  readData := h'.readData.trans h.readData
  readPos := h'.readPos.trans h.readPos
  readLen := h'.readLen.trans h.readLen
  received := h'.received.trans h.received
  copies := h'.copies.trans h.copies
  ended := h'.ended.trans h.ended
  directRead := h'.directRead.trans h.directRead
  undefined := h.undefined.trans h'.undefined

lemma lock (s : LowHTTPDirect) : Aside s s.lock := by constructor <;> rfl

lemma unlock (s : LowHTTPDirect) : Aside s s.unlock := by constructor <;> rfl

lemma setLoopCallback (s : LowHTTPDirect) : Aside s s.setLoopCallback := by constructor <;> rfl

lemma emit (s : LowHTTPDirect) (e : Event) : Aside s (s.emit e) := by constructor <;> rfl

lemma undefine (s : LowHTTPDirect) : Aside s s.undefine := by
  constructor
  case undefined => exact Bool.le_true _
  all_goals rfl

lemma detach (s : LowHTTPDirect) : Aside s s.detach := by
  rw [LowHTTPDirect.detach]
  split
  · constructor <;> rfl
  · exact refl s

end Aside

/-! ### Writing -/

/-- What writing can do. -/
inductive Written (s : LowHTTPDirect) : LowHTTPDirect → Prop
  | aside {t : LowHTTPDirect} (h : Aside s t) : Written s t
  | init {t u : LowHTTPDirect} (h : Aside s t) (hserver : s.mIsServer)
    (hphase : s.parser.mPhase = .sendingResponse) (h' : Aside t.init u) : Written s u

lemma Aside.written (h : Aside s t) (h' : Written t u) : Written s u := by
  cases h' with
  | aside h' => exact .aside (h.trans h')
  | init h₁ hserver hphase h₂ =>
    exact .init (h.trans h₁) (by rwa [← h.isServer]) (by rwa [← h.parser]) h₂

lemma Written.trans_aside (h : Written s t) (h' : Aside t u) : Written s u := by
  cases h with
  | aside h => exact .aside (h.trans h')
  | init h₁ hserver hphase h₂ => exact .init h₁ hserver hphase (h₂.trans h')

lemma responseSent_written (s : LowHTTPDirect) : Written s s.responseSent := by
  rw [responseSent]
  split
  · split
    · split
      · exact .aside (by constructor <;> rfl)
      · exact .aside (.refl s)
    · split
      · next h => exact .init (.refl s) h.1 h.2 (.refl _)
      · exact .aside (.refl s)
  · exact .aside (.refl s)

lemma DoWrite_written (s : LowHTTPDirect) (results : List WritevResult) :
    Written s (s.DoWrite results) := by
  induction results generalizing s with
  | nil =>
    unfold DoWrite
    split
    · exact responseSent_written s
    · split
      · exact .aside (.undefine s)
      · exact .aside (.refl s)
  | cons r results ih =>
    unfold DoWrite
    split
    · exact responseSent_written s
    · split
      · exact .aside (.undefine s)
      · cases r with
        | size n =>
          refine Aside.written ?_ (ih (s.written n))
          constructor <;> rfl
        | again => exact .aside (.refl s)
        | error errno => exact .aside (by constructor <;> rfl)

lemma WriteHeaders_written (s : LowHTTPDirect) (txt : List UInt8) (len : Int) (isChunked : Bool)
    (results : List WritevResult) : Written s (s.WriteHeaders txt len isChunked results) := by
  rw [WriteHeaders]
  split
  · exact .aside (.refl s)
  · refine Written.trans_aside (Aside.written ?_ (DoWrite_written _ results)) (.unlock _)
    constructor <;> rfl

lemma aside_releaseSent (n : Nat) (s : LowHTTPDirect) : Aside s (releaseSent n s) := by
  induction n generalizing s with
  | zero => constructor <;> rfl
  | succ n ih =>
    refine Aside.trans ?_ (ih _)
    constructor <;> rfl

lemma aside_queueWrite (s : LowHTTPDirect) (data : List UInt8) : Aside s (s.queueWrite data) := by
  rw [queueWrite]
  split
  · dsimp only
    split
    · constructor <;> rfl
    · constructor <;> rfl
  · dsimp only
    split
    · constructor <;> rfl
    · constructor <;> rfl

lemma aside_writeOutcome (s : LowHTTPDirect) : Aside s s.writeOutcome := by
  rw [writeOutcome]
  split
  · exact .refl s
  · split
    · constructor <;> rfl
    · split
      · constructor <;> rfl
      · constructor <;> rfl

lemma Write_written (s : LowHTTPDirect) (data : List UInt8) (results : List WritevResult) :
    Written s (s.Write data results) := by
  rw [Write]
  split
  · exact .aside (.emit s _)
  · refine Written.trans_aside (Aside.written ?_ (DoWrite_written _ results))
      ((Aside.unlock _).trans (aside_writeOutcome _))
    exact (Aside.lock s).trans ((aside_releaseSent _ _).trans (aside_queueWrite _ data))

lemma onEventsWrite_written (s : LowHTTPDirect) (results : List WritevResult) :
    Written s (s.onEventsWrite results) := by
  rw [onEventsWrite]
  split
  · have h : Written s (OnSocketWrite { s with rt.mDirectWriteEnabled := false } results).2 := by
      rw [OnSocketWrite]
      refine Written.trans_aside ?_ (.unlock _)
      refine Written.trans_aside (t := (lock { s with rt.mDirectWriteEnabled := false }).DoWrite
        results) (Aside.written ?_ (DoWrite_written _ results)) ?_
      · constructor <;> rfl
      · dsimp only
        split
        · exact .setLoopCallback _
        · exact .refl _
    dsimp only
    split
    · refine h.trans_aside ?_
      constructor <;> rfl
    · exact h
  · exact .aside (.refl s)

/-! ### Reading -/

/-- `Read` takes over a buffer. -/
def takeBuffer (s : LowHTTPDirect) (len : Nat) : LowHTTPDirect :=
  { s with reader.mReadPos := 0, reader.mReadLen := len, reader.mReadData := some [] }

/-- The trailers are handed over. -/
def walked (s : LowHTTPDirect) (p : Parser) : LowHTTPDirect :=
  { s with
    mMutex := if s.parser.mParamFirst.isSome then s.mMutex.lock.unlock else s.mMutex
    reader.mBytesRead := 0
    parser := p }

lemma endMessage_eq (s : LowHTTPDirect) (via : Via) :
    s.endMessage E via =
      match s.parser.takeTrailers E with
      | (none, p) => undefine (s.walked p)
      | (some trailers, p) =>
        let t := { s.walked p with rt.ended := s.rt.ended ++ [(p.history, s.mClosed)] }
        (if s.reusable then t.detach else t).emit
          (.readEnd via s.reader.mBytesRead trailers
            (if s.reusable then t.detach else t).reusable) := by
  unfold endMessage walked
  by_cases h : s.parser.mParamFirst.isSome
  · simp only [h, if_true, lock, unlock]
    rfl
  · simp only [h, if_false, Bool.false_eq_true]
    rfl

/-- What the report to a read callback does. -/
inductive Reported (E : Env) (s : LowHTTPDirect) : LowHTTPDirect → Prop
  | data {t : LowHTTPDirect} (hpos : s.reader.mReadPos ≠ 0)
    (h : Aside { s with reader.mReadData := none, reader.mBytesRead := 0 } t) : Reported E s t
  | undefined {t : LowHTTPDirect} {p : Parser} (hpos : s.reader.mReadPos = 0)
    (hp : s.parser.takeTrailers E = (none, p))
    (h : Aside { s with parser := p, reader.mReadData := none, reader.mBytesRead := 0 } t)
    (hu : t.rt.undefined) : Reported E s t
  | ended {t : LowHTTPDirect} {p : Parser} {trailers : List (List UInt8)}
    (hpos : s.reader.mReadPos = 0) (hp : s.parser.takeTrailers E = (some trailers, p))
    (h : Aside { s with
      parser := p
      reader.mReadData := none
      reader.mBytesRead := 0
      rt.ended := s.rt.ended ++ [(p.history, s.mClosed)] } t) : Reported E s t

lemma reportRead_reported (s : LowHTTPDirect) (via : Via) : Reported E s (s.reportRead E via) := by
  rw [reportRead]
  dsimp only
  split
  · next hpos =>
    rw [endMessage_eq]
    split
    · next p hp =>
      refine .undefined hpos hp (Aside.trans ?_ (.undefine _)) rfl
      constructor <;> rfl
    · next trailers p hp =>
      refine .ended hpos hp (Aside.trans ?_ (.emit _ _))
      split
      · refine Aside.trans ?_ (.detach _)
        constructor <;> rfl
      · constructor <;> rfl
  · next hpos =>
    refine .data hpos ?_
    constructor <;> rfl

/-- The flags of an error are cleared when it is reported. -/
def clearErrors (s : LowHTTPDirect) : LowHTTPDirect :=
  { s with mReadError := false, mHTTPError := false }

/-- What `Read` does once the bytes kept back are parsed. -/
inductive Outcome (E : Env) (s : LowHTTPDirect) : LowHTTPDirect → Prop
  | undefined (hu : s.rt.undefined) : Outcome E s s
  | report (hu : s.rt.undefined = false)
    (h : s.reader.mReadPos ≠ 0 ∨ s.parser.mPhase = .sendingResponse ∨ s.mClosed) :
    Outcome E s (s.reportRead E .nextTick)
  | error {t : LowHTTPDirect} (hpos : s.reader.mReadPos = 0) (hc : s.mClosed = false)
    (herr : s.mReadError ∨ s.mHTTPError) (h : Aside s.clearErrors t) : Outcome E s t
  | accepted {t : LowHTTPDirect} (h : Aside s t) : Outcome E s t

lemma readOutcome_outcome (s : LowHTTPDirect) : Outcome E (s.readRemaining E) (s.readOutcome E) := by
  rw [readOutcome]
  dsimp only
  split
  · next hu => exact .undefined hu
  · next hu =>
    split
    · next h => exact .report (by simpa using hu) h
    · next h =>
      simp only [ne_eq, not_or, not_not, Bool.not_eq_true] at h
      split
      · next herr =>
        refine .error h.1 h.2.2 herr ?_
        refine Aside.trans ?_ ((Aside.detach _).trans (.emit _ _))
        constructor <;> rfl
      · exact .accepted (by constructor <;> rfl)

lemma Read_eq (hreq : s.mIsRequest = true) (hdata : s.reader.mReadData = none)
    (hsock : s.mSocket = true) (len : Nat) :
    s.Read E len = (s.takeBuffer len).lock.readOutcome E :=
  if_neg (by simp [hreq, hdata, hsock])

lemma Read_cases (s : LowHTTPDirect) (len : Nat) :
    ((!s.mIsRequest ∨ s.reader.mReadData.isSome ∨ !s.mSocket) ∧ Aside s (s.Read E len)) ∨
    (s.mIsRequest ∧ s.reader.mReadData = none ∧ s.mSocket ∧
      Outcome E ((s.takeBuffer len).lock.readRemaining E) (s.Read E len)) := by
  rw [Read]
  split
  · next h => exact .inl ⟨h, .emit s _⟩
  · next h =>
    simp only [Bool.not_eq_true', not_or, Bool.not_eq_false, Option.not_isSome_iff_eq_none] at h
    exact .inr ⟨h.1, h.2.1, h.2.2, readOutcome_outcome _⟩

/-- What a piece of `OnLoop` can do. -/
inductive Looped (E : Env) (s : LowHTTPDirect) : LowHTTPDirect → Prop
  | aside {t : LowHTTPDirect} (h : Aside s t) : Looped E s t
  | undefined {t : LowHTTPDirect} {p : Parser} (hp : s.parser.takeHeaders E = (none, p))
    (h : Aside { s with parser := p } t) (hu : t.rt.undefined) : Looped E s t
  | request {t : LowHTTPDirect} {data : List (List UInt8)} {p : Parser} {b : Nat}
    (hreq : s.mIsRequest = false) (hfirst : s.parser.mParamFirst = some b)
    (htype : (s.parser.heap b).type = .header) (ht : s.parser.mAtTrailer)
    (hp : s.parser.takeHeaders E = (some data, p))
    (h : Aside { s with parser := p, mIsRequest := true, reader.mBytesRead := 0 } t) : Looped E s t
  | requestError {t : LowHTTPDirect} (hreq : s.mIsRequest = false)
    (h : Aside s.clearErrors t) : Looped E s t
  | error {t : LowHTTPDirect} (hreq : s.mIsRequest) (hid : s.reader.mReadCallID ≠ 0)
    (herr : (s.mSocket ∧ s.mReadError) ∨ s.mHTTPError)
    (h : Aside s.clearErrors t) : Looped E s t
  | report {t : LowHTTPDirect} (hreq : s.mIsRequest) (hid : s.reader.mReadCallID ≠ 0)
    (herr : ¬((s.mSocket ∧ s.mReadError) ∨ s.mHTTPError))
    (hend : s.reader.mReadPos ≠ 0 ∨ s.parser.mPhase = .sendingResponse ∨ s.mClosed)
    (h : Aside s t) : Looped E s (t.reportRead E (.stash s.reader.mReadCallID))

lemma aside_loopReturn (s : LowHTTPDirect) : Aside s s.loopReturn := by
  rw [loopReturn]
  dsimp only
  split
  · constructor <;> rfl
  · constructor <;> rfl

lemma aside_onLoopWrite (s : LowHTTPDirect) : Aside s s.onLoopWrite := by
  rw [onLoopWrite]
  split
  · dsimp only
    split
    · constructor <;> rfl
    · constructor <;> rfl
  · exact aside_loopReturn s

lemma onLoopRead_looped (s : LowHTTPDirect) : Looped E s (s.onLoopRead E) := by
  rw [onLoopRead]
  split
  · exact .aside (aside_loopReturn s)
  · next hreq =>
    simp only [Bool.not_eq_true', Bool.not_eq_false] at hreq
    split
    · next h =>
      dsimp only
      split
      · next herr =>
        refine .error hreq h.1 herr ?_
        refine Aside.trans ?_ ((Aside.unlock _).trans ((Aside.detach _).trans (.emit _ _)))
        constructor <;> rfl
      · next herr =>
        refine .report hreq h.1 herr ?_ ?_
        · have hend := h.2
          have h1 : ¬(s.mSocket ∧ s.mReadError) := fun h => herr (.inl h)
          have h2 : ¬s.mHTTPError := fun h => herr (.inr h)
          simpa only [h1, h2, false_or, or_false, Bool.false_eq_true] using hend
        · constructor <;> rfl
    · exact .aside (aside_onLoopWrite s)

lemma onLoopError_looped (s : LowHTTPDirect) : Looped E s (s.onLoopError E) := by
  rw [onLoopError]
  split
  · next h =>
    refine .requestError (by simpa using h.1) ?_
    refine Aside.trans ?_ ((Aside.detach _).trans (.emit _ _))
    constructor <;> rfl
  · exact onLoopRead_looped s

/-- The main loop takes the object from its queue. -/
lemma Looped.of_queue (h : Looped E { s with rt.loopQueued := false } t) : Looped E s t := by
  have hqueue : Aside s { s with rt.loopQueued := false } := by
    constructor <;> rfl
  cases h with
  | aside h => exact .aside (hqueue.trans h)
  | undefined hp h hu =>
    refine .undefined hp (Aside.trans ?_ h) hu
    constructor <;> rfl
  | request hreq hfirst htype ht hp h =>
    refine .request hreq hfirst htype ht hp (Aside.trans ?_ h)
    constructor <;> rfl
  | requestError hreq h =>
    refine .requestError hreq (Aside.trans ?_ h)
    constructor <;> rfl
  | error hreq hid herr h =>
    refine .error hreq hid herr (Aside.trans ?_ h)
    constructor <;> rfl
  | report hreq hid herr hend h => exact .report hreq hid herr hend (hqueue.trans h)

lemma OnLoop_looped (s : LowHTTPDirect) : Looped E s (s.OnLoop E) := by
  rw [OnLoop]
  split
  · split
    · rw [onLoopRequest]
      dsimp only
      split
      · refine .of_queue (.aside ?_)
        split
        · exact (Aside.detach _).trans (aside_loopReturn _)
        · exact aside_loopReturn _
      · split
        · exact .of_queue (onLoopError_looped _)
        · next b hb =>
          split
          · next h =>
            split
            · next p hp =>
              refine .undefined hp (Aside.trans ?_ (.undefine _)) rfl
              constructor <;> rfl
            · next data p hp =>
              refine .request (by simpa using h.1) hb h.2.1 h.2.2 hp ?_
              constructor <;> rfl
          · exact .of_queue (onLoopError_looped _)
    · exact .aside (.refl s)
  · exact onLoopError_looped s
  · exact onLoopRead_looped s
  · exact .aside (aside_onLoopWrite s)
  · exact .aside (aside_loopReturn s)

/-! ### What the byte loop leaves alone -/

/-- `t` differs from `s` in what the byte loop works on. -/
structure Outer (s t : LowHTTPDirect) : Prop where
  socket : t.mSocket = s.mSocket
  closed : t.mClosed = s.mClosed
  readError : t.mReadError = s.mReadError
  httpError : t.mHTTPError = s.mHTTPError
  undefined : t.rt.undefined = s.rt.undefined
  log : t.rt.log = s.rt.log
  writeBuffers : t.writer.mWriteBuffers = s.writer.mWriteBuffers
  writeChunked : t.writer.mWriteChunkedEncoding = s.writer.mWriteChunkedEncoding

@[refl] lemma Outer.refl (s : LowHTTPDirect) : Outer s s := by
  constructor <;> rfl

@[trans] lemma Outer.trans (h : Outer s t) (h' : Outer t u) : Outer s u where
  socket := h'.socket.trans h.socket
  closed := h'.closed.trans h.closed
  readError := h'.readError.trans h.readError
  httpError := h'.httpError.trans h.httpError
  undefined := h'.undefined.trans h.undefined
  log := h'.log.trans h.log
  writeBuffers := h'.writeBuffers.trans h.writeBuffers
  writeChunked := h'.writeChunked.trans h.writeChunked

lemma outer_sectionEnded (s : LowHTTPDirect) : Outer s s.sectionEnded := by
  rw [sectionEnded]
  dsimp only
  split
  · split
    · constructor <;> rfl
    · constructor <;> rfl
  · constructor <;> rfl

lemma outer_bodyRead (s : LowHTTPDirect) : Outer s s.bodyRead := by
  rw [bodyRead]
  split
  · split
    · constructor <;> rfl
    · dsimp only
      split
      · constructor <;> rfl
      · constructor <;> rfl
  · exact .refl s

lemma outer_bodyBytes (s : LowHTTPDirect) (data : List UInt8) : Outer s (s.bodyBytes data).2.1 := by
  rw [bodyBytes]
  dsimp only
  split
  · constructor <;> rfl
  · split
    · constructor <;> rfl
    · split
      · constructor <;> rfl
      · obtain ⟨h1, h2, h3, h4, h5, h6, h7, h8⟩ := outer_bodyRead { s.lock with
          rt.copies := s.lock.rt.copies ++ [⟨s.lock.copySize data.length, data.length,
            s.lock.reader.mReadLen - s.lock.reader.mReadPos⟩]
          reader.mReadData := some (‹List UInt8›.take s.lock.reader.mReadPos.toNat ++
            data.take (s.lock.copySize data.length).toNat)
          reader.mReadPos := int32 (s.lock.reader.mReadPos + s.lock.copySize data.length)
          parser.mDataLen := int32 (s.lock.parser.mDataLen + s.lock.copySize data.length)
          parser.history := s.lock.parser.history.take
            (data.take (s.lock.copySize data.length).toNat) }
        exact ⟨h1, h2, h3, h4, h5, h6, h7, h8⟩

lemma outer_paramBytes (s : LowHTTPDirect) (c : UInt8) : Outer s (s.paramBytes E c).2 := by
  have hstore (t : LowHTTPDirect) (ht : Outer s t) (r : ParamExit × Parser) :
      Outer s (t.afterParam r).2 := by
    have hparser (p : Parser) : Outer s { t with parser := p } :=
      ⟨ht.socket, ht.closed, ht.readError, ht.httpError, ht.undefined, ht.log, ht.writeBuffers,
        ht.writeChunked⟩
    obtain ⟨e, p⟩ := r
    cases e with
    | next => exact hparser p
    | err => exact hparser p
    | ended => exact (hparser p).trans (outer_sectionEnded _)
  rw [paramBytes_def]
  split
  · refine hstore _ ?_ _
    constructor <;> rfl
  · refine hstore _ ?_ _
    constructor <;> rfl
  · constructor <;> rfl
  · constructor <;> rfl

lemma outer_socketByte (s : LowHTTPDirect) (c : UInt8) (rest : List UInt8) :
    Outer s (s.socketByte E c rest).2.1 := by
  have hmarked (p : Parser) : Outer s { s with parser := p } := by
    constructor <;> rfl
  rw [socketByte]
  split
  · exact hmarked _
  · dsimp only
    split
    · exact hmarked _
    · exact (hmarked _).trans (outer_bodyBytes _ _)
    · split
      · exact hmarked _
      · exact hmarked _
    · exact (hmarked _).trans (outer_paramBytes _ _)

lemma outer_socketLoop (s : LowHTTPDirect) (fuel : Nat) (data : List UInt8) :
    Outer s (s.socketLoop E fuel data).2.1 := by
  induction fuel generalizing s data with
  | zero => cases data <;> rfl
  | succ fuel ih =>
    cases data with
    | nil => exact .refl s
    | cons c rest =>
      have hbyte := outer_socketByte (E := E) s c rest
      simp only [socketLoop]
      cases hr : s.socketByte E c rest with
      | mk exit r =>
        rw [hr] at hbyte
        cases exit with
        | next => exact hbyte.trans (ih _ _)
        | brk => exact hbyte
        | err => exact hbyte
        | done => exact hbyte
        | undef => exact hbyte

/-! ### Where the byte loop runs -/

/-- The state in which `Read` parses the bytes kept back. -/
def reread (s : LowHTTPDirect) : LowHTTPDirect :=
  { s.lock.unlock with setCallback := false, reader.mRemainingRead := none }

/-- The bytes that the byte loop gets when the input `i` arrives, and the state it starts in. -/
def looped (s : LowHTTPDirect) (i : Input) : Option (LowHTTPDirect × List UInt8) :=
  if s.rt.deleted ∨ s.rt.undefined then none
  else
    match i with
    | .socketRead (.data d) =>
      if s.mSocket ∧ s.rt.mDirectReadEnabled ∧ !s.rt.closed ∧ !s.mClosed then
        some ({ s with
          setCallback := false
          rt.mDirectReadEnabled := false
          rt.received := s.rt.received ++ d }, d)
      else none
    | .read len =>
      if s.mIsRequest ∧ s.reader.mReadData = none ∧ s.mSocket ∧ !s.mClosed then
        s.reader.mRemainingRead.map fun data => ((s.takeBuffer len).reread, data)
      else none
    | _ => none

/-- Where the byte loop runs. -/
lemma looped_cases {i : Input} {d : List UInt8} (hl : s.looped i = some (t, d)) :
    s.rt.deleted = false ∧ s.rt.undefined = false ∧ s.mSocket = true ∧ s.mClosed = false ∧
      ((∃ len, i = .read len ∧ s.mIsRequest = true ∧ s.reader.mReadData = none ∧
          s.reader.mRemainingRead = some d ∧ t = (s.takeBuffer len).reread) ∨
        (i = .socketRead (.data d) ∧ s.rt.mDirectReadEnabled = true ∧ s.rt.closed = false ∧
          t = { s with
            setCallback := false
            rt.mDirectReadEnabled := false
            rt.received := s.rt.received ++ d })) := by
  unfold looped at hl
  split at hl
  · cases hl
  · next halive =>
    simp only [not_or, Bool.not_eq_true] at halive
    split at hl
    · split at hl
      · next h =>
        cases hl
        exact ⟨halive.1, halive.2, h.1, by simpa using h.2.2.2, .inr ⟨rfl, h.2.1,
          by simpa using h.2.2.1, rfl⟩⟩
      · cases hl
    · next len =>
      split at hl
      · next h =>
        obtain ⟨data, hdata, heq⟩ := Option.map_eq_some_iff.mp hl
        cases heq
        exact ⟨halive.1, halive.2, h.2.2.1, by simpa using h.2.2.2,
          .inl ⟨len, rfl, h.1, h.2.1, hdata, rfl⟩⟩
      · cases hl
    · cases hl

/-- Every iteration of the byte loop that the input sets off satisfies `ok`. -/
def LoopMeets (E : Env) (ok : LowHTTPDirect → List UInt8 → Prop) (s : LowHTTPDirect) (i : Input) :
    Prop :=
  ∀ t d, s.looped i = some (t, d) → Met E ok d.length t d

/-- The byte loop on `d`, and the return of `SocketData`. -/
def runLoop (E : Env) (s : LowHTTPDirect) (d : List UInt8) (inLoop : Bool) :
    Bool × LowHTTPDirect :=
  let r := s.socketLoop E d.length d
  loopExit r.1 r.2.1 r.2.2 inLoop

lemma SocketData_cons (hc : s.mClosed = false) (c : UInt8) (d : List UInt8) (inLoop : Bool) :
    SocketData E s (.data (c :: d)) inLoop =
      runLoop E { s with setCallback := false } (c :: d) inLoop :=
  SocketData_eq hc (List.cons_ne_nil c d) inLoop

/-- Nothing is parsed any more. -/
def shut (s : LowHTTPDirect) : LowHTTPDirect := { s with mClosed := true }

lemma SocketData_error (s : LowHTTPDirect) (errno : Int) (inLoop : Bool) :
    Aside { s.shut with mReadError := s.mReadError || !s.mClosed }
      (SocketData E s (.error errno) inLoop).2 := by
  by_cases hc : s.mClosed = true
  · have heq : SocketData E s (.error errno) inLoop = closeDone { s with setCallback := false } :=
      if_pos hc
    rw [heq]
    constructor <;> simp [closeDone, setLoopCallback, shut, hc]
  · have heq : SocketData E s (.error errno) inLoop =
        closeDone { s with setCallback := false, mReadError := true } := if_neg hc
    rw [heq]
    constructor <;> simp [closeDone, setLoopCallback, shut, hc]

lemma SocketData_shut (s : LowHTTPDirect) {d : List UInt8} (hd : d = [] ∨ s.mClosed)
    (inLoop : Bool) : Aside s.shut (SocketData E s (.data d) inLoop).2 := by
  have heq : SocketData E s (.data d) inLoop = closeDone { s with setCallback := false } := by
    cases d with
    | nil => rfl
    | cons c d => exact if_pos (hd.resolve_left (by simp))
  rw [heq]
  constructor <;> rfl

/-- What follows a call of `SocketData`: the socket goes on reading if it is told to. -/
def continued (r : Bool × LowHTTPDirect) : LowHTTPDirect := if r.1 then r.2.triggerRead else r.2

/-- What `Read` does with the bytes kept back. -/
inductive Remaining (E : Env) (s : LowHTTPDirect) : LowHTTPDirect → Prop
  | kept {t : LowHTTPDirect} (hrem : s.reader.mRemainingRead = none ∨ s.mClosed) (h : Aside s t) :
    Remaining E s t
  | empty {t : LowHTTPDirect} (hrem : s.reader.mRemainingRead = some [])
    (h : Aside { s.shut with reader.mRemainingRead := none } t) : Remaining E s t
  | loop {t : LowHTTPDirect} {data : List UInt8} (hrem : s.reader.mRemainingRead = some data)
    (hne : data ≠ []) (hc : s.mClosed = false)
    (h : Aside (continued (s.reread.runLoop E data true)) t) : Remaining E s t

lemma readRemaining_kept (hrem : s.reader.mRemainingRead = none ∨ s.mClosed) :
    s.lock.readRemaining E = s.lock.unlock := by
  rw [readRemaining]
  split
  · rfl
  · next data hdata =>
    have hdata : s.reader.mRemainingRead = some data := hdata
    exact if_pos (hrem.resolve_left (by simp [hdata]))

lemma readRemaining_loop {c : UInt8} {d : List UInt8}
    (hrem : s.reader.mRemainingRead = some (c :: d)) (hc : s.mClosed = false) :
    s.lock.readRemaining E =
      let r := s.reread.runLoop E (c :: d) true
      if r.1 then r.2.triggerRead else r.2 := by
  rw [readRemaining]
  rw [show s.lock.reader = s.reader from rfl, hrem]
  dsimp only
  rw [SocketData_cons (by exact hc)]
  exact if_neg (by simp [lock, hc])

lemma readRemaining_nil (hrem : s.reader.mRemainingRead = some []) (hc : s.mClosed = false) :
    s.lock.readRemaining E = s.reread.closeDone.2 := by
  rw [readRemaining]
  rw [show s.lock.reader = s.reader from rfl, hrem]
  exact if_neg (by simp [lock, hc])

lemma readRemaining_remaining (s : LowHTTPDirect) : Remaining E s (s.lock.readRemaining E) := by
  by_cases hkept : s.reader.mRemainingRead = none ∨ s.mClosed
  · rw [readRemaining_kept hkept]
    exact .kept hkept (.trans (.lock s) (.unlock _))
  · obtain ⟨hrem, hc⟩ := not_or.mp hkept
    obtain ⟨data, hrem⟩ := Option.ne_none_iff_exists'.mp hrem
    have hc : s.mClosed = false := by simpa using hc
    cases data with
    | nil =>
      rw [readRemaining_nil hrem hc]
      refine .empty hrem ?_
      constructor <;> rfl
    | cons c d =>
      rw [readRemaining_loop hrem hc]
      exact .loop hrem (by simp) hc (.refl _)

/-- What an event of the socket does that has to do with reading. -/
inductive Received (E : Env) (s : LowHTTPDirect) : SocketInput → LowHTTPDirect → Prop
  | ignored {input : SocketInput} : Received E s input s
  | closed {t : LowHTTPDirect} {input : SocketInput} {r : List UInt8}
    (hdata : ∀ d, input = .data d → d = [] ∨ s.mClosed) {e : Bool}
    (he : e = s.mReadError ∨ s.mClosed = false ∧ ∃ errno, input = .error errno)
    (hr : s.mClosed = false → r = s.rt.received)
    (h : Aside { s.shut with mReadError := e, rt.received := r, rt.mDirectReadEnabled := false } t) :
    Received E s input t
  | data {t : LowHTTPDirect} {d : List UInt8} (hne : d ≠ []) (hc : s.mClosed = false)
    (hl : s.looped (.socketRead (.data d)) = some (t, d)) :
    Received E s (.data d) (continued (t.runLoop E d false))

lemma onEventsRead_loop {c : UInt8} {d : List UInt8}
    (hl : s.looped (.socketRead (.data (c :: d))) = some (t, c :: d)) :
    s.onEventsRead E (.data (c :: d)) =
      let r := t.runLoop E (c :: d) false
      if r.1 then { r.2 with rt.mDirectReadEnabled := true } else r.2 := by
  obtain ⟨-, -, hsock, hc, ⟨len, hi, -⟩ | ⟨-, hread, hclosed, rfl⟩⟩ := looped_cases hl
  · cases hi
  · rw [onEventsRead]
    rw [if_pos ⟨hsock, hread, by simp [hclosed]⟩]
    dsimp only
    rw [SocketData_cons (by exact hc)]

/-- Nothing more is read where nothing is parsed. -/
lemma SocketData_stop {input : SocketInput} (h : ∀ d, input = .data d → d = [] ∨ s.mClosed)
    (inLoop : Bool) : (SocketData E s input inLoop).1 = false := by
  cases input with
  | error errno =>
    rw [SocketData]
    dsimp only
    split
    · rfl
    · rfl
  | data d =>
    cases d with
    | nil => rfl
    | cons c d =>
      have hc : s.mClosed = true := (h (c :: d) rfl).resolve_left (by simp)
      exact congrArg Prod.fst (if_pos hc)

lemma onEventsRead_received (hdel : s.rt.deleted = false) (hund : s.rt.undefined = false)
    (input : SocketInput) : Received E s input (s.onEventsRead E input) := by
  by_cases hopen : s.mSocket ∧ s.rt.mDirectReadEnabled ∧ !s.rt.closed
  · have heq : s.onEventsRead E input =
        continued (SocketData E (received { s with rt.mDirectReadEnabled := false } input) input false) := by
      exact if_pos hopen
    cases input with
    | error errno =>
      have h := SocketData_error (E := E)
        { s with rt.mDirectReadEnabled := false, rt.readErrno := errno } errno false
      rw [heq, continued, if_neg (by rw [SocketData_stop (by simp)]; simp)]
      refine .closed (by simp) (e := s.mReadError || !s.mClosed) ?_ (r := s.rt.received)
        (fun _ => rfl) (Aside.trans ?_ h)
      · cases s.mClosed <;> simp
      · constructor <;> rfl
    | data d =>
      by_cases hd : d = [] ∨ s.mClosed = true
      · rw [heq, continued]
        cases d with
        | nil =>
          rw [if_neg (by rw [SocketData_stop (by simp)]; simp)]
          refine .closed (by simp) (e := s.mReadError) (.inl rfl) (r := s.rt.received)
            (fun _ => rfl) (Aside.trans ?_ (SocketData_shut (E := E)
              { s with rt.mDirectReadEnabled := false, rt.closed := true } (.inl rfl) false))
          constructor <;> rfl
        | cons c d =>
          have hc : s.mClosed = true := hd.resolve_left (by simp)
          have hstop := SocketData_stop (E := E)
            (s := { s with rt.mDirectReadEnabled := false, rt.received := s.rt.received ++ (c :: d) })
            (fun _ _ => .inr hc : ∀ d', SocketInput.data (c :: d) = .data d' → _) false
          rw [if_neg (by exact ne_of_eq_of_ne hstop Bool.false_ne_true)]
          refine .closed (fun _ _ => .inr hc) (e := s.mReadError) (.inl rfl)
            (r := s.rt.received ++ (c :: d)) (fun hn => ?_) (Aside.trans ?_ (SocketData_shut
              { s with rt.mDirectReadEnabled := false, rt.received := s.rt.received ++ (c :: d) }
              (.inr hc) false))
          · rw [hc] at hn
            cases hn
          · constructor <;> rfl
      · obtain ⟨hne, hc⟩ := not_or.mp hd
        have hc : s.mClosed = false := by simpa using hc
        cases d with
        | nil => exact absurd rfl hne
        | cons c d =>
          have hl : s.looped (.socketRead (.data (c :: d))) = some ({ s with
              setCallback := false
              rt.mDirectReadEnabled := false
              rt.received := s.rt.received ++ (c :: d) }, c :: d) := by
            simp [looped, hdel, hund, hopen, hc]
          rw [heq]
          dsimp only
          rw [SocketData_cons (by exact hc)]
          exact .data hne hc hl
  · have heq : s.onEventsRead E input = s := if_neg hopen
    rw [heq]
    exact .ignored

lemma step_alive (hdel : s.rt.deleted = false) (hund : s.rt.undefined = false) (i : Input) :
    step E s i =
      match i with
      | .setRequestCallID => s.SetRequestCallID
      | .read len => s.Read E len
      | .writeHeaders txt len isChunked results => s.WriteHeaders txt len isChunked results
      | .write data results => s.Write data results
      | .detach => s.Detach
      | .socketRead input => s.onEventsRead E input
      | .socketWrite results => s.onEventsWrite results
      | .onLoop => s.OnLoop E :=
  if_neg (by simp [hdel, hund])

/-- What the inputs do that only write, or ask for a callback. -/
lemma step_written (s : LowHTTPDirect) {i : Input}
    (hi : match i with
      | .read _ => False
      | .socketRead _ => False
      | .onLoop => False
      | _ => True) :
    Written s (step E s i) := by
  unfold step
  split
  · exact .aside (.refl s)
  · cases i with
    | setRequestCallID =>
      refine .aside ?_
      change Aside s s.SetRequestCallID
      unfold SetRequestCallID
      dsimp only
      split
      · constructor <;> rfl
      · constructor <;> rfl
    | read len => exact hi.elim
    | writeHeaders txt len isChunked results => exact WriteHeaders_written s txt len isChunked results
    | write data results => exact Write_written s data results
    | detach => exact .aside ((Aside.detach s).trans (.emit _ _))
    | socketRead input => exact hi.elim
    | socketWrite results => exact onEventsWrite_written s results
    | onLoop => exact hi.elim

end LowHTTPDirect

end LowJs.HTTPDirect
