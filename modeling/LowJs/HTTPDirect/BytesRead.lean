import LowJs.HTTPDirect.Steps

/-!
# The account of the bytes read

The bytes that the byte loop consumes are counted beside a connection. The numbers that the callbacks get
with the head and with each read should add up to them.
-/

open LowJs.HTTPDirect.Parser

namespace LowJs.HTTPDirect

/-- The number of bytes that an event reports as read. -/
def Event.bytesRead : Event → Option Int
  | .request _ bytesRead => some bytesRead
  | .read _ _ bytesRead => some bytesRead
  | .readEnd _ bytesRead _ _ => some bytesRead
  | _ => none

/-- The bytes consumed so far, and whether the reports have added up to them each time. -/
structure Consumption where
  consumed : Nat
  right : Bool
  deriving DecidableEq, Repr

namespace LowHTTPDirect

variable {E : Env} {s t u : LowHTTPDirect}

/-- What has been reported. -/
def reports (s : LowHTTPDirect) : List Int := s.rt.log.filterMap Event.bytesRead

/-- The bytes that the byte loop consumes in a step. -/
def consumes (E : Env) (s : LowHTTPDirect) (i : Input) : Nat :=
  match s.looped i with
  | none => 0
  | some (t, d) => d.length - (t.socketLoop E d.length d).2.2.length

end LowHTTPDirect

open LowHTTPDirect

/-- What a step from `s` to `t` adds to the record. -/
def Consumption.record (r : Consumption) (E : Env) (s t : LowHTTPDirect) (i : LowHTTPDirect.Input) :
    Consumption where
  consumed := r.consumed + s.consumes E i
  right := r.right &&
    (t.reports.length == s.reports.length || t.reports.sum == ↑(r.consumed + s.consumes E i))

/-- A connection and its record. -/
def metered (E : Env) : Machine (LowHTTPDirect × Consumption) LowHTTPDirect.Input :=
  ⟨fun r i => (step E r.1 i, r.2.record E r.1 (step E r.1 i) i)⟩

/-- The condition: where the byte loop runs, it keeps back as many bytes as it has consumed, and they can be
counted in an `int`. -/
def Halves (E : Env) (r : LowHTTPDirect × Consumption) (i : LowHTTPDirect.Input) : Prop :=
  match r.1.looped i with
  | none => True
  | some (t, d) =>
    d ≠ [] → (t.socketLoop E d.length d).1 = .brk ∧
      2 * (t.socketLoop E d.length d).2.2.length = d.length ∧
      r.1.reader.mBytesRead + (t.socketLoop E d.length d).2.2.length < 2 ^ 31

instance (E : Env) (r : LowHTTPDirect × Consumption) (i : LowHTTPDirect.Input) : Decidable (Halves E r i) :=
  match hl : r.1.looped i with
  | none => isTrue (by rw [Halves, hl]; trivial)
  | some (t, d) =>
    decidable_of_iff (d ≠ [] → (t.socketLoop E d.length d).1 = .brk ∧
      2 * (t.socketLoop E d.length d).2.2.length = d.length ∧
      r.1.reader.mBytesRead + (t.socketLoop E d.length d).2.2.length < 2 ^ 31) (by rw [Halves, hl])

namespace LowHTTPDirect

variable {E : Env} {s t u : LowHTTPDirect}

/-! ### Steps that do not count -/

/-- What the account depends on. -/
def meter (s : LowHTTPDirect) := (s.reports, s.reader.mBytesRead)

lemma meter_emit (s : LowHTTPDirect) {e : Event} (he : e.bytesRead = none) : (s.emit e).meter = s.meter := by
  simp [meter, reports, emit, he]

lemma reports_emit (s : LowHTTPDirect) {e : Event} {n : Int} (he : e.bytesRead = some n) :
    (s.emit e).reports = s.reports ++ [n] := by
  simp [reports, emit, he]

lemma meter_detach (s : LowHTTPDirect) : s.detach.meter = s.meter := by
  rw [detach]
  split
  · rfl
  · rfl

/-! Writing -/

lemma meter_responseSent (s : LowHTTPDirect) : s.responseSent.meter = s.meter := by
  rw [responseSent]
  split
  · split
    · split
      · exact meter_emit _ rfl
      · rfl
    · split
      · rfl
      · rfl
  · rfl

lemma meter_DoWrite (s : LowHTTPDirect) (results : List WritevResult) :
    (s.DoWrite results).meter = s.meter := by
  induction results generalizing s with
  | nil =>
    rw [DoWrite.eq_def]
    split
    · exact meter_responseSent s
    · split
      · rfl
      · rfl
  | cons r results ih =>
    rw [DoWrite.eq_def]
    split
    · exact meter_responseSent s
    · split
      · rfl
      · cases r with
        | size n => exact (ih _).trans (meter_emit _ rfl)
        | again => rfl
        | error errno => rfl

lemma meter_WriteHeaders (s : LowHTTPDirect) (txt : List UInt8) (len : Int) (isChunked : Bool)
    (results : List WritevResult) : (s.WriteHeaders txt len isChunked results).meter = s.meter := by
  rw [WriteHeaders]
  split
  · rfl
  · exact (meter_DoWrite _ results).trans rfl

lemma meter_releaseSent (n : Nat) (s : LowHTTPDirect) : (releaseSent n s).meter = s.meter := by
  induction n generalizing s with
  | zero => rfl
  | succ n ih => exact (ih _).trans rfl

lemma meter_queueWrite (s : LowHTTPDirect) (data : List UInt8) : (s.queueWrite data).meter = s.meter := by
  rw [queueWrite]
  dsimp only
  split
  · split
    · rfl
    · rfl
  · split
    · rfl
    · rfl

lemma meter_writeOutcome (s : LowHTTPDirect) : s.writeOutcome.meter = s.meter := by
  rw [writeOutcome]
  split
  · rfl
  · split
    · exact meter_emit _ rfl
    · split
      · exact meter_emit _ rfl
      · rfl

lemma meter_Write (s : LowHTTPDirect) (data : List UInt8) (results : List WritevResult) :
    (s.Write data results).meter = s.meter := by
  rw [Write]
  split
  · exact meter_emit s rfl
  · calc (writeOutcome (unlock _)).meter
      _ = _ := meter_writeOutcome _
      _ = _ := meter_DoWrite _ results
      _ = _ := meter_queueWrite _ data
      _ = _ := meter_releaseSent _ _

lemma meter_onEventsWrite (s : LowHTTPDirect) (results : List WritevResult) :
    (s.onEventsWrite results).meter = s.meter := by
  have hwrite (t : LowHTTPDirect) : (t.OnSocketWrite results).2.meter = t.meter := by
    rw [OnSocketWrite]
    dsimp only
    split
    · exact (meter_DoWrite t.lock results).trans rfl
    · exact (meter_DoWrite t.lock results).trans rfl
  rw [onEventsWrite]
  split
  · dsimp only
    split
    · exact (hwrite _).trans rfl
    · exact (hwrite _).trans rfl
  · rfl

/-! The byte loop -/

lemma meter_bodyRead (s : LowHTTPDirect) : s.bodyRead.meter = s.meter := by
  rw [bodyRead]
  split
  · split
    · rfl
    · dsimp only
      split
      · rfl
      · rfl
  · rfl

lemma meter_bodyBytes (s : LowHTTPDirect) (data : List UInt8) : (s.bodyBytes data).2.1.meter = s.meter := by
  rw [bodyBytes]
  dsimp only
  split
  · rfl
  · split
    · rfl
    · split
      · rfl
      · exact (meter_bodyRead _).trans rfl

lemma meter_sectionEnded (s : LowHTTPDirect) : s.sectionEnded.meter = s.meter := by
  rw [sectionEnded]
  dsimp only
  split
  · split
    · rfl
    · rfl
  · rfl

lemma meter_paramBytes (s : LowHTTPDirect) (c : UInt8) : (s.paramBytes E c).2.meter = s.meter := by
  have hstore (t : LowHTTPDirect) (ht : t.meter = s.meter) (r : ParamExit × Parser) :
      (t.afterParam r).2.meter = s.meter := by
    obtain ⟨e, p⟩ := r
    cases e with
    | next => exact ht
    | err => exact ht
    | ended => exact (meter_sectionEnded _).trans ht
  rw [paramBytes_def]
  split
  · refine hstore _ ?_ _
    rfl
  · refine hstore _ ?_ _
    rfl
  · rfl
  · rfl

lemma meter_socketByte (s : LowHTTPDirect) (c : UInt8) (rest : List UInt8) :
    (s.socketByte E c rest).2.1.meter = s.meter := by
  rw [socketByte]
  split
  · rfl
  · dsimp only
    split
    · rfl
    · exact (meter_bodyBytes _ _).trans rfl
    · split
      · rfl
      · rfl
    · exact (meter_paramBytes _ _).trans rfl

lemma meter_socketLoop (s : LowHTTPDirect) (fuel : Nat) (data : List UInt8) :
    (s.socketLoop E fuel data).2.1.meter = s.meter := by
  induction fuel generalizing s data with
  | zero => cases data <;> rfl
  | succ fuel ih =>
    cases data with
    | nil => rfl
    | cons c rest =>
      have hbyte := meter_socketByte (E := E) s c rest
      simp only [socketLoop]
      cases hr : s.socketByte E c rest with
      | mk exit r =>
        rw [hr] at hbyte
        cases exit with
        | next => exact (ih _ _).trans hbyte
        | brk => exact hbyte
        | err => exact hbyte
        | done => exact hbyte
        | undef => exact hbyte

/-! ### Reports -/

/-- Nothing is reported, or `mBytesRead` is, unless the behaviour is undefined. -/
def Sums (s t : LowHTTPDirect) : Prop :=
  t.meter = s.meter ∨ t.meter = (s.reports ++ [s.reader.mBytesRead], 0) ∨
    t.rt.undefined = true ∧ t.reports = s.reports

lemma Sums.of_eq (h : t.meter = s.meter) : Sums s t := .inl h

lemma Sums.start (h : Sums u t) (heq : u.meter = s.meter) : Sums s t := by
  simp only [meter, Prod.mk.injEq] at heq
  obtain ⟨hreports, hbytes⟩ := heq
  rcases h with h | h | ⟨hundefined, h⟩
  · refine .inl (h.trans ?_)
    rw [meter, meter, hreports, hbytes]
  · rw [hreports, hbytes] at h
    exact .inr (.inl h)
  · exact .inr (.inr ⟨hundefined, h.trans hreports⟩)

lemma sums_endMessage (s : LowHTTPDirect) (via : Via) : Sums s (s.endMessage E via) := by
  rw [endMessage_eq]
  split
  · exact .inr (.inr ⟨rfl, rfl⟩)
  · refine .inr (.inl ?_)
    dsimp only
    split
    · rw [meter, reports_emit _ rfl]
      exact congrArg (fun m : List Int × Int => (m.1 ++ [s.reader.mBytesRead], m.2)) (meter_detach _)
    · rw [meter, reports_emit _ rfl]
      rfl

lemma sums_reportRead (s : LowHTTPDirect) (via : Via) : Sums s (s.reportRead E via) := by
  rw [reportRead]
  dsimp only
  split
  · exact (sums_endMessage _ via).start rfl
  · refine .inr (.inl ?_)
    rw [meter, reports_emit _ rfl]
    rfl

lemma meter_loopReturn (s : LowHTTPDirect) : s.loopReturn.meter = s.meter := by
  rw [loopReturn]
  dsimp only
  split
  · rfl
  · rfl

lemma meter_onLoopWrite (s : LowHTTPDirect) : s.onLoopWrite.meter = s.meter := by
  rw [onLoopWrite]
  split
  · dsimp only
    split
    · exact (meter_emit _ rfl).trans rfl
    · exact (meter_emit _ rfl).trans rfl
  · exact meter_loopReturn s

lemma sums_onLoopRead (s : LowHTTPDirect) : Sums s (s.onLoopRead E) := by
  rw [onLoopRead]
  split
  · exact .of_eq (meter_loopReturn s)
  · split
    · dsimp only
      split
      · exact .of_eq ((meter_emit _ rfl).trans ((meter_detach _).trans rfl))
      · exact (sums_reportRead _ _).start rfl
    · exact .of_eq (meter_onLoopWrite s)

lemma sums_onLoopError (s : LowHTTPDirect) : Sums s (s.onLoopError E) := by
  rw [onLoopError]
  split
  · exact .of_eq ((meter_emit _ rfl).trans ((meter_detach _).trans rfl))
  · exact sums_onLoopRead s

lemma sums_onLoopRequest (s : LowHTTPDirect) : Sums s (s.onLoopRequest E) := by
  rw [onLoopRequest]
  dsimp only
  split
  · split
    · exact .of_eq ((meter_loopReturn _).trans ((meter_detach _).trans rfl))
    · exact .of_eq ((meter_loopReturn _).trans rfl)
  · split
    · exact (sums_onLoopError _).start rfl
    · split
      · split
        · exact .inr (.inr ⟨rfl, rfl⟩)
        · refine .inr (.inl ?_)
          rw [meter, reports_emit _ rfl]
          rfl
      · exact (sums_onLoopError _).start rfl

lemma sums_OnLoop (s : LowHTTPDirect) : Sums s (s.OnLoop E) := by
  rw [OnLoop]
  split
  · split
    · exact sums_onLoopRequest s
    · exact .of_eq rfl
  · exact sums_onLoopError s
  · exact sums_onLoopRead s
  · exact .of_eq (meter_onLoopWrite s)
  · exact .of_eq (meter_loopReturn s)

/-- What `Read` reports, behind the bytes kept back. -/
lemma sums_readOutcome (s : LowHTTPDirect) : Sums (s.readRemaining E) (s.readOutcome E) := by
  rw [readOutcome]
  dsimp only
  split
  · exact .of_eq rfl
  · split
    · exact sums_reportRead _ _
    · split
      · exact .of_eq ((meter_emit _ rfl).trans ((meter_detach _).trans rfl))
      · exact .of_eq rfl

/-! ### The bytes that are consumed -/

/-- Nothing is parsed. -/
lemma meter_SocketData_stop {input : SocketInput} (h : ∀ d, input = .data d → d = [] ∨ s.mClosed)
    (inLoop : Bool) : (SocketData E s input inLoop).2.meter = s.meter := by
  cases input with
  | error errno =>
    rw [SocketData]
    dsimp only
    split
    · rfl
    · rfl
  | data d =>
    cases d with
    | nil => rfl
    | cons c d =>
      have hclosed : s.mClosed = true := (h (c :: d) rfl).resolve_left (by simp)
      have heq : SocketData E s (.data (c :: d)) inLoop = closeDone { s with setCallback := false } :=
        if_pos hclosed
      rw [heq]
      rfl

/-- Where the loop keeps bytes back, their number is added. -/
lemma meter_runLoop {d : List UInt8} (hbrk : (t.socketLoop E d.length d).1 = .brk) (inLoop : Bool) :
    (t.runLoop E d inLoop).2.meter =
      (t.reports, int32 (t.reader.mBytesRead + (t.socketLoop E d.length d).2.2.length)) := by
  have hloop := meter_socketLoop (E := E) t d.length d
  simp only [meter, Prod.mk.injEq] at hloop
  rw [runLoop, hbrk, ← hloop.1, ← hloop.2]
  simp only [loopExit, loopDone]
  split
  · rfl
  · rfl

/-- The reports and `mBytesRead` add up to the bytes consumed. -/
structure Metered (s : LowHTTPDirect) (consumed : Nat) : Prop where
  sum : s.reports.sum + s.reader.mBytesRead = consumed
  nonneg : 0 ≤ s.reader.mBytesRead

lemma Metered.congr {n : Nat} (h : Metered s n) (heq : t.meter = s.meter) : Metered t n := by
  simp only [meter, Prod.mk.injEq] at heq
  obtain ⟨hreports, hbytes⟩ := heq
  exact ⟨by rw [hreports, hbytes]; exact h.sum, by rw [hbytes]; exact h.nonneg⟩

lemma Metered.sums {n : Nat} (h : Metered s n) (ht : Sums s t) :
    (t.reports.length = s.reports.length ∨ t.reports.sum = n) ∧
      (t.rt.undefined = false → Metered t n) := by
  rcases ht with ht | ht | ⟨hundefined, hreports⟩
  · refine ⟨.inl ?_, fun _ => h.congr ht⟩
    rw [(Prod.mk.inj ht).1]
  · obtain ⟨hreports, hbytes⟩ := Prod.mk.inj ht
    have hsum : t.reports.sum = n := by
      rw [hreports, List.sum_append, List.sum_singleton]
      exact h.sum
    exact ⟨.inr hsum, fun _ => ⟨by rw [hsum, hbytes, add_zero], by rw [hbytes]⟩⟩
  · refine ⟨.inl (by rw [hreports]), ?_⟩
    intro hdefined
    rw [hundefined] at hdefined
    cases hdefined

/-- The loop keeps back as many bytes as it consumes. -/
lemma Metered.runLoop {n : Nat} (h : Metered t n) {d : List UInt8}
    (hbrk : (t.socketLoop E d.length d).1 = .brk)
    (hhalf : 2 * (t.socketLoop E d.length d).2.2.length = d.length)
    (hint : t.reader.mBytesRead + (t.socketLoop E d.length d).2.2.length < 2 ^ 31) (inLoop : Bool) :
    Metered (t.runLoop E d inLoop).2 (n + (d.length - (t.socketLoop E d.length d).2.2.length)) ∧
      (t.runLoop E d inLoop).2.reports = t.reports := by
  have hmeter := meter_runLoop hbrk inLoop
  have hnonneg := h.nonneg
  rw [int32_eq ⟨by omega, hint⟩] at hmeter
  obtain ⟨hreports, hbytes⟩ := Prod.mk.inj hmeter
  refine ⟨⟨?_, ?_⟩, hreports⟩
  · have hsum := h.sum
    rw [hreports, hbytes]
    push_cast
    omega
  · rw [hbytes]
    omega

/-! ### Steps -/

variable {n : Nat}

/-- What a step does: the bytes are consumed, and there may be a report. -/
def Accounts (E : Env) (s : LowHTTPDirect) (n : Nat) (i : Input) (t : LowHTTPDirect) : Prop :=
  ∃ u, Metered u (n + s.consumes E i) ∧ u.reports = s.reports ∧ Sums u t

lemma Accounts.of_none {i : Input} (h : Metered s n) (hl : s.looped i = none) (ht : Sums s t) :
    Accounts E s n i t := by
  refine ⟨s, ?_, rfl, ht⟩
  rw [consumes, hl]
  exact h

/-- No bytes have come. -/
lemma Accounts.of_nil {i : Input} (h : Metered s n) (hl : s.looped i = some (u, [])) (ht : Sums s t) :
    Accounts E s n i t := by
  refine ⟨s, ?_, rfl, ht⟩
  rw [consumes, hl]
  exact h

/-- The loop runs, from a state with the account of `s`. -/
lemma Accounts.of_loop {i : Input} (h : Metered s n) {r : Consumption} (hok : Halves E (s, r) i)
    {d : List UInt8} (hne : d ≠ []) (hl : s.looped i = some (u, d)) (hu : u.meter = s.meter)
    (inLoop : Bool) (ht : Sums (continued (u.runLoop E d inLoop)) t) : Accounts E s n i t := by
  rw [Halves, hl] at hok
  obtain ⟨hbrk, hhalf, hint⟩ := hok hne
  have hbytes : u.reader.mBytesRead = s.reader.mBytesRead := congrArg Prod.snd hu
  have hreports : u.reports = s.reports := congrArg Prod.fst hu
  obtain ⟨hmetered, hreports'⟩ := (h.congr hu).runLoop hbrk hhalf (by rw [hbytes]; exact hint) inLoop
  have hcontinued : (continued (u.runLoop E d inLoop)).meter = (u.runLoop E d inLoop).2.meter := by
    rw [continued]
    split
    · rfl
    · rfl
  refine ⟨(u.runLoop E d inLoop).2, ?_, hreports'.trans hreports, ht.start hcontinued⟩
  rw [consumes, hl]
  exact hmetered

/-- An event of the socket sets off no loop. -/
lemma meter_onEventsRead_stop {input : SocketInput} (h : ∀ d, input = .data d → d = [] ∨ s.mClosed) :
    (s.onEventsRead E input).meter = s.meter := by
  have hstop (v : LowHTTPDirect) (hv : v.meter = s.meter) (hc : v.mClosed = s.mClosed) :
      (continued (SocketData E v input false)).meter = s.meter := by
    have hdata := (meter_SocketData_stop (E := E) (s := v) (by rw [hc]; exact h) false).trans hv
    rw [continued]
    split
    · exact hdata
    · exact hdata
  rw [onEventsRead]
  split
  · cases input with
    | error errno =>
      apply hstop
      · rfl
      · rfl
    | data d =>
      cases d with
      | nil =>
        apply hstop
        · rfl
        · rfl
      | cons c d =>
        apply hstop
        · rfl
        · rfl
  · rfl

lemma accounts_socketRead (h : Metered s n) (halive : ¬(s.rt.deleted ∨ s.rt.undefined))
    {r : Consumption} {input : SocketInput} (hok : Halves E (s, r) (.socketRead input)) :
    Accounts E s n (.socketRead input) (s.onEventsRead E input) := by
  cases hl : s.looped (.socketRead input) with
  | none =>
    by_cases hopen : s.mSocket ∧ s.rt.mDirectReadEnabled ∧ !s.rt.closed
    · refine .of_none h hl (.of_eq (meter_onEventsRead_stop ?_))
      rintro d rfl
      right
      by_contra hclosed
      rw [looped, if_neg halive] at hl
      dsimp only at hl
      rw [if_pos ⟨hopen.1, hopen.2.1, hopen.2.2, by simpa using hclosed⟩] at hl
      cases hl
    · have heq : s.onEventsRead E input = s := if_neg hopen
      rw [heq]
      exact .of_none h hl (.of_eq rfl)
  | some l =>
    obtain ⟨t, d⟩ := l
    obtain ⟨-, -, -, -, ⟨len, hi, -⟩ | ⟨hi, -, -, ht⟩⟩ := looped_cases hl
    · cases hi
    · cases hi
      cases d with
      | nil => exact .of_nil h hl (.of_eq (meter_onEventsRead_stop fun d hd => by cases hd; exact .inl rfl))
      | cons c d =>
        refine .of_loop h hok (List.cons_ne_nil c d) hl (by rw [ht]; rfl) false (.of_eq ?_)
        rw [onEventsRead_loop hl]
        rfl

lemma accounts_Read (h : Metered s n) (halive : ¬(s.rt.deleted ∨ s.rt.undefined))
    {r : Consumption} {len : Fin (2 ^ 31)} (hok : Halves E (s, r) (.read len)) :
    Accounts E s n (.read len) (s.Read E len) := by
  by_cases hguard : !s.mIsRequest ∨ s.reader.mReadData.isSome ∨ !s.mSocket
  · have heq : s.Read E len = s.emit (.readError .nextTick (.again "read")) := if_pos hguard
    rw [heq]
    refine .of_none h ?_ (.of_eq (meter_emit s rfl))
    rw [looped, if_neg halive]
    apply if_neg
    rintro ⟨hreq, hdata, hsock, -⟩
    simp [hreq, hdata, hsock] at hguard
  · simp only [Bool.not_eq_true', not_or, Bool.not_eq_false, Option.not_isSome_iff_eq_none] at hguard
    obtain ⟨hreq, hdata, hsock⟩ := hguard
    rw [Read_eq hreq hdata hsock]
    have hsums := sums_readOutcome (E := E) (s.takeBuffer len).lock
    have hlooped (hc : s.mClosed = false) : s.looped (.read len) =
        s.reader.mRemainingRead.map fun data => ((s.takeBuffer len).reread, data) := by
      rw [looped, if_neg halive]
      exact if_pos ⟨hreq, hdata, hsock, by simp [hc]⟩
    by_cases hkept : s.reader.mRemainingRead = none ∨ s.mClosed
    · rw [readRemaining_kept (s := s.takeBuffer len) hkept] at hsums
      refine .of_none h ?_ (hsums.start rfl)
      rcases hkept with hrem | hc
      · by_cases hc : s.mClosed = false
        · rw [hlooped hc, hrem]
          rfl
        · rw [looped, if_neg halive]
          exact if_neg fun h => hc (by simpa using h.2.2.2)
      · rw [looped, if_neg halive]
        exact if_neg fun h => by simp [hc] at h
    · obtain ⟨hrem, hc⟩ := not_or.mp hkept
      obtain ⟨data, hrem⟩ := Option.ne_none_iff_exists'.mp hrem
      have hc : s.mClosed = false := by simpa using hc
      have hl := hlooped hc
      rw [hrem, Option.map_some] at hl
      cases data with
      | nil =>
        rw [readRemaining_nil (s := s.takeBuffer len) hrem hc] at hsums
        exact .of_nil h hl (hsums.start rfl)
      | cons c d =>
        rw [readRemaining_loop (s := s.takeBuffer len) hrem hc] at hsums
        exact .of_loop h hok (List.cons_ne_nil c d) hl rfl true hsums

lemma accounts_step (h : Metered s n) (halive : ¬(s.rt.deleted ∨ s.rt.undefined)) {r : Consumption}
    {i : Input} (hok : Halves E (s, r) i) : Accounts E s n i (step E s i) := by
  rw [step.eq_def, if_neg halive]
  have hnone (hi : ∀ t d, s.looped i ≠ some (t, d)) : s.looped i = none := by
    cases hl : s.looped i with
    | none => rfl
    | some l => exact absurd hl (hi l.1 l.2)
  cases i with
  | setRequestCallID =>
    refine .of_none h (if_neg halive) (.of_eq ?_)
    dsimp only [SetRequestCallID]
    split
    · rfl
    · rfl
  | read len => exact accounts_Read h halive hok
  | writeHeaders txt len isChunked results =>
    exact .of_none h (if_neg halive) (.of_eq (meter_WriteHeaders s txt len isChunked results))
  | write data results => exact .of_none h (if_neg halive) (.of_eq (meter_Write s data results))
  | detach =>
    exact .of_none h (if_neg halive) (.of_eq ((meter_emit _ rfl).trans (meter_detach s)))
  | socketRead input => exact accounts_socketRead h halive hok
  | socketWrite results => exact .of_none h (if_neg halive) (.of_eq (meter_onEventsWrite s results))
  | onLoop => exact .of_none h (if_neg halive) (sums_OnLoop s)

/-- The reports have been right, and the account is. -/
structure Told (r : LowHTTPDirect × Consumption) : Prop where
  right : r.2.right = true
  metered : ¬(r.1.rt.deleted ∨ r.1.rt.undefined) → Metered r.1 r.2.consumed

lemma Told.step {r : LowHTTPDirect × Consumption} (h : Told r) {i : Input} (hok : Halves E r i) :
    Told ((LowJs.HTTPDirect.metered E).step r i) := by
  obtain ⟨s, c⟩ := r
  by_cases hdead : s.rt.deleted ∨ s.rt.undefined
  · have heq : LowHTTPDirect.step E s i = s := if_pos hdead
    constructor
    case right =>
      change (c.right && _) = true
      rw [heq, h.right]
      simp
    case metered =>
      intro halive
      change ¬((LowHTTPDirect.step E s i).rt.deleted ∨ (LowHTTPDirect.step E s i).rt.undefined) at halive
      rw [heq] at halive
      exact absurd hdead halive
  · obtain ⟨u, hmetered, hreports, hsums⟩ := accounts_step (h.metered hdead) hdead hok
    obtain ⟨hright, hkept⟩ := hmetered.sums hsums
    rw [hreports] at hright
    constructor
    case right =>
      change (c.right && _) = true
      rw [h.right, Bool.true_and, Bool.or_eq_true, beq_iff_eq, beq_iff_eq]
      exact hright
    case metered =>
      intro halive
      apply hkept
      exact Bool.eq_false_iff.mpr fun hundefined => halive (.inr hundefined)

lemma told_start (isServer : Bool) (u : LowHTTPDirect) : Told (start isServer u, ⟨0, true⟩) :=
  ⟨rfl, fun _ => ⟨rfl, le_rfl⟩⟩

end LowHTTPDirect

/-- A request in one piece, the half of which is its head. -/
def halfKept : List LowHTTPDirect.Input :=
  [.setRequestCallID, .socketRead (.data (bytes "POST / HTTP/1.1\r\nContent-Length: 99\r\n\r\n" ++
    List.replicate 39 48)), .onLoop]

/-- A request without a body in one piece: the head comes with -1 byte read. -/
def wholeRequest : List LowHTTPDirect.Input :=
  [.setRequestCallID, .socketRead (.data (bytes "GET / HTTP/1.1\r\n\r\n")), .onLoop]

end LowJs.HTTPDirect
