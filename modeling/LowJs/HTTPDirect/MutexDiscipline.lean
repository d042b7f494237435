import LowJs.HTTPDirect.Steps
import LowJs.HTTPDirect.HeadBytes

/-!
# The mutex is free between the calls

Every method takes `mMutex` and releases it again. The one exception is the jump to `err` in the
byte loop: where a byte meets a block that its first entry has filled, the mutex has just been
locked, and stays so.
-/

open LowJs.HTTPDirect.Parser

namespace LowJs.HTTPDirect

/-- `m'` comes from `m` by locking and unlocking in turn. -/
def Mutex.Cycled (m m' : Mutex) : Prop := m' = m ∨ m' = m.lock.unlock

/-- `m'` comes from `m` by locking and unlocking in turn, and a lock that is not undone. -/
def Mutex.Left (m m' : Mutex) : Prop := ∃ m₁, m.Cycled m₁ ∧ m' = m₁.lock

/-- Not held, and never locked while it was. -/
def Mutex.Free (m : Mutex) : Prop := m.held = false ∧ m.relocked = false

namespace Mutex

variable {m m₁ m₂ : Mutex}

lemma Cycled.refl (m : Mutex) : Cycled m m := .inl rfl

lemma cycled (m : Mutex) : Cycled m m.lock.unlock := .inr rfl

lemma Cycled.trans (h : Cycled m m₁) (h' : Cycled m₁ m₂) : Cycled m m₂ := by
  rcases h with rfl | rfl
  · exact h'
  · rcases h' with rfl | rfl
    · exact cycled m
    · refine .inr ?_
      simp [lock, unlock]

lemma Free.cycled (h : m.Free) (h' : Cycled m m₁) : m₁.Free := by
  obtain ⟨held, relocked⟩ := m
  obtain ⟨hheld, hrelocked⟩ := h
  rcases h' with rfl | rfl
  · exact ⟨hheld, hrelocked⟩
  · simp only at hheld hrelocked
    simp [Free, lock, unlock, hheld, hrelocked]

lemma Cycled.left (h : Cycled m m₁) (h' : Left m₁ m₂) : Left m m₂ := by
  obtain ⟨m', hm', rfl⟩ := h'
  exact ⟨m', h.trans hm', rfl⟩

lemma left (m : Mutex) : Left m m.lock := ⟨m, .refl m, rfl⟩

lemma Left.relocked (h : Left m m₁) (hm : m.Free) : m₁.relocked = false := by
  obtain ⟨m', hm', rfl⟩ := h
  obtain ⟨hheld, hrelocked⟩ := hm.cycled hm'
  simp [lock, hheld, hrelocked]

end Mutex

namespace LowHTTPDirect

variable {E : Env} {s t : LowHTTPDirect}

/-- The next byte meets a block that its first entry has filled. -/
def FullFirst (E : Env) (s : LowHTTPDirect) (data : List UInt8) : Prop :=
  s.parser.InSection ∧ ¬(s.parser.mEraseNextN ∧ data.head? = some LF) ∧
    s.parser.mParamLast.isSome ∧ E.sizeofData ≤ s.parser.mParamPos + 2 ∧
    (E.lowAlloc s.parser.allocs).isSome ∧ s.parser.mParamStart = 1

/-! ### The byte loop -/

lemma bodyRead_mMutex (s : LowHTTPDirect) : s.bodyRead.mMutex = s.mMutex := by
  rw [bodyRead]
  split
  · split
    · rfl
    · dsimp only
      split
      · rfl
      · rfl
  · rfl

lemma sectionEnded_mMutex (s : LowHTTPDirect) : s.mMutex.Cycled s.sectionEnded.mMutex := by
  rw [sectionEnded]
  dsimp only
  split
  · split
    · exact Mutex.cycled _
    · exact Mutex.cycled _
  · exact .refl _

lemma bodyBytes_mMutex (s : LowHTTPDirect) (data : List UInt8) :
    let r := s.bodyBytes data
    (r.1 = .undef ∧ s.mMutex.Left r.2.1.mMutex) ∨ s.mMutex.Cycled r.2.1.mMutex := by
  rw [bodyBytes]
  dsimp only
  split
  · exact .inr (Mutex.cycled _)
  · split
    · exact .inr (Mutex.cycled _)
    · split
      · exact .inl ⟨rfl, Mutex.left _⟩
      · refine .inr ?_
        change s.mMutex.Cycled (bodyRead _).mMutex.unlock
        rw [bodyRead_mMutex]
        exact Mutex.cycled _

/-- The allocation step reports an error with the mutex held. -/
lemma paramBytes_mMutex (s : LowHTTPDirect) (c : UInt8) :
    let r := s.paramBytes E c
    (∃ p, s.parser.allocParam E = .err p ∧ r = (.err, { s.lock with parser := p })) ∨
      ((∀ p, s.parser.allocParam E ≠ .err p) ∧ s.mMutex.Cycled r.2.mMutex) := by
  intro r
  have hstore (t : LowHTTPDirect) (ht : s.mMutex.Cycled t.mMutex) (b : Nat) :
      let t := { t with parser.history := t.parser.history.take [c] }
      s.mMutex.Cycled (t.afterParam (t.parser.paramByte E t.mIsServer b c)).2.mMutex := by
    intro t
    unfold afterParam
    split
    · exact ht
    · exact ht
    · exact ht.trans (sectionEnded_mMutex _)
  cases ha : s.parser.allocParam E with
  | param b =>
    have hr := hstore s (.refl _) b
    refine .inr ⟨by simp, ?_⟩
    simp only [r, paramBytes_def, ha]
    exact hr
  | linked b p =>
    have hr := hstore (unlock { s.lock with parser := p }) (Mutex.cycled _) b
    refine .inr ⟨by simp, ?_⟩
    simp only [r, paramBytes_def, ha]
    exact hr
  | null p =>
    refine .inr ⟨by simp, ?_⟩
    simp only [r, paramBytes_def, ha]
    exact .refl _
  | err p =>
    refine .inl ⟨p, rfl, ?_⟩
    simp only [r, paramBytes_def, ha]

/-- An iteration of the byte loop leaves the mutex held only where a block is full, or where
`memcpy` does not return. -/
lemma socketByte_mMutex (s : LowHTTPDirect) (c : UInt8) (rest : List UInt8) :
    let r := s.socketByte E c rest
    (FullFirst E s (c :: rest) ∧ r.1 = .err ∧ s.mMutex.Left r.2.1.mMutex) ∨
      (¬FullFirst E s (c :: rest) ∧
        ((r.1 = .undef ∧ s.mMutex.Left r.2.1.mMutex) ∨ s.mMutex.Cycled r.2.1.mMutex)) := by
  intro r
  by_cases herase : s.parser.mEraseNextN ∧ c = LF
  · refine .inr ⟨fun h => h.2.1 ⟨herase.1, by simp [herase.2]⟩, .inr ?_⟩
    simp only [r, socketByte, if_pos herase]
    exact .refl _
  by_cases hbody : s.parser.mPhase = .body
  · refine .inr ⟨fun h => h.1.1 hbody, ?_⟩
    simp only [r]
    rw [socketByte_body herase hbody]
    exact bodyBytes_mMutex { s with parser := s.parser.marked c } (c :: rest)
  by_cases hsend : s.parser.mPhase = .sendingResponse
  · refine .inr ⟨fun h => h.1.2.2 hsend, .inr ?_⟩
    simp only [r]
    rw [socketByte_sendingResponse herase hsend]
    exact .refl _
  by_cases hchunk : s.parser.mPhase = .chunkHeader
  · refine .inr ⟨fun h => h.1.2.1 hchunk, .inr ?_⟩
    simp only [r]
    rw [socketByte_chunkHeader herase hchunk]
    split
    · exact .refl _
    · exact .refl _
  · have hsec : s.parser.InSection := ⟨hbody, hchunk, hsend⟩
    have herase' : ¬(s.parser.mEraseNextN ∧ (c :: rest).head? = some LF) := by simpa using herase
    simp only [r]
    rw [socketByte_section herase hsec]
    have hstep := allocParam_step E (s.parser.marked c)
    rcases paramBytes_mMutex (E := E) { s with parser := s.parser.marked c } c with
      ⟨p, ha, hr⟩ | ⟨ha, hm⟩
    · rw [show (s.parser.marked c).allocParam E = .err p from ha] at hstep
      cases hstep with
      | err b hlast hfull hmem hstart =>
        refine .inl ⟨⟨hsec, herase', ?_, hfull, hmem, hstart⟩, ?_⟩
        · exact Option.isSome_iff_exists.mpr ⟨b, hlast⟩
        · dsimp only
          rw [hr]
          exact ⟨rfl, Mutex.left _⟩
    · refine .inr ⟨?_, .inr hm⟩
      rintro ⟨-, -, hlast, hfull, hmem, hstart⟩
      obtain ⟨b, hb⟩ := Option.isSome_iff_exists.mp hlast
      obtain ⟨mem, hmem⟩ := Option.isSome_iff_exists.mp hmem
      refine ha { s.parser.marked c with allocs := s.parser.allocs + 1 } ?_
      change (s.parser.marked c).allocParam E = _
      simp [allocParam, marked, hb, hfull, hmem, hstart]

lemma socketLoop_mMutex {fuel : Nat} {s : LowHTTPDirect} {data : List UInt8}
    (hmet : Met E (fun s data => ¬FullFirst E s data) fuel s data) :
    let r := s.socketLoop E fuel data
    (r.1 = .undef ∧ s.mMutex.Left r.2.1.mMutex) ∨ s.mMutex.Cycled r.2.1.mMutex := by
  refine socketLoop_rule (P := fun t _ => s.mMutex.Cycled t.mMutex)
    (Q := fun exit t _ =>
      (exit = .undef ∧ s.mMutex.Left t.mMutex) ∨ s.mMutex.Cycled t.mMutex)
    (fun _ _ h => .inr h) ?_ (.refl _) hmet
  intro t c rest ht hok
  rcases socketByte_mMutex (E := E) t c rest with ⟨hfull, -⟩ | ⟨-, h⟩
  · exact absurd hfull hok
  · refine ⟨fun hnext => ?_, fun _ => h.imp (And.imp_right ht.left) ht.trans⟩
    exact ht.trans (h.resolve_left (by simp [hnext]))

/-- Where a block is full the mutex stays held. -/
lemma socketLoop_mMutex_full {fuel : Nat} {s : LowHTTPDirect} {data : List UInt8}
    (hmet : ¬Met E (fun s data => ¬FullFirst E s data) fuel s data) :
    let r := s.socketLoop E fuel data
    r.1 = .err ∧ s.mMutex.Left r.2.1.mMutex := by
  induction fuel generalizing s data with
  | zero =>
    cases data with
    | nil => exact absurd trivial hmet
    | cons c rest => exact absurd trivial hmet
  | succ fuel ih =>
    cases data with
    | nil => exact absurd trivial hmet
    | cons c rest =>
      rcases socketByte_mMutex (E := E) s c rest with ⟨hfull, herr, hm⟩ | ⟨hfull, h⟩
      · simp only [socketLoop]
        cases hr : s.socketByte E c rest with
        | mk exit r =>
          rw [hr] at herr hm
          simp only at herr
          subst herr
          exact ⟨rfl, hm⟩
      · simp only [socketLoop]
        simp only [Met] at hmet
        cases hr : s.socketByte E c rest with
        | mk exit r =>
          rw [hr] at hmet h
          cases exit with
          | next =>
            obtain ⟨herr, hleft⟩ := ih (not_and.mp hmet hfull)
            exact ⟨herr, (h.resolve_left (by simp)).left hleft⟩
          | brk => exact absurd ⟨hfull, trivial⟩ hmet
          | err => exact absurd ⟨hfull, trivial⟩ hmet
          | done => exact absurd ⟨hfull, trivial⟩ hmet
          | undef => exact absurd ⟨hfull, trivial⟩ hmet

/-! ### The methods -/

lemma DoWrite_mMutex (s : LowHTTPDirect) (results : List WritevResult) :
    (s.DoWrite results).mMutex = s.mMutex := by
  have hsent (s : LowHTTPDirect) : s.responseSent.mMutex = s.mMutex := by
    unfold responseSent
    split
    · split
      · split
        · rfl
        · rfl
      · split
        · rfl
        · rfl
    · rfl
  induction results generalizing s with
  | nil =>
    unfold DoWrite
    split
    · exact hsent s
    · split
      · rfl
      · rfl
  | cons r results ih =>
    unfold DoWrite
    split
    · exact hsent s
    · split
      · rfl
      · cases r with
        | size n => exact ih _
        | again => rfl
        | error errno => rfl

lemma WriteHeaders_mMutex (s : LowHTTPDirect) (txt : List UInt8) (len : Int) (isChunked : Bool)
    (results : List WritevResult) :
    s.mMutex.Cycled (s.WriteHeaders txt len isChunked results).mMutex := by
  rw [WriteHeaders]
  split
  · exact .refl _
  · change s.mMutex.Cycled (DoWrite _ _).mMutex.unlock
    rw [DoWrite_mMutex]
    exact Mutex.cycled _

lemma Write_mMutex (s : LowHTTPDirect) (data : List UInt8) (results : List WritevResult) :
    s.mMutex.Cycled (s.Write data results).mMutex := by
  have hrelease (n : Nat) (s : LowHTTPDirect) : (releaseSent n s).mMutex = s.mMutex := by
    induction n generalizing s with
    | zero => rfl
    | succ n ih => exact ih _
  have hqueue (s : LowHTTPDirect) : (s.queueWrite data).mMutex = s.mMutex := by
    rw [queueWrite]
    split
    · dsimp only
      split
      · rfl
      · rfl
    · dsimp only
      split
      · rfl
      · rfl
  have houtcome (s : LowHTTPDirect) : s.writeOutcome.mMutex = s.mMutex := by
    rw [writeOutcome]
    split
    · rfl
    · split
      · rfl
      · split
        · rfl
        · rfl
  rw [Write]
  split
  · exact .refl _
  · dsimp only
    rw [houtcome]
    change s.mMutex.Cycled (DoWrite _ _).mMutex.unlock
    rw [DoWrite_mMutex, hqueue, hrelease]
    exact Mutex.cycled _

lemma onEventsWrite_mMutex (s : LowHTTPDirect) (results : List WritevResult) :
    s.mMutex.Cycled (s.onEventsWrite results).mMutex := by
  have h (s : LowHTTPDirect) : s.mMutex.Cycled (OnSocketWrite s results).2.mMutex := by
    rw [OnSocketWrite]
    have hloop : (if (s.lock.DoWrite results).writer.mWriteCallID ≠ 0 ∧
        ((s.lock.DoWrite results).writer.mWriteBuffers = [] ∨
          (s.lock.DoWrite results).writer.mWriteError) then
        (s.lock.DoWrite results).setLoopCallback else s.lock.DoWrite results).mMutex =
        s.mMutex.lock := by
      split
      · exact DoWrite_mMutex _ results
      · exact DoWrite_mMutex _ results
    refine .inr ?_
    exact congrArg Mutex.unlock hloop
  rw [onEventsWrite]
  split
  · dsimp only
    split
    · exact h _
    · exact h _
  · exact .refl _

lemma detach_mMutex (s : LowHTTPDirect) : s.detach.mMutex = s.mMutex := by
  rw [detach]
  split
  · rfl
  · rfl

lemma reportRead_mMutex (s : LowHTTPDirect) (via : Via) :
    s.mMutex.Cycled (s.reportRead E via).mMutex := by
  have hwalked (s : LowHTTPDirect) (p : Parser) : s.mMutex.Cycled (s.walked p).mMutex := by
    rw [walked]
    dsimp only
    split
    · exact Mutex.cycled _
    · exact .refl _
  rw [reportRead]
  dsimp only
  split
  · rw [endMessage_eq]
    split
    · next p _ => exact hwalked { s with reader.mReadData := none } p
    · dsimp only
      next trailers p _ =>
      split
      · change s.mMutex.Cycled (detach _).mMutex
        rw [detach_mMutex]
        exact hwalked { s with reader.mReadData := none } p
      · exact hwalked { s with reader.mReadData := none } p
  · exact .refl _

lemma runLoop_mMutex {d : List UInt8} (inLoop : Bool)
    (hmet : Met E (fun s data => ¬FullFirst E s data) d.length s d) :
    let r := (s.runLoop E d inLoop).2
    (r.rt.undefined ∧ s.mMutex.Left r.mMutex) ∨ s.mMutex.Cycled r.mMutex := by
  have h := socketLoop_mMutex hmet
  rw [runLoop]
  dsimp only at h ⊢
  cases hr : s.socketLoop E d.length d with
  | mk exit r =>
    rw [hr] at h
    cases exit with
    | next =>
      rw [loopExit, loopDone_eq]
      exact .inr (h.resolve_left (by simp))
    | brk =>
      rw [loopExit, loopDone_eq]
      exact .inr (h.resolve_left (by simp))
    | err => exact .inr (h.resolve_left (by simp))
    | done => exact .inr (h.resolve_left (by simp))
    | undef => exact h.imp (fun h => ⟨rfl, h.2⟩) id

lemma runLoop_mMutex_full {d : List UInt8} (inLoop : Bool)
    (hmet : ¬Met E (fun s data => ¬FullFirst E s data) d.length s d) :
    let r := (s.runLoop E d inLoop).2
    s.mMutex.Left r.mMutex ∧ r.mClosed := by
  obtain ⟨herr, h⟩ := socketLoop_mMutex_full hmet
  rw [runLoop]
  dsimp only at herr h ⊢
  rw [herr]
  exact ⟨h, rfl⟩

/-- The mutex between two calls. A copy of a negative size does not return. -/
def MutexFree (s : LowHTTPDirect) : Prop :=
  s.mMutex.relocked = false ∧ (s.rt.undefined = false → s.mMutex.held = false)

/-- What `Read` does once the bytes kept back are parsed, as far as the mutex goes. -/
lemma readOutcome_mMutex (s : LowHTTPDirect) :
    (s.readRemaining E).mMutex.Cycled (s.readOutcome E).mMutex ∧
      ((s.readRemaining E).rt.undefined → s.readOutcome E = s.readRemaining E) := by
  rw [readOutcome]
  dsimp only
  split
  · exact ⟨.refl _, fun _ => rfl⟩
  · next hu =>
    refine ⟨?_, fun h => absurd h hu⟩
    split
    · exact reportRead_mMutex _ _
    · split
      · refine .inl ?_
        exact detach_mMutex _
      · exact .refl _

/-- What `OnLoop` does to the mutex. -/
lemma OnLoop_mMutex (s : LowHTTPDirect) : s.mMutex.Cycled (s.OnLoop E).mMutex := by
  have hreturn (s : LowHTTPDirect) : s.mMutex.Cycled s.loopReturn.mMutex := by
    rw [loopReturn]
    dsimp only
    split
    · exact .refl _
    · exact .refl _
  have hwrite (s : LowHTTPDirect) : s.mMutex.Cycled s.onLoopWrite.mMutex := by
    rw [onLoopWrite]
    split
    · dsimp only
      split
      · exact .refl _
      · exact .refl _
    · exact hreturn s
  have hread (s : LowHTTPDirect) : s.mMutex.Cycled (s.onLoopRead E).mMutex := by
    rw [onLoopRead]
    split
    · exact hreturn s
    · split
      · dsimp only
        split
        · refine Mutex.Cycled.trans (Mutex.cycled s.mMutex) (.inl ?_)
          exact detach_mMutex _
        · refine Mutex.Cycled.trans (Mutex.cycled s.mMutex) ?_
          exact reportRead_mMutex _ _
      · exact hwrite s
  have herror (s : LowHTTPDirect) : s.mMutex.Cycled (s.onLoopError E).mMutex := by
    rw [onLoopError]
    split
    · exact .inl (detach_mMutex _)
    · exact hread s
  have hrequest (s : LowHTTPDirect) : s.mMutex.Cycled (s.onLoopRequest E).mMutex := by
    rw [onLoopRequest]
    dsimp only
    split
    · split
      · refine Mutex.Cycled.trans (.inl ?_) (hreturn _)
        exact detach_mMutex _
      · exact hreturn _
    · split
      · exact herror _
      · split
        · split
          · exact Mutex.cycled _
          · exact Mutex.cycled _
        · exact herror _
  rw [OnLoop]
  split
  · split
    · exact hrequest s
    · exact .refl _
  · exact herror s
  · exact hread s
  · exact hwrite s
  · exact hreturn s

/-- What follows the byte loop does not leave the mutex held. -/
lemma step_looped {i : Input} {d : List UInt8} (hl : s.looped i = some (t, d)) (hd : d ≠ []) :
    ∃ inLoop, (t.runLoop E d inLoop).2.mMutex.Cycled (step E s i).mMutex ∧
      ((t.runLoop E d inLoop).2.rt.undefined →
        (step E s i).rt.undefined ∧ (step E s i).mMutex = (t.runLoop E d inLoop).2.mMutex) ∧
      s.mMutex.Cycled t.mMutex := by
  obtain ⟨hdel, hund, hsock, hc, hi⟩ := looped_cases hl
  cases d with
  | nil => exact absurd rfl hd
  | cons c d =>
    rcases hi with ⟨len, rfl, hreq, hdata, hrem, rfl⟩ | ⟨rfl, -, -, rfl⟩
    · refine ⟨true, ?_⟩
      have h := readOutcome_mMutex (E := E) (s.takeBuffer len).lock
      rw [readRemaining_loop (s := s.takeBuffer len) hrem hc] at h
      rw [step_alive hdel hund]
      dsimp only at h ⊢
      rw [Read_eq hreq hdata hsock]
      split at h
      · refine ⟨h.1, fun hu => ?_, Mutex.cycled _⟩
        rw [h.2 hu]
        exact ⟨hu, rfl⟩
      · refine ⟨h.1, fun hu => ?_, Mutex.cycled _⟩
        rw [h.2 hu]
        exact ⟨hu, rfl⟩
    · refine ⟨false, ?_⟩
      rw [step_alive hdel hund]
      dsimp only
      rw [onEventsRead_loop hl]
      dsimp only
      split
      · exact ⟨.refl _, fun hu => ⟨hu, rfl⟩, .refl _⟩
      · exact ⟨.refl _, fun hu => ⟨hu, rfl⟩, .refl _⟩

lemma SocketData_mMutex (s : LowHTTPDirect) {input : SocketInput}
    (h : ∀ d, input = .data d → d = [] ∨ s.mClosed) (inLoop : Bool) :
    (SocketData E s input inLoop).2.mMutex = s.mMutex := by
  cases input with
  | error errno =>
    rw [SocketData]
    dsimp only
    split
    · rfl
    · rfl
  | data d =>
    cases d with
    | nil => rfl
    | cons c d =>
      have hc : s.mClosed = true := (h _ rfl).resolve_left (by simp)
      have heq : SocketData E s (.data (c :: d)) inLoop = closeDone { s with setCallback := false } :=
        if_pos hc
      rw [heq]
      rfl

/-- Where the byte loop does not run, the mutex is free again. -/
lemma step_not_looped {i : Input} (hl : ∀ t c d, s.looped i ≠ some (t, c :: d)) :
    s.mMutex.Cycled (step E s i).mMutex := by
  unfold step
  split
  · exact .refl _
  · next halive =>
    simp only [not_or, Bool.not_eq_true] at halive
    obtain ⟨hdel, hund⟩ := halive
    cases i with
    | setRequestCallID =>
      refine .inl ?_
      change s.SetRequestCallID.mMutex = _
      unfold SetRequestCallID
      dsimp only
      split
      · rfl
      · rfl
    | writeHeaders txt len isChunked results => exact WriteHeaders_mMutex s txt len isChunked results
    | write data results => exact Write_mMutex s data results
    | detach => exact .inl (detach_mMutex s)
    | socketWrite results => exact onEventsWrite_mMutex s results
    | onLoop => exact OnLoop_mMutex s
    | read len =>
      dsimp only
      by_cases h : s.mIsRequest ∧ s.reader.mReadData = none ∧ s.mSocket
      · obtain ⟨hreq, hdata, hsock⟩ := h
        rw [Read_eq hreq hdata hsock]
        refine Mutex.Cycled.trans ?_ (readOutcome_mMutex _).1
        by_cases hkept : s.reader.mRemainingRead = none ∨ s.mClosed
        · rw [readRemaining_kept (s := s.takeBuffer len) hkept]
          exact Mutex.cycled _
        · obtain ⟨hrem, hc⟩ := not_or.mp hkept
          obtain ⟨data, hrem⟩ := Option.ne_none_iff_exists'.mp hrem
          have hc : s.mClosed = false := by simpa using hc
          cases data with
          | nil =>
            rw [readRemaining_nil (s := s.takeBuffer len) hrem hc]
            exact Mutex.cycled _
          | cons c d =>
            refine absurd ?_ (hl (s.takeBuffer len).reread c d)
            simp [looped, hdel, hund, hreq, hdata, hsock, hc, hrem]
      · have heq : s.Read E len = s.emit (.readError .nextTick (.again "read")) := by
          refine if_pos ?_
          by_contra hn
          simp only [Bool.not_eq_true', not_or, Bool.not_eq_false, Option.not_isSome_iff_eq_none] at hn
          exact h hn
        rw [heq]
        exact .refl _
    | socketRead input =>
      dsimp only
      unfold onEventsRead
      split
      · next hopen =>
        have hdata (d : List UInt8) (hd : input = .data d) : d = [] ∨ s.mClosed := by
          by_contra hn
          obtain ⟨hne, hc⟩ := not_or.mp hn
          obtain ⟨c, d', rfl⟩ := List.exists_cons_of_ne_nil hne
          refine absurd ?_ (hl { s with
            setCallback := false
            rt.mDirectReadEnabled := false
            rt.received := s.rt.received ++ (c :: d') } c d')
          rw [hd]
          simp [looped, hdel, hund, hopen, hc]
        have hsame (t : LowHTTPDirect) (ht : t.mMutex = s.mMutex) (htc : t.mClosed = s.mClosed) :
            s.mMutex.Cycled (if (SocketData E t input false).1 then
              { (SocketData E t input false).2 with rt.mDirectReadEnabled := true }
            else (SocketData E t input false).2).mMutex := by
          have h := SocketData_mMutex (E := E) t (by rwa [htc]) false
          split
          · exact .inl (h.trans ht)
          · exact .inl (h.trans ht)
        cases input with
        | error errno => exact hsame _ rfl rfl
        | data d =>
          cases d with
          | nil => exact hsame _ rfl rfl
          | cons c d => exact hsame _ rfl rfl
      · exact .refl _

/-- What a step does to the mutex while no block is full. -/
lemma step_mMutex {i : Input} (hmet : LoopMeets E (fun s data => ¬FullFirst E s data) s i) :
    ((step E s i).rt.undefined ∧ s.mMutex.Left (step E s i).mMutex) ∨
      s.mMutex.Cycled (step E s i).mMutex := by
  by_cases hl : ∃ t c d, s.looped i = some (t, c :: d)
  · obtain ⟨t, c, d, hl⟩ := hl
    obtain ⟨inLoop, hm, hu, ht⟩ := step_looped (E := E) hl (by simp)
    rcases runLoop_mMutex inLoop (hmet t (c :: d) hl) with ⟨hund, hleft⟩ | hcyc
    · obtain ⟨hund, heq⟩ := hu hund
      refine .inl ⟨hund, ?_⟩
      rw [heq]
      exact ht.left hleft
    · exact .inr (ht.trans (hcyc.trans hm))
  · push Not at hl
    exact .inr (step_not_looped hl)

lemma MutexFree.free (h : MutexFree s) (hu : s.rt.undefined = false) : s.mMutex.Free :=
  ⟨h.2 hu, h.1⟩

lemma MutexFree.step (h : MutexFree s) {i : Input}
    (hmet : LoopMeets E (fun s data => ¬FullFirst E s data) s i) : MutexFree (step E s i) := by
  by_cases hu : s.rt.undefined = true
  · have heq : LowHTTPDirect.step E s i = s := if_pos (.inr hu)
    rwa [heq]
  · have hfree := h.free (by simpa using hu)
    rcases step_mMutex hmet with ⟨hund, hleft⟩ | hcyc
    · refine ⟨hleft.relocked hfree, fun hn => ?_⟩
      rw [hund] at hn
      cases hn
    · exact ⟨(hfree.cycled hcyc).2, fun _ => (hfree.cycled hcyc).1⟩

/-! ### A full block leaves the mutex held -/

/-- A report made with the mutex held locks it again, or leaves it held. -/
lemma reportRead_held (hm : s.mMutex.held = true) (hu : s.rt.undefined = false) (via : Via) :
    ¬MutexFree (s.reportRead E via) := by
  rw [reportRead]
  dsimp only
  split
  · rw [endMessage_eq]
    cases hfirst : s.parser.mParamFirst with
    | some b =>
      have hrelock (p : Parser) :
          (walked { s with reader.mReadData := none } p).mMutex.relocked = true := by
        simp [walked, hfirst, Mutex.lock, Mutex.unlock, hm]
      rintro ⟨hrel, -⟩
      split at hrel
      · next p _ => exact absurd ((hrelock p).symm.trans hrel) (by simp)
      · next trailers p _ =>
        dsimp only at hrel
        split at hrel
        · change (detach _).mMutex.relocked = false at hrel
          rw [detach_mMutex] at hrel
          exact absurd ((hrelock p).symm.trans hrel) (by simp)
        · exact absurd ((hrelock p).symm.trans hrel) (by simp)
    | none =>
      have htake : s.parser.takeTrailers E = (some [], s.parser) := by
        simp [takeTrailers, takeParams, hfirst]
      rw [htake]
      have hheld (p : Parser) : (walked { s with reader.mReadData := none } p).mMutex.held = true := by
        simp [walked, hfirst, hm]
      dsimp only
      rintro ⟨-, hfree⟩
      split at hfree
      · change (detach _).rt.undefined = false → (detach _).mMutex.held = false at hfree
        rw [detach_mMutex] at hfree
        refine absurd ((hheld s.parser).symm.trans (hfree ?_)) (by simp)
        rw [detach]
        split
        · exact hu
        · exact hu
      · exact absurd ((hheld s.parser).symm.trans (hfree hu)) (by simp)
  · rintro ⟨-, hfree⟩
    exact absurd (hm.symm.trans (hfree hu)) (by simp)

lemma not_mutexFree_step {i : Input}
    (hmet : ¬LoopMeets E (fun s data => ¬FullFirst E s data) s i) : ¬MutexFree (step E s i) := by
  unfold LoopMeets at hmet
  push Not at hmet
  obtain ⟨t, d, hl, hmet⟩ := hmet
  obtain ⟨hdel, hund, hsock, hc, hi⟩ := looped_cases hl
  cases d with
  | nil => exact absurd trivial hmet
  | cons c d =>
    have hu (inLoop : Bool) (ht : t.rt.undefined = false) :
        (t.runLoop E (c :: d) inLoop).2.rt.undefined = false := by
      obtain ⟨herr, -⟩ := socketLoop_mMutex_full hmet
      have hundef := (outer_socketLoop (E := E) t (c :: d).length (c :: d)).undefined
      unfold runLoop
      dsimp only at herr ⊢
      rw [herr]
      exact hundef.trans ht
    have hheld (inLoop : Bool) : (t.runLoop E (c :: d) inLoop).2.mMutex.held = true := by
      obtain ⟨⟨m, -, hm⟩, -⟩ := runLoop_mMutex_full inLoop hmet
      rw [hm]
      rfl
    have hclosed (inLoop : Bool) := (runLoop_mMutex_full inLoop hmet).2
    rcases hi with ⟨len, rfl, hreq, hdata, hrem, rfl⟩ | ⟨rfl, -, -, rfl⟩
    · rw [step_alive hdel hund]
      dsimp only
      rw [Read_eq hreq hdata hsock]
      unfold readOutcome
      rw [readRemaining_loop (s := s.takeBuffer len) hrem hc]
      dsimp only
      have hfinal (t : LowHTTPDirect) (hu : t.rt.undefined = false) (hm : t.mMutex.held = true)
          (hc : t.mClosed = true) : ¬MutexFree
            (if t.rt.undefined then t
            else if t.reader.mReadPos ≠ 0 ∨ t.parser.mPhase = .sendingResponse ∨ t.mClosed then
              t.reportRead E .nextTick
            else if t.mReadError ∨ t.mHTTPError then
              emit (detach { t with mReadError := false, mHTTPError := false }) (.requestError
                (if t.mReadError then t.socketReadError else .httpParser))
            else
              { t with
                reader.mReadCallID := t.rt.stash.add.1
                rt.stash := t.rt.stash.add.2
                rt.accepted := t.rt.accepted ++ [t.rt.stash.add.1] }) := by
        rw [if_neg (by simp [hu]), if_pos (.inr (.inr hc))]
        exact reportRead_held hm hu _
      split
      · exact hfinal _ (hu true hund) (hheld true) (hclosed true)
      · exact hfinal _ (hu true hund) (hheld true) (hclosed true)
    · rw [step_alive hdel hund]
      dsimp only
      rw [onEventsRead_loop hl]
      dsimp only
      rintro ⟨-, hfree⟩
      split at hfree
      · exact absurd ((hheld false).symm.trans (hfree (hu false hund))) (by simp)
      · exact absurd ((hheld false).symm.trans (hfree (hu false hund))) (by simp)

/-! ### Runs -/

lemma mutexFree_start (isServer : Bool) (u : LowHTTPDirect) : MutexFree (start isServer u) :=
  ⟨rfl, fun _ => rfl⟩

/-- A run leaves the mutex free after each of its steps, and never locks it twice, exactly if no
byte meets a block that its first entry has filled. -/
theorem mutexFree_run_iff (E : Env) (isServer : Bool) (u : LowHTTPDirect) (is : List Input) :
    (∀ js, js <+: is → MutexFree ((machine E).run (start isServer u) js)) ↔
      (machine E).Guarded (LoopMeets E fun s data => ¬FullFirst E s data) (start isServer u) is := by
  constructor
  · intro h
    induction is using List.reverseRecOn with
    | nil => simp
    | append_singleton is i ih =>
      have hpre := ih fun js hjs => h js (hjs.trans (List.prefix_append _ _))
      refine (Machine.guarded_append _ _ _).mpr ⟨hpre, ?_, trivial⟩
      by_contra hmet
      have hlast := h _ (List.prefix_refl _)
      rw [Machine.run_concat] at hlast
      exact not_mutexFree_step hmet hlast
  · rintro hok js ⟨ks, rfl⟩
    exact Machine.run_invariant (fun _ _ h hi => h.step hi) (mutexFree_start isServer u)
      ((Machine.guarded_append _ _ _).mp hok).1

/-! ### A method without an end -/

/-- The first entry of a block is being collected. -/
structure FirstEntry (s : LowHTTPDirect) : Prop where
  phase : s.parser.mPhase = .firstLine1
  erase : s.parser.mEraseNextN = false
  last : s.parser.mParamLast.isSome
  start : s.parser.mParamStart = 1
  pos : 1 < s.parser.mParamPos

lemma FirstEntry.letter (h : FirstEntry s) (hfit : s.parser.mParamPos + 2 < E.sizeofData)
    (rest : List UInt8) :
    ∃ t, s.socketByte E 65 rest = (.next, t, rest) ∧ FirstEntry t ∧
      t.parser.mParamPos = s.parser.mParamPos + 1 ∧ t.parser.allocs = s.parser.allocs := by
  obtain ⟨b, hb⟩ := Option.isSome_iff_exists.mp h.last
  have hsec : s.parser.InSection := by simp [InSection, h.phase]
  have halloc : (s.parser.marked 65).allocParam E = .param b := by
    have hnot : ¬E.sizeofData ≤ (s.parser.marked 65).mParamPos + 2 := not_le.mpr hfit
    simp only [allocParam, show (s.parser.marked 65).mParamLast = some b from hb, if_neg hnot]
  have hbyte := paramByte_char (E := E) (S := s.mIsServer) (c := 65) (b := b)
    (p := { s.parser.marked 65 with history := s.parser.history.take [65] }) hsec
    (by simp [marked, h.phase, CR]) (by decide) (by decide) (fun hn => absurd hn.2 (by decide))
    (fun _ => by decide) (fun hp => absurd (h.phase.symm.trans hp) (by simp))
  refine ⟨{ s with parser := ({ s.parser.marked 65 with
    history := s.parser.history.take [65] } : Parser).storeChar s.mIsServer b 65 (isBlank 65) },
    ?_, ?_, rfl, rfl⟩
  · rw [socketByte_section (by simp [h.erase]) hsec]
    rw [paramBytes]
    dsimp only
    rw [halloc]
    dsimp only
    rw [show (s.parser.marked 65).history = s.parser.history from rfl, hbyte]
  · refine ⟨h.phase, by simp [storeChar, marked, write, h.phase, CR], ?_, h.start, ?_⟩
    · exact h.last
    · change 1 < s.parser.mParamPos + 1
      have := h.pos
      omega

/-- An entry that goes on fills its block at last. -/
lemma FirstEntry.not_met (h : FirstEntry s) (hmem : (E.lowAlloc s.parser.allocs).isSome) {n : Nat}
    (hn : s.parser.mParamPos + 2 + n = E.sizeofData) {fuel : Nat} (hfuel : n < fuel) :
    ¬Met E (fun s data => ¬FullFirst E s data) fuel s (List.replicate (n + 1) 65) := by
  induction n generalizing s fuel with
  | zero =>
    obtain ⟨fuel, rfl⟩ := Nat.exists_eq_succ_of_ne_zero (by omega : fuel ≠ 0)
    rintro ⟨hnot, -⟩
    refine hnot ⟨by simp [InSection, h.phase], by simp [h.erase], h.last, ?_, hmem, h.start⟩
    simp only [Nat.cast_zero, add_zero] at hn
    omega
  | succ n ih =>
    obtain ⟨fuel, rfl⟩ := Nat.exists_eq_succ_of_ne_zero (by omega : fuel ≠ 0)
    obtain ⟨t, hbyte, ht, hpos, hallocs⟩ := h.letter (E := E) (by omega) (List.replicate (n + 1) 65)
    rw [List.replicate_succ]
    rintro ⟨-, hmet⟩
    rw [hbyte] at hmet
    exact ih ht (by rwa [hallocs]) (by omega) (by omega) hmet

/-- The first byte of a message gets a block. -/
lemma firstEntry_of_start (hphase : s.parser.mPhase = .firstLine1)
    (herase : s.parser.mEraseNextN = false) (hlast : s.parser.mParamLast = none)
    {mem : Int → UInt8} (hmem : E.lowAlloc s.parser.allocs = some mem) (rest : List UInt8) :
    ∃ t, s.socketByte E 65 rest = (.next, t, rest) ∧ FirstEntry t ∧ t.parser.mParamPos = 2 ∧
      t.parser.allocs = s.parser.allocs + 1 := by
  have hsec : s.parser.InSection := by simp [InSection, hphase]
  obtain ⟨p, hp⟩ : ∃ p, p = (s.parser.marked 65).firstBlock mem := ⟨_, rfl⟩
  have halloc : (s.parser.marked 65).allocParam E = .linked s.parser.allocs p := by
    rw [hp]
    simp only [allocParam, show (s.parser.marked 65).mParamLast = none from hlast,
      show E.lowAlloc (s.parser.marked 65).allocs = some mem from hmem]
    rfl
  have hpphase : p.mPhase = .firstLine1 := by
    rw [hp]
    exact hphase
  have hperase : p.mEraseNextN = false := by
    rw [hp]
    simp [firstBlock, marked, CR]
  have hbyte := paramByte_char (E := E) (S := s.mIsServer) (c := 65) (b := s.parser.allocs)
    (p := { p with history := p.history.take [65] }) (by simp [InSection, hpphase]) hperase
    (by decide) (by decide) (fun hn => absurd hn.2 (by decide)) (fun _ => by decide)
    (fun hk => absurd (hpphase.symm.trans hk) (by simp))
  refine ⟨unlock { s.lock with
    parser := storeChar s.mIsServer { p with history := p.history.take [65] } s.parser.allocs 65
      (isBlank 65) }, ?_, ?_, ?_, ?_⟩
  · rw [socketByte_section (by simp [herase]) hsec]
    have heq : paramBytes E { s with parser := s.parser.marked 65 } 65 =
        afterParam (unlock { s.lock with parser := { p with history := p.history.take [65] } })
          (Parser.paramByte E s.mIsServer { p with history := p.history.take [65] }
            s.parser.allocs 65) := by
      rw [paramBytes_def, halloc]
      rfl
    dsimp only
    rw [heq, hbyte]
    rfl
  · refine ⟨hpphase, hperase, ?_, ?_, ?_⟩
    · rw [hp]
      rfl
    · rw [hp]
      rfl
    · rw [hp]
      exact (one_lt_two : (1 : ℤ) < 2)
  · rw [hp]
    rfl
  · rw [hp]
    rfl

/-- A method of 10238 letters, sent in one piece. -/
theorem mutexHeld_of_longMethod :
    ¬MutexFree ((machine deviceEnv).run (start true default)
      [.socketRead (.data (List.replicate 10238 65))]) := by
  have hsplit : List.replicate 10238 (65 : UInt8) = 65 :: List.replicate (10236 + 1) 65 :=
    List.replicate_succ
  rw [hsplit, Machine.run_cons, Machine.run_nil]
  obtain ⟨letters, hletters⟩ : ∃ letters : List UInt8, letters = List.replicate (10236 + 1) 65 :=
    ⟨_, rfl⟩
  rw [← hletters]
  refine not_mutexFree_step fun hmeets => ?_
  obtain ⟨t, hl, hphase, herase, hlast⟩ : ∃ t,
      (start true default).looped (.socketRead (.data (65 :: letters))) = some (t, 65 :: letters) ∧
      t.parser.mPhase = .firstLine1 ∧ t.parser.mEraseNextN = false ∧ t.parser.mParamLast = none :=
    ⟨_, rfl, rfl, rfl, rfl⟩
  obtain ⟨-, hmet⟩ := hmeets _ _ hl
  obtain ⟨t', hbyte, hfirst, hpos, -⟩ := firstEntry_of_start (E := deviceEnv) hphase herase hlast
    (show deviceEnv.lowAlloc _ = some fun _ => 0 from rfl) letters
  rw [hbyte, hletters, List.length_replicate] at hmet
  exact hfirst.not_met rfl (by rw [hpos]; rfl) (by decide) hmet

end LowHTTPDirect

end LowJs.HTTPDirect
