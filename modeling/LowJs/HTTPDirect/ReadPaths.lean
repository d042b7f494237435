import LowJs.HTTPDirect.Steps

/-!
# The two ways in which a reader learns the outcome

`Read` decides at once where something can be reported already, and `OnLoop` decides later for a
callback that waits. Both look at the same fields of the connection. They come to the same outcome
exactly where no error is to be reported, and where the message that is read is still the one whose
head has been delivered.
-/

open LowJs.HTTPDirect.Parser

namespace LowJs.HTTPDirect

/-- What a reader is told, whichever way its callback is reached. -/
def Event.outcome : Event → Option Event
  | .read _ data bytesRead => some (.read .nextTick data bytesRead)
  | .readEnd _ bytesRead trailers reuse => some (.readEnd .nextTick bytesRead trailers reuse)
  | .readError _ err => some (.readError .nextTick err)
  | .requestError err => some (.requestError err)
  | _ => none

namespace LowHTTPDirect

variable {E : Env} {s t u : LowHTTPDirect}

/-- What the reader is told on the way from `s` to `t`; `none` where that way is not defined. -/
def outcomes (s t : LowHTTPDirect) : Option (List Event) :=
  if t.rt.undefined then none
  else some ((t.rt.log.drop s.rt.log.length).filterMap Event.outcome)

/-- The state in which a call of `Read` decides that takes over its buffer. -/
def deciding (E : Env) (s : LowHTTPDirect) (len : Nat) : Option LowHTTPDirect :=
  if s.rt.deleted ∨ s.rt.undefined ∨ !s.mIsRequest ∨ s.reader.mReadData.isSome ∨ !s.mSocket then none
  else
    let t := (s.takeBuffer len).lock.readRemaining E
    if t.rt.undefined then none else some t

/-- The same state, with the callback of the reader waiting for `OnLoop`. -/
def waiting (s : LowHTTPDirect) (id : Nat) : LowHTTPDirect := { s with reader.mReadCallID := id }

/-- `Read` tells the reader what `OnLoop` would tell it. -/
def PathsAgree (E : Env) (s : LowHTTPDirect) (len : Nat) : Prop :=
  ∀ t, s.deciding E len = some t → ∀ id, id ≠ 0 →
    t.outcomes (s.Read E len) = t.outcomes ((t.waiting id).onLoopRead E)

/-- No error is to be reported, and what there is to report belongs to the message whose head has
been delivered. -/
def Clean (s : LowHTTPDirect) : Prop :=
  s.mReadError = false ∧ s.mHTTPError = false ∧
    (s.mIsRequest = true ∨
      (s.reader.mReadPos = 0 ∧ s.parser.mPhase ≠ .sendingResponse ∧ s.mClosed = false))

instance (s : LowHTTPDirect) : Decidable s.Clean := inferInstanceAs (Decidable (_ ∧ _))

/-! ### Reports -/

/-- Something can be reported to the reader. -/
def Reportable (s : LowHTTPDirect) : Prop :=
  s.reader.mReadPos ≠ 0 ∨ s.parser.mPhase = .sendingResponse ∨ s.mClosed

/-- The report of the data, or of the end. -/
def report (E : Env) (s : LowHTTPDirect) : Option (List Event) :=
  if s.reader.mReadPos = 0 then
    (s.parser.takeTrailers E).1.map fun trailers =>
      [.readEnd .nextTick s.reader.mBytesRead trailers s.reusable]
  else
    some [.read .nextTick ((s.reader.mReadData.getD []).take s.reader.mReadPos.toNat)
      s.reader.mBytesRead]

/-- An event is added to the log. -/
lemma outcomes_emit (hlog : t.rt.log = s.rt.log) (hu : t.rt.undefined = false) (e : Event) :
    s.outcomes (t.emit e) = some e.outcome.toList := by
  have h1 : (t.emit e).rt.undefined = false := hu
  have h2 : (t.emit e).rt.log = s.rt.log ++ [e] := congrArg (· ++ [e]) hlog
  rw [outcomes, h1, h2, if_neg (by simp), List.drop_left]
  cases he : e.outcome with
  | none => simp [he]
  | some e' => simp [he]

lemma outcomes_of_log (hlog : t.rt.log = s.rt.log) (hu : t.rt.undefined = false) :
    s.outcomes t = some [] := by
  rw [outcomes, hlog, hu, if_neg (by simp), List.drop_length]
  rfl

lemma detach_log (s : LowHTTPDirect) :
    s.detach.rt.log = s.rt.log ∧ s.detach.rt.undefined = s.rt.undefined := by
  rw [detach]
  split
  · exact ⟨rfl, rfl⟩
  · exact ⟨rfl, rfl⟩

lemma detach_reusable (s : LowHTTPDirect) : s.detach.reusable = s.reusable := by
  rw [detach]
  split
  · rfl
  · rfl

/-- What a report says does not depend on the way. -/
lemma outcomes_reportRead (hu : s.rt.undefined = false) (via : Via) :
    s.outcomes (s.reportRead E via) = s.report E := by
  rw [reportRead, report]
  dsimp only
  split
  · rw [endMessage_eq]
    rw [show ({ s with reader.mReadData := none } : LowHTTPDirect).parser = s.parser from rfl]
    cases hp : s.parser.takeTrailers E with
    | mk trailers p =>
      cases trailers with
      | none =>
        exact if_pos rfl
      | some trailers =>
        dsimp only
        obtain ⟨w, hw⟩ : ∃ w : LowHTTPDirect, w =
            { walked { s with reader.mReadData := none } p with
              rt.ended := s.rt.ended ++ [(p.history, s.mClosed)] } := ⟨_, rfl⟩
        have hlog : w.rt.log = s.rt.log := by rw [hw]; rfl
        have hund : w.rt.undefined = false := by rw [hw]; exact hu
        have hreuse : w.reusable = s.reusable := by rw [hw]; rfl
        have hsame : reusable { s with reader.mReadData := none } = s.reusable := rfl
        rw [← hw, hsame]
        cases hr : s.reusable with
        | true =>
          rw [if_pos rfl, detach_reusable, hreuse, hr]
          exact outcomes_emit ((detach_log w).1.trans hlog) ((detach_log w).2.trans hund) _
        | false =>
          rw [if_neg (by simp), hreuse, hr]
          exact outcomes_emit hlog hund _
  · exact outcomes_emit rfl hu _

/-- A report is no error. -/
lemma report_ne_error (err : Error) : s.report E ≠ some [.requestError err] := by
  rw [report]
  split
  · cases (s.parser.takeTrailers E).1 with
    | none => simp
    | some trailers => simp
  · simp

lemma report_ne_nil : s.report E ≠ some [] := by
  rw [report]
  split
  · cases (s.parser.takeTrailers E).1 with
    | none => simp
    | some trailers => simp
  · simp

/-! ### `OnLoop` -/

lemma outcomes_loopReturn (hlog : t.rt.log = s.rt.log) (hu : t.rt.undefined = false) :
    s.outcomes t.loopReturn = some [] := by
  rw [loopReturn]
  dsimp only
  split
  · exact outcomes_of_log hlog hu
  · exact outcomes_of_log hlog hu

lemma outcomes_onLoopWrite (hlog : t.rt.log = s.rt.log) (hu : t.rt.undefined = false) :
    s.outcomes t.onLoopWrite = some [] := by
  rw [onLoopWrite]
  split
  · dsimp only
    split
    · exact outcomes_emit hlog hu _
    · exact outcomes_emit hlog hu _
  · exact outcomes_loopReturn hlog hu

/-- What `OnLoop` tells a reader that waits. -/
lemma outcomes_onLoopRead (hsock : s.mSocket = true) (hu : s.rt.undefined = false) {id : Nat}
    (hid : id ≠ 0) :
    (s.mIsRequest = false ∧ s.outcomes ((s.waiting id).onLoopRead E) = some []) ∨
    (s.mIsRequest = true ∧ (s.mReadError = true ∨ s.mHTTPError = true) ∧
      ∃ err, s.outcomes ((s.waiting id).onLoopRead E) = some [.requestError err]) ∨
    (s.mIsRequest = true ∧ s.mReadError = false ∧ s.mHTTPError = false ∧
      ((s.Reportable ∧ s.outcomes ((s.waiting id).onLoopRead E) = s.report E) ∨
        (¬s.Reportable ∧ s.outcomes ((s.waiting id).onLoopRead E) = some []))) := by
  by_cases hreq : s.mIsRequest = true
  · refine .inr ?_
    have hreq' : ¬(!(s.waiting id).mIsRequest) = true := by simp [waiting, hreq]
    rw [onLoopRead]
    rw [if_neg hreq']
    by_cases herr : s.mReadError = true ∨ s.mHTTPError = true
    · refine .inl ⟨hreq, herr, ?_⟩
      have hcond : (s.waiting id).reader.mReadCallID ≠ 0 ∧
          ((s.waiting id).reader.mReadPos ≠ 0 ∨ (s.waiting id).parser.mPhase = .sendingResponse ∨
            ((s.waiting id).mSocket ∧ (s.waiting id).mReadError) ∨ (s.waiting id).mClosed ∨
            (s.waiting id).mHTTPError) := by
        refine ⟨hid, .inr (.inr ?_)⟩
        rcases herr with h | h
        · exact .inl ⟨hsock, h⟩
        · exact .inr (.inr h)
      rw [if_pos hcond]
      dsimp only
      rw [if_pos (by simpa [waiting, lock, removeStash, hsock] using herr)]
      refine ⟨_, outcomes_emit ?_ ?_ _⟩
      · exact (detach_log _).1
      · exact (detach_log _).2.trans hu
    · obtain ⟨hre, hhe⟩ := not_or.mp herr
      have hre : s.mReadError = false := by simpa using hre
      have hhe : s.mHTTPError = false := by simpa using hhe
      refine .inr ⟨hreq, hre, hhe, ?_⟩
      by_cases hrep : s.Reportable
      · refine .inl ⟨hrep, ?_⟩
        have hcond : (s.waiting id).reader.mReadCallID ≠ 0 ∧
            ((s.waiting id).reader.mReadPos ≠ 0 ∨ (s.waiting id).parser.mPhase = .sendingResponse ∨
              ((s.waiting id).mSocket ∧ (s.waiting id).mReadError) ∨ (s.waiting id).mClosed ∨
              (s.waiting id).mHTTPError) := by
          refine ⟨hid, ?_⟩
          rcases hrep with h | h | h
          · exact .inl h
          · exact .inr (.inl h)
          · exact .inr (.inr (.inr (.inl h)))
        rw [if_pos hcond]
        dsimp only
        rw [if_neg (by simp [waiting, lock, removeStash, hre, hhe])]
        exact outcomes_reportRead (s := unlock
          { (s.waiting id).lock.removeStash id with
            reader.mReadCallID := 0, rt.inLoop := some .read }) hu _
      · refine .inr ⟨hrep, ?_⟩
        have hcond : ¬((s.waiting id).reader.mReadCallID ≠ 0 ∧
            ((s.waiting id).reader.mReadPos ≠ 0 ∨ (s.waiting id).parser.mPhase = .sendingResponse ∨
              ((s.waiting id).mSocket ∧ (s.waiting id).mReadError) ∨ (s.waiting id).mClosed ∨
              (s.waiting id).mHTTPError)) := by
          rintro ⟨-, h | h | h | h | h⟩
          · exact hrep (.inl h)
          · exact hrep (.inr (.inl h))
          · exact absurd h.2 (by simp [waiting, hre])
          · exact hrep (.inr (.inr h))
          · exact absurd h (by simp [waiting, hhe])
        rw [if_neg hcond]
        exact outcomes_onLoopWrite rfl hu
  · have hreq : s.mIsRequest = false := by simpa using hreq
    refine .inl ⟨hreq, ?_⟩
    rw [onLoopRead]
    rw [if_pos (by simp [waiting, hreq])]
    exact outcomes_loopReturn rfl hu

/-! ### `Read` -/

/-- What `Read` tells the reader. -/
lemma outcomes_readOutcome (hu : (s.readRemaining E).rt.undefined = false) :
    let t := s.readRemaining E
    (t.Reportable ∧ t.outcomes (s.readOutcome E) = t.report E) ∨
    (¬t.Reportable ∧ (t.mReadError = true ∨ t.mHTTPError = true) ∧
      ∃ err, t.outcomes (s.readOutcome E) = some [.requestError err]) ∨
    (¬t.Reportable ∧ t.mReadError = false ∧ t.mHTTPError = false ∧
      t.outcomes (s.readOutcome E) = some []) := by
  intro t
  have heq : s.readOutcome E =
      if t.reader.mReadPos ≠ 0 ∨ t.parser.mPhase = .sendingResponse ∨ t.mClosed then
        t.reportRead E .nextTick
      else if t.mReadError ∨ t.mHTTPError then
        detach { t with mReadError := false, mHTTPError := false } |>.emit
          (.requestError (if t.mReadError then t.socketReadError else .httpParser))
      else
        { t with
          reader.mReadCallID := t.rt.stash.add.1
          rt.stash := t.rt.stash.add.2
          rt.accepted := t.rt.accepted ++ [t.rt.stash.add.1] } :=
    if_neg (by rw [hu]; simp)
  rw [heq]
  by_cases hrep : t.reader.mReadPos ≠ 0 ∨ t.parser.mPhase = .sendingResponse ∨ t.mClosed
  · rw [if_pos hrep]
    exact .inl ⟨hrep, outcomes_reportRead hu _⟩
  · rw [if_neg hrep]
    refine .inr ?_
    by_cases herr : t.mReadError = true ∨ t.mHTTPError = true
    · rw [if_pos herr]
      refine .inl ⟨hrep, herr, _, outcomes_emit ?_ ?_ _⟩
      · exact (detach_log _).1
      · exact (detach_log _).2.trans hu
    · rw [if_neg herr]
      obtain ⟨hre, hhe⟩ := not_or.mp herr
      exact .inr ⟨hrep, by simpa using hre, by simpa using hhe, outcomes_of_log rfl hu⟩

/-- An error flag is set together with `mClosed`. -/
def ErrorsClosed (s : LowHTTPDirect) : Prop :=
  s.mReadError = true ∨ s.mHTTPError = true → s.mClosed = true

/-- Where the connection is closed by every error, the two ways agree on the clean states, and on no
others. -/
lemma pathsAgree_at (hclosed : t.ErrorsClosed) (hu : t.rt.undefined = false)
    (hsock : t.mSocket = true) (ht : t = u.readRemaining E) {id : Nat} (hid : id ≠ 0) :
    t.outcomes (u.readOutcome E) = t.outcomes ((t.waiting id).onLoopRead E) ↔ t.Clean := by
  have hread := outcomes_readOutcome (E := E) (s := u) (ht ▸ hu)
  rw [← ht] at hread
  dsimp only at hread
  have herr (h : t.mReadError = true ∨ t.mHTTPError = true) : ¬t.Clean := by
    rintro ⟨h1, h2, -⟩
    rw [h1, h2] at h
    simp at h
  rcases outcomes_onLoopRead (E := E) hsock hu hid with
    ⟨hreq, hl⟩ | ⟨hreq, hflag, err, hl⟩ | ⟨hreq, hre, hhe, hl⟩
  · -- the message read is no longer the one that was delivered
    rcases hread with ⟨hrep, hr⟩ | ⟨hrep, hflag, err, hr⟩ | ⟨hrep, hre, hhe, hr⟩
    · rw [hl, hr]
      refine iff_of_false report_ne_nil ?_
      rintro ⟨-, -, h | ⟨h1, h2, h3⟩⟩
      · rw [hreq] at h
        cases h
      · rcases hrep with h | h | h
        · exact h h1
        · exact h2 h
        · rw [h3] at h
          cases h
    · exact absurd (.inr (.inr (hclosed hflag))) hrep
    · rw [hl, hr]
      refine iff_of_true rfl ⟨hre, hhe, .inr ?_⟩
      simpa [Reportable, not_or] using hrep
  · -- an error is to be reported
    refine iff_of_false ?_ (herr hflag)
    rcases hread with ⟨hrep, hr⟩ | ⟨hrep, hflag, err, hr⟩ | ⟨hrep, hre, hhe, hr⟩
    · rw [hl, hr]
      exact report_ne_error err
    · exact absurd (.inr (.inr (hclosed hflag))) hrep
    · rw [hre, hhe] at hflag
      simp at hflag
  · refine iff_of_true ?_ ⟨hre, hhe, .inl hreq⟩
    rcases hread with ⟨hrep, hr⟩ | ⟨hrep, hflag, err, hr⟩ | ⟨hrep, -, -, hr⟩
    · rcases hl with ⟨-, hl⟩ | ⟨hnot, hl⟩
      · rw [hl, hr]
      · exact absurd hrep hnot
    · exact absurd (.inr (.inr (hclosed hflag))) hrep
    · rcases hl with ⟨hrep', hl⟩ | ⟨-, hl⟩
      · exact absurd hrep' hrep
      · rw [hl, hr]

/-! ### Errors close the connection -/

lemma ErrorsClosed.of_eq (h : s.ErrorsClosed) (hc : t.mClosed = s.mClosed)
    (hre : t.mReadError = s.mReadError) (hhe : t.mHTTPError = s.mHTTPError) : t.ErrorsClosed := by
  rw [ErrorsClosed]
  rw [hc, hre, hhe]
  exact h

lemma ErrorsClosed.aside (h : s.ErrorsClosed) (ha : Aside s t) : t.ErrorsClosed :=
  h.of_eq ha.closed ha.readError ha.httpError

lemma errorsClosed_of_closed (h : s.mClosed = true) : s.ErrorsClosed := fun _ => h

lemma errorsClosed_clearErrors (s : LowHTTPDirect) : s.clearErrors.ErrorsClosed := by
  rintro (h | h)
  · cases h
  · cases h

lemma ErrorsClosed.runLoop (h : s.ErrorsClosed) (d : List UInt8) (inLoop : Bool) :
    (s.runLoop E d inLoop).2.ErrorsClosed ∧ (s.runLoop E d inLoop).2.mSocket = s.mSocket := by
  have ho := outer_socketLoop (E := E) s d.length d
  have h' := h.of_eq ho.closed ho.readError ho.httpError
  unfold LowHTTPDirect.runLoop
  dsimp only
  generalize s.socketLoop E d.length d = r at ho h' ⊢
  obtain ⟨exit, t, rest⟩ := r
  cases exit with
  | next =>
    rw [loopExit, loopDone_eq]
    exact ⟨h', ho.socket⟩
  | brk =>
    rw [loopExit, loopDone_eq]
    exact ⟨h', ho.socket⟩
  | err => exact ⟨errorsClosed_of_closed rfl, ho.socket⟩
  | done => exact ⟨errorsClosed_of_closed rfl, ho.socket⟩
  | undef => exact ⟨h', ho.socket⟩

lemma ErrorsClosed.continued {r : Bool × LowHTTPDirect} (h : r.2.ErrorsClosed) :
    (continued r).ErrorsClosed := by
  rw [LowHTTPDirect.continued]
  split
  · exact h
  · exact h

/-- The bytes kept back are parsed. -/
lemma ErrorsClosed.readRemaining (h : s.ErrorsClosed) :
    (s.lock.readRemaining E).ErrorsClosed ∧ (s.lock.readRemaining E).mSocket = s.mSocket := by
  by_cases hkept : s.reader.mRemainingRead = none ∨ s.mClosed
  · rw [readRemaining_kept hkept]
    exact ⟨h, rfl⟩
  · obtain ⟨hrem, hc⟩ := not_or.mp hkept
    obtain ⟨data, hrem⟩ := Option.ne_none_iff_exists'.mp hrem
    have hc : s.mClosed = false := by simpa using hc
    cases data with
    | nil =>
      rw [readRemaining_nil hrem hc]
      exact ⟨errorsClosed_of_closed rfl, rfl⟩
    | cons c d =>
      obtain ⟨h1, h2⟩ := ErrorsClosed.runLoop (E := E) (s := s.reread) h (c :: d) true
      rw [readRemaining_loop hrem hc]
      dsimp only
      split
      · exact ⟨h1, h2⟩
      · exact ⟨h1, h2⟩

lemma ErrorsClosed.reported (h : s.ErrorsClosed) (hr : Reported E s t) : t.ErrorsClosed := by
  cases hr with
  | data hpos ha => exact ErrorsClosed.aside (s := { s with
      reader.mReadData := none, reader.mBytesRead := 0 }) h ha
  | undefined hpos hp ha hu => exact ErrorsClosed.aside (s := { s with
      parser := _, reader.mReadData := none, reader.mBytesRead := 0 }) h ha
  | ended hpos hp ha => exact ErrorsClosed.aside (s := { s with
      parser := _, reader.mReadData := none, reader.mBytesRead := 0, rt.ended := _ }) h ha

lemma ErrorsClosed.written (h : s.ErrorsClosed) (hw : Written s t) : t.ErrorsClosed := by
  cases hw with
  | aside ha => exact h.aside ha
  | init ha _ _ hi =>
    have h1 := h.aside ha
    have h2 : ErrorsClosed (LowHTTPDirect.init _) := h1.of_eq rfl rfl rfl
    exact h2.aside hi

lemma ErrorsClosed.outcome (h : s.ErrorsClosed) (ho : Outcome E s t) : t.ErrorsClosed := by
  cases ho with
  | undefined hu => exact h
  | report hu hrep => exact h.reported (reportRead_reported s _)
  | error hpos hc herr ha => exact (errorsClosed_clearErrors s).aside ha
  | accepted ha => exact h.aside ha

lemma ErrorsClosed.received {input : SocketInput} (h : s.ErrorsClosed) (hr : Received E s input t) :
    t.ErrorsClosed := by
  cases hr with
  | ignored => exact h
  | closed hdata he hr ha => exact (errorsClosed_of_closed rfl).aside ha
  | @data t d hne hc hl =>
    obtain ⟨-, -, -, -, ⟨len, hi, -⟩ | ⟨-, -, -, rfl⟩⟩ := looped_cases hl
    · cases hi
    · have h' : ErrorsClosed { s with
          setCallback := false
          rt.mDirectReadEnabled := false
          rt.received := s.rt.received ++ d } := h
      exact ErrorsClosed.continued (h'.runLoop _ _).1

lemma ErrorsClosed.looped (h : s.ErrorsClosed) (hl : Looped E s t) : t.ErrorsClosed := by
  cases hl with
  | aside ha => exact h.aside ha
  | @undefined t p hp ha hu => exact ErrorsClosed.aside (s := { s with parser := p }) h ha
  | @request t data p b hreq hfirst htype ht hp ha => exact ErrorsClosed.aside (s := { s with
      parser := p, mIsRequest := true, reader.mBytesRead := 0 }) h ha
  | requestError hreq ha => exact (errorsClosed_clearErrors s).aside ha
  | error hreq hid herr ha => exact (errorsClosed_clearErrors s).aside ha
  | report hreq hid herr hend ha => exact (h.aside ha).reported (reportRead_reported _ _)

lemma ErrorsClosed.step (h : s.ErrorsClosed) (i : Input) : (step E s i).ErrorsClosed := by
  by_cases halive : s.rt.deleted ∨ s.rt.undefined
  · have heq : LowHTTPDirect.step E s i = s := if_pos halive
    rwa [heq]
  · simp only [not_or, Bool.not_eq_true] at halive
    obtain ⟨hdel, hund⟩ := halive
    cases i with
    | read len =>
      rw [step_alive hdel hund]
      rcases Read_cases (E := E) s len with ⟨-, ha⟩ | ⟨-, -, -, ho⟩
      · exact h.aside ha
      · exact (ErrorsClosed.readRemaining (E := E) (s := s.takeBuffer len) h).1.outcome ho
    | socketRead input =>
      rw [step_alive hdel hund]
      exact h.received (onEventsRead_received hdel hund input)
    | onLoop =>
      rw [step_alive hdel hund]
      exact h.looped (OnLoop_looped s)
    | setRequestCallID => exact h.written (step_written s trivial)
    | writeHeaders txt len isChunked results => exact h.written (step_written s trivial)
    | write data results => exact h.written (step_written s trivial)
    | detach => exact h.written (step_written s trivial)
    | socketWrite results => exact h.written (step_written s trivial)

lemma errorsClosed_run (isServer : Bool) (u : LowHTTPDirect) (is : List Input) :
    ((machine E).run (start isServer u) is).ErrorsClosed := by
  refine Machine.run_invariant_of_step (fun s i h => h.step i) ?_ is
  rintro (h | h)
  · cases h
  · cases h

/-- In every state that a run reaches, `Read` tells the reader what `OnLoop` would tell it exactly if
the state in which it decides is clean. -/
theorem pathsAgree_iff (E : Env) (isServer : Bool) (u : LowHTTPDirect) (is : List Input) (len : Nat) :
    let s := (machine E).run (start isServer u) is
    s.PathsAgree E len ↔ ∀ t, s.deciding E len = some t → t.Clean := by
  intro s
  have hclosed : s.ErrorsClosed := errorsClosed_run isServer u is
  -- the state in which `Read` decides, and that it decides there
  have hdeciding (t : LowHTTPDirect) (ht : s.deciding E len = some t) :
      t.ErrorsClosed ∧ t.rt.undefined = false ∧ t.mSocket = true ∧
        t = (s.takeBuffer len).lock.readRemaining E ∧
        s.Read E len = (s.takeBuffer len).lock.readOutcome E := by
    unfold deciding at ht
    split at ht
    · cases ht
    · next hacc =>
      simp only [Bool.not_eq_true', not_or, Bool.not_eq_true, Bool.not_eq_false,
        Option.isSome_eq_false_iff, Option.isNone_iff_eq_none] at hacc
      obtain ⟨-, -, hreq, hdata, hsock⟩ := hacc
      obtain ⟨h1, h2⟩ := ErrorsClosed.readRemaining (E := E) (s := s.takeBuffer len) hclosed
      dsimp only at ht
      split at ht
      · cases ht
      · next hund =>
        cases ht
        exact ⟨h1, by simpa using hund, h2.trans hsock, rfl, Read_eq hreq hdata hsock len⟩
  constructor
  · intro hagree t ht
    obtain ⟨h1, h2, h3, h4, h5⟩ := hdeciding t ht
    have h := hagree t ht 1 one_ne_zero
    rw [h5] at h
    exact (pathsAgree_at h1 h2 h3 h4 one_ne_zero).mp h
  · intro hclean t ht id hid
    obtain ⟨h1, h2, h3, h4, h5⟩ := hdeciding t ht
    rw [h5]
    exact (pathsAgree_at h1 h2 h3 h4 hid).mpr (hclean t ht)

/-- A request that is complete, and a byte behind it. -/
def requestAndByte : List UInt8 :=
  [71, 69, 84, 32, 47, 32, 72, 84, 84, 80, 47, 49, 46, 49, CR, LF, CR, LF, 88]

/-- `Read` reports the end where `OnLoop` would report the parse error. -/
theorem pathsDiffer_of_parseError :
    ¬ PathsAgree deviceEnv ((machine deviceEnv).run (start true default)
      [.setRequestCallID, .socketRead (.data requestAndByte), .onLoop]) 1 := by
  intro hagree
  have hclean := (pathsAgree_iff deviceEnv true default _ 1).mp hagree
  have hflag : (((machine deviceEnv).run (start true default)
      [.setRequestCallID, .socketRead (.data requestAndByte), .onLoop]).deciding deviceEnv 1).any
      (·.mHTTPError) = true := by decide +kernel
  obtain ⟨t, ht, h⟩ := (Option.any_eq_true _ _).mp hflag
  have h' := (hclean t ht).2.1
  rw [h] at h'
  cases h'

end LowHTTPDirect

end LowJs.HTTPDirect
