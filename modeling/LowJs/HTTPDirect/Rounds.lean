import LowJs.HTTPDirect.Loop

/-!
# Runs of the byte loop

What every iteration of the byte loop preserves, the loop preserves; a property of single
iterations is a guard on the whole loop. Where a response is finished, the iteration that ends a
message is one that waits for the response, followed by `Init`.
-/

open LowJs.HTTPDirect.Parser

namespace LowJs.HTTPDirect

namespace LowHTTPDirect

variable {E : Env}

/-- Every iteration of the byte loop meets a state and an input that satisfy `ok`. -/
def Met (E : Env) (ok : LowHTTPDirect → List UInt8 → Prop) :
    Nat → LowHTTPDirect → List UInt8 → Prop
  | _, _, [] => True
  | 0, _, _ => True
  | fuel + 1, s, c :: rest =>
    ok s (c :: rest) ∧
      match s.socketByte E c rest with
      | (.next, s, rest) => Met E ok fuel s rest
      | _ => True

/-- Nothing is asked of the iterations. -/
lemma met_true (s : LowHTTPDirect) (n : Nat) (d : List UInt8) : Met E (fun _ _ => True) n s d := by
  induction n generalizing s d with
  | zero => cases d <;> exact trivial
  | succ n ih =>
    cases d with
    | nil => exact trivial
    | cons c rest =>
      refine ⟨trivial, ?_⟩
      split
      · exact ih _ _
      · exact trivial

variable {ok : LowHTTPDirect → List UInt8 → Prop}

/-- The rule of the byte loop, with an invariant `P` of its iterations. -/
theorem socketLoop_rule {P : LowHTTPDirect → List UInt8 → Prop}
    {Q : Exit → LowHTTPDirect → List UInt8 → Prop}
    (hend : ∀ s data, P s data → Q .next s data)
    (hbyte : ∀ s c rest, P s (c :: rest) → ok s (c :: rest) →
      let r := s.socketByte E c rest
      (r.1 = .next → P r.2.1 r.2.2) ∧ (r.1 ≠ .next → Q r.1 r.2.1 r.2.2))
    {fuel : Nat} {s : LowHTTPDirect} {data : List UInt8} (hs : P s data)
    (hmet : Met E ok fuel s data) :
    let r := s.socketLoop E fuel data
    Q r.1 r.2.1 r.2.2 := by
  induction fuel generalizing s data with
  | zero =>
    cases data with
    | nil => exact hend s [] hs
    | cons c rest => exact hend s (c :: rest) hs
  | succ fuel ih =>
    cases data with
    | nil => exact hend s [] hs
    | cons c rest =>
      obtain ⟨hok, hmet⟩ := hmet
      obtain ⟨hnext, hexit⟩ := hbyte s c rest hs hok
      simp only [socketLoop]
      cases hr : s.socketByte E c rest with
      | mk exit r =>
        rw [hr] at hmet hnext hexit
        cases exit with
        | next => exact ih (hnext rfl) hmet
        | brk => exact hexit (by simp)
        | err => exact hexit (by simp)
        | done => exact hexit (by simp)
        | undef => exact hexit (by simp)

/-- The same connection with its response still to come. -/
def awaiting (s : LowHTTPDirect) : LowHTTPDirect := { s with writer.mWriteDone := false }

/-- `t`, with the response as it is in `s`. -/
def resume (s t : LowHTTPDirect) : LowHTTPDirect := { t with writer := s.writer }

variable {s : LowHTTPDirect}

lemma awaiting_responseDone (s : LowHTTPDirect) : s.awaiting.responseDone = false := by
  simp [awaiting, responseDone]

/-- What the end of a message does once its response is finished. -/
def atEnd (s : LowHTTPDirect) : LowHTTPDirect := if s.responseDone then s.init else s

/-- What follows an iteration that has run as if the response were still to come. -/
def endRound (s : LowHTTPDirect) (r : Exit × LowHTTPDirect × List UInt8) :
    Exit × LowHTTPDirect × List UInt8 :=
  if r.1 = .next ∧ s.parser.mPhase ≠ .sendingResponse ∧ r.2.1.parser.mPhase = .sendingResponse then
    (r.1, (s.resume r.2.1).atEnd, r.2.2)
  else (r.1, s.resume r.2.1, r.2.2)

lemma endRound_of_open {r : Exit × LowHTTPDirect × List UInt8}
    (h : r.1 = .next → r.2.1.parser.mPhase = .sendingResponse →
      s.parser.mPhase = .sendingResponse) :
    s.endRound r = (r.1, s.resume r.2.1, r.2.2) :=
  if_neg fun hr => hr.2.1 (h hr.1 hr.2.2)

lemma endRound_of_ended {r : Exit × LowHTTPDirect × List UInt8} (h : r.1 = .next)
    (hp : r.2.1.parser.mPhase = .sendingResponse) (hs : s.parser.mPhase ≠ .sendingResponse) :
    s.endRound r = (r.1, (s.resume r.2.1).atEnd, r.2.2) :=
  if_pos ⟨h, hs, hp⟩

/-- `bodyRead` either ends the message, or goes on in it. -/
lemma bodyRead_awaiting (s : LowHTTPDirect) (hp : s.parser.mPhase = .body) :
    (s.awaiting.bodyRead.parser.mPhase ≠ .sendingResponse ∧
      s.bodyRead = s.resume s.awaiting.bodyRead) ∨
    (s.awaiting.bodyRead.parser.mPhase = .sendingResponse ∧
      s.bodyRead = (s.resume s.awaiting.bodyRead).atEnd) := by
  rw [bodyRead_eq (awaiting_responseDone s)]
  unfold bodyRead
  by_cases h : 0 ≤ s.parser.mContentLen ∧ s.parser.mDataLen = s.parser.mContentLen
  · cases hc : s.parser.mChunkedEncoding with
    | true => exact .inl (by simp [h, hc, resume, awaiting])
    | false => exact .inr (by simp [h, hc, resume, awaiting, atEnd])
  · exact .inl (by simp [h, resume, awaiting, hp])

lemma bodyRead_round (s : LowHTTPDirect) (hp : s.parser.mPhase = .body) (rest : List UInt8) :
    (Exit.next, { s.bodyRead.unlock with setCallback := true }, rest) =
      s.endRound (.next, { s.awaiting.bodyRead.unlock with setCallback := true }, rest) := by
  rcases bodyRead_awaiting s hp with ⟨hopen, heq⟩ | ⟨hend, heq⟩
  · rw [endRound_of_open fun _ h => absurd h hopen, heq]
    rfl
  · rw [endRound_of_ended rfl hend (by simp [hp]), heq]
    unfold atEnd
    dsimp only
    cases hd : (s.resume s.awaiting.bodyRead).responseDone with
    | true =>
      have hd' : (s.resume { s.awaiting.bodyRead.unlock with setCallback := true }).responseDone =
          true := hd
      rw [hd', if_pos rfl, if_pos rfl]
      rfl
    | false =>
      have hd' : (s.resume { s.awaiting.bodyRead.unlock with setCallback := true }).responseDone =
          false := hd
      rw [hd', if_neg (by simp), if_neg (by simp)]
      rfl

lemma bodyBytes_awaiting (s : LowHTTPDirect) (hp : s.parser.mPhase = .body) (data : List UInt8) :
    s.bodyBytes data = s.endRound (s.awaiting.bodyBytes data) := by
  cases hbuf : s.reader.mReadData with
  | none =>
    have heq (t : LowHTTPDirect) (ht : t.reader.mReadData = none) : t.bodyBytes data =
        (.brk, unlock { t.lock with reader.mRemainingRead := some data }, data) := by
      simp [bodyBytes, lock, ht]
    rw [heq s hbuf, heq s.awaiting hbuf, endRound_of_open (by simp)]
    rfl
  | some buf =>
    by_cases hroom : s.reader.mReadPos = s.reader.mReadLen
    · have heq (t : LowHTTPDirect) (ht : t.reader = s.reader) : t.bodyBytes data =
          (.brk, unlock { t.lock with reader.mRemainingRead := some data }, data) := by
        simp [bodyBytes, lock, ht, hbuf, hroom]
      rw [heq s rfl, heq s.awaiting rfl, endRound_of_open (by simp)]
      rfl
    · have hsize : s.awaiting.lock.copySize data.length = s.lock.copySize data.length := rfl
      unfold bodyBytes
      dsimp only
      rw [show s.lock.reader = s.reader from rfl, show s.awaiting.lock.reader = s.reader from rfl,
        hbuf]
      dsimp only
      rw [if_neg hroom, if_neg hroom, hsize]
      split
      · rw [endRound_of_open (by simp)]
        rfl
      · exact bodyRead_round { s.lock with
          rt.copies := s.rt.copies ++ [⟨s.lock.copySize data.length, data.length,
            s.reader.mReadLen - s.reader.mReadPos⟩]
          reader.mReadData := some (buf.take s.reader.mReadPos.toNat ++
            data.take (s.lock.copySize data.length).toNat)
          reader.mReadPos := int32 (s.reader.mReadPos + s.lock.copySize data.length)
          parser.mDataLen := int32 (s.parser.mDataLen + s.lock.copySize data.length)
          parser.history := s.parser.history.take
            (data.take (s.lock.copySize data.length).toNat) } hp _

/-- The end of a section either ends the message, or goes on in it. -/
lemma sectionEnded_awaiting (s : LowHTTPDirect) :
    (s.parser.mPhase ≠ .sendingResponse ∧
      s.sectionEnded = s.resume s.awaiting.sectionEnded) ∨
    (s.parser.mPhase = .sendingResponse ∧
      s.sectionEnded = (s.resume s.awaiting.sectionEnded).atEnd) := by
  have heq (t : LowHTTPDirect) : t.sectionEnded =
      if t.parser.mPhase = .sendingResponse then
        unlock (atEnd (lock { t with setCallback := true }))
      else { t with setCallback := true } := rfl
  by_cases hp : s.parser.mPhase = .sendingResponse
  · refine .inr ⟨hp, ?_⟩
    have hopen : atEnd (lock { s.awaiting with setCallback := true }) =
        lock { s.awaiting with setCallback := true } :=
      if_neg (by rw [show responseDone (lock { s.awaiting with setCallback := true }) =
        s.awaiting.responseDone from rfl, awaiting_responseDone]; simp)
    rw [heq, heq, if_pos hp, if_pos (by exact hp), hopen]
    cases hd : s.responseDone with
    | true => exact (congrArg unlock (if_pos hd)).trans (if_pos hd).symm
    | false =>
      have hne : s.responseDone ≠ true := ne_of_eq_of_ne hd Bool.false_ne_true
      exact (congrArg unlock (if_neg hne)).trans (if_neg hne).symm
  · refine .inl ⟨hp, ?_⟩
    rw [heq, heq, if_neg hp, if_neg (by exact hp)]
    rfl

lemma sectionEnded_round {t : LowHTTPDirect} (ht : t.writer = s.writer)
    (hp : s.parser.mPhase ≠ .sendingResponse) (rest : List UInt8) :
    (Exit.next, t.sectionEnded, rest) = s.endRound (.next, t.awaiting.sectionEnded, rest) := by
  have hphase : t.awaiting.sectionEnded.parser = t.parser := by
    rcases sectionEnded_awaiting t.awaiting with ⟨h, -⟩ | ⟨h, -⟩
    · simp [sectionEnded, awaiting, show t.parser.mPhase ≠ .sendingResponse from h]
    · simp [sectionEnded, awaiting, show t.parser.mPhase = .sendingResponse from h, responseDone,
        lock, unlock]
  have hresume (u : LowHTTPDirect) : t.resume u = s.resume u := by simp [resume, ht]
  rcases sectionEnded_awaiting t with ⟨hopen, heq⟩ | ⟨hend, heq⟩
  · rw [endRound_of_open fun _ h => absurd (hphase ▸ h) hopen, heq, hresume]
  · rw [endRound_of_ended rfl (hphase ▸ hend) hp, heq, hresume]

lemma paramBytes_awaiting (hsec : s.parser.InSection) (c : UInt8) (rest : List UInt8) :
    ((s.paramBytes E c).1, (s.paramBytes E c).2, rest) =
      s.endRound ((s.awaiting.paramBytes E c).1, (s.awaiting.paramBytes E c).2, rest) := by
  obtain ⟨hbody, hchunk, hsend⟩ := id hsec
  -- `storeParam` is the part behind the allocation of a block
  have hround (t : LowHTTPDirect) (ht : t.writer = s.writer) (hts : t.parser.InSection) (b : Nat) :
      ((storeParam E c t b).1, (storeParam E c t b).2, rest) =
        s.endRound ((storeParam E c t.awaiting b).1, (storeParam E c t.awaiting b).2, rest) := by
    have hstep := paramByte_step E t.mIsServer
      { t.parser with history := t.parser.history.take [c] } b c
    have hresume (u : LowHTTPDirect) : t.resume u = s.resume u := by simp [resume, ht]
    unfold storeParam afterParam
    dsimp only
    rw [show t.awaiting.parser = t.parser from rfl, show t.awaiting.mIsServer = t.mIsServer from rfl]
    cases hr : Parser.paramByte E t.mIsServer
        { t.parser with history := t.parser.history.take [c] } b c with
    | mk e p =>
      rw [hr] at hstep
      cases e with
      | next =>
        obtain ⟨-, hp⟩ := hstep.next_section E rfl hts
        rw [endRound_of_open fun _ h => absurd h hp.2.2, ← hresume]
        rfl
      | err =>
        rw [endRound_of_open (by simp), ← hresume]
        rfl
      | ended => exact sectionEnded_round (t := { t with parser := p }) ht hsend rest
  rw [paramBytes_def, paramBytes_def, show s.awaiting.parser = s.parser from rfl]
  cases ha : s.parser.allocParam E with
  | param b => exact hround s rfl hsec b
  | linked b q =>
    obtain ⟨-, hq⟩ := allocParam_linked E _ ha
    refine hround (unlock { s.lock with parser := q }) rfl ?_ b
    change q.InSection
    simpa [InSection, hq] using hsec
  | null q =>
    rw [endRound_of_open (by simp)]
    rfl
  | err q =>
    rw [endRound_of_open (by simp)]
    rfl

/-- An iteration of the byte loop is one that waits for the response, and where it ends a message
whose response is finished, `Init`. -/
theorem socketByte_awaiting (hlens : s.parser.LenOk) (c : UInt8) (rest : List UInt8) :
    s.socketByte E c rest = s.endRound (s.awaiting.socketByte E c rest) := by
  by_cases herase : s.parser.mEraseNextN ∧ c = LF
  · have hskip (t : LowHTTPDirect) (ht : t.parser = s.parser) : t.socketByte E c rest =
        (.next, { t with
          parser := { s.parser with mEraseNextN := false, history := s.parser.history.skip } },
          rest) := by
      rw [socketByte, if_pos (by rwa [ht]), ht]
    rw [hskip s rfl, hskip s.awaiting rfl]
    rw [endRound_of_open]
    · rfl
    · exact fun _ h => h
  by_cases hbody : s.parser.mPhase = .body
  · rw [socketByte_body herase hbody, socketByte_body (by exact herase) (by exact hbody)]
    exact bodyBytes_awaiting { s with parser := s.parser.marked c } hbody (c :: rest)
  by_cases hsend : s.parser.mPhase = .sendingResponse
  · rw [socketByte_sendingResponse herase hsend,
      socketByte_sendingResponse (by exact herase) (by exact hsend), endRound_of_open (by simp)]
    rfl
  by_cases hchunk : s.parser.mPhase = .chunkHeader
  · rw [socketByte_chunkHeader herase hchunk,
      socketByte_chunkHeader (by exact herase) (by exact hchunk)]
    have hlen : (s.parser.marked c).mChunkedHeaderLine.length ≤ 10 := (hlens.chunk hchunk).2
    have hstep := chunkByte_step { s.parser.marked c with history := s.parser.history.take [c] } c hlen
    rw [show s.awaiting.parser = s.parser from rfl]
    cases hc : chunkByte { s.parser.marked c with history := s.parser.history.take [c] } c with
    | none =>
      rw [endRound_of_open (by simp)]
      rfl
    | some p =>
      rw [hc] at hstep
      obtain ⟨-, hp⟩ := hstep.frame hsend
      rw [endRound_of_open fun _ h => absurd h hp]
      rfl
  · have hsec : s.parser.InSection := ⟨hbody, hchunk, hsend⟩
    rw [socketByte_section herase hsec, socketByte_section (by exact herase) (by exact hsec)]
    exact paramBytes_awaiting (s := { s with parser := s.parser.marked c }) hsec c rest

end LowHTTPDirect

end LowJs.HTTPDirect
