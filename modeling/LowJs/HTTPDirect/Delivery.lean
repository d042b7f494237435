import LowJs.HTTPDirect.Lengths

/-!
# The body that the reader gets

As long as the announced numbers fit into an `int`, the bytes handed to the reader, with those that
wait in its buffer, are the body that the framing finds in the bytes taken; and the bytes taken and
those kept back are what the socket has delivered behind the head.
-/

open LowJs.HTTPDirect.Parser

namespace LowJs.HTTPDirect

/-! ### The bytes behind the head -/

/-- Before the head has ended no byte is counted. -/
def History.Tidy (h : History) : Prop := h.framing = none → h.tail = []

/-- `bs` are taken in the same message: the tail ends with those of them that lie behind the head. -/
structure History.Took (h : History) (bs : List UInt8) (h' : History) : Prop where
  past : h'.past = h.past
  tidy : h.Tidy → h'.Tidy
  tail : h.Tidy → ∃ front, h.tail ++ bs = front ++ h'.tail

namespace History

variable {h h' h'' : History} {bs cs : List UInt8}

lemma Took.refl (h : History) : Took h [] h := ⟨rfl, id, fun _ => ⟨[], by simp⟩⟩

lemma Took.trans (h₁ : Took h bs h') (h₂ : Took h' cs h'') : Took h (bs ++ cs) h'' := by
  refine ⟨h₂.past.trans h₁.past, fun ht => h₂.tidy (h₁.tidy ht), fun ht => ?_⟩
  obtain ⟨front, hfront⟩ := h₁.tail ht
  obtain ⟨front', hfront'⟩ := h₂.tail (h₁.tidy ht)
  refine ⟨front ++ front', ?_⟩
  rw [← List.append_assoc, hfront, List.append_assoc, hfront', List.append_assoc]

lemma took_take (h : History) (bs : List UInt8) : Took h bs (h.take bs) := by
  cases hf : h.framing with
  | none =>
    rw [take_of_none hf]
    exact ⟨rfl, id, fun ht => ⟨bs, by simp [ht hf]⟩⟩
  | some f =>
    rw [take_of_some hf]
    exact ⟨rfl, fun _ hn => by simp [hf] at hn, fun _ => ⟨[], by simp⟩⟩

lemma took_skip (h : History) : Took h [LF] h.skip := by
  rw [skip]
  split
  · next ht => exact ⟨rfl, id, fun _ => ⟨[LF], by simp [ht]⟩⟩
  · exact took_take h [LF]

/-- What the message announces, and the framing it selects, leave the bytes as they are. -/
lemma Took.congr (h₁ : Took h bs h') (hpast : h''.past = h'.past) (htail : h''.tail = h'.tail)
    (hframing : h''.framing = none → h'.framing = none) : Took h bs h'' := by
  refine ⟨hpast.trans h₁.past, fun ht hn => ?_, fun ht => ?_⟩
  · rw [htail]
    exact h₁.tidy ht (hframing hn)
  · rw [htail]
    exact h₁.tail ht

end History

namespace Parser

variable {E : Env} {S : Bool} {p p' : Parser} {c : UInt8}

lemma feed_took (hok : p.LenOk) (hf : feed E S p c = .next p') :
    p.history.Took [c] p'.history := by
  have htake := History.took_take p.history [c]
  cases feed_taking hok hf with
  | skip herase =>
    rw [herase.2]
    exact History.took_skip p.history
  | body herase hp =>
    have heq : ((p.marked c).copied [c]).history = p.history.take [c] := by
      rw [copied]
      dsimp only
      split
      · split
        · rfl
        · rfl
      · rfl
    rw [heq]
    exact htake
  | chunk herase hp hstep =>
    cases hstep with
    | blank hc hline => exact htake
    | char hc hlen => exact htake
    | last hc hline n hsize hn => exact htake.congr rfl rfl id
    | chunk hc hline n hsize hn => exact htake.congr rfl rfl id
  | entry herase hsec hf =>
    cases sectionByte_step (p := p.marked c) hsec hf with
    | next hsec hs =>
      rw [hs.history]
      exact htake
    | length hsec value hs =>
      rw [hs.history]
      refine htake.congr ?_ ?_ ?_
      · rw [announceLength]
        split
        · rfl
        · rfl
      · rw [announceLength]
        split
        · rfl
        · rfl
      · rw [announceLength]
        split
        · exact id
        · exact id
    | encoding hsec chunked hs =>
      rw [hs.history]
      exact htake
    | trailers ht hk hphase hs =>
      rw [hs.history]
      exact htake
    | head ht q hq contentLen line hs hcl =>
      rw [hs.history]
      refine htake.congr ?_ ?_ (by simp)
      · dsimp only
        rw [hq.history]
        rfl
      · dsimp only
        rw [hq.history]
        rfl

lemma Parses.took {bs body : List UInt8} (h : Parses E S p bs body p') (hok : p.LenOk) :
    p.history.Took bs p'.history := by
  induction bs generalizing p body with
  | nil =>
    obtain ⟨hf, -⟩ := h
    cases hf
    exact .refl _
  | cons c bs ih =>
    obtain ⟨hf, -⟩ := h
    cases hc : Parser.feed E S p c with
    | next q =>
      rw [feeds_cons hc] at hf
      exact (feed_took hok hc).trans (ih ⟨hf, rfl⟩ (hok.feed hc))
    | err q => simp [Parser.feeds, hc] at hf
    | noMemory q => simp [Parser.feeds, hc] at hf
    | undef => simp [Parser.feeds, hc] at hf

/-- A byte outside the body does not change the body. -/
lemma Tracks.body_take (h : Tracks p) (hp : p.mPhase ≠ .body) (c : UInt8) :
    (p.history.take [c]).body = p.history.body := by
  cases h with
  | head hsec ht hf htail hchunks hdl hlen => rw [History.take_of_none hf]
  | length n hf hc hcl hdl hskip hp' =>
    rcases hp' with ⟨hbody, -⟩ | ⟨-, heq⟩
    · exact absurd hbody hp
    · rw [History.take_of_some hf, History.body, History.body]
      dsimp only
      rw [hf]
      have hn : n.toNat = p.history.tail.length := by omega
      simp [Framing.body, hn]
  | untilClose hf hbody hc hcl hlen hskip => exact absurd hbody hp
  | size hf ht hp' hc hd hcl hdl hbody hskip =>
    rw [History.take_of_some hf, History.body, History.body]
    dsimp only
    rw [hf]
    dsimp only [Framing.body]
    rw [Chunked.decode_concat]
    unfold Parser.decoder at hd
    rw [Chunked.Decoder.step]
    split
    · rfl
    · rw [hd]
  | data hf ht hbody hc hd hcl hdl hbody' hskip => exact absurd hbody hp
  | ended hf ht hp' hd hskip =>
    rw [History.take_of_some hf, History.body, History.body]
    dsimp only
    rw [hf]
    dsimp only [Framing.body]
    rw [Chunked.decode_concat]
    exact (Chunked.step_body_of_ended hd c).1

/-- What is left of the history when a byte of the head or of the trailers ends the connection. -/
lemma sectionByte_stop_history
    (hf : p.sectionByte E S c = .err p' ∨ p.sectionByte E S c = .noMemory p') :
    p'.history = p.history ∨ p'.history = p.history.take [c] := by
  have hstore (q : Parser) (b : Nat) (hq : Steady p q)
      (hqf : Fed.ofParam (Parser.paramByte E S { q with history := q.history.take [c] } b c) = .err p' ∨
        Fed.ofParam (Parser.paramByte E S { q with history := q.history.take [c] } b c) = .noMemory p') :
      p'.history = p.history.take [c] := by
    have hstep := paramByte_step E S { q with history := q.history.take [c] } b c
    generalize Parser.paramByte E S { q with history := q.history.take [c] } b c = r at hqf hstep
    obtain ⟨e, p''⟩ := r
    rw [Fed.ofParam.eq_def] at hqf
    cases e with
    | next => simp at hqf
    | ended => simp at hqf
    | err =>
      obtain rfl : p'' = p' := by simpa using hqf
      cases hstep with
      | err hs hp => exact hs.history.trans (congrArg (·.take [c]) hq.history)
  have hstep := allocParam_step E p
  unfold Parser.sectionByte at hf
  cases ha : p.allocParam E with
  | param b =>
    rw [ha] at hf
    exact .inr (hstore p b (.refl p) hf)
  | linked b q =>
    obtain ⟨hs, -⟩ := allocParam_linked E p ha
    rw [ha] at hf
    exact .inr (hstore q b hs hf)
  | null q =>
    rw [ha] at hf hstep
    obtain rfl : q = p' := by simpa using hf
    cases hstep with
    | null hmem => exact .inl rfl
  | err q =>
    rw [ha] at hf hstep
    obtain rfl : q = p' := by simpa using hf
    cases hstep with
    | err b hlast hfull hmem hstart => exact .inl rfl

lemma feed_stop_history
    (hf : Parser.feed E S p c = .err p' ∨ Parser.feed E S p c = .noMemory p') :
    p.mPhase ≠ .body ∧ (p'.history = p.history ∨ p'.history = p.history.take [c]) := by
  by_cases herase : p.mEraseNextN ∧ c = LF
  · rw [feed_skip herase] at hf
    simp at hf
  by_cases hbody : p.mPhase = .body
  · rw [Parser.feed, if_neg herase] at hf
    simp only [hbody] at hf
    split at hf
    · simp at hf
    · simp at hf
  refine ⟨hbody, ?_⟩
  by_cases hsend : p.mPhase = .sendingResponse
  · rw [feed_sendingResponse herase hsend] at hf
    obtain rfl : p.marked c = p' := by simpa using hf
    exact .inl rfl
  by_cases hchunk : p.mPhase = .chunkHeader
  · rw [feed_chunkHeader herase hchunk] at hf
    cases hc : Parser.chunkByte { p.marked c with history := p.history.take [c] } c with
    | none =>
      rw [hc] at hf
      obtain rfl : { p.marked c with history := p.history.take [c] } = p' := by simpa using hf
      exact .inr rfl
    | some q =>
      rw [hc] at hf
      simp at hf
  · have hsec : p.InSection := ⟨hbody, hchunk, hsend⟩
    rw [feed_section herase hsec] at hf
    exact sectionByte_stop_history (p := p.marked c) hf

end Parser

/-! ### The bytes for the reader -/

/-- The bytes that an event hands to the reader. -/
def Event.readBytes : Event → List UInt8
  | .read _ data _ => data
  | _ => []

namespace LowHTTPDirect

variable {E : Env} {s t u : LowHTTPDirect}

/-- The bytes that the reader has got, and those that wait in its buffer. -/
def handed (s : LowHTTPDirect) : List UInt8 :=
  s.rt.log.flatMap Event.readBytes ++ s.reader.mReadData.getD []

/-- `t` has the reader's bytes and the received bytes of `s`. -/
structure Quiet (s t : LowHTTPDirect) : Prop where
  handed : t.handed = s.handed
  received : t.rt.received = s.rt.received

lemma Quiet.refl (s : LowHTTPDirect) : Quiet s s := ⟨rfl, rfl⟩

lemma Quiet.trans (h : Quiet s t) (h' : Quiet t u) : Quiet s u :=
  ⟨h'.handed.trans h.handed, h'.received.trans h.received⟩

lemma quiet_of_eq (hlog : t.rt.log = s.rt.log) (hdata : t.reader.mReadData = s.reader.mReadData)
    (hreceived : t.rt.received = s.rt.received) : Quiet s t :=
  ⟨by rw [LowHTTPDirect.handed, LowHTTPDirect.handed, hlog, hdata], hreceived⟩

lemma quiet_of_emit {e : Event} (hlog : t.rt.log = s.rt.log ++ [e])
    (hdata : t.reader.mReadData = s.reader.mReadData)
    (hreceived : t.rt.received = s.rt.received) (he : e.readBytes = []) : Quiet s t := by
  refine ⟨?_, hreceived⟩
  rw [LowHTTPDirect.handed, LowHTTPDirect.handed, hlog, hdata, List.flatMap_append]
  simp [he]

lemma quiet_detach (hlog : t.rt.log = s.rt.log) (hdata : t.reader.mReadData = s.reader.mReadData)
    (hreceived : t.rt.received = s.rt.received) : Quiet s t.detach := by
  rw [detach]
  split
  · exact quiet_of_eq hlog hdata hreceived
  · exact quiet_of_eq hlog hdata hreceived

/-! Writing -/

lemma quiet_responseSent (s : LowHTTPDirect) : Quiet s s.responseSent := by
  rw [responseSent]
  split
  · split
    · split
      · exact quiet_of_emit rfl rfl rfl rfl
      · exact .refl s
    · split
      · exact quiet_of_eq rfl rfl rfl
      · exact .refl s
  · exact .refl s

lemma quiet_DoWrite (s : LowHTTPDirect) (results : List WritevResult) :
    Quiet s (s.DoWrite results) := by
  induction results generalizing s with
  | nil =>
    unfold DoWrite
    split
    · exact quiet_responseSent s
    · split
      · exact quiet_of_eq rfl rfl rfl
      · exact .refl s
  | cons r results ih =>
    unfold DoWrite
    split
    · exact quiet_responseSent s
    · split
      · exact quiet_of_eq rfl rfl rfl
      · cases r with
        | size n =>
          have hw : Quiet s (s.written n) := quiet_of_emit rfl rfl rfl rfl
          exact hw.trans (ih _)
        | again => exact .refl s
        | error errno => exact quiet_of_eq rfl rfl rfl

lemma quiet_WriteHeaders (s : LowHTTPDirect) (txt : List UInt8) (len : Int) (isChunked : Bool)
    (results : List WritevResult) : Quiet s (s.WriteHeaders txt len isChunked results) := by
  rw [WriteHeaders]
  split
  · exact .refl s
  · dsimp only
    refine Quiet.trans ?_ ((quiet_DoWrite _ results).trans (quiet_of_eq rfl rfl rfl))
    exact quiet_of_eq rfl rfl rfl

lemma quiet_releaseSent (n : Nat) (s : LowHTTPDirect) : Quiet s (releaseSent n s) := by
  induction n generalizing s with
  | zero => exact quiet_of_eq rfl rfl rfl
  | succ n ih =>
    have h := ih { s.removeStash (s.writer.mWriteBufferStashID.getD 0 0) with
      writer.mWriteBufferStashID :=
        [s.writer.mWriteBufferStashID.getD 1 0, s.writer.mWriteBufferStashID.getD 2 0, 0] }
    exact ⟨h.handed, h.received⟩

lemma quiet_queueWrite (s : LowHTTPDirect) (data : List UInt8) : Quiet s (s.queueWrite data) := by
  rw [queueWrite]
  dsimp only
  split
  · split
    · exact quiet_of_eq rfl rfl rfl
    · exact quiet_of_eq rfl rfl rfl
  · split
    · exact quiet_of_eq rfl rfl rfl
    · exact quiet_of_eq rfl rfl rfl

lemma quiet_writeOutcome (s : LowHTTPDirect) : Quiet s s.writeOutcome := by
  rw [writeOutcome]
  split
  · exact .refl s
  · split
    · exact quiet_of_emit rfl rfl rfl rfl
    · split
      · exact quiet_of_emit rfl rfl rfl rfl
      · exact quiet_of_eq rfl rfl rfl

lemma quiet_Write (s : LowHTTPDirect) (data : List UInt8) (results : List WritevResult) :
    Quiet s (s.Write data results) := by
  rw [Write]
  split
  · exact quiet_of_emit rfl rfl rfl rfl
  · dsimp only
    have hrelease := (quiet_of_eq rfl rfl rfl : Quiet s s.lock).trans
      (quiet_releaseSent s.writer.mWriteBufferStashInvalidCount s.lock)
    refine ((hrelease.trans (quiet_queueWrite _ data)).trans (quiet_DoWrite _ results)).trans ?_
    have h := quiet_writeOutcome (unlock (((releaseSent s.writer.mWriteBufferStashInvalidCount
      s.lock).queueWrite data).DoWrite results))
    exact ⟨h.handed, h.received⟩

lemma quiet_onEventsWrite (s : LowHTTPDirect) (results : List WritevResult) :
    Quiet s (s.onEventsWrite results) := by
  rw [onEventsWrite]
  split
  · have h (s : LowHTTPDirect) : Quiet s (OnSocketWrite s results).2 := by
      rw [OnSocketWrite]
      have hw := (quiet_of_eq rfl rfl rfl : Quiet s s.lock).trans (quiet_DoWrite s.lock results)
      dsimp only
      split
      · exact hw.trans (quiet_of_eq rfl rfl rfl)
      · exact hw.trans (quiet_of_eq rfl rfl rfl)
    have hw := (quiet_of_eq rfl rfl rfl : Quiet s { s with rt.mDirectWriteEnabled := false }).trans
      (h _)
    dsimp only
    split
    · exact hw.trans (quiet_of_eq rfl rfl rfl)
    · exact hw
  · exact .refl s

/-! Reading -/

/-- A report hands over what is in the buffer. -/
lemma quiet_reportRead (hr : s.reader.Ok) (via : Via) : Quiet s (s.reportRead E via) := by
  have hbuf : (s.reader.mReadData.getD []).take s.reader.mReadPos.toNat =
      s.reader.mReadData.getD [] := by
    cases hd : s.reader.mReadData with
    | none => simp
    | some buf =>
      have hpos := (hr buf hd).1
      rw [Option.getD_some, List.take_of_length_le (by omega)]
  rw [reportRead]
  dsimp only
  split
  · next hpos =>
    have hnil : s.reader.mReadData.getD [] = [] := by
      rw [← hbuf, hpos]
      rfl
    have hnone : Quiet s { s with reader.mReadData := none } := by
      refine ⟨?_, rfl⟩
      rw [handed, handed, hnil]
      rfl
    refine hnone.trans ?_
    rw [endMessage_eq]
    split
    · exact quiet_of_eq rfl rfl rfl
    · dsimp only
      split
      · refine Quiet.trans ?_ (quiet_of_emit rfl rfl rfl rfl)
        exact quiet_detach rfl rfl rfl
      · exact quiet_of_emit rfl rfl rfl rfl
  · refine ⟨?_, rfl⟩
    rw [hbuf]
    simp [handed, emit, Event.readBytes]

lemma quiet_readOutcome
    (hr : (s.readRemaining E).rt.undefined = false → (s.readRemaining E).reader.Ok) :
    Quiet (s.readRemaining E) (s.readOutcome E) := by
  rw [readOutcome]
  dsimp only
  split
  · exact .refl _
  · next hund =>
    split
    · exact quiet_reportRead (hr (by simpa using hund)) _
    · split
      · refine Quiet.trans ?_ (quiet_of_emit rfl rfl rfl rfl)
        exact quiet_detach rfl rfl rfl
      · exact quiet_of_eq rfl rfl rfl

lemma quiet_loopReturn (s : LowHTTPDirect) : Quiet s s.loopReturn := by
  rw [loopReturn]
  dsimp only
  split
  · exact quiet_of_eq rfl rfl rfl
  · exact quiet_of_eq rfl rfl rfl

lemma quiet_onLoopWrite (s : LowHTTPDirect) : Quiet s s.onLoopWrite := by
  rw [onLoopWrite]
  split
  · dsimp only
    split
    · exact quiet_of_emit rfl rfl rfl rfl
    · exact quiet_of_emit rfl rfl rfl rfl
  · exact quiet_loopReturn s

lemma quiet_onLoopRead (hr : s.reader.Ok) : Quiet s (s.onLoopRead E) := by
  rw [onLoopRead]
  split
  · exact quiet_loopReturn s
  · split
    · dsimp only
      split
      · refine Quiet.trans ?_ (quiet_of_emit rfl rfl rfl rfl)
        exact quiet_detach rfl rfl rfl
      · have h := quiet_reportRead (E := E) (s := unlock { s.lock.removeStash s.reader.mReadCallID with
          reader.mReadCallID := 0, rt.inLoop := some .read }) (hr.congr rfl rfl rfl)
          (.stash s.reader.mReadCallID)
        exact ⟨h.handed, h.received⟩
    · exact quiet_onLoopWrite s

lemma quiet_onLoopError (hr : s.reader.Ok) : Quiet s (s.onLoopError E) := by
  rw [onLoopError]
  split
  · dsimp only
    refine Quiet.trans ?_ (quiet_of_emit rfl rfl rfl rfl)
    exact quiet_detach rfl rfl rfl
  · exact quiet_onLoopRead hr

lemma quiet_OnLoop (hr : s.reader.Ok) : Quiet s (s.OnLoop E) := by
  have hrequest : Quiet s (s.onLoopRequest E) := by
    rw [onLoopRequest]
    dsimp only
    split
    · refine Quiet.trans ?_ (quiet_loopReturn _)
      split
      · exact quiet_detach rfl rfl rfl
      · exact quiet_of_eq rfl rfl rfl
    · have herror : Quiet s (onLoopError E { s with rt.loopQueued := false }) := by
        have h := quiet_onLoopError (E := E) (s := { s with rt.loopQueued := false }) hr
        exact ⟨h.handed, h.received⟩
      split
      · exact herror
      · split
        · split
          · exact quiet_of_eq rfl rfl rfl
          · exact quiet_of_emit rfl rfl rfl rfl
        · exact herror
  rw [OnLoop]
  split
  · split
    · exact hrequest
    · exact .refl s
  · exact quiet_onLoopError hr
  · exact quiet_onLoopRead hr
  · exact quiet_onLoopWrite s
  · exact quiet_loopReturn s

/-- What the inputs do that only write, or ask for a callback. -/
lemma quiet_step {i : Input}
    (hi : match i with
      | .read _ => False
      | .socketRead _ => False
      | .onLoop => False
      | _ => True) :
    Quiet s (step E s i) := by
  unfold step
  split
  · exact .refl s
  · cases i with
    | setRequestCallID =>
      change Quiet s s.SetRequestCallID
      unfold SetRequestCallID
      dsimp only
      split
      · exact quiet_of_eq rfl rfl rfl
      · exact quiet_of_eq rfl rfl rfl
    | read len => exact hi.elim
    | writeHeaders txt len isChunked results => exact quiet_WriteHeaders s txt len isChunked results
    | write data results => exact quiet_Write s data results
    | detach => exact (quiet_detach rfl rfl rfl).trans (quiet_of_emit rfl rfl rfl rfl)
    | socketRead input => exact hi.elim
    | socketWrite results => exact quiet_onEventsWrite s results
    | onLoop => exact hi.elim

/-! ### From one state to a later one -/

/-- What is handed over in a message is what its body grows by. -/
structure Carries (s t : LowHTTPDirect) : Prop where
  past : ∃ ms, t.parser.history.past = s.parser.history.past ++ ms
  fits : t.parser.history.Fits → s.parser.history.Fits
  data : t.parser.history.Fits → t.parser.history.past = s.parser.history.past →
    ∃ bs, t.handed = s.handed ++ bs ∧ t.parser.history.body = s.parser.history.body ++ bs

lemma carries_of_eq (hhistory : t.parser.history = s.parser.history) (hh : t.handed = s.handed) :
    Carries s t where
  past := ⟨[], by rw [hhistory, List.append_nil]⟩
  fits := fun hfit => hhistory ▸ hfit
  data := fun _ _ => ⟨[], by rw [hh, List.append_nil], by rw [hhistory, List.append_nil]⟩

lemma Carries.trans (h : Carries s t) (h' : Carries t u) : Carries s u := by
  obtain ⟨ms, hms⟩ := h.past
  obtain ⟨ms', hms'⟩ := h'.past
  refine ⟨⟨ms ++ ms', by rw [hms', hms, List.append_assoc]⟩, fun hfit => h.fits (h'.fits hfit),
    fun hfit hpast => ?_⟩
  have hnil : ms = [] ∧ ms' = [] := by
    rw [hms', hms, List.append_assoc] at hpast
    simpa using hpast
  rw [hnil.1, List.append_nil] at hms
  rw [hnil.2, List.append_nil] at hms'
  obtain ⟨bs, hbs, hbody⟩ := h.data (h'.fits hfit) hms
  obtain ⟨cs, hcs, hbody'⟩ := h'.data hfit hms'
  exact ⟨bs ++ cs, by rw [hcs, hbs, List.append_assoc], by rw [hbody', hbody, List.append_assoc]⟩

lemma carries_init (t : LowHTTPDirect) : Carries t t.init where
  past := ⟨_, rfl⟩
  fits := History.Fits.of_next
  data := fun _ hpast => by
    have hnone : t.parser.history.framing = none := by
      have hlen := congrArg List.length hpast
      cases hf : t.parser.history.framing with
      | none => rfl
      | some f => simp [init, Parser.init, History.next, hf] at hlen
    refine ⟨[], (List.append_nil _).symm, ?_⟩
    have hbody : t.parser.history.body = [] := by rw [History.body, hnone]
    rw [hbody]
    rfl

/-- The bytes taken behind the head, and `rest` behind them, are what has been received. -/
def Joined (s : LowHTTPDirect) (rest : List UInt8) : Prop :=
  s.parser.history.Tidy ∧
    ∃ front, s.rt.received = front ++ (s.parser.history.tail ++ rest)

lemma Joined.congr {rest : List UInt8} (h : Joined s rest)
    (hhistory : t.parser.history = s.parser.history) (hr : t.rt.received = s.rt.received) :
    Joined t rest := by
  rw [Joined, hhistory, hr]
  exact h

lemma Joined.took {bs rest : List UInt8} (h : Joined s (bs ++ rest))
    (hk : s.parser.history.Took bs t.parser.history) (hr : t.rt.received = s.rt.received) :
    Joined t rest := by
  obtain ⟨htidy, front, hfront⟩ := h
  obtain ⟨front', hfront'⟩ := hk.tail htidy
  refine ⟨hk.tidy htidy, front ++ front', ?_⟩
  rw [hr, hfront, ← List.append_assoc _ bs, hfront']
  simp only [List.append_assoc]

lemma Joined.init {rest : List UInt8} (h : Joined t rest) : Joined t.init rest := by
  obtain ⟨-, front, hfront⟩ := h
  refine ⟨fun _ => rfl, front ++ t.parser.history.tail, ?_⟩
  change t.rt.received = _
  rw [hfront, List.append_assoc]
  rfl

/-! ### The byte loop -/

lemma Taken.handed {data copied rest : List UInt8} {exit : Exit}
    (h : Taken E s data copied exit t rest) : t.handed = s.handed ++ copied := by
  have hlog : t.rt.log = s.rt.log := by rw [h.frame]
  rw [LowHTTPDirect.handed, LowHTTPDirect.handed, hlog, h.readData]
  cases hd : s.reader.mReadData with
  | none => simp [h.noBuffer hd]
  | some buf => simp

/-- The parser has taken `bs`, and what it is left with belongs to the same body. -/
lemma Taken.parsed {data copied rest : List UInt8} {exit : Exit}
    (h : Taken E s data copied exit t rest) (hs : Loopable s.parser s) :
    ∃ bs q, Parses E s.mIsServer s.parser bs copied q ∧
      t.parser.history.past = q.history.past ∧
      (t.parser.history.Fits → q.history.Fits ∧ t.parser.history.body = q.history.body) ∧
      (exit = .next ∨ exit = .brk → data = bs ++ rest ∧ t.parser.history = q.history) := by
  have hfed := h.fed
  have hstop {bs : List UInt8} {c : UInt8} {q : Parser}
      (hp : Parses E s.mIsServer s.parser bs copied q)
      (hfeed : feed E s.mIsServer q c = .err t.parser ∨ feed E s.mIsServer q c = .noMemory t.parser) :
      t.parser.history.past = q.history.past ∧
        (t.parser.history.Fits → q.history.Fits ∧ t.parser.history.body = q.history.body) := by
    obtain ⟨hphase, hhistory | hhistory⟩ := feed_stop_history hfeed
    · rw [hhistory]
      exact ⟨rfl, fun hfit => ⟨hfit, rfl⟩⟩
    · rw [hhistory]
      refine ⟨(History.took_take q.history [c]).past, fun hfit => ?_⟩
      have hfit' := History.fits_take.mp hfit
      exact ⟨hfit', ((hs.tracked.parses hp).1.tracks hfit').body_take hphase c⟩
  cases exit with
  | next =>
    obtain ⟨-, -, bs, hdata, hp⟩ := hfed
    exact ⟨bs, _, hp, rfl, fun hfit => ⟨hfit, rfl⟩, fun _ => ⟨hdata, rfl⟩⟩
  | brk =>
    obtain ⟨-, -, -, bs, c, tl, q, hdata, -, hp, -, -, hq⟩ := hfed
    refine ⟨bs, q, hp, by rw [hq]; rfl, fun hfit => ?_, fun _ => ⟨hdata, by rw [hq]; rfl⟩⟩
    rw [hq] at hfit ⊢
    exact ⟨hfit, rfl⟩
  | err =>
    obtain ⟨-, bs, c, q, -, hp, hfeed⟩ := hfed
    obtain ⟨hpast, hbody⟩ := hstop hp (.inl hfeed)
    exact ⟨bs, q, hp, hpast, hbody, by simp⟩
  | done =>
    obtain ⟨-, bs, c, q, -, hp, hfeed⟩ := hfed
    obtain ⟨hpast, hbody⟩ := hstop hp (.inr hfeed)
    exact ⟨bs, q, hp, hpast, hbody, by simp⟩
  | undef =>
    obtain ⟨bs, c, tl, q, -, -, hp, -, hq⟩ := hfed
    refine ⟨bs, q, hp, by rw [hq]; rfl, fun hfit => ?_, by simp⟩
    rw [hq] at hfit ⊢
    exact ⟨hfit, rfl⟩

lemma Taken.carries {data copied rest : List UInt8} {exit : Exit}
    (h : Taken E s data copied exit t rest) (hs : Loopable s.parser s) : Carries s t := by
  obtain ⟨bs, q, hp, hpast, hbody, -⟩ := h.parsed hs
  have htook := Parses.took hp hs.tracked.lens
  have hparses := (hs.tracked.parses hp).2
  refine ⟨⟨[], by rw [hpast, htook.past, List.append_nil]⟩, fun hfit => (hparses (hbody hfit).1).1,
    fun hfit _ => ⟨copied, h.handed, ?_⟩⟩
  rw [(hbody hfit).2, (hparses (hbody hfit).1).2]

lemma Taken.joined {data copied rest : List UInt8} {exit : Exit}
    (h : Taken E s data copied exit t rest) (hs : Loopable s.parser s) (hj : Joined s data)
    (hexit : exit = .next ∨ exit = .brk) : Joined t rest := by
  obtain ⟨bs, q, hp, -, -, heq⟩ := h.parsed hs
  obtain ⟨hdata, hhistory⟩ := heq hexit
  rw [hdata] at hj
  refine hj.took ?_ (by rw [h.frame])
  rw [hhistory]
  exact Parses.took hp hs.tracked.lens

lemma socketByte_carries (hs : Loopable s.parser s) (c : UInt8) (rest : List UInt8) :
    let r := s.socketByte E c rest
    Carries s r.2.1 ∧ r.2.1.rt.received = s.rt.received ∧
      (r.1 = .next → r.2.2.length ≤ rest.length) ∧
      (Joined s (c :: rest) → r.1 = .next ∨ r.1 = .brk → Joined r.2.1 r.2.2) := by
  have hs' : Loopable s.awaiting.parser s.awaiting := ⟨hs.held, hs.tracked, hs.reader, hs.copies⟩
  have hok : s.awaiting.LoopOk :=
    ⟨hs.held, awaiting_responseDone s, hs.reader, hs.tracked.lens⟩
  obtain ⟨copied, htaken, hlen⟩ := socketByte_taken (E := E) hok c rest
  have hawait : Carries s s.awaiting := carries_of_eq rfl rfl
  have hcarries := hawait.trans (htaken.carries hs')
  have hjoined (hj : Joined s (c :: rest)) := htaken.joined hs' hj
  have hreceived : (s.awaiting.socketByte E c rest).2.1.rt.received = s.rt.received := by
    rw [htaken.frame]
    rfl
  dsimp only at hlen ⊢
  rw [socketByte_awaiting hs.tracked.lens]
  generalize s.awaiting.socketByte E c rest = r at hcarries hjoined hreceived hlen
  have hresume : Carries s (s.resume r.2.1) := hcarries.trans (carries_of_eq rfl rfl)
  rw [endRound]
  split
  · rw [atEnd]
    split
    · exact ⟨hresume.trans (carries_init _), hreceived, hlen, fun hj hexit =>
        Joined.init (t := s.resume r.2.1) (hjoined hj hexit)⟩
    · exact ⟨hresume, hreceived, hlen, hjoined⟩
  · exact ⟨hresume, hreceived, hlen, hjoined⟩

lemma socketLoop_carries (hs : Loopable s.parser s) (hrem : s.reader.mRemainingRead = none)
    {fuel : Nat} {d : List UInt8} (hfuel : d.length ≤ fuel) :
    let r := s.socketLoop E fuel d
    Carries s r.2.1 ∧ r.2.1.rt.received = s.rt.received ∧ (r.1 = .next → r.2.2 = []) ∧
      (Joined s d → r.1 = .next ∨ r.1 = .brk → Joined r.2.1 r.2.2) := by
  induction fuel generalizing s d with
  | zero =>
    obtain rfl : d = [] := List.length_eq_zero_iff.mp (by omega)
    exact ⟨carries_of_eq rfl rfl, rfl, fun _ => rfl, fun hj _ => hj⟩
  | succ fuel ih =>
    cases d with
    | nil => exact ⟨carries_of_eq rfl rfl, rfl, fun _ => rfl, fun hj _ => hj⟩
    | cons c rest =>
      have hends := (socketByte_ends (E := E) hs hrem c rest).1
      obtain ⟨hcarries, hreceived, hlen, hjoined⟩ := socketByte_carries (E := E) hs c rest
      simp only [socketLoop]
      cases hr : s.socketByte E c rest with
      | mk exit r =>
        obtain ⟨s₁, rest₁⟩ := r
        rw [hr] at hends hcarries hreceived hlen hjoined
        dsimp only at hends hcarries hreceived hlen hjoined
        cases exit with
        | next =>
          have hfuel₁ : rest₁.length ≤ fuel := by
            have hle := hlen rfl
            simp only [List.length_cons] at hfuel
            omega
          obtain ⟨hcarries', hreceived', hnil, hjoined'⟩ := ih hends.1 hends.2 hfuel₁
          exact ⟨hcarries.trans hcarries', hreceived'.trans hreceived, hnil,
            fun hj => hjoined' (hjoined hj (.inl rfl))⟩
        | brk => exact ⟨hcarries, hreceived, by simp, hjoined⟩
        | err => exact ⟨hcarries, hreceived, by simp, hjoined⟩
        | done => exact ⟨hcarries, hreceived, by simp, hjoined⟩
        | undef => exact ⟨hcarries, hreceived, by simp, hjoined⟩

/-- As long as the connection is open, the bytes taken and those kept back are the received ones. -/
def Linked (s : LowHTTPDirect) : Prop :=
  s.mClosed = false → s.rt.undefined = false → Joined s (s.reader.mRemainingRead.getD [])

lemma carries_runLoop (hs : Loopable s.parser s) (hrem : s.reader.mRemainingRead = none)
    (d : List UInt8) (inLoop : Bool) :
    Carries s (continued (s.runLoop E d inLoop)) ∧
      (Joined s d → Linked (continued (s.runLoop E d inLoop))) := by
  obtain ⟨hends, -⟩ := socketLoop_ends (E := E) hs hrem d d.length
  obtain ⟨hcarries, hreceived, hnil, hjoined⟩ :=
    socketLoop_carries (E := E) hs hrem (le_refl d.length)
  unfold runLoop
  dsimp only at hends hcarries hreceived hnil hjoined ⊢
  generalize s.socketLoop E d.length d = r at hends hcarries hreceived hnil hjoined ⊢
  obtain ⟨exit, t, rest⟩ := r
  dsimp only at hends hcarries hreceived hnil hjoined ⊢
  cases exit with
  | next =>
    obtain ⟨hl, hrem'⟩ := hends
    rw [loopExit, loopDone_eq, continued, if_pos (by simp [hrem'])]
    refine ⟨hcarries.trans (carries_of_eq rfl rfl), fun hj _ _ => ?_⟩
    have hj' := hjoined hj (.inl rfl)
    rw [hnil rfl] at hj'
    change Joined _ (t.reader.mRemainingRead.getD [])
    rw [hrem']
    exact hj'
  | brk =>
    obtain ⟨e, c, tl, hcons, hl, hbody, herase, hmarked, hrem'⟩ := hends
    rw [loopExit, loopDone_eq, continued, if_neg (by simp [hrem'])]
    refine ⟨hcarries.trans (carries_of_eq rfl rfl), fun hj _ _ => ?_⟩
    change Joined _ (t.reader.mRemainingRead.getD [])
    rw [hrem']
    exact hjoined hj (.inr rfl)
  | err => exact ⟨hcarries.trans (carries_of_eq rfl rfl), fun _ hc => by cases hc⟩
  | done => exact ⟨hcarries.trans (carries_of_eq rfl rfl), fun _ hc => by cases hc⟩
  | undef => exact ⟨hcarries.trans (carries_of_eq rfl rfl), fun _ _ hu => by cases hu⟩

/-! ### The steps -/

lemma carries_of_still (hs : Still s t) (hq : Quiet s t) :
    Carries s t ∧ (Linked s → Linked t) := by
  refine ⟨carries_of_eq hs.parser.history hq.handed, fun hl hc hu => ?_⟩
  have hclosed : s.mClosed = false := by
    by_contra hn
    simp [hs.closed (by simpa using hn)] at hc
  have hundef : s.rt.undefined = false := by
    by_contra hn
    simp [hs.undefined (by simpa using hn)] at hu
  rw [hs.remaining]
  exact (hl hclosed hundef).congr hs.parser.history hq.received

lemma carries_written (hw : Written s t) (hq : Quiet s t) :
    Carries s t ∧ (Linked s → Linked t) := by
  cases hw with
  | aside ha => exact carries_of_still ha.still hq
  | @init v t ha hserver hphase hi =>
    have hhistory : t.parser.history = s.init.parser.history := by
      rw [hi.parser]
      exact congrArg (fun p => p.init.history) ha.parser
    refine ⟨(carries_init s).trans (carries_of_eq hhistory hq.handed), fun hl hc hu => ?_⟩
    have hclosed : s.mClosed = false := by
      rw [← ha.closed]
      exact hi.closed.symm.trans hc
    have hundef : s.rt.undefined = false := by
      by_contra hn
      simp [hi.still.undefined (ha.still.undefined (by simpa using hn))] at hu
    have hrem : t.reader.mRemainingRead = s.reader.mRemainingRead :=
      hi.remainingRead.trans ha.remainingRead
    rw [hrem]
    exact (hl hclosed hundef).init.congr hhistory hq.received

lemma carries_readRemaining (h : Stage s) (hund : s.rt.undefined = false) {len : Nat}
    (hlen : len < 2 ^ 31) (hdata : s.reader.mReadData = none) :
    Carries s ((s.takeBuffer len).lock.readRemaining E) ∧
      (Linked s → Linked ((s.takeBuffer len).lock.readRemaining E)) := by
  have hreader : (s.takeBuffer len).reader.Ok := by
    intro buf hbuf
    cases hbuf
    have hlen' : (len : Int) < 2 ^ 31 := by exact_mod_cast hlen
    exact ⟨rfl, Int.natCast_nonneg len, hlen'⟩
  have hhanded : (s.takeBuffer len).handed = s.handed := by
    rw [handed, handed, hdata]
    rfl
  by_cases hkept : s.reader.mRemainingRead = none ∨ s.mClosed
  · rw [readRemaining_kept (s := s.takeBuffer len) hkept]
    refine carries_of_still ?_ ⟨hhanded, rfl⟩
    exact ⟨.refl _, rfl, fun _ => hreader, rfl, rfl, id, id, id⟩
  · obtain ⟨hrem, hc⟩ := not_or.mp hkept
    have hc : s.mClosed = false := by simpa using hc
    cases h with
    | fed h hnone => exact absurd hnone hrem
    | stopped hstop hok h => simp [hc, hund] at hstop
    | kept e c rest h hbody herase hmarked hcons hread =>
      have heq : (s.takeBuffer len).lock.readRemaining E =
          continued ((s.takeBuffer len).reread.runLoop E (c :: rest) true) :=
        readRemaining_loop (s := s.takeBuffer len) hcons hc
      rw [heq, runLoop_kept (s := (s.takeBuffer len).reread) hbody hmarked herase]
      obtain ⟨hcarries, hlinked⟩ := carries_runLoop (E := E)
        (s := { (s.takeBuffer len).reread with parser.mEraseNextN := e })
        ⟨rfl, h.tracked, hreader, h.copies⟩ rfl (c :: rest) true
      have hstart : Carries s { (s.takeBuffer len).reread with parser.mEraseNextN := e } :=
        carries_of_eq rfl hhanded
      refine ⟨hstart.trans hcarries, fun hl => hlinked ?_⟩
      have hj := hl hc hund
      rw [hcons] at hj
      exact hj.congr rfl rfl

/-- The end of the stream, and what comes when the connection is closed. -/
lemma handed_onEventsRead {input : SocketInput}
    (hstop : ∀ d, input = .data d → d = [] ∨ s.mClosed) :
    (s.onEventsRead E input).handed = s.handed := by
  have hdata (t : LowHTTPDirect) (hc : t.mClosed = s.mClosed) :
      (SocketData E t input false).2.handed = t.handed := by
    cases input with
    | error errno =>
      rw [SocketData]
      dsimp only
      split
      · rfl
      · rfl
    | data d =>
      cases d with
      | nil => rfl
      | cons c d =>
        have hclosed : t.mClosed = true := hc.trans ((hstop _ rfl).resolve_left (by simp))
        have heq : SocketData E t (.data (c :: d)) false =
            closeDone { t with setCallback := false } := if_pos hclosed
        rw [heq]
        rfl
  have hagain (t : LowHTTPDirect) (hc : t.mClosed = s.mClosed) (ht : t.handed = s.handed) :
      (continued (SocketData E t input false)).handed = s.handed := by
    rw [continued]
    split
    · exact (hdata t hc).trans ht
    · exact (hdata t hc).trans ht
  by_cases hopen : s.mSocket ∧ s.rt.mDirectReadEnabled ∧ !s.rt.closed
  · rw [onEventsRead]
    rw [if_pos hopen]
    cases input with
    | error errno => exact hagain _ rfl rfl
    | data d =>
      cases d with
      | nil => exact hagain _ rfl rfl
      | cons c d => exact hagain _ rfl rfl
  · have heq : s.onEventsRead E input = s := if_neg hopen
    rw [heq]

/-- An event of the socket with which nothing is parsed. -/
lemma carries_received {input : SocketInput} (hr : Received E s input t)
    (hl : ¬∃ t c d, s.looped (.socketRead input) = some (t, c :: d))
    (hh : (∀ d, input = .data d → d = [] ∨ s.mClosed) → t.handed = s.handed) :
    Carries s t ∧ (Linked s → Linked t) := by
  cases hr with
  | ignored => exact ⟨carries_of_eq rfl rfl, id⟩
  | closed hdata he hr ha =>
    refine ⟨carries_of_eq (by rw [ha.parser]; rfl) (hh hdata), fun _ hc => ?_⟩
    rw [ha.closed] at hc
    cases hc
  | @data t d hne hc hl' =>
    obtain ⟨c, d, rfl⟩ := List.exists_cons_of_ne_nil hne
    exact absurd ⟨t, c, d, hl'⟩ hl

/-- A step hands over what the body grows by, and loses none of the received bytes. -/
lemma carries_step (h : Stage s) (i : Input) :
    Carries s (step E s i) ∧ (Linked s → Linked (step E s i)) := by
  by_cases halive : s.rt.deleted ∨ s.rt.undefined
  · have heq : LowHTTPDirect.step E s i = s := if_pos halive
    rw [heq]
    exact ⟨carries_of_eq rfl rfl, id⟩
  simp only [not_or, Bool.not_eq_true] at halive
  obtain ⟨hdel, hund⟩ := halive
  cases i with
  | read len =>
    rw [step_alive hdel hund]
    dsimp only
    rcases Read_cases (E := E) s len with ⟨hnot, ha⟩ | ⟨hreq, hdata, hsock, ho⟩
    · refine carries_of_still ha.still ?_
      have heq : s.Read E len = s.emit (.readError .nextTick (.again "read")) := if_pos hnot
      rw [heq]
      exact quiet_of_emit rfl rfl rfl rfl
    · obtain ⟨hcarries, hlinked⟩ := carries_readRemaining (E := E) h hund len.isLt hdata
      have hstage := h.readRemaining (E := E) hund len.isLt
      rw [Read_eq hreq hdata hsock] at ho ⊢
      obtain ⟨hcarries', hlinked'⟩ := carries_of_still (still_outcome ho)
        (quiet_readOutcome hstage.reader)
      exact ⟨hcarries.trans hcarries', fun hl => hlinked' (hlinked hl)⟩
  | socketRead input =>
    rw [step_alive hdel hund]
    dsimp only
    by_cases hl : ∃ t c d, s.looped (.socketRead input) = some (t, c :: d)
    · obtain ⟨t, c, d, hl⟩ := hl
      obtain ⟨-, -, -, hc, ⟨len, hi, -⟩ | ⟨hi, hread, hclosed, ht⟩⟩ := looped_cases hl
      · cases hi
      · cases hi
        have heq : s.onEventsRead E (.data (c :: d)) = continued (t.runLoop E (c :: d) false) :=
          onEventsRead_loop hl
        rw [heq]
        cases h with
        | fed h hrem =>
          have hs : Loopable t.parser t := by
            rw [ht]
            exact ⟨h.held, h.tracked, h.reader, h.copies⟩
          obtain ⟨hcarries, hlinked⟩ := carries_runLoop (E := E) hs (by rw [ht]; exact hrem)
            (c :: d) false
          have hstart : Carries s t := carries_of_eq (by rw [ht]) (by rw [ht]; rfl)
          refine ⟨hstart.trans hcarries, fun hl => hlinked ?_⟩
          obtain ⟨htidy, front, hfront⟩ := hl hc hund
          rw [hrem, Option.getD_none, List.append_nil] at hfront
          rw [ht]
          refine ⟨htidy, front, ?_⟩
          dsimp only
          rw [hfront, List.append_assoc]
        | kept e b rest h hbody herase hmarked hrem hoff => simp [hread] at hoff
        | stopped hstop hok h => simp [hc, hund] at hstop
    · exact carries_received (onEventsRead_received hdel hund input) hl handed_onEventsRead
  | onLoop =>
    rw [step_alive hdel hund]
    exact carries_of_still (still_looped (OnLoop_looped s)) (quiet_OnLoop (h.reader hund))
  | setRequestCallID => exact carries_written (step_written s trivial) (quiet_step trivial)
  | writeHeaders txt len isChunked results =>
    exact carries_written (step_written s trivial) (quiet_step trivial)
  | write data results => exact carries_written (step_written s trivial) (quiet_step trivial)
  | detach => exact carries_written (step_written s trivial) (quiet_step trivial)
  | socketWrite results => exact carries_written (step_written s trivial) (quiet_step trivial)

/-- Since `s` the reader has got, or has waiting in its buffer, the body that the framing finds in the
bytes taken, and behind these come the bytes that are kept back. -/
structure BodyDelivered (s t : LowHTTPDirect) : Prop where
  handed : t.handed = s.handed ++ t.parser.history.body
  linked : t.Linked

lemma linked_start (isServer : Bool) (u : LowHTTPDirect) : Linked (start isServer u) :=
  fun _ _ => ⟨fun _ => rfl, [], rfl⟩

lemma carries_run (E : Env) (isServer : Bool) (u : LowHTTPDirect) (is js : List Input) :
    Carries ((machine E).run (start isServer u) is) ((machine E).run (start isServer u) (is ++ js)) ∧
      Linked ((machine E).run (start isServer u) (is ++ js)) := by
  have hs : Stage ((machine E).run (start isServer u) is) ∧
      Linked ((machine E).run (start isServer u) is) :=
    Machine.run_invariant_of_step (P := fun s => Stage s ∧ Linked s)
      (fun s i h => ⟨h.1.step i, (carries_step h.1 i).2 h.2⟩)
      ⟨stage_start isServer u, linked_start isServer u⟩ is
  generalize hstart : (machine E).run (start isServer u) is = s at hs
  rw [Machine.run_append, hstart]
  have ht : Stage ((machine E).run s js) ∧ Linked ((machine E).run s js) ∧
      Carries s ((machine E).run s js) := by
    refine Machine.run_invariant_of_step (P := fun t => Stage t ∧ Linked t ∧ Carries s t)
      (fun t i h => ?_) ⟨hs.1, hs.2, carries_of_eq rfl rfl⟩ js
    obtain ⟨hstage, hlinked, hcarries⟩ := h
    obtain ⟨hcarries', hlinked'⟩ := carries_step (E := E) hstage i
    exact ⟨hstage.step i, hlinked' hlinked, hcarries.trans hcarries'⟩
  exact ⟨ht.2.2, ht.2.1⟩

/-- A client that reads a response in two chunks, of which the reader's buffer holds four bytes. -/
def chunkedResponse : List Input :=
  [.setRequestCallID,
    .socketRead (.data (bytes "HTTP/1.1 200 OK\r\nTransfer-Encoding: chunked\r\n\r\n3\r\nab")),
    .onLoop, .read 4, .socketRead (.data (bytes "c\r\n2\r\nde\r\n")), .onLoop, .read 4]

/-- A response in a chunk with a size that no `int` holds. -/
def chunkTooLarge : List Input :=
  [.setRequestCallID,
    .socketRead (.data (bytes
      "HTTP/1.1 200 OK\r\nTransfer-Encoding: chunked\r\n\r\n100000005\r\nabcdef")),
    .onLoop, .read 10]

end LowHTTPDirect

end LowJs.HTTPDirect
