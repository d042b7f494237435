import LowJs.HTTPDirect.Tracking
import LowJs.HTTPDirect.MutexDiscipline

/-!
# The lengths of a body

As long as the announced numbers fit into an `int`, the lengths stay within what is announced, no
copy leaves its buffers, and a message that has announced a length is not read until the connection
closes.
-/

open LowJs.HTTPDirect.Parser

namespace LowJs.HTTPDirect

namespace Parser

variable {E : Env} {p p' : Parser}

/-- In the body of a message, a length that is known is not exceeded and counts the body so far; it
is unknown only where none has been announced. -/
structure Within (p : Parser) : Prop where
  bounds : p.mPhase = .body → 0 ≤ p.mContentLen →
    0 ≤ p.mDataLen ∧ p.mDataLen ≤ p.mContentLen
  counted : p.mPhase = .body → 0 ≤ p.mContentLen → p.mDataLen = p.history.body.length
  announced : p.mPhase = .body → p.mContentLen < 0 → p.history.framing = some .untilClose

lemma within_of_phase (h : p.mPhase ≠ .body) : p.Within :=
  ⟨fun hp => absurd hp h, fun hp => absurd hp h, fun hp => absurd hp h⟩

lemma Within.congr (h : p.Within) (hs : Steady p p') (hp : p'.mPhase = p.mPhase) : p'.Within := by
  refine ⟨?_, ?_, ?_⟩
  · rw [hp, hs.contentLen, hs.dataLen]
    exact h.bounds
  · rw [hp, hs.contentLen, hs.dataLen, hs.history]
    exact h.counted
  · rw [hp, hs.contentLen, hs.history]
    exact h.announced

lemma Tracks.within (h : Tracks p) : p.Within := by
  cases h with
  | head hsec ht hf htail hchunks hdl hlen => exact within_of_phase hsec.1
  | length n hf hc hcl hdl hskip hp =>
    rcases hp with ⟨hp, hlt⟩ | ⟨hp, -⟩
    · refine ⟨fun _ _ => ⟨by omega, by omega⟩, fun _ _ => ?_, fun _ hneg => by omega⟩
      have hle : p.history.tail.length ≤ n.toNat := by omega
      rw [History.body, hf]
      dsimp only [Framing.body]
      rw [List.take_of_length_le hle, hdl]
    · exact within_of_phase (by simp [hp])
  | untilClose hf hp hc hcl hlen hskip =>
    exact ⟨fun _ h0 => by omega, fun _ h0 => by omega, fun _ _ => hf⟩
  | size hf ht hp hc hd hcl hdl hbody hskip => exact within_of_phase (by simp [hp])
  | data hf ht hp hc hd hcl hdl hbody hskip =>
    refine ⟨fun _ _ => ⟨by omega, by omega⟩, fun _ _ => ?_, fun _ hneg => by omega⟩
    rw [hbody, History.body, hf]
    rfl
  | ended hf ht hp hd hskip =>
    rcases hp with hsec | hp
    · exact within_of_phase hsec.1
    · exact within_of_phase (by simp [hp])

lemma Tracked.congr (h : Tracked p) (hs : Steady p p') (hp : p'.mPhase = p.mPhase) :
    Tracked p' where
  lens := h.lens.congr hs.contentLen hs.dataLen hp hs.atTrailer hs.chunkedHeaderLine
  unframed := by
    rw [hs.atTrailer, hs.history]
    exact h.unframed
  tracks := by
    rw [hs.history]
    exact fun hfit => (h.tracks hfit).congr hs hp

/-- The lists of parameters are taken off without a change to the message. -/
lemma steady_takeParams (charLen : UInt8 → Int) (while_ : ParamDataType → Bool) (fuel : Nat) :
    Steady p (takeParams E charLen while_ fuel p).2 ∧
      (takeParams E charLen while_ fuel p).2.mPhase = p.mPhase := by
  induction fuel generalizing p with
  | zero => exact ⟨.refl p, rfl⟩
  | succ fuel ih =>
    unfold takeParams
    split
    · exact ⟨.refl p, rfl⟩
    · next b _ =>
      split
      · dsimp only
        split
        · exact ⟨⟨rfl, rfl, rfl, rfl, rfl, rfl, rfl⟩, rfl⟩
        · have h := @ih { p with
            mParamFirst := (p.heap b).next
            mParamLast := if (p.heap b).next = none then none else p.mParamLast }
          refine ⟨Steady.trans ?_ h.1, h.2⟩
          exact ⟨rfl, rfl, rfl, rfl, rfl, rfl, rfl⟩
      · exact ⟨.refl p, rfl⟩

end Parser

lemma Reader.Ok.congr {r r' : Reader} (h : r.Ok) (hdata : r'.mReadData = r.mReadData)
    (hpos : r'.mReadPos = r.mReadPos) (hlen : r'.mReadLen = r.mReadLen) : r'.Ok := by
  unfold Reader.Ok
  rw [hdata, hpos, hlen]
  exact h

lemma Mutex.Cycled.held {m m' : Mutex} (h : m.Cycled m') (hm : m.held = false) :
    m'.held = false := by
  rcases h with rfl | rfl
  · exact hm
  · rfl

namespace LowHTTPDirect

variable {E : Env} {s t : LowHTTPDirect}

/-- The lengths in a state, and the copies so far. -/
structure LengthsSound (s : LowHTTPDirect) : Prop where
  parser : s.parser.Within
  reader : s.reader.Ok
  copies : ∀ k ∈ s.rt.copies, k.Ok

/-- The byte loop can run, with the parser `p`. -/
structure Loopable (p : Parser) (s : LowHTTPDirect) : Prop where
  held : s.mMutex.held = false
  tracked : Tracked p
  reader : s.reader.Ok
  copies : p.history.Fits → ∀ k ∈ s.rt.copies, k.Ok

/-- Between two inputs the parser has taken all of its bytes; or it has met the byte `c` of the body,
which is kept back; or it has been stopped. -/
inductive Stage (s : LowHTTPDirect) : Prop
  | fed (h : Loopable s.parser s) (hrem : s.reader.mRemainingRead = none)
  | kept (e : Bool) (c : UInt8) (rest : List UInt8)
    (h : Loopable { s.parser with mEraseNextN := e } s) (hbody : s.parser.mPhase = .body)
    (herase : ¬(e ∧ c = LF)) (hmarked : s.parser.mEraseNextN = false)
    (hrem : s.reader.mRemainingRead = some (c :: rest)) (hread : s.rt.mDirectReadEnabled = false)
  | stopped (hstop : s.mClosed ∨ s.rt.undefined) (hreader : s.rt.undefined = false → s.reader.Ok)
    (h : s.parser.history.Fits → s.LengthsSound)

lemma Stage.sound (h : Stage s) (hfits : s.parser.history.Fits) : s.LengthsSound := by
  cases h with
  | fed h hrem => exact ⟨(h.tracked.tracks hfits).within, h.reader, h.copies hfits⟩
  | kept e c rest h hbody herase hmarked hrem hread =>
    have hw := (h.tracked.tracks hfits).within
    exact ⟨⟨hw.bounds, hw.counted, hw.announced⟩, h.reader, h.copies hfits⟩
  | stopped hstop hreader h => exact h hfits

lemma Stage.reader (h : Stage s) (hund : s.rt.undefined = false) : s.reader.Ok := by
  cases h with
  | fed h hrem => exact h.reader
  | kept e c rest h hbody herase hmarked hrem hread => exact h.reader
  | stopped hstop hreader h => exact hreader hund

/-- A step that leaves the message and the bytes alone. -/
structure Still (s t : LowHTTPDirect) : Prop where
  parser : Steady s.parser t.parser
  phase : t.parser.mPhase = s.parser.mPhase
  reader : s.reader.Ok → t.reader.Ok
  copies : t.rt.copies = s.rt.copies
  remaining : t.reader.mRemainingRead = s.reader.mRemainingRead
  read : s.rt.mDirectReadEnabled = false → t.rt.mDirectReadEnabled = false
  closed : s.mClosed = true → t.mClosed = true
  undefined : s.rt.undefined = true → t.rt.undefined = true

lemma Still.trans {u : LowHTTPDirect} (h : Still s t) (h' : Still t u) : Still s u where
  parser := h.parser.trans h'.parser
  phase := h'.phase.trans h.phase
  reader := fun hr => h'.reader (h.reader hr)
  copies := h'.copies.trans h.copies
  remaining := h'.remaining.trans h.remaining
  read := fun hr => h'.read (h.read hr)
  closed := fun hc => h'.closed (h.closed hc)
  undefined := fun hu => h'.undefined (h.undefined hu)

lemma Aside.still (h : Aside s t) : Still s t where
  parser := by
    rw [h.parser]
  phase := by rw [h.parser]
  reader := fun hr => hr.congr h.readData h.readPos h.readLen
  copies := h.copies
  remaining := h.remainingRead
  read := fun hr => h.directRead.trans hr
  closed := fun hc => h.closed.trans hc
  undefined := fun hu => by
    have hle := h.undefined
    rw [hu] at hle
    exact hle rfl

lemma Stage.still (h : Stage s) (hs : Still s t)
    (hm : s.mMutex.held = false → t.mMutex.held = false) : Stage t := by
  cases h with
  | fed h hrem =>
    refine .fed ⟨hm h.held, h.tracked.congr hs.parser hs.phase, hs.reader h.reader, ?_⟩
      (hs.remaining.trans hrem)
    rw [hs.parser.history, hs.copies]
    exact h.copies
  | kept e c rest h hbody herase hmarked hrem hread =>
    refine .kept e c rest ⟨hm h.held, h.tracked.congr ?_ hs.phase, hs.reader h.reader, ?_⟩
      (hs.phase.trans hbody) herase (hs.parser.eraseNextN.trans hmarked)
      (hs.remaining.trans hrem) (hs.read hread)
    · exact ⟨rfl, hs.parser.atTrailer, hs.parser.chunkedEncoding, hs.parser.contentLen,
        hs.parser.dataLen, hs.parser.chunkedHeaderLine, hs.parser.history⟩
    · have hc := h.copies
      dsimp only at hc ⊢
      rw [hs.parser.history, hs.copies]
      exact hc
  | stopped hstop hreader h =>
    refine .stopped (hstop.imp hs.closed hs.undefined) (fun hund => hs.reader (hreader ?_))
      fun hfits => ?_
    · by_contra hn
      simp [hs.undefined (by simpa using hn)] at hund
    rw [hs.parser.history] at hfits
    have hsound := h hfits
    refine ⟨hsound.parser.congr hs.parser hs.phase, hs.reader hsound.reader, ?_⟩
    rw [hs.copies]
    exact hsound.copies

/-! ### The byte loop -/

lemma socketByte_rest (s : LowHTTPDirect) (c : UInt8) (rest : List UInt8) :
    let r := s.socketByte E c rest
    r.1 = .err ∨ r.1 = .done → r.2.2 = rest := by
  unfold socketByte
  dsimp only
  split
  · exact fun _ => rfl
  · split
    · exact fun _ => rfl
    · unfold bodyBytes
      dsimp only
      split
      · simp
      · split
        · simp
        · split
          · simp
          · simp
    · split
      · exact fun _ => rfl
      · exact fun _ => rfl
    · exact fun _ => rfl

/-- How the byte loop ends. -/
def LoopEnds (exit : Exit) (t : LowHTTPDirect) (rest : List UInt8) : Prop :=
  match exit with
  | .next => Loopable t.parser t ∧ t.reader.mRemainingRead = none
  | .brk => ∃ e c tl, rest = c :: tl ∧ Loopable { t.parser with mEraseNextN := e } t ∧
      t.parser.mPhase = .body ∧ ¬(e ∧ c = LF) ∧ t.parser.mEraseNextN = false ∧
      t.reader.mRemainingRead = some rest
  | .undef => ¬t.parser.history.Fits
  | _ => t.reader.Ok ∧ (t.parser.history.Fits → t.LengthsSound)

/-- What an iteration does while the response is still to come. -/
lemma Taken.ends {c : UInt8} {rest copied : List UInt8} (hs : Loopable s.parser s)
    (hrem : s.reader.mRemainingRead = none) {exit : Exit} {rest' : List UInt8}
    (h : Taken E s (c :: rest) copied exit t rest')
    (hrest : exit = .err ∨ exit = .done → rest' = rest) : LoopEnds exit t rest' := by
  obtain ⟨ks, hks, hksok⟩ := h.copies
  have hfed := h.fed
  -- the copies are sound where the parser comes from one that has taken the bytes
  have hcopies {bs : List UInt8} {q : Parser} (hexit : exit ≠ .undef)
      (hp : Parses E s.mIsServer s.parser bs copied q) (hfits : q.history.Fits) :
      ∀ k ∈ t.rt.copies, k.Ok := by
    rw [hks]
    intro k hk
    rcases List.mem_append.mp hk with hk | hk
    · exact hs.copies ((hs.tracked.parses hp).2 hfits).1 k hk
    · exact hksok hexit k hk
  have hstop {bs : List UInt8} {b : UInt8} {q : Parser} (hdata : c :: rest = bs ++ b :: rest')
      (hr : rest' = rest) (hp : Parses E s.mIsServer s.parser bs copied q) :
      q = s.parser ∧ t.reader.Ok := by
    have hbs : bs = [] := by
      have hlen := congrArg List.length hdata
      rw [hr, List.length_append, List.length_cons, List.length_cons] at hlen
      exact List.length_eq_zero_iff.mp (by omega)
    subst hbs
    obtain ⟨hf, hb⟩ := hp
    cases hf
    refine ⟨rfl, hs.reader.congr ?_ ?_ ?_⟩
    · rw [h.readData, ← hb]
      simp
    · rw [h.readPos, ← hb]
      simp
    · rw [h.frame]
  cases exit with
  | next =>
    obtain ⟨hok, hrem', bs, hdata, hp⟩ := hfed
    exact ⟨⟨hok.held, (hs.tracked.parses hp).1, hok.reader, hcopies (by simp) hp⟩,
      hrem'.trans hrem⟩
  | brk =>
    obtain ⟨hok, hrem', -, bs, b, tl, q, hdata, hcons, hp, hbody, herase, hq⟩ := hfed
    have heq : { t.parser with mEraseNextN := q.mEraseNextN } = q := by rw [hq, marked]
    refine ⟨q.mEraseNextN, b, tl, hcons, ?_, by rw [hq]; exact hbody, herase, ?_, hrem'⟩
    · rw [heq]
      exact ⟨hok.held, (hs.tracked.parses hp).1, hok.reader, hcopies (by simp) hp⟩
    · rw [hq]
      simp [marked, hbody]
  | err =>
    obtain ⟨-, bs, b, q, hdata, hp, hfeed⟩ := hfed
    obtain ⟨hq, hreader⟩ := hstop hdata (hrest (.inl rfl)) hp
    obtain ⟨hfits, hphase⟩ := feed_err hfeed
    refine ⟨hreader, fun hfit => ⟨within_of_phase ?_, hreader, hcopies (by simp) hp (hfits hfit)⟩⟩
    rcases hphase with ⟨hsend, heq⟩ | ⟨hbody, -⟩
    · rw [heq]
      simp [marked, hsend]
    · exact hbody
  | done =>
    obtain ⟨-, bs, b, q, hdata, hp, hfeed⟩ := hfed
    obtain ⟨hq, hreader⟩ := hstop hdata (hrest (.inr rfl)) hp
    obtain ⟨hfits, hbody, -⟩ := feed_noMemory hfeed
    exact ⟨hreader, fun hfit =>
      ⟨within_of_phase hbody, hreader, hcopies (by simp) hp (hfits hfit)⟩⟩
  | undef =>
    obtain ⟨bs, b, tl, q, hdata, hcons, hp, hfeed, hq⟩ := hfed
    intro hfit
    rw [hq] at hfit
    exact ((hs.tracked.parses hp).1.tracks hfit).feed_ne_undef hfeed

/-- The response has nothing to do with the lengths. -/
lemma LoopEnds.resume {exit : Exit} {rest : List UInt8} (h : LoopEnds exit t rest) :
    LoopEnds exit (s.resume t) rest := by
  cases exit with
  | next => exact ⟨⟨h.1.held, h.1.tracked, h.1.reader, h.1.copies⟩, h.2⟩
  | brk =>
    obtain ⟨e, c, tl, hcons, hl, hend⟩ := h
    exact ⟨e, c, tl, hcons, ⟨hl.held, hl.tracked, hl.reader, hl.copies⟩, hend⟩
  | err => exact ⟨h.1, fun hfit => ⟨(h.2 hfit).parser, h.1, (h.2 hfit).copies⟩⟩
  | done => exact ⟨h.1, fun hfit => ⟨(h.2 hfit).parser, h.1, (h.2 hfit).copies⟩⟩
  | undef => exact h

lemma Loopable.init (h : Loopable t.parser t) : Loopable t.init.parser t.init where
  held := h.held
  tracked := Tracked.init t.parser
  reader := h.reader.congr rfl rfl rfl
  copies := fun hfit => h.copies (History.Fits.of_next hfit)

lemma socketByte_ends (hs : Loopable s.parser s) (hrem : s.reader.mRemainingRead = none) (c : UInt8)
    (rest : List UInt8) :
    let r := s.socketByte E c rest
    LoopEnds r.1 r.2.1 r.2.2 ∧ r.2.1.rt.mDirectReadEnabled = s.rt.mDirectReadEnabled := by
  have hs' : Loopable s.awaiting.parser s.awaiting := ⟨hs.held, hs.tracked, hs.reader, hs.copies⟩
  have hok : s.awaiting.LoopOk :=
    ⟨hs.held, awaiting_responseDone s, hs.reader, hs.tracked.lens⟩
  obtain ⟨copied, htaken, -⟩ := socketByte_taken (E := E) hok c rest
  have hends := Taken.ends hs' hrem htaken (socketByte_rest s.awaiting c rest)
  have hread := congrArg (fun t => t.rt.mDirectReadEnabled) htaken.frame
  dsimp only at hread ⊢
  rw [socketByte_awaiting hs.tracked.lens]
  generalize s.awaiting.socketByte E c rest = r at hends hread
  have hresume : LoopEnds r.1 (s.resume r.2.1) r.2.2 := hends.resume
  unfold endRound
  split
  · next hend =>
    unfold atEnd
    split
    · rw [hend.1] at hresume ⊢
      exact ⟨⟨hresume.1.init, hresume.2⟩, hread⟩
    · exact ⟨hresume, hread⟩
  · exact ⟨hresume, hread⟩

lemma socketLoop_ends (hs : Loopable s.parser s) (hrem : s.reader.mRemainingRead = none)
    (d : List UInt8) (fuel : Nat) :
    let r := s.socketLoop E fuel d
    LoopEnds r.1 r.2.1 r.2.2 ∧ r.2.1.rt.mDirectReadEnabled = s.rt.mDirectReadEnabled := by
  refine socketLoop_rule
    (P := fun t _ => (Loopable t.parser t ∧ t.reader.mRemainingRead = none) ∧
      t.rt.mDirectReadEnabled = s.rt.mDirectReadEnabled)
    (Q := fun exit t rest => LoopEnds exit t rest ∧
      t.rt.mDirectReadEnabled = s.rt.mDirectReadEnabled)
    (fun t rest ht => ht) ?_ ⟨⟨hs, hrem⟩, rfl⟩ (met_true s fuel d)
  rintro t c rest ⟨⟨ht, htrem⟩, htread⟩ -
  obtain ⟨hends, hread⟩ := socketByte_ends (E := E) ht htrem c rest
  refine ⟨fun hnext => ?_, fun _ => ⟨hends, hread.trans htread⟩⟩
  rw [hnext] at hends
  exact ⟨hends, hread.trans htread⟩

/-- The byte loop, and what `SocketData` and its caller do behind it. -/
lemma stage_runLoop (hs : Loopable s.parser s) (hrem : s.reader.mRemainingRead = none)
    (hread : s.rt.mDirectReadEnabled = false) (d : List UInt8) (inLoop : Bool) :
    Stage (continued (s.runLoop E d inLoop)) := by
  obtain ⟨hends, hread'⟩ := socketLoop_ends (E := E) hs hrem d d.length
  unfold runLoop
  dsimp only at hends hread' ⊢
  generalize s.socketLoop E d.length d = r at hends hread' ⊢
  obtain ⟨exit, t, rest⟩ := r
  dsimp only at hends hread' ⊢
  rw [hread] at hread'
  cases exit with
  | next =>
    obtain ⟨hl, hrem'⟩ := hends
    rw [loopExit, loopDone_eq, continued, if_pos (by simp [hrem'])]
    exact .fed ⟨hl.held, hl.tracked, hl.reader.congr rfl rfl rfl, hl.copies⟩ hrem'
  | brk =>
    obtain ⟨e, c, tl, hcons, hl, hbody, herase, hmarked, hrem'⟩ := hends
    rw [loopExit, loopDone_eq, continued, if_neg (by simp [hrem'])]
    exact .kept e c tl ⟨hl.held, hl.tracked, hl.reader.congr rfl rfl rfl, hl.copies⟩ hbody herase
      hmarked (hrem'.trans (congrArg some hcons)) hread'
  | err =>
    exact .stopped (.inl rfl) (fun _ => hends.1) fun hfit =>
      ⟨(hends.2 hfit).parser, hends.1, (hends.2 hfit).copies⟩
  | done =>
    exact .stopped (.inl rfl) (fun _ => hends.1) fun hfit =>
      ⟨(hends.2 hfit).parser, hends.1, (hends.2 hfit).copies⟩
  | undef => exact .stopped (.inr rfl) (fun hund => by cases hund) fun hfit => absurd hfit hends

/-- The byte that has been kept back is met as if it had not been met before. -/
lemma runLoop_kept (hbody : s.parser.mPhase = .body) (hmarked : s.parser.mEraseNextN = false)
    {e : Bool} {c : UInt8} (herase : ¬(e ∧ c = LF)) (rest : List UInt8) (inLoop : Bool) :
    s.runLoop E (c :: rest) inLoop =
      runLoop E { s with parser.mEraseNextN := e } (c :: rest) inLoop := by
  have hbyte : s.socketByte E c rest =
      socketByte E { s with parser.mEraseNextN := e } c rest := by
    refine (socketByte_body (by simp [hmarked]) hbody rest).trans (Eq.symm ?_)
    exact socketByte_body (s := { s with parser.mEraseNextN := e }) herase hbody rest
  unfold runLoop
  simp only [List.length_cons, socketLoop, hbyte]

/-! ### The steps -/

lemma still_takeParams {p : Parser} (h : Steady s.parser p ∧ p.mPhase = s.parser.mPhase)
    {data : Option (List UInt8)} (hdata : data = none ∨ data = s.reader.mReadData)
    (isRequest : Bool) (n : Int) (ended : List (History × Bool)) :
    Still s { s with
      parser := p
      mIsRequest := isRequest
      reader.mReadData := data
      reader.mBytesRead := n
      rt.ended := ended } where
  parser := h.1
  phase := h.2
  reader := fun hr buf hbuf => by
    rcases hdata with rfl | rfl
    · cases hbuf
    · exact hr buf hbuf
  copies := rfl
  remaining := rfl
  read := id
  closed := id
  undefined := id

lemma still_reported (h : Reported E s t) : Still s t := by
  have htake := steady_takeParams (E := E) (p := s.parser) signedChar (fun _ => true)
    (s.parser.allocs + 2)
  cases h with
  | data hpos ha =>
    exact (still_takeParams ⟨.refl _, rfl⟩ (.inl rfl) s.mIsRequest 0 s.rt.ended).trans ha.still
  | undefined hpos hp ha hu =>
    rw [takeTrailers] at hp
    rw [hp] at htake
    exact (still_takeParams htake (.inl rfl) s.mIsRequest 0 s.rt.ended).trans ha.still
  | ended hpos hp ha =>
    rw [takeTrailers] at hp
    rw [hp] at htake
    exact (still_takeParams htake (.inl rfl) s.mIsRequest 0 _).trans ha.still

lemma still_clearErrors (s : LowHTTPDirect) : Still s s.clearErrors :=
  ⟨.refl _, rfl, id, rfl, rfl, id, id, id⟩

lemma still_outcome (h : Outcome E s t) : Still s t := by
  cases h with
  | undefined hu => exact (Aside.refl s).still
  | report hu hend => exact still_reported (reportRead_reported s _)
  | error hpos hc herr ha => exact (still_clearErrors s).trans ha.still
  | accepted ha => exact ha.still

lemma still_looped (h : Looped E s t) : Still s t := by
  have htake := steady_takeParams (E := E) (p := s.parser) (fun b => b.toNat) (· = .header)
    (s.parser.allocs + 2)
  cases h with
  | aside ha => exact ha.still
  | undefined hp ha hu =>
    rw [takeHeaders] at hp
    rw [hp] at htake
    exact (still_takeParams htake (.inr rfl) s.mIsRequest s.reader.mBytesRead s.rt.ended).trans
      ha.still
  | request hreq hfirst htype ht hp ha =>
    rw [takeHeaders] at hp
    rw [hp] at htake
    exact (still_takeParams htake (.inr rfl) true 0 s.rt.ended).trans ha.still
  | requestError hreq ha => exact (still_clearErrors s).trans ha.still
  | error hreq hid herr ha => exact (still_clearErrors s).trans ha.still
  | report hreq hid herr hend ha => exact ha.still.trans (still_reported (reportRead_reported _ _))

/-- Behind a response that is finished the next message begins. -/
lemma Stage.written (h : Stage s) (hw : Written s t)
    (hm : s.mMutex.held = false → t.mMutex.held = false) : Stage t := by
  cases hw with
  | aside ha => exact h.still ha.still hm
  | @init u t ha hserver hphase hi =>
    have hparser : t.parser = s.parser.init := by rw [hi.parser, ← ha.parser]; rfl
    have hreader (hr : s.reader.Ok) : t.reader.Ok :=
      hr.congr (hi.readData.trans ha.readData) (hi.readPos.trans ha.readPos)
        (hi.readLen.trans ha.readLen)
    have hcopies : t.rt.copies = s.rt.copies := hi.copies.trans ha.copies
    cases h with
    | fed h hrem =>
      refine .fed ⟨hm h.held, ?_, hreader h.reader, ?_⟩
        ((hi.remainingRead.trans ha.remainingRead).trans hrem)
      · rw [hparser]
        exact Tracked.init s.parser
      · rw [hparser, hcopies]
        exact fun hfit => h.copies (History.Fits.of_next hfit)
    | kept e c rest h hbody herase hmarked hrem hread => simp [hbody] at hphase
    | stopped hstop hok h =>
      have hundef (hu : s.rt.undefined = true) : t.rt.undefined = true :=
        hi.still.undefined (ha.still.undefined hu)
      refine .stopped (hstop.imp (fun hc => hi.closed.trans (ha.closed.trans hc)) hundef)
        (fun hund => hreader (hok ?_)) fun hfit => ?_
      · by_contra hn
        simp [hundef (by simpa using hn)] at hund
      rw [hparser] at hfit
      have hsound := h (History.Fits.of_next hfit)
      refine ⟨?_, hreader hsound.reader, ?_⟩
      · rw [hparser]
        exact within_of_phase (by simp [Parser.init])
      · rw [hcopies]
        exact hsound.copies

lemma Stage.received (h : Stage s) {input : SocketInput} (hr : Received E s input t)
    (hdata : ∀ t d, s.looped (.socketRead input) = some (t, d) → d = [])
    (hm : s.mMutex.held = false → t.mMutex.held = false) : Stage t := by
  cases hr with
  | ignored => exact h
  | @closed t input r hstop e he hr ha =>
    refine h.still (Still.trans ?_ ha.still) hm
    exact ⟨.refl _, rfl, id, rfl, rfl, fun _ => rfl, fun _ => rfl, id⟩
  | data hne hc hl => exact absurd (hdata _ _ hl) hne

/-- A call of `Read` with the bytes that have been kept back. -/
lemma Stage.readRemaining (h : Stage s) (halive : s.rt.undefined = false) {len : Nat}
    (hlen : len < 2 ^ 31) : Stage ((s.takeBuffer len).lock.readRemaining E) := by
  have hreader : (s.takeBuffer len).reader.Ok := by
    intro buf hbuf
    cases hbuf
    have hlen' : (len : Int) < 2 ^ 31 := by exact_mod_cast hlen
    exact ⟨rfl, Int.natCast_nonneg len, hlen'⟩
  have hstill : Still s (s.takeBuffer len).lock.unlock :=
    ⟨.refl _, rfl, fun _ => hreader, rfl, rfl, id, id, id⟩
  by_cases hkept : s.reader.mRemainingRead = none ∨ s.mClosed
  · rw [readRemaining_kept (s := s.takeBuffer len) hkept]
    exact h.still hstill fun _ => rfl
  · obtain ⟨hrem, hc⟩ := not_or.mp hkept
    have hc : s.mClosed = false := by simpa using hc
    cases h with
    | fed h hnone => exact absurd hnone hrem
    | stopped hstop hok h => simp [hc, halive] at hstop
    | kept e c rest h hbody herase hmarked hcons hread =>
      have heq : (s.takeBuffer len).lock.readRemaining E =
          continued ((s.takeBuffer len).reread.runLoop E (c :: rest) true) :=
        readRemaining_loop (s := s.takeBuffer len) hcons hc
      rw [heq, runLoop_kept (s := (s.takeBuffer len).reread) hbody hmarked herase]
      exact stage_runLoop (s := { (s.takeBuffer len).reread with parser.mEraseNextN := e })
        ⟨rfl, h.tracked, hreader, h.copies⟩ rfl hread _ _

lemma Stage.step (h : Stage s) (i : Input) : Stage (step E s i) := by
  by_cases halive : s.rt.deleted ∨ s.rt.undefined
  · have heq : LowHTTPDirect.step E s i = s := if_pos halive
    rwa [heq]
  simp only [not_or, Bool.not_eq_true] at halive
  obtain ⟨hdel, hund⟩ := halive
  have hheld (hl : ∀ t c d, s.looped i ≠ some (t, c :: d)) (hm : s.mMutex.held = false) :
      (LowHTTPDirect.step E s i).mMutex.held = false := (step_not_looped hl).held hm
  cases i with
  | read len =>
    by_cases hread : s.mIsRequest = true ∧ s.reader.mReadData = none ∧ s.mSocket = true
    · obtain ⟨hreq, hdata, hsock⟩ := hread
      have hrem := h.readRemaining (E := E) hund len.isLt
      rw [step_alive hdel hund]
      dsimp only
      rw [Read_eq hreq hdata hsock]
      exact hrem.still (still_outcome (readOutcome_outcome _))
        ((readOutcome_mMutex (E := E) (s.takeBuffer len).lock).1).held
    · have hm := hheld fun t c d hl => by
        obtain ⟨-, -, hsock, -, ⟨-, -, hreq, hdata, -⟩ | ⟨hi, -⟩⟩ := looped_cases hl
        · exact hread ⟨hreq, hdata, hsock⟩
        · cases hi
      rw [step_alive hdel hund] at hm ⊢
      rcases Read_cases (E := E) s len with ⟨-, ha⟩ | ⟨hreq, hdata, hsock, -⟩
      · exact h.still ha.still hm
      · exact absurd ⟨hreq, hdata, hsock⟩ hread
  | socketRead input =>
    by_cases hl : ∃ t c d, s.looped (.socketRead input) = some (t, c :: d)
    · obtain ⟨t, c, d, hl⟩ := hl
      obtain ⟨-, -, -, hc, ⟨len, hi, -⟩ | ⟨hi, hread, hclosed, ht⟩⟩ := looped_cases hl
      · cases hi
      · cases hi
        rw [step_alive hdel hund]
        have heq : s.onEventsRead E (.data (c :: d)) = continued (t.runLoop E (c :: d) false) :=
          onEventsRead_loop hl
        dsimp only
        rw [heq]
        cases h with
        | fed h hrem =>
          have hread' : t.rt.mDirectReadEnabled = false := by rw [ht]
          refine stage_runLoop ?_ (by rw [ht]; exact hrem) hread' _ _
          rw [ht]
          exact ⟨h.held, h.tracked, h.reader, h.copies⟩
        | kept e b rest h hbody herase hmarked hrem hoff => simp [hread] at hoff
        | stopped hstop hok h => simp [hc, hund] at hstop
    · have hm := hheld fun t c d hl' => hl ⟨t, c, d, hl'⟩
      rw [step_alive hdel hund] at hm ⊢
      refine h.received (onEventsRead_received hdel hund input) (fun t d hd => ?_) hm
      cases d with
      | nil => rfl
      | cons c d => exact absurd ⟨t, c, d, hd⟩ hl
  | onLoop =>
    have hm := hheld fun t c d hl => by simp [looped, hdel, hund] at hl
    rw [step_alive hdel hund] at hm ⊢
    exact h.still (still_looped (OnLoop_looped s)) hm
  | setRequestCallID =>
    exact h.written (step_written s trivial) (hheld fun t c d hl => by simp [looped, hdel, hund] at hl)
  | writeHeaders txt len isChunked results =>
    exact h.written (step_written s trivial) (hheld fun t c d hl => by simp [looped, hdel, hund] at hl)
  | write data results =>
    exact h.written (step_written s trivial) (hheld fun t c d hl => by simp [looped, hdel, hund] at hl)
  | detach =>
    exact h.written (step_written s trivial) (hheld fun t c d hl => by simp [looped, hdel, hund] at hl)
  | socketWrite results =>
    exact h.written (step_written s trivial) (hheld fun t c d hl => by simp [looped, hdel, hund] at hl)

lemma stage_start (isServer : Bool) (u : LowHTTPDirect) : Stage (start isServer u) := by
  refine .fed ⟨rfl, Tracked.init _, fun buf hbuf => ?_, fun _ k hk => ?_⟩ rfl
  · cases hbuf
  · cases hk

/-- In every state that a run reaches, the lengths are sound if all numbers that the messages have
announced so far fit into an `int`. -/
theorem lengths_sound (E : Env) (isServer : Bool) (u : LowHTTPDirect) (is : List Input)
    (hfits : ((machine E).run (start isServer u) is).parser.history.Fits) :
    ((machine E).run (start isServer u) is).LengthsSound := by
  have hstage : Stage ((machine E).run (start isServer u) is) :=
    Machine.run_invariant_of_step (fun s i h => h.step i) (stage_start isServer u) is
  exact hstage.sound hfits

/-- A request with five bytes of body, of which three have come, and a read. -/
def lengthFive : List Input :=
  [.setRequestCallID,
    .socketRead (.data (bytes "GET / HTTP/1.1\r\nContent-Length: 5\r\n\r\nabc")), .onLoop, .read 10]

theorem lengths_sound_five :
    ((machine deviceEnv).run (start true default) lengthFive).LengthsSound := by
  refine lengths_sound deviceEnv true default lengthFive ⟨fun m hm => ?_, fun f hf => ?_⟩
  · have hpast : ((machine deviceEnv).run (start true default) lengthFive).parser.history.past =
        [] := by decide +kernel
    rw [hpast] at hm
    cases hm
  · have hframing : ((machine deviceEnv).run (start true default)
        lengthFive).parser.history.framing = some (.length 5) := by decide +kernel
    cases hframing.symm.trans hf
    decide +kernel

/-- A response with a length that no `int` holds. -/
def lengthTooLarge : List Input :=
  [.socketRead (.data (bytes "HTTP/1.1 200 OK\r\nContent-Length: 4294967295\r\n\r\n"))]

/-- The response is read until the connection closes. -/
theorem lengths_unsound :
    ¬((machine deviceEnv).run (start false default) lengthTooLarge).LengthsSound := by
  intro h
  have hclose := h.parser.announced (by decide +kernel) (by decide +kernel)
  have hframing : ((machine deviceEnv).run (start false default)
      lengthTooLarge).parser.history.framing = some (.length 4294967295) := by decide +kernel
  cases hframing.symm.trans hclose

end LowHTTPDirect

end LowJs.HTTPDirect
