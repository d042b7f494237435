import LowJs.HTTPDirect.Feed

/-!
# The byte loop feeds the parser

As long as no response is finished, the byte loop of `SocketData` does to the parser what its
bytes do one by one, and the body bytes among them end up in the read buffer. Where the loop breaks
off, the bytes kept back are exactly those not yet fed.
-/

open LowJs.HTTPDirect.Parser

namespace LowJs.HTTPDirect

/-- The read buffer holds what has been copied, and has room for what it was made for. -/
def Reader.Ok (r : Reader) : Prop :=
  ∀ buf, r.mReadData = some buf →
    r.mReadPos = buf.length ∧ r.mReadPos ≤ r.mReadLen ∧ r.mReadLen < 2 ^ 31

/-- The size of a copy lies within the input and within the room. -/
def Copy.Ok (k : Copy) : Prop := 0 ≤ k.size ∧ k.size ≤ k.input ∧ k.size ≤ k.room

instance (k : Copy) : Decidable k.Ok := inferInstanceAs (Decidable (_ ∧ _))

namespace LowHTTPDirect

variable {E : Env} {s : LowHTTPDirect}

lemma unlock_lock (hm : s.mMutex.held = false) : s.lock.unlock = s := by
  obtain ⟨_, _, _, _, _, _, _, ⟨held, relocked⟩, _, _, _, _, _⟩ := s
  simp only at hm
  subst hm
  simp [lock, unlock, Mutex.lock, Mutex.unlock]

/-- No byte can be copied. -/
def NoRoom (s : LowHTTPDirect) : Prop :=
  s.reader.mReadData = none ∨ s.reader.mReadPos = s.reader.mReadLen

/-- The states in which the byte loop runs while no response is finished. -/
structure LoopOk (s : LowHTTPDirect) : Prop where
  held : s.mMutex.held = false
  done : s.responseDone = false
  reader : s.reader.Ok
  lens : s.parser.LenOk

/-- The end of a section asks for `OnLoop`. -/
lemma sectionEnded_eq (hm : s.mMutex.held = false) (hd : s.responseDone = false) :
    s.sectionEnded = { s with setCallback := true } := by
  have hd' : responseDone { s with setCallback := true } = false := hd
  have hd'' : responseDone (lock { s with setCallback := true }) = false := hd
  unfold sectionEnded
  dsimp only
  split
  · rw [hd'', if_neg (by simp)]
    exact unlock_lock hm
  · rfl

/-- What the outcome of a byte does to the connection. -/
lemma afterParam_eq (hm : s.mMutex.held = false) (hd : s.responseDone = false) {q : Parser}
    (hq : Steady s.parser q) (hqp : q.InSection) (b : Nat) (c : UInt8) :
    let r := Parser.paramByte E s.mIsServer { q with history := q.history.take [c] } b c
    match Fed.ofParam r with
    | .next p => ∃ cb, s.afterParam r = (.next, { s with parser := p, setCallback := cb }) ∧
        (cb = true ∨
          (cb = s.setCallback ∧ p.mAtTrailer = s.parser.mAtTrailer ∧ p.InSection))
    | .err p => s.afterParam r = (.err, { s with parser := p })
    | .noMemory _ => False
    | .undef => False := by
  intro r
  have hstep := paramByte_step E s.mIsServer { q with history := q.history.take [c] } b c
  change ParamStep E _ b c r.1 r.2 at hstep
  obtain ⟨e, p⟩ := r
  cases e with
  | next =>
    obtain ⟨ht, hp⟩ := hstep.next_section E rfl hqp
    exact ⟨s.setCallback, rfl, .inr ⟨rfl, ht.trans hq.atTrailer, hp⟩⟩
  | err => rfl
  | ended =>
    refine ⟨true, ?_, .inl rfl⟩
    simp only [afterParam, Prod.mk.injEq, true_and]
    exact sectionEnded_eq hm hd

/-- What a byte of the head or of the trailers does to the connection. -/
lemma paramBytes_eq (hm : s.mMutex.held = false) (hd : s.responseDone = false)
    (hsec : s.parser.InSection) (c : UInt8) :
    match s.parser.sectionByte E s.mIsServer c with
    | .next p => ∃ cb, s.paramBytes E c = (.next, { s with parser := p, setCallback := cb }) ∧
        (cb = true ∨
          (cb = s.setCallback ∧ p.mAtTrailer = s.parser.mAtTrailer ∧ p.InSection))
    | .err p => ∃ m, s.paramBytes E c = (.err, { s with parser := p, mMutex := m })
    | .noMemory p => s.paramBytes E c = (.done, { s with parser := p, rt.readErrno := ENOMEM })
    | .undef => False := by
  unfold Parser.sectionByte paramBytes
  cases ha : s.parser.allocParam E with
  | param b =>
    have h := afterParam_eq (E := E) hm hd (Steady.refl _) hsec b c
    dsimp only at h ⊢
    revert h
    cases Parser.paramByte E s.mIsServer { s.parser with history := s.parser.history.take [c] } b c
      with
    | mk e p =>
      cases e with
      | next => exact id
      | err => exact fun _ => ⟨s.mMutex, rfl⟩
      | ended => exact id
  | linked b q =>
    obtain ⟨hs, hp⟩ := allocParam_linked E _ ha
    have h := afterParam_eq (E := E) hm hd hs (by simpa [InSection, hp] using hsec) b c
    have hul : unlock { s.lock with parser := q } = { s with parser := q } := by
      have := unlock_lock (s := { s with parser := q }) hm
      exact this
    dsimp only at h ⊢
    rw [hul]
    revert h
    dsimp only
    cases Parser.paramByte E s.mIsServer { q with history := q.history.take [c] } b c with
    | mk e p =>
      cases e with
      | next => exact id
      | err => exact fun _ => ⟨s.mMutex, rfl⟩
      | ended => exact id
  | null q => rfl
  | err q => exact ⟨s.mMutex.lock, rfl⟩

/-- What the byte loop, or an iteration of it, has done to `data`: `copied` are the body bytes
among those it has taken, `rest` the bytes it has left. -/
structure Taken (E : Env) (s : LowHTTPDirect) (data copied : List UInt8) (exit : Exit)
    (s' : LowHTTPDirect) (rest : List UInt8) : Prop where
  frame : s' = { s with
    parser := s'.parser
    setCallback := s'.setCallback
    mMutex := s'.mMutex
    reader.mReadData := s'.reader.mReadData
    reader.mReadPos := s'.reader.mReadPos
    reader.mRemainingRead := s'.reader.mRemainingRead
    rt.copies := s'.rt.copies
    rt.readErrno := s'.rt.readErrno }
  readData : s'.reader.mReadData = s.reader.mReadData.map (· ++ copied)
  readPos : s'.reader.mReadPos = s.reader.mReadPos + copied.length
  noBuffer : s.reader.mReadData = none → copied = []
  callback : exit = .next ∨ exit = .brk → s'.setCallback = true ∨ (s'.setCallback = s.setCallback ∧ copied = [] ∧
    s'.parser.mAtTrailer = s.parser.mAtTrailer ∧
    (s'.parser.mPhase = .sendingResponse → s.parser.mPhase = .sendingResponse))
  copies : ∃ ks, s'.rt.copies = s.rt.copies ++ ks ∧ (exit ≠ .undef → ∀ k ∈ ks, k.Ok)
  fed :
    match exit with
    | .next => s'.LoopOk ∧ s'.reader.mRemainingRead = s.reader.mRemainingRead ∧
        ∃ bs, data = bs ++ rest ∧ Parses E s.mIsServer s.parser bs copied s'.parser
    | .brk => s'.LoopOk ∧ s'.reader.mRemainingRead = some rest ∧ s'.NoRoom ∧
        ∃ bs c tl q, data = bs ++ rest ∧ rest = c :: tl ∧
          Parses E s.mIsServer s.parser bs copied q ∧
          q.mPhase = .body ∧ ¬(q.mEraseNextN ∧ c = LF) ∧ s'.parser = q.marked c
    | .err => s'.reader.mRemainingRead = s.reader.mRemainingRead ∧
        ∃ bs c q, data = bs ++ c :: rest ∧ Parses E s.mIsServer s.parser bs copied q ∧
          feed E s.mIsServer q c = .err s'.parser
    | .done => s'.reader.mRemainingRead = s.reader.mRemainingRead ∧
        ∃ bs c q, data = bs ++ c :: rest ∧ Parses E s.mIsServer s.parser bs copied q ∧
          feed E s.mIsServer q c = .noMemory s'.parser
    | .undef => ∃ bs c tl q, data = bs ++ rest ∧ rest = c :: tl ∧
        Parses E s.mIsServer s.parser bs copied q ∧ feed E s.mIsServer q c = .undef ∧
        s'.parser = q.marked c

lemma Taken.refl (hok : s.LoopOk) : Taken E s [] [] .next s [] where
  frame := rfl
  readData := by simp
  readPos := by simp
  noBuffer := fun _ => rfl
  callback := fun _ => .inr ⟨rfl, rfl, rfl, id⟩
  copies := ⟨[], by simp, by simp⟩
  fed := ⟨hok, rfl, [], rfl, .nil _⟩

lemma Taken.trans {data copied rest : List UInt8} {s₁ : LowHTTPDirect}
    (h : Taken E s data copied .next s₁ rest) {copied' rest' : List UInt8} {exit : Exit}
    {s' : LowHTTPDirect} (h' : Taken E s₁ rest copied' exit s' rest') :
    Taken E s data (copied ++ copied') exit s' rest' := by
  obtain ⟨hok, hrem, bs, hdata, hparses⟩ := h.fed
  have hsrv : s₁.mIsServer = s.mIsServer := by rw [h.frame]
  refine ⟨?_, ?_, ?_, ?_, ?_, ?_, ?_⟩
  · rw [h'.frame, h.frame]
  · rw [h'.readData, h.readData, Option.map_map]
    congr 1
    funext l
    simp
  · rw [h'.readPos, h.readPos, List.length_append]
    omega
  · intro hnone
    have h1 : s₁.reader.mReadData = none := by rw [h.readData, hnone]; rfl
    rw [h.noBuffer hnone, h'.noBuffer h1]
    rfl
  · intro hexit
    rcases h'.callback hexit with hcb | ⟨hcb, hc, ht, hp⟩
    · exact .inl hcb
    · rcases h.callback (.inl rfl) with hcb₁ | ⟨hcb₁, hc₁, ht₁, hp₁⟩
      · exact .inl (hcb.trans hcb₁)
      · exact .inr ⟨hcb.trans hcb₁, by rw [hc, hc₁]; rfl, ht.trans ht₁, fun h => hp₁ (hp h)⟩
  · obtain ⟨ks, hks, hksok⟩ := h.copies
    obtain ⟨ks', hks', hksok'⟩ := h'.copies
    refine ⟨ks ++ ks', by rw [hks', hks, List.append_assoc], fun hexit k hk => ?_⟩
    rcases List.mem_append.mp hk with hk | hk
    · exact hksok (by simp) k hk
    · exact hksok' hexit k hk
  · have hf := h'.fed
    rw [hsrv] at hf
    cases exit with
    | next =>
      obtain ⟨hok', hrem', bs', hrest, hparses'⟩ := hf
      exact ⟨hok', hrem'.trans hrem, bs ++ bs', by rw [hdata, hrest, List.append_assoc],
        hparses.trans hparses'⟩
    | brk =>
      obtain ⟨hok', hrem', hroom, bs', c, tl, q, hrest, hcons, hparses', hq⟩ := hf
      exact ⟨hok', hrem', hroom, bs ++ bs', c, tl, q, by rw [hdata, hrest, List.append_assoc], hcons,
        hparses.trans hparses', hq⟩
    | err =>
      obtain ⟨hrem', bs', c, q, hrest, hparses', hfeed⟩ := hf
      exact ⟨hrem'.trans hrem, bs ++ bs', c, q, by rw [hdata, hrest, List.append_assoc],
        hparses.trans hparses', hfeed⟩
    | done =>
      obtain ⟨hrem', bs', c, q, hrest, hparses', hfeed⟩ := hf
      exact ⟨hrem'.trans hrem, bs ++ bs', c, q, by rw [hdata, hrest, List.append_assoc],
        hparses.trans hparses', hfeed⟩
    | undef =>
      obtain ⟨bs', c, tl, q, hrest, hcons, hparses', hfeed⟩ := hf
      exact ⟨bs ++ bs', c, tl, q, by rw [hdata, hrest, List.append_assoc], hcons,
        hparses.trans hparses', hfeed⟩

/-- The frame, with names for what may have changed. -/
lemma Taken.exists_frame {data copied rest : List UInt8} {exit : Exit} {s' : LowHTTPDirect}
    (h : Taken E s data copied exit s' rest) :
    ∃ p cb m rd pos rem cs errno, s' = { s with
      parser := p
      setCallback := cb
      mMutex := m
      reader.mReadData := rd
      reader.mReadPos := pos
      reader.mRemainingRead := rem
      rt.copies := cs
      rt.readErrno := errno } :=
  ⟨_, _, _, _, _, _, _, _, h.frame⟩

/-- An iteration that takes the byte `c`, which is no part of the body. -/
lemma Taken.of_feed {c : UInt8} {rest : List UInt8} (hpart : s.parser.bodyPart c = [])
    {p : Parser} (hfeed : feed E s.mIsServer s.parser c = .next p) (hok : s.LoopOk) {cb : Bool}
    (hcb : cb = true ∨ (cb = s.setCallback ∧ p.mAtTrailer = s.parser.mAtTrailer ∧
      (p.mPhase = .sendingResponse → s.parser.mPhase = .sendingResponse))) :
    Taken E s (c :: rest) [] .next { s with parser := p, setCallback := cb } rest where
  frame := rfl
  readData := by simp
  readPos := by simp
  noBuffer := fun _ => rfl
  callback := fun _ => by
    rcases hcb with hcb | ⟨hcb, ht, hp⟩
    · exact .inl hcb
    · exact .inr ⟨hcb, rfl, ht, hp⟩
  copies := ⟨[], by simp, by simp⟩
  fed := by
    refine ⟨⟨hok.held, hok.done, hok.reader, hok.lens.feed hfeed⟩, rfl, [c], rfl, ?_⟩
    exact hpart ▸ Parses.of_feed hfeed

lemma Taken.of_err {c : UInt8} {rest : List UInt8} {p : Parser} (hfeed : feed E s.mIsServer s.parser c = .err p) (m : Mutex) :
    Taken E s (c :: rest) [] .err { s with parser := p, mMutex := m } rest where
  frame := rfl
  readData := by simp
  readPos := by simp
  noBuffer := fun _ => rfl
  callback := by simp
  copies := ⟨[], by simp, by simp⟩
  fed := ⟨rfl, [], c, s.parser, rfl, .nil _, hfeed⟩

/-- A byte of the head or of the trailers. -/
lemma Taken.of_paramBytes {p : Parser} (hok : s.LoopOk) (hsec : p.InSection)
    (ht : p.mAtTrailer = s.parser.mAtTrailer) {c : UInt8} (rest : List UInt8)
    (hpart : s.parser.bodyPart c = [])
    (hfeed : feed E s.mIsServer s.parser c = p.sectionByte E s.mIsServer c) :
    let r := paramBytes E { s with parser := p } c
    Taken E s (c :: rest) [] r.1 r.2 rest ∧ r.1 ≠ .brk := by
  intro r
  have heq := paramBytes_eq (E := E) (s := { s with parser := p }) hok.held hok.done hsec c
  dsimp only at heq
  rw [← hfeed] at heq
  cases hf : feed E s.mIsServer s.parser c with
  | next q =>
    rw [hf] at heq
    obtain ⟨cb, hr, hcb⟩ := heq
    have hr : r = (.next, { s with parser := q, setCallback := cb }) := hr
    rw [hr]
    refine ⟨Taken.of_feed hpart hf hok ?_, by simp⟩
    rcases hcb with hcb | ⟨hcb, hqt, hq⟩
    · exact .inl hcb
    · exact .inr ⟨hcb, hqt.trans ht, fun h => absurd h hq.2.2⟩
  | err q =>
    rw [hf] at heq
    obtain ⟨m, hr⟩ := heq
    have hr : r = (.err, { s with parser := q, mMutex := m }) := hr
    rw [hr]
    exact ⟨Taken.of_err hf m, by simp⟩
  | noMemory q =>
    rw [hf] at heq
    have hr : r = (.done, { s with parser := q, rt.readErrno := ENOMEM }) := heq
    rw [hr]
    exact ⟨⟨rfl, by simp, by simp, fun _ => rfl, by simp, ⟨[], by simp, by simp⟩,
      ⟨rfl, [], c, s.parser, rfl, .nil _, hf⟩⟩, by simp⟩
  | undef =>
    rw [hf] at heq
    exact heq.elim

lemma socketByte_section {c : UInt8} (h : ¬(s.parser.mEraseNextN ∧ c = LF))
    (hsec : s.parser.InSection) (rest : List UInt8) :
    s.socketByte E c rest =
      let r := paramBytes E { s with parser := s.parser.marked c } c
      (r.1, r.2, rest) := by
  obtain ⟨hbody, hchunk, hsend⟩ := hsec
  refine (if_neg h).trans ?_
  dsimp only
  split
  · next hp => exact absurd hp hsend
  · next hp => exact absurd hp hbody
  · next hp => exact absurd hp hchunk
  · rfl

lemma socketByte_chunkHeader {c : UInt8} (h : ¬(s.parser.mEraseNextN ∧ c = LF))
    (hp : s.parser.mPhase = .chunkHeader) (rest : List UInt8) :
    s.socketByte E c rest =
      match chunkByte { s.parser.marked c with history := s.parser.history.take [c] } c with
      | none => (.err, { s with
          parser := { s.parser.marked c with history := s.parser.history.take [c] } }, rest)
      | some p => (.next, { s with parser := p }, rest) := by
  refine (if_neg h).trans ?_
  dsimp only
  split
  · next hp' => exact absurd (hp.symm.trans hp') (by simp)
  · next hp' => exact absurd (hp.symm.trans hp') (by simp)
  · rfl
  · next hp' => exact absurd hp hp'

lemma socketByte_sendingResponse {c : UInt8} (h : ¬(s.parser.mEraseNextN ∧ c = LF))
    (hp : s.parser.mPhase = .sendingResponse) (rest : List UInt8) :
    s.socketByte E c rest = (.err, { s with parser := s.parser.marked c }, rest) := by
  refine (if_neg h).trans ?_
  dsimp only
  rw [hp]
  simp [marked, hp]

lemma socketByte_body {c : UInt8} (h : ¬(s.parser.mEraseNextN ∧ c = LF))
    (hp : s.parser.mPhase = .body) (rest : List UInt8) :
    s.socketByte E c rest = bodyBytes { s with parser := s.parser.marked c } (c :: rest) := by
  refine (if_neg h).trans ?_
  dsimp only
  rw [hp]
  simp [marked, hp]

/-- An iteration on a byte that is not part of the body. -/
lemma socketByte_taken_section (hok : s.LoopOk) {c : UInt8} (rest : List UInt8)
    (hbody : ¬(s.parser.mPhase = .body ∧ ¬(s.parser.mEraseNextN ∧ c = LF))) :
    let r := s.socketByte E c rest
    Taken E s (c :: rest) [] r.1 r.2.1 r.2.2 ∧ r.2.2 = rest ∧ r.1 ≠ .brk := by
  have hpart : s.parser.bodyPart c = [] := if_neg hbody
  by_cases herase : s.parser.mEraseNextN ∧ c = LF
  · rw [socketByte, if_pos herase]
    exact ⟨Taken.of_feed hpart (feed_skip herase) hok (.inr ⟨rfl, rfl, id⟩), rfl, by simp⟩
  · have hnb : s.parser.mPhase ≠ .body := fun h => hbody ⟨h, herase⟩
    by_cases hsend : s.parser.mPhase = .sendingResponse
    · rw [socketByte_sendingResponse herase hsend]
      exact ⟨Taken.of_err (feed_sendingResponse herase hsend) s.mMutex, rfl, by simp⟩
    by_cases hchunk : s.parser.mPhase = .chunkHeader
    · rw [socketByte_chunkHeader herase hchunk]
      have hfeed := feed_chunkHeader (E := E) (S := s.mIsServer) herase hchunk
      have hstep := chunkByte_step { s.parser.marked c with history := s.parser.history.take [c] }
        c (hok.lens.chunk hchunk).2
      cases hc : chunkByte { s.parser.marked c with history := s.parser.history.take [c] } c with
      | none =>
        rw [hc] at hfeed
        exact ⟨Taken.of_err hfeed s.mMutex, rfl, by simp⟩
      | some p =>
        rw [hc] at hfeed hstep
        obtain ⟨ht, hp⟩ := hstep.frame hsend
        exact ⟨Taken.of_feed hpart hfeed hok (.inr ⟨rfl, ht, fun h => absurd h hp⟩), rfl, by simp⟩
    · have hsec : s.parser.InSection := ⟨hnb, hchunk, hsend⟩
      rw [socketByte_section herase hsec]
      obtain ⟨htaken, hbrk⟩ := Taken.of_paramBytes (p := s.parser.marked c) hok hsec rfl rest hpart
        (feed_section herase hsec)
      exact ⟨htaken, rfl, hbrk⟩

/-! ### The body -/

lemma feeds_marked {p : Parser} {S : Bool} {c : UInt8} (h : ¬(p.mEraseNextN ∧ c = LF))
    (hp : p.mPhase = .body) (cs : List UInt8) :
    feeds E S p (c :: cs) = feeds E S (p.marked c) (c :: cs) ∧
      bodyOf E S p (c :: cs) = bodyOf E S (p.marked c) (c :: cs) := by
  have hm : (p.marked c).mEraseNextN = false := by simp [marked, hp]
  have hfeed : feed E S p c = feed E S (p.marked c) c := by
    have h' : ¬((p.marked c).mEraseNextN ∧ c = LF) := by simp [hm]
    refine (if_neg h).trans (Eq.trans ?_ (if_neg h').symm)
    rfl
  have hpart : p.bodyPart c = (p.marked c).bodyPart c := by
    simp only [bodyPart, hm, Bool.false_eq_true, false_and, not_false_eq_true, and_true]
    simp only [hp, h, not_false_eq_true, and_self, if_true, marked]
  simp only [feeds, bodyOf, hfeed, hpart, and_self]

/-- Where there is room and something is left to read, a positive number of bytes is copied, no
more than there are, than there is room for, and than are announced. -/
lemma copySize_spec (hok : s.LoopOk) {buf : List UInt8}
    (hbuf : s.reader.mReadData = some buf) (hroom : s.reader.mReadPos ≠ s.reader.mReadLen)
    (hleft : 0 ≤ s.parser.mContentLen → s.parser.mDataLen < s.parser.mContentLen) {len : Nat}
    (hlen : 0 < len) :
    ∃ n : Nat, s.copySize len = n ∧ 0 < n ∧ n ≤ len ∧
      (n : Int) ≤ s.reader.mReadLen - s.reader.mReadPos ∧
      (0 ≤ s.parser.mContentLen → s.parser.mDataLen + n ≤ s.parser.mContentLen) := by
  obtain ⟨hpos, hle, -⟩ := hok.reader buf hbuf
  have hcl := hok.lens.contentLen
  unfold IsInt32 at hcl
  have hdl := hok.lens.dataLen
  have hint : 0 ≤ s.parser.mContentLen →
      int32 (s.parser.mContentLen - s.parser.mDataLen) =
        s.parser.mContentLen - s.parser.mDataLen := by
    intro h0
    have h1 := hdl (.inl h0)
    exact int32_eq ⟨by omega, by omega⟩
  refine ⟨(s.copySize len).toNat, ?_⟩
  unfold copySize
  dsimp only
  by_cases h0 : 0 ≤ s.parser.mContentLen
  · rw [hint h0]
    have h1 := hleft h0
    split <;> split <;> omega
  · have hnot (a : Prop) : ¬(s.parser.mContentLen ≥ 0 ∧ a) := fun h => h0 h.1
    rw [if_neg (hnot _)]
    split <;> omega

/-- Where more has been read than is announced, the size is negative. -/
lemma copySize_neg (hok : s.LoopOk) (hbody : s.parser.mPhase = .body)
    (h0 : 0 ≤ s.parser.mContentLen) (hleft : s.parser.mContentLen ≤ s.parser.mDataLen) (len : Nat) :
    s.copySize len < 0 := by
  have hcl := hok.lens.contentLen
  unfold IsInt32 at hcl
  have hdl := hok.lens.dataLen (.inl h0)
  have hne := hok.lens.body hbody h0
  have hint : int32 (s.parser.mContentLen - s.parser.mDataLen) =
      s.parser.mContentLen - s.parser.mDataLen := int32_eq ⟨by omega, by omega⟩
  unfold copySize
  dsimp only
  rw [hint]
  split <;> split <;> omega

/-- `bodyRead` only moves the parser on. -/
lemma bodyRead_eq (hd : s.responseDone = false) :
    s.bodyRead = { s with
      parser :=
        if 0 ≤ s.parser.mContentLen ∧ s.parser.mDataLen = s.parser.mContentLen then
          if s.parser.mChunkedEncoding then
            { s.parser with mPhase := .chunkHeader, mChunkedHeaderLine := [] }
          else { s.parser with mPhase := .sendingResponse }
        else s.parser } := by
  have hd' : responseDone { s with parser.mPhase := .sendingResponse } = false := hd
  unfold bodyRead
  by_cases h : 0 ≤ s.parser.mContentLen ∧ s.parser.mDataLen = s.parser.mContentLen
  · by_cases hc : s.parser.mChunkedEncoding
    · simp only [ge_iff_le, if_pos h, if_pos hc]
    · simp only [ge_iff_le, if_pos h, if_neg hc, hd', Bool.false_eq_true, if_false]
  · simp only [ge_iff_le, if_neg h]

/-- An iteration in the body, without room. -/
lemma bodyBytes_noRoom (hm : s.mMutex.held = false) (h : s.NoRoom) (data : List UInt8) :
    s.bodyBytes data = (.brk, { s with reader.mRemainingRead := some data }, data) := by
  have hul : unlock { s.lock with reader.mRemainingRead := some data } =
      { s with reader.mRemainingRead := some data } :=
    unlock_lock (s := { s with reader.mRemainingRead := some data }) hm
  have hr : s.lock.reader = s.reader := rfl
  unfold bodyBytes
  dsimp only
  rw [hul, hr]
  split
  · rfl
  · next buf hbuf =>
    rcases h with h | h
    · rw [h] at hbuf
      cases hbuf
    · rw [if_pos h]

/-- An iteration in the body that copies `n` bytes. -/
lemma bodyBytes_copy (hm : s.mMutex.held = false) (hd : s.responseDone = false)
    {buf : List UInt8} (hbuf : s.reader.mReadData = some buf) (hroom : s.reader.mReadPos ≠ s.reader.mReadLen)
    (hok : s.reader.Ok) {data : List UInt8} {n : Nat} (hsize : s.copySize data.length = n)
    (hn : n ≤ data.length) (hle : (n : Int) ≤ s.reader.mReadLen - s.reader.mReadPos) :
    s.bodyBytes data =
      (.next, { s with
          parser := s.parser.copied (data.take n)
          setCallback := true
          reader.mReadData := some (buf ++ data.take n)
          reader.mReadPos := s.reader.mReadPos + n
          rt.copies := s.rt.copies ++
            [⟨n, data.length, s.reader.mReadLen - s.reader.mReadPos⟩] },
        data.drop n) := by
  obtain ⟨hpos, hple, hlt⟩ := hok buf hbuf
  have htake : buf.take s.reader.mReadPos.toNat = buf := by
    rw [hpos]
    simp
  have hint : int32 (s.reader.mReadPos + n) = s.reader.mReadPos + n :=
    int32_eq ⟨by omega, by omega⟩
  have hlen : (data.take n).length = n := by simp [hn]
  have hmut : s.mMutex.lock.unlock = s.mMutex := congrArg (·.mMutex) (unlock_lock hm)
  have hsize' : s.lock.copySize data.length = n := hsize
  unfold bodyBytes
  dsimp only
  rw [show s.lock.reader = s.reader from rfl, hbuf]
  dsimp only
  rw [if_neg hroom, hsize', if_neg (by omega)]
  simp only [Int.toNat_natCast, htake, hint]
  rw [bodyRead_eq (by exact hd)]
  simp only [unlock, lock, hmut, copied, hlen]
  rfl

lemma LoopOk.marked (hok : s.LoopOk) (c : UInt8) :
    LoopOk { s with parser := s.parser.marked c } :=
  ⟨hok.held, hok.done, hok.reader, hok.lens.congr rfl rfl rfl rfl rfl⟩

/-- An iteration on the body. -/
lemma socketByte_taken_body (hok : s.LoopOk) {c : UInt8} (rest : List UInt8)
    (hbody : s.parser.mPhase = .body) (herase : ¬(s.parser.mEraseNextN ∧ c = LF)) :
    let r := s.socketByte E c rest
    ∃ copied, Taken E s (c :: rest) copied r.1 r.2.1 r.2.2 ∧
      (r.1 = .next → r.2.2.length ≤ rest.length) := by
  rw [socketByte_body herase hbody]
  have hm : (s.parser.marked c).mEraseNextN = false := by simp [marked, hbody]
  have hmok := hok.marked c
  have hmarked (more : List UInt8) := feeds_marked (E := E) (S := s.mIsServer) herase hbody more
  intro r
  by_cases hroom : s.NoRoom
  · have hr : r = _ := bodyBytes_noRoom (s := { s with parser := s.parser.marked c }) hok.held
      hroom (c :: rest)
    rw [hr]
    refine ⟨[], ⟨rfl, by simp, by simp, fun _ => rfl,
      fun _ => .inr ⟨rfl, rfl, rfl, id⟩, ⟨[], by simp, by simp⟩, ?_⟩, by simp⟩
    exact ⟨⟨hok.held, hok.done, hok.reader, hmok.lens⟩, rfl, hroom, [], c, rest, s.parser, rfl, rfl,
      .nil _, hbody, herase, rfl⟩
  · obtain ⟨hsome, hne⟩ := not_or.mp hroom
    obtain ⟨buf, hbuf⟩ := Option.ne_none_iff_exists'.mp hsome
    by_cases hleft : 0 ≤ s.parser.mContentLen → s.parser.mDataLen < s.parser.mContentLen
    · obtain ⟨n, hsize, hpos, hn, hle, hcl⟩ :=
        copySize_spec hmok hbuf hne hleft (List.length_pos_of_ne_nil (List.cons_ne_nil c rest))
      have hr : r = _ := bodyBytes_copy (s := { s with parser := s.parser.marked c }) hok.held
        hok.done hbuf hne hok.reader hsize hn hle
      have hlen : ((c :: rest).take n).length = n := List.length_take_of_le hn
      have htake : (c :: rest).take n ≠ [] := by
        rw [← List.length_pos_iff, hlen]
        exact hpos
      have hcl' : 0 ≤ (s.parser.marked c).mContentLen →
          (s.parser.marked c).mDataLen + ((c :: rest).take n).length ≤
            (s.parser.marked c).mContentLen := by
        rw [hlen]
        exact hcl
      obtain ⟨hfeeds, hbodyOf⟩ := feeds_copied (E := E) (S := s.mIsServer) hmok.lens hbody hm
        htake hcl'
      rw [hr]
      refine ⟨(c :: rest).take n, ⟨rfl, ?_, ?_, ?_, fun _ => .inl rfl,
        ⟨_, rfl, fun _ k hk => ?_⟩, ?_⟩, ?_⟩
      · simp [hbuf]
      · simp only [hlen]
      · intro hnone
        rw [hnone] at hbuf
        cases hbuf
      · obtain rfl := List.mem_singleton.mp hk
        exact ⟨Int.natCast_nonneg n, Int.ofNat_le.mpr hn, hle⟩
      · refine ⟨⟨hok.held, hok.done, ?_, hmok.lens.copied hbody hcl'⟩, rfl, (c :: rest).take n,
          (List.take_append_drop n _).symm, ?_⟩
        · obtain ⟨h1, h2, h3⟩ := hok.reader buf hbuf
          intro buf' hbuf'
          cases hbuf'
          refine ⟨?_, ?_, h3⟩
          · simp only [List.length_append, hlen, Nat.cast_add, h1]
          · change s.reader.mReadPos + n ≤ s.reader.mReadLen
            have hle : (n : Int) ≤ s.reader.mReadLen - s.reader.mReadPos := hle
            omega
        · obtain ⟨n, rfl⟩ := Nat.exists_eq_succ_of_ne_zero hpos.ne'
          rw [List.take_succ_cons] at hfeeds hbodyOf ⊢
          exact ⟨(hmarked _).1.trans hfeeds, (hmarked _).2.trans hbodyOf⟩
      · intro _
        simp only [List.length_drop, List.length_cons]
        omega
    · push Not at hleft
      obtain ⟨h0, hge⟩ := hleft
      have hneg : (copySize { s with parser := s.parser.marked c } (c :: rest).length) < 0 :=
        copySize_neg hmok hbody h0 hge _
      have hr : r = (.undef, { s with
          parser := s.parser.marked c
          mMutex := s.mMutex.lock
          rt.copies := s.rt.copies ++ [⟨copySize { s with parser := s.parser.marked c }
            (c :: rest).length, (c :: rest).length, s.reader.mReadLen - s.reader.mReadPos⟩] },
          c :: rest) := by
        change bodyBytes { s with parser := s.parser.marked c } (c :: rest) = _
        unfold bodyBytes
        dsimp only
        rw [show (lock { s with parser := s.parser.marked c }).reader = s.reader from rfl, hbuf]
        dsimp only
        rw [if_neg hne]
        exact if_pos hneg
      rw [hr]
      have hundef : feed E s.mIsServer s.parser c = .undef := by
        refine (if_neg herase).trans ?_
        dsimp only
        rw [hbody]
        exact if_pos ⟨h0, hge⟩
      exact ⟨[], ⟨rfl, by simp, by simp, fun _ => rfl, by simp, ⟨_, rfl, by simp⟩,
        ⟨[], c, rest, s.parser, rfl, rfl, .nil _, hundef, rfl⟩⟩, by simp⟩

lemma socketByte_taken (hok : s.LoopOk) (c : UInt8) (rest : List UInt8) :
    let r := s.socketByte E c rest
    ∃ copied, Taken E s (c :: rest) copied r.1 r.2.1 r.2.2 ∧
      (r.1 = .next → r.2.2.length ≤ rest.length) := by
  by_cases hbody : s.parser.mPhase = .body ∧ ¬(s.parser.mEraseNextN ∧ c = LF)
  · exact socketByte_taken_body hok rest hbody.1 hbody.2
  · obtain ⟨htaken, hrest, -⟩ := socketByte_taken_section (E := E) hok rest hbody
    exact ⟨[], htaken, fun _ => by rw [hrest]⟩

/-- The byte loop feeds the parser with what it takes. It ends without a break or an error only at
the end of its input. -/
theorem socketLoop_taken (hok : s.LoopOk) {fuel : Nat} {data : List UInt8}
    (hfuel : data.length ≤ fuel) :
    let r := s.socketLoop E fuel data
    ∃ copied, Taken E s data copied r.1 r.2.1 r.2.2 ∧ (r.1 = .next → r.2.2 = []) := by
  induction fuel generalizing s data with
  | zero =>
    obtain rfl : data = [] := List.length_eq_zero_iff.mp (by omega)
    exact ⟨[], .refl hok, fun _ => rfl⟩
  | succ fuel ih =>
    cases data with
    | nil =>
      exact ⟨[], .refl hok, fun _ => rfl⟩
    | cons c rest =>
      obtain ⟨copied, htaken, hlen⟩ := socketByte_taken (E := E) hok c rest
      simp only [socketLoop]
      cases hr : s.socketByte E c rest with
      | mk exit r =>
        obtain ⟨s₁, rest₁⟩ := r
        rw [hr] at htaken hlen
        cases exit with
        | next =>
          have hlen := hlen rfl
          simp only [List.length_cons] at hfuel
          have hfuel : rest₁.length ≤ fuel := by
            simp only at hlen
            omega
          obtain ⟨copied', htaken', hnil⟩ := ih htaken.fed.1 hfuel
          exact ⟨_, htaken.trans htaken', hnil⟩
        | brk => exact ⟨copied, htaken, by simp⟩
        | err => exact ⟨copied, htaken, by simp⟩
        | done => exact ⟨copied, htaken, by simp⟩
        | undef => exact ⟨copied, htaken, by simp⟩

/-! ### `SocketData` -/

lemma loopDone_eq (s : LowHTTPDirect) (len : Int) (inLoop : Bool) :
    s.loopDone len inLoop = (s.reader.mRemainingRead.isNone, { s with
      reader.mBytesRead := int32 (s.reader.mBytesRead + len)
      rt.loopQueued :=
        s.rt.loopQueued || (decide (s.mRequestCallID ≠ 0) && s.setCallback && !inLoop) }) := by
  unfold loopDone
  dsimp only
  by_cases h : s.mRequestCallID ≠ 0 ∧ s.setCallback ∧ !inLoop
  · rw [if_pos h]
    obtain ⟨h1, h2, h3⟩ := h
    simp [setLoopCallback, h1, h2, h3]
  · rw [if_neg h]
    have hfalse : (decide (s.mRequestCallID ≠ 0) && s.setCallback && !inLoop) = false := by
      simpa [Bool.and_eq_true, and_assoc] using h
    rw [hfalse, Bool.or_false]

/-- How `SocketData` returns, by the exit of the byte loop. -/
def loopExit (exit : Exit) (s : LowHTTPDirect) (rest : List UInt8) (inLoop : Bool) :
    Bool × LowHTTPDirect :=
  match exit with
  | .next => s.loopDone (-1) inLoop
  | .brk => s.loopDone rest.length inLoop
  | .err => closeDone { s with mHTTPError := true }
  | .done => s.closeDone
  | .undef => (false, s.undefine)

lemma SocketData_eq (hc : s.mClosed = false) {d : List UInt8} (hd : d ≠ []) (inLoop : Bool) :
    SocketData E s (.data d) inLoop =
      let r := socketLoop E d.length { s with setCallback := false } d
      loopExit r.1 r.2.1 r.2.2 inLoop := by
  cases d with
  | nil => exact absurd rfl hd
  | cons c d =>
    refine (if_neg (by simp [hc])).trans ?_
    cases socketLoop E (c :: d).length { s with setCallback := false } (c :: d) with
    | mk exit r => cases exit <;> rfl

/-- `SocketData` on some bytes: the byte loop feeds the parser. -/
theorem SocketData_taken (hok : s.LoopOk) (hc : s.mClosed = false) {d : List UInt8} (hd : d ≠ [])
    (inLoop : Bool) :
    ∃ copied exit s' rest, Taken E { s with setCallback := false } d copied exit s' rest ∧
      (exit = .next → rest = []) ∧ SocketData E s (.data d) inLoop = loopExit exit s' rest inLoop := by
  have hok' : LoopOk { s with setCallback := false } := ⟨hok.held, hok.done, hok.reader, hok.lens⟩
  obtain ⟨copied, htaken, hnil⟩ := socketLoop_taken (E := E) hok' (le_refl d.length)
  exact ⟨copied, _, _, _, htaken, hnil, SocketData_eq hc hd inLoop⟩

end LowHTTPDirect

end LowJs.HTTPDirect
