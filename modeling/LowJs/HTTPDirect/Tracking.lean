import LowJs.HTTPDirect.Feed

/-!
# The parser follows the framing

As long as the announced numbers fit into an `int`, the parser is where the framing says it is: its
lengths are the announced and the received ones, its chunk phases are those of the chunk decoder, and
the body bytes it hands out are the body.
-/

namespace LowJs

/-- The announced numbers are no negative ones, and fit into an `int`; `sizes` are those of the
chunks. -/
def Framing.Fits (sizes : List Int) : Framing → Prop
  | .length n => 0 ≤ n ∧ n < 2 ^ 31
  | .chunked => (∀ n ∈ sizes, 0 ≤ n) ∧ sizes.sum < 2 ^ 31
  | .untilClose => True

instance (sizes : List Int) (f : Framing) : Decidable (f.Fits sizes) := by
  cases f <;> unfold Framing.Fits <;> infer_instance

namespace HTTPDirect

/-- All that the messages of the connection announce fits into an `int`. -/
structure History.Fits (h : History) : Prop where
  past : ∀ m ∈ h.past, m.1.Fits m.2
  framing : ∀ f, h.framing = some f → f.Fits h.now.chunkSizes

/-- The body that the framing finds in the bytes taken so far. -/
def History.body (h : History) : List UInt8 :=
  match h.framing with
  | none => []
  | some f => f.body h.tail

lemma History.Fits.start : History.start.Fits := ⟨by simp [History.start], by simp [History.start]⟩

lemma History.Fits.of_next {h : History} (hf : h.next.Fits) : h.Fits := by
  refine ⟨fun m hm => hf.past m (List.mem_append_left _ hm), fun f hframing => ?_⟩
  refine hf.past (f, h.now.chunkSizes) (List.mem_append_right _ ?_)
  simp [hframing]

lemma History.fits_take {h : History} {bs : List UInt8} : (h.take bs).Fits ↔ h.Fits := by
  have h1 : (h.take bs).past = h.past ∧ (h.take bs).framing = h.framing ∧
      (h.take bs).now = h.now := by
    unfold take
    split
    · exact ⟨rfl, rfl, rfl⟩
    · exact ⟨rfl, rfl, rfl⟩
  obtain ⟨h1, h2, h3⟩ := h1
  constructor
  · rintro ⟨hp, hf⟩
    exact ⟨by rwa [h1] at hp, by rwa [h2, h3] at hf⟩
  · rintro ⟨hp, hf⟩
    exact ⟨by rwa [h1], by rwa [h2, h3]⟩

lemma History.take_of_none {h : History} (hf : h.framing = none) (bs : List UInt8) :
    h.take bs = h := if_neg (by simp [hf])

lemma History.take_of_some {h : History} {f : Framing} (hf : h.framing = some f) (bs : List UInt8) :
    h.take bs = { h with tail := h.tail ++ bs } := if_pos (by simp [hf])

/-- A chunk that is announced leaves the earlier ones as they are. -/
lemma History.Fits.of_announced {h : History} {n : Int}
    (hf : History.Fits { h with now := { h.now with chunkSizes := h.now.chunkSizes ++ [n] } }) :
    h.Fits := by
  refine ⟨hf.past, fun f hframing => ?_⟩
  have h1 := hf.framing f hframing
  cases f with
  | length m => exact h1
  | untilClose => trivial
  | chunked =>
    obtain ⟨hnonneg, hsum⟩ := h1
    simp only [List.mem_append, List.mem_singleton, List.sum_append, List.sum_singleton] at hnonneg hsum
    have hn := hnonneg n (.inr rfl)
    exact ⟨fun m hm => hnonneg m (.inl hm), by omega⟩

namespace Parser

variable {E : Env} {S : Bool} {p p' : Parser} {c : UInt8}

/-- What a byte of the head or of the trailers can do to the lengths and the history. -/
inductive SectionStep (p : Parser) (c : UInt8) (p' : Parser) : Prop
  | next (hsec : p'.InSection) (hs : Steady { p with history := p.history.take [c] } p')
  | length (hsec : p'.InSection) (value : List UInt8)
    (hs : Steady
      { announceLength { p with history := p.history.take [c] } value with
        mContentLen := atoi value } p')
  | encoding (hsec : p'.InSection) (chunked : Bool)
    (hs : Steady { p with history := p.history.take [c], mChunkedEncoding := chunked } p')
  | trailers (ht : p.mAtTrailer = true) (hk : p.mPhase = .headerKey)
    (hphase : p'.mPhase = .sendingResponse)
    (hs : Steady { p with history := p.history.take [c] } p')
  | head (ht : p.mAtTrailer = false) (q : Parser)
    (hq : Steady { p with history := p.history.take [c] } q) (contentLen : Int) (line : List UInt8)
    (hs : Steady
      { q with
        mAtTrailer := true
        mContentLen := contentLen
        mChunkedHeaderLine := line
        history.framing := some q.selectFraming } p')
    (hcl :
      (q.mChunkedEncoding = true ∧ contentLen = 0 ∧ p'.mPhase = .chunkHeader ∧ line = []) ∨
      (q.mChunkedEncoding = false ∧ contentLen = q.bodyLen ∧ contentLen ≠ 0 ∧ p'.mPhase = .body) ∨
      (q.mChunkedEncoding = false ∧ contentLen = q.bodyLen ∧ contentLen = 0 ∧
        p'.mPhase = .sendingResponse))

lemma Steady.take {q : Parser} (h : Steady p q) (bs : List UInt8) :
    Steady { p with history := p.history.take bs } { q with history := q.history.take bs } where
  eraseNextN := h.eraseNextN
  atTrailer := h.atTrailer
  chunkedEncoding := h.chunkedEncoding
  contentLen := h.contentLen
  dataLen := h.dataLen
  chunkedHeaderLine := h.chunkedHeaderLine
  history := congrArg (·.take bs) h.history

/-- Only the history counts for the announcement of a length. -/
lemma Steady.announceLength {q : Parser} (h : Steady p q) (value : List UInt8) :
    Steady { p.announceLength value with mContentLen := atoi value }
      { q.announceLength value with mContentLen := atoi value } := by
  have ht := h.atTrailer
  by_cases hp : p.mAtTrailer
  · have heq (p : Parser) (hp : p.mAtTrailer = true) : p.announceLength value = p := if_pos hp
    rw [heq p hp, heq q (ht.trans hp)]
    exact { h with contentLen := rfl }
  · have heq (p : Parser) (hp : p.mAtTrailer = false) : p.announceLength value =
        { p with history.now.contentLength := some (decimalValue value) } :=
      if_neg (by simp [hp])
    have hp : p.mAtTrailer = false := by simpa using hp
    rw [heq p hp, heq q (ht.trans hp)]
    exact { h with contentLen := rfl, history := by simp [h.history] }

lemma ParamStep.section_step {b : Nat} {q : Parser} (hq : Steady p q) (hqp : q.mPhase = p.mPhase)
    (hsec : p.InSection) {e : ParamExit}
    (h : ParamStep E { q with history := q.history.take [c] } b c e p') (he : e ≠ .err) :
    SectionStep p c p' := by
  have hq' := hq.take [c]
  have hqsec : q.InSection := by simpa [InSection, hqp] using hsec
  cases h with
  | next hs hp => exact .next (hp hqsec) (hq'.trans hs)
  | err hs hp => exact absurd rfl he
  | value hv =>
    obtain ⟨hphase, ⟨-, value, hs⟩ | ⟨chunked, hs⟩⟩ :=
      storeValue_cases E { q with history := q.history.take [c] } b
    · exact .length (by simp [InSection, hphase]) value ((hq'.announceLength value).trans hs)
    · refine .encoding (by simp [InSection, hphase]) chunked (Steady.trans ?_ hs)
      exact { hq' with chunkedEncoding := rfl }
  | ended hk hpos hc =>
    rcases endSection_cases { q with history := q.history.take [c] } b with
      ⟨ht, hphase, hs⟩ | ⟨ht, contentLen, phase, line, hs, hphase, hcl⟩
    · refine .trailers (hq.atTrailer ▸ ht) (hqp ▸ hk) hphase (hq'.trans (hs.trans ?_))
      constructor <;> rfl
    · refine .head ?_ _ hq' contentLen line hs ?_
      · rw [← hq.atTrailer]
        simpa using ht
      · rw [hphase]
        rcases hcl with ⟨h1, h2, h3, h4⟩ | ⟨h1, h2, h3, h4, -⟩ | ⟨h1, h2, h3, h4, -⟩
        · exact .inl ⟨h1, h2, h3, h4⟩
        · exact .inr (.inl ⟨by simpa using h1, h2, h3, h4⟩)
        · exact .inr (.inr ⟨by simpa using h1, h2, h3, h4⟩)

lemma sectionByte_step (hsec : p.InSection) (hf : p.sectionByte E S c = .next p') :
    SectionStep p c p' := by
  have hstore (q : Parser) (b : Nat) (hq : Steady p q) (hqp : q.mPhase = p.mPhase)
      (hqf : Fed.ofParam (Parser.paramByte E S { q with history := q.history.take [c] } b c) = .next p') : SectionStep p c p' := by
    have hstep := paramByte_step E S { q with history := q.history.take [c] } b c
    generalize Parser.paramByte E S { q with history := q.history.take [c] } b c = r at hqf hstep
    obtain ⟨e, p''⟩ := r
    rw [Fed.ofParam.eq_def] at hqf
    cases e with
    | next =>
      cases hqf
      exact hstep.section_step hq hqp hsec (by simp)
    | ended =>
      cases hqf
      exact hstep.section_step hq hqp hsec (by simp)
    | err => cases hqf
  unfold Parser.sectionByte at hf
  cases ha : p.allocParam E with
  | param b =>
    rw [ha] at hf
    exact hstore p b (.refl p) rfl hf
  | linked b q =>
    rw [ha] at hf
    obtain ⟨hs, hp⟩ := allocParam_linked E p ha
    exact hstore q b hs hp hf
  | null q =>
    rw [ha] at hf
    cases hf
  | err q =>
    rw [ha] at hf
    cases hf

/-! ### Where the parser is -/

/-- The chunk decoder behind the bytes taken since the head. -/
def decoder (p : Parser) : Chunked.Decoder := Chunked.decode p.history.tail

/-- The LF behind a CR is skipped where the decoder skips it. -/
def SkipsLF (p : Parser) : Prop :=
  p.history.tail = [] ∨ p.mEraseNextN = p.decoder.skipLF

/-- The parser is where the framing says it is. -/
inductive Tracks (p : Parser) : Prop
  | head (hsec : p.InSection) (ht : p.mAtTrailer = false) (hf : p.history.framing = none)
    (htail : p.history.tail = []) (hchunks : p.history.now.chunkSizes = [])
    (hdl : p.mDataLen = 0)
    (hlen : p.history.now.contentLength.elim (p.mContentLen = -1)
      fun n => IsInt32 n → p.mContentLen = n)
  | length (n : Int) (hf : p.history.framing = some (.length n)) (hc : p.mChunkedEncoding = false)
    (hcl : p.mContentLen = n) (hdl : p.mDataLen = p.history.tail.length)
    (hskip : p.history.tail = [] ∨ p.mEraseNextN = false)
    (hp : (p.mPhase = .body ∧ p.mDataLen < n) ∨ (p.mPhase = .sendingResponse ∧ p.mDataLen = n))
  | untilClose (hf : p.history.framing = some .untilClose) (hp : p.mPhase = .body)
    (hc : p.mChunkedEncoding = false) (hcl : p.mContentLen = -1)
    (hlen : p.history.now.contentLength = none)
    (hskip : p.history.tail = [] ∨ p.mEraseNextN = false)
  | size (hf : p.history.framing = some .chunked) (ht : p.mAtTrailer = true)
    (hp : p.mPhase = .chunkHeader) (hc : p.mChunkedEncoding = true)
    (hd : p.decoder.phase = .size p.mChunkedHeaderLine)
    (hcl : p.mContentLen = p.history.now.chunkSizes.sum) (hdl : p.mDataLen = p.mContentLen)
    (hbody : p.mDataLen = p.decoder.body.length) (hskip : p.SkipsLF)
  | data (hf : p.history.framing = some .chunked) (ht : p.mAtTrailer = true)
    (hp : p.mPhase = .body) (hc : p.mChunkedEncoding = true)
    (hd : p.decoder.phase = .data (p.mContentLen - p.mDataLen))
    (hcl : p.mContentLen = p.history.now.chunkSizes.sum) (hdl : p.mDataLen < p.mContentLen)
    (hbody : p.mDataLen = p.decoder.body.length) (hskip : p.SkipsLF)
  | ended (hf : p.history.framing = some .chunked) (ht : p.mAtTrailer = true)
    (hp : p.InSection ∨ p.mPhase = .sendingResponse)
    (hd : p.decoder.phase = .complete ∨ ∃ blank, p.decoder.phase = .trailer blank)
    (hskip : p.SkipsLF)

/-- Only the blocks and the marks of the current header have changed. -/
lemma Tracks.congr (h : Tracks p) (hs : Steady p p') (hp : p'.mPhase = p.mPhase) : Tracks p' := by
  have hsec : p'.InSection ↔ p.InSection := by simp [InSection, hp]
  have hd : p'.decoder = p.decoder := by rw [decoder, decoder, hs.history]
  have hskip : p'.SkipsLF ↔ p.SkipsLF := by rw [SkipsLF, SkipsLF, hs.history, hd, hs.eraseNextN]
  cases h with
  | head hsec' ht hf htail hchunks hdl hlen =>
    refine .head (hsec.mpr hsec') (hs.atTrailer.trans ht) ?_ ?_ ?_ (hs.dataLen.trans hdl) ?_
    · rwa [hs.history]
    · rwa [hs.history]
    · rwa [hs.history]
    · rwa [hs.history, hs.contentLen]
  | length n hf hc hcl hdl hskip' hp' =>
    refine .length n ?_ (hs.chunkedEncoding.trans hc) (hs.contentLen.trans hcl) ?_ ?_ ?_
    · rwa [hs.history]
    · rwa [hs.history, hs.dataLen]
    · rwa [hs.history, hs.eraseNextN]
    · rwa [hp, hs.dataLen]
  | untilClose hf hp' hc hcl hlen hskip' =>
    refine .untilClose ?_ (hp.trans hp') (hs.chunkedEncoding.trans hc) (hs.contentLen.trans hcl) ?_ ?_
    · rwa [hs.history]
    · rwa [hs.history]
    · rwa [hs.history, hs.eraseNextN]
  | size hf ht hp' hc hd' hcl hdl hbody hskip' =>
    refine .size ?_ (hs.atTrailer.trans ht) (hp.trans hp') (hs.chunkedEncoding.trans hc) ?_ ?_ ?_ ?_ (hskip.mpr hskip')
    · rwa [hs.history]
    · rwa [hd, hs.chunkedHeaderLine]
    · rwa [hs.history, hs.contentLen]
    · rwa [hs.dataLen, hs.contentLen]
    · rwa [hs.dataLen, hd]
  | data hf ht hp' hc hd' hcl hdl hbody hskip' =>
    refine .data ?_ (hs.atTrailer.trans ht) (hp.trans hp') (hs.chunkedEncoding.trans hc) ?_ ?_ ?_ ?_ (hskip.mpr hskip')
    · rwa [hs.history]
    · rwa [hd, hs.contentLen, hs.dataLen]
    · rwa [hs.history, hs.contentLen]
    · rwa [hs.dataLen, hs.contentLen]
    · rwa [hs.dataLen, hd]
  | ended hf ht hp' hd' hskip' =>
    refine .ended ?_ (hs.atTrailer.trans ht) ?_ ?_ (hskip.mpr hskip')
    · rwa [hs.history]
    · rwa [hsec, hp]
    · rwa [hd]

lemma tracks_init (p : Parser) : Tracks p.init :=
  .head (by simp [InSection, init]) rfl rfl rfl rfl rfl rfl

/-! ### One byte -/

/-- A byte has brought the parser on, and with it the body by `bs`. -/
structure Advance (p : Parser) (bs : List UInt8) (p' : Parser) : Prop where
  fits : p.history.Fits
  tracks : Tracks p'
  body : p'.history.body = p.history.body ++ bs

lemma decoder_take {f : Framing} (hf : p.history.framing = some f) (q : Parser)
    (hq : q.history = p.history.take [c]) : q.decoder = p.decoder.step c := by
  rw [decoder, hq, History.take_of_some hf]
  exact Chunked.decode_concat _ _

/-- A LF is skipped. -/
lemma Tracks.skip (h : p.history.Fits → Tracks p) (herase : p.mEraseNextN = true)
    (hfit : (p.history.skip).Fits) :
    Advance p [] { p with mEraseNextN := false, history := p.history.skip } := by
  by_cases htail : p.history.tail = []
  · have heq : p.history.skip = p.history := if_pos htail
    rw [heq] at hfit ⊢
    refine ⟨hfit, ?_, by simp⟩
    cases h hfit with
    | head hsec ht hf htail' hchunks hdl hlen => exact .head hsec ht hf htail' hchunks hdl hlen
    | length n hf hc hcl hdl hskip hp => exact .length n hf hc hcl hdl (.inl htail) hp
    | untilClose hf hp hc hcl hlen hskip => exact .untilClose hf hp hc hcl hlen (.inl htail)
    | size hf ht hp hc hd hcl hdl hbody hskip => exact .size hf ht hp hc hd hcl hdl hbody (.inl htail)
    | data hf ht hp hc hd hcl hdl hbody hskip => exact .data hf ht hp hc hd hcl hdl hbody (.inl htail)
    | ended hf ht hp hd hskip => exact .ended hf ht hp hd (.inl htail)
  · have heq : p.history.skip = p.history.take [LF] := if_neg htail
    rw [heq] at hfit ⊢
    have hfit := History.fits_take.mp hfit
    -- the byte belongs to the chunked coding, and the decoder skips it, too
    have hstep (q : Parser) (hq : q.history = p.history.take [LF])
        (hf : p.history.framing = some .chunked) (hskip : p.SkipsLF) :
        q.decoder = { p.decoder with skipLF := false } ∧ q.history.framing = some .chunked ∧
          q.history.body = p.history.body ∧ q.history.now = p.history.now := by
      have hlf : p.decoder.skipLF = true := (hskip.resolve_left htail).symm.trans herase
      have hq' : q.history = { p.history with tail := p.history.tail ++ [LF] } := by
        rw [hq, History.take_of_some hf]
      have hd : q.decoder = { p.decoder with skipLF := false } := by
        rw [decoder_take hf q hq]
        exact if_pos ⟨hlf, rfl⟩
      refine ⟨hd, by rw [hq']; exact hf, ?_, by rw [hq']⟩
      have h1 : q.history.body = q.decoder.body := by
        simp only [History.body, hq', hf, Framing.body, decoder]
      have h2 : p.history.body = p.decoder.body := by
        simp only [History.body, hf, Framing.body, decoder]
      rw [h1, h2, hd]
    cases h hfit with
    | head hsec ht hf htail' hchunks hdl hlen => exact absurd htail' htail
    | length n hf hc hcl hdl hskip hp =>
      exact absurd (herase.symm.trans (hskip.resolve_left htail)) (by simp)
    | untilClose hf hp hc hcl hlen hskip =>
      exact absurd (herase.symm.trans (hskip.resolve_left htail)) (by simp)
    | size hf ht hp hc hd hcl hdl hbody hskip =>
      obtain ⟨hd', hf', hbody', hnow⟩ := hstep
        { p with mEraseNextN := false, history := p.history.take [LF] } rfl hf hskip
      refine ⟨hfit, .size hf' ht hp hc ?_ ?_ hdl ?_ (.inr ?_), by simpa using hbody'⟩
      · rw [hd']
        exact hd
      · rw [hnow]
        exact hcl
      · rw [hd']
        exact hbody
      · rw [hd']
    | data hf ht hp hc hd hcl hdl hbody hskip =>
      obtain ⟨hd', hf', hbody', hnow⟩ := hstep
        { p with mEraseNextN := false, history := p.history.take [LF] } rfl hf hskip
      refine ⟨hfit, .data hf' ht hp hc ?_ ?_ hdl ?_ (.inr ?_), by simpa using hbody'⟩
      · rw [hd']
        exact hd
      · rw [hnow]
        exact hcl
      · rw [hd']
        exact hbody
      · rw [hd']
    | ended hf ht hp hd hskip =>
      obtain ⟨hd', hf', hbody', hnow⟩ := hstep
        { p with mEraseNextN := false, history := p.history.take [LF] } rfl hf hskip
      refine ⟨hfit, .ended hf' ht hp ?_ (.inr ?_), by simpa using hbody'⟩
      · rw [hd']
        exact hd
      · rw [hd']

/-- A byte of the body. -/
lemma Tracks.bodyByte (h : p.history.Fits → Tracks p) (hn : ¬(p.mEraseNextN ∧ c = LF))
    (hp : p.mPhase = .body)
    (hfit : ((p.marked c).copied [c]).history.Fits) :
    Advance p [c] ((p.marked c).copied [c]) := by
  have herase : (p.marked c).mEraseNextN = false := by simp [marked, hp]
  have hhist : ((p.marked c).copied [c]).history = p.history.take [c] := by
    unfold copied
    dsimp only
    split
    · split
      · rfl
      · rfl
    · rfl
  rw [hhist] at hfit
  have hfit := History.fits_take.mp hfit
  have hnow {f : Framing} (hf : p.history.framing = some f) :
      (p.history.take [c]).now = p.history.now := by
    rw [History.take_of_some hf]
  cases h hfit with
  | head hsec ht hf htail' hchunks hdl hlen => exact absurd hp hsec.1
  | ended hf ht hp' hd hskip => exact absurd hp (by rcases hp' with hp' | hp' <;> [exact hp'.1; simp [hp']])
  | size hf ht hp' hc hd hcl hdl hbody hskip => exact absurd (hp.symm.trans hp') (by simp)
  | untilClose hf hp' hc hcl hlen hskip =>
    rw [copied_open (by rintro ⟨h0, -⟩; simp [marked, hcl] at h0)]
    have hf' : (p.history.take [c]).framing = some .untilClose := by
      rw [History.take_of_some hf]
      exact hf
    refine ⟨hfit, .untilClose hf' hp hc hcl ?_ (.inr herase), ?_⟩
    · exact (congrArg (·.contentLength) (hnow hf)).trans hlen
    · change (p.history.take [c]).body = p.history.body ++ [c]
      simp only [History.body, History.take_of_some hf, hf, Framing.body]
  | length n hf hc hcl hdl hskip hpn =>
    obtain ⟨h0, hmax⟩ := hfit.framing _ hf
    obtain ⟨-, hlt⟩ := hpn.resolve_right fun hpn => by simp [hp] at hpn
    have hint : int32 (p.mDataLen + ([c].length : Int)) = p.mDataLen + 1 := by
      rw [List.length_singleton, Nat.cast_one]
      exact int32_eq ⟨by omega, by omega⟩
    have htail : ((p.history.tail ++ [c]).length : Int) = p.mDataLen + 1 := by
      rw [List.length_append, List.length_singleton, hdl]
      simp
    have hbody : (p.history.take [c]).body = p.history.body ++ [c] := by
      simp only [History.body, History.take_of_some hf, hf, Framing.body]
      rw [List.take_of_length_le (by omega), List.take_of_length_le (by omega)]
    have hf' : (p.history.take [c]).framing = some (.length n) := by
      rw [History.take_of_some hf]
      exact hf
    have hdl' : p.mDataLen + 1 = ((p.history.take [c]).tail.length : Int) := by
      rw [History.take_of_some hf]
      exact htail.symm
    refine ⟨hfit, ?_, by rw [hhist]; exact hbody⟩
    by_cases hend : p.mDataLen + 1 = n
    · rw [copied_last (p := p.marked c) ⟨hcl ▸ h0, hint.trans (hend.trans hcl.symm)⟩ hc]
      exact .length n hf' hc hcl (hint.trans hdl') (.inr herase) (.inr ⟨rfl, hint.trans hend⟩)
    · have hopen : ¬(0 ≤ (p.marked c).mContentLen ∧
          int32 ((p.marked c).mDataLen + ([c].length : Int)) = (p.marked c).mContentLen) :=
        fun hn => hend (hint.symm.trans (hn.2.trans hcl))
      rw [copied_open hopen]
      refine .length n hf' hc hcl (hint.trans hdl') (.inr herase) (.inl ⟨hp, ?_⟩)
      change int32 (p.mDataLen + ([c].length : Int)) < n
      omega
  | data hf ht hp' hc hd hcl hdl hbody hskip =>
    obtain ⟨hnonneg, hmax⟩ := hfit.framing _ hf
    have htail : p.history.tail ≠ [] := by
      intro hnil
      rw [decoder, hnil] at hd
      simp [Chunked.start] at hd
    have hskip' : ¬(p.decoder.skipLF ∧ c = LF) := by rwa [← hskip.resolve_left htail]
    have hint : int32 (p.mDataLen + ([c].length : Int)) = p.mDataLen + 1 := by
      rw [List.length_singleton, Nat.cast_one]
      exact int32_eq ⟨by omega, by omega⟩
    have hstep : p.decoder.step c =
        { phase := if p.mContentLen - p.mDataLen = 1 then .size []
            else .data (p.mContentLen - p.mDataLen - 1)
          skipLF := false
          body := p.decoder.body ++ [c] } := by
      unfold Chunked.Decoder.step
      rw [if_neg hskip', hd]
    have hf' : (p.history.take [c]).framing = some .chunked := by
      rw [History.take_of_some hf]
      exact hf
    have hdec (q : Parser) (hq : q.history = p.history.take [c]) := (decoder_take hf q hq).trans hstep
    refine ⟨hfit, ?_, ?_⟩
    · have hbody' : p.mDataLen + 1 = ((p.decoder.body ++ [c]).length : Int) := by
        rw [List.length_append, List.length_singleton, hbody]
        simp
      by_cases hend : p.mDataLen + 1 = p.mContentLen
      · rw [copied_chunk (p := p.marked c) ⟨by change 0 ≤ p.mContentLen; omega, hint.trans hend⟩ hc]
        refine .size hf' ht rfl hc ?_ ?_ (hint.trans hend) ?_ (.inr ?_)
        · rw [hdec _ rfl]
          exact if_pos (by omega)
        · exact hcl.trans (congrArg (·.chunkSizes.sum) (hnow hf)).symm
        · rw [hdec _ rfl]
          exact hint.trans hbody'
        · rw [hdec _ rfl]
          exact herase
      · have hopen : ¬(0 ≤ (p.marked c).mContentLen ∧
            int32 ((p.marked c).mDataLen + ([c].length : Int)) = (p.marked c).mContentLen) :=
          fun hn => hend (hint.symm.trans hn.2)
        rw [copied_open hopen]
        refine .data hf' ht hp hc ?_ ?_ ?_ ?_ (.inr ?_)
        · rw [hdec _ rfl]
          refine (if_neg (by omega)).trans ?_
          congr 1
          change p.mContentLen - p.mDataLen - 1 =
            p.mContentLen - int32 (p.mDataLen + ([c].length : Int))
          omega
        · exact hcl.trans (congrArg (·.chunkSizes.sum) (hnow hf)).symm
        · change int32 (p.mDataLen + ([c].length : Int)) < p.mContentLen
          omega
        · rw [hdec _ rfl]
          exact hint.trans hbody'
        · rw [hdec _ rfl]
          exact herase
    · have h1 : ((p.marked c).copied [c]).history.body = ((p.marked c).copied [c]).decoder.body := by
        simp only [History.body, hhist, hf', Framing.body, decoder]
      have h2 : p.history.body = p.decoder.body := by
        simp only [History.body, hf, Framing.body, decoder]
      rw [h1, h2, hdec _ hhist]

/-- Nothing has been copied beyond the announced length. -/
lemma Tracks.left (h : Tracks p) (hp : p.mPhase = .body) :
    ¬(0 ≤ p.mContentLen ∧ p.mContentLen ≤ p.mDataLen) := by
  rintro ⟨h0, hle⟩
  cases h with
  | head hsec ht hf htail hchunks hdl hlen => exact hsec.1 hp
  | length n hf hc hcl hdl hskip hpn =>
    have := (hpn.resolve_right fun hpn => by simp [hp] at hpn).2
    omega
  | untilClose hf hp' hc hcl hlen hskip => omega
  | size hf ht hp' hc hd hcl hdl hbody hskip => exact absurd (hp.symm.trans hp') (by simp)
  | data hf ht hp' hc hd hcl hdl hbody hskip => omega
  | ended hf ht hp' hd hskip =>
    rcases hp' with hp' | hp'
    · exact hp'.1 hp
    · exact absurd (hp.symm.trans hp') (by simp)

/-- A byte of a chunk size line. -/
lemma Tracks.chunkByte (h : p.history.Fits → Tracks p) (hn : ¬(p.mEraseNextN ∧ c = LF))
    (hp : p.mPhase = .chunkHeader)
    (hstep : ChunkStep { p.marked c with history := p.history.take [c] } c (some p'))
    (hfit : p'.history.Fits) : Advance p [] p' := by
  have hfit' : p.history.Fits := by
    cases hstep with
    | blank _ _ => exact History.fits_take.mp hfit
    | char _ _ => exact History.fits_take.mp hfit
    | last _ _ n _ _ => exact History.fits_take.mp hfit.of_announced
    | chunk _ _ n _ _ => exact History.fits_take.mp hfit.of_announced
  cases h hfit' with
  | head hsec ht hf htail' hchunks hdl hlen => exact absurd hp hsec.2.1
  | length n hf hc hcl hdl hskip hpn => simp [hp] at hpn
  | untilClose hf hp' hc hcl hlen hskip => exact absurd (hp.symm.trans hp') (by simp)
  | data hf ht hp' hc hd hcl hdl hbody hskip => exact absurd (hp.symm.trans hp') (by simp)
  | ended hf ht hp' hd hskip =>
    rcases hp' with hp' | hp'
    · exact absurd hp hp'.2.1
    · exact absurd (hp.symm.trans hp') (by simp)
  | size hf ht hp' hc hd hcl hdl hbody hskip =>
    have hskip' : ¬(p.decoder.skipLF ∧ c = LF) := by
      rcases hskip with htail | hskip
      · simp [decoder, htail, Chunked.start]
      · rwa [← hskip]
    have hstep' : p.decoder.step c =
        { p.decoder with
          phase :=
            if c = CR ∨ c = LF then Chunked.sizeLine p.mChunkedHeaderLine
            else .size (p.mChunkedHeaderLine ++ [c])
          skipLF := decide (c = CR) } := by
      unfold Chunked.Decoder.step
      rw [if_neg hskip', hd]
    have herase : (p.marked c).mEraseNextN = decide (c = CR) := by simp [marked, hp]
    have hf' : (p.history.take [c]).framing = some .chunked := by
      rw [History.take_of_some hf]
      exact hf
    have hnow : (p.history.take [c]).now = p.history.now := by
      rw [History.take_of_some hf]
    -- what the decoder makes of the byte
    have hdec (q : Parser) (hq : q.history.tail = (p.history.take [c]).tail) :
        q.decoder = p.decoder.step c := by
      rw [decoder, hq]
      exact decoder_take hf { p with history := p.history.take [c] } rfl
    have hskipLF (q : Parser) (hq : q.history.tail = (p.history.take [c]).tail)
        (hqe : q.mEraseNextN = (p.marked c).mEraseNextN) : q.SkipsLF := by
      refine .inr ?_
      rw [hqe, herase, hdec q hq, hstep']
    have hbody' (q : Parser) (hq : q.history.tail = (p.history.take [c]).tail) :
        q.decoder.body = p.decoder.body := by
      rw [hdec q hq, hstep']
    have hline (q : Parser) (hq : q.history.tail = (p.history.take [c]).tail)
        (hcr : c = CR ∨ c = LF) : q.decoder.phase = Chunked.sizeLine p.mChunkedHeaderLine := by
      rw [hdec q hq, hstep']
      exact if_pos hcr
    have hsizes (n : Int) (hfit : (announced { p.marked c with
        history := p.history.take [c] } n).history.Fits) : 0 ≤ n ∧ n < 2 ^ 31 := by
      obtain ⟨hnonneg, hsum⟩ := hfit.framing .chunked hf'
      simp only [announced, hnow, List.mem_append, List.mem_singleton, List.sum_append,
        List.sum_singleton] at hnonneg hsum
      have h0 := hnonneg n (.inr rfl)
      have hpos : 0 ≤ p.history.now.chunkSizes.sum := List.sum_nonneg fun m hm => hnonneg m (.inl hm)
      exact ⟨h0, by omega⟩
    refine ⟨hfit', ?_, ?_⟩
    · cases hstep with
      | blank hcr hnil =>
        have hnil : p.mChunkedHeaderLine = [] := hnil
        refine .size hf' ht hp hc ?_ (hcl.trans (congrArg (·.chunkSizes.sum) hnow).symm) hdl ?_
          (hskipLF _ rfl rfl)
        · rw [hline _ rfl hcr]
          change Chunked.sizeLine p.mChunkedHeaderLine = .size p.mChunkedHeaderLine
          rw [hnil]
          rfl
        · rw [hbody' _ rfl]
          exact hbody
      | char hcr hlen =>
        refine .size hf' ht hp hc ?_ (hcl.trans (congrArg (·.chunkSizes.sum) hnow).symm) hdl ?_
          (hskipLF _ rfl rfl)
        · rw [hdec _ rfl, hstep']
          exact if_neg hcr
        · rw [hbody' _ rfl]
          exact hbody
      | last hcr hne n hsize hn =>
        obtain ⟨hn0, hmax⟩ := hsizes n hfit
        have hn : n = 0 := by rwa [int32_eq ⟨by omega, hmax⟩] at hn
        refine .ended hf' ht (.inl (by simp [InSection])) (.inr ⟨true, ?_⟩) (hskipLF _ rfl rfl)
        rw [hline _ rfl hcr]
        have hne : p.mChunkedHeaderLine ≠ [] := hne
        have hsize : chunkSize p.mChunkedHeaderLine = some n := hsize
        simp [Chunked.sizeLine, hne, hsize, hn]
      | chunk hcr hne n hsize hn =>
        obtain ⟨hn0, hmax⟩ := hsizes n hfit
        have hint : int32 n = n := int32_eq ⟨by omega, hmax⟩
        rw [hint] at hn hfit ⊢
        have hcl' : p.mContentLen + n = (p.history.now.chunkSizes ++ [n]).sum := by
          rw [hcl, List.sum_append, List.sum_singleton]
        have hsum : p.mContentLen + n < 2 ^ 31 := by
          rw [hcl']
          obtain ⟨-, hsum⟩ := hfit.framing .chunked hf'
          simpa [announced, hnow] using hsum
        have h0 : 0 ≤ p.mContentLen := by omega
        have hint' : int32 (p.mContentLen + n) = p.mContentLen + n := int32_eq ⟨by omega, hsum⟩
        refine .data hf' ht rfl hc ?_ ?_ ?_ ?_ (hskipLF _ rfl rfl)
        · rw [hline _ rfl hcr]
          have hne : p.mChunkedHeaderLine ≠ [] := hne
          have hsize : chunkSize p.mChunkedHeaderLine = some n := hsize
          change _ = Chunked.Phase.data (int32 (p.mContentLen + n) - p.mDataLen)
          rw [hint', hdl, add_sub_cancel_left]
          simp [Chunked.sizeLine, hne, hsize, hn, hn0.not_gt]
        · refine hint'.trans (hcl'.trans ?_)
          exact (congrArg (fun a : Announcement => (a.chunkSizes ++ [n]).sum) hnow).symm
        · change p.mDataLen < int32 (p.mContentLen + n)
          omega
        · rw [hbody' _ rfl]
          exact hbody
    · have hbody'' (q : Parser) (hq : q.history.tail = (p.history.take [c]).tail)
          (hqf : q.history.framing = some .chunked) : q.history.body = p.history.body := by
        have h1 : q.history.body = q.decoder.body := by
          simp only [History.body, hqf, Framing.body, decoder]
        have h2 : p.history.body = p.decoder.body := by
          simp only [History.body, hf, Framing.body, decoder]
        rw [h1, h2, hbody' q hq]
      rw [List.append_nil]
      cases hstep with
      | blank _ _ => exact hbody'' _ rfl hf'
      | char _ _ => exact hbody'' _ rfl hf'
      | last _ _ n _ _ => exact hbody'' _ rfl hf'
      | chunk _ _ n _ _ => exact hbody'' _ rfl hf'

/-- In a head the length that is announced is noted down. -/
lemma announceLength_head (ht : p.mAtTrailer = false) (htake : p.history.take [c] = p.history)
    (value : List UInt8) :
    announceLength { p with history := p.history.take [c] } value =
      { p with history := { p.history with
          now := { p.history.now with contentLength := some (decimalValue value) } } } := by
  rw [htake]
  exact if_neg (by simp [ht])

/-- A byte of the head. -/
lemma Tracks.headByte (ht : p.mAtTrailer = false) (hf : p.history.framing = none)
    (htail : p.history.tail = []) (hchunks : p.history.now.chunkSizes = []) (hdl : p.mDataLen = 0)
    (hlen : p.history.now.contentLength.elim (p.mContentLen = -1)
      fun n => IsInt32 n → p.mContentLen = n)
    (hstep : SectionStep p c p') (hfit : p'.history.Fits) : Advance p [] p' := by
  have htake : p.history.take [c] = p.history := History.take_of_none hf _
  have hnil {h : History} (hn : h.framing = none) : h.body = [] := by simp only [History.body, hn]
  cases hstep with
  | next hsec hs =>
    have hh : p'.history = p.history := hs.history.trans htake
    rw [hh] at hfit
    refine ⟨hfit, .head hsec (hs.atTrailer.trans ht) ?_ ?_ ?_ (hs.dataLen.trans hdl) ?_, ?_⟩
    · rwa [hh]
    · rwa [hh]
    · rwa [hh]
    · rwa [hh, hs.contentLen]
    · rw [hh]
      simp
  | encoding hsec chunked hs =>
    have hh : p'.history = p.history := hs.history.trans htake
    rw [hh] at hfit
    refine ⟨hfit, .head hsec (hs.atTrailer.trans ht) ?_ ?_ ?_ (hs.dataLen.trans hdl) ?_, ?_⟩
    · rwa [hh]
    · rwa [hh]
    · rwa [hh]
    · rwa [hh, hs.contentLen]
    · rw [hh]
      simp
  | length hsec value hs =>
    rw [announceLength_head ht htake] at hs
    have hh : p'.history = { p.history with
        now := { p.history.now with contentLength := some (decimalValue value) } } := hs.history
    rw [hh] at hfit
    refine ⟨⟨hfit.past, fun f hff => absurd (hf.symm.trans hff) (by simp)⟩,
      .head hsec (hs.atTrailer.trans ht) ?_ ?_ ?_ (hs.dataLen.trans hdl) ?_, ?_⟩
    · rw [hh]
      exact hf
    · rw [hh]
      exact htail
    · rw [hh]
      exact hchunks
    · rw [hh]
      exact fun hint => hs.contentLen.trans (atoi_eq hint)
    · rw [hnil hf, hnil (by rw [hh]; exact hf)]
      rfl
  | trailers ht' hk hphase hs => exact absurd (ht.symm.trans ht') (by simp)
  | head _ q hq contentLen line hs hcl =>
    have hqh : q.history = p.history := hq.history.trans htake
    have hh : p'.history = { p.history with framing := some q.selectFraming } := by
      rw [hs.history, hqh]
    have hff : q.selectFraming.Fits [] := by
      have := hfit.framing q.selectFraming (by rw [hh])
      rwa [hh, show ({ p.history with framing := some q.selectFraming } : History).now.chunkSizes = []
        from hchunks] at this
    have hpast : p.history.Fits := by
      refine ⟨fun m hm => hfit.past m (by rwa [hh]), fun f hff => absurd (hf.symm.trans hff) (by simp)⟩
    have hbody : p'.history.body = p.history.body ++ [] := by
      rw [hnil hf, hh]
      simp only [History.body, htail]
      cases q.selectFraming <;> simp [Framing.body, Chunked.start]
    have hframing : p'.history.framing = some q.selectFraming := by rw [hh]
    have htail' : p'.history.tail = [] := by
      rw [hh]
      exact htail
    have hdl' : p'.mDataLen = 0 := hs.dataLen.trans (hq.dataLen.trans hdl)
    have hqlen : q.history.now.contentLength.elim (q.mContentLen = -1)
        fun n => IsInt32 n → q.mContentLen = n := by
      rwa [hqh, hq.contentLen]
    have hdec : p'.decoder = Chunked.start := by
      rw [decoder, htail']
      rfl
    refine ⟨hpast, ?_, hbody⟩
    rcases hcl with ⟨hc, rfl, hphase, rfl⟩ | ⟨hc, hbl, hne, hphase⟩ | ⟨hc, hbl, h0, hphase⟩
    · have hsel : q.selectFraming = .chunked := if_pos hc
      rw [hsel] at hframing
      refine .size hframing hs.atTrailer hphase (hs.chunkedEncoding.trans hc) ?_ ?_ ?_ ?_ (.inl htail')
      · rw [hdec, hs.chunkedHeaderLine]
        rfl
      · rw [hs.contentLen, hh]
        change 0 = p.history.now.chunkSizes.sum
        rw [hchunks]
        rfl
      · rw [hdl', hs.contentLen]
      · rw [hdl', hdec]
        rfl
    · cases hqc : q.history.now.contentLength with
      | some n =>
        have hsel : q.selectFraming = .length n := by simp [selectFraming, hc, hqc]
        rw [hsel] at hff hframing
        rw [hqc] at hqlen
        obtain ⟨h0, hmax⟩ := hff
        have hqcl : q.mContentLen = n := hqlen ⟨by omega, hmax⟩
        have hbn : q.bodyLen = n := by
          rw [bodyLen, if_neg fun hn => by have := hn.1; omega, hqcl]
        refine .length n hframing (hs.chunkedEncoding.trans hc)
          (hs.contentLen.trans (hbl.trans hbn)) ?_ (.inl htail') (.inl ⟨hphase, ?_⟩)
        · rw [hdl', htail']
          rfl
        · rw [hdl']
          omega
      | none =>
        rw [hqc] at hqlen
        have hqcl : q.mContentLen = -1 := hqlen
        have hno : q.mNoBodyDefault = false := by
          by_contra hno
          exact hne (hbl.trans (by simp [bodyLen, hqcl, hc, hno]))
        have hsel : q.selectFraming = .untilClose := by simp [selectFraming, hc, hqc, hno]
        have hbn : q.bodyLen = -1 := by simp [bodyLen, hqcl, hno]
        rw [hsel] at hframing
        refine .untilClose hframing hphase (hs.chunkedEncoding.trans hc)
          (hs.contentLen.trans (hbl.trans hbn)) ?_ (.inl htail')
        rw [hh]
        exact hqh ▸ hqc
    · cases hqc : q.history.now.contentLength with
      | some n =>
        have hsel : q.selectFraming = .length n := by simp [selectFraming, hc, hqc]
        rw [hsel] at hff hframing
        rw [hqc] at hqlen
        obtain ⟨hn0, hmax⟩ := hff
        have hqcl : q.mContentLen = n := hqlen ⟨by omega, hmax⟩
        have hbn : q.bodyLen = n := by
          rw [bodyLen, if_neg fun hn => by have := hn.1; omega, hqcl]
        have hn : n = 0 := hbn.symm.trans (hbl.symm.trans h0)
        refine .length n hframing (hs.chunkedEncoding.trans hc)
          (hs.contentLen.trans (hbl.trans hbn)) ?_ (.inl htail') (.inr ⟨hphase, ?_⟩)
        · rw [hdl', htail']
          rfl
        · rw [hdl', hn]
      | none =>
        rw [hqc] at hqlen
        have hqcl : q.mContentLen = -1 := hqlen
        have hno : q.mNoBodyDefault = true := by
          by_contra hno
          have hbn : q.bodyLen = -1 := by simp [bodyLen, hqcl, hno]
          omega
        have hsel : q.selectFraming = .length 0 := by simp [selectFraming, hc, hqc, hno]
        rw [hsel] at hframing
        refine .length 0 hframing (hs.chunkedEncoding.trans hc) (hs.contentLen.trans h0) ?_
          (.inl htail') (.inr ⟨hphase, hdl'⟩)
        rw [hdl', htail']
        rfl

/-- A byte of the trailers. -/
lemma Tracks.trailerByte (hf : p.history.framing = some .chunked) (ht : p.mAtTrailer = true)
    (hd : p.decoder.phase = .complete ∨ ∃ blank, p.decoder.phase = .trailer blank)
    (hskip : ¬(p.decoder.skipLF ∧ c = LF)) (herase : p.mEraseNextN = decide (c = CR))
    (hstep : SectionStep p c p') (hfit : p'.history.Fits) : Advance p [] p' := by
  have hann (value : List UInt8) :
      announceLength { p with history := p.history.take [c] } value =
        { p with history := p.history.take [c] } := if_pos ht
  obtain ⟨hh, ht', herase', hphase⟩ : p'.history = p.history.take [c] ∧ p'.mAtTrailer = true ∧
      p'.mEraseNextN = p.mEraseNextN ∧ (p'.InSection ∨ p'.mPhase = .sendingResponse) := by
    cases hstep with
    | next hsec hs => exact ⟨hs.history, hs.atTrailer.trans ht, hs.eraseNextN, .inl hsec⟩
    | length hsec value hs =>
      rw [hann] at hs
      exact ⟨hs.history, hs.atTrailer.trans ht, hs.eraseNextN, .inl hsec⟩
    | encoding hsec chunked hs => exact ⟨hs.history, hs.atTrailer.trans ht, hs.eraseNextN, .inl hsec⟩
    | trailers _ _ hphase hs => exact ⟨hs.history, hs.atTrailer.trans ht, hs.eraseNextN, .inr hphase⟩
    | head hnot => exact absurd (ht.symm.trans hnot) (by simp)
  have hdec : p'.decoder = p.decoder.step c := decoder_take hf p' hh
  obtain ⟨hbody, hphase'⟩ := Chunked.step_body_of_ended hd c
  have hf' : p'.history.framing = some .chunked := by
    rw [hh, History.take_of_some hf]
    exact hf
  refine ⟨History.fits_take.mp (hh ▸ hfit), .ended hf' ht' hphase ?_ (.inr ?_), ?_⟩
  · rwa [hdec]
  · rw [herase', herase, hdec]
    rcases hd with hd | ⟨blank, hd⟩
    · simp only [Chunked.Decoder.step, if_neg hskip, hd]
    · simp only [Chunked.Decoder.step, if_neg hskip, hd]
  · rw [List.append_nil]
    have h1 : p'.history.body = p'.decoder.body := by
      simp only [History.body, hf', Framing.body, decoder]
    have h2 : p.history.body = p.decoder.body := by
      simp only [History.body, hf, Framing.body, decoder]
    rw [h1, h2, hdec, hbody]

/-- What is known of the parser whether the announced numbers fit or not, and what is known if they
fit. -/
structure Tracked (p : Parser) : Prop where
  lens : p.LenOk
  unframed : p.mAtTrailer = false → p.history.framing = none
  tracks : p.history.Fits → Tracks p

lemma SectionStep.history (h : SectionStep p c p') (ht : p.mAtTrailer = true) :
    p'.history = p.history.take [c] ∧ p'.mAtTrailer = true := by
  cases h with
  | next _ hs => exact ⟨hs.history, hs.atTrailer.trans ht⟩
  | length _ value hs =>
    have hann : announceLength { p with history := p.history.take [c] } value =
        { p with history := p.history.take [c] } := if_pos ht
    rw [hann] at hs
    exact ⟨hs.history, hs.atTrailer.trans ht⟩
  | encoding _ chunked hs => exact ⟨hs.history, hs.atTrailer.trans ht⟩
  | trailers _ _ _ hs => exact ⟨hs.history, hs.atTrailer.trans ht⟩
  | head hnot => exact absurd (ht.symm.trans hnot) (by simp)

/-- Before the trailers the history has no framing and does not grow, up to the end of the head. -/
lemma SectionStep.unframed (h : SectionStep p c p') (ht : p.mAtTrailer = false)
    (hf : p.history.framing = none) :
    (p'.mAtTrailer = true ∨ p'.history.framing = none) ∧ (p'.history.Fits → p.history.Fits) := by
  have htake : p.history.take [c] = p.history := History.take_of_none hf _
  cases h with
  | next _ hs =>
    have hh : p'.history = p.history := hs.history.trans htake
    rw [hh]
    exact ⟨.inr hf, id⟩
  | encoding _ chunked hs =>
    have hh : p'.history = p.history := hs.history.trans htake
    rw [hh]
    exact ⟨.inr hf, id⟩
  | length _ value hs =>
    rw [announceLength_head ht htake] at hs
    have hh : p'.history = { p.history with
        now := { p.history.now with contentLength := some (decimalValue value) } } := hs.history
    rw [hh]
    exact ⟨.inr hf, fun hfit => ⟨hfit.past, fun f hff => absurd (hf.symm.trans hff) (by simp)⟩⟩
  | trailers ht' => exact absurd (ht.symm.trans ht') (by simp)
  | head _ q hq contentLen line hs hcl =>
    have hh : p'.history = { p.history with framing := some q.selectFraming } := by
      rw [hs.history, hq.history]
      simp only [htake]
    rw [hh]
    exact ⟨.inl hs.atTrailer,
      fun hfit => ⟨hfit.past, fun f hff => absurd (hf.symm.trans hff) (by simp)⟩⟩

/-- The cases of `feed` that take the byte. -/
inductive Taking (E : Env) (S : Bool) (p : Parser) (c : UInt8) : Parser → Prop
  | skip (herase : p.mEraseNextN ∧ c = LF) :
    Taking E S p c { p with mEraseNextN := false, history := p.history.skip }
  | body (herase : ¬(p.mEraseNextN ∧ c = LF)) (hp : p.mPhase = .body) :
    Taking E S p c ((p.marked c).copied [c])
  | chunk {p' : Parser} (herase : ¬(p.mEraseNextN ∧ c = LF)) (hp : p.mPhase = .chunkHeader)
    (hstep : ChunkStep { p.marked c with history := p.history.take [c] } c (some p')) :
    Taking E S p c p'
  | entry {p' : Parser} (herase : ¬(p.mEraseNextN ∧ c = LF)) (hsec : p.InSection)
    (hf : (p.marked c).sectionByte E S c = .next p') : Taking E S p c p'

lemma feed_taking (hok : p.LenOk) (hf : feed E S p c = .next p') : Taking E S p c p' := by
  by_cases herase : p.mEraseNextN ∧ c = LF
  · rw [feed_skip herase] at hf
    cases hf
    exact .skip herase
  by_cases hbody : p.mPhase = .body
  · have heq : p' = (p.marked c).copied [c] := by
      rw [Parser.feed, if_neg herase] at hf
      simp only [hbody] at hf
      split at hf
      · cases hf
      · cases hf
        simp [marked, hbody]
    rw [heq]
    exact .body herase hbody
  by_cases hsend : p.mPhase = .sendingResponse
  · rw [feed_sendingResponse herase hsend] at hf
    cases hf
  by_cases hchunk : p.mPhase = .chunkHeader
  · rw [feed_chunkHeader herase hchunk] at hf
    have hstep := chunkByte_step { p.marked c with history := p.history.take [c] } c (hok.chunk hchunk).2
    cases hc : Parser.chunkByte { p.marked c with history := p.history.take [c] } c with
    | none =>
      rw [hc] at hf
      cases hf
    | some q =>
      rw [hc] at hf hstep
      cases hf
      exact .chunk herase hchunk hstep
  · have hsec : p.InSection := ⟨hbody, hchunk, hsend⟩
    rw [feed_section herase hsec] at hf
    exact .entry herase hsec hf

/-- Every byte that the parser takes brings it on in the message. -/
theorem Tracked.feed (h : Tracked p) (hf : feed E S p c = .next p') :
    Tracked p' ∧ (p'.history.Fits → p.history.Fits ∧
      p'.history.body = p.history.body ++ p.bodyPart c) := by
  have hlens := h.lens.feed hf
  -- it is enough to look at the histories that fit
  suffices hgoal : (p'.mAtTrailer = false → p'.history.framing = none) ∧
      (p'.history.Fits → Advance p (p.bodyPart c) p') from
    ⟨⟨hlens, hgoal.1, fun hfit => (hgoal.2 hfit).tracks⟩,
      fun hfit => ⟨(hgoal.2 hfit).fits, (hgoal.2 hfit).body⟩⟩
  cases feed_taking h.lens hf with
  | skip herase =>
    have hpart : p.bodyPart c = [] := if_neg fun hn => hn.2 herase
    rw [hpart]
    refine ⟨fun ht => ?_, Tracks.skip h.tracks herase.1⟩
    have hn := h.unframed ht
    change (p.history.skip).framing = none
    unfold History.skip
    split
    · exact hn
    · rwa [History.take_of_none hn]
  | body herase hp =>
    have hpart : p.bodyPart c = [c] := if_pos ⟨hp, herase⟩
    rw [hpart]
    refine ⟨fun ht => absurd (h.lens.trailer fun hs => hs.1 hp) ?_, Tracks.bodyByte h.tracks herase hp⟩
    have heq : ((p.marked c).copied [c]).mAtTrailer = p.mAtTrailer := by
      unfold copied
      dsimp only
      split
      · split
        · rfl
        · rfl
      · rfl
    simp [← heq, ht]
  | chunk herase hp hstep =>
    have hpart : p.bodyPart c = [] := if_neg fun hn => by simp [hp] at hn
    rw [hpart]
    refine ⟨fun ht => absurd (h.lens.trailer fun hs => hs.2.1 hp) ?_,
      Tracks.chunkByte h.tracks herase hp hstep⟩
    have heq : p'.mAtTrailer = p.mAtTrailer := (hstep.frame (by simp [marked, hp])).1
    simp [← heq, ht]
  | entry herase hsec hf =>
    have hpart : p.bodyPart c = [] := if_neg fun hn => hsec.1 hn.1
    rw [hpart]
    have hstep := sectionByte_step (p := p.marked c) hsec hf
    have hmarked : (p.marked c).mEraseNextN = decide (c = CR) := by simp [marked, hsec.1]
    by_cases ht : p.mAtTrailer = true
    · obtain ⟨hh, ht'⟩ := hstep.history ht
      refine ⟨fun hn => absurd (ht'.symm.trans hn) (by simp), fun hfit => ?_⟩
      have hfit' : p.history.Fits := History.fits_take.mp (hh ▸ hfit)
      cases h.tracks hfit' with
      | ended hf' _ _ hd hskip =>
        have hskip' : ¬(p.decoder.skipLF ∧ c = LF) := by
          rcases hskip with htail | hskip
          · simp [decoder, htail, Chunked.start]
          · rwa [← hskip]
        obtain ⟨h1, h2, h3⟩ :=
          Tracks.trailerByte (p := p.marked c) hf' ht hd hskip' hmarked hstep hfit
        exact ⟨h1, h2, h3⟩
      | head _ hnot => exact absurd (ht.symm.trans hnot) (by simp)
      | length n _ _ _ _ _ hpn =>
        rcases hpn with ⟨hp, -⟩ | ⟨hp, -⟩
        · exact absurd hp hsec.1
        · exact absurd hp hsec.2.2
      | untilClose _ hp => exact absurd hp hsec.1
      | size _ _ hp => exact absurd hp hsec.2.1
      | data _ _ hp => exact absurd hp hsec.1
    · have ht : p.mAtTrailer = false := by simpa using ht
      have hn := h.unframed ht
      obtain ⟨hun, hfits⟩ := hstep.unframed ht hn
      refine ⟨fun ht' => hun.resolve_left (by simp [ht']), fun hfit => ?_⟩
      cases h.tracks (hfits hfit) with
      | head _ _ _ htail hchunks hdl hlen =>
        obtain ⟨h1, h2, h3⟩ :=
          Tracks.headByte (p := p.marked c) ht hn htail hchunks hdl hlen hstep hfit
        exact ⟨h1, h2, h3⟩
      | length n hf' => exact absurd (hn.symm.trans hf') (by simp)
      | untilClose hf' => exact absurd (hn.symm.trans hf') (by simp)
      | size hf' => exact absurd (hn.symm.trans hf') (by simp)
      | data hf' => exact absurd (hn.symm.trans hf') (by simp)
      | ended hf' => exact absurd (hn.symm.trans hf') (by simp)

/-- The same for a list of bytes. -/
theorem Tracked.parses {bs body : List UInt8} (h : Tracked p) (hp : Parses E S p bs body p') :
    Tracked p' ∧ (p'.history.Fits → p.history.Fits ∧ p'.history.body = p.history.body ++ body) := by
  induction bs generalizing p body with
  | nil =>
    obtain ⟨hf, hb⟩ := hp
    cases hf
    cases hb
    exact ⟨h, fun hfit => ⟨hfit, by simp⟩⟩
  | cons c bs ih =>
    obtain ⟨hf, hb⟩ := hp
    cases hc : Parser.feed E S p c with
    | next q =>
      rw [feeds_cons hc] at hf
      rw [bodyOf_cons hc] at hb
      obtain ⟨hq, hqfit⟩ := h.feed hc
      obtain ⟨hp', hfit'⟩ := ih hq ⟨hf, rfl⟩
      refine ⟨hp', fun hfit => ?_⟩
      obtain ⟨h1, h2⟩ := hfit' hfit
      obtain ⟨h3, h4⟩ := hqfit h1
      exact ⟨h3, by rw [h2, h4, ← hb, List.append_assoc]⟩
    | err q => simp [feeds, hc] at hf
    | noMemory q => simp [feeds, hc] at hf
    | undef => simp [feeds, hc] at hf

/-- `Init` begins the next message. -/
lemma Tracked.init (p : Parser) : Tracked p.init where
  lens := by
    have hlt : (0 : Int) < 2 ^ 31 := by decide
    have hneg : IsInt32 (-1) := by decide
    refine ⟨hneg, fun _ => ⟨le_refl 0, hlt⟩, fun hn => ?_, fun _ => rfl, ?_, ?_⟩
    · exact absurd ⟨Phase.noConfusion, Phase.noConfusion, Phase.noConfusion⟩ hn
    · intro hp
      cases hp
    · intro hp
      cases hp
  unframed := fun _ => rfl
  tracks := fun _ => tracks_init p

/-- A copy within the announced length never gets a negative size. -/
lemma Tracks.feed_ne_undef (h : Tracks p) : Parser.feed E S p c ≠ .undef := by
  intro hf
  rw [Parser.feed] at hf
  split at hf
  · cases hf
  · dsimp only at hf
    split at hf
    · cases hf
    · next hp =>
      split at hf
      · next hle => exact h.left hp hle
      · cases hf
    · split at hf
      · cases hf
      · cases hf
    · unfold Parser.sectionByte at hf
      dsimp only at hf
      split at hf
      · split at hf
        · cases hf
        · cases hf
      · split at hf
        · cases hf
        · cases hf
      · cases hf
      · cases hf

/-- What is left of the parser when a byte of the head or of the trailers ends the connection. -/
lemma sectionByte_stop (hsec : p.InSection) :
    (p.sectionByte E S c = .err p' →
      (p'.history.Fits → p.history.Fits) ∧ p'.InSection) ∧
    (p.sectionByte E S c = .noMemory p' →
      (p'.history.Fits → p.history.Fits) ∧ p'.InSection) := by
  have hstore (q : Parser) (b : Nat) (hq : Steady p q)
      (hqf : Fed.ofParam (Parser.paramByte E S { q with history := q.history.take [c] } b c) = .err p') :
      (p'.history.Fits → p.history.Fits) ∧ p'.InSection := by
    have hstep := paramByte_step E S { q with history := q.history.take [c] } b c
    generalize Parser.paramByte E S { q with history := q.history.take [c] } b c = r at hqf hstep
    obtain ⟨e, p''⟩ := r
    rw [Fed.ofParam.eq_def] at hqf
    cases e with
    | next => cases hqf
    | ended => cases hqf
    | err =>
      cases hqf
      cases hstep with
      | err hs hp =>
        refine ⟨fun hfit => ?_, hp⟩
        have hh : p'.history = p.history.take [c] :=
          hs.history.trans (congrArg (·.take [c]) hq.history)
        exact History.fits_take.mp (hh ▸ hfit)
  have hstep := allocParam_step E p
  unfold Parser.sectionByte
  cases ha : p.allocParam E with
  | param b =>
    refine ⟨hstore p b (.refl p), fun hf => ?_⟩
    dsimp only at hf
    split at hf
    · cases hf
    · cases hf
  | linked b q =>
    obtain ⟨hs, -⟩ := allocParam_linked E p ha
    refine ⟨hstore q b hs, fun hf => ?_⟩
    dsimp only at hf
    split at hf
    · cases hf
    · cases hf
  | null q =>
    refine ⟨fun hf => Fed.noConfusion hf, fun hf => ?_⟩
    cases hf
    rw [ha] at hstep
    cases hstep with
    | null hmem => exact ⟨id, hsec⟩
  | err q =>
    refine ⟨fun hf => ?_, fun hf => Fed.noConfusion hf⟩
    cases hf
    rw [ha] at hstep
    cases hstep with
    | err b hlast hfull hmem hstart => exact ⟨id, hsec⟩

/-- An error stops the parser outside the body. Where the message has ended, it stays so. -/
lemma feed_err (hf : Parser.feed E S p c = .err p') :
    (p'.history.Fits → p.history.Fits) ∧
      ((p.mPhase = .sendingResponse ∧ p' = p.marked c) ∨
        (p'.mPhase ≠ .body ∧ p'.mPhase ≠ .sendingResponse)) := by
  by_cases herase : p.mEraseNextN ∧ c = LF
  · rw [feed_skip herase] at hf
    cases hf
  by_cases hbody : p.mPhase = .body
  · rw [Parser.feed, if_neg herase] at hf
    simp only [hbody] at hf
    split at hf
    · cases hf
    · cases hf
  by_cases hsend : p.mPhase = .sendingResponse
  · rw [feed_sendingResponse herase hsend] at hf
    cases hf
    exact ⟨id, .inl ⟨hsend, rfl⟩⟩
  by_cases hchunk : p.mPhase = .chunkHeader
  · rw [feed_chunkHeader herase hchunk] at hf
    cases hc : Parser.chunkByte { p.marked c with history := p.history.take [c] } c with
    | none =>
      rw [hc] at hf
      cases hf
      exact ⟨History.fits_take.mp, .inr ⟨hbody, hsend⟩⟩
    | some q =>
      rw [hc] at hf
      cases hf
  · have hsec : p.InSection := ⟨hbody, hchunk, hsend⟩
    rw [feed_section herase hsec] at hf
    obtain ⟨hfit, hp⟩ := (sectionByte_stop (p := p.marked c) hsec).1 hf
    exact ⟨hfit, .inr ⟨hp.1, hp.2.2⟩⟩

/-- Memory is asked for in the head and in the trailers. -/
lemma feed_noMemory (hf : Parser.feed E S p c = .noMemory p') :
    (p'.history.Fits → p.history.Fits) ∧ p'.mPhase ≠ .body ∧ p'.mPhase ≠ .sendingResponse := by
  by_cases herase : p.mEraseNextN ∧ c = LF
  · rw [feed_skip herase] at hf
    cases hf
  by_cases hbody : p.mPhase = .body
  · rw [Parser.feed, if_neg herase] at hf
    simp only [hbody] at hf
    split at hf
    · cases hf
    · cases hf
  by_cases hsend : p.mPhase = .sendingResponse
  · rw [feed_sendingResponse herase hsend] at hf
    cases hf
  by_cases hchunk : p.mPhase = .chunkHeader
  · rw [feed_chunkHeader herase hchunk] at hf
    cases hc : Parser.chunkByte { p.marked c with history := p.history.take [c] } c with
    | none =>
      rw [hc] at hf
      cases hf
    | some q =>
      rw [hc] at hf
      cases hf
  · have hsec : p.InSection := ⟨hbody, hchunk, hsend⟩
    rw [feed_section herase hsec] at hf
    obtain ⟨hfit, hp⟩ := (sectionByte_stop (p := p.marked c) hsec).2 hf
    exact ⟨hfit, hp.1, hp.2.2⟩

end Parser

end HTTPDirect

end LowJs
