import LowJs.HTTPDirect.HeadBytes

/-!
# The parser on a chunked body

What the parser does with the chunked coding of a list of buffers. As long as their lengths add up to
less than 2^31 it hands out the buffers and ends the message; the sum of the chunk sizes is an `int`,
and from the chunk on with which it overflows all bytes are taken for the body.
-/

namespace LowJs.HTTPDirect

/-- A chunk: its size line, its data and the line end behind it. -/
def chunk (data : List UInt8) : List UInt8 := hexBytes data.length ++ [CR, LF] ++ data ++ [CR, LF]

/-- The chunked coding of a list of buffers. -/
def chunked (datas : List (List UInt8)) : List UInt8 :=
  datas.flatMap chunk ++ [48, CR, LF, CR, LF]

@[simp] lemma chunked_nil : chunked [] = [48, CR, LF, CR, LF] := rfl

@[simp] lemma chunked_cons (data : List UInt8) (datas : List (List UInt8)) :
    chunked (data :: datas) = chunk data ++ chunked datas := by
  simp [chunked]

namespace Parser

variable {E : Env} {S : Bool} {p p' : Parser} {n : Nat} {line : List UInt8} {c : UInt8}

/-- The pieces are parsed one after another. -/
inductive ParsesAll (E : Env) (S : Bool) : Parser → List (List UInt8) → List UInt8 → Parser → Prop
  | nil (p : Parser) : ParsesAll E S p [] [] p
  | cons {p q r : Parser} {bs body body' : List UInt8} {pieces : List (List UInt8)} :
    Parses E S p bs body q → ParsesAll E S q pieces body' r →
      ParsesAll E S p (bs :: pieces) (body ++ body') r

/-- It does not matter how the bytes are cut. -/
lemma parsesAll_iff {pieces : List (List UInt8)} {body : List UInt8} :
    ParsesAll E S p pieces body p' ↔ Parses E S p pieces.flatten body p' := by
  induction pieces generalizing p body with
  | nil =>
    constructor
    · rintro ⟨⟩
      exact .nil _
    · rintro ⟨hfeeds, hbody⟩
      cases hfeeds
      cases hbody
      exact .nil _
  | cons bs pieces ih =>
    constructor
    · rintro ⟨⟩
      next h h' => exact h.trans (ih.mp h')
    · intro h
      obtain ⟨q, body₁, body₂, rfl, h₁, h₂⟩ := h.split
      exact .cons h₁ (ih.mpr h₂)

/-- The parser has read `line` of a chunk size line, behind `n` bytes of the body. -/
structure AtSize (p : Parser) (n : Nat) (line : List UInt8) : Prop where
  lens : p.LenOk
  phase : p.mPhase = .chunkHeader
  size : p.mChunkedHeaderLine = line
  encoding : p.mChunkedEncoding = true
  trailer : p.mAtTrailer = true
  contentLen : p.mContentLen = n
  dataLen : p.mDataLen = n
  entry : p.mParamLast = none ∨ p.mParamStart = p.mParamPos

/-- The blank line behind a head that announces the chunked coding leads there. -/
lemma atSize_endSection (h : p.LenOk) (hsec : p.InSection) (ht : p.mAtTrailer = false)
    (hc : p.mChunkedEncoding = true) (hpos : p.mParamStart = p.mParamPos) (b : Nat) :
    AtSize (p.endSection b) 0 [] := by
  have hlens := h.endSection hsec b
  have hdata : (p.endSection b).mDataLen = 0 ∧ (p.endSection b).mParamStart = p.mParamStart ∧
      (p.endSection b).mParamPos = p.mParamPos := by
    have h0 := h.head (by simp [ht])
    simp [Parser.endSection, Parser.write, ht, hc, h0]
  have hfields : (p.endSection b).mPhase = .chunkHeader ∧
      (p.endSection b).mChunkedHeaderLine = [] ∧ (p.endSection b).mChunkedEncoding = true ∧
      (p.endSection b).mAtTrailer = true ∧ (p.endSection b).mContentLen = 0 := by
    simp [Parser.endSection, Parser.write, ht, hc]
  obtain ⟨hphase, hline, henc, htr, hcl⟩ := hfields
  obtain ⟨hdl, hst, hp⟩ := hdata
  exact ⟨hlens, hphase, hline, henc, htr, hcl, hdl, .inr (by rw [hst, hp, hpos])⟩

/-- The parser takes everything for the body. -/
structure Endless (p : Parser) : Prop where
  phase : p.mPhase = .body
  contentLen : p.mContentLen < 0

lemma bodyPart_of_ne (h : p.mPhase ≠ .body) : p.bodyPart c = [] := if_neg fun hn => h hn.1

/-- A LF that completes a line end. -/
lemma parses_skip (herase : p.mEraseNextN = true) :
    Parses E S p [LF] [] { p with mEraseNextN := false, history := p.history.skip } := by
  have hfeed := feed_skip (E := E) (S := S) (p := p) (c := LF) ⟨herase, rfl⟩
  have hpart : p.bodyPart LF = [] := if_neg fun hn => hn.2 ⟨herase, rfl⟩
  exact hpart ▸ Parses.of_feed hfeed

lemma AtSize.skip (h : AtSize p n line) (herase : p.mEraseNextN = true) :
    ∃ p', Parses E S p [LF] [] p' ∧ AtSize p' n line := by
  refine ⟨_, parses_skip herase, ?_⟩
  exact ⟨h.lens.congr rfl rfl rfl rfl rfl, h.phase, h.size, h.encoding, h.trailer, h.contentLen,
    h.dataLen, h.entry⟩

/-- A byte of the size line. -/
lemma AtSize.feed (h : AtSize p n line) (hc : c ≠ LF) {q : Parser}
    (hq : chunkByte { p.marked c with history := p.history.take [c] } c = some q) :
    Parses E S p [c] [] q ∧ q.LenOk := by
  have hfeed : Parser.feed E S p c = .next q := by
    rw [feed_chunkHeader (fun hn => hc hn.2) h.phase, hq]
  have hpart : p.bodyPart c = [] := bodyPart_of_ne (by simp [h.phase])
  exact ⟨hpart ▸ Parses.of_feed hfeed, h.lens.feed hfeed⟩

lemma AtSize.digit (h : AtSize p n line) (hc : IsHexDigit c) (hlen : line.length < 10) :
    ∃ p', Parses E S p [c] [] p' ∧ AtSize p' n (line ++ [c]) := by
  obtain ⟨-, -, -, -, -, -, hcr, hlf⟩ := hc.ne
  have hsize : (p.marked c).mChunkedHeaderLine = line := h.size
  have hq : chunkByte { p.marked c with history := p.history.take [c] } c =
      some { p.marked c with
        history := p.history.take [c]
        mChunkedHeaderLine := line ++ [c] } := by
    rw [chunkByte, if_neg (by rw [hsize]; omega), if_neg (by simp [hcr, hlf]), hsize]
  obtain ⟨hparses, hlens⟩ := h.feed hlf hq
  exact ⟨_, hparses, hlens, h.phase, rfl, h.encoding, h.trailer, h.contentLen, h.dataLen, h.entry⟩

lemma AtSize.digits (h : AtSize p n line) {l : List UInt8} (hl : ∀ c ∈ l, IsHexDigit c)
    (hlen : line.length + l.length ≤ 10) :
    ∃ p', Parses E S p l [] p' ∧ AtSize p' n (line ++ l) := by
  induction l generalizing p line with
  | nil => exact ⟨p, .nil p, by simpa using h⟩
  | cons c l ih =>
    simp only [List.length_cons] at hlen
    obtain ⟨p₁, hp₁, h₁⟩ := h.digit (E := E) (S := S) (hl c (by simp)) (by omega)
    obtain ⟨p₂, hp₂, h₂⟩ := ih h₁ (fun c' hc' => hl c' (by simp [hc']))
      (by simp only [List.length_append, List.length_singleton]; omega)
    exact ⟨p₂, hp₁.trans hp₂, by simpa using h₂⟩

/-- The line end behind the data of a chunk. -/
lemma AtSize.blankLine (h : AtSize p n []) : ∃ p', Parses E S p [CR, LF] [] p' ∧ AtSize p' n [] := by
  have hsize : (p.marked CR).mChunkedHeaderLine = [] := h.size
  have hq : chunkByte { p.marked CR with history := p.history.take [CR] } CR =
      some { p.marked CR with history := p.history.take [CR] } := by
    rw [chunkByte, if_neg (by rw [hsize]; simp), if_pos (.inl rfl), if_pos hsize]
  obtain ⟨hparses, hlens⟩ := h.feed (E := E) (S := S) (by decide) hq
  have h₁ : AtSize { p.marked CR with history := p.history.take [CR] } n [] :=
    ⟨hlens, h.phase, h.size, h.encoding, h.trailer, h.contentLen, h.dataLen, h.entry⟩
  obtain ⟨p₂, hp₂, h₂⟩ := h₁.skip (E := E) (S := S) (by simp [marked, h.phase])
  exact ⟨p₂, hparses.trans hp₂, h₂⟩

lemma announceChunk_eq {k : Int} (h : chunkSize p.mChunkedHeaderLine = some k) :
    p.announceChunk = p.announced k := by
  rw [announceChunk, h]
  rfl

/-- A size line that announces `k` bytes. -/
lemma AtSize.sizeLine (h : AtSize p n line) (hline : line ≠ []) (hlen : line.length < 10) {k : Nat}
    (hsize : chunkSize line = some (k : Int)) (hk : k < 2 ^ 31) :
    ∃ p', Parses E S p [CR, LF] [] p' ∧ p'.LenOk ∧ p'.mEraseNextN = false ∧
      p'.mChunkedEncoding = true ∧ p'.mAtTrailer = true ∧ p'.mDataLen = n ∧
      (p'.mParamLast = none ∨ p'.mParamStart = p'.mParamPos) ∧
      p'.mParamLast = p.mParamLast ∧ p'.mParamPos = p.mParamPos ∧
      (if k = 0 then p'.mPhase = .headerKey
        else p'.mPhase = .body ∧ p'.mContentLen = int32 (n + k)) := by
  have hline' : (p.marked CR).mChunkedHeaderLine = line := h.size
  have hk' : int32 k = k := int32_eq ⟨by omega, by omega⟩
  have hscan : sscanfX (line.takeWhile (· ≠ 0)) = some (k : Int) := by
    rw [sscanfX, ← chunkSize, hsize]
    exact congrArg some hk'
  have hann : announceChunk { p.marked CR with history := p.history.take [CR] } =
      announced { p.marked CR with history := p.history.take [CR] } k :=
    announceChunk_eq ((congrArg chunkSize hline').trans hsize)
  have hmarked : (p.marked CR).mEraseNextN = true := by simp [marked, h.phase]
  by_cases h0 : k = 0
  · have hq : chunkByte { p.marked CR with history := p.history.take [CR] } CR =
        some { announced { p.marked CR with history := p.history.take [CR] } k with
          mPhase := .headerKey } := by
      rw [chunkByte, if_neg (by rw [hline']; omega), if_pos (.inl rfl), if_neg (by rw [hline']; exact hline),
        hline', hscan]
      dsimp only
      rw [hann, if_pos (by simp [h0])]
    obtain ⟨hparses, hlens⟩ := h.feed (E := E) (S := S) (by decide) hq
    refine ⟨_, hparses.trans (parses_skip hmarked), hlens.congr rfl rfl rfl rfl rfl, rfl, h.encoding,
      h.trailer, h.dataLen, h.entry, rfl, rfl, ?_⟩
    rw [if_pos h0]
  · have hq : chunkByte { p.marked CR with history := p.history.take [CR] } CR =
        some { announced { p.marked CR with history := p.history.take [CR] } k with
          mContentLen := int32 (p.mContentLen + k)
          mPhase := .body } := by
      rw [chunkByte, if_neg (by rw [hline']; omega), if_pos (.inl rfl), if_neg (by rw [hline']; exact hline),
        hline', hscan]
      dsimp only
      rw [hann, if_neg (by simpa using h0)]
      rfl
    obtain ⟨hparses, hlens⟩ := h.feed (E := E) (S := S) (by decide) hq
    refine ⟨_, hparses.trans (parses_skip hmarked), hlens.congr rfl rfl rfl rfl rfl, rfl, h.encoding,
      h.trailer, h.dataLen, h.entry, rfl, rfl, ?_⟩
    rw [if_neg h0]
    exact ⟨rfl, by rw [h.contentLen]⟩

/-- All further bytes belong to the body. -/
lemma Endless.parses (h : Endless p) (bs : List UInt8) :
    ∃ body p', Parses E S p bs body p' ∧ Endless p' := by
  induction bs generalizing p with
  | nil => exact ⟨[], p, .nil p, h⟩
  | cons c bs ih =>
    have hstep : ∃ q, Parser.feed E S p c = .next q ∧ Endless q := by
      by_cases herase : p.mEraseNextN ∧ c = LF
      · exact ⟨_, feed_skip herase, h.phase, h.contentLen⟩
      · have hneg : ¬(0 ≤ p.mContentLen ∧ p.mContentLen ≤ p.mDataLen) := by
          have := h.contentLen
          omega
        have hopen : (p.marked c).copied [c] = { p.marked c with
            mDataLen := int32 (p.mDataLen + [c].length)
            history := p.history.take [c] } := by
          refine copied_open fun hn => ?_
          have h0 : 0 ≤ p.mContentLen := hn.1
          have := h.contentLen
          omega
        refine ⟨(p.marked c).copied [c], ?_, ?_, ?_⟩
        · refine (if_neg herase).trans ?_
          dsimp only
          rw [h.phase]
          simp [marked, h.phase, hneg]
        · rw [hopen]
          exact h.phase
        · rw [hopen]
          exact h.contentLen
    obtain ⟨q, hfeed, hq⟩ := hstep
    obtain ⟨body, p', hp', h'⟩ := ih hq
    exact ⟨_, p', (Parses.of_feed hfeed).trans hp', h'⟩

/-- A chunk, and what has been announced with it. -/
lemma AtSize.chunk (h : AtSize p n []) {data : List UInt8} (hne : data ≠ [])
    (hlen : data.length < 2 ^ 31) :
    (n + data.length < 2 ^ 31 →
      ∃ p', Parses E S p (chunk data) data p' ∧ AtSize p' (n + data.length) []) ∧
    (n < 2 ^ 31 → 2 ^ 31 ≤ n + data.length →
      ∃ body p', Parses E S p (HTTPDirect.chunk data) body p' ∧ Endless p') := by
  obtain ⟨hdigits, -⟩ := hexBytes_spec data.length
  have hline : (hexBytes data.length).length ≤ 8 := hexBytes_length_le (by decide)
    (hlen.trans_le (by decide))
  obtain ⟨p₁, hp₁, h₁⟩ := h.digits (E := E) (S := S) hdigits (by simp only [List.length_nil]; omega)
  have h0 : data.length ≠ 0 := by simpa using hne
  obtain ⟨p₂, hp₂, hlens, herase, henc, ht, hdl, hentry, -, -, hif⟩ :=
    h₁.sizeLine (E := E) (S := S) (by simpa using hexBytes_ne_nil _)
      (by rw [List.nil_append]; omega) (chunkSize_hexBytes data.length) hlen
  rw [if_neg h0] at hif
  obtain ⟨hphase, hcl⟩ := hif
  constructor
  · intro hsum
    have hcl : p₂.mContentLen = n + data.length := by
      rw [hcl, int32_eq ⟨by omega, by omega⟩]
    obtain ⟨hfeeds, hbody⟩ := feeds_copied (E := E) (S := S) hlens hphase herase hne
      (fun _ => by rw [hdl, hcl])
    have hpos : 0 ≤ p₂.mContentLen := by
      rw [hcl]
      omega
    have hint : int32 (p₂.mDataLen + data.length) = p₂.mContentLen := by
      rw [hdl, hcl, int32_eq ⟨by omega, by omega⟩]
    have hcopied := copied_chunk ⟨hpos, hint⟩ henc
    have h₃ : AtSize (p₂.copied data) (n + data.length) [] := by
      have hlens' : (p₂.copied data).LenOk := hlens.copied hphase fun _ => by rw [hdl, hcl]
      rw [hcopied] at hlens' ⊢
      exact ⟨hlens', rfl, rfl, henc, ht, by simp [hcl], by simp [hint, hcl], hentry⟩
    obtain ⟨p₄, hp₄, h₄⟩ := h₃.blankLine (E := E) (S := S)
    refine ⟨p₄, ?_, h₄⟩
    have hall := (hp₁.trans hp₂).trans ((⟨hfeeds, hbody⟩ : Parses E S p₂ data data _).trans hp₄)
    simpa [HTTPDirect.chunk] using hall
  · intro hn hsum
    have hneg : Endless p₂ := by
      refine ⟨hphase, ?_⟩
      rw [hcl, int32, Int.bmod_def]
      split <;> omega
    obtain ⟨body, p₃, hp₃, h₃⟩ := hneg.parses (E := E) (S := S) (data ++ [CR, LF])
    refine ⟨body, p₃, ?_, h₃⟩
    have hall := (hp₁.trans hp₂).trans hp₃
    simpa [HTTPDirect.chunk] using hall

/-- The chunks of a body. -/
lemma AtSize.chunks (h : AtSize p n []) (hn : n < 2 ^ 31) {datas : List (List UInt8)}
    (hdatas : ∀ d ∈ datas, d ≠ [] ∧ d.length < 2 ^ 31) :
    (n + datas.flatten.length < 2 ^ 31 →
      ∃ p', Parses E S p (datas.flatMap HTTPDirect.chunk) datas.flatten p' ∧
        AtSize p' (n + datas.flatten.length) []) ∧
    (2 ^ 31 ≤ n + datas.flatten.length →
      ∃ body p', Parses E S p (datas.flatMap HTTPDirect.chunk) body p' ∧ Endless p') := by
  induction datas generalizing p n with
  | nil =>
    refine ⟨fun _ => ⟨p, .nil p, by simpa using h⟩, fun hsum => ?_⟩
    simp only [List.flatten_nil, List.length_nil, add_zero] at hsum
    omega
  | cons d datas ih =>
    obtain ⟨hne, hlen⟩ := hdatas d (by simp)
    have hrest : ∀ d' ∈ datas, d' ≠ [] ∧ d'.length < 2 ^ 31 := fun d' hd' => hdatas d' (by simp [hd'])
    obtain ⟨hfit, hover⟩ := h.chunk (E := E) (S := S) hne hlen
    simp only [List.flatten_cons, List.length_append, List.flatMap_cons]
    by_cases hd : n + d.length < 2 ^ 31
    · obtain ⟨p₁, hp₁, h₁⟩ := hfit hd
      obtain ⟨hfit', hover'⟩ := ih h₁ hd hrest
      constructor
      · intro hsum
        obtain ⟨p₂, hp₂, h₂⟩ := hfit' (by omega)
        exact ⟨p₂, hp₁.trans hp₂, by simpa [add_assoc] using h₂⟩
      · intro hsum
        obtain ⟨body, p₂, hp₂, h₂⟩ := hover' (by omega)
        exact ⟨_, p₂, hp₁.trans hp₂, h₂⟩
    · refine ⟨fun hsum => by omega, fun _ => ?_⟩
      obtain ⟨body, p₁, hp₁, h₁⟩ := hover hn (by omega)
      obtain ⟨body', p₂, hp₂, h₂⟩ := h₁.parses (E := E) (S := S) (datas.flatMap HTTPDirect.chunk)
      exact ⟨_, p₂, hp₁.trans hp₂, h₂⟩

/-- The blank line behind the last chunk ends the message. -/
lemma endSection_ended {b : Nat} (ht : p.mAtTrailer = true) :
    (p.endSection b).mPhase = .sendingResponse ∧ (p.endSection b).mEraseNextN = p.mEraseNextN := by
  have heq : p.endSection b =
      { p.write b (p.mParamStart - 1) 0 with mPhase := .sendingResponse } := if_pos ht
  rw [heq]
  exact ⟨rfl, rfl⟩

/-- An entry that has not begun stays so when it gets a block of its own. -/
lemma allocParam_entry (hmem : ∀ k, (E.lowAlloc k).isSome) (hsize : 3 < E.sizeofData)
    (hentry : p.mParamLast = none ∨ p.mParamStart = p.mParamPos) :
    ∃ b q, (p.allocParam E = .param b ∧ q = p ∨ p.allocParam E = .linked b q) ∧
      q.mParamStart = q.mParamPos := by
  have hstep := allocParam_step E p
  cases ha : p.allocParam E with
  | param b =>
    rw [ha] at hstep
    cases hstep with
    | param b hlast hfit => exact ⟨b, p, .inl ⟨rfl, rfl⟩, hentry.resolve_left (by simp [hlast])⟩
  | linked b q =>
    rw [ha] at hstep
    refine ⟨b, q, .inr rfl, ?_⟩
    cases hstep with
    | first mem hlast hmem => rfl
    | spill b mem hlast hfull hmem hstart =>
      have hpos := hentry.resolve_left (by simp [hlast])
      change (1 : Int) = p.mParamPos - (p.mParamStart - 1)
      omega
  | null q =>
    rw [ha] at hstep
    cases hstep with
    | null hnone => exact absurd (hmem p.allocs) (by simp [hnone])
  | err q =>
    rw [ha] at hstep
    cases hstep with
    | err b hlast hfull hmem hstart =>
      have hpos := hentry.resolve_left (by simp [hlast])
      omega

/-- The last chunk, without trailers, ends the message. -/
lemma AtSize.last (h : AtSize p n []) (hmem : ∀ k, (E.lowAlloc k).isSome)
    (hsize : 3 < E.sizeofData) :
    ∃ p', Parses E S p [48, CR, LF, CR, LF] [] p' ∧ p'.mPhase = .sendingResponse := by
  obtain ⟨p₁, hp₁, h₁⟩ := h.digits (E := E) (S := S) (l := [48])
    (by decide +kernel) (by decide)
  obtain ⟨p₂, hp₂, -, herase, -, ht, -, hentry, -, -, hif⟩ :=
    h₁.sizeLine (E := E) (S := S) (by simp) (by simp) (k := 0) (by decide +kernel) (by decide)
  have hphase : p₂.mPhase = .headerKey := by simpa using hif
  have hsec : p₂.InSection := by simp [InSection, hphase]
  -- the CR of the blank line
  obtain ⟨b, q, ha, hpos⟩ := allocParam_entry (p := p₂.marked CR) hmem hsize hentry
  have hq : q.mPhase = .headerKey ∧ q.mEraseNextN = true ∧ q.mAtTrailer = true := by
    have hmarked : (p₂.marked CR).mEraseNextN = true := by simp [marked, hphase]
    rcases ha with ⟨-, rfl⟩ | ha
    · exact ⟨hphase, hmarked, ht⟩
    · obtain ⟨hs, hp⟩ := allocParam_linked E _ ha
      exact ⟨hp.trans hphase, hs.eraseNextN.trans hmarked, hs.atTrailer.trans ht⟩
  obtain ⟨hqp, hqe, hqt⟩ := hq
  obtain ⟨r, hr⟩ : ∃ r, r = endSection { q with history := q.history.take [CR] } b := ⟨_, rfl⟩
  have hfeed : Parser.feed E S p₂ CR = .next r := by
    have hbyte := paramByte_blankLine (E := E) (S := S) (b := b)
      (p := { q with history := q.history.take [CR] }) hqp hqe hpos
    rw [feed_section (fun hn => by simp [herase] at hn) hsec, sectionByte]
    rcases ha with ⟨ha, rfl⟩ | ha
    · rw [ha]
      dsimp only
      rw [hbyte, hr]
    · rw [ha]
      dsimp only
      rw [hbyte, hr]
  obtain ⟨hrp, hre⟩ := endSection_ended (p := { q with history := q.history.take [CR] }) (b := b) hqt
  rw [← hr] at hrp hre
  have hpart : p₂.bodyPart CR = [] := bodyPart_of_ne (by simp [hphase])
  have hp₃ : Parses E S p₂ [CR] [] r := hpart ▸ Parses.of_feed hfeed
  refine ⟨_, ((hp₁.trans hp₂).trans hp₃).trans (parses_skip (hre.trans hqe)), hrp⟩

/-- The chunked coding of a list of buffers reads back as the buffers, and ends the message, exactly
if the lengths add up to less than 2^31. -/
theorem AtSize.chunked_iff (h : AtSize p 0 []) (hmem : ∀ k, (E.lowAlloc k).isSome)
    (hsize : 3 < E.sizeofData) {datas : List (List UInt8)}
    (hdatas : ∀ d ∈ datas, d ≠ [] ∧ d.length < 2 ^ 31) :
    (∃ p', Parses E S p (chunked datas) datas.flatten p' ∧ p'.mPhase = .sendingResponse) ↔
      datas.flatten.length < 2 ^ 31 := by
  obtain ⟨hfit, hover⟩ := h.chunks (E := E) (S := S) (by decide) hdatas
  simp only [zero_add] at hfit hover
  constructor
  · rintro ⟨p', hp', hphase⟩
    by_contra hsum
    obtain ⟨body, p₁, hp₁, h₁⟩ := hover (not_lt.mp hsum)
    obtain ⟨body', p₂, hp₂, h₂⟩ := h₁.parses (E := E) (S := S) [48, CR, LF, CR, LF]
    have heq := hp'.feeds.symm.trans (hp₁.trans hp₂).feeds
    cases heq
    exact absurd (hphase.symm.trans h₂.phase) (by simp)
  · intro hsum
    obtain ⟨p₁, hp₁, h₁⟩ := hfit hsum
    obtain ⟨p₂, hp₂, h₂⟩ := h₁.last (E := E) (S := S) hmem hsize
    exact ⟨p₂, by simpa [chunked] using hp₁.trans hp₂, h₂⟩

end Parser

end LowJs.HTTPDirect
