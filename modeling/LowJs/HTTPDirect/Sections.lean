import LowJs.HTTPDirect.Parser

/-!
# What a byte of the head or of the trailers can do

Most of these bytes change nothing but the parameter blocks and, within a section, the phase. The
exceptions are the end of a header value, which may set the framing, and the blank line.
-/

namespace LowJs.HTTPDirect

namespace Parser

/-- The phases in which entries are collected. -/
def InSection (p : Parser) : Prop :=
  p.mPhase ≠ .body ∧ p.mPhase ≠ .chunkHeader ∧ p.mPhase ≠ .sendingResponse

instance (p : Parser) : Decidable p.InSection := inferInstanceAs (Decidable (_ ∧ _))

/-- `p'` differs from `p` in the parameter blocks and the phase of the section. -/
structure Steady (p p' : Parser) : Prop where
  eraseNextN : p'.mEraseNextN = p.mEraseNextN
  atTrailer : p'.mAtTrailer = p.mAtTrailer
  chunkedEncoding : p'.mChunkedEncoding = p.mChunkedEncoding
  contentLen : p'.mContentLen = p.mContentLen
  dataLen : p'.mDataLen = p.mDataLen
  chunkedHeaderLine : p'.mChunkedHeaderLine = p.mChunkedHeaderLine
  history : p'.history = p.history

@[refl] lemma Steady.refl (p : Parser) : Steady p p := ⟨rfl, rfl, rfl, rfl, rfl, rfl, rfl⟩

@[trans] lemma Steady.trans {p q r : Parser} (h : Steady p q) (h' : Steady q r) : Steady p r where
  eraseNextN := h'.eraseNextN.trans h.eraseNextN
  atTrailer := h'.atTrailer.trans h.atTrailer
  chunkedEncoding := h'.chunkedEncoding.trans h.chunkedEncoding
  contentLen := h'.contentLen.trans h.contentLen
  dataLen := h'.dataLen.trans h.dataLen
  chunkedHeaderLine := h'.chunkedHeaderLine.trans h.chunkedHeaderLine
  history := h'.history.trans h.history

variable (E : Env) (S : Bool) (p : Parser) (b : Nat) (c : UInt8)

@[simp] lemma write_mPhase (i : Int) (v : UInt8) : (p.write b i v).mPhase = p.mPhase := rfl

lemma steady_storeEntry : Steady p (p.storeEntry b) := by
  constructor <;> rfl

@[simp] lemma storeEntry_mPhase : (p.storeEntry b).mPhase = p.mPhase := rfl

lemma steady_storeVersion {p' : Parser} (h : p.storeVersion b = some p') :
    Steady p p' ∧ p'.mPhase = p.mPhase := by
  simp only [storeVersion] at h
  split at h
  · cases h
  · cases h
    exact ⟨by constructor <;> rfl, rfl⟩

lemma steady_storeKey : Steady p (p.storeKey E b) ∧ (p.storeKey E b).mPhase = .headerValue :=
  ⟨by constructor <;> rfl, rfl⟩

lemma steady_storeKeyOnly : Steady p (p.storeKeyOnly b) ∧ (p.storeKeyOnly b).mPhase = p.mPhase :=
  ⟨by constructor <;> rfl, rfl⟩

lemma steady_storeChar (isSpace : Bool) :
    Steady p (p.storeChar S b c isSpace) ∧ (p.storeChar S b c isSpace).mPhase = p.mPhase :=
  ⟨by constructor <;> rfl, rfl⟩

lemma announceLength_eq (value : List UInt8) :
    ∃ h, p.announceLength value = { p with history := h } := by
  unfold announceLength
  split
  · exact ⟨p.history, rfl⟩
  · exact ⟨_, rfl⟩

/-- The value of a framing header has been stored, as far as the framing goes. -/
lemma storeValue_cases :
    (p.storeValue E b).mPhase = .headerKey ∧
    ((p.mIsContentLengthHeader ∧ ∃ value,
        Steady { p.announceLength value with mContentLen := atoi value } (p.storeValue E b)) ∨
      (∃ chunked, Steady { p with mChunkedEncoding := chunked } (p.storeValue E b))) := by
  refine ⟨by simp only [storeValue, storeEntry_mPhase], ?_⟩
  by_cases hl : p.mIsContentLengthHeader
  · refine .inl ⟨hl, (p.write b p.mParamPosNonSpace 0).entryString E b, ?_⟩
    rw [storeValue, if_pos hl]
    refine Steady.trans ?_ (steady_storeEntry _ b)
    by_cases ht : p.mAtTrailer
    · constructor <;> simp [announceLength, write, ht]
    · constructor <;> simp [announceLength, write, ht]
  · refine .inr ?_
    rw [storeValue, if_neg hl]
    by_cases ht : p.mIsTransferEncodingHeader
    · rw [if_pos ht]
      exact ⟨_, Steady.trans (by constructor <;> rfl) (steady_storeEntry _ b)⟩
    · rw [if_neg ht]
      exact ⟨p.mChunkedEncoding, Steady.trans (by constructor <;> rfl) (steady_storeEntry _ b)⟩

/-- A chunk size line has been read, and announces `n` bytes. -/
def announced (n : Int) : Parser :=
  { p with history.now.chunkSizes := p.history.now.chunkSizes ++ [n] }

/-- What a byte of a chunk size line can do. -/
inductive ChunkStep (p : Parser) (c : UInt8) : Option Parser → Prop
  | blank (hc : c = CR ∨ c = LF) (hline : p.mChunkedHeaderLine = []) : ChunkStep p c (some p)
  | char (hc : ¬(c = CR ∨ c = LF)) (hlen : p.mChunkedHeaderLine.length < 10) :
    ChunkStep p c (some { p with mChunkedHeaderLine := p.mChunkedHeaderLine ++ [c] })
  | last (hc : c = CR ∨ c = LF) (hline : p.mChunkedHeaderLine ≠ []) (n : Int)
    (hsize : chunkSize p.mChunkedHeaderLine = some n) (hn : int32 n = 0) :
    ChunkStep p c (some { p.announced n with mPhase := .headerKey })
  | chunk (hc : c = CR ∨ c = LF) (hline : p.mChunkedHeaderLine ≠ []) (n : Int)
    (hsize : chunkSize p.mChunkedHeaderLine = some n) (hn : int32 n ≠ 0) :
    ChunkStep p c (some { p.announced n with
      mContentLen := int32 (p.mContentLen + int32 n)
      mPhase := .body })
  | tooLong (hlen : p.mChunkedHeaderLine.length = 10) : ChunkStep p c none
  | unreadable (hc : c = CR ∨ c = LF) (hline : p.mChunkedHeaderLine ≠ [])
    (hsize : chunkSize p.mChunkedHeaderLine = none) : ChunkStep p c none

lemma chunkByte_step (hlen : p.mChunkedHeaderLine.length ≤ 10) :
    ChunkStep p c (p.chunkByte c) := by
  by_cases h10 : p.mChunkedHeaderLine.length = 10
  · rw [chunkByte, if_pos h10]
    exact .tooLong h10
  · by_cases hc : c = CR ∨ c = LF
    · by_cases hline : p.mChunkedHeaderLine = []
      · rw [chunkByte, if_neg h10, if_pos hc, if_pos hline]
        exact .blank hc hline
      · cases hsize : chunkSize p.mChunkedHeaderLine with
        | none =>
          have hscan : sscanfX (p.mChunkedHeaderLine.takeWhile (· ≠ 0)) = none := by
            rw [sscanfX, ← chunkSize, hsize]
            rfl
          rw [chunkByte, if_neg h10, if_pos hc, if_neg hline, hscan]
          exact .unreadable hc hline hsize
        | some n =>
          have hscan : sscanfX (p.mChunkedHeaderLine.takeWhile (· ≠ 0)) = some (int32 n) := by
            rw [sscanfX, ← chunkSize, hsize]
            rfl
          have hann : p.announceChunk = p.announced n := by
            rw [announceChunk, hsize]
            rfl
          rw [chunkByte, if_neg h10, if_pos hc, if_neg hline, hscan]
          dsimp only
          rw [hann]
          split
          · next hn => exact .last hc hline n hsize hn
          · next hn => exact .chunk hc hline n hsize hn
    · rw [chunkByte, if_neg h10, if_neg hc]
      exact .char hc (by omega)

lemma ChunkStep.frame {p p' : Parser} {c : UInt8} (h : ChunkStep p c (some p'))
    (hp : p.mPhase ≠ .sendingResponse) :
    p'.mAtTrailer = p.mAtTrailer ∧ p'.mPhase ≠ .sendingResponse := by
  cases h with
  | blank _ _ => exact ⟨rfl, hp⟩
  | char _ _ => exact ⟨rfl, hp⟩
  | last _ _ n _ _ => exact ⟨rfl, by simp⟩
  | chunk _ _ n _ _ => exact ⟨rfl, by simp⟩

/-- The blank line ends the message behind the trailers, and the head before them. -/
lemma endSection_cases :
    (p.mAtTrailer ∧ (p.endSection b).mPhase = .sendingResponse ∧
      Steady p { p.endSection b with mPhase := p.mPhase }) ∨
    (¬p.mAtTrailer ∧ ∃ contentLen phase line,
      Steady
        { p with
          mAtTrailer := true
          mContentLen := contentLen
          mChunkedHeaderLine := line
          history.framing := some p.selectFraming }
        (p.endSection b) ∧
      (p.endSection b).mPhase = phase ∧
      ((p.mChunkedEncoding ∧ contentLen = 0 ∧ phase = .chunkHeader ∧ line = []) ∨
        (¬p.mChunkedEncoding ∧ contentLen = p.bodyLen ∧ contentLen ≠ 0 ∧ phase = .body ∧
          line = p.mChunkedHeaderLine) ∨
        (¬p.mChunkedEncoding ∧ contentLen = p.bodyLen ∧ contentLen = 0 ∧
          phase = .sendingResponse ∧ line = p.mChunkedHeaderLine))) := by
  by_cases ht : p.mAtTrailer
  · have heq : p.endSection b =
        { p.write b (p.mParamStart - 1) 0 with mPhase := .sendingResponse } := if_pos ht
    rw [heq]
    exact .inl ⟨ht, rfl, by constructor <;> rfl⟩
  · refine .inr ⟨ht, ?_⟩
    by_cases hc : p.mChunkedEncoding
    · have heq : p.endSection b =
          { p.write b (p.mParamStart - 1) 0 with
            history.framing := some p.selectFraming
            mAtTrailer := true
            mPhase := .chunkHeader
            mChunkedHeaderLine := []
            mContentLen := 0 } := (if_neg ht).trans (if_pos hc)
      rw [heq]
      exact ⟨0, .chunkHeader, [], by constructor <;> rfl, rfl, .inl ⟨hc, rfl, rfl, rfl⟩⟩
    · by_cases h0 : p.bodyLen = 0
      · have heq : p.endSection b =
            { p.write b (p.mParamStart - 1) 0 with
              history.framing := some p.selectFraming
              mAtTrailer := true
              mContentLen := p.bodyLen
              mPhase := .sendingResponse } :=
          (if_neg ht).trans ((if_neg hc).trans (if_neg (not_not.mpr h0)))
        rw [heq]
        exact ⟨p.bodyLen, .sendingResponse, _, by constructor <;> rfl, rfl,
          .inr (.inr ⟨hc, rfl, h0, rfl, rfl⟩)⟩
      · have heq : p.endSection b =
            { p.write b (p.mParamStart - 1) 0 with
              history.framing := some p.selectFraming
              mAtTrailer := true
              mContentLen := p.bodyLen
              mPhase := .body } :=
          (if_neg ht).trans ((if_neg hc).trans (if_pos h0))
        rw [heq]
        exact ⟨p.bodyLen, .body, _, by constructor <;> rfl, rfl,
          .inr (.inl ⟨hc, rfl, h0, rfl, rfl⟩)⟩

/-- The end of a section terminates the block. -/
lemma endSection_blocks :
    (p.endSection b).heap = (p.write b (p.mParamStart - 1) 0).heap ∧
      (p.endSection b).mParamFirst = p.mParamFirst ∧ (p.endSection b).mParamLast = p.mParamLast ∧
      (p.endSection b).mEraseNextN = p.mEraseNextN ∧ (p.endSection b).mAtTrailer = true := by
  unfold endSection
  by_cases ht : (p.write b (p.mParamStart - 1) 0).mAtTrailer
  · rw [if_pos ht]
    exact ⟨rfl, rfl, rfl, rfl, ht⟩
  · rw [if_neg ht]
    dsimp only
    split
    · exact ⟨rfl, rfl, rfl, rfl, rfl⟩
    · split
      · exact ⟨rfl, rfl, rfl, rfl, rfl⟩
      · exact ⟨rfl, rfl, rfl, rfl, rfl⟩

/-- What a byte can do outside the body and the chunk size lines. -/
inductive ParamStep (E : Env) (p : Parser) (b : Nat) (c : UInt8) : ParamExit → Parser → Prop
  | next {p' : Parser} (hs : Steady p p') (hp : p.InSection → p'.InSection) :
    ParamStep E p b c .next p'
  | value (hv : p.mPhase = .headerValue) : ParamStep E p b c .next (p.storeValue E b)
  | err {p' : Parser} (hs : Steady p p') (hp : p'.InSection) : ParamStep E p b c .err p'
  | ended (hk : p.mPhase = .headerKey) (hpos : p.mParamStart = p.mParamPos)
    (hc : c = LF ∨ p.mEraseNextN) : ParamStep E p b c .ended (p.endSection b)

/-- What follows from `storeVersion`. -/
def versionExit (p : Parser) (b : Nat) : ParamExit × Parser :=
  match p.storeVersion b with
  | none => (.err, p)
  | some p => (.next, p)

lemma paramByte_step :
    ParamStep E p b c (p.paramByte E S b c).1 (p.paramByte E S b c).2 := by
  have hchar (c' : UInt8) (sp : Bool) : ParamStep E p b c .next (p.storeChar S b c' sp) := by
    obtain ⟨hs, hp⟩ := steady_storeChar S p b c' sp
    exact .next hs (by simp [InSection, hp])
  have hchar (c' : UInt8) (sp : Bool) (r : ParamExit × Parser)
      (hr : r = (.next, p.storeChar S b c' sp)) : ParamStep E p b c r.1 r.2 := by
    rw [hr]
    exact hchar c' sp
  have hversion (q : Parser) (hq : Steady p q) (hqp : q.InSection) (r : ParamExit × Parser)
      (hr : r = q.versionExit b) :
      ParamStep E p b c r.1 r.2 := by
    cases hv : q.storeVersion b with
    | none =>
      rw [hr, versionExit, hv]
      exact .err hq hqp
    | some q' =>
      rw [hr, versionExit, hv]
      obtain ⟨hs, hp⟩ := steady_storeVersion q b hv
      exact .next (hq.trans hs) fun _ => by simpa [InSection, hp] using hqp
  simp only [paramByte]
  obtain ⟨c', hc'⟩ : ∃ c', c' = if p.mEraseNextN then LF else c := ⟨_, rfl⟩
  rw [← hc']
  split
  · exact .next (Steady.refl p) id
  · split
    · -- first part of the first line
      split
      · split
        · refine .next (Steady.trans ?_ (steady_storeEntry _ b)) fun _ => ?_
          · constructor <;> rfl
          · simp [InSection]
        · refine hversion { p with mPhase := .firstLine2 } ?_ (by simp [InSection]) _ rfl
          constructor <;> rfl
      · exact hchar _ _ _ rfl
    · -- second part
      split
      · refine .next (Steady.trans ?_ (steady_storeEntry _ b)) fun _ => ?_
        · constructor <;> rfl
        · simp [InSection]
      · exact hchar _ _ _ rfl
    · -- third part
      split
      · split
        · refine hversion { p with mPhase := .headerKey } ?_ (by simp [InSection]) _ rfl
          constructor <;> rfl
        · refine .next (Steady.trans ?_ (steady_storeEntry _ b)) fun _ => ?_
          · constructor <;> rfl
          · simp [InSection]
      · exact hchar _ _ _ rfl
    · -- header values
      next hv =>
      split
      · exact .value hv
      · exact hchar _ _ _ rfl
    · -- header names
      next hk =>
      split
      · obtain ⟨hs, hp⟩ := steady_storeKey E p b
        exact .next hs fun _ => by simp [InSection, hp]
      · split
        · next hlf =>
          split
          · next hpos =>
            refine .ended hk hpos ?_
            by_cases he : p.mEraseNextN
            · exact .inr he
            · exact .inl (by simpa [he, hlf, eq_comm] using hc')
          · obtain ⟨hs, hp⟩ := steady_storeKeyOnly p b
            exact .next hs (by simp [InSection, hp])
        · exact hchar _ _ _ rfl
    · exact hchar _ _ _ rfl

lemma ParamStep.next_section {p p' : Parser} {b : Nat} {c : UInt8} {e : ParamExit}
    (h : ParamStep E p b c e p') (he : e = .next) (hp : p.InSection) :
    p'.mAtTrailer = p.mAtTrailer ∧ p'.InSection := by
  cases h with
  | next hs hsec => exact ⟨hs.atTrailer, hsec hp⟩
  | value hv =>
    obtain ⟨hphase, ⟨-, value, hs⟩ | ⟨chunked, hs⟩⟩ := storeValue_cases E p b
    · refine ⟨?_, by simp [InSection, hphase]⟩
      obtain ⟨hist, hann⟩ := announceLength_eq p value
      rw [hs.atTrailer, hann]
    · exact ⟨hs.atTrailer, by simp [InSection, hphase]⟩
  | err hs hp => cases he
  | ended hk hpos hc => cases he

/-- The type of a block that is allocated now. -/
def blockType : ParamDataType := if p.mAtTrailer then .trailer else .header

/-- The first block of a list. -/
def firstBlock (mem : Int → UInt8) : Parser :=
  { p with
    allocs := p.allocs + 1
    heap := Function.update p.heap p.allocs ⟨none, p.blockType, mem⟩
    mParamFirst := some p.allocs
    mParamLast := some p.allocs
    mParamPos := 1
    mParamPosNonSpace := 1
    mParamStart := 1 }

/-- What the allocation step can do. -/
inductive AllocStep (E : Env) (p : Parser) : AllocExit → Prop
  | param (b : Nat) (hlast : p.mParamLast = some b) (hfit : p.mParamPos + 2 < E.sizeofData) :
    AllocStep E p (.param b)
  | first (mem : Int → UInt8) (hlast : p.mParamLast = none)
    (hmem : E.lowAlloc p.allocs = some mem) : AllocStep E p (.linked p.allocs (p.firstBlock mem))
  | spill (b : Nat) (mem : Int → UInt8) (hlast : p.mParamLast = some b)
    (hfull : E.sizeofData ≤ p.mParamPos + 2) (hmem : E.lowAlloc p.allocs = some mem)
    (hstart : p.mParamStart ≠ 1) :
    AllocStep E p (.linked p.allocs (p.spill p.allocs p.blockType mem b))
  | null (hmem : E.lowAlloc p.allocs = none) :
    AllocStep E p (.null { p with allocs := p.allocs + 1 })
  | err (b : Nat) (hlast : p.mParamLast = some b) (hfull : E.sizeofData ≤ p.mParamPos + 2)
    (hmem : (E.lowAlloc p.allocs).isSome) (hstart : p.mParamStart = 1) :
    AllocStep E p (.err { p with allocs := p.allocs + 1 })

lemma allocParam_step : AllocStep E p (p.allocParam E) := by
  cases hlast : p.mParamLast with
  | none =>
    cases hmem : E.lowAlloc p.allocs with
    | none =>
      have heq : p.allocParam E = .null { p with allocs := p.allocs + 1 } := by
        simp [allocParam, hlast, hmem]
      rw [heq]
      exact .null hmem
    | some mem =>
      have heq : p.allocParam E = .linked p.allocs (p.firstBlock mem) := by
        simp [allocParam, hlast, hmem, firstBlock, blockType]
      rw [heq]
      exact .first mem hlast hmem
  | some b =>
    by_cases hfull : E.sizeofData ≤ p.mParamPos + 2
    · cases hmem : E.lowAlloc p.allocs with
      | none =>
        have heq : p.allocParam E = .null { p with allocs := p.allocs + 1 } := by
          simp [allocParam, hlast, hmem, hfull]
        rw [heq]
        exact .null hmem
      | some mem =>
        by_cases hstart : p.mParamStart = 1
        · have heq : p.allocParam E = .err { p with allocs := p.allocs + 1 } := by
            simp [allocParam, hlast, hmem, hfull, hstart]
          rw [heq]
          exact .err b hlast hfull (by simp [hmem]) hstart
        · have heq : p.allocParam E = .linked p.allocs (p.spill p.allocs p.blockType mem b) := by
            simp [allocParam, hlast, hmem, hfull, hstart, blockType]
          rw [heq]
          exact .spill b mem hlast hfull hmem hstart
    · have heq : p.allocParam E = .param b := by simp [allocParam, hlast, hfull]
      rw [heq]
      exact .param b hlast (by omega)

/-- A new block leaves everything but the blocks as it is. -/
lemma allocParam_linked {b : Nat} {p' : Parser} (h : p.allocParam E = .linked b p') :
    Steady p p' ∧ p'.mPhase = p.mPhase := by
  have hstep := allocParam_step E p
  rw [h] at hstep
  cases hstep with
  | first mem hlast hmem => exact ⟨by constructor <;> rfl, rfl⟩
  | spill b mem hlast hfull hmem hstart => exact ⟨by constructor <;> rfl, rfl⟩

end Parser

end LowJs.HTTPDirect
