import LowJs.HTTPDirect.Lengths

/-!
# The lines of the trailer section

Whether a line of the trailers is the blank one that ends them is read off the marks of the parameter
blocks. They tell it from the others as long as no block is taken away in the middle of a line.
-/

open LowJs.HTTPDirect.Parser

namespace LowJs.HTTPDirect

namespace Parser

variable {E : Env} {S : Bool} {p p' : Parser} {b : Nat} {c : UInt8}

/-- No byte of the current entry has been written. -/
def AtEntry (p : Parser) : Prop := p.mParamLast = none ∨ p.mParamStart = p.mParamPos

instance (p : Parser) : Decidable p.AtEntry := inferInstanceAs (Decidable (_ ∨ _))

/-- The current line holds no character but blanks. -/
def LineBlank (p : Parser) : Prop := p.mPhase = .headerKey ∧ p.AtEntry

instance (p : Parser) : Decidable p.LineBlank := inferInstanceAs (Decidable (_ ∧ _))

/-- The marks tell where the trailer section is. -/
structure Lined (p : Parser) : Prop where
  marks : p.mAtTrailer = true → p.mParamLast = none ∨ p.mParamStart ≤ p.mParamPos
  between : p.mAtTrailer = true → ¬p.InSection → p.AtEntry
  names : p.mAtTrailer = true → p.InSection → p.mPhase = .headerKey ∨ p.mPhase = .headerValue
  line : p.mAtTrailer = true → p.InSection → p.history.Fits →
    p.decoder.phase = .trailer (decide p.LineBlank)
  done : p.mPhase = .sendingResponse → p.history.framing = some .chunked → p.history.Fits →
    p.decoder.phase = .complete

/-! ### A byte of the trailers -/

/-- What a byte does to the marks of a line. -/
inductive LineStep (p : Parser) (b : Nat) (c : UInt8) : ParamExit × Parser → Prop
  | within {p' : Parser} (hc : ¬(c = CR ∨ c = LF))
    (hp : p'.mPhase = .headerKey ∨ p'.mPhase = .headerValue) (hlast : p'.mParamLast = p.mParamLast)
    (hle : p'.mParamStart ≤ p'.mParamPos)
    (hblank : (p'.mPhase = .headerKey ∧ p'.mParamStart = p'.mParamPos) ↔
      (p.mPhase = .headerKey ∧ p.mParamStart = p.mParamPos) ∧ isBlank c = true) :
    LineStep p b c (.next, p')
  | last {p' : Parser} (hc : c = CR ∨ c = LF)
    (hline : ¬(p.mPhase = .headerKey ∧ p.mParamStart = p.mParamPos))
    (hp : p'.mPhase = .headerKey) (hlast : p'.mParamLast = p.mParamLast)
    (heq : p'.mParamStart = p'.mParamPos) : LineStep p b c (.next, p')
  | blank (hc : c = CR ∨ c = LF) (hk : p.mPhase = .headerKey)
    (heq : p.mParamStart = p.mParamPos) : LineStep p b c (.ended, p.endSection b)

lemma storeValue_marks (E : Env) (p : Parser) (b : Nat) :
    (p.storeValue E b).mPhase = .headerKey ∧ (p.storeValue E b).mParamLast = p.mParamLast ∧
      (p.storeValue E b).mParamStart = (p.storeValue E b).mParamPos := by
  unfold storeValue announceLength
  dsimp only
  refine ⟨rfl, ?_, rfl⟩
  split
  · split
    · rfl
    · rfl
  · split
    · rfl
    · rfl

lemma paramByte_line (hp : p.mPhase = .headerKey ∨ p.mPhase = .headerValue)
    (hle : p.mParamStart ≤ p.mParamPos) (herase : p.mEraseNextN = decide (c = CR)) :
    LineStep p b c (p.paramByte E S b c) := by
  have hcr : ¬isBlank CR = true := by decide
  have hlf : ¬isBlank LF = true := by decide
  have hcolon : ¬isBlank 58 = true := by decide
  have hfirst : p.mPhase ≠ .firstLine1 := by
    rcases hp with hp | hp <;> simp [hp]
  have hblank : isBlank c = true → ¬(c = CR ∨ c = LF) := by
    rintro h (rfl | rfl)
    · exact hcr h
    · exact hlf h
  by_cases hskip : p.mParamStart = p.mParamPos ∧ isBlank c = true
  · have heq : p.paramByte E S b c = (.next, p) := if_pos ⟨hskip.1, .inl hskip.2⟩
    rw [heq]
    exact .within (hblank hskip.2) hp rfl hle ⟨fun h => ⟨h, hskip.2⟩, fun h => h.1⟩
  have hnot : ¬(p.mParamStart = p.mParamPos ∧
      (isBlank c = true ∨ ((c = CR ∨ c = LF) ∧ p.mPhase = .firstLine1))) := by
    rintro ⟨h1, h2 | ⟨-, h2⟩⟩
    · exact hskip ⟨h1, h2⟩
    · exact hfirst h2
  -- what the byte is taken for
  have hread : (if p.mEraseNextN then LF else c) = if c = CR then LF else c := by
    simp [herase]
  have hend : (if c = CR then LF else c) = LF ↔ c = CR ∨ c = LF := by
    by_cases h : c = CR <;> simp [h]
  have hchar (hc : ¬(c = CR ∨ c = LF)) :
      LineStep p b c (.next, p.storeChar S b c (isBlank c)) := by
    refine .within hc hp rfl (by change p.mParamStart ≤ p.mParamPos + 1; omega) ?_
    constructor
    · rintro ⟨-, h⟩
      have h : p.mParamStart = p.mParamPos + 1 := h
      omega
    · rintro ⟨⟨-, h⟩, hb⟩
      exact absurd ⟨h, hb⟩ hskip
  have hself (hc : ¬(c = CR ∨ c = LF)) : (if c = CR then LF else c) = c :=
    if_neg fun h => hc (.inl h)
  rw [paramByte, if_neg hnot, hread]
  dsimp only
  rcases hp with hk | hv
  · rw [hk]
    dsimp only
    by_cases hc : c = CR ∨ c = LF
    · rw [hend.mpr hc, if_neg (by decide), if_pos rfl]
      split
      · next heq => exact .blank hc hk heq
      · next hne => exact .last hc (fun h => hne h.2) hk rfl rfl
    · rw [hself hc]
      split
      · next hcol =>
        refine .within hc (.inr rfl) rfl (le_refl _) ⟨fun h => ?_, fun h => ?_⟩
        · exact absurd h.1 (by simp [storeKey, storeEntry, write])
        · rw [hcol] at h
          exact absurd h.2 hcolon
      · rw [if_neg fun h => hc (.inr h)]
        exact hchar hc
  · rw [hv]
    dsimp only
    by_cases hc : c = CR ∨ c = LF
    · rw [hend.mpr hc, if_pos rfl]
      obtain ⟨h1, h2, h3⟩ := storeValue_marks E p b
      exact .last hc (fun h => by simp [hv] at h) h1 h2 h3
    · rw [hself hc, if_neg fun h => hc (.inr h)]
      exact hchar hc

lemma endSection_marks : (p.endSection b).mParamLast = p.mParamLast ∧
    (p.endSection b).mParamStart = p.mParamStart ∧ (p.endSection b).mParamPos = p.mParamPos := by
  rw [endSection]
  dsimp only
  split
  · exact ⟨rfl, rfl, rfl⟩
  · split
    · exact ⟨rfl, rfl, rfl⟩
    · split
      · exact ⟨rfl, rfl, rfl⟩
      · exact ⟨rfl, rfl, rfl⟩

/-- The block for the byte is there, and where it is a new one the line goes on in it. -/
lemma sectionByte_stored (hf : p.sectionByte E S c = .next p') :
    ∃ q b e, Steady p q ∧ q.mPhase = p.mPhase ∧ q.mParamLast.isSome = true ∧
      (p.mParamLast = none → q.mParamStart = q.mParamPos) ∧
      (p.mParamLast.isSome = true →
        q.mParamPos - q.mParamStart = p.mParamPos - p.mParamStart) ∧
      paramByte E S { q with history := q.history.take [c] } b c = (e, p') := by
  have hstore (q : Parser) (b : Nat)
      (hqf : Fed.ofParam (Parser.paramByte E S { q with history := q.history.take [c] } b c) = .next p') :
      ∃ e, paramByte E S { q with history := q.history.take [c] } b c = (e, p') := by
    generalize Parser.paramByte E S { q with history := q.history.take [c] } b c = r at hqf
    obtain ⟨e, p''⟩ := r
    rw [Fed.ofParam.eq_def] at hqf
    cases e with
    | next =>
      cases hqf
      exact ⟨_, rfl⟩
    | ended =>
      cases hqf
      exact ⟨_, rfl⟩
    | err => cases hqf
  have hstep := allocParam_step E p
  unfold Parser.sectionByte at hf
  cases ha : p.allocParam E with
  | param b =>
    rw [ha] at hf hstep
    obtain ⟨e, he⟩ := hstore p b hf
    cases hstep with
    | param b hlast hfit =>
      exact ⟨p, b, e, .refl p, rfl, by simp [hlast], fun h => by simp [hlast] at h, fun _ => rfl, he⟩
  | linked b q =>
    rw [ha] at hf hstep
    obtain ⟨e, he⟩ := hstore q b hf
    obtain ⟨hs, hp⟩ := allocParam_linked E p ha
    cases hstep with
    | first mem hlast hmem =>
      exact ⟨_, _, e, hs, hp, rfl, fun _ => rfl, fun h => by simp [hlast] at h, he⟩
    | spill b' mem hlast hfull hmem hstart =>
      refine ⟨_, _, e, hs, hp, ?_, fun h => by simp [hlast] at h, fun _ => ?_, he⟩
      · change p.mParamLast.isSome = true
        simp [hlast]
      · change p.mParamPos - (p.mParamStart - 1) - 1 = p.mParamPos - p.mParamStart
        omega
  | null q =>
    rw [ha] at hf
    cases hf
  | err q =>
    rw [ha] at hf
    cases hf

/-- The decoder at a byte of the trailers. -/
lemma decoder_trailer {blank : Bool} {d : Chunked.Decoder} (hd : d.phase = .trailer blank)
    (hskip : ¬(d.skipLF ∧ c = LF)) :
    (d.step c).phase =
      if c = CR ∨ c = LF then if blank then .complete else .trailer true
      else .trailer (blank && isBlank c) := by
  rw [Chunked.Decoder.step]
  rw [if_neg hskip, hd]

/-- In the trailer section the decoder skips what the parser skips. -/
lemma Tracks.trailer (h : Tracks p) (hsec : p.InSection) (ht : p.mAtTrailer = true) :
    p.history.framing = some .chunked ∧ p.SkipsLF := by
  cases h with
  | head hsec' hnot => exact absurd (ht.symm.trans hnot) (by simp)
  | length n hf hc hcl hdl hskip hpn =>
    rcases hpn with ⟨hp, -⟩ | ⟨hp, -⟩
    · exact absurd hp hsec.1
    · exact absurd hp hsec.2.2
  | untilClose hf hp hc hcl hlen hskip => exact absurd hp hsec.1
  | size hf ht hp hc hd hcl hdl hbody hskip => exact absurd hp hsec.2.1
  | data hf ht hp hc hd hcl hdl hbody hskip => exact absurd hp hsec.1
  | ended hf ht hp hd hskip => exact ⟨hf, hskip⟩

/-- A byte of the trailer section. -/
lemma Lined.trailerByte (h : Lined p) (ht : Tracked p) (htrail : p.mAtTrailer = true)
    (hsec : p.InSection) (herase : ¬(p.mEraseNextN ∧ c = LF))
    (hf : (p.marked c).sectionByte E S c = .next p') : Lined p' := by
  obtain ⟨q, b, e, hs, hqp, hlast, hnew, hold, hparam⟩ := sectionByte_stored hf
  have hh : p'.history = p.history.take [c] :=
    ((sectionByte_step (p := p.marked c) hsec hf).history htrail).1
  have hold (hn : p.mParamLast ≠ none) :
      q.mParamPos - q.mParamStart = p.mParamPos - p.mParamStart :=
    hold (Option.isSome_iff_ne_none.mpr hn)
  have hmarked : q.mEraseNextN = decide (c = CR) := by
    rw [hs.eraseNextN]
    simp [marked, hsec.1]
  have hqk : q.mPhase = .headerKey ∨ q.mPhase = .headerValue := by
    rw [hqp]
    exact h.names htrail hsec
  -- the line stands in the block of `q` as it stood before
  have hentry : p.AtEntry ↔ q.mParamStart = q.mParamPos := by
    by_cases hn : p.mParamLast = none
    · exact ⟨fun _ => hnew hn, fun _ => .inl hn⟩
    · have heq := hold hn
      constructor
      · intro ha
        have := ha.resolve_left hn
        omega
      · intro hq
        exact .inr (by omega)
  have hle : q.mParamStart ≤ q.mParamPos := by
    by_cases hn : p.mParamLast = none
    · exact (hnew hn).le
    · have heq := hold hn
      have := (h.marks htrail).resolve_left hn
      omega
  have hblank : p.LineBlank ↔ q.mPhase = .headerKey ∧ q.mParamStart = q.mParamPos := by
    rw [LineBlank, hentry, hqp]
    rfl
  have hline := paramByte_line (E := E) (S := S) (b := b) (c := c)
    (p := { q with history := q.history.take [c] }) hqk hle hmarked
  rw [hparam] at hline
  -- what the decoder makes of the byte
  have hdec (hfit : p'.history.Fits) :
      p'.decoder.phase =
        if c = CR ∨ c = LF then if decide p.LineBlank then .complete else .trailer true
        else .trailer (decide p.LineBlank && isBlank c) := by
    have hfit : p.history.Fits := History.fits_take.mp (hh ▸ hfit)
    obtain ⟨hframing, hskip⟩ := (ht.tracks hfit).trailer hsec htrail
    rw [decoder_take hframing p' hh]
    refine decoder_trailer (h.line htrail hsec hfit) ?_
    rcases hskip with htail | hskip
    · simp [decoder, htail, Chunked.start]
    · rwa [← hskip]
  have hsec' {r : Parser} (hr : r.mPhase = .headerKey ∨ r.mPhase = .headerValue) :
      r.InSection := by
    rcases hr with hr | hr <;> simp [InSection, hr]
  have hqt : q.mAtTrailer = true := hs.atTrailer.trans htrail
  cases hline with
  | within hc hp' hlast' hle' hblank' =>
    refine ⟨fun _ => .inr hle', fun _ hn => absurd (hsec' hp') hn, fun _ _ => hp',
      fun _ _ hfit => ?_, fun hp => ?_⟩
    · rw [hdec hfit, if_neg hc]
      congr 1
      have hp'last : p'.mParamLast.isSome = true := by
        rw [hlast']
        exact hlast
      have hiff : p'.LineBlank ↔ p.LineBlank ∧ isBlank c = true := by
        rw [hblank, ← hblank', LineBlank, AtEntry]
        constructor
        · rintro ⟨h1, h2⟩
          exact ⟨h1, h2.resolve_left fun hn => by simp [hn] at hp'last⟩
        · rintro ⟨h1, h2⟩
          exact ⟨h1, .inr h2⟩
      rw [decide_eq_decide.mpr hiff, Bool.decide_and]
      simp
    · exact absurd hp (hsec' hp').2.2
  | last hc hnot hp' hlast' heq =>
    refine ⟨fun _ => .inr heq.le, fun _ hn => absurd (hsec' (.inl hp')) hn, fun _ _ => .inl hp',
      fun _ _ hfit => ?_, fun hp => ?_⟩
    · have hline : ¬p.LineBlank := fun hn => hnot (hblank.mp hn)
      rw [hdec hfit, if_pos hc, decide_eq_false hline, if_neg (by simp)]
      congr 1
      exact (decide_eq_true ⟨hp', .inr heq⟩).symm
    · exact absurd hp (hsec' (.inl hp')).2.2
  | blank hc hk heq =>
    have hheq : ({ q with history := q.history.take [c] } : Parser).endSection b =
        { Parser.write { q with history := q.history.take [c] } b (q.mParamStart - 1) 0 with
          mPhase := .sendingResponse } := if_pos hqt
    have hphase : (({ q with history := q.history.take [c] } : Parser).endSection b).mPhase =
        .sendingResponse := by
      rw [hheq]
    obtain ⟨h1, h2, h3⟩ := endSection_marks (p := { q with history := q.history.take [c] }) (b := b)
    have hmark : (({ q with history := q.history.take [c] } : Parser).endSection b).mParamStart =
        (({ q with history := q.history.take [c] } : Parser).endSection b).mParamPos := by
      rw [h2, h3]
      exact heq
    have hin : ¬(({ q with history := q.history.take [c] } : Parser).endSection b).InSection :=
      fun hn => hn.2.2 hphase
    refine ⟨fun _ => .inr hmark.le, fun _ _ => .inr hmark, fun _ hn => absurd hn hin,
      fun _ hn => absurd hn hin, fun _ _ hfit => ?_⟩
    rw [hdec hfit, if_pos hc, decide_eq_true (hblank.mpr ⟨hk, heq⟩), if_pos rfl]

/-- A byte of the head. -/
lemma Lined.headByte (htrail : p.mAtTrailer = false) (hsec : p.InSection)
    (hf : (p.marked c).sectionByte E S c = .next p') : Lined p' := by
  obtain ⟨q, b, e, hs, hqp, -, -, -, hparam⟩ := sectionByte_stored hf
  have hqt : q.mAtTrailer = false := hs.atTrailer.trans htrail
  have hqsec : ({ q with history := q.history.take [c] } : Parser).InSection := by
    have hqp : q.mPhase = p.mPhase := hqp
    simpa [InSection, hqp] using hsec
  have hstep := paramByte_step E S { q with history := q.history.take [c] } b c
  rw [hparam] at hstep
  -- within the head nothing is said
  have hhead {r : Parser} (hr : r.mAtTrailer = false) (hrs : r.InSection) : Lined r := by
    refine ⟨fun hn => ?_, fun hn => ?_, fun hn => ?_, fun hn => ?_, fun hn => absurd hn hrs.2.2⟩
    all_goals exact absurd (hr.symm.trans hn) (by simp)
  cases e with
  | next =>
    obtain ⟨h1, h2⟩ := hstep.next_section E rfl hqsec
    exact hhead (h1.trans hqt) h2
  | err =>
    cases hstep with
    | err hs' hp' => exact hhead (hs'.atTrailer.trans hqt) hp'
  | ended =>
    cases hstep with
    | ended hk hpos hc =>
      obtain ⟨h1, h2, h3⟩ :=
        endSection_marks (p := { q with history := q.history.take [c] }) (b := b)
      have hmark : (({ q with history := q.history.take [c] } : Parser).endSection b).mParamStart =
          (({ q with history := q.history.take [c] } : Parser).endSection b).mParamPos := by
        rw [h2, h3]
        exact hpos
      rcases endSection_cases { q with history := q.history.take [c] } b with
        ⟨ht, -⟩ | ⟨-, contentLen, phase, line, hs', hphase, hcl⟩
      · exact absurd (hqt.symm.trans ht) (by simp)
      · have hout : ¬(({ q with history := q.history.take [c] } : Parser).endSection b).InSection := by
          rintro ⟨hn1, hn2, hn3⟩
          rcases hcl with ⟨-, -, hp, -⟩ | ⟨-, -, -, hp, -⟩ | ⟨-, -, -, hp, -⟩
          · exact hn2 (hphase.trans hp)
          · exact hn1 (hphase.trans hp)
          · exact hn3 (hphase.trans hp)
        refine ⟨fun _ => .inr hmark.le, fun _ _ => .inr hmark, fun _ hn => absurd hn hout,
          fun _ hn => absurd hn hout, fun hp hchunked _ => ?_⟩
        have hsel : ({ q with history := q.history.take [c] } : Parser).selectFraming = .chunked :=
          Option.some.inj ((congrArg History.framing hs'.history).symm.trans hchunked)
        rcases hcl with ⟨-, -, hp', -⟩ | ⟨-, -, -, hp', -⟩ | ⟨hn, -⟩
        · exact absurd (hp.symm.trans (hphase.trans hp')) (by simp)
        · exact absurd (hp.symm.trans (hphase.trans hp')) (by simp)
        · exfalso
          unfold selectFraming at hsel
          rw [if_neg hn] at hsel
          dsimp only at hsel
          split at hsel
          · cases hsel
          · split at hsel
            · cases hsel
            · cases hsel

/-- A byte of a chunk size line. -/
lemma Lined.chunkByte (h : Lined p) (ht : Tracked p) (herase : ¬(p.mEraseNextN ∧ c = LF))
    (hp : p.mPhase = .chunkHeader)
    (hstep : ChunkStep { p.marked c with history := p.history.take [c] } c (some p')) :
    Lined p' := by
  have hout : ¬p.InSection := fun hn => hn.2.1 hp
  have htrail := ht.lens.trailer hout
  have hentry := h.between htrail hout
  have hmarks := h.marks htrail
  cases hstep with
  | blank hcr hnil =>
    exact ⟨fun _ => hmarks, fun _ _ => hentry, fun _ hn => absurd hn hout,
      fun _ hn => absurd hn hout, fun hn => absurd (hp.symm.trans hn) (by simp)⟩
  | char hcr hlen =>
    exact ⟨fun _ => hmarks, fun _ _ => hentry, fun _ hn => absurd hn hout,
      fun _ hn => absurd hn hout, fun hn => absurd (hp.symm.trans hn) (by simp)⟩
  | chunk hcr hne n hsize hn =>
    exact ⟨fun _ => hmarks, fun _ _ => hentry, fun _ hn => absurd rfl hn.1,
      fun _ hn => absurd rfl hn.1, fun hn => by cases hn⟩
  | last hcr hne n hsize hn =>
    refine ⟨fun _ => hmarks, fun _ hn => absurd ?_ hn, fun _ _ => .inl rfl, fun _ _ hfit => ?_,
      fun hn => by cases hn⟩
    · simp [InSection]
    have hfit' : p.history.Fits := History.fits_take.mp hfit.of_announced
    cases ht.tracks hfit' with
    | size hf ht' hp' hc hd hcl hdl hbody hskip =>
      have hf' : (p.history.take [c]).framing = some .chunked := by
        rw [History.take_of_some hf]
        exact hf
      have hskip' : ¬(p.decoder.skipLF ∧ c = LF) := by
        rcases hskip with htail | hskip
        · simp [decoder, htail, Chunked.start]
        · rwa [← hskip]
      obtain ⟨hnonneg, hsum⟩ := hfit.framing .chunked hf'
      have hnow : (p.history.take [c]).now = p.history.now := by rw [History.take_of_some hf]
      simp only [announced, hnow, List.mem_append, List.mem_singleton, List.sum_append,
        List.sum_singleton] at hnonneg hsum
      have h0 := hnonneg n (.inr rfl)
      have hpos : 0 ≤ p.history.now.chunkSizes.sum := List.sum_nonneg fun m hm => hnonneg m (.inl hm)
      have hn0 : n = 0 := by rwa [int32_eq ⟨by omega, by omega⟩] at hn
      have hne : p.mChunkedHeaderLine ≠ [] := hne
      have hsize : chunkSize p.mChunkedHeaderLine = some n := hsize
      have hdec : (decoder { announced { p.marked c with history := p.history.take [c] } n with
          mPhase := .headerKey }) = p.decoder.step c := by
        exact decoder_take hf { p with history := p.history.take [c] } rfl
      have hblank : LineBlank { announced { p.marked c with history := p.history.take [c] } n with
          mPhase := .headerKey } := ⟨rfl, hentry⟩
      rw [hdec, decide_eq_true hblank]
      rw [Chunked.Decoder.step]
      rw [if_neg hskip', hd]
      simp [hcr, Chunked.sizeLine, hne, hsize, hn0]
    | head hsec ht hf htail' hchunks hdl hlen => exact absurd hp hsec.2.1
    | length n hf hc hcl hdl hskip hpn => simp [hp] at hpn
    | untilClose hf hp' hc hcl hlen hskip => exact absurd (hp.symm.trans hp') (by simp)
    | data hf ht hp' hc hd hcl hdl hbody hskip => exact absurd (hp.symm.trans hp') (by simp)
    | ended hf ht hp' hd hskip =>
      rcases hp' with hp' | hp'
      · exact absurd hp hp'.2.1
      · exact absurd (hp.symm.trans hp') (by simp)

/-- A byte of the body. -/
lemma Lined.bodyByte (h : Lined p) (ht : Tracked p) (hp : p.mPhase = .body) :
    Lined ((p.marked c).copied [c]) := by
  have hout : ¬p.InSection := fun hn => hn.1 hp
  have htrail := ht.lens.trailer hout
  have hentry := h.between htrail hout
  have hmarks := h.marks htrail
  have hopen {r : Parser} (hlast : r.mParamLast = p.mParamLast)
      (hstart : r.mParamStart = p.mParamStart) (hpos : r.mParamPos = p.mParamPos)
      (hr : ¬r.InSection) (hdone : r.mPhase = .sendingResponse → r.history.framing = some .chunked →
        r.history.Fits → r.decoder.phase = .complete) : Lined r := by
    refine ⟨fun _ => ?_, fun _ _ => ?_, fun _ hn => absurd hn hr, fun _ hn => absurd hn hr, hdone⟩
    · rw [hlast, hstart, hpos]
      exact hmarks
    · rw [AtEntry, hlast, hstart, hpos]
      exact hentry
  by_cases hend : 0 ≤ (p.marked c).mContentLen ∧
      int32 ((p.marked c).mDataLen + ([c].length : Int)) = (p.marked c).mContentLen
  · by_cases hc : p.mChunkedEncoding = true
    · rw [copied_chunk hend hc]
      exact hopen rfl rfl rfl (fun hn => hn.2.1 rfl) fun hn => by cases hn
    · have hc : p.mChunkedEncoding = false := by simpa using hc
      rw [copied_last hend hc]
      refine hopen rfl rfl rfl (fun hn => hn.2.2 rfl) fun _ hchunked hfit => ?_
      have hfit : p.history.Fits := History.fits_take.mp hfit
      have hchunked : (p.history.take [c]).framing = some .chunked := hchunked
      cases ht.tracks hfit with
      | head hsec ht hf htail' hchunks hdl hlen => exact absurd hp hsec.1
      | length n hf hc' hcl hdl hskip hpn =>
        rw [History.take_of_some hf] at hchunked
        exact absurd (hf.symm.trans hchunked) (by simp)
      | untilClose hf hp' hc' hcl hlen hskip =>
        rw [History.take_of_some hf] at hchunked
        exact absurd (hf.symm.trans hchunked) (by simp)
      | size hf ht hp' hc' hd hcl hdl hbody hskip => exact absurd (hp.symm.trans hp') (by simp)
      | data hf ht hp' hc' hd hcl hdl hbody hskip => exact absurd (hc.symm.trans hc') (by simp)
      | ended hf ht hp' hd hskip =>
        rcases hp' with hp' | hp'
        · exact absurd hp hp'.1
        · exact absurd (hp.symm.trans hp') (by simp)
  · rw [copied_open hend]
    exact hopen rfl rfl rfl (fun hn => hn.1 hp) fun hn => absurd (hp.symm.trans hn) (by simp)

/-- A LF is skipped. -/
lemma Lined.skip (h : Lined p) (ht : Tracked p) (herase : p.mEraseNextN = true) :
    Lined { p with mEraseNextN := false, history := p.history.skip } := by
  have hfits : p.history.skip.Fits → p.history.Fits := by
    rw [History.skip]
    split
    · exact id
    · exact History.fits_take.mp
  have hframing : p.history.skip.framing = p.history.framing := by
    rw [History.skip, History.take]
    split
    · rfl
    · split
      · rfl
      · rfl
  have hdec (hf : p.history.framing = some .chunked) (htail : p.history.tail ≠ []) :
      Chunked.decode p.history.skip.tail = p.decoder.step LF := by
    rw [History.skip]
    rw [if_neg htail]
    exact decoder_take hf { p with history := p.history.take [LF] } rfl
  refine ⟨h.marks, h.between, h.names, fun htrail hsec hfit => ?_, fun hp hchunked hfit => ?_⟩
  · have hfit := hfits hfit
    obtain ⟨hf, hskip⟩ := (ht.tracks hfit).trailer hsec htrail
    have hline := h.line htrail hsec hfit
    by_cases htail : p.history.tail = []
    · have heq : p.history.skip = p.history := if_pos htail
      rw [heq]
      exact hline
    · have hlf : p.decoder.skipLF = true := (hskip.resolve_left htail).symm.trans herase
      have hstep : p.decoder.step LF = { p.decoder with skipLF := false } := if_pos ⟨hlf, rfl⟩
      have hd := hdec hf htail
      rw [hstep] at hd
      rw [decoder, hd]
      exact hline
  · have hchunked : p.history.framing = some .chunked := hframing ▸ hchunked
    have hdone := h.done hp hchunked (hfits hfit)
    by_cases htail : p.history.tail = []
    · have heq : p.history.skip = p.history := if_pos htail
      rw [heq]
      exact hdone
    · rw [decoder, hdec hchunked htail]
      rw [Chunked.Decoder.step]
      split
      · exact hdone
      · rw [hdone]

/-- Every byte that the parser takes leaves the marks where the decoder is. -/
theorem Lined.feed (h : Lined p) (ht : Tracked p) (hf : feed E S p c = .next p') : Lined p' := by
  cases feed_taking ht.lens hf with
  | skip herase => exact h.skip ht herase.1
  | body herase hp => exact h.bodyByte ht hp
  | chunk herase hp hstep => exact h.chunkByte ht herase hp hstep
  | entry herase hsec hf =>
    by_cases htrail : p.mAtTrailer = true
    · exact h.trailerByte ht htrail hsec herase hf
    · exact Lined.headByte (by simpa using htrail) hsec hf

/-- The same for a list of bytes. -/
theorem Lined.parses {bs body : List UInt8} (h : Lined p) (ht : Tracked p)
    (hp : Parses E S p bs body p') : Lined p' := by
  have hpair : Tracked p' ∧ Lined p' := by
    obtain ⟨hf, -⟩ := hp
    induction bs generalizing p with
    | nil =>
      cases hf
      exact ⟨ht, h⟩
    | cons c bs ih =>
      cases hc : Parser.feed E S p c with
      | next q =>
        rw [feeds_cons hc] at hf
        exact ih (h.feed ht hc) (ht.feed hc).1 hf
      | err q => simp [feeds, hc] at hf
      | noMemory q => simp [feeds, hc] at hf
      | undef => simp [feeds, hc] at hf
  exact hpair.2

lemma Lined.init (p : Parser) : Lined p.init := by
  refine ⟨fun hn => ?_, fun hn => ?_, fun hn => ?_, fun hn => ?_, fun hn => ?_⟩
  all_goals cases hn

/-- Where the parser has reached the end of a message, the message is complete. -/
def Done (p : Parser) : Prop :=
  p.mPhase = .sendingResponse → p.history.Fits →
    ∃ f, p.history.framing = some f ∧ ∀ closed, f.Complete p.history.tail closed

lemma Lined.finished (h : Lined p) (ht : Tracked p) : p.Done := by
  intro hp hfit
  cases ht.tracks hfit with
  | head hsec ht hf htail hchunks hdl hlen => exact absurd hp hsec.2.2
  | length n hf hc hcl hdl hskip hpn =>
    refine ⟨_, hf, fun closed => ?_⟩
    rcases hpn with ⟨hp', -⟩ | ⟨-, hn⟩
    · exact absurd (hp.symm.trans hp') (by simp)
    · change n ≤ p.history.tail.length
      omega
  | untilClose hf hp' hc hcl hlen hskip => exact absurd (hp.symm.trans hp') (by simp)
  | size hf ht hp' hc hd hcl hdl hbody hskip => exact absurd (hp.symm.trans hp') (by simp)
  | data hf ht hp' hc hd hcl hdl hbody hskip => exact absurd (hp.symm.trans hp') (by simp)
  | ended hf ht hp' hd hskip => exact ⟨_, hf, fun _ => h.done hp hf hfit⟩

/-- A byte that is skipped or not makes no difference to the lines. -/
lemma Lined.erase (h : Lined p) (e : Bool) : Lined { p with mEraseNextN := e } :=
  ⟨h.marks, h.between, h.names, h.line, h.done⟩

lemma done_init (p : Parser) : p.init.Done := fun hp => by cases hp

/-- The walk over the blocks empties the list, or leaves its end where it is. -/
lemma takeParams_marks (charLen : UInt8 → Int) (while_ : ParamDataType → Bool) (fuel : Nat) :
    ((takeParams E charLen while_ fuel p).2.mParamLast = none ∨
      (takeParams E charLen while_ fuel p).2.mParamLast = p.mParamLast) ∧
    (takeParams E charLen while_ fuel p).2.mParamStart = p.mParamStart ∧
    (takeParams E charLen while_ fuel p).2.mParamPos = p.mParamPos := by
  induction fuel generalizing p with
  | zero => exact ⟨.inr rfl, rfl, rfl⟩
  | succ fuel ih =>
    rw [takeParams]
    split
    · exact ⟨.inr rfl, rfl, rfl⟩
    · next b _ =>
      split
      · dsimp only
        have hlast : (if (p.heap b).next = none then none else p.mParamLast) = none ∨
            (if (p.heap b).next = none then none else p.mParamLast) = p.mParamLast := by
          split
          · exact .inl rfl
          · exact .inr rfl
        split
        · exact ⟨hlast, rfl, rfl⟩
        · obtain ⟨h1, h2⟩ := @ih { p with
            mParamFirst := (p.heap b).next
            mParamLast := if (p.heap b).next = none then none else p.mParamLast }
          refine ⟨?_, h2⟩
          rcases h1 with h1 | h1
          · exact .inl h1
          · rcases hlast with hlast | hlast
            · exact .inl (h1.trans hlast)
            · exact .inr (h1.trans hlast)
      · exact ⟨.inr rfl, rfl, rfl⟩

/-- Blocks are taken away, but not the beginning of a line. -/
lemma Lined.taken (h : Lined p) (hs : Steady p p') (hp : p'.mPhase = p.mPhase)
    (hlast : p'.mParamLast = none ∨ p'.mParamLast = p.mParamLast)
    (hstart : p'.mParamStart = p.mParamStart) (hpos : p'.mParamPos = p.mParamPos)
    (hbegun : p.mAtTrailer = true → p.mPhase = .headerKey → ¬p.AtEntry → p'.mParamLast ≠ none) :
    Lined p' := by
  have hsec : p'.InSection ↔ p.InSection := by simp [InSection, hp]
  have hentry : p.AtEntry → p'.AtEntry := by
    intro ha
    rcases hlast with hlast | hlast
    · exact .inl hlast
    · rwa [AtEntry, hlast, hstart, hpos]
  have hdec : p'.decoder = p.decoder := by rw [decoder, decoder, hs.history]
  refine ⟨fun ht => ?_, fun ht hn => ?_, fun ht hi => ?_, fun ht hi hfit => ?_,
    fun hd hf hfit => ?_⟩
  · rcases hlast with hlast | hlast
    · exact .inl hlast
    · rw [hlast, hstart, hpos]
      exact h.marks (hs.atTrailer.symm.trans ht)
  · exact hentry (h.between (hs.atTrailer.symm.trans ht) fun hn' => hn (hsec.mpr hn'))
  · rw [hp]
    exact h.names (hs.atTrailer.symm.trans ht) (hsec.mp hi)
  · have ht := hs.atTrailer.symm.trans ht
    rw [hs.history] at hfit
    rw [hdec, h.line ht (hsec.mp hi) hfit]
    congr 1
    refine decide_eq_decide.mpr ⟨fun hb => ⟨hp.trans hb.1, hentry hb.2⟩, fun hb => ?_⟩
    have hk : p.mPhase = .headerKey := hp.symm.trans hb.1
    refine ⟨hk, ?_⟩
    by_contra hn
    have hne := hbegun ht hk hn
    have heq := hlast.resolve_left hne
    rcases hb.2 with hb | hb
    · exact hne hb
    · exact hn (.inr (by rw [← hstart, ← hpos, hb]))
  · rw [hs.history] at hf hfit
    rw [hdec]
    exact h.done (hp.symm.trans hd) hf hfit

lemma Done.congr (h : p.Done) (hs : Steady p p') (hp : p'.mPhase = p.mPhase) : p'.Done := by
  rw [Done, hs.history, hp]
  exact h

end Parser

namespace LowHTTPDirect

variable {E : Env} {s t : LowHTTPDirect}

/-- The ends of messages that have been reported are those of complete messages, as far as the numbers
fit that they and the messages before them announce. -/
def EndsComplete (s : LowHTTPDirect) : Prop :=
  ∀ m ∈ s.rt.ended, m.1.Fits → ∃ f, m.1.framing = some f ∧ f.Complete m.1.tail m.2

/-- The marks are right while the connection is open, and so is the end of the message. -/
structure Ending (s : LowHTTPDirect) : Prop where
  lined : s.mClosed = false → s.rt.undefined = false → s.parser.Lined
  done : s.rt.undefined = false → s.parser.Done
  ended : s.EndsComplete

/-- Nothing happens to the message. -/
lemma Ending.congr (h : Ending s) (hp : t.parser = s.parser) (hc : s.mClosed ≤ t.mClosed)
    (hu : s.rt.undefined ≤ t.rt.undefined) (he : t.rt.ended = s.rt.ended) : Ending t := by
  have hfalse {a b : Bool} (hab : a ≤ b) (hb : b = false) : a = false := by
    rw [hb] at hab
    exact Bool.eq_false_of_le_false hab
  refine ⟨fun hc' hu' => ?_, fun hu' => ?_, ?_⟩
  · rw [hp]
    exact h.lined (hfalse hc hc') (hfalse hu hu')
  · rw [hp]
    exact h.done (hfalse hu hu')
  · rw [EndsComplete, he]
    exact h.ended

lemma Ending.aside (h : Ending s) (ha : Aside s t) : Ending t :=
  h.congr ha.parser ha.closed.ge ha.undefined ha.ended

/-! ### The byte loop -/

/-- What the byte loop leaves of the lines. -/
def LoopLined (exit : Exit) (t : LowHTTPDirect) : Prop :=
  match exit with
  | .next => t.parser.Lined ∧ t.parser.Done
  | .brk => t.parser.Lined ∧ t.parser.Done
  | .undef => True
  | _ => t.parser.Done

lemma Taken.lined {data copied rest : List UInt8} (hs : Loopable s.parser s)
    (hl : s.parser.Lined) {exit : Exit} (h : Taken E s data copied exit t rest) :
    LoopLined exit t := by
  have hfed := h.fed
  have hboth {bs body : List UInt8} {q : Parser} (hp : Parses E s.mIsServer s.parser bs body q) :
      q.Lined ∧ q.Done :=
    have hq := hl.parses hs.tracked hp
    ⟨hq, hq.finished (hs.tracked.parses hp).1⟩
  cases exit with
  | next =>
    obtain ⟨-, -, bs, -, hp⟩ := hfed
    exact hboth hp
  | brk =>
    obtain ⟨-, -, -, bs, c, tl, q, -, -, hp, -, -, hq⟩ := hfed
    obtain ⟨h1, h2⟩ := hboth hp
    change t.parser.Lined ∧ t.parser.Done
    rw [hq]
    exact ⟨h1.erase _, h2⟩
  | err =>
    obtain ⟨-, bs, c, q, -, hp, hfeed⟩ := hfed
    change t.parser.Done
    rcases (feed_err hfeed).2 with ⟨-, heq⟩ | ⟨-, hn⟩
    · rw [heq]
      exact (hboth hp).2
    · exact fun hp => absurd hp hn
  | done =>
    obtain ⟨-, bs, c, q, -, hp, hfeed⟩ := hfed
    exact fun hp => absurd hp (feed_noMemory hfeed).2.2
  | undef => trivial

lemma socketByte_lined (hs : Loopable s.parser s) (hl : s.parser.Lined) (c : UInt8)
    (rest : List UInt8) :
    let r := s.socketByte E c rest
    LoopLined r.1 r.2.1 ∧ r.2.1.rt.ended = s.rt.ended := by
  have hs' : Loopable s.awaiting.parser s.awaiting := ⟨hs.held, hs.tracked, hs.reader, hs.copies⟩
  have hok : s.awaiting.LoopOk :=
    ⟨hs.held, awaiting_responseDone s, hs.reader, hs.tracked.lens⟩
  obtain ⟨copied, htaken, -⟩ := socketByte_taken (E := E) hok c rest
  have hlined := Taken.lined hs' hl htaken
  have hended := congrArg (fun t => t.rt.ended) htaken.frame
  dsimp only at hended ⊢
  rw [socketByte_awaiting hs.tracked.lens]
  generalize s.awaiting.socketByte E c rest = r at hlined hended
  have hresume : LoopLined r.1 (s.resume r.2.1) := by
    cases hr : r.1 <;> rw [hr] at hlined <;> exact hlined
  rw [endRound]
  split
  · next hend =>
    rw [atEnd]
    split
    · rw [hend.1]
      exact ⟨⟨Lined.init _, done_init _⟩, hended⟩
    · exact ⟨hresume, hended⟩
  · exact ⟨hresume, hended⟩

lemma socketLoop_lined (hs : Loopable s.parser s) (hrem : s.reader.mRemainingRead = none)
    (hl : s.parser.Lined) (d : List UInt8) (fuel : Nat) :
    let r := s.socketLoop E fuel d
    LoopLined r.1 r.2.1 ∧ r.2.1.rt.ended = s.rt.ended := by
  refine socketLoop_rule
    (P := fun t _ => (Loopable t.parser t ∧ t.reader.mRemainingRead = none) ∧ t.parser.Lined ∧
      t.rt.ended = s.rt.ended)
    (Q := fun exit t _ => LoopLined exit t ∧ t.rt.ended = s.rt.ended) ?_ ?_ ⟨⟨hs, hrem⟩, hl, rfl⟩
    (met_true s fuel d)
  · rintro t rest ⟨⟨ht, -⟩, htl, hte⟩
    exact ⟨⟨htl, htl.finished ht.tracked⟩, hte⟩
  · rintro t c rest ⟨⟨ht, htrem⟩, htl, hte⟩ -
    obtain ⟨hends, -⟩ := socketByte_ends (E := E) ht htrem c rest
    obtain ⟨hlined, hended⟩ := socketByte_lined (E := E) ht htl c rest
    refine ⟨fun hnext => ?_, fun _ => ⟨hlined, hended.trans hte⟩⟩
    rw [hnext] at hends hlined
    exact ⟨hends, hlined.1, hended.trans hte⟩

/-- The byte loop, and what `SocketData` and its caller do behind it. -/
lemma ending_runLoop (hs : Loopable s.parser s) (hrem : s.reader.mRemainingRead = none)
    (hl : s.parser.Lined) (he : s.EndsComplete) (d : List UInt8) (inLoop : Bool) :
    Ending (continued (s.runLoop E d inLoop)) := by
  obtain ⟨hlined, hended⟩ := socketLoop_lined (E := E) hs hrem hl d d.length
  unfold runLoop
  dsimp only at hlined hended ⊢
  generalize s.socketLoop E d.length d = r at hlined hended ⊢
  obtain ⟨exit, t, rest⟩ := r
  dsimp only at hlined hended ⊢
  have he : t.EndsComplete := by rwa [EndsComplete, hended]
  have htrigger {u : LowHTTPDirect} (b : Bool) (hu : Ending u) : Ending (continued (b, u)) := by
    unfold continued
    split
    · exact hu.congr rfl (le_refl _) (le_refl _) rfl
    · exact hu
  cases exit with
  | next =>
    rw [loopExit, loopDone_eq]
    exact htrigger _ ⟨fun _ _ => hlined.1, fun _ => hlined.2, he⟩
  | brk =>
    rw [loopExit, loopDone_eq]
    exact htrigger _ ⟨fun _ _ => hlined.1, fun _ => hlined.2, he⟩
  | err => exact ⟨fun hc => (by cases hc), fun _ => hlined, he⟩
  | done => exact ⟨fun hc => (by cases hc), fun _ => hlined, he⟩
  | undef => exact ⟨fun _ hu => (by cases hu), fun hu => (by cases hu), he⟩

/-! ### The steps -/

/-- A read that is answered now is told that the message has ended, because the connection has, though
neither all of it has come nor does the connection end it. -/
def CutShort (s : LowHTTPDirect) : Prop :=
  s.reader.mReadPos = 0 ∧ s.mClosed = true ∧ s.parser.mPhase ≠ .sendingResponse ∧
    s.parser.history.framing ≠ some .untilClose

instance (s : LowHTTPDirect) : Decidable s.CutShort := inferInstanceAs (Decidable (_ ∧ _ ∧ _ ∧ _))

/-- This piece of `OnLoop` gets to the read callback. -/
def LoopReads (s : LowHTTPDirect) : Prop :=
  match s.rt.inLoop with
  | none => s.rt.loopQueued = true ∧ s.mRequestCallID ≠ 0
  | some .request => True
  | some .error => True
  | some _ => False

instance (s : LowHTTPDirect) : Decidable s.LoopReads := by
  rw [LoopReads]
  split <;> infer_instance

/-- A line of the trailers has been begun, and the header blocks, with this line in the last of them,
are to be taken away. -/
def LineTaken (E : Env) (s : LowHTTPDirect) : Prop :=
  s.mClosed = false ∧ s.parser.mAtTrailer = true ∧ s.parser.mPhase = .headerKey ∧
    ¬s.parser.AtEntry ∧ (s.parser.takeHeaders E).2.mParamLast = none

instance (E : Env) (s : LowHTTPDirect) : Decidable (s.LineTaken E) :=
  inferInstanceAs (Decidable (_ ∧ _ ∧ _ ∧ _ ∧ _))

/-- The input does not have a read answered with an early end, nor a begun line taken away. -/
def EndsKept (E : Env) (s : LowHTTPDirect) (i : Input) : Prop :=
  s.rt.deleted = false → s.rt.undefined = false →
    match i with
    | .read len =>
      s.mIsRequest = true → s.reader.mReadData = none → s.mSocket = true →
        ¬((s.takeBuffer len).lock.readRemaining E).CutShort
    | .onLoop =>
      s.LoopReads →
        (s.mIsRequest = true → s.reader.mReadCallID ≠ 0 →
          ¬((s.mSocket ∧ s.mReadError) ∨ s.mHTTPError) → ¬s.CutShort) ∧
        (s.mIsRequest = false → ¬s.LineTaken E)
    | _ => True

instance (E : Env) (s : LowHTTPDirect) (i : Input) : Decidable (s.EndsKept E i) := by
  unfold EndsKept
  cases i <;> infer_instance

/-- The report to a read callback. -/
lemma ending_reported (hl : s.mClosed = false → s.parser.Lined) (hd : s.parser.Done)
    (he : s.EndsComplete)
    (hend : s.reader.mReadPos ≠ 0 ∨ s.parser.mPhase = .sendingResponse ∨ s.mClosed)
    (hcut : ¬s.CutShort) (hr : Reported E s t) : Ending t := by
  have htake := steady_takeParams (E := E) (p := s.parser) signedChar (fun _ => true)
    (s.parser.allocs + 2)
  have hmarks := takeParams_marks (E := E) (p := s.parser) signedChar (fun _ => true)
    (s.parser.allocs + 2)
  cases hr with
  | data hpos ha =>
    have h : Ending { s with reader.mReadData := none, reader.mBytesRead := 0 } :=
      ⟨fun hc _ => hl hc, fun _ => hd, he⟩
    exact h.aside ha
  | undefined hpos hp ha hu' =>
    refine ⟨fun _ hn => absurd (hu'.symm.trans hn) (by simp),
      fun hn => absurd (hu'.symm.trans hn) (by simp), ?_⟩
    rw [EndsComplete, ha.ended]
    exact he
  | @ended p trailers hpos hp ha =>
    have hp : takeParams E signedChar (fun _ => true) (s.parser.allocs + 2) s.parser =
        (some trailers, p) := hp
    rw [hp] at htake hmarks
    have hend := hend.resolve_left (by simp [hpos])
    have h : Ending { s with
        parser := p
        reader.mReadData := none
        reader.mBytesRead := 0
        rt.ended := s.rt.ended ++ [(p.history, s.mClosed)] } := by
      refine ⟨fun hc _ => ?_, fun _ => hd.congr htake.1 htake.2, ?_⟩
      · have hc : s.mClosed = false := hc
        have hsend : s.parser.mPhase = .sendingResponse := hend.resolve_right (by simp [hc])
        refine (hl hc).taken htake.1 htake.2 hmarks.1 hmarks.2.1 hmarks.2.2 fun _ hk => ?_
        exact absurd (hsend.symm.trans hk) (by simp)
      · intro m hm hfit
        rcases List.mem_append.mp hm with hm | hm
        · exact he m hm hfit
        · cases List.mem_singleton.mp hm
          have hh : p.history = s.parser.history := htake.1.history
          dsimp only at hfit ⊢
          rw [hh] at hfit ⊢
          by_cases hsend : s.parser.mPhase = .sendingResponse
          · obtain ⟨f, hf, hcomplete⟩ := hd hsend hfit
            exact ⟨f, hf, hcomplete _⟩
          · have hc : s.mClosed = true := hend.resolve_left hsend
            have hclose : s.parser.history.framing = some .untilClose := by
              by_contra hn
              exact hcut ⟨hpos, hc, hsend, hn⟩
            exact ⟨_, hclose, hc⟩
    exact h.aside ha

lemma Ending.clearErrors (h : Ending s) : Ending s.clearErrors := ⟨h.lined, h.done, h.ended⟩

lemma Ending.outcome (h : Ending s) (hcut : ¬s.CutShort) (ho : Outcome E s t) : Ending t := by
  cases ho with
  | undefined hu => exact h
  | report hu hend =>
    exact ending_reported (fun hc => h.lined hc hu) (h.done hu) h.ended hend hcut
      (reportRead_reported s _)
  | error hpos hc herr ha => exact h.clearErrors.aside ha
  | accepted ha => exact h.aside ha

/-- A piece of `OnLoop` that does not get to the read callback. -/
lemma aside_OnLoop (h : ¬s.LoopReads) : Aside s (s.OnLoop E) := by
  rw [OnLoop]
  unfold LoopReads at h
  cases hin : s.rt.inLoop with
  | none =>
    rw [hin] at h
    dsimp only at h ⊢
    split
    · next hq =>
      have hid : s.mRequestCallID = 0 := by
        by_contra hn
        exact h ⟨hq, hn⟩
      rw [onLoopRequest]
      dsimp only
      rw [if_pos hid]
      refine Aside.trans ?_ (aside_loopReturn _)
      split
      · refine Aside.trans ?_ (Aside.detach _)
        constructor <;> rfl
      · constructor <;> rfl
    · exact .refl s
  | some point =>
    rw [hin] at h
    cases point with
    | request => exact absurd trivial h
    | error => exact absurd trivial h
    | read => exact aside_onLoopWrite s
    | write => exact aside_loopReturn s

lemma Ending.looped (h : Ending s) (hdel : s.rt.deleted = false) (hu : s.rt.undefined = false)
    (hok : s.EndsKept E .onLoop) : Ending (s.OnLoop E) := by
  by_cases hreads : s.LoopReads
  · obtain ⟨hcut, hline⟩ := hok hdel hu hreads
    have htake := steady_takeParams (E := E) (p := s.parser) (fun b => b.toNat) (· = .header)
      (s.parser.allocs + 2)
    have hmarks := takeParams_marks (E := E) (p := s.parser) (fun b => b.toNat) (· = .header)
      (s.parser.allocs + 2)
    have hlooped := OnLoop_looped (E := E) s
    generalize s.OnLoop E = t at hlooped
    cases hlooped with
    | aside ha => exact h.aside ha
    | undefined hp ha hu' =>
      refine ⟨fun _ hn => absurd (hu'.symm.trans hn) (by simp),
        fun hn => absurd (hu'.symm.trans hn) (by simp), ?_⟩
      rw [EndsComplete, ha.ended]
      exact h.ended
    | @request _ data p b hreq hfirst htype ht hp ha =>
      have hnot := hline hreq
      rw [LineTaken, hp] at hnot
      have hp : takeParams E (fun b => b.toNat) (· = .header) (s.parser.allocs + 2) s.parser =
          (some data, p) := hp
      rw [hp] at htake hmarks
      have hrequest : Ending { s with parser := p, mIsRequest := true, reader.mBytesRead := 0 } := by
        refine ⟨fun hc _ => ?_, fun _ => (h.done hu).congr htake.1 htake.2, h.ended⟩
        refine (h.lined hc hu).taken htake.1 htake.2 hmarks.1 hmarks.2.1 hmarks.2.2 ?_
        exact fun ht hk hentry hlast => hnot ⟨hc, ht, hk, hentry, hlast⟩
      exact hrequest.aside ha
    | requestError hreq ha => exact h.clearErrors.aside ha
    | error hreq hid herr ha => exact h.clearErrors.aside ha
    | @report u hreq hid herr hend ha =>
      refine ending_reported ?_ ?_ ?_ ?_ ?_ (reportRead_reported u _)
      · rw [ha.closed, ha.parser]
        exact fun hc => h.lined hc hu
      · rw [ha.parser]
        exact h.done hu
      · rw [EndsComplete, ha.ended]
        exact h.ended
      · rw [ha.readPos, ha.closed, ha.parser]
        exact hend
      · rw [CutShort, ha.readPos, ha.closed, ha.parser]
        exact hcut hreq hid herr
  · exact h.aside (aside_OnLoop hreads)

/-- Behind a response that is finished the next message begins. -/
lemma Ending.written (h : Ending s) (hw : Written s t) : Ending t := by
  cases hw with
  | aside ha => exact h.aside ha
  | @init u _ ha hserver hphase hi =>
    have hinit : Ending u.init := by
      refine ⟨fun _ _ => Lined.init _, fun _ => done_init _, ?_⟩
      change u.EndsComplete
      rw [EndsComplete, ha.ended]
      exact h.ended
    exact hinit.aside hi

lemma Ending.received (h : Ending s) {input : SocketInput} (hr : Received E s input t)
    (hdata : ∀ t d, s.looped (.socketRead input) = some (t, d) → d = []) : Ending t := by
  cases hr with
  | ignored => exact h
  | closed hstop he hr ha =>
    refine Ending.aside ?_ ha
    exact h.congr rfl (Bool.le_true _) (le_refl _) rfl
  | data hne hc hl => exact absurd (hdata _ _ hl) hne

/-- A call of `Read` with the bytes that have been kept back. -/
lemma Ending.readRemaining (h : Ending s) (hstage : Stage s) (halive : s.rt.undefined = false)
    {len : Nat} (hlen : len < 2 ^ 31) : Ending ((s.takeBuffer len).lock.readRemaining E) := by
  have hreader : (s.takeBuffer len).reader.Ok := by
    intro buf hbuf
    cases hbuf
    have hlen' : (len : Int) < 2 ^ 31 := by exact_mod_cast hlen
    exact ⟨rfl, Int.natCast_nonneg len, hlen'⟩
  by_cases hkept : s.reader.mRemainingRead = none ∨ s.mClosed
  · rw [readRemaining_kept (s := s.takeBuffer len) hkept]
    exact h.congr rfl (le_refl _) (le_refl _) rfl
  · obtain ⟨hrem, hc⟩ := not_or.mp hkept
    have hc : s.mClosed = false := by simpa using hc
    cases hstage with
    | fed hs hnone => exact absurd hnone hrem
    | stopped hstop hok hs => simp [hc, halive] at hstop
    | kept e c rest hs hbody herase hmarked hcons hread =>
      have heq : (s.takeBuffer len).lock.readRemaining E =
          continued ((s.takeBuffer len).reread.runLoop E (c :: rest) true) :=
        readRemaining_loop (s := s.takeBuffer len) hcons hc
      rw [heq, runLoop_kept (s := (s.takeBuffer len).reread) hbody hmarked herase]
      exact ending_runLoop (s := { (s.takeBuffer len).reread with parser.mEraseNextN := e })
        ⟨rfl, hs.tracked, hreader, hs.copies⟩ rfl ((h.lined hc halive).erase e) h.ended _ _

lemma Ending.step (h : Ending s) (hstage : Stage s) {i : Input} (hok : s.EndsKept E i) :
    Ending (step E s i) := by
  by_cases halive : s.rt.deleted ∨ s.rt.undefined
  · have heq : LowHTTPDirect.step E s i = s := if_pos halive
    rwa [heq]
  simp only [not_or, Bool.not_eq_true] at halive
  obtain ⟨hdel, hund⟩ := halive
  cases i with
  | read len =>
    have hok := hok hdel hund
    rw [step_alive hdel hund]
    dsimp only at hok ⊢
    by_cases hread : s.mIsRequest = true ∧ s.reader.mReadData = none ∧ s.mSocket = true
    · obtain ⟨hreq, hdata, hsock⟩ := hread
      have hrem := h.readRemaining (E := E) hstage hund len.isLt
      rw [Read_eq hreq hdata hsock]
      exact hrem.outcome (hok hreq hdata hsock) (readOutcome_outcome _)
    · rcases Read_cases (E := E) s len with ⟨-, ha⟩ | ⟨hreq, hdata, hsock, -⟩
      · exact h.aside ha
      · exact absurd ⟨hreq, hdata, hsock⟩ hread
  | socketRead input =>
    rw [step_alive hdel hund]
    dsimp only
    by_cases hl : ∃ t c d, s.looped (.socketRead input) = some (t, c :: d)
    · obtain ⟨t, c, d, hl⟩ := hl
      obtain ⟨-, -, -, hc, ⟨len, hi, -⟩ | ⟨hi, hread, hclosed, ht⟩⟩ := looped_cases hl
      · cases hi
      · cases hi
        have heq : s.onEventsRead E (.data (c :: d)) = continued (t.runLoop E (c :: d) false) :=
          onEventsRead_loop hl
        rw [heq]
        cases hstage with
        | fed hs hrem =>
          subst ht
          exact ending_runLoop (s := { s with
            setCallback := false
            rt.mDirectReadEnabled := false
            rt.received := s.rt.received ++ (c :: d) })
            ⟨hs.held, hs.tracked, hs.reader, hs.copies⟩ hrem (h.lined hc hund) h.ended _ _
        | kept e b rest hs hbody herase hmarked hrem hoff => simp [hread] at hoff
        | stopped hstop hok hs => simp [hc, hund] at hstop
    · refine h.received (onEventsRead_received hdel hund input) fun t d hd => ?_
      cases d with
      | nil => rfl
      | cons c d => exact absurd ⟨t, c, d, hd⟩ hl
  | onLoop =>
    rw [step_alive hdel hund]
    exact h.looped hdel hund hok
  | setRequestCallID => exact h.written (step_written s trivial)
  | writeHeaders txt len isChunked results => exact h.written (step_written s trivial)
  | write data results => exact h.written (step_written s trivial)
  | detach => exact h.written (step_written s trivial)
  | socketWrite results => exact h.written (step_written s trivial)

lemma ending_start (isServer : Bool) (u : LowHTTPDirect) : Ending (start isServer u) := by
  refine ⟨fun _ _ => Lined.init _, fun _ => done_init _, fun m hm => ?_⟩
  cases hm

/-- A chunked request with a trailer, which is read to its end. -/
def chunkedRead : List Input :=
  [.setRequestCallID,
    .socketRead (.data (bytes "POST / HTTP/1.1\r\nTransfer-Encoding: chunked\r\n\r\n3\r\nabc")),
    .onLoop, .read 10, .socketRead (.data (bytes "\r\n0\r\nA: b\r\n\r\n")), .read 10]

/-- A request that announces five bytes of body, of which three have come when the connection closes. -/
def closedEarly : List Input :=
  [.setRequestCallID,
    .socketRead (.data (bytes "GET / HTTP/1.1\r\nContent-Length: 5\r\n\r\nabc")), .onLoop,
    .read 10, .socketRead (.data []), .onLoop, .read 10]

end LowHTTPDirect

end LowJs.HTTPDirect
