import LowJs.HTTPDirect.Collect
import LowJs.HTTPDirect.Loop

/-!
# The bytes of a head, one by one

For each kind of byte of a head: what feeding it does, as long as the block has room.
-/

namespace LowJs.HTTPDirect

namespace Parser

variable {E : Env} {S : Bool} {p : Parser} {b : Nat} {c : UInt8}

/-- The bytes are fed, none of them is part of the body, and the parser becomes `p'`. -/
structure Feeds (E : Env) (S : Bool) (p : Parser) (bs : List UInt8) (p' : Parser) : Prop where
  fed : feeds E S p bs = .next p'
  noBody : bodyOf E S p bs = []

lemma Feeds.refl (p : Parser) : Feeds E S p [] p := ⟨rfl, rfl⟩

lemma Feeds.trans {q r : Parser} {bs cs : List UInt8} (h : Feeds E S p bs q)
    (h' : Feeds E S q cs r) : Feeds E S p (bs ++ cs) r where
  fed := by rw [feeds_append h.fed, h'.fed]
  noBody := by rw [bodyOf_append h.fed, h.noBody, h'.noBody, List.append_nil]

lemma Feeds.of_feed {q : Parser} (h : feed E S p c = .next q) (hpart : p.bodyPart c = []) :
    Feeds E S p [c] q where
  fed := by rw [feeds_cons h, feeds_nil]
  noBody := by rw [bodyOf_cons h, hpart, bodyOf_nil, List.append_nil]

lemma Feeds.split {r : Parser} {bs cs : List UInt8} (h : Feeds E S p (bs ++ cs) r) :
    ∃ q, Feeds E S p bs q ∧ Feeds E S q cs r := by
  induction bs generalizing p with
  | nil => exact ⟨p, Feeds.refl p, h⟩
  | cons c bs ih =>
    cases hc : feed E S p c with
    | next q =>
      have hfed := h.fed
      have hbody := h.noBody
      rw [List.cons_append, feeds_cons hc] at hfed
      rw [List.cons_append, bodyOf_cons hc, List.append_eq_nil_iff] at hbody
      obtain ⟨q', hq, hr⟩ := ih ⟨hfed, hbody.2⟩
      exact ⟨q', (Feeds.of_feed hc hbody.1).trans hq, hr⟩
    | err q => exact absurd h.fed (by simp [feeds, hc])
    | noMemory q => exact absurd h.fed (by simp [feeds, hc])
    | undef => exact absurd h.fed (by simp [feeds, hc])

/-- The parser as a byte of a section finds it. -/
def entered (p : Parser) (c : UInt8) : Parser :=
  { p.marked c with history := p.history.take [c] }

/-- A byte of a section that the current block has room for. -/
lemma Feeds.of_paramByte (hsec : p.InSection) (herase : p.mEraseNextN = false)
    (hlast : p.mParamLast = some b) (hfit : p.mParamPos + 2 < E.sizeofData) {e : ParamExit}
    {q : Parser} (he : e ≠ .err) (h : paramByte E S (p.entered c) b c = (e, q)) :
    Feeds E S p [c] q := by
  have halloc : (p.marked c).allocParam E = .param b := by
    have hlast' : (p.marked c).mParamLast = some b := hlast
    have hfit' : ¬E.sizeofData ≤ (p.marked c).mParamPos + 2 := by
      change ¬E.sizeofData ≤ p.mParamPos + 2
      omega
    simp [allocParam, hlast', hfit']
  refine Feeds.of_feed ?_ (if_neg fun h => hsec.1 h.1)
  rw [feed_section (by simp [herase]) hsec, sectionByte, halloc]
  dsimp only
  rw [show { p.marked c with history := (p.marked c).history.take [c] } = p.entered c from rfl, h]
  cases e with
  | next => rfl
  | ended => rfl
  | err => exact absurd rfl he

/-- A LF behind a CR is skipped. -/
lemma Feeds.skip (herase : p.mEraseNextN = true) :
    Feeds E S p [LF] { p with mEraseNextN := false, history := p.history.skip } := by
  refine Feeds.of_feed (feed_skip ⟨herase, rfl⟩) (if_neg ?_)
  simp [herase]

/-! ### What `paramByte` does, phase by phase -/

lemma paramByte_skip (hpos : p.mParamStart = p.mParamPos) (hc : isBlank c) :
    paramByte E S p b c = (.next, p) := if_pos ⟨hpos, .inl hc⟩

/-- A byte that neither ends the entry nor stands before it. -/
lemma paramByte_char (hsec : p.InSection) (herase : p.mEraseNextN = false) (hcr : c ≠ CR)
    (hlf : c ≠ LF) (hskip : ¬(p.mParamStart = p.mParamPos ∧ isBlank c))
    (hblank : p.mPhase = .firstLine1 ∨ p.mPhase = .firstLine2 → ¬isBlank c)
    (hcolon : p.mPhase = .headerKey → c ≠ 58) :
    paramByte E S p b c = (.next, p.storeChar S b c (isBlank c)) := by
  have hnot : ¬(p.mParamStart = p.mParamPos ∧
      (isBlank c ∨ ((c = CR ∨ c = LF) ∧ p.mPhase = .firstLine1))) := by
    rintro ⟨h, hb | ⟨hb | hb, -⟩⟩
    · exact hskip ⟨h, hb⟩
    · exact hcr hb
    · exact hlf hb
  refine (if_neg hnot).trans ?_
  simp only [herase, Bool.false_eq_true, if_false]
  obtain ⟨h1, h2, h3⟩ := hsec
  cases hp : p.mPhase with
  | firstLine1 => exact if_neg (hblank (.inl hp))
  | firstLine2 => exact if_neg (hblank (.inr hp))
  | firstLine3 => exact if_neg hlf
  | headerValue => exact if_neg hlf
  | headerKey => exact (if_neg (hcolon hp)).trans (if_neg hlf)
  | body => exact absurd hp h1
  | chunkHeader => exact absurd hp h2
  | sendingResponse => exact absurd hp h3

/-- The blank behind the first part of the first line. -/
lemma paramByte_firstLine1 (hp : p.mPhase = .firstLine1) (hpos : p.mParamStart ≠ p.mParamPos) :
    paramByte E S p b SP =
      if S then
        (.next, storeEntry
          { p.write b p.mParamPosNonSpace 0 with
            mPhase := .firstLine2
            mNoBodyDefault := noBodyMethods.contains
              ((p.write b p.mParamPosNonSpace 0).entryString E b) } b)
      else
        match storeVersion { p with mPhase := .firstLine2 } b with
        | none => (.err, { p with mPhase := .firstLine2 })
        | some p => (.next, p) := by
  refine (if_neg fun h => hpos h.1).trans ?_
  simp only [hp]
  rfl

/-- The blank behind the second part of the first line. -/
lemma paramByte_firstLine2 (hp : p.mPhase = .firstLine2) (hpos : p.mParamStart ≠ p.mParamPos) :
    paramByte E S p b SP = (.next, storeEntry { p with mPhase := .firstLine3 } b) := by
  refine (if_neg fun h => hpos h.1).trans ?_
  simp only [hp]
  rfl

/-- Behind the first part of the first line only blanks are skipped in front of an entry. -/
lemma not_skipped {c : UInt8} (hc : isBlank c = false) (hp : p.mPhase ≠ .firstLine1) :
    ¬(p.mParamStart = p.mParamPos ∧ (isBlank c ∨ ((c = CR ∨ c = LF) ∧ p.mPhase = .firstLine1))) := by
  rintro ⟨-, h | ⟨-, h⟩⟩
  · simp [hc] at h
  · exact hp h

/-- The end of the first line. -/
lemma paramByte_firstLine3 (hp : p.mPhase = .firstLine3) (herase : p.mEraseNextN = true) :
    paramByte E S p b CR =
      if S then
        match storeVersion { p with mPhase := .headerKey } b with
        | none => (.err, { p with mPhase := .headerKey })
        | some p => (.next, p)
      else (.next, storeEntry { p with mPhase := .headerKey } b) := by
  refine (if_neg (not_skipped (by decide) (by simp [hp]))).trans ?_
  simp only [hp, herase, if_true] <;> rfl

/-- The colon behind a header name. -/
lemma paramByte_colon (hp : p.mPhase = .headerKey) (herase : p.mEraseNextN = false) :
    paramByte E S p b 58 = (.next, p.storeKey E b) := by
  refine (if_neg (not_skipped (by decide) (by simp [hp]))).trans ?_
  simp only [hp, herase, Bool.false_eq_true, if_false, if_true]

/-- The end of a header line. -/
lemma paramByte_value (hp : p.mPhase = .headerValue) (herase : p.mEraseNextN = true) :
    paramByte E S p b CR = (.next, p.storeValue E b) := by
  refine (if_neg (not_skipped (by decide) (by simp [hp]))).trans ?_
  simp only [hp, herase, if_true]

/-- The blank line. -/
lemma paramByte_blankLine (hp : p.mPhase = .headerKey) (herase : p.mEraseNextN = true)
    (hpos : p.mParamStart = p.mParamPos) :
    paramByte E S p b CR = (.ended, p.endSection b) := by
  refine (if_neg (not_skipped (by decide) (by simp [hp]))).trans ?_
  simp only [hp, herase, if_true, hpos]
  rfl

/-! ### The fields that the framing comes from -/

/-- The fields that the framing of the body is selected from, and the two that say which header
the value belongs to. -/
structure Settings where
  mChunkedEncoding : Bool
  mContentLen : Int
  mNoBodyDefault : Bool
  mIsContentLengthHeader : Bool
  mIsTransferEncodingHeader : Bool

def settings (p : Parser) : Settings :=
  ⟨p.mChunkedEncoding, p.mContentLen, p.mNoBodyDefault, p.mIsContentLengthHeader,
    p.mIsTransferEncodingHeader⟩

/-- The name of a header is known. -/
def Settings.key (st : Settings) (name : List UInt8) : Settings :=
  { st with
    mIsContentLengthHeader := name == bytes "content-length"
    mIsTransferEncodingHeader :=
      !(name == bytes "content-length") && name == bytes "transfer-encoding" }

/-- The value of a header is known. -/
def Settings.value (st : Settings) (value : List UInt8) : Settings :=
  if st.mIsContentLengthHeader then { st with mContentLen := atoi value }
  else if st.mIsTransferEncodingHeader then
    { st with mChunkedEncoding := containsIgnoreCase value (bytes "chunked") }
  else st

/-- The method of a request is known. -/
def Settings.method (st : Settings) (name : List UInt8) : Settings :=
  { st with mNoBodyDefault := noBodyMethods.contains name }

lemma settings_storeVersion {p' : Parser} (h : p.storeVersion b = some p') :
    p'.settings = p.settings := by
  simp only [storeVersion] at h
  split at h
  · cases h
  · cases h
    rfl

lemma settings_storeValue {value : List UInt8}
    (hv : (p.write b p.mParamPosNonSpace 0).entryString E b = value) :
    (p.storeValue E b).settings = p.settings.value value := by
  rw [storeValue, Settings.value]
  by_cases hl : p.mIsContentLengthHeader
  · obtain ⟨hist, hann⟩ := announceLength_eq (p.write b p.mParamPosNonSpace 0)
      ((p.write b p.mParamPosNonSpace 0).entryString E b)
    rw [if_pos hl, if_pos (c := p.settings.mIsContentLengthHeader = true) hl]
    dsimp only
    rw [hann, hv]
    rfl
  · rw [if_neg hl, if_neg (c := p.settings.mIsContentLengthHeader = true) hl]
    by_cases ht : p.mIsTransferEncodingHeader
    · rw [if_pos ht, if_pos (c := p.settings.mIsTransferEncodingHeader = true) ht, ← hv]
      rfl
    · rw [if_neg ht, if_neg (c := p.settings.mIsTransferEncodingHeader = true) ht]
      rfl

/-- The framing of the body that the parser reads behind the head. -/
def bodyFraming (p : Parser) : Framing :=
  match p.mPhase with
  | .chunkHeader => .chunked
  | .body => if p.mContentLen < 0 then .untilClose else .length p.mContentLen
  | _ => .length 0

/-- The framing that the blank line selects. -/
def Settings.framing (st : Settings) : Framing :=
  if st.mChunkedEncoding then .chunked
  else if st.mContentLen = -1 ∧ st.mNoBodyDefault then .length 0
  else if st.mContentLen < 0 then .untilClose
  else .length st.mContentLen

lemma bodyFraming_endSection (ht : p.mAtTrailer = false) :
    (p.endSection b).bodyFraming = p.settings.framing := by
  obtain ⟨htr, -⟩ | ⟨-, len, ph, line, hs, hph, hcases⟩ := endSection_cases p b
  · simp [ht] at htr
  · have hlen : (p.endSection b).mContentLen = len := hs.contentLen
    have hsel (hc : ¬p.mChunkedEncoding) : p.settings.framing =
        if p.bodyLen = 0 then .length 0
        else if p.bodyLen < 0 then .untilClose else .length p.bodyLen := by
      simp only [Settings.framing, settings, bodyLen, hc]
      by_cases hno : p.mContentLen = -1 ∧ p.mNoBodyDefault
      · simp [hno]
      · by_cases h0 : p.mContentLen = 0
        · simp [h0]
        · simp [hno, h0]
    rw [bodyFraming, hph, hlen]
    rcases hcases with ⟨hc, -, rfl, -⟩ | ⟨hc, rfl, hne, rfl, -⟩ | ⟨hc, rfl, h0, rfl, -⟩
    · exact (if_pos hc).symm
    · rw [hsel hc, if_neg hne]
    · rw [hsel hc, if_pos h0]

/-! ### Collecting a text -/

/-- The parser collects the head in the block `b`: the entries `done`, and `cur` so far. -/
structure HeadAt (p : Parser) (b : Nat) (phase : Phase) (done : List (List UInt8))
    (cur : List UInt8) : Prop where
  phase : p.mPhase = phase
  erase : p.mEraseNextN = false
  trailer : p.mAtTrailer = false
  collecting : Collecting p b .header done cur

variable {ph : Phase} {done : List (List UInt8)} {cur : List UInt8}

def Phase.IsHead (ph : Phase) : Prop :=
  ph ≠ .body ∧ ph ≠ .chunkHeader ∧ ph ≠ .sendingResponse

lemma HeadAt.inSection (h : HeadAt p b ph done cur) (hph : Phase.IsHead ph) : p.InSection := by
  rw [InSection, h.phase]
  exact hph

lemma HeadAt.entered (h : HeadAt p b ph done cur) (c : UInt8) :
    (p.entered c).mPhase = ph ∧ Collecting (p.entered c) b .header done cur :=
  ⟨h.phase, h.collecting.congr rfl rfl rfl rfl rfl rfl⟩

lemma entered_erase (hsec : p.InSection) : (p.entered c).mEraseNextN = decide (c = CR) := by
  simp [Parser.entered, marked, hsec.1]

lemma HeadAt.pos_le (h : HeadAt p b ph done cur) {size : Int}
    (hfit : 1 + span done + cur.length + 2 < size) : p.mParamPos + 2 < size := by
  have h1 := h.collecting.start
  have h2 := h.collecting.pos
  omega

/-- The bytes of an entry as they come in: blanks before it are skipped. -/
def collectText (f : UInt8 → UInt8) : List UInt8 → List UInt8 → List UInt8
  | cur, [] => cur
  | cur, c :: cs =>
    if cur = [] ∧ isBlank c then collectText f [] cs else collectText f (cur ++ [f c]) cs

lemma collectText_of_ne {f : UInt8 → UInt8} {cur : List UInt8} (h : cur ≠ []) (cs : List UInt8) :
    collectText f cur cs = cur ++ cs.map f := by
  induction cs generalizing cur with
  | nil => simp [collectText]
  | cons c cs ih =>
    rw [collectText, if_neg (fun h' => h h'.1), ih (by simp)]
    simp

lemma collectText_nil (f : UInt8 → UInt8) (cs : List UInt8) :
    collectText f [] cs = (cs.dropWhile isBlank).map f := by
  induction cs with
  | nil => rfl
  | cons c cs ih =>
    by_cases hc : isBlank c
    · rw [collectText, if_pos ⟨rfl, hc⟩, ih, List.dropWhile_cons_of_pos hc]
    · rw [collectText, if_neg (fun h => hc h.2), List.nil_append, collectText_of_ne (by simp),
        List.dropWhile_cons_of_neg hc]
      rfl

lemma length_le_collectText (f : UInt8 → UInt8) (cur cs : List UInt8) :
    cur.length ≤ (collectText f cur cs).length := by
  cases hcur : cur with
  | nil => simp
  | cons c cur' =>
    rw [collectText_of_ne (by simp)]
    simp

/-- The bytes that neither end a line nor, in the phase, an entry. -/
def EntryChar (ph : Phase) (c : UInt8) : Prop :=
  c ≠ CR ∧ c ≠ LF ∧ (ph = .firstLine1 ∨ ph = .firstLine2 → ¬isBlank c) ∧ (ph = .headerKey → c ≠ 58)

lemma HeadAt.char (h : HeadAt p b ph done cur) (hph : Phase.IsHead ph) (hc : EntryChar ph c)
    (hfit : 1 + span done + cur.length + 2 < E.sizeofData) :
    ∃ p', Feeds E S p [c] p' ∧
      HeadAt p' b ph done
        (if cur = [] ∧ isBlank c then [] else cur ++ [storedChar S ph c]) ∧
      p'.settings = p.settings := by
  obtain ⟨hcr, hlf, hblank, hcolon⟩ := hc
  have hsec := h.inSection hph
  obtain ⟨hphase, hcol⟩ := h.entered c
  have herase : (p.entered c).mEraseNextN = false := by simp [entered_erase hsec, hcr]
  have hsec' : (p.entered c).InSection := by
    rw [InSection, hphase]
    exact hph
  have hfeed {q : Parser} (hq : paramByte E S (p.entered c) b c = (.next, q)) :
      Feeds E S p [c] q :=
    Feeds.of_paramByte hsec h.erase h.collecting.last (h.pos_le hfit) (by simp) hq
  have hempty : (p.entered c).mParamStart = (p.entered c).mParamPos ↔ cur = [] := by
    have := hcol.pos
    rw [← List.length_eq_zero_iff]
    omega
  by_cases hskip : cur = [] ∧ isBlank c
  · rw [if_pos hskip]
    obtain ⟨rfl, hb⟩ := hskip
    exact ⟨_, hfeed (paramByte_skip (hempty.mpr rfl) hb), ⟨hphase, herase, h.trailer, hcol⟩, rfl⟩
  · rw [if_neg hskip]
    refine ⟨_, hfeed (paramByte_char hsec' herase hcr hlf ?_ ?_ ?_),
      ⟨hphase, herase, h.trailer, ?_⟩, rfl⟩
    · rwa [hempty]
    · rwa [hphase]
    · rwa [hphase]
    · have := hcol.storeChar (S := S) (c := c)
      rwa [hphase] at this

/-- A text is collected. -/
lemma HeadAt.text (h : HeadAt p b ph done cur) (hph : Phase.IsHead ph) {l : List UInt8}
    (hcs : ∀ c ∈ l, EntryChar ph c)
    (hfit : 1 + span done + (collectText (storedChar S ph) cur l).length + 2 < E.sizeofData) :
    ∃ p', Feeds E S p l p' ∧ HeadAt p' b ph done (collectText (storedChar S ph) cur l) ∧
      p'.settings = p.settings := by
  induction l generalizing p cur with
  | nil => exact ⟨p, Feeds.refl p, h, rfl⟩
  | cons c l ih =>
    have hle : cur.length ≤ (collectText (storedChar S ph) cur (c :: l)).length :=
      length_le_collectText _ _ _
    obtain ⟨p₁, hf, h₁, hst⟩ := h.char (E := E) (S := S) hph (hcs c (by simp)) (by omega)
    have hrec : collectText (storedChar S ph) cur (c :: l) = collectText (storedChar S ph)
        (if cur = [] ∧ isBlank c then [] else cur ++ [storedChar S ph c]) l := by
      rw [collectText]
      split <;> rfl
    rw [hrec] at hfit ⊢
    obtain ⟨p₂, hf₂, h₂, hst₂⟩ := ih h₁ (fun c' hc' => hcs c' (by simp [hc'])) hfit
    exact ⟨p₂, hf.trans hf₂, h₂, hst₂.trans hst⟩

/-! ### Completing an entry -/

lemma Collecting.pos_ne {ty : ParamDataType} (h : Collecting p b ty done cur) (hcur : cur ≠ []) :
    p.mParamStart ≠ p.mParamPos := by
  have h1 := h.pos
  have h2 := List.length_pos_iff.mpr hcur
  omega

lemma rtrim_version {pre : List UInt8} {x y : UInt8} (hy : ¬isBlank y) :
    rtrim (pre ++ [47, x, 46, y]) = pre ++ [47, x, 46, y] := by
  have h : rtrim (pre ++ [47, x, 46] ++ [y]) = pre ++ [47, x, 46] ++ [y] := rtrim_concat_char hy
  simpa using h

/-- The LF that completes a line end. -/
lemma HeadAt.skip {p' : Parser} (hf : Feeds E S p [CR] p') (hphase : p'.mPhase = ph)
    (herase : p'.mEraseNextN = true) (ht : p'.mAtTrailer = false)
    (hcol : Collecting p' b .header done cur) :
    ∃ p'', Feeds E S p [CR, LF] p'' ∧ HeadAt p'' b ph done cur ∧ p''.settings = p'.settings :=
  ⟨_, hf.trans (Feeds.skip herase),
    ⟨hphase, rfl, ht, hcol.congr rfl rfl rfl rfl rfl rfl⟩, rfl⟩

/-- The entry that is completed next. -/
def nextEntry (cur : List UInt8) : List UInt8 := (rtrim cur).take 255

/-- The string that a comparison at the end of an entry sees. -/
lemma HeadAt.entryString (h : HeadAt p b ph done cur) (hnul : ∀ c ∈ cur, c ≠ 0)
    (hfit : 1 + span done + cur.length + 2 < E.sizeofData) (c : UInt8) :
    ((p.entered c).write b (p.entered c).mParamPosNonSpace 0).entryString E b = rtrim cur := by
  have hend := (h.entered c).2.ending
  have hle := (rtrim_isPrefix cur).length_le
  refine hend.entryString (fun c hc => hnul c ((rtrim_isPrefix cur).subset hc)) ?_
  have h1 := hend.start
  have h2 := hend.nonSpace
  omega

lemma HeadAt.colon (h : HeadAt p b .headerKey done cur) (hnul : ∀ c ∈ cur, c ≠ 0)
    (hfit : 1 + span done + cur.length + 2 < E.sizeofData) :
    ∃ p', Feeds E S p [58] p' ∧ HeadAt p' b .headerValue (done ++ [nextEntry cur]) [] ∧
      p'.settings = p.settings.key (rtrim cur) := by
  have hsec := h.inSection (by simp [Phase.IsHead])
  obtain ⟨hphase, hcol⟩ := h.entered 58
  have herase : (p.entered 58).mEraseNextN = false := by
    rw [entered_erase hsec]
    decide
  refine ⟨_, Feeds.of_paramByte hsec h.erase h.collecting.last (h.pos_le hfit) (by simp)
    (paramByte_colon hphase herase), ⟨rfl, ?_, ?_, ?_⟩, ?_⟩
  · exact ((steady_storeKey E _ b).1.eraseNextN).trans herase
  · exact ((steady_storeKey E _ b).1.atTrailer).trans h.trailer
  · exact Ending.storeEntry (hcol.ending.terminate.congr rfl rfl rfl rfl rfl)
  · rw [← h.entryString hnul hfit 58]
    rfl

lemma HeadAt.value (h : HeadAt p b .headerValue done cur) (hnul : ∀ c ∈ cur, c ≠ 0)
    (hfit : 1 + span done + cur.length + 2 < E.sizeofData) :
    ∃ p', Feeds E S p [CR, LF] p' ∧ HeadAt p' b .headerKey (done ++ [nextEntry cur]) [] ∧
      p'.settings = p.settings.value (rtrim cur) := by
  have hsec := h.inSection (by simp [Phase.IsHead])
  obtain ⟨hphase, hcol⟩ := h.entered CR
  have herase : (p.entered CR).mEraseNextN = true := by simp [entered_erase hsec]
  have hfeed : Feeds E S p [CR] _ := Feeds.of_paramByte hsec h.erase h.collecting.last
    (h.pos_le hfit) (by simp) (paramByte_value hphase herase)
  obtain ⟨hnext, hcases⟩ := storeValue_cases E (p.entered CR) b
  have hst : ((p.entered CR).storeValue E b).settings = p.settings.value (rtrim cur) :=
    settings_storeValue (h.entryString hnul hfit CR)
  rw [← hst]
  refine HeadAt.skip hfeed hnext ?_ ?_ hcol.ending.storeValue
  · rcases hcases with ⟨-, value, hs⟩ | ⟨chunked, hs⟩
    · obtain ⟨hist, hann⟩ := announceLength_eq (p.entered CR) value
      rw [hann] at hs
      exact hs.eraseNextN.trans herase
    · exact hs.eraseNextN.trans herase
  · rcases hcases with ⟨-, value, hs⟩ | ⟨chunked, hs⟩
    · obtain ⟨hist, hann⟩ := announceLength_eq (p.entered CR) value
      rw [hann] at hs
      exact hs.atTrailer.trans h.trailer
    · exact hs.atTrailer.trans h.trailer

lemma HeadAt.firstLine2 (h : HeadAt p b .firstLine2 done cur) (hcur : cur ≠ [])
    (hfit : 1 + span done + cur.length + 2 < E.sizeofData) :
    ∃ p', Feeds E S p [SP] p' ∧ HeadAt p' b .firstLine3 (done ++ [nextEntry cur]) [] ∧
      p'.settings = p.settings := by
  have hsec := h.inSection (by simp [Phase.IsHead])
  obtain ⟨hphase, hcol⟩ := h.entered SP
  have herase : (p.entered SP).mEraseNextN = false := by
    rw [entered_erase hsec]
    decide
  refine ⟨_, Feeds.of_paramByte hsec h.erase h.collecting.last (h.pos_le hfit) (by simp)
    (paramByte_firstLine2 hphase (hcol.pos_ne hcur)), ⟨rfl, herase, h.trailer, ?_⟩, rfl⟩
  exact Ending.storeEntry (hcol.ending.congr rfl rfl rfl rfl rfl)

/-- The method of a request. -/
lemma HeadAt.method (h : HeadAt p b .firstLine1 done cur) (hcur : cur ≠ [])
    (hnul : ∀ c ∈ cur, c ≠ 0) (hfit : 1 + span done + cur.length + 2 < E.sizeofData) :
    ∃ p', Feeds E true p [SP] p' ∧ HeadAt p' b .firstLine2 (done ++ [nextEntry cur]) [] ∧
      p'.settings = p.settings.method (rtrim cur) := by
  have hsec := h.inSection (by simp [Phase.IsHead])
  obtain ⟨hphase, hcol⟩ := h.entered SP
  have herase : (p.entered SP).mEraseNextN = false := by
    rw [entered_erase hsec]
    decide
  refine ⟨_, Feeds.of_paramByte hsec h.erase h.collecting.last (h.pos_le hfit) (by simp)
    ((paramByte_firstLine1 hphase (hcol.pos_ne hcur)).trans (if_pos rfl)),
    ⟨rfl, herase, h.trailer, ?_⟩, ?_⟩
  · exact Ending.storeEntry (hcol.ending.terminate.congr rfl rfl rfl rfl rfl)
  · rw [← h.entryString hnul hfit SP]
    rfl

/-- The version of a response. -/
lemma HeadAt.statusVersion {pre : List UInt8} {x y : UInt8} (hpre : pre ≠ [])
    (hy : ¬isBlank y) (h : HeadAt p b .firstLine1 done (pre ++ [47, x, 46, y]))
    (hfit : 1 + span done + (pre ++ [47, x, 46, y]).length + 2 < E.sizeofData) :
    ∃ p', Feeds E false p [SP] p' ∧ HeadAt p' b .firstLine2 (done ++ [[x, 46, y]]) [] ∧
      p'.settings = p.settings := by
  have hsec := h.inSection (by simp [Phase.IsHead])
  obtain ⟨hphase, hcol⟩ := h.entered SP
  have herase : (p.entered SP).mEraseNextN = false := by
    rw [entered_erase hsec]
    decide
  have hend := hcol.ending
  rw [rtrim_version hy] at hend
  obtain ⟨p', hv, hcol', hs, hp⟩ := Ending.storeVersion
    (p := { p.entered SP with mPhase := .firstLine2 }) (hend.congr rfl rfl rfl rfl rfl) hpre
  refine ⟨p', Feeds.of_paramByte hsec h.erase h.collecting.last (h.pos_le hfit) (e := .next)
    (by simp) ((paramByte_firstLine1 hphase (hcol.pos_ne (by simp))).trans ?_),
    ⟨hp, hs.eraseNextN.trans herase, hs.atTrailer.trans h.trailer, hcol'⟩,
    (settings_storeVersion hv).trans rfl⟩
  rw [if_neg (by simp), hv]

/-- The version of a request, at the end of the first line. -/
lemma HeadAt.requestVersion {pre : List UInt8} {x y : UInt8} (hpre : pre ≠ [])
    (hy : ¬isBlank y) (h : HeadAt p b .firstLine3 done (pre ++ [47, x, 46, y]))
    (hfit : 1 + span done + (pre ++ [47, x, 46, y]).length + 2 < E.sizeofData) :
    ∃ p', Feeds E true p [CR, LF] p' ∧ HeadAt p' b .headerKey (done ++ [[x, 46, y]]) [] ∧
      p'.settings = p.settings := by
  have hsec := h.inSection (by simp [Phase.IsHead])
  obtain ⟨hphase, hcol⟩ := h.entered CR
  have herase : (p.entered CR).mEraseNextN = true := by simp [entered_erase hsec]
  have hend := hcol.ending
  rw [rtrim_version hy] at hend
  obtain ⟨p', hv, hcol', hs, hp⟩ := Ending.storeVersion
    (p := { p.entered CR with mPhase := .headerKey }) (hend.congr rfl rfl rfl rfl rfl) hpre
  have hst : p'.settings = p.settings := (settings_storeVersion hv).trans rfl
  rw [← hst]
  refine HeadAt.skip ?_ hp (hs.eraseNextN.trans herase)
    (hs.atTrailer.trans h.trailer) hcol'
  refine Feeds.of_paramByte hsec h.erase h.collecting.last (h.pos_le hfit) (e := .next) (by simp)
    ((paramByte_firstLine3 hphase herase).trans ?_)
  rw [if_pos rfl, hv]

/-- The reason phrase of a response. -/
lemma HeadAt.reason (h : HeadAt p b .firstLine3 done cur)
    (hfit : 1 + span done + cur.length + 2 < E.sizeofData) :
    ∃ p', Feeds E false p [CR, LF] p' ∧ HeadAt p' b .headerKey (done ++ [nextEntry cur]) [] ∧
      p'.settings = p.settings := by
  have hsec := h.inSection (by simp [Phase.IsHead])
  obtain ⟨hphase, hcol⟩ := h.entered CR
  have herase : (p.entered CR).mEraseNextN = true := by simp [entered_erase hsec]
  have hfeed : Feeds E false p [CR] (storeEntry { p.entered CR with mPhase := .headerKey } b) :=
    Feeds.of_paramByte hsec h.erase h.collecting.last (h.pos_le hfit) (e := .next) (by simp)
      ((paramByte_firstLine3 hphase herase).trans (if_neg (by simp)))
  obtain ⟨q, hq, hat, hst⟩ := HeadAt.skip hfeed (show _ = Phase.headerKey from rfl) herase
    h.trailer
    (Ending.storeEntry (hcol.ending.congr rfl rfl rfl rfl rfl))
  exact ⟨q, hq, hat, hst⟩

/-- The head is complete: its only block holds the entries and is terminated behind them. -/
structure HeadDone (p : Parser) (b : Nat) (done : List (List UInt8)) : Prop where
  trailer : p.mAtTrailer = true
  first : p.mParamFirst = some b
  next : (p.heap b).next = none
  type : (p.heap b).type = .header
  entries : Entries (p.heap b).data 0 done
  terminated : (p.heap b).data (span done) = 0

lemma Collecting.endSection (h : Collecting p b .header done []) :
    HeadDone (p.endSection b) b done := by
  obtain ⟨hheap, hfirst, -, -, ht⟩ := endSection_blocks p b
  have hslot : p.mParamStart - 1 = span done := by
    have := h.start
    omega
  have hdata : ((p.endSection b).heap b).data =
      Function.update (p.heap b).data (span done) 0 := by
    rw [hheap, ← hslot]
    exact write_data _ _
  refine ⟨ht, hfirst.trans h.first, ?_, ?_, ?_, ?_⟩
  · rw [hheap]
    exact (write_next _ _).trans h.next
  · rw [hheap]
    exact (write_type _ _).trans h.type
  · rw [hdata]
    exact h.entries.update (.inr (by omega))
  · rw [hdata]
    exact Function.update_self ..

lemma HeadAt.blankLine (h : HeadAt p b .headerKey done [])
    (hfit : 1 + span done + 2 < E.sizeofData) :
    ∃ p', Feeds E S p [CR, LF] p' ∧ HeadDone p' b done ∧ p'.bodyFraming = p.settings.framing := by
  have hsec := h.inSection (by simp [Phase.IsHead])
  obtain ⟨hphase, hcol⟩ := h.entered CR
  have herase : (p.entered CR).mEraseNextN = true := by simp [entered_erase hsec]
  have hpos : (p.entered CR).mParamStart = (p.entered CR).mParamPos := by simpa using hcol.pos.symm
  have hfeed : Feeds E S p [CR] _ := Feeds.of_paramByte hsec h.erase h.collecting.last
    (h.pos_le (by simpa using hfit)) (by simp) (paramByte_blankLine hphase herase hpos)
  have hdone := hcol.endSection
  have he := (endSection_blocks (p.entered CR) b).2.2.2.1
  have ht : (p.entered CR).mAtTrailer = false := h.trailer
  refine ⟨_, hfeed.trans (Feeds.skip (he.trans herase)), ?_, bodyFraming_endSection ht⟩
  exact ⟨hdone.trailer, hdone.first, hdone.next, hdone.type, hdone.entries, hdone.terminated⟩

/-- The first byte of a section gets the first block. -/
lemma Feeds.of_firstBlock {mem : Int → UInt8} (hsec : p.InSection) (herase : p.mEraseNextN = false)
    (hlast : p.mParamLast = none) (hmem : E.lowAlloc p.allocs = some mem)
    (hsize : 3 < E.sizeofData) {cs : List UInt8} {r : Parser}
    (h : Feeds E S (p.firstBlock mem) (c :: cs) r) : Feeds E S p (c :: cs) r := by
  have hlast' : (p.marked c).mParamLast = none := hlast
  have hmem' : E.lowAlloc (p.marked c).allocs = some mem := hmem
  have halloc : (p.marked c).allocParam E = .linked p.allocs ((p.firstBlock mem).marked c) := by
    simp [allocParam, hlast', hmem']
    exact ⟨rfl, rfl⟩
  have halloc' : ((p.firstBlock mem).marked c).allocParam E = .param p.allocs := by
    have hfit : ¬E.sizeofData ≤ ((p.firstBlock mem).marked c).mParamPos + 2 := by
      change ¬E.sizeofData ≤ 1 + 2
      omega
    have hlast'' : ((p.firstBlock mem).marked c).mParamLast = some p.allocs := rfl
    simp [allocParam, hlast'', hfit]
  have hfeed : feed E S p c = feed E S (p.firstBlock mem) c := by
    rw [feed_section (by simp [herase]) hsec, feed_section (p := p.firstBlock mem)
      (fun h => absurd (herase.symm.trans h.1) (by simp)) hsec, sectionByte, sectionByte, halloc,
      halloc']
  have hpart : p.bodyPart c = (p.firstBlock mem).bodyPart c := rfl
  obtain ⟨hfed, hbody⟩ := h
  constructor
  · rw [feeds, hfeed]
    exact hfed
  · rw [bodyOf, hfeed, hpart]
    exact hbody

lemma headAt_firstBlock (mem : Int → UInt8) (hphase : p.mPhase = ph)
    (herase : p.mEraseNextN = false) (ht : p.mAtTrailer = false) :
    HeadAt (p.firstBlock mem) p.allocs ph [] [] := by
  refine ⟨hphase, herase, ht, rfl, rfl, ?_, ?_, trivial, trivial, rfl, rfl, rfl⟩
  · simp [firstBlock]
  · simp [firstBlock, blockType, ht]

end Parser

end LowJs.HTTPDirect
