import LowJs.HTTPDirect.Head

/-!
# The framing that a head selects

The header lines set `mContentLen` and `mChunkedEncoding` one after the other, and the blank line
selects the framing of the body from what is left of them. Against this stands the framing that the
head announces, which asks for the lines as a whole and for what the message answers.
`selectsFraming_iff` says for which heads the two agree.
-/

open LowJs.HTTPDirect.Parser

namespace LowJs.HTTPDirect

/-- The head of a message, with header lines of any length. -/
structure MessageHead where
  start : StartLine
  fields : List Field

/-- The text of a header value names the chunked coding. -/
def namesChunked (value : List UInt8) : Bool := containsIgnoreCase value (bytes "chunked")

/-- 1xx, 204 and 304: the response ends with its head. -/
def isBodilessStatus (code : List UInt8) : Bool :=
  code == bytes "204" || code == bytes "304" || (code.length == 3 && code.head? == some 49)

/-- The message is a response that cannot have a body. `answersHead`: it answers a `HEAD` request,
which the head itself does not say. -/
def StartLine.isBodilessResponse (answersHead : Bool) : StartLine → Bool
  | .request .. => false
  | .status _ _ code _ _ => answersHead || isBodilessStatus code.chars

/-- The message is a request with one of the methods without a body. -/
def StartLine.isBodilessRequest : StartLine → Bool
  | .request method .. => noBodyMethods.contains (method.chars.map toUpper)
  | .status .. => false

/-- The values of the header lines with the name, in order. -/
def valuesOf (name : List UInt8) (fs : List Field) : List (List UInt8) :=
  fs.filterMap fun f => if f.key = name then some (trim f.value) else none

namespace MessageHead

def spell (h : MessageHead) : List UInt8 := h.start.spell ++ h.fields.flatMap Field.spell ++ lineEnd

/-- The collected entries of the head fit in one parameter block. -/
def Fits (size : Int) (h : MessageHead) : Prop :=
  FitsFrom size 1 (h.start.texts ++ h.fields.flatMap Field.texts)

instance (size : Int) (h : MessageHead) : Decidable (h.Fits size) :=
  decidableFitsFrom size 1 (h.start.texts ++ h.fields.flatMap Field.texts)

def contentLengths (h : MessageHead) : List (List UInt8) := valuesOf (bytes "content-length") h.fields

def transferEncodings (h : MessageHead) : List (List UInt8) :=
  valuesOf (bytes "transfer-encoding") h.fields

/-- The framing of the body that the head announces. -/
def framing (answersHead : Bool) (h : MessageHead) : Framing :=
  if h.transferEncodings.any namesChunked then .chunked
  else if h.start.isBodilessResponse answersHead then .length 0
  else
    match h.contentLengths.head? with
    | some value => .length (decimalValue value)
    | none => if h.start.isBodilessRequest then .length 0 else .untilClose

/-- The same head, with its header lines in another order. -/
def Reordered (h h' : MessageHead) : Prop := h'.start = h.start ∧ h'.fields.Perm h.fields

/-- The last Transfer-Encoding line decides: it names the chunked coding if one of them does. -/
def LastDecides (h : MessageHead) : Prop :=
  ∀ value ∈ h.transferEncodings.getLast?, h.transferEncodings.any namesChunked →
    namesChunked value

/-- The announced length is one that `atoi` reads, and a response that cannot have a body says that
it has none. -/
def LengthDecides (answersHead : Bool) (h : MessageHead) : Prop :=
  if h.start.isBodilessResponse answersHead then
    ∃ value ∈ h.contentLengths.head?, atoi value = 0
  else ∀ value ∈ h.contentLengths.head?, 0 ≤ decimalValue value ∧ decimalValue value < 2 ^ 31

/-- The parser finds the announced framing: in each order in which the lines fit in a block the last
Transfer-Encoding line decides, and without the chunked coding the length does. -/
def Decides (size : Int) (answersHead : Bool) (h : MessageHead) : Prop :=
  (∀ h', h.Reordered h' → h'.Fits size → h'.LastDecides) ∧
    (h.transferEncodings.any namesChunked = false → h.LengthDecides answersHead)

end MessageHead

/-- The framing of the body that the parser reads behind the bytes of the head. -/
def Parser.selected (E : Env) (p : Parser) (h : MessageHead) : Option Framing :=
  match feeds E h.start.isServer p h.spell with
  | .next q => some q.bodyFraming
  | _ => none

/-- Behind the head, with its lines in any order, the parser reads the body with the announced
framing. -/
def SelectsFraming (E : Env) (p : Parser) (answersHead : Bool) (h : MessageHead) : Prop :=
  ∀ h', h.Reordered h' → h'.Fits E.sizeofData →
    p.init.selected E h' = some (h.framing answersHead)

/-! ### What the header lines leave -/

lemma valuesOf_concat (name : List UInt8) (fs : List Field) (f : Field) :
    valuesOf name (fs ++ [f]) =
      valuesOf name fs ++ if f.key = name then [trim f.value] else [] := by
  simp only [valuesOf, List.filterMap_append, List.filterMap_cons, List.filterMap_nil]
  by_cases hf : f.key = name
  · simp [hf]
  · simp [hf]

lemma names_ne : bytes "content-length" ≠ bytes "transfer-encoding" := by decide

namespace Parser

variable {st : Settings} {f : Field}

lemma Settings.field_length (hf : f.key = bytes "content-length") :
    st.field f = { st.key f.key with mContentLen := atoi (trim f.value) } := by
  rw [Settings.field, Settings.value]
  exact if_pos (by simp [Settings.key, hf])

lemma Settings.field_encoding (hf : f.key = bytes "transfer-encoding") :
    st.field f = { st.key f.key with mChunkedEncoding := namesChunked (trim f.value) } := by
  have hne : f.key ≠ bytes "content-length" := hf ▸ names_ne.symm
  rw [Settings.field, Settings.value, if_neg (by simp [Settings.key, hne])]
  exact if_pos (by simp [Settings.key, hf, names_ne.symm])

lemma Settings.field_other (hl : f.key ≠ bytes "content-length")
    (ht : f.key ≠ bytes "transfer-encoding") : st.field f = st.key f.key := by
  rw [Settings.field, Settings.value, if_neg (by simp [Settings.key, hl]),
    if_neg (by simp [Settings.key, ht])]

/-- The last line of each of the two headers takes effect. -/
lemma Settings.fields_eq (st : Settings) (fs : List Field) :
    (fs.foldl Settings.field st).mChunkedEncoding =
        (valuesOf (bytes "transfer-encoding") fs).getLast?.elim st.mChunkedEncoding namesChunked ∧
      (fs.foldl Settings.field st).mContentLen =
        (valuesOf (bytes "content-length") fs).getLast?.elim st.mContentLen atoi ∧
      (fs.foldl Settings.field st).mNoBodyDefault = st.mNoBodyDefault := by
  induction fs using List.reverseRecOn with
  | nil => exact ⟨rfl, rfl, rfl⟩
  | append_singleton fs f ih =>
    obtain ⟨hchunked, hlen, hno⟩ := ih
    rw [List.foldl_concat, valuesOf_concat, valuesOf_concat]
    by_cases hl : f.key = bytes "content-length"
    · have ht : f.key ≠ bytes "transfer-encoding" := hl ▸ names_ne
      rw [Settings.field_length hl, if_pos hl, if_neg ht, List.append_nil,
        List.getLast?_concat]
      exact ⟨hchunked, rfl, hno⟩
    · by_cases ht : f.key = bytes "transfer-encoding"
      · rw [Settings.field_encoding ht, if_neg hl, if_pos ht, List.append_nil,
          List.getLast?_concat]
        exact ⟨rfl, hlen, hno⟩
      · rw [Settings.field_other hl ht, if_neg hl, if_neg ht, List.append_nil, List.append_nil]
        exact ⟨hchunked, hlen, hno⟩

end Parser

/-! ### The order of the lines -/

namespace MessageHead

variable {h h' : MessageHead} {answersHead : Bool}

lemma Reordered.refl (h : MessageHead) : h.Reordered h := ⟨rfl, List.Perm.refl _⟩

lemma Reordered.chunked_eq (hr : h.Reordered h') :
    h'.transferEncodings.any namesChunked = h.transferEncodings.any namesChunked := by
  have hperm := hr.2.filterMap
    fun f => if f.key = bytes "transfer-encoding" then some (trim f.value) else none
  rw [Bool.eq_iff_iff, List.any_eq_true, List.any_eq_true]
  constructor
  · rintro ⟨value, hv, hc⟩
    exact ⟨value, hperm.subset hv, hc⟩
  · rintro ⟨value, hv, hc⟩
    exact ⟨value, hperm.symm.subset hv, hc⟩

/-- A single length stays where it is. -/
lemma Reordered.contentLengths_eq (hr : h.Reordered h') (hone : h.contentLengths.length ≤ 1) :
    h'.contentLengths = h.contentLengths := by
  have hperm : h'.contentLengths.Perm h.contentLengths := hr.2.filterMap _
  cases hl : h.contentLengths with
  | nil =>
    rw [hl] at hperm
    exact hperm.eq_nil
  | cons value rest =>
    rw [hl, List.length_cons] at hone
    obtain rfl : rest = [] := List.length_eq_zero_iff.mp (by omega)
    rw [hl] at hperm
    exact List.perm_singleton.mp hperm

/-- The announced framing does not depend on the order of the lines. -/
lemma Reordered.framing_eq (hr : h.Reordered h') (hone : h.contentLengths.length ≤ 1) :
    h'.framing answersHead = h.framing answersHead := by
  rw [framing, framing, hr.chunked_eq, hr.contentLengths_eq hone, hr.1]

lemma Reordered.lengthDecides_iff (hr : h.Reordered h') (hone : h.contentLengths.length ≤ 1) :
    h'.LengthDecides answersHead ↔ h.LengthDecides answersHead := by
  rw [LengthDecides, LengthDecides, hr.contentLengths_eq hone, hr.1]

/-! ### The two framings -/

/-- What the first line and the header lines leave. -/
def settings (p : Parser) (h : MessageHead) : Settings :=
  h.fields.foldl Settings.field (p.init.settings.start h.start)

lemma settings_eq (p : Parser) (hone : h.contentLengths.length ≤ 1) :
    (h.settings p).mChunkedEncoding = h.transferEncodings.getLast?.elim false namesChunked ∧
      (h.settings p).mContentLen = h.contentLengths.head?.elim (-1) atoi ∧
      (h.settings p).mNoBodyDefault = h.start.isBodilessRequest := by
  obtain ⟨hchunked, hlen, hno⟩ := Settings.fields_eq (p.init.settings.start h.start) h.fields
  have hlast : h.contentLengths.getLast? = h.contentLengths.head? := by
    cases hl : h.contentLengths with
    | nil => rfl
    | cons value rest =>
      rw [hl, List.length_cons] at hone
      obtain rfl : rest = [] := List.length_eq_zero_iff.mp (by omega)
      rfl
  rw [← hlast]
  refine ⟨hchunked.trans ?_, hlen.trans ?_, hno.trans ?_⟩
  · cases h.start <;> rfl
  · cases h.start <;> rfl
  · cases h.start <;> rfl

lemma atoi_eq_iff (value : List UInt8) :
    0 ≤ decimalValue value ∧ decimalValue value < 2 ^ 31 ↔
      0 ≤ atoi value ∧ atoi value = decimalValue value := by
  constructor
  · rintro ⟨h0, hlt⟩
    have heq : atoi value = decimalValue value := atoi_eq ⟨by omega, by omega⟩
    exact ⟨heq ▸ h0, heq⟩
  · rintro ⟨h0, heq⟩
    have hrange : IsInt32 (atoi value) := isInt32_int32 _
    rw [heq] at h0 hrange
    exact ⟨h0, by have := hrange.2; omega⟩

/-- A length that has been read is the framing if it is not negative. -/
lemma lengthFraming_iff (n m : Int) (noBody : Bool) (hm : n = -1 → noBody = true → m ≠ 0) :
    (if n = -1 ∧ noBody = true then Framing.length 0
      else if n < 0 then Framing.untilClose else Framing.length n) = Framing.length m ↔
      0 ≤ n ∧ n = m := by
  by_cases hno : n = -1 ∧ noBody = true
  · have hne := hm hno.1 hno.2
    rw [if_pos hno, Framing.length.injEq]
    omega
  · rw [if_neg hno]
    by_cases hneg : n < 0
    · rw [if_pos hneg]
      simp only [reduceCtorEq, false_iff]
      omega
    · rw [if_neg hneg, Framing.length.injEq]
      omega

/-- Without the chunked coding the framing is the announced one if the length decides. -/
lemma framing_length_iff (p : Parser) (hone : h.contentLengths.length ≤ 1)
    (hlast : (h.settings p).mChunkedEncoding = false)
    (hany : h.transferEncodings.any namesChunked = false) :
    (h.settings p).framing = h.framing answersHead ↔ h.LengthDecides answersHead := by
  obtain ⟨-, hlen, hno⟩ := h.settings_eq p hone
  rw [Settings.framing, hlast, hlen, hno, framing, hany, LengthDecides]
  simp only [Bool.false_eq_true, if_false]
  by_cases hres : h.start.isBodilessResponse answersHead
  · have hreq : h.start.isBodilessRequest = false := by
      cases hs : h.start with
      | request => simp [hs, StartLine.isBodilessResponse] at hres
      | status => rfl
    rw [if_pos hres, if_pos hres, hreq]
    cases h.contentLengths.head? with
    | none => simp
    | some value =>
      have hiff := lengthFraming_iff (atoi value) 0 false (by simp)
      refine hiff.trans ⟨fun hv => ⟨value, rfl, hv.2⟩, ?_⟩
      rintro ⟨value', hv', h0⟩
      cases hv'
      exact ⟨h0.ge, h0⟩
  · rw [if_neg hres, if_neg hres]
    cases h.contentLengths.head? with
    | none =>
      simp only [Option.elim_none, Option.mem_def, reduceCtorEq, false_implies, implies_true,
        iff_true, true_and]
      by_cases hreq : h.start.isBodilessRequest
      · rw [if_pos hreq, if_pos hreq]
      · rw [if_neg hreq, if_neg hreq]
        rfl
    | some value =>
      have hzero : decimalValue value = 0 → atoi value = 0 := fun h0 => by
        rw [← h0]
        exact atoi_eq (h0 ▸ by decide)
      have hiff := lengthFraming_iff (atoi value) (decimalValue value) h.start.isBodilessRequest
        (fun hn _ h0 => by
          have := hzero h0
          omega)
      refine hiff.trans ((atoi_eq_iff value).symm.trans ⟨fun hv => ?_, fun hv => hv value rfl⟩)
      rintro value' hv'
      cases hv'
      exact hv

/-- The framing is the announced one if the last Transfer-Encoding line and the length decide. -/
lemma framing_eq_iff (p : Parser) (hone : h.contentLengths.length ≤ 1) :
    (h.settings p).framing = h.framing answersHead ↔
      h.LastDecides ∧
        (h.transferEncodings.any namesChunked = false → h.LengthDecides answersHead) := by
  have hchunked := (h.settings_eq p hone).1
  cases hany : h.transferEncodings.any namesChunked with
  | true =>
    have hframing : h.framing answersHead = .chunked := if_pos hany
    have hiff : (h.settings p).framing = .chunked ↔ (h.settings p).mChunkedEncoding := by
      rw [Settings.framing]
      by_cases hc : (h.settings p).mChunkedEncoding
      · simp [hc]
      · simp only [hc, Bool.false_eq_true, if_false, iff_false]
        split
        · simp
        · split <;> simp
    rw [hframing, hiff, hchunked, LastDecides, hany]
    cases hlast : h.transferEncodings.getLast? with
    | none =>
      rw [List.getLast?_eq_none_iff.mp hlast] at hany
      cases hany
    | some value => simp
  | false =>
    have hnone : ∀ value ∈ h.transferEncodings, namesChunked value = false := by
      simpa using hany
    have hoff : (h.settings p).mChunkedEncoding = false := by
      rw [hchunked]
      cases hlast : h.transferEncodings.getLast? with
      | none => rfl
      | some value => exact hnone value (List.mem_of_getLast? hlast)
    rw [framing_length_iff p hone hoff hany, LastDecides, hany]
    simp

end MessageHead

/-! ### The parser on the head -/

namespace Parser

variable {E : Env} {p : Parser}

/-- A parser that skips a LF takes any other byte like one that does not. -/
lemma feed_fresh {S : Bool} {c : UInt8} (hc : c ≠ LF) :
    feed E S p c = feed E S { p with mEraseNextN := false } c := by
  simp [feed, hc]

lemma spell_head (h : MessageHead) : ∃ c cs, c ≠ LF ∧ h.spell = c :: cs := by
  cases hs : h.start with
  | request method target major minor =>
    obtain ⟨c, cs, hcs⟩ := List.exists_cons_of_ne_nil method.ne_nil
    rw [MessageHead.spell, hs, StartLine.spell, hcs]
    exact ⟨c, _, (method.text c (by simp [hcs])).2.2, rfl⟩
  | status major minor code reason text =>
    rw [MessageHead.spell, hs, StartLine.spell, versionText,
      show bytes "HTTP" = [72, 84, 84, 80] by decide]
    exact ⟨72, _, by decide, rfl⟩

/-- Behind `Init` the parser reads the head to its end, and what the lines leave selects the
framing. -/
lemma selected_eq (p : Parser) (h : MessageHead) (hfit : h.Fits E.sizeofData)
    (hmem : (E.lowAlloc p.allocs).isSome) :
    p.init.selected E h = some (h.settings p).framing := by
  obtain ⟨mem, hmem⟩ := Option.isSome_iff_exists.mp hmem
  obtain ⟨c, cs, hc, hspell⟩ := spell_head h
  obtain ⟨q, hq⟩ : ∃ q, q = { p.init with mEraseNextN := false } := ⟨_, rfl⟩
  have hphase : q.mPhase = .firstLine1 := by rw [hq]; rfl
  have herase : q.mEraseNextN = false := by rw [hq]
  have ht : q.mAtTrailer = false := by rw [hq]; rfl
  have hlast : q.mParamLast = none := by rw [hq]; rfl
  have hmem' : E.lowAlloc q.allocs = some mem := by rw [hq]; exact hmem
  have hsec : q.InSection := by simp [InSection, hphase]
  obtain ⟨p', hfeeds, -, -, hframing⟩ :=
    (headAt_firstBlock mem hphase herase ht).lines (E := E) h.start h.fields hfit
  have hsize : 3 < E.sizeofData := by
    obtain ⟨text, entry, rest, hr⟩ : ∃ text entry rest, h.start.texts ++ h.fields.flatMap Field.texts
        = (text, entry) :: rest := by
      cases h.start <;> exact ⟨_, _, _, rfl⟩
    rw [MessageHead.Fits, hr] at hfit
    have := hfit.1
    omega
  have hfed : feeds E h.start.isServer p.init h.spell = .next p' := by
    have hfeeds' : Feeds E h.start.isServer (q.firstBlock mem) h.spell p' := hfeeds
    rw [hspell] at hfeeds'
    have := (Feeds.of_firstBlock hsec herase hlast hmem' hsize hfeeds').fed
    rw [hspell, feeds, feed_fresh hc, ← hq]
    exact this
  rw [selected, hfed]
  dsimp only
  rw [hframing, MessageHead.settings]
  have hst : (q.firstBlock mem).settings = p.init.settings := by
    rw [hq]
    rfl
  rw [hst]

end Parser

/-- For every head with at most one Content-Length line that fits in a parameter block: behind it,
with its lines in any order, the parser reads the body with the announced framing if and only if
the last Transfer-Encoding line decides in each order, and the length does where none names the
chunked coding. -/
theorem selectsFraming_iff (E : Env) (p : Parser) (answersHead : Bool) (h : MessageHead)
    (hone : h.contentLengths.length ≤ 1) (hfit : h.Fits E.sizeofData)
    (hmem : (E.lowAlloc p.allocs).isSome) :
    SelectsFraming E p answersHead h ↔ h.Decides E.sizeofData answersHead := by
  have horder (h' : MessageHead) (hr : h.Reordered h') (hfit' : h'.Fits E.sizeofData) :
      p.init.selected E h' = some (h.framing answersHead) ↔ h'.LastDecides ∧
        (h.transferEncodings.any namesChunked = false → h.LengthDecides answersHead) := by
    have hone' : h'.contentLengths.length ≤ 1 := by
      rw [hr.contentLengths_eq hone]
      exact hone
    rw [Parser.selected_eq p h' hfit' hmem, Option.some_inj, ← hr.framing_eq hone,
      MessageHead.framing_eq_iff p hone', hr.chunked_eq, hr.lengthDecides_iff hone]
  constructor
  · intro hsel
    constructor
    · intro h' hr hfit'
      exact ((horder h' hr hfit').mp (hsel h' hr hfit')).1
    · have hself := hsel h (.refl h) hfit
      exact ((horder h (.refl h) hfit).mp hself).2
  · rintro ⟨hlast, hlen⟩ h' hr hfit'
    exact (horder h' hr hfit').mpr ⟨hlast h' hr hfit', hlen⟩

/-- `POST / HTTP/1.1`. -/
def postRoot : StartLine :=
  .request ⟨[80, 79, 83, 84], by simp, by simp [IsText, CR, LF], by simp [isBlank, SP, HT]⟩
    .slash .one .one

/-- `Content-Length: 5`. -/
def lengthField : Field :=
  ⟨bytes "Content-Length", bytes " 5", by decide, by decide +kernel, by decide +kernel,
    by decide +kernel⟩

/-- `Transfer-Encoding: chunked`. -/
def chunkedField : Field :=
  ⟨bytes "Transfer-Encoding", bytes " chunked", by decide, by decide +kernel, by decide +kernel,
    by decide +kernel⟩

/-- `Transfer-Encoding: gzip`. -/
def gzipField : Field :=
  ⟨bytes "Transfer-Encoding", bytes " gzip", by decide, by decide +kernel, by decide +kernel,
    by decide +kernel⟩

/-- A request with five bytes of body. -/
theorem selectsFraming_five :
    SelectsFraming deviceEnv default false ⟨postRoot, [lengthField]⟩ := by
  refine (selectsFraming_iff deviceEnv default false ⟨postRoot, [lengthField]⟩ (by decide)
    (by decide) rfl).mpr ⟨?_, fun _ => ?_⟩
  · rintro ⟨start, fields⟩ ⟨hstart, hperm⟩ -
    obtain rfl : fields = [lengthField] := List.perm_singleton.mp hperm
    intro value hv
    cases hv
  · rintro value hv
    cases hv
    decide

/-- Where another Transfer-Encoding line follows the one that names the chunked coding, the body is
not read as chunked. -/
theorem not_selectsFraming :
    ¬ ∀ (answersHead : Bool) (h : MessageHead), h.contentLengths.length ≤ 1 →
      h.Fits deviceEnv.sizeofData → SelectsFraming deviceEnv default answersHead h := by
  intro hall
  have hsel := hall false ⟨postRoot, [chunkedField, gzipField]⟩ (by decide) (by decide)
    ⟨postRoot, [chunkedField, gzipField]⟩ (.refl _) (by decide)
  rw [Parser.selected_eq default _ (by decide) rfl, Option.some_inj] at hsel
  exact absurd hsel (by decide)

end LowJs.HTTPDirect
