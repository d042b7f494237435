import LowJs.HTTPDirect.HeadBytes

/-!
# Well-formed heads

The heads of HTTP messages as values that cannot be ill-formed, the bytes that spell them, and the
list of parts that the receiver of a head expects. `head_feeds` says what the parser collects from
the bytes of a head as long as everything fits in one block.
-/

namespace LowJs.HTTPDirect

/-- A text within a line. -/
def IsText (cs : List UInt8) : Prop := ∀ c ∈ cs, c ≠ 0 ∧ c ≠ CR ∧ c ≠ LF

instance (cs : List UInt8) : Decidable (IsText cs) :=
  inferInstanceAs (Decidable (∀ c ∈ cs, c ≠ 0 ∧ c ≠ CR ∧ c ≠ LF))

/-- A nonempty text without blanks. -/
structure Token where
  chars : List UInt8
  ne_nil : chars ≠ []
  text : IsText chars
  noBlank : ∀ c ∈ chars, ¬isBlank c

structure Digit where
  char : UInt8
  digit : 48 ≤ char ∧ char ≤ 57

/-- The path `/`. -/
def Token.slash : Token := ⟨[47], by simp, by simp [IsText, CR, LF], by simp [isBlank, SP, HT]⟩

def Digit.one : Digit := ⟨49, by decide⟩

/-- The request line or the status line, without its line end. -/
inductive StartLine
  | request (method target : Token) (major minor : Digit)
  | status (major minor : Digit) (code : Token) (reason : List UInt8) (text : IsText reason)

/-- A header line, without its colon and its line end. -/
structure Header where
  name : List UInt8
  value : List UInt8
  name_length : 1 ≤ name.length ∧ name.length ≤ 255
  name_text : IsText name
  name_colon : 58 ∉ name
  value_length : value.length ≤ 255
  value_text : IsText value

structure Head where
  start : StartLine
  headers : List Header

/-- A header line of any length. -/
structure Field where
  name : List UInt8
  value : List UInt8
  name_ne_nil : name ≠ []
  name_text : IsText name
  name_colon : 58 ∉ name
  value_text : IsText value

def Header.field (h : Header) : Field where
  name := h.name
  value := h.value
  name_ne_nil := List.length_pos_iff.mp h.name_length.1
  name_text := h.name_text
  name_colon := h.name_colon
  value_text := h.value_text

/-- A text without the blanks around it. -/
def trim (cs : List UInt8) : List UInt8 := Parser.rtrim (cs.dropWhile isBlank)

/-- `x.y`. -/
def versionNumber (major minor : Digit) : List UInt8 := [major.char, 46, minor.char]

/-- `HTTP/x.y`. -/
def versionText (major minor : Digit) : List UInt8 :=
  bytes "HTTP" ++ [47, major.char, 46, minor.char]

def lineEnd : List UInt8 := [CR, LF]

def StartLine.isServer : StartLine → Bool
  | .request .. => true
  | .status .. => false

def StartLine.spell : StartLine → List UInt8
  | .request method target major minor =>
    method.chars ++ [SP] ++ target.chars ++ [SP] ++ versionText major minor ++ lineEnd
  | .status major minor code reason _ =>
    versionText major minor ++ [SP] ++ code.chars ++ [SP] ++ reason ++ lineEnd

def Header.spell (h : Header) : List UInt8 := h.name ++ [58] ++ h.value ++ lineEnd

def Field.spell (f : Field) : List UInt8 := f.name ++ [58] ++ f.value ++ lineEnd

/-- The name of the header, as the parser compares it. -/
def Field.key (f : Field) : List UInt8 := (trim f.name).map toLower

/-- The bytes of the head, up to the blank line. -/
def Head.spell (h : Head) : List UInt8 :=
  h.start.spell ++ h.headers.flatMap Header.spell ++ lineEnd

/-- The parts of the first line. -/
def StartLine.parts : StartLine → List (List UInt8)
  | .request method target major minor => [method.chars, target.chars, versionNumber major minor]
  | .status major minor code reason _ => [versionNumber major minor, code.chars, trim reason]

def Header.parts (h : Header) : List (List UInt8) := [(trim h.name).map toLower, trim h.value]

/-- What the receiver of the head expects: the parts of the first line, then the names, in lower
case, and the values of the headers, in order and without the blanks around them. -/
def Head.parts (h : Head) : List (List UInt8) := h.start.parts ++ h.headers.flatMap Header.parts

/-- What the parser stores for each part. -/
def StartLine.stored : StartLine → List (List UInt8)
  | .request method target major minor =>
    [(method.chars.map toUpper).take 255, target.chars.take 255, versionNumber major minor]
  | .status major minor code reason _ =>
    [versionNumber major minor, code.chars.take 255, (trim reason).take 255]

def Head.stored (h : Head) : List (List UInt8) :=
  h.start.stored ++ h.headers.flatMap Header.parts

/-- The texts as they lie in the block before they are trimmed and cut, each with the entry it
becomes. -/
def StartLine.texts : StartLine → List (List UInt8 × List UInt8)
  | .request method target major minor =>
    [(method.chars, (method.chars.map toUpper).take 255), (target.chars, target.chars.take 255),
      (versionText major minor, versionNumber major minor)]
  | .status major minor code reason _ =>
    [(versionText major minor, versionNumber major minor), (code.chars, code.chars.take 255),
      (reason.dropWhile isBlank, (trim reason).take 255)]

def Header.texts (h : Header) : List (List UInt8 × List UInt8) :=
  [(h.name.dropWhile isBlank, (trim h.name).map toLower),
    (h.value.dropWhile isBlank, trim h.value)]

def Field.texts (f : Field) : List (List UInt8 × List UInt8) :=
  [(f.name.dropWhile isBlank, f.key.take 255), (f.value.dropWhile isBlank, (trim f.value).take 255)]

/-- The entries of a header line. -/
def Field.entries (f : Field) : List (List UInt8) :=
  [f.key.take 255, (trim f.value).take 255]

def Head.texts (h : Head) : List (List UInt8 × List UInt8) :=
  h.start.texts ++ h.headers.flatMap Header.texts

/-- A block of `size` bytes has room for the texts, one behind the other from `pos` on, and for the
byte that ends the list. -/
def FitsFrom (size : Int) : Int → List (List UInt8 × List UInt8) → Prop
  | pos, [] => pos + 2 < size
  | pos, (text, entry) :: es =>
    pos + text.length + 2 < size ∧ FitsFrom size (pos + entry.length + 1) es

/-- The collected entries of the head fit in one parameter block. -/
def Head.Fits (size : Int) (h : Head) : Prop := FitsFrom size 1 h.texts

instance decidableFitsFrom (size : Int) :
    ∀ (pos : Int) (es : List (List UInt8 × List UInt8)), Decidable (FitsFrom size pos es)
  | pos, [] => inferInstanceAs (Decidable (pos + 2 < size))
  | pos, (_, entry) :: es =>
    have := decidableFitsFrom size (pos + entry.length + 1) es
    inferInstanceAs (Decidable (_ ∧ _))

instance (size : Int) (h : Head) : Decidable (h.Fits size) := decidableFitsFrom size 1 h.texts

/-! ### Texts and blanks -/

lemma rtrim_map {f : UInt8 → UInt8} (hf : ∀ c, isBlank (f c) = isBlank c) (cs : List UInt8) :
    Parser.rtrim (cs.map f) = (Parser.rtrim cs).map f := by
  induction cs using List.reverseRecOn with
  | nil => rfl
  | append_singleton cs c ih =>
    rw [List.map_append, List.map_singleton]
    by_cases hc : isBlank c
    · rw [Parser.rtrim_concat_blank hc, Parser.rtrim_concat_blank (by rw [hf]; exact hc), ih]
    · rw [Parser.rtrim_concat_char hc, Parser.rtrim_concat_char (by rw [hf]; exact hc),
        List.map_append, List.map_singleton]

lemma rtrim_of_noBlank {cs : List UInt8} (h : ∀ c ∈ cs, ¬isBlank c) : Parser.rtrim cs = cs := by
  induction cs using List.reverseRecOn with
  | nil => rfl
  | append_singleton cs c _ => exact Parser.rtrim_concat_char (h c (by simp))

lemma dropWhile_of_noBlank {cs : List UInt8} (h : ∀ c ∈ cs, ¬isBlank c) :
    cs.dropWhile isBlank = cs := by
  cases cs with
  | nil => rfl
  | cons c cs => exact List.dropWhile_cons_of_neg (h c (by simp))

lemma trim_sublist (cs : List UInt8) : (trim cs).Sublist cs :=
  (Parser.rtrim_isPrefix _).sublist.trans (List.dropWhile_suffix _).sublist

lemma trim_length_le (cs : List UInt8) : (trim cs).length ≤ cs.length := (trim_sublist cs).length_le

lemma Digit.ne (d : Digit) : d.char ≠ 0 ∧ d.char ≠ CR ∧ d.char ≠ LF ∧ ¬isBlank d.char := by
  obtain ⟨c, h1, h2⟩ := d
  simp only [isBlank]
  grind

lemma toUpper_digit (d : Digit) : toUpper d.char = d.char := by
  obtain ⟨c, h1, h2⟩ := d
  simp only [toUpper]
  grind

lemma StartLine.stored_spec (sl : StartLine) :
    ∀ e ∈ sl.stored, (∀ c ∈ e, c ≠ 0) ∧ e.length < 256 := by
  have hcut {f : UInt8 → UInt8} (hf : ∀ c, c ≠ 0 → f c ≠ 0) {cs : List UInt8}
      (hcs : ∀ c ∈ cs, c ≠ 0) :
      (∀ c ∈ (cs.map f).take 255, c ≠ 0) ∧ ((cs.map f).take 255).length < 256 := by
    refine ⟨fun c hc => ?_, by rw [List.length_take]; omega⟩
    obtain ⟨d, hd, rfl⟩ := List.mem_map.mp (List.mem_of_mem_take hc)
    exact hf d (hcs d hd)
  have hid {cs : List UInt8} (hcs : ∀ c ∈ cs, c ≠ 0) :
      (∀ c ∈ cs.take 255, c ≠ 0) ∧ (cs.take 255).length < 256 := by
    simpa using hcut (f := id) (fun _ h => h) hcs
  have hversion (major minor : Digit) :
      (∀ c ∈ versionNumber major minor, c ≠ 0) ∧ (versionNumber major minor).length < 256 := by
    have h1 := major.ne.1
    have h2 := minor.ne.1
    simp [versionNumber, h1, h2]
  cases sl with
  | request method target major minor =>
    intro e he
    simp only [stored, List.mem_cons, List.not_mem_nil, or_false] at he
    rcases he with rfl | rfl | rfl
    · exact hcut (fun c hc => Parser.storedChar_ne_zero true .firstLine1 hc)
        fun c hc => (method.text c hc).1
    · exact hid fun c hc => (target.text c hc).1
    · exact hversion major minor
  | status major minor code reason htext =>
    intro e he
    simp only [stored, List.mem_cons, List.not_mem_nil, or_false] at he
    rcases he with rfl | rfl | rfl
    · exact hversion major minor
    · exact hid fun c hc => (code.text c hc).1
    · exact hid fun c hc => (htext c ((trim_sublist reason).subset hc)).1

lemma Header.parts_spec (h : Header) :
    ∀ e ∈ h.parts, (∀ c ∈ e, c ≠ 0) ∧ e.length < 256 := by
  intro e he
  simp only [parts, List.mem_cons, List.not_mem_nil, or_false] at he
  rcases he with rfl | rfl
  · refine ⟨fun c hc => ?_, ?_⟩
    · obtain ⟨d, hd, rfl⟩ := List.mem_map.mp hc
      exact Parser.storedChar_ne_zero true .headerKey
        (h.name_text d ((trim_sublist _).subset hd)).1
    · have := trim_length_le h.name
      have := h.name_length
      rw [List.length_map]
      omega
  · refine ⟨fun c hc => (h.value_text c ((trim_sublist _).subset hc)).1, ?_⟩
    have := trim_length_le h.value
    have := h.value_length
    omega

/-- Stored entries have no NUL, and their length fits in a byte. -/
lemma Head.stored_spec (h : Head) : ∀ e ∈ h.stored, (∀ c ∈ e, c ≠ 0) ∧ e.length < 256 := by
  intro e he
  rcases List.mem_append.mp he with he | he
  · exact h.start.stored_spec e he
  · obtain ⟨hd, -, he⟩ := List.mem_flatMap.mp he
    exact hd.parts_spec e he

/-- The method of a request is spelled in upper case. -/
def StartLine.UpperCase : StartLine → Prop
  | .request method _ _ _ => method.chars.map toUpper = method.chars
  | .status .. => True

/-- The stored entries are the expected parts if they fit in entries. -/
lemma StartLine.stored_eq_iff (sl : StartLine) :
    sl.stored = sl.parts ↔ sl.UpperCase ∧ ∀ part ∈ sl.parts, part.length ≤ 255 := by
  have hcut (cs : List UInt8) : cs.take 255 = cs ↔ cs.length ≤ 255 := List.take_eq_self_iff cs
  have hversion (major minor : Digit) : (versionNumber major minor).length ≤ 255 := by
    simp [versionNumber]
  cases sl with
  | request method target major minor =>
    simp only [stored, parts, UpperCase, List.cons.injEq, hcut, and_true, List.mem_cons,
      List.not_mem_nil, or_false, forall_eq_or_imp, forall_eq, hversion]
    constructor
    · rintro ⟨hm, ht⟩
      have hlen : method.chars.length ≤ 255 := by
        rw [← hm]
        exact List.length_take_le _ _
      rw [List.take_of_length_le (by simpa using hlen)] at hm
      exact ⟨hm, hlen, ht⟩
    · rintro ⟨hm, hlen, ht⟩
      rw [hm, hcut]
      exact ⟨hlen, ht⟩
  | status major minor code reason htext =>
    simp only [stored, parts, UpperCase, List.cons.injEq, hcut, and_true, List.mem_cons,
      List.not_mem_nil, or_false, forall_eq_or_imp, forall_eq, hversion, true_and]

/-- Cutting a list at its first empty entry leaves the expected parts if none is empty, or cut, or
changed. -/
lemma Head.stored_takeWhile_eq_iff (h : Head) :
    h.stored.takeWhile (· ≠ []) = h.parts ↔
      h.start.UpperCase ∧ ∀ part ∈ h.parts, part ≠ [] ∧ part.length ≤ 255 := by
  have hlen : h.stored.length = h.parts.length := by
    rw [Head.stored, Head.parts, List.length_append, List.length_append]
    cases h.start <;> rfl
  have heq : h.stored = h.parts ↔
      h.start.UpperCase ∧ ∀ part ∈ h.parts, part.length ≤ 255 := by
    rw [Head.stored, Head.parts, List.append_left_inj, h.start.stored_eq_iff]
    simp only [List.mem_append, or_imp, forall_and]
    refine ⟨fun ⟨h1, h2⟩ => ⟨h1, h2, fun part hpart => ?_⟩, fun ⟨h1, h2, _⟩ => ⟨h1, h2⟩⟩
    obtain ⟨hd, -, hmem⟩ := List.mem_flatMap.mp hpart
    have := (hd.parts_spec part hmem).2
    omega
  constructor
  · intro htw
    have hall : h.stored.takeWhile (· ≠ []) = h.stored :=
      (List.takeWhile_prefix _).eq_of_length (by rw [htw, hlen])
    have hparts : h.stored = h.parts := hall.symm.trans htw
    obtain ⟨hu, hle⟩ := heq.mp hparts
    refine ⟨hu, fun part hpart => ⟨?_, hle part hpart⟩⟩
    rw [← hparts] at hpart
    simpa using List.takeWhile_eq_self_iff.mp hall part hpart
  · rintro ⟨hu, hle⟩
    have hparts : h.stored = h.parts := heq.mpr ⟨hu, fun part hpart => (hle part hpart).2⟩
    rw [hparts, List.takeWhile_eq_self_iff]
    exact fun part hpart => by simpa using (hle part hpart).1

lemma Header.field_entries (h : Header) : h.field.entries = h.parts := by
  have hname : h.field.key.length ≤ 255 := by
    rw [Field.key, List.length_map]
    exact (trim_length_le _).trans h.name_length.2
  have hvalue : (trim h.value).length ≤ 255 := (trim_length_le _).trans h.value_length
  rw [Field.entries, List.take_of_length_le hname]
  exact congrArg (fun e => [_, e]) (List.take_of_length_le hvalue)

lemma Header.field_texts (h : Header) : h.field.texts = h.texts := by
  have heq := h.field_entries
  simp only [Field.entries, Header.parts, List.cons.injEq, and_true] at heq
  rw [Field.texts, heq.1, heq.2]
  rfl

/-! ### The parser on a head -/

namespace Parser

variable {E : Env} {p : Parser} {b : Nat} {done : List (List UInt8)}

lemma isBlank_toLower (c : UInt8) : isBlank (toLower c) = isBlank c :=
  isBlank_storedChar true .headerKey c

lemma span_concat (done : List (List UInt8)) (e : List UInt8) :
    (1 + span (done ++ [e]) : Int) = 1 + span done + e.length + 1 := by
  simp only [span_append, span_cons, span_nil]
  omega

/-- The line is known. -/
def Settings.field (st : Settings) (f : Field) : Settings := (st.key f.key).value (trim f.value)

/-- A header line is collected. -/
lemma HeadAt.field {S : Bool} (h : HeadAt p b .headerKey done []) (f : Field)
    {rest : List (List UInt8 × List UInt8)}
    (hfit : FitsFrom E.sizeofData (1 + span done) (f.texts ++ rest)) :
    ∃ p', Feeds E S p f.spell p' ∧
      HeadAt p' b .headerKey (done ++ [f.key.take 255] ++ [(trim f.value).take 255]) [] ∧
      p'.settings = p.settings.field f ∧
      FitsFrom E.sizeofData (1 + span (done ++ [f.key.take 255] ++ [(trim f.value).take 255]))
        rest := by
  obtain ⟨hname, hvalue, hrest⟩ := hfit
  rw [← span_concat] at hvalue hrest
  rw [← span_concat] at hrest
  have hkey : collectText (storedChar S .headerKey) [] f.name =
      (f.name.dropWhile isBlank).map toLower := collectText_nil _ _
  have hval : collectText (storedChar S .headerValue) [] f.value =
      f.value.dropWhile isBlank := (collectText_nil _ _).trans (List.map_id _)
  have hkeyTrim : rtrim ((f.name.dropWhile isBlank).map toLower) = f.key :=
    rtrim_map isBlank_toLower _
  obtain ⟨p₁, hf₁, h₁, hst₁⟩ := h.text (E := E) (S := S) (l := f.name) (by simp [Phase.IsHead])
    (fun c hc => ⟨(f.name_text c hc).2.1, (f.name_text c hc).2.2, by simp,
      fun _ h58 => f.name_colon (h58 ▸ hc)⟩) (by rw [hkey, List.length_map]; exact hname)
  rw [hkey] at h₁
  have hnulKey : ∀ c ∈ (f.name.dropWhile isBlank).map toLower, c ≠ 0 := by
    intro c hc
    obtain ⟨d, hd, rfl⟩ := List.mem_map.mp hc
    exact storedChar_ne_zero true .headerKey
      (f.name_text d ((List.dropWhile_suffix _).subset hd)).1
  obtain ⟨p₂, hf₂, h₂, hst₂⟩ := h₁.colon (E := E) (S := S) hnulKey
    (by rw [List.length_map]; exact hname)
  rw [nextEntry, hkeyTrim] at h₂
  obtain ⟨p₃, hf₃, h₃, hst₃⟩ := h₂.text (E := E) (S := S) (l := f.value) (by simp [Phase.IsHead])
    (fun c hc => ⟨(f.value_text c hc).2.1, (f.value_text c hc).2.2, by simp, by simp⟩)
    (by rw [hval]; exact hvalue)
  rw [hval] at h₃
  obtain ⟨p₄, hf₄, h₄, hst₄⟩ := h₃.value (E := E) (S := S)
    (fun c hc => (f.value_text c ((List.dropWhile_suffix _).subset hc)).1) hvalue
  refine ⟨p₄, ((hf₁.trans hf₂).trans hf₃).trans hf₄, h₄, ?_, hrest⟩
  rw [hst₄, hst₃, hst₂, hst₁, hkeyTrim]
  rfl

/-- The header lines are collected. -/
lemma HeadAt.fields {S : Bool} {fs : List Field} (h : HeadAt p b .headerKey done [])
    (hfit : FitsFrom E.sizeofData (1 + span done) (fs.flatMap Field.texts)) :
    ∃ p', Feeds E S p (fs.flatMap Field.spell) p' ∧
      HeadAt p' b .headerKey (done ++ fs.flatMap Field.entries) [] ∧
      p'.settings = fs.foldl Settings.field p.settings ∧
      1 + span (done ++ fs.flatMap Field.entries) + 2 < E.sizeofData := by
  induction fs generalizing p done with
  | nil => exact ⟨p, Feeds.refl p, by simpa using h, rfl, by simpa [FitsFrom] using hfit⟩
  | cons f fs ih =>
    rw [List.flatMap_cons] at hfit
    obtain ⟨p₁, hf₁, h₁, hst₁, hfit₁⟩ := h.field (S := S) f hfit
    obtain ⟨p₂, hf₂, h₂, hst₂, hfit₂⟩ := ih h₁ hfit₁
    rw [hst₁] at hst₂
    rw [List.append_assoc done] at h₂ hfit₂
    simp only [List.flatMap_cons, List.foldl_cons]
    rw [← List.append_assoc]
    exact ⟨p₂, hf₁.trans hf₂, h₂, hst₂, hfit₂⟩

/-- A token is collected as it is, up to the case of its letters. -/
lemma HeadAt.token {S : Bool} {ph : Phase} (h : HeadAt p b ph done [])
    (hph : ph = .firstLine1 ∨ ph = .firstLine2) (tok : Token)
    (hfit : 1 + span done + tok.chars.length + 2 < E.sizeofData) :
    ∃ p', Feeds E S p tok.chars p' ∧
      HeadAt p' b ph done (tok.chars.map (storedChar S ph)) ∧ p'.settings = p.settings := by
  have htext : collectText (storedChar S ph) [] tok.chars = tok.chars.map (storedChar S ph) := by
    rw [collectText_nil, dropWhile_of_noBlank tok.noBlank]
  rw [← htext]
  refine h.text ?_ (fun c hc => ⟨(tok.text c hc).2.1, (tok.text c hc).2.2,
    fun _ => tok.noBlank c hc, ?_⟩) ?_
  · rcases hph with rfl | rfl <;> simp [Phase.IsHead]
  · rcases hph with rfl | rfl <;> simp
  · rwa [htext, List.length_map]

lemma nextEntry_token {S : Bool} {ph : Phase} (tok : Token) :
    nextEntry (tok.chars.map (storedChar S ph)) =
      (tok.chars.map (storedChar S ph)).take 255 := by
  rw [nextEntry, rtrim_map (isBlank_storedChar S ph), rtrim_of_noBlank tok.noBlank]

/-- The version text of the first line is collected as it is. -/
lemma HeadAt.version {S : Bool} {ph : Phase} (h : HeadAt p b ph done [])
    (hph : (ph = .firstLine1 ∧ S = false) ∨ (ph = .firstLine3 ∧ S = true))
    (major minor : Digit)
    (hfit : 1 + span done + (versionText major minor).length + 2 < E.sizeofData) :
    ∃ p', Feeds E S p (versionText major minor) p' ∧
      HeadAt p' b ph done (versionText major minor) ∧ p'.settings = p.settings := by
  have hchar : ∀ c ∈ versionText major minor,
      c ≠ CR ∧ c ≠ LF ∧ ¬isBlank c ∧ toUpper c = c := by
    obtain ⟨-, h1, h2, h3⟩ := major.ne
    obtain ⟨-, h4, h5, h6⟩ := minor.ne
    intro c hc
    have hHTTP : bytes "HTTP" = [72, 84, 84, 80] := by decide
    simp only [versionText, hHTTP, List.cons_append, List.nil_append, List.mem_cons,
      List.not_mem_nil, or_false] at hc
    rcases hc with rfl | rfl | rfl | rfl | rfl | rfl | rfl | rfl
    · decide
    · decide
    · decide
    · decide
    · decide
    · exact ⟨h1, h2, h3, toUpper_digit major⟩
    · decide
    · exact ⟨h4, h5, h6, toUpper_digit minor⟩
  have hstored : ∀ c, storedChar S ph c = toUpper c := by
    rcases hph with ⟨rfl, rfl⟩ | ⟨rfl, rfl⟩ <;> exact fun _ => rfl
  have htext : collectText (storedChar S ph) [] (versionText major minor) =
      versionText major minor := by
    rw [collectText_nil, dropWhile_of_noBlank fun c hc => (hchar c hc).2.2.1]
    refine (List.map_congr_left fun c hc => ?_).trans (List.map_id _)
    rw [hstored, (hchar c hc).2.2.2]
    rfl
  have := h.text (E := E) (S := S) (l := versionText major minor) ?_
    (fun c hc => ⟨(hchar c hc).1, (hchar c hc).2.1, fun _ => (hchar c hc).2.2.1, ?_⟩)
    (by rwa [htext])
  · rwa [htext] at this
  · rcases hph with ⟨rfl, -⟩ | ⟨rfl, -⟩ <;> simp [Phase.IsHead]
  · rcases hph with ⟨rfl, -⟩ | ⟨rfl, -⟩ <;> simp

/-- The first line is known. -/
def Settings.start (st : Settings) : StartLine → Settings
  | .request method .. => st.method (method.chars.map toUpper)
  | .status .. => st

/-- The first line is collected. -/
lemma HeadAt.startLine (h : HeadAt p b .firstLine1 [] []) (sl : StartLine)
    {rest : List (List UInt8 × List UInt8)} (hfit : FitsFrom E.sizeofData 1 (sl.texts ++ rest)) :
    ∃ p', Feeds E sl.isServer p sl.spell p' ∧ HeadAt p' b .headerKey sl.stored [] ∧
      p'.settings = p.settings.start sl ∧ FitsFrom E.sizeofData (1 + span sl.stored) rest := by
  have hbytes : bytes "HTTP" ≠ [] := by decide
  cases sl with
  | request method target major minor =>
    obtain ⟨hfit₁, hfit₂, hfit₃, hrest⟩ := hfit
    have hmethod : rtrim (method.chars.map (storedChar true .firstLine1)) =
        method.chars.map toUpper := by
      rw [rtrim_map (isBlank_storedChar true .firstLine1), rtrim_of_noBlank method.noBlank]
      rfl
    have hnul : ∀ c ∈ method.chars.map (storedChar true .firstLine1), c ≠ 0 := by
      intro c hc
      obtain ⟨d, hd, rfl⟩ := List.mem_map.mp hc
      exact storedChar_ne_zero true .firstLine1 (method.text d hd).1
    obtain ⟨p₁, hf₁, h₁, hst₁⟩ := h.token (E := E) (S := true) (.inl rfl) method
      (by simpa using hfit₁)
    obtain ⟨p₂, hf₂, h₂, hst₂⟩ := h₁.method (E := E) (by simpa using method.ne_nil) hnul
      (by simpa using hfit₁)
    rw [nextEntry_token, List.nil_append] at h₂
    rw [hst₁, hmethod] at hst₂
    have hspan₁ : (1 + span [(method.chars.map toUpper).take 255] : Int) =
        1 + ((method.chars.map toUpper).take 255).length + 1 := by
      simp
      omega
    rw [← hspan₁] at hfit₂ hfit₃ hrest
    obtain ⟨p₃, hf₃, h₃, hst₃⟩ := h₂.token (E := E) (S := true) (.inr rfl) target hfit₂
    have hid : target.chars.map (storedChar true .firstLine2) = target.chars := List.map_id _
    obtain ⟨p₄, hf₄, h₄, hst₄⟩ := h₃.firstLine2 (E := E) (S := true) (by simpa using target.ne_nil)
      (by rw [hid]; exact hfit₂)
    rw [nextEntry_token, hid] at h₄
    have hspan₂ : (1 + span ([(method.chars.map toUpper).take 255] ++ [target.chars.take 255]) : Int)
        = 1 + span [(method.chars.map toUpper).take 255] + (target.chars.take 255).length + 1 := by
      simp only [span_append, span_cons, span_nil]
      omega
    rw [← hspan₂] at hfit₃ hrest
    obtain ⟨p₅, hf₅, h₅, hst₅⟩ :=
      h₄.version (E := E) (S := true) (.inr ⟨rfl, rfl⟩) major minor hfit₃
    obtain ⟨p₆, hf₆, h₆, hst₆⟩ := HeadAt.requestVersion (E := E) hbytes minor.ne.2.2.2 h₅ hfit₃
    refine ⟨p₆, ?_, h₆, ?_, ?_⟩
    · exact ((((hf₁.trans hf₂).trans hf₃).trans hf₄).trans hf₅).trans hf₆
    · rw [hst₆, hst₅, hst₄, hst₃, hst₂]
      rfl
    · have hspan₃ : (1 + span (StartLine.request method target major minor).stored : Int) =
          1 + span ([(method.chars.map toUpper).take 255] ++ [target.chars.take 255]) +
            (versionNumber major minor).length + 1 := by
        simp only [StartLine.stored, span_append, span_cons, span_nil]
        omega
      rw [hspan₃]
      exact hrest
  | status major minor code reason htext =>
    obtain ⟨hfit₁, hfit₂, hfit₃, hrest⟩ := hfit
    obtain ⟨p₁, hf₁, h₁, hst₁⟩ := h.version (E := E) (S := false) (.inl ⟨rfl, rfl⟩) major minor
      (by simpa using hfit₁)
    obtain ⟨p₂, hf₂, h₂, hst₂⟩ := HeadAt.statusVersion (E := E) hbytes minor.ne.2.2.2 h₁
      (by simpa [versionText] using hfit₁)
    rw [List.nil_append] at h₂
    have hspan₁ : (1 + span [versionNumber major minor] : Int) =
        1 + (versionNumber major minor).length + 1 := by
      simp
      omega
    rw [← hspan₁] at hfit₂ hfit₃ hrest
    obtain ⟨p₃, hf₃, h₃, hst₃⟩ := h₂.token (E := E) (S := false) (.inr rfl) code hfit₂
    have hid : code.chars.map (storedChar false .firstLine2) = code.chars := List.map_id _
    obtain ⟨p₄, hf₄, h₄, hst₄⟩ := h₃.firstLine2 (E := E) (S := false) (by simpa using code.ne_nil)
      (by rw [hid]; exact hfit₂)
    rw [nextEntry_token, hid] at h₄
    have hspan₂ : (1 + span ([versionNumber major minor] ++ [code.chars.take 255]) : Int) =
        1 + span [versionNumber major minor] + (code.chars.take 255).length + 1 := by
      simp only [span_append, span_cons, span_nil]
      omega
    rw [← hspan₂] at hfit₃ hrest
    have hreason : collectText (storedChar false .firstLine3) [] reason =
        reason.dropWhile isBlank := (collectText_nil _ _).trans (List.map_id _)
    obtain ⟨p₅, hf₅, h₅, hst₅⟩ := h₄.text (E := E) (S := false) (l := reason)
      (by simp [Phase.IsHead])
      (fun c hc => ⟨(htext c hc).2.1, (htext c hc).2.2, by simp, by simp⟩)
      (by rw [hreason]; exact hfit₃)
    rw [hreason] at h₅
    obtain ⟨p₆, hf₆, h₆, hst₆⟩ := h₅.reason (E := E) hfit₃
    refine ⟨p₆, ?_, h₆, ?_, ?_⟩
    · exact ((((hf₁.trans hf₂).trans hf₃).trans hf₄).trans hf₅).trans hf₆
    · rw [hst₆, hst₅, hst₄, hst₃, hst₂, hst₁]
      rfl
    · have hspan₃ : (1 + span (StartLine.status major minor code reason htext).stored : Int) =
          1 + span ([versionNumber major minor] ++ [code.chars.take 255]) +
            ((trim reason).take 255).length + 1 := by
        simp only [StartLine.stored, span_append, span_cons, span_nil]
        omega
      rw [hspan₃]
      exact hrest

/-- The whole head is collected, if it fits, and selects the framing of the body. -/
lemma HeadAt.lines (h : HeadAt p b .firstLine1 [] []) (sl : StartLine) (fs : List Field)
    (hfit : FitsFrom E.sizeofData 1 (sl.texts ++ fs.flatMap Field.texts)) :
    ∃ p', Feeds E sl.isServer p (sl.spell ++ fs.flatMap Field.spell ++ lineEnd) p' ∧
      HeadDone p' b (sl.stored ++ fs.flatMap Field.entries) ∧
      span (sl.stored ++ fs.flatMap Field.entries) < E.sizeofData ∧
      p'.bodyFraming = (fs.foldl Settings.field (p.settings.start sl)).framing := by
  obtain ⟨p₁, hf₁, h₁, hst₁, hfit₁⟩ := h.startLine sl hfit
  obtain ⟨p₂, hf₂, h₂, hst₂, hfit₂⟩ := h₁.fields (S := sl.isServer) hfit₁
  obtain ⟨p₃, hf₃, h₃, hframing⟩ := h₂.blankLine (E := E) (S := sl.isServer) hfit₂
  refine ⟨p₃, (hf₁.trans hf₂).trans hf₃, h₃, by omega, ?_⟩
  rw [hframing, hst₂, hst₁]

/-- The whole head is collected, if it fits. -/
lemma HeadAt.head (h : HeadAt p b .firstLine1 [] []) (hd : Head) (hfit : hd.Fits E.sizeofData) :
    ∃ p', Feeds E hd.start.isServer p hd.spell p' ∧ HeadDone p' b hd.stored ∧
      span hd.stored < E.sizeofData := by
  have htexts : (hd.headers.map Header.field).flatMap Field.texts =
      hd.headers.flatMap Header.texts := by
    rw [List.flatMap_map]
    exact congrArg (fun f => hd.headers.flatMap f) (funext Header.field_texts)
  have hentries : (hd.headers.map Header.field).flatMap Field.entries =
      hd.headers.flatMap Header.parts := by
    rw [List.flatMap_map]
    exact congrArg (fun f => hd.headers.flatMap f) (funext Header.field_entries)
  have hspell : (hd.headers.map Header.field).flatMap Field.spell =
      hd.headers.flatMap Header.spell := List.flatMap_map _ _ _
  obtain ⟨p', hf, hdone, hsize, -⟩ := h.lines (E := E) hd.start (hd.headers.map Header.field)
    (by rw [htexts]; exact hfit)
  rw [hentries] at hdone hsize
  rw [hspell] at hf
  exact ⟨p', hf, hdone, hsize⟩

end Parser

end LowJs.HTTPDirect
