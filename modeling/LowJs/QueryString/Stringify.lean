import LowJs.QueryString.Encoding
import LowJs.QueryString.Pairs

/-!
# `stringify` of `querystring`

What `stringify` writes, `parse` reads: the strings are escaped, so that neither separator stands in one, and the
values of a key come together again.
-/

namespace LowJs.QueryString

open JSString

/-- A value as `stringifyPrimitive` tells them apart; of a finite number it takes the text. -/
inductive Primitive
  | string (s : JSString)
  | number (text : JSString)
  | boolean (b : Bool)
  | other
  deriving DecidableEq, Repr

def stringifyPrimitive : Primitive → JSString
  | .string s => s
  | .number text => text
  | .boolean b => if b then ['t', 'r', 'u', 'e'].map codeUnit else ['f', 'a', 'l', 's', 'e'].map codeUnit
  | .other => []

/-- A property of the object. -/
inductive Field
  | single (v : Primitive)
  | array (v : List Primitive)
  deriving DecidableEq, Repr

/-- The loop over an array. -/
def valuesLoop (ks sep : JSString) : List Primitive → JSString → Option JSString
  | [], fields => some fields
  | v :: vs, fields => do
    let e ← qsEscape (stringifyPrimitive v)
    let fields := fields ++ (ks ++ e)
    valuesLoop ks sep vs (if vs ≠ [] then fields ++ sep else fields)

/-- The loop over the keys. -/
def fieldsLoop (sep eq : JSString) : List (JSString × Field) → JSString → Option JSString
  | [], fields => some fields
  | (k, v) :: rest, fields => do
    let e ← qsEscape k
    let ks := e ++ eq
    match v with
    | .array vs => do
      let fields ← valuesLoop ks sep vs fields
      fieldsLoop sep eq rest (if vs ≠ [] ∧ rest ≠ [] then fields ++ sep else fields)
    | .single v => do
      let e ← qsEscape (stringifyPrimitive v)
      let fields := fields ++ (ks ++ e)
      fieldsLoop sep eq rest (if rest ≠ [] then fields ++ sep else fields)

/-- `stringify` of an object, as its properties in the order of `Object.keys`; an argument that is left out is
the empty string. -/
def stringify (obj : List (JSString × Field)) (sep eq : JSString) : Option JSString :=
  fieldsLoop (if sep.length = 0 then [38] else sep) (if eq.length = 0 then [61] else eq) obj []

/-- The strings of a property. -/
def Field.values : Field → List JSString
  | .single v => [stringifyPrimitive v]
  | .array vs => vs.map stringifyPrimitive

/-- The property that comes back: an array only of two strings or more. -/
def Value.ofList : List JSString → Option Value
  | [] => none
  | [value] => some (.one value)
  | values => some (.many values)

/-- The object that comes back. -/
def normalized (obj : List (JSString × Field)) : Obj :=
  obj.filterMap fun p => (Value.ofList p.2.values).map fun v => (p.1, v)

/-- The pairs that are written. -/
def written (obj : List (JSString × Field)) : List (JSString × JSString) :=
  obj.flatMap fun p => p.2.values.map fun v => (p.1, v)

/-- A code unit that is not written for another one. -/
def Delimiter (c : UInt16) : Prop := c < 128 ∧ c ≠ 37 ∧ noEscape[c.toNat]? ≠ some 1

instance (c : UInt16) : Decidable (Delimiter c) := inferInstanceAs (Decidable (_ ∧ _))

/-- The string is a text of characters. -/
def IsText (s : JSString) : Prop := ∃ cs, s = utf16 cs

/-- The strings of the object are texts. -/
def Texts (obj : List (JSString × Field)) : Prop := ∀ p ∈ obj, IsText p.1 ∧ ∀ v ∈ p.2.values, IsText v

section
variable {toText : List UInt8 → JSString} {s e f k v : JSString} {sep eq c : UInt16} {obj : Obj}
  {vs : List JSString}

/-! ### Escaped strings -/

lemma hexDigit_noEscape {d : Nat} (h : d < 16) : (hexDigit d) < 128 ∧ noEscape[(hexDigit d).toNat]? = some 1 := by
  have hall : ∀ d : Fin 16, hexDigit d < 128 ∧ noEscape[(hexDigit d).toNat]? = some 1 := by decide
  exact hall ⟨d, h⟩

/-- The code units of what is written. -/
def Plain (c : UInt16) : Prop := c < 128 ∧ (c = 37 ∨ noEscape[c.toNat]? = some 1)

lemma plain_hexTable {b : Nat} (hb : b < 256) : ∀ c ∈ hexTable b, Plain c := by
  intro c hc
  have hhigh := hexDigit_noEscape (show b / 16 < 16 by omega)
  have hlow := hexDigit_noEscape (show b % 16 < 16 by omega)
  simp only [hexTable, List.mem_cons, List.not_mem_nil, or_false] at hc
  rcases hc with rfl | rfl | rfl
  · exact ⟨by decide, .inl rfl⟩
  · exact ⟨hhigh.1, .inr hhigh.2⟩
  · exact ⟨hlow.1, .inr hlow.2⟩

lemma plain_escaped {v : Nat} (hv : v.isValidChar) : ∀ c ∈ escaped v, Plain c := by
  simp only [Nat.isValidChar] at hv
  have hmod : ∀ {a}, 0x80 + a % 64 < 256 := by omega
  intro c hc
  rw [escaped] at hc
  by_cases h1 : v < 0x80
  · rw [if_pos h1] at hc
    by_cases hno : noEscape[v]? = some 1
    · rw [if_pos hno, List.mem_singleton] at hc
      subst hc
      have hnat : (UInt16.ofNat v).toNat = v := by
        rw [UInt16.toNat_ofNat']
        exact Nat.mod_eq_of_lt (by omega)
      refine ⟨?_, .inr (by rw [hnat]; exact hno)⟩
      show (UInt16.ofNat v).toNat < 128
      omega
    · rw [if_neg hno] at hc
      exact plain_hexTable (by omega) c hc
  rw [if_neg h1] at hc
  by_cases h2 : v < 0x800
  · rw [if_pos h2, lead_two h2, trail_eq, List.mem_append] at hc
    rcases hc with hc | hc
    · exact plain_hexTable (by omega) c hc
    · exact plain_hexTable hmod c hc
  rw [if_neg h2] at hc
  by_cases h3 : v < 0x10000
  · rw [if_pos h3, lead_three h3, trail_eq, trail_eq, List.mem_append, List.mem_append] at hc
    rcases hc with hc | hc | hc
    · exact plain_hexTable (by omega) c hc
    · exact plain_hexTable hmod c hc
    · exact plain_hexTable hmod c hc
  rw [if_neg h3, lead_four (by omega), trail_eq, trail_eq, trail_eq, List.mem_append, List.mem_append, List.mem_append] at hc
  rcases hc with hc | hc | hc | hc
  · exact plain_hexTable (by omega) c hc
  · exact plain_hexTable hmod c hc
  · exact plain_hexTable hmod c hc
  · exact plain_hexTable hmod c hc

/-- What is written for a text. -/
lemma IsText.escape (h : IsText s) :
    ∃ e, qsEscape s = some e ∧ decodeURIComponent e = some s ∧ ∀ c ∈ e, Plain c := by
  obtain ⟨cs, rfl⟩ := h
  obtain ⟨e, he, hback⟩ := escape_utf16 cs
  refine ⟨e, he, hback, ?_⟩
  rw [qsEscape_eq, points_utf16] at he
  obtain rfl := Option.some.inj he
  intro c hc
  obtain ⟨v, hv, hc⟩ := List.mem_flatMap.mp hc
  obtain ⟨d, -, rfl⟩ := List.mem_map.mp hv
  exact plain_escaped d.valid c hc

lemma Delimiter.notMem (h : Delimiter c) (he : ∀ c ∈ e, Plain c) : c ∉ e := fun hm => by
  rcases (he c hm).2 with heq | hno
  · exact h.2.1 heq
  · exact h.2.2 hno

/-- There is no `+` to take for a space. -/
lemma map_space_plain (he : ∀ c ∈ e, Plain c) : e.map space = e := by
  have hplus : Delimiter 43 := by decide
  have hspace : ∀ c ∈ e, space c = id c := fun c hc => space_of_ne fun heq => hplus.notMem he (heq ▸ hc)
  rw [List.map_congr_left hspace, List.map_id]

/-- The escaped text. -/
def escapeText (s : JSString) : JSString := (qsEscape s).getD []

lemma IsText.qsEscape_eq (h : IsText s) : qsEscape s = some (escapeText s) := by
  obtain ⟨e, he, -, -⟩ := h.escape
  rw [escapeText, he]
  rfl

lemma IsText.plain (h : IsText s) : ∀ c ∈ escapeText s, Plain c := by
  obtain ⟨e, he, -, hplain⟩ := h.escape
  rw [escapeText, he]
  exact hplain

lemma IsText.decodeStr_eq (h : IsText s) (toText : List UInt8 → JSString) :
    decodeStr toText ((escapeText s).map space) = s := by
  obtain ⟨e, he, hback, hplain⟩ := h.escape
  rw [escapeText, he, Option.getD_some, map_space_plain hplain, decodeStr, qsUnescape, hback]
  rfl

/-! ### The text -/

/-- The text of a pair. -/
def piece (eq : UInt16) (p : JSString × JSString) : JSString := escapeText p.1 ++ eq :: escapeText p.2

/-- The text of pairs, with a separator behind each. -/
def closed (sep eq : UInt16) (ps : List (JSString × JSString)) : JSString := ps.flatMap fun p => piece eq p ++ [sep]

lemma closed_append (ps qs : List (JSString × JSString)) :
    closed sep eq (ps ++ qs) = closed sep eq ps ++ closed sep eq qs := List.flatMap_append

lemma valuesLoop_eq {vs : List Primitive} (k : JSString) (sep eq : UInt16) (hvs : ∀ v ∈ vs, IsText (stringifyPrimitive v)) :
    ∃ g, valuesLoop (escapeText k ++ [eq]) [sep] vs f = some g ∧
      (if vs = [] then g else g ++ [sep]) =
        f ++ closed sep eq ((vs.map stringifyPrimitive).map fun v => (k, v)) := by
  induction vs generalizing f with
  | nil => exact ⟨f, rfl, by simp [closed]⟩
  | cons v vs ih =>
    have hv := (hvs v List.mem_cons_self).qsEscape_eq
    have hvs := fun w hw => hvs w (List.mem_cons_of_mem _ hw)
    have hone : closed sep eq ((List.map stringifyPrimitive (v :: vs)).map fun v => (k, v)) =
        (escapeText k ++ eq :: escapeText (stringifyPrimitive v)) ++ [sep] ++
          closed sep eq ((vs.map stringifyPrimitive).map fun v => (k, v)) := by
      simp [closed, piece]
    rw [valuesLoop, hv, hone]
    by_cases hnil : vs = []
    · subst hnil
      exact ⟨_, rfl, by simp [closed]⟩
    · obtain ⟨g, hg, heq⟩ := ih hvs
      rw [if_neg hnil] at heq
      refine ⟨g, ?_, (if_neg (List.cons_ne_nil _ _)).trans (heq.trans ?_)⟩
      · simpa [hnil] using hg
      · simp

/-- A value is written as an array of one. -/
lemma fieldsLoop_single (v : Primitive) (rest : List (JSString × Field)) :
    fieldsLoop [sep] [eq] ((k, .single v) :: rest) f = fieldsLoop [sep] [eq] ((k, .array [v]) :: rest) f := by
  rw [fieldsLoop, fieldsLoop]
  cases qsEscape k with
  | none => rfl
  | some e =>
    simp only [valuesLoop]
    cases qsEscape (stringifyPrimitive v) with
    | none => rfl
    | some e' => by_cases hrest : rest = [] <;> simp [hrest]

lemma fieldsLoop_array {vs : List Primitive} (sep eq : UInt16) (rest : List (JSString × Field)) (hk : IsText k)
    (hvs : ∀ v ∈ vs, IsText (stringifyPrimitive v)) :
    ∃ g, fieldsLoop [sep] [eq] ((k, .array vs) :: rest) f = fieldsLoop [sep] [eq] rest g ∧
      (g = f ++ closed sep eq ((vs.map stringifyPrimitive).map fun v => (k, v)) ∧ (vs ≠ [] → rest ≠ []) ∨
        g ++ [sep] = f ++ closed sep eq ((vs.map stringifyPrimitive).map fun v => (k, v)) ∧ vs ≠ [] ∧ rest = []) := by
  obtain ⟨g, hg, heq⟩ := valuesLoop_eq k sep eq (f := f) hvs
  have hstart : fieldsLoop [sep] [eq] ((k, .array vs) :: rest) f =
      fieldsLoop [sep] [eq] rest (if vs ≠ [] ∧ rest ≠ [] then g ++ [sep] else g) := by
    rw [fieldsLoop, hk.qsEscape_eq]
    simp only [Option.bind_eq_bind, Option.bind_some, hg]
  refine ⟨_, hstart, ?_⟩
  by_cases hvnil : vs = []
  · rw [if_pos hvnil] at heq
    rw [if_neg fun hand => hand.1 hvnil]
    exact .inl ⟨heq, fun h => absurd hvnil h⟩
  · rw [if_neg hvnil] at heq
    by_cases hrest : rest = []
    · rw [if_neg fun hand => hand.2 hrest]
      exact .inr ⟨heq, hvnil, hrest⟩
    · rw [if_pos ⟨hvnil, hrest⟩]
      exact .inl ⟨heq, fun _ => hrest⟩

/-- What is written ends with a separator or not. -/
lemma fieldsLoop_eq (sep eq : UInt16) {fields : List (JSString × Field)} (f : JSString) (h : Texts fields) :
    ∃ g, fieldsLoop [sep] [eq] fields f = some g ∧
      (g = f ++ closed sep eq (written fields) ∨
        g ++ [sep] = f ++ closed sep eq (written fields) ∧ written fields ≠ []) := by
  induction fields generalizing f with
  | nil => exact ⟨f, rfl, .inl (by simp [closed, written])⟩
  | cons p rest ih =>
    obtain ⟨k, field⟩ := p
    have hrest : Texts rest := fun q hq => h q (List.mem_cons_of_mem _ hq)
    obtain ⟨hk, hv⟩ := h (k, field) List.mem_cons_self
    have harray : ∃ vs : List Primitive, field.values = vs.map stringifyPrimitive ∧
        fieldsLoop [sep] [eq] ((k, field) :: rest) f = fieldsLoop [sep] [eq] ((k, .array vs) :: rest) f := by
      cases field with
      | single v => exact ⟨[v], rfl, fieldsLoop_single v rest⟩
      | array vs => exact ⟨vs, rfl, rfl⟩
    obtain ⟨vs, hvs, harr⟩ := harray
    have hwritten : written ((k, field) :: rest) =
        ((vs.map stringifyPrimitive).map fun v => (k, v)) ++ written rest := by
      rw [written, List.flatMap_cons, hvs]
      rfl
    have htexts : ∀ v ∈ vs, IsText (stringifyPrimitive v) := fun v hm =>
      hv _ (by rw [hvs]; exact List.mem_map_of_mem hm)
    obtain ⟨g, hg, hcase⟩ := fieldsLoop_array sep eq rest (f := f) hk htexts
    rw [harr, hg, hwritten, closed_append, ← List.append_assoc]
    rcases hcase with ⟨hopen, -⟩ | ⟨hend, hne, rfl⟩
    · rw [← hopen]
      obtain ⟨g', hg', hcase⟩ := ih g hrest
      refine ⟨g', hg', hcase.imp_right fun hand => ⟨hand.1, ?_⟩⟩
      simp [hand.2]
    · refine ⟨g, rfl, .inr ⟨?_, ?_⟩⟩
      · rw [hend]
        simp [closed, written]
      · exact fun hnil => hne (by simpa using (List.append_eq_nil_iff.mp hnil).1)

/-! ### The pieces that `parse` finds -/

lemma splitOnP_closed {ps : List (JSString × JSString)} (hsep : ∀ p ∈ ps, sep ∉ piece eq p) :
    (closed sep eq ps).splitOnP (· == sep) = ps.map (piece eq) ++ [[]] := by
  induction ps with
  | nil => rfl
  | cons p ps ih =>
    have hp : ∀ c ∈ piece eq p, (c == sep) = false := fun c hc => by
      have : c ≠ sep := fun heq => hsep p List.mem_cons_self (heq ▸ hc)
      simpa using this
    have hcons : closed sep eq (p :: ps) = piece eq p ++ sep :: closed sep eq ps := by simp [closed]
    rw [hcons, List.splitOnP_append_cons _ _ (by simp), List.splitOnP_eq_singleton hp,
      ih fun q hq => hsep q (List.mem_cons_of_mem _ hq)]
    rfl

lemma within_foldl {pairs : Int} {l : List JSString} {segs : List JSString} (eq : UInt16) (obj : Obj)
    (hsegs : segs = l ∨ segs = l ++ [[]]) (hcount : pairs < 0 ∨ l.length ≤ pairs) :
    (within pairs segs).foldl (addPiece toText eq) obj = l.foldl (addPiece toText eq) obj := by
  have hnil : (l ++ [[]]).foldl (addPiece toText eq) obj = l.foldl (addPiece toText eq) obj := by
    rw [List.foldl_append]
    show addPiece toText eq (l.foldl (addPiece toText eq) obj) [] = _
    exact if_pos rfl
  rw [within]
  split_ifs with hpos
  · have hle : l.length ≤ pairs.toNat := by omega
    rcases hsegs with rfl | rfl
    · rw [List.take_of_length_le hle]
    · rcases Nat.lt_or_eq_of_le hle with hlt | heq
      · rw [List.take_of_length_le (by rw [List.length_append]; exact hlt), hnil]
      · rw [List.take_left' heq]
  · rcases hsegs with rfl | rfl
    · rfl
    · exact hnil

/-! ### The object -/

lemma put_append {obj : Obj} (hk : obj.lookup k = none) (old new : Value) :
    Obj.put (obj ++ [(k, old)]) k new = obj ++ [(k, new)] := by
  have hne : ∀ p ∈ obj, (if p.1 = k then (k, new) else p) = id p := fun p hp => by
    have := List.lookup_eq_none_iff.mp hk p hp
    have hne : p.1 ≠ k := fun heq => by simp [heq] at this
    exact if_neg hne
  rw [Obj.put, List.map_append, List.map_congr_left hne, List.map_id]
  simp

lemma assign_new {obj : Obj} (hk : obj.lookup k = none) (v : JSString) :
    obj.assign k v = obj ++ [(k, .one v)] := by
  rw [Obj.assign, hk]

lemma lookup_last {obj : Obj} (hk : obj.lookup k = none) (value : Value) :
    List.lookup k (obj ++ [(k, value)]) = some value := by
  rw [List.lookup_append, hk]
  simp

/-- The values of one key come together. -/
lemma assign_values {obj : Obj} (hk : obj.lookup k = none) (v : JSString) (vs : List JSString) :
    vs.foldl (fun o w => Obj.assign o k w) (obj ++ [(k, .one v)]) =
      obj ++ [(k, if vs = [] then .one v else .many (v :: vs))] := by
  have hmany : ∀ (l vs : List JSString), vs.foldl (fun o w => Obj.assign o k w) (obj ++ [(k, .many l)]) =
      obj ++ [(k, .many (l ++ vs))] := by
    intro l vs
    induction vs generalizing l with
    | nil => simp
    | cons w vs ih =>
      have hassign : Obj.assign (obj ++ [(k, .many l)]) k w = obj ++ [(k, .many (l ++ [w]))] := by
        rw [Obj.assign, lookup_last hk]
        exact put_append hk _ _
      rw [List.foldl_cons, hassign, ih, List.append_assoc, List.singleton_append]
  cases vs with
  | nil => rfl
  | cons w vs =>
    have hassign : Obj.assign (obj ++ [(k, .one v)]) k w = obj ++ [(k, .many [v, w])] := by
      rw [Obj.assign, lookup_last hk]
      exact put_append hk _ _
    rw [List.foldl_cons, hassign, hmany]
    rfl

/-- The pairs of an object with different keys make up the object. -/
lemma foldl_written {fields : List (JSString × Field)} (obj : Obj) (hnodup : (fields.map Prod.fst).Nodup)
    (hnew : ∀ p ∈ fields, obj.lookup p.1 = none) :
    (written fields).foldl (fun o p => Obj.assign o p.1 p.2) obj = obj ++ normalized fields := by
  induction fields generalizing obj with
  | nil => simp [written, normalized]
  | cons p rest ih =>
    obtain ⟨k, field⟩ := p
    rw [List.map_cons, List.nodup_cons] at hnodup
    obtain ⟨hk, hnodup⟩ := hnodup
    have hnone := hnew (k, field) List.mem_cons_self
    have hrest := fun q hq => hnew q (List.mem_cons_of_mem _ hq)
    have hwritten : written ((k, field) :: rest) = (field.values.map fun v => (k, v)) ++ written rest := rfl
    rw [hwritten, List.foldl_append, List.foldl_map]
    cases hvs : field.values with
    | nil =>
      rw [List.foldl_nil, ih obj hnodup hrest, normalized, normalized, List.filterMap_cons_none]
      rw [hvs]
      rfl
    | cons v vs =>
      have hfirst : (v :: vs).foldl (fun o w => Obj.assign o k w) obj =
          obj ++ [(k, if vs = [] then .one v else .many (v :: vs))] := by
        rw [List.foldl_cons, assign_new hnone, assign_values hnone]
      have hvalue : Value.ofList (v :: vs) = some (if vs = [] then .one v else .many (v :: vs)) := by
        cases vs <;> rfl
      have hnew' : ∀ q ∈ rest, List.lookup q.1 (obj ++ [(k, if vs = [] then Value.one v else .many (v :: vs))]) =
          none := fun q hq => by
        have hne : q.1 ≠ k := fun heq => hk (List.mem_map.mpr ⟨q, hq, heq⟩)
        rw [List.lookup_append, hrest q hq]
        simp [hne]
      rw [hfirst, ih _ hnodup hnew', normalized, normalized, List.filterMap_cons_some (b := (k, _))
          (by rw [hvs, hvalue]; rfl), List.append_assoc]
      rfl

lemma Texts.written (h : Texts fields) {p : JSString × JSString} (hp : p ∈ QueryString.written fields) :
    IsText p.1 ∧ IsText p.2 := by
  obtain ⟨q, hq, hp⟩ := List.mem_flatMap.mp hp
  obtain ⟨v, hv, rfl⟩ := List.mem_map.mp hp
  exact ⟨(h q hq).1, (h q hq).2 v hv⟩

lemma addPiece_piece (toText : List UInt8 → JSString) (heq : Delimiter eq) (obj : Obj) {p : JSString × JSString}
    (hp : IsText p.1 ∧ IsText p.2) : addPiece toText eq obj (piece eq p) = obj.assign p.1 p.2 := by
  rw [piece, addPiece_eq (heq.notMem hp.1.plain), hp.1.decodeStr_eq, hp.2.decodeStr_eq]

end

end LowJs.QueryString
