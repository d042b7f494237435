import LowJs.QueryString.Escape

/-!
# What is escaped is read back

`qsEscape` reads code points, and writes for each of them what `decodeURIComponent` reads as that code point. The
string comes back just in case that it is a text of characters: a surrogate without its other half is paired
with what stands behind it, or is an error at the end.
-/

namespace LowJs.QueryString

open JSString

/-- The code units of characters. -/
def utf16 (cs : List Char) : JSString := cs.flatMap fun c => units c.val.toNat

/-- The code points that `qsEscape` reads. -/
def points : JSString → Option (List Nat)
  | [] => some []
  | [c] => if c.toNat < 0xD800 ∨ c.toNat ≥ 0xE000 then some [c.toNat] else none
  | c :: c2 :: s =>
    if c.toNat < 0xD800 ∨ c.toNat ≥ 0xE000 then (points (c2 :: s)).map fun ps => c.toNat :: ps
    else
      (points s).map fun ps =>
        (0x10000 + (((c.toNat &&& 0x3FF) <<< 10) ||| (c2.toNat &&& 0x3FF))) :: ps

/-- What is written for a code point. -/
def escaped (v : Nat) : JSString :=
  if v < 0x80 then if noEscape[v]? = some 1 then [UInt16.ofNat v] else hexTable v
  else if v < 0x800 then hexTable (0xC0 ||| (v >>> 6)) ++ hexTable (0x80 ||| (v &&& 0x3F))
  else if v < 0x10000 then
    hexTable (0xE0 ||| (v >>> 12)) ++ (hexTable (0x80 ||| ((v >>> 6) &&& 0x3F)) ++
      hexTable (0x80 ||| (v &&& 0x3F)))
  else
    hexTable (0xF0 ||| (v >>> 18)) ++ (hexTable (0x80 ||| ((v >>> 12) &&& 0x3F)) ++
      (hexTable (0x80 ||| ((v >>> 6) &&& 0x3F)) ++ hexTable (0x80 ||| (v &&& 0x3F))))

section
variable {str s out : JSString} {c c2 : UInt16} {i lastPos v b : Nat} {ps : List Nat} {p : Pending}

/-! ### The loop of `qsEscape` -/

lemma points_cons (h : c.toNat < 0xD800 ∨ c.toNat ≥ 0xE000) (s : JSString) :
    points (c :: s) = (points s).map fun ps => c.toNat :: ps := by
  cases s with
  | nil => simp [points, h]
  | cons c2 s => rw [points, if_pos h]

lemma points_pair (h : ¬(c.toNat < 0xD800 ∨ c.toNat ≥ 0xE000)) (s : JSString) :
    points (c :: c2 :: s) = (points s).map fun ps =>
      (0x10000 + (((c.toNat &&& 0x3FF) <<< 10) ||| (c2.toNat &&& 0x3FF))) :: ps := by
  rw [points, if_neg h]

/-- The text that is not yet copied. -/
lemma pending_copied (h : lastPos ≤ i) :
    (if _ : lastPos < i then out ++ str.slice lastPos i else out) = out ++ str.slice lastPos i := by
  split_ifs with hlt
  · rfl
  · rw [le_antisymm h (not_lt.mp hlt), slice_self, List.append_nil]

lemma surrogate_bounds (a b : Nat) :
    0x10000 ≤ 0x10000 + (((a &&& 0x3FF) <<< 10) ||| (b &&& 0x3FF)) ∧
      0x10000 + (((a &&& 0x3FF) <<< 10) ||| (b &&& 0x3FF)) < 0x110000 := by
  have ha : a &&& 0x3FF = a % 1024 := Nat.and_two_pow_sub_one_eq_mod a 10
  have hb : b &&& 0x3FF = b % 1024 := Nat.and_two_pow_sub_one_eq_mod b 10
  have hor := Nat.shiftLeft_add_eq_or_of_lt (show b % 1024 < 2 ^ 10 by omega) (a % 1024)
  rw [ha, hb, ← hor, Nat.shiftLeft_eq]
  omega

/-- One more code unit is written. -/
lemma written_one {r : Option JSString} {x : JSString} (hi : i < str.length)
    (hc : str[i].toNat < 0xD800 ∨ str[i].toNat ≥ 0xE000)
    (hx : x = out ++ str.slice lastPos i ++ escaped str[i].toNat)
    (hr : r = (points (str.drop (i + 1))).map fun ps => x ++ ps.flatMap escaped) :
    r = (points (str.drop i)).map fun ps => out ++ str.slice lastPos i ++ ps.flatMap escaped := by
  rw [List.drop_eq_getElem_cons hi, points_cons hc, Option.map_map, hr, hx]
  congr 1
  funext ps
  simp

/-- Two more code units are written. -/
lemma written_two {r : Option JSString} {x : JSString} (hi : i + 1 < str.length)
    (hc : ¬(str[i].toNat < 0xD800 ∨ str[i].toNat ≥ 0xE000))
    (hx : x = out ++ str.slice lastPos i ++
      escaped (0x10000 + (((str[i].toNat &&& 0x3FF) <<< 10) ||| (str[i + 1].toNat &&& 0x3FF))))
    (hr : r = (points (str.drop (i + 2))).map fun ps => x ++ ps.flatMap escaped) :
    r = (points (str.drop i)).map fun ps => out ++ str.slice lastPos i ++ ps.flatMap escaped := by
  rw [List.drop_eq_getElem_cons (by omega), List.drop_eq_getElem_cons hi, points_pair hc, Option.map_map, hr, hx]
  congr 1
  funext ps
  simp

/-- The loop in front of the code unit `i` has written what is in front of `lastPos`. -/
lemma escapeLoop_eq (h : lastPos ≤ i) (hi : i ≤ str.length) :
    (escapeLoop str i lastPos out).map (fun r => r.2 ++ str.drop r.1) =
      (points (str.drop i)).map fun ps => out ++ str.slice lastPos i ++ ps.flatMap escaped := by
  fun_induction escapeLoop str i lastPos out with
  | case1 i lastPos out hlt c hc hno ih =>
    have hc : c < 0x80 := hc
    have hone : escaped c = [str[i]] := by
      rw [escaped, if_pos hc, if_pos hno, UInt16.ofNat_toNat]
    refine written_one hlt (.inl (by omega)) ?_ (ih (by omega) hlt)
    rw [hone, slice_succ h (List.getElem?_eq_getElem hlt), List.append_assoc]
  | case2 i lastPos out hlt c hc hno out' ih =>
    have hone : escaped c = hexTable c := by rw [escaped, if_pos hc, if_neg hno]
    rw [slice_self, List.append_nil] at ih
    refine written_one hlt (.inl (by omega)) ?_ (ih (le_refl _) hlt)
    rw [hone, ← pending_copied h]
  | case3 i lastPos out hlt c hc out' hc' ih =>
    have hone : escaped c = hexTable (0xC0 ||| (c >>> 6)) ++ hexTable (0x80 ||| (c &&& 0x3F)) := by
      rw [escaped, if_neg hc, if_pos hc']
    rw [slice_self, List.append_nil] at ih
    refine written_one hlt (.inl (by omega)) ?_ (ih (le_refl _) hlt)
    rw [hone, ← pending_copied h]
  | case4 i lastPos out hlt c hc out' hc' hsur ih =>
    have hlt16 : c < 0x10000 := UInt16.toNat_lt _
    have hone : escaped c = hexTable (0xE0 ||| (c >>> 12)) ++ (hexTable (0x80 ||| ((c >>> 6) &&& 0x3F)) ++
        hexTable (0x80 ||| (c &&& 0x3F))) := by
      rw [escaped, if_neg hc, if_neg hc', if_pos hlt16]
    rw [slice_self, List.append_nil] at ih
    refine written_one hlt hsur ?_ (ih (le_refl _) hlt)
    rw [hone, ← pending_copied h]
  | case5 i lastPos out hlt c hc out' hc' hsur hlt' c2 c' ih =>
    have hge : 0x10000 ≤ c' := (surrogate_bounds _ _).1
    have hone : escaped c' = hexTable (0xF0 ||| (c' >>> 18)) ++ (hexTable (0x80 ||| ((c' >>> 12) &&& 0x3F)) ++
        (hexTable (0x80 ||| ((c' >>> 6) &&& 0x3F)) ++ hexTable (0x80 ||| (c' &&& 0x3F)))) := by
      rw [escaped, if_neg (by omega), if_neg (by omega), if_neg (by omega)]
    rw [slice_self, List.append_nil] at ih
    refine written_two hlt' hsur ?_ (ih (le_refl _) hlt')
    rw [← pending_copied h]
    exact congrArg _ hone.symm
  | case6 i lastPos out hlt c hc hc' hsur hlast =>
    have hdrop : str.drop i = [str[i]] := by
      rw [List.drop_eq_getElem_cons hlt, List.drop_eq_nil_of_le (by omega)]
    rw [hdrop, points, if_neg hsur]
    rfl
  | case7 i lastPos out hlt =>
    have hlen : i = str.length := by omega
    rw [hlen, List.drop_length, points, slice_length]
    simp

/-- What the loop leaves when it copied nothing. -/
lemma escapeLoop_zero (h : escapeLoop str i lastPos out = some (0, s)) : lastPos = 0 ∧ s = out := by
  fun_induction escapeLoop str i lastPos out with
  | case1 i lastPos out hlt c hc hno ih => exact ih h
  | case2 i lastPos out hlt c hc hno out' ih => exact absurd (ih h).1 (Nat.succ_ne_zero i)
  | case3 i lastPos out hlt c hc out' hc' ih => exact absurd (ih h).1 (Nat.succ_ne_zero i)
  | case4 i lastPos out hlt c hc out' hc' hsur ih => exact absurd (ih h).1 (Nat.succ_ne_zero i)
  | case5 i lastPos out hlt c hc out' hc' hsur hlt' c2 c' ih =>
    exact absurd (ih h).1 (Nat.succ_ne_zero (i + 1))
  | case6 => cases h
  | case7 i lastPos out hlt =>
    cases h
    exact ⟨rfl, rfl⟩

lemma qsEscape_eq (str : JSString) : qsEscape str = (points str).map fun ps => ps.flatMap escaped := by
  have hloop : (escapeLoop str 0 0 []).map (fun r => r.2 ++ str.drop r.1) = _ :=
    escapeLoop_eq (le_refl 0) (Nat.zero_le _)
  rw [List.drop_zero] at hloop
  refine Eq.trans ?_ (hloop.trans ?_)
  · rw [qsEscape]
    cases hr : escapeLoop str 0 0 [] with
    | none => rfl
    | some r =>
      obtain ⟨lastPos, out⟩ := r
      refine congrArg some ?_
      show (if lastPos = 0 then str else if lastPos < str.length then out ++ str.slice lastPos str.length else out) =
        out ++ str.drop lastPos
      split_ifs with hzero hlt
      · subst hzero
        rw [(escapeLoop_zero hr).2, List.drop_zero, List.nil_append]
      · rw [slice_length]
      · rw [List.drop_eq_nil_of_le (by omega), List.append_nil]
  · simp [slice_self]

/-! ### The code points of a text -/

lemma points_valid (h : points s = some ps) : ∀ v ∈ ps, v.isValidChar := by
  fun_induction points s generalizing ps with
  | case1 => simp_all
  | case2 c hc =>
    cases h
    intro v hv
    obtain rfl := List.mem_singleton.mp hv
    have := UInt16.toNat_lt c
    simp only [Nat.isValidChar]
    omega
  | case3 => cases h
  | case4 c c2 s hc ih =>
    obtain ⟨qs, hqs, rfl⟩ := Option.map_eq_some_iff.mp h
    intro v hv
    rcases List.mem_cons.mp hv with rfl | hv
    · have := UInt16.toNat_lt c
      simp only [Nat.isValidChar]
      omega
    · exact ih hqs v hv
  | case5 c c2 s hc ih =>
    obtain ⟨qs, hqs, rfl⟩ := Option.map_eq_some_iff.mp h
    intro v hv
    rcases List.mem_cons.mp hv with rfl | hv
    · have := surrogate_bounds c.toNat c2.toNat
      simp only [Nat.isValidChar]
      omega
    · exact ih hqs v hv

lemma points_units (hv : v.isValidChar) (s : JSString) :
    points (units v ++ s) = (points s).map fun ps => v :: ps := by
  simp only [Nat.isValidChar] at hv
  rw [units]
  split_ifs with hlt
  · have hnat : (UInt16.ofNat v).toNat = v := by
      rw [UInt16.toNat_ofNat']
      exact Nat.mod_eq_of_lt hlt
    rw [List.singleton_append, points_cons (by rw [hnat]; omega), hnat]
  · have hhigh : (UInt16.ofNat (0xD800 + (v - 0x10000) / 0x400)).toNat = 0xD800 + (v - 0x10000) / 0x400 := by
      rw [UInt16.toNat_ofNat']
      exact Nat.mod_eq_of_lt (by omega)
    have hlow : (UInt16.ofNat (0xDC00 + (v - 0x10000) % 0x400)).toNat = 0xDC00 + (v - 0x10000) % 0x400 := by
      rw [UInt16.toNat_ofNat']
      exact Nat.mod_eq_of_lt (by omega)
    have ha : (0xD800 + (v - 0x10000) / 0x400) &&& 0x3FF = (v - 0x10000) / 0x400 := by
      refine (Nat.and_two_pow_sub_one_eq_mod _ 10).trans ?_
      omega
    have hb : (0xDC00 + (v - 0x10000) % 0x400) &&& 0x3FF = (v - 0x10000) % 0x400 := by
      refine (Nat.and_two_pow_sub_one_eq_mod _ 10).trans ?_
      omega
    have hor := Nat.shiftLeft_add_eq_or_of_lt (show (v - 0x10000) % 0x400 < 2 ^ 10 by omega)
      ((v - 0x10000) / 0x400)
    have hsum : 0x10000 + (((v - 0x10000) / 0x400) <<< 10 + (v - 0x10000) % 0x400) = v := by
      rw [Nat.shiftLeft_eq]
      omega
    rw [List.cons_append, List.singleton_append, points_pair (by rw [hhigh]; omega), hhigh, hlow, ha, hb, ← hor,
      hsum]

lemma points_utf16 (cs : List Char) : points (utf16 cs) = some (cs.map fun c => c.val.toNat) := by
  induction cs with
  | nil => rfl
  | cons c cs ih =>
    rw [utf16, List.flatMap_cons, points_units c.valid]
    rw [utf16] at ih
    rw [ih]
    rfl

/-! ### Decoding -/

lemma unhex_hexDigit (h : b < 16) : unhex (hexDigit b) = some b := by
  have hall : ∀ d : Fin 16, unhex (hexDigit d) = some d.val := by decide
  exact hall ⟨b, h⟩

lemma decode_ascii (h : b < 0x80) (s : JSString) :
    decodeFrom none (hexTable b ++ s) = (decodeFrom none s).map fun t => UInt16.ofNat b :: t := by
  have hb : 16 * (b / 16) + b % 16 = b := by omega
  simp only [hexTable, List.cons_append, List.nil_append, decodeFrom, unhex_hexDigit (by omega : b / 16 < 16),
    unhex_hexDigit (by omega : b % 16 < 16), hb, if_pos h]

lemma decode_lead (hb : b < 0x100) (hp : leadByte b = some p) (s : JSString) :
    decodeFrom none (hexTable b ++ s) = decodeFrom (some p) s := by
  have heq : 16 * (b / 16) + b % 16 = b := by omega
  have hge : ¬b < 0x80 := by
    intro hlt
    rw [leadByte, if_pos (by omega)] at hp
    cases hp
  simp only [hexTable, List.cons_append, List.nil_append, decodeFrom, unhex_hexDigit (by omega : b / 16 < 16),
    unhex_hexDigit (by omega : b % 16 < 16), heq, if_neg hge, hp]

lemma decode_more (hv : v < 64) (hp : p.missing ≠ 1) (s : JSString) :
    decodeFrom (some p) (hexTable (0x80 + v) ++ s) =
      decodeFrom (some ⟨p.missing - 1, p.value * 64 + v, p.least⟩) s := by
  have heq : 16 * ((0x80 + v) / 16) + (0x80 + v) % 16 = 0x80 + v := by omega
  have hdiv : (0x80 + v) / 64 = 2 := by omega
  have hmod : (0x80 + v) % 64 = v := by omega
  simp only [hexTable, List.cons_append, List.nil_append, decodeFrom,
    unhex_hexDigit (by omega : (0x80 + v) / 16 < 16), unhex_hexDigit (by omega : (0x80 + v) % 16 < 16), heq, hdiv,
    hmod, if_true, if_neg hp]

lemma decode_last (hv : v < 64) (hp : p.missing = 1)
    (hok : p.least ≤ p.value * 64 + v ∧ (p.value * 64 + v).isValidChar) (s : JSString) :
    decodeFrom (some p) (hexTable (0x80 + v) ++ s) =
      (decodeFrom none s).map fun t => units (p.value * 64 + v) ++ t := by
  have heq : 16 * ((0x80 + v) / 16) + (0x80 + v) % 16 = 0x80 + v := by omega
  have hdiv : (0x80 + v) / 64 = 2 := by omega
  have hmod : (0x80 + v) % 64 = v := by omega
  simp only [hexTable, List.cons_append, List.nil_append, decodeFrom,
    unhex_hexDigit (by omega : (0x80 + v) / 16 < 16), unhex_hexDigit (by omega : (0x80 + v) % 16 < 16), heq, hdiv,
    hmod, if_true, if_pos hp, if_pos hok]

/-- The bits of a byte behind its mark. -/
lemma mark_or {n k : Nat} (h : b < 2 ^ n) : 2 ^ n * k ||| b = 2 ^ n * k + b :=
  (Nat.two_pow_add_eq_or_of_lt h k).symm

lemma trail_eq (v : Nat) : 0x80 ||| (v &&& 0x3F) = 0x80 + v % 64 := by
  have hmod : v &&& 0x3F = v % 64 := Nat.and_two_pow_sub_one_eq_mod v 6
  rw [hmod]
  exact mark_or (n := 6) (k := 2) (by omega)

lemma lead_two (h : v < 0x800) : 0xC0 ||| (v >>> 6) = 0xC0 + v / 64 := by
  rw [Nat.shiftRight_eq_div_pow]
  exact mark_or (n := 5) (k := 6) (by omega)

lemma lead_three (h : v < 0x10000) : 0xE0 ||| (v >>> 12) = 0xE0 + v / 4096 := by
  rw [Nat.shiftRight_eq_div_pow]
  exact mark_or (n := 4) (k := 14) (by omega)

lemma lead_four (h : v < 0x110000) : 0xF0 ||| (v >>> 18) = 0xF0 + v / 262144 := by
  rw [Nat.shiftRight_eq_div_pow]
  exact mark_or (n := 3) (k := 30) (by omega)

lemma decode_escaped (hv : v.isValidChar) (s : JSString) :
    decodeFrom none (escaped v ++ s) = (decodeFrom none s).map fun t => units v ++ t := by
  have hvalid := hv
  simp only [Nat.isValidChar] at hv
  rw [escaped]
  by_cases h1 : v < 0x80
  · have hunits : units v = [UInt16.ofNat v] := by rw [units, if_pos (by omega)]
    rw [if_pos h1, hunits]
    by_cases hno : noEscape[v]? = some 1
    · have hpercent : UInt16.ofNat v ≠ 37 := by
        intro heq
        have hnat : v = 37 := by
          have := congrArg UInt16.toNat heq
          rw [UInt16.toNat_ofNat', Nat.mod_eq_of_lt (by omega)] at this
          exact this
        rw [hnat] at hno
        exact absurd hno (by decide)
      rw [if_pos hno, List.singleton_append, decode_plain hpercent]
      rfl
    · rw [if_neg hno, decode_ascii h1]
      rfl
  rw [if_neg h1]
  by_cases h2 : v < 0x800
  · have hp : leadByte (0xC0 + v / 64) = some ⟨1, v / 64, 0x80⟩ := by
      have hmod : (0xC0 + v / 64) % 32 = v / 64 := by omega
      rw [leadByte, if_neg (by omega), if_pos (by omega), hmod]
    have hval : v / 64 * 64 + v % 64 = v := by omega
    rw [if_pos h2, lead_two h2, trail_eq, List.append_assoc, decode_lead (by omega) hp,
      decode_last (by omega) rfl (by simp only [hval]; exact ⟨by omega, hvalid⟩)]
    simp only [hval]
  rw [if_neg h2]
  by_cases h3 : v < 0x10000
  · have hp : leadByte (0xE0 + v / 4096) = some ⟨2, v / 4096, 0x800⟩ := by
      have hmod : (0xE0 + v / 4096) % 16 = v / 4096 := by omega
      rw [leadByte, if_neg (by omega), if_neg (by omega), if_pos (by omega), hmod]
    have hshift : v >>> 6 = v / 64 := Nat.shiftRight_eq_div_pow v 6
    have hval : (v / 4096 * 64 + v / 64 % 64) * 64 + v % 64 = v := by omega
    rw [if_pos h3, lead_three h3, trail_eq, trail_eq, hshift, List.append_assoc, List.append_assoc,
      decode_lead (by omega) hp, decode_more (by omega) (by simp),
      decode_last (by omega) rfl (by simp only [hval]; exact ⟨by omega, hvalid⟩)]
    simp only [hval]
  rw [if_neg h3]
  have hp : leadByte (0xF0 + v / 262144) = some ⟨3, v / 262144, 0x10000⟩ := by
    have hmod : (0xF0 + v / 262144) % 8 = v / 262144 := by omega
    rw [leadByte, if_neg (by omega), if_neg (by omega), if_neg (by omega), if_pos (by omega), hmod]
  have hshift : v >>> 6 = v / 64 := Nat.shiftRight_eq_div_pow v 6
  have hshift' : v >>> 12 = v / 4096 := Nat.shiftRight_eq_div_pow v 12
  have hval : ((v / 262144 * 64 + v / 4096 % 64) * 64 + v / 64 % 64) * 64 + v % 64 = v := by omega
  rw [lead_four (by omega), trail_eq, trail_eq, trail_eq, hshift, hshift', List.append_assoc, List.append_assoc, List.append_assoc,
    decode_lead (by omega) hp, decode_more (by omega) (by simp), decode_more (by omega) (by simp),
    decode_last (by omega) rfl (by simp only [hval]; exact ⟨by omega, hvalid⟩)]
  simp only [hval]

/-- What is written for code points is decoded as their code units. -/
lemma decode_points (h : ∀ v ∈ ps, v.isValidChar) :
    decodeURIComponent (ps.flatMap escaped) = some (ps.flatMap units) := by
  rw [decodeURIComponent]
  induction ps with
  | nil => rfl
  | cons v ps ih =>
    rw [List.flatMap_cons, decode_escaped (h v List.mem_cons_self),
      ih fun w hw => h w (List.mem_cons_of_mem _ hw)]
    rfl

/-- What `qsEscape` writes for a text of characters is read back. -/
lemma escape_utf16 (cs : List Char) :
    ∃ e, qsEscape (utf16 cs) = some e ∧ decodeURIComponent e = some (utf16 cs) := by
  refine ⟨_, by rw [qsEscape_eq, points_utf16]; rfl, ?_⟩
  rw [decode_points fun v hv => ?_]
  · rw [utf16, List.flatMap_map]
  · obtain ⟨c, -, rfl⟩ := List.mem_map.mp hv
    exact c.valid

/-- A string comes back from `qsEscape` and `qsUnescape` just in case that it is a text of characters. A
surrogate on its own is an error or comes back as another character. -/
theorem unescape_escape_iff (toText : List UInt8 → JSString) (str : JSString) (decodeSpaces : Bool) :
    (qsEscape str).map (fun e => qsUnescape toText e decodeSpaces) = some str ↔ ∃ cs, str = utf16 cs := by
  constructor
  · intro h
    obtain ⟨e, he, hback⟩ := Option.map_eq_some_iff.mp h
    rw [qsEscape_eq] at he
    obtain ⟨ps, hps, rfl⟩ := Option.map_eq_some_iff.mp he
    have hvalid := points_valid hps
    rw [qsUnescape, decode_points hvalid] at hback
    refine ⟨ps.map Char.ofNat, hback.symm.trans ?_⟩
    rw [utf16, List.flatMap_map]
    refine List.flatMap_congr fun v hv => ?_
    have hnat : (Char.ofNat v).val.toNat = v := by
      rw [Char.ofNat, dif_pos (hvalid v hv)]
      rfl
    rw [hnat]
  · rintro ⟨cs, rfl⟩
    obtain ⟨e, he, hback⟩ := escape_utf16 cs
    rw [he, Option.map_some, qsUnescape, hback]
    rfl

end

end LowJs.QueryString
