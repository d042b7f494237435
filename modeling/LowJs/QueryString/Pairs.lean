import LowJs.QueryString.Parse

/-!
# The pairs of a query string

With separators of one code unit, the one pass of `parse` comes to cutting the string into pieces, a piece into
key and value, and decoding both. Where the search for an encoded byte finds none there is nothing to decode; it
may find one where there is none, and then in a string of ASCII characters decoding changes nothing.
-/

namespace LowJs.QueryString

open JSString

/-- `+` stands for a space. -/
def space (c : UInt16) : UInt16 := if c = 43 then 32 else c

/-- An encoded byte. -/
def HasCode (t : JSString) : Prop := ∃ a b high low, t = a ++ 37 :: high :: low :: b ∧ isHex high ∧ isHex low

/-- The characters are those of ASCII. -/
def Ascii (t : JSString) : Prop := ∀ c ∈ t, c < 128

/-- `toString` reads ASCII characters as they are. -/
def ReadsAscii (toText : List UInt8 → JSString) : Prop := ∀ t : JSString, Ascii t → toText (t.map UInt16.toUInt8) = t

section
variable {toText : List UInt8 → JSString} {qs seg t raw : JSString} {sep eq c : UInt16} {s : State} {i n : Nat}
  {check : Nat} {obj : Obj} {pairs : Int}

/-! ### Strings without encoded bytes -/

lemma HasCode.cons (h : HasCode t) (c : UInt16) : HasCode (c :: t) := by
  obtain ⟨a, b, high, low, rfl, hcode⟩ := h
  exact ⟨c :: a, b, high, low, rfl, hcode⟩

lemma HasCode.append (h : HasCode t) (u : JSString) : HasCode (u ++ t) := by
  induction u with
  | nil => exact h
  | cons c u ih => exact ih.cons c

lemma unescapeLoop_plain (h : ¬HasCode t) : (unescapeLoop false t).1 = t.map UInt16.toUInt8 := by
  fun_induction unescapeLoop false t with
  | case1 => rfl
  | case2 high low s hhigh r ih =>
    have ih := ih fun hcode => h ((hcode.cons high).cons 37)
    exact congrArg (fun l => 37 :: high.toUInt8 :: l) ih
  | case3 high low s hexHigh hhigh r hlow ih =>
    have ih := ih fun hcode => h (((hcode.cons low).cons high).cons 37)
    exact congrArg (fun l => 37 :: high.toUInt8 :: low.toUInt8 :: l) ih
  | case4 high low s hexHigh hhigh r hexLow hlow ih =>
    exact absurd ⟨[], s, high, low, rfl, by simp [isHex, hhigh], by simp [isHex, hlow]⟩ h
  | case5 currentChar s hno r hspace ih => simp at hspace
  | case6 currentChar s hno r hspace ih =>
    have ih := ih fun hcode => h (hcode.cons currentChar)
    exact congrArg (fun l => currentChar.toUInt8 :: l) ih

/-- Where no byte is encoded, `decodeURIComponent` gives the string back or throws. -/
lemma decode_noCode (h : ¬HasCode t) : decodeURIComponent t = some t ∨ decodeURIComponent t = none := by
  rw [decodeURIComponent]
  induction t with
  | nil => exact .inl rfl
  | cons c t ih =>
    by_cases hc : c = 37
    · subst hc
      right
      rcases t with _ | ⟨high, _ | ⟨low, t⟩⟩
      · rfl
      · rfl
      · rw [decodeFrom]
        cases hhigh : unhex high with
        | none => rfl
        | some x =>
          cases hlow : unhex low with
          | none => rfl
          | some y => exact absurd ⟨[], t, high, low, rfl, by simp [isHex, hhigh], by simp [isHex, hlow]⟩ h
    · rw [decode_plain hc]
      rcases ih fun hcode => h (hcode.cons c) with hsome | hnone
      · exact .inl (by rw [hsome]; rfl)
      · exact .inr (by rw [hnone]; rfl)

/-- Decoding changes nothing where no byte is encoded. -/
lemma decodeStr_plain (htext : ReadsAscii toText) (hascii : Ascii t) (h : ¬HasCode t) : decodeStr toText t = t := by
  rw [decodeStr, qsUnescape]
  rcases decode_noCode h with hsome | hnone
  · rw [hsome]
    rfl
  · rw [hnone, Option.getD_none, unescapeBuffer, unescapeLoop_plain h]
    exact htext t hascii

/-! ### The search for an encoded byte -/

/-- The search has met no encoded byte, and `encodeCheck` counts what is met of one at the end. -/
structure Scanned (t : JSString) (check : Nat) : Prop where
  noCode : ¬HasCode t
  one : (∃ a, t = a ++ [37]) → check = 1
  two : (∃ a high, t = a ++ [37, high] ∧ isHex high) → check = 2

lemma scanned_nil (check : Nat) : Scanned [] check :=
  ⟨fun ⟨a, b, high, low, h, _⟩ => by simp at h, fun ⟨a, h⟩ => by simp at h, fun ⟨a, high, h, _⟩ => by simp at h⟩

/-- A code unit behind. -/
lemma Scanned.snoc {check' : Nat} (h : Scanned t check) (hone : c = 37 → check' = 1)
    (htwo : isHex c → 0 < check → check' = check + 1 ∧ check + 1 ≠ 3) : Scanned (t ++ [c]) check' := by
  have hpercent : isHex 37 = false := by decide
  refine ⟨?_, ?_, ?_⟩
  · rintro ⟨a, b, high, low, heq, hhigh, hlow⟩
    rcases List.eq_nil_or_concat' b with rfl | ⟨b, d, rfl⟩
    · have hsplit : t ++ [c] = (a ++ [37, high]) ++ [low] := by simpa using heq
      obtain ⟨rfl, hc⟩ := List.append_inj' hsplit rfl
      obtain rfl : c = low := (List.cons.inj hc).1
      have hcheck := h.two ⟨a, high, rfl, hhigh⟩
      exact (htwo hlow (by omega)).2 (by omega)
    · have hsplit : t ++ [c] = (a ++ 37 :: high :: low :: b) ++ [d] := by simpa using heq
      exact h.noCode ⟨a, b, high, low, (List.append_inj' hsplit rfl).1, hhigh, hlow⟩
  · rintro ⟨a, heq⟩
    exact hone (List.cons.inj (List.append_inj' heq rfl).2).1
  · rintro ⟨a, high, heq, hhigh⟩
    have hsplit : t ++ [c] = (a ++ [37]) ++ [high] := by simpa using heq
    obtain ⟨rfl, hc⟩ := List.append_inj' hsplit rfl
    obtain rfl : c = high := (List.cons.inj hc).1
    have hcheck := h.one ⟨a, rfl⟩
    have hnext := (htwo hhigh (by omega)).1
    omega

/-! ### The strings of a piece -/

/-- What is copied so far of a string, and what will be copied. -/
structure Copies (qs : JSString) (i lastPos : Nat) (copied t : JSString) : Prop where
  le : lastPos ≤ i
  text : copied ++ qs.slice lastPos i = t

lemma Copies.copy {lastPos : Nat} {copied : JSString} (h : Copies qs i lastPos copied t) :
    (if lastPos < i then copied ++ qs.slice lastPos i else copied) = t := by
  split_ifs with hlt
  · exact h.text
  · rw [← h.text, le_antisymm h.le (not_lt.mp hlt), slice_self, List.append_nil]

lemma Copies.snoc {lastPos : Nat} {copied : JSString} (h : Copies qs i lastPos copied t) (hc : qs[i]? = some c) :
    Copies qs (i + 1) lastPos copied (t ++ [c]) :=
  ⟨h.le.trans (Nat.le_succ i), by rw [slice_succ h.le hc, ← List.append_assoc, h.text]⟩

lemma copies_self (t : JSString) : Copies qs i i t t := ⟨le_refl i, by rw [slice_self, List.append_nil]⟩

/-- The key is read, so far `t`. -/
structure InKey (qs : JSString) (i : Nat) (t : JSString) (obj : Obj) (pairs : Int) (s : State) : Prop where
  sepIdx : s.sepIdx = 0
  eqIdx : s.eqIdx = 0
  copies : Copies qs i s.lastPos s.key t
  value : s.value = []
  scanned : s.keyEncoded = false → Scanned t s.encodeCheck
  obj_eq : s.obj = obj
  pairs_eq : s.pairs = pairs

/-- The value is read, so far `t`, behind the key `k`. -/
structure InValue (qs : JSString) (i : Nat) (k t : JSString) (obj : Obj) (pairs : Int) (s : State) : Prop where
  sepIdx : s.sepIdx = 0
  eqIdx : s.eqIdx = 1
  key : s.key = k
  keyEncoded : s.keyEncoded = false → ¬HasCode k
  copies : Copies qs i s.lastPos s.value t
  scanned : s.valEncoded = false → Scanned t s.encodeCheck
  obj_eq : s.obj = obj
  pairs_eq : s.pairs = pairs

/-- The end of a turn, at a code unit that is copied later. -/
lemma valueTurn_copied (qs t : JSString) (i : Nat) (hc : c ≠ 43) (s : State) :
    ∃ check enc, valueTurn qs i c s = { s with encodeCheck := check, valEncoded := enc } ∧
      (s.encodeCheck = 0 → c ≠ 37 → check = 0) ∧
      (s.valEncoded = false → Scanned t s.encodeCheck → enc = false → Scanned (t ++ [c]) check) := by
  have hpercent : isHex 37 = false := by decide
  rw [valueTurn, if_neg hc]
  cases henc : s.valEncoded with
  | true => exact ⟨s.encodeCheck, true, by rw [if_pos rfl, ← henc], fun h _ => h, fun h => absurd h (by simp)⟩
  | false =>
    rw [if_neg (by simp)]
    by_cases h37 : c = 37
    · rw [if_pos h37]
      refine ⟨1, false, by rw [← henc], fun _ h => absurd h37 h, fun _ hs _ => hs.snoc (fun _ => rfl) ?_⟩
      rw [h37, hpercent]
      exact fun h => absurd h (by simp)
    · rw [if_neg h37]
      by_cases hpos : s.encodeCheck > 0
      · rw [if_pos hpos]
        by_cases hhex : isHex c
        · rw [if_pos hhex]
          refine ⟨s.encodeCheck + 1, s.encodeCheck + 1 == 3, rfl, fun h => by omega, fun _ hs he => ?_⟩
          exact hs.snoc (fun h => absurd h h37) fun _ _ => ⟨rfl, by simpa using he⟩
        · rw [if_neg hhex]
          exact ⟨0, false, by rw [← henc], fun _ _ => rfl, fun _ hs _ =>
            hs.snoc (fun h => absurd h h37) fun h => absurd h hhex⟩
      · rw [if_neg hpos]
        exact ⟨s.encodeCheck, false, by rw [← henc], fun h _ => h, fun _ hs _ =>
          hs.snoc (fun h => absurd h h37) fun _ h => absurd h hpos⟩

lemma space_of_ne (hc : c ≠ 43) : space c = c := if_neg hc

lemma InValue.turn {k : JSString} (h : InValue qs i k t obj pairs s) (hc : qs[i]? = some c) :
    InValue qs (i + 1) k (t ++ [space c]) obj pairs (valueTurn qs i c s) := by
  by_cases h43 : c = 43
  · subst h43
    have hturn : valueTurn qs i 43 s = { s with value := t ++ [32], lastPos := i + 1 } := by
      rw [valueTurn, if_pos rfl, h.copies.copy]
    rw [hturn]
    exact ⟨h.sepIdx, h.eqIdx, h.key, h.keyEncoded, copies_self _, fun henc =>
      (h.scanned henc).snoc (fun heq => absurd heq (by decide)) fun hhex => absurd hhex (by decide), h.obj_eq,
      h.pairs_eq⟩
  · obtain ⟨check, enc, hturn, -, hscan⟩ := valueTurn_copied qs t i h43 s
    rw [hturn, space_of_ne h43]
    refine ⟨h.sepIdx, h.eqIdx, h.key, h.keyEncoded, h.copies.snoc hc, fun henc => ?_, h.obj_eq, h.pairs_eq⟩
    cases hval : s.valEncoded with
    | false => exact hscan hval (h.scanned hval) henc
    | true =>
      -- Once it is met, an encoded byte is not forgotten.
      rw [valueTurn, if_neg h43, hval, if_pos rfl] at hturn
      have := congrArg State.valEncoded hturn
      rw [hval] at this
      exact absurd (this.trans henc) (by simp)

/-- The code unit between key and value. -/
lemma InKey.turn_eq (h : InKey qs i t obj pairs s) :
    InValue qs (i + 1) t [] obj pairs (keyTurn qs [eq] i eq s) := by
  have hturn : keyTurn qs [eq] i eq s =
      { s with eqIdx := 1, key := t, encodeCheck := 0, lastPos := i + 1 } := by
    have hcopy := h.copies.copy
    rw [keyTurn, h.eqIdx]
    simp only [List.getElem?_cons_zero, if_true, Nat.zero_add, List.length_singleton, Nat.add_sub_cancel, hcopy]
  rw [hturn]
  refine ⟨h.sepIdx, rfl, rfl, fun henc => (h.scanned henc).noCode, ?_, fun _ => scanned_nil 0, h.obj_eq, h.pairs_eq⟩
  rw [h.value]
  exact copies_self []

lemma InKey.turn (h : InKey qs i t obj pairs s) (hne : c ≠ eq) (hc : qs[i]? = some c) :
    InKey qs (i + 1) (t ++ [space c]) obj pairs (keyTurn qs [eq] i c s) := by
  have hpercent : isHex 37 = false := by decide
  have hplus : isHex 43 = false := by decide
  have hstart : keyTurn qs [eq] i c s =
      if (checkKey c s).1 then (checkKey c s).2
      else if c = 43 then
        { (checkKey c s).2 with
          key := (if (checkKey c s).2.lastPos < i then
            (checkKey c s).2.key ++ qs.slice (checkKey c s).2.lastPos i else (checkKey c s).2.key) ++ [32]
          lastPos := i + 1 }
      else valueTurn qs i c (checkKey c s).2 := by
    have hs : { s with eqIdx := 0 } = s := by rw [← h.eqIdx]
    rw [keyTurn, if_neg (by simpa [h.eqIdx] using Ne.symm hne), hs]
  rw [hstart]
  have hcopied : ∀ {check enc enc'}, (enc = false → Scanned (t ++ [c]) check) → c ≠ 43 →
      InKey qs (i + 1) (t ++ [space c]) obj pairs
        { s with encodeCheck := check, keyEncoded := enc, valEncoded := enc' } := fun hscan h43 => by
    rw [space_of_ne h43]
    exact ⟨h.sepIdx, h.eqIdx, h.copies.snoc hc, h.value, hscan, h.obj_eq, h.pairs_eq⟩
  have hspace : ∀ {check}, c = 43 → (s.keyEncoded = false → Scanned (t ++ [32]) check) →
      InKey qs (i + 1) (t ++ [space c]) obj pairs
        { s with
          encodeCheck := check
          key := (if s.lastPos < i then s.key ++ qs.slice s.lastPos i else s.key) ++ [32]
          lastPos := i + 1 } := fun h43 hscan => by
    rw [h43, h.copies.copy]
    exact ⟨h.sepIdx, h.eqIdx, copies_self _, h.value, hscan, h.obj_eq, h.pairs_eq⟩
  cases henc : s.keyEncoded with
  | true =>
    have hcheck : checkKey c s = (false, s) := by rw [checkKey, if_pos henc]
    rw [hcheck, if_neg (by simp)]
    by_cases h43 : c = 43
    · rw [if_pos h43]
      exact hspace h43 fun hf => absurd (henc.symm.trans hf) (by simp)
    · obtain ⟨check, enc, hturn, -, -⟩ := valueTurn_copied qs t i h43 s
      rw [if_neg h43, hturn]
      exact hcopied (fun hf => absurd (henc.symm.trans hf) (by simp)) h43
  | false =>
    have hscan := h.scanned henc
    by_cases h37 : c = 37
    · have hcheck : checkKey c s = (true, { s with encodeCheck := 1 }) := by
        rw [checkKey, if_neg (by simp [henc]), if_pos h37]
      rw [hcheck, if_pos rfl]
      refine hcopied (fun _ => hscan.snoc (fun _ => rfl) fun hhex => ?_) (by rw [h37]; decide)
      rw [h37, hpercent] at hhex
      cases hhex
    · by_cases hhex : s.encodeCheck > 0 ∧ isHex c
      · have hcheck : checkKey c s =
            (true, { s with encodeCheck := s.encodeCheck + 1, keyEncoded := s.encodeCheck + 1 == 3 }) := by
          rw [checkKey, if_neg (by simp [henc]), if_neg h37, if_pos hhex.1, if_pos hhex.2]
        have h43 : c ≠ 43 := fun heq => by
          rw [heq, hplus] at hhex
          exact absurd hhex.2 (by simp)
        rw [hcheck, if_pos rfl]
        exact hcopied (fun he => hscan.snoc (fun heq => absurd heq h37) fun _ _ => ⟨rfl, by simpa using he⟩) h43
      · -- The key has no part of an encoded byte at its end any more.
        have hcheck : checkKey c s = (false, { s with encodeCheck := 0 }) := by
          rw [checkKey, if_neg (by simp [henc]), if_neg h37]
          by_cases hpos : s.encodeCheck > 0
          · rw [if_pos hpos, if_neg fun hx => hhex ⟨hpos, hx⟩]
          · have hzero : s.encodeCheck = 0 := by omega
            rw [if_neg hpos, ← hzero]
        rw [hcheck, if_neg (by simp)]
        by_cases h43 : c = 43
        · rw [if_pos h43]
          refine hspace h43 fun _ => hscan.snoc (fun heq => absurd heq (by decide)) fun hx => ?_
          exact absurd hx (by decide)
        · obtain ⟨check, enc, hturn, hzero, -⟩ := valueTurn_copied qs t i h43
            { s with encodeCheck := 0 }
          rw [if_neg h43, hturn]
          refine hcopied (fun _ => ?_) h43
          rw [hzero rfl h37]
          exact hscan.snoc (fun heq => absurd heq h37) fun hx hpos => absurd ⟨hpos, hx⟩ hhex

/-! ### The pieces -/

/-- The variables in front of a pair. -/
def fresh (i : Nat) (obj : Obj) (pairs : Int) : State := ⟨i, 0, 0, [], [], false, false, 0, pairs, obj⟩

/-- The piece is read, so far `seg`. -/
def Reading (qs : JSString) (eq : UInt16) (i : Nat) (seg : JSString) (obj : Obj) (pairs : Int) (s : State) : Prop :=
  (eq ∉ seg ∧ InKey qs i (seg.map space) obj pairs s) ∨
    ∃ a b, seg = a ++ eq :: b ∧ eq ∉ a ∧ InValue qs i (a.map space) (b.map space) obj pairs s

lemma reading_fresh (qs : JSString) (eq : UInt16) (i : Nat) (obj : Obj) (pairs : Int) :
    Reading qs eq i [] obj pairs (fresh i obj pairs) :=
  .inl ⟨List.not_mem_nil, rfl, rfl, copies_self [], rfl, fun _ => scanned_nil 0, rfl, rfl⟩

lemma Reading.sepIdx (h : Reading qs eq i seg obj pairs s) : s.sepIdx = 0 := by
  rcases h with ⟨-, h⟩ | ⟨a, b, -, -, h⟩
  · exact h.sepIdx
  · exact h.sepIdx

/-- A code unit of the piece. -/
lemma Reading.turn (toText : List UInt8 → JSString) (h : Reading qs eq i seg obj pairs s) (hsep : c ≠ sep)
    (hc : qs[i]? = some c) :
    ∃ s', QueryString.turn toText qs [sep] [eq] i c s = .inr s' ∧
      Reading qs eq (i + 1) (seg ++ [c]) obj pairs s' := by
  have hs : { s with sepIdx := 0 } = s := by rw [← h.sepIdx]
  have hstart : QueryString.turn toText qs [sep] [eq] i c s =
      .inr (if s.eqIdx < 1 then keyTurn qs [eq] i c s else valueTurn qs i c s) := by
    rw [QueryString.turn, if_neg (by simpa [h.sepIdx] using hsep.symm), hs]
    rfl
  refine ⟨_, hstart, ?_⟩
  rcases h with ⟨hno, h⟩ | ⟨a, b, rfl, hno, h⟩
  · rw [if_pos (by rw [h.eqIdx]; exact Nat.one_pos)]
    by_cases hc' : c = eq
    · subst hc'
      exact .inr ⟨seg, [], rfl, hno, h.turn_eq⟩
    · refine .inl ⟨by simp [hno, Ne.symm hc'], ?_⟩
      rw [List.map_append]
      exact h.turn hc' hc
  · rw [if_neg (by rw [h.eqIdx]; exact Nat.lt_irrefl 1)]
    refine .inr ⟨a, b ++ [c], by simp, hno, ?_⟩
    rw [List.map_append]
    exact h.turn hc

lemma Reading.units {more rest : JSString} (toText : List UInt8 → JSString) (h : Reading qs eq i seg obj pairs s)
    (hsep : sep ∉ more) (hdrop : qs.drop i = more ++ rest) :
    ∃ s', parseLoop toText qs [sep] [eq] i (more ++ rest) s =
        parseLoop toText qs [sep] [eq] (i + more.length) rest s' ∧
      Reading qs eq (i + more.length) (seg ++ more) obj pairs s' := by
  induction more generalizing i seg s with
  | nil => exact ⟨s, rfl, by rw [List.append_nil]; exact h⟩
  | cons c more ih =>
    have hc : qs[i]? = some c := by
      have := congrArg List.head? hdrop
      rwa [List.head?_drop] at this
    have hdrop' : qs.drop (i + 1) = more ++ rest := by
      rw [← List.drop_drop, hdrop]
      rfl
    have hcs : c ≠ sep := fun heq => hsep (by simp [heq])
    obtain ⟨s', hturn, hs'⟩ := h.turn toText hcs hc
    obtain ⟨s'', hloop, hs''⟩ := ih hs' (fun hm => hsep (List.mem_cons_of_mem _ hm)) hdrop'
    have hlen : i + (c :: more).length = i + 1 + more.length := by
      rw [List.length_cons]
      omega
    refine ⟨s'', ?_, ?_⟩
    · rw [List.cons_append, parseLoop, hturn, hlen]
      exact hloop
    · rw [hlen]
      simpa using hs''

/-- What a piece adds to the object: nothing when it is empty; else its key, up to the first `eq`, and what is
behind it, with spaces for `+`, both decoded. -/
def addPiece (toText : List UInt8 → JSString) (eq : UInt16) (obj : Obj) (seg : JSString) : Obj :=
  if seg = [] then obj
  else
    obj.assign (decodeStr toText ((seg.takeWhile (· != eq)).map space))
      (decodeStr toText (((seg.dropWhile (· != eq)).drop 1).map space))

lemma addPiece_no (hno : eq ∉ seg) (hne : seg ≠ []) :
    addPiece toText eq obj seg = obj.assign (decodeStr toText (seg.map space)) [] := by
  have hall : ∀ c ∈ seg, (c != eq) = true := fun c hc => by
    have : c ≠ eq := fun heq => hno (heq ▸ hc)
    simpa using this
  rw [addPiece, if_neg hne, List.takeWhile_eq_self_iff.mpr hall, List.dropWhile_eq_nil_iff.mpr hall]
  rfl

lemma addPiece_eq {a b : JSString} (hno : eq ∉ a) :
    addPiece toText eq obj (a ++ eq :: b) =
      obj.assign (decodeStr toText (a.map space)) (decodeStr toText (b.map space)) := by
  have hall : ∀ c ∈ a, (c != eq) = true := fun c hc => by
    have : c ≠ eq := fun heq => hno (heq ▸ hc)
    simpa using this
  rw [addPiece, if_neg (by simp), List.takeWhile_append_of_pos hall, List.dropWhile_append_of_pos hall,
    List.takeWhile_cons_of_neg (by simp), List.dropWhile_cons_of_neg (by simp), List.append_nil]
  rfl

lemma Ascii.map_space (h : Ascii t) : Ascii (t.map space) := by
  intro c hc
  obtain ⟨d, hd, rfl⟩ := List.mem_map.mp hc
  rw [space]
  split_ifs
  · decide
  · exact h d hd

/-- A string is decoded where that matters. -/
lemma decoded_eq (htext : ReadsAscii toText) (hascii : Ascii t) {enc : Bool} (h : enc = false → ¬HasCode t) :
    (if t.length > 0 && enc then decodeStr toText t else t) = decodeStr toText t := by
  cases enc with
  | false =>
    rw [if_neg (by simp)]
    exact (decodeStr_plain htext hascii (h rfl)).symm
  | true =>
    cases t with
    | nil => rfl
    | cons c t => rfl

lemma InKey.addPair (h : InKey qs i t obj pairs s) (htext : ReadsAscii toText) (hascii : Ascii t) :
    QueryString.addPair toText { s with key := t } = obj.assign (decodeStr toText t) [] := by
  have hkey := decoded_eq htext hascii fun henc => (h.scanned henc).noCode
  simp only [QueryString.addPair, hkey, h.value, h.obj_eq]
  rfl

lemma InValue.addPair {k : JSString} (h : InValue qs i k t obj pairs s) (htext : ReadsAscii toText)
    (hk : Ascii k) (ht : Ascii t) :
    QueryString.addPair toText { s with value := t } = obj.assign (decodeStr toText k) (decodeStr toText t) := by
  have hkey := decoded_eq htext hk h.keyEncoded
  have hval := decoded_eq htext ht fun henc => (h.scanned henc).noCode
  simp only [QueryString.addPair, hval, h.key, hkey, h.obj_eq]

/-- The loop behind a pair. -/
def behindPair (i : Nat) (obj : Obj) (pairs : Int) : Obj ⊕ State :=
  if pairs - 1 = 0 then .inl obj else .inr (fresh (i + 1) obj (pairs - 1))

lemma nextPair_eq (h : s.pairs = pairs) (hadd : QueryString.addPair toText s = obj) :
    nextPair toText i s = behindPair i obj pairs := by
  rw [nextPair, behindPair, hadd, h]
  rfl

/-- The separator behind a piece that is not empty. -/
lemma Reading.separator (h : Reading qs eq i seg obj pairs s) (hne : seg ≠ []) (htext : ReadsAscii toText)
    (hascii : Ascii seg) :
    QueryString.turn toText qs [sep] [eq] i sep s = behindPair i (addPiece toText eq obj seg) pairs := by
  have hstart : QueryString.turn toText qs [sep] [eq] i sep s =
      atSeparator toText qs [eq] i { s with sepIdx := 1 } := by
    rw [QueryString.turn, h.sepIdx]
    exact if_pos rfl
  rw [hstart, atSeparator]
  simp only [Nat.add_sub_cancel, List.length_singleton]
  rcases h with ⟨hno, h⟩ | ⟨a, b, rfl, hno, h⟩
  · have hadd := h.addPair htext hascii.map_space
    rw [addPiece_no hno hne, if_pos (by rw [h.eqIdx]; exact Nat.one_pos), ← hadd]
    have hcopy := h.copies.copy
    by_cases hlt : s.lastPos < i
    · rw [if_pos hlt] at hcopy ⊢
      rw [hcopy]
      exact nextPair_eq h.pairs_eq rfl
    · rw [if_neg hlt] at hcopy ⊢
      have hlen : s.key.length ≠ 0 := by
        rw [hcopy, List.length_map]
        exact fun h0 => hne (List.eq_nil_of_length_eq_zero h0)
      rw [if_neg hlen, ← hcopy]
      exact nextPair_eq h.pairs_eq rfl
  · have hadd := h.addPair htext (Ascii.map_space fun c hc => hascii c (by simp [hc]))
      (Ascii.map_space fun c hc => hascii c (by simp [hc]))
    rw [addPiece_eq hno, if_neg (by rw [h.eqIdx]; exact Nat.lt_irrefl 1), ← hadd]
    have hcopy := h.copies.copy
    by_cases hlt : s.lastPos < i
    · rw [if_pos hlt] at hcopy ⊢
      rw [hcopy]
      exact nextPair_eq h.pairs_eq rfl
    · rw [if_neg hlt] at hcopy ⊢
      rw [← hcopy]
      exact nextPair_eq h.pairs_eq rfl

/-- The separator behind an empty piece. -/
lemma fresh_separator (toText : List UInt8 → JSString) (qs : JSString) (i : Nat) (obj : Obj) (pairs : Int) :
    QueryString.turn toText qs [sep] [eq] i sep (fresh i obj pairs) = behindPair i obj pairs := by
  have hstart : QueryString.turn toText qs [sep] [eq] i sep (fresh i obj pairs) =
      atSeparator toText qs [eq] i { fresh i obj pairs with sepIdx := 1 } := by
    rw [QueryString.turn]
    exact if_pos rfl
  rw [hstart, atSeparator]
  simp only [Nat.add_sub_cancel, fresh]
  rw [if_pos (by exact Nat.one_pos), if_neg (Nat.lt_irrefl i)]
  exact if_pos rfl

/-- The end of the string behind a piece. -/
lemma Reading.leftover (h : Reading qs eq qs.length seg obj pairs s) (htext : ReadsAscii toText)
    (hascii : Ascii seg) :
    QueryString.leftover toText qs [sep] [eq] s = addPiece toText eq obj seg := by
  rw [QueryString.leftover]
  rcases h with ⟨hno, h⟩ | ⟨a, b, rfl, hno, h⟩
  · have hadd := h.addPair htext hascii.map_space
    have hcopy := h.copies.copy
    by_cases hlt : s.lastPos < qs.length
    · have hne : seg ≠ [] := by
        rintro rfl
        have := congrArg List.length h.copies.text
        rw [List.length_append, length_slice, List.map_nil, List.length_nil, min_self] at this
        omega
      rw [if_pos hlt] at hcopy ⊢
      rw [if_pos (by rw [h.eqIdx]; exact Nat.one_pos), hcopy, hadd, addPiece_no hno hne]
    · rw [if_neg hlt] at hcopy ⊢
      have hlen : s.key.length = seg.length := by rw [hcopy, List.length_map]
      have hself : { s with key := seg.map space } = s := by rw [← hcopy]
      by_cases hnil : seg = []
      · subst hnil
        rw [if_pos (by simp [h.eqIdx, hlen]), h.obj_eq]
        rfl
      · have hpos : seg.length ≠ 0 := fun h0 => hnil (List.eq_nil_of_length_eq_zero h0)
        rw [if_neg (by simp [hlen, hnil]), addPiece_no hno hnil, ← hadd, hself]
  · have hadd := h.addPair htext (Ascii.map_space fun c hc => hascii c (by simp [hc]))
      (Ascii.map_space fun c hc => hascii c (by simp [hc]))
    have hcopy := h.copies.copy
    rw [addPiece_eq hno, ← hadd]
    by_cases hlt : s.lastPos < qs.length
    · rw [if_pos hlt] at hcopy ⊢
      rw [if_neg (by rw [h.eqIdx]; exact Nat.lt_irrefl 1), if_pos (by rw [h.sepIdx]; exact Nat.one_pos), hcopy]
    · rw [if_neg hlt] at hcopy ⊢
      have hself : { s with value := b.map space } = s := by rw [← hcopy]
      rw [if_neg (by simp [h.eqIdx]), hself]

/-- The pieces that are read, where `pairs` is not 0. -/
def within (pairs : Int) (segs : List JSString) : List JSString := if 0 < pairs then segs.take pairs.toNat else segs

lemma within_cons (hone : pairs - 1 ≠ 0) (seg : JSString) (segs : List JSString) :
    within pairs (seg :: segs) = seg :: within (pairs - 1) segs := by
  rw [within, within]
  by_cases hpos : 0 < pairs
  · have hto : pairs.toNat = (pairs - 1).toNat + 1 := by omega
    rw [if_pos hpos, if_pos (by omega), hto, List.take_succ_cons]
  · rw [if_neg hpos, if_neg (by omega)]

/-- What `parse` returns, from the end of the loop. -/
def outcome (toText : List UInt8 → JSString) (qs sepCodes eqCodes : JSString) : Obj ⊕ State → Obj
  | .inl obj => obj
  | .inr s => leftover toText qs sepCodes eqCodes s

lemma parseLoop_pieces (htext : ReadsAscii toText) {rest : JSString} (hascii : Ascii rest) (hdrop : qs.drop i = rest)
    (hi : i ≤ qs.length) (hpairs : pairs ≠ 0) :
    outcome toText qs [sep] [eq] (parseLoop toText qs [sep] [eq] i rest (fresh i obj pairs)) =
      (within pairs (rest.splitOnP (· == sep))).foldl (addPiece toText eq) obj := by
  induction hn : rest.length using Nat.strong_induction_on generalizing rest i obj pairs with
  | _ n ih =>
    by_cases hsep : sep ∈ rest
    · -- A piece and its separator, and what is behind them.
      obtain ⟨seg, rest', rfl, hno⟩ := List.eq_append_cons_of_mem hsep
      have hsplit : (seg ++ sep :: rest').splitOnP (· == sep) = seg :: rest'.splitOnP (· == sep) := by
        rw [List.splitOnP_append_cons _ _ (by simp), List.splitOnP_eq_singleton, List.singleton_append]
        intro c hc
        have : c ≠ sep := fun heq => hno (heq ▸ hc)
        simpa using this
      have hseg : Ascii seg := fun c hc => hascii c (by simp [hc])
      obtain ⟨s', hloop, hturn⟩ : ∃ s',
          parseLoop toText qs [sep] [eq] i (seg ++ sep :: rest') (fresh i obj pairs) =
            parseLoop toText qs [sep] [eq] (i + seg.length) (sep :: rest') s' ∧
          QueryString.turn toText qs [sep] [eq] (i + seg.length) sep s' =
            behindPair (i + seg.length) (addPiece toText eq obj seg) pairs := by
        by_cases hnil : seg = []
        · subst hnil
          exact ⟨_, rfl, fresh_separator toText qs i obj pairs⟩
        · obtain ⟨s', hloop, hs'⟩ := (reading_fresh qs eq i obj pairs).units toText hno hdrop
          exact ⟨s', hloop, Reading.separator hs' hnil htext hseg⟩
      have hlen := congrArg List.length hdrop
      rw [List.length_drop, List.length_append, List.length_cons] at hlen
      rw [hloop, parseLoop, hturn, hsplit, behindPair]
      by_cases hone : pairs - 1 = 0
      · obtain rfl : pairs = 1 := by omega
        rfl
      · have hdrop' : qs.drop (i + seg.length + 1) = rest' := by
          have hcons : seg ++ sep :: rest' = (seg ++ [sep]) ++ rest' := by simp
          rw [Nat.add_assoc, ← List.drop_drop, hdrop, hcons, List.drop_left' (by simp)]
        rw [if_neg hone, within_cons hone, List.foldl_cons]
        refine ih rest'.length ?_ (fun c hc => hascii c (by simp [hc])) hdrop' (by omega) hone rfl
        rw [← hn]
        simp
        omega
    · -- The last piece.
      obtain ⟨s', hloop, hs'⟩ := (reading_fresh qs eq i obj pairs).units toText hsep
        (show qs.drop i = rest ++ [] by rw [List.append_nil]; exact hdrop)
      have hlen := congrArg List.length hdrop
      rw [List.length_drop] at hlen
      have hend : i + rest.length = qs.length := by omega
      have hone : within pairs [rest] = [rest] := by
        rw [within]
        split_ifs with hpos
        · exact List.take_of_length_le (by simp; omega)
        · rfl
      rw [List.append_nil, parseLoop] at hloop
      rw [hend, List.nil_append] at hs'
      rw [List.splitOnP_eq_singleton, hone, hloop]
      · exact hs'.leftover htext hascii
      · intro c hc
        have : c ≠ sep := fun heq => hsep (heq ▸ hc)
        simpa using this

/-- `parse` cuts the string at the separators, up to the bound on the pairs, and adds the pieces to the object
one after another. -/
lemma parse_eq_pieces (htext : ReadsAscii toText) (hascii : Ascii qs) (sep eq : UInt16) (maxKeys : Option Int) :
    parse toText qs [sep] [eq] maxKeys =
      (within (pairsOf maxKeys) (qs.splitOnP (· == sep))).foldl (addPiece toText eq) [] := by
  have hpairs : pairsOf maxKeys ≠ 0 := by
    unfold pairsOf
    split
    · decide
    · split_ifs <;> omega
  rw [← parseLoop_pieces htext hascii (List.drop_zero) (Nat.zero_le _) hpairs]
  by_cases hnil : qs = []
  · subst hnil
    rfl
  · have hlen : qs.length ≠ 0 := fun h0 => hnil (List.eq_nil_of_length_eq_zero h0)
    rw [parse, if_neg hlen]
    rfl

end

lemma readsAscii_map : ReadsAscii fun bytes => bytes.map UInt8.toUInt16 := by
  intro t ht
  induction t with
  | nil => rfl
  | cons c t ih =>
    have hc : c.toNat < 128 := ht c List.mem_cons_self
    have hnat : c.toUInt8.toUInt16 = c := by
      rw [← UInt16.toNat_inj]
      simp
      omega
    have ih := ih fun d hd => ht d (List.mem_cons_of_mem _ hd)
    simp only [List.map_cons, hnat] at ih ⊢
    rw [ih]

end LowJs.QueryString
