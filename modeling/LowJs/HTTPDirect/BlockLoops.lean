import LowJs.HTTPDirect.Collect

/-!
# The three loops over a block

The loops that pass the entries of a parameter block on, for the headers in `OnLoop`, the trailers in
`OnLoop` and the trailers in `Read`, with the memory they leave behind. They differ in the type in which
the length of an entry is read.
-/

namespace LowJs.HTTPDirect

namespace Parser

/-- The loop over a block from `pos` on: the strings passed on, and the block behind the loop. `none`: an
index outside of the block is read or written, or the loop does not end; more than `sizeofData` rounds
mean that a position has been met twice, with the same contents. -/
def paramLoop (size : Int) (charLen : UInt8 → Int) (data : Int → UInt8) :
    Nat → Int → Option (List (List UInt8) × (Int → UInt8))
  | 0, _ => none
  | fuel + 1, pos =>
    if pos < 0 ∨ size ≤ pos then none
    else if data pos = 0 then some ([], data)
    else
      let stop := pos + 1 + charLen (data pos)
      if stop < 0 ∨ size ≤ stop then none
      else
        let next := data stop
        let cut := Function.update data stop 0
        let string := cString cut (pos + 1) (size - (pos + 1)).toNat
        (paramLoop size charLen (Function.update cut stop next) fuel stop).map
          fun r => (string :: r.1, r.2)

/-- The strings are those the walk of the model passes on. -/
lemma paramLoop_strings (size : Int) (charLen : UInt8 → Int) (fuel : Nat) :
    ∀ (data : Int → UInt8) (pos : Int),
      (paramLoop size charLen data fuel pos).map (·.1) = paramStrings size charLen data fuel pos := by
  induction fuel with
  | zero =>
    intro data pos
    rfl
  | succ fuel ih =>
    intro data pos
    simp only [paramLoop, paramStrings]
    split
    · rfl
    split
    · rfl
    split
    · rfl
    · rw [← ih, Option.map_map, Option.map_map]
      rfl

/-- Lines 473 to 489, with `(unsigned int)(unsigned char)param->data[pos]`. -/
def headersLoop (E : Env) (data : Int → UInt8) : Option (List (List UInt8) × (Int → UInt8)) :=
  paramLoop E.sizeofData (fun b => b.toNat) data (E.sizeofData.toNat + 1) 0

/-- Lines 580 to 594, with `param->data[pos]`. -/
def trailersLoop (E : Env) (data : Int → UInt8) : Option (List (List UInt8) × (Int → UInt8)) :=
  paramLoop E.sizeofData signedChar data (E.sizeofData.toNat + 1) 0

/-- Lines 221 to 234, with `param->data[pos]`. -/
def readLoop (E : Env) (data : Int → UInt8) : Option (List (List UInt8) × (Int → UInt8)) :=
  paramLoop E.sizeofData signedChar data (E.sizeofData.toNat + 1) 0

/-- The three loops end, stay in the block, leave it as it was, and pass on the same strings. -/
structure Decoded (E : Env) (data : Int → UInt8) (es : List (List UInt8)) : Prop where
  headers : headersLoop E data = some (es, data)
  trailers : trailersLoop E data = some (es, data)
  read : readLoop E data = some (es, data)

/-! ### Strings -/

variable {data : Int → UInt8} {pos : Int} {e : List UInt8} {es : List (List UInt8)}

/-- A C string ends at the first NUL. -/
def cut (e : List UInt8) : List UInt8 := e.takeWhile (· ≠ 0)

lemma cString_cut (he : Stored data pos e) (hend : data (pos + e.length) = 0) {n : Nat}
    (hn : e.length < n) : cString data pos n = cut e := by
  induction e generalizing pos n with
  | nil =>
    obtain ⟨n, rfl⟩ := Nat.exists_eq_succ_of_ne_zero (Nat.ne_of_gt hn)
    simp only [List.length_nil, Nat.cast_zero, add_zero] at hend
    simp [cString, hend, cut]
  | cons c e ih =>
    obtain ⟨n, rfl⟩ := Nat.exists_eq_succ_of_ne_zero (Nat.ne_zero_of_lt hn)
    simp only [List.length_cons, Nat.cast_add, Nat.cast_one] at hend hn
    have hrest : data (pos + 1 + e.length) = 0 := by
      rw [← hend]
      congr 1
      omega
    have hstring : cString data (pos + 1) n = cut e := ih he.2 hrest (by omega)
    by_cases hc : c = 0
    · simp [cString, cut, he.1, hc]
    · simp only [cString, he.1, hc, if_false, hstring]
      simp [cut, hc]

lemma cut_eq_iff (e : List UInt8) : cut e = e ↔ (0 : UInt8) ∉ e := by
  rw [cut, List.takeWhile_eq_self_iff]
  simp only [decide_not, Bool.not_eq_true', decide_eq_false_iff_not]
  constructor
  · intro h h0
    exact h 0 h0 rfl
  · rintro h c hc rfl
    exact h hc

/-- A C string that has been read has a NUL behind it, if it does not fill the memory. -/
lemma cString_end {n : Nat} (hn : (cString data pos n).length < n) :
    data (pos + (cString data pos n).length) = 0 := by
  induction n generalizing pos with
  | zero => cases hn
  | succ n ih =>
    simp only [cString] at hn ⊢
    split
    case isTrue h0 => simpa using h0
    case isFalse hne =>
      rw [if_neg hne] at hn
      simp only [List.length_cons] at hn ⊢
      have hrest : data (pos + 1 + (cString data (pos + 1) n).length) = 0 := ih (by omega)
      rw [← hrest]
      congr 1
      push_cast
      omega

/-! ### Entries -/

/-- The length byte of an entry that is not empty. -/
lemma length_byte (hpos : 1 ≤ e.length) (hle : e.length ≤ 255) : UInt8.ofNat e.length ≠ 0 := by
  intro h0
  have := congrArg UInt8.toNat h0
  rw [UInt8.toNat_ofNat', Nat.mod_eq_of_lt (by omega)] at this
  simp only [UInt8.toNat_zero] at this
  omega

/-- In a block without NUL bytes in its entries, there is none before the terminator. -/
lemma entries_ne_zero (hes : Entries data pos es) (hlen : ∀ e ∈ es, 1 ≤ e.length ∧ e.length ≤ 255)
    (hnul : ∀ e ∈ es, (0 : UInt8) ∉ e) :
    ∀ j, pos ≤ j → j < pos + span es → data j ≠ 0 := by
  have hstored : ∀ (e : List UInt8) (pos : Int), Stored data pos e → (0 : UInt8) ∉ e →
      ∀ j, pos ≤ j → j < pos + e.length → data j ≠ 0 := by
    intro e
    induction e with
    | nil =>
      intro pos _ _ j h1 h2
      simp only [List.length_nil, Nat.cast_zero, add_zero] at h2
      omega
    | cons c e ih =>
      intro pos hs h0 j h1 h2
      simp only [List.mem_cons, not_or, List.length_cons, Nat.cast_add, Nat.cast_one] at h0 h2
      by_cases hj : j = pos
      · rw [hj, hs.1]
        exact fun h => h0.1 h.symm
      · exact ih (pos + 1) hs.2 h0.2 j (by omega) (by omega)
  induction es generalizing pos with
  | nil =>
    intro j h1 h2
    simp only [span_nil, Nat.cast_zero, add_zero] at h2
    omega
  | cons e es ih =>
    intro j h1 h2
    obtain ⟨hhead, hs, hrest⟩ := hes
    simp only [span_cons, Nat.cast_add, Nat.cast_one] at h2
    by_cases hj : j = pos
    · rw [hj, hhead]
      exact length_byte (hlen e (by simp)).1 (hlen e (by simp)).2
    by_cases hj' : j < pos + 1 + e.length
    · exact hstored e (pos + 1) hs (hnul e (by simp)) j (by omega) hj'
    · exact ih hrest (fun e' h => hlen e' (by simp [h])) (fun e' h => hnul e' (by simp [h])) j
        (by omega) (by omega)

/-- The loop reads entries back whose lengths it reads as they are, and goes on behind them. -/
lemma paramLoop_entries {size : Int} {charLen : UInt8 → Int} (fuel : Nat) (hpos : 0 ≤ pos)
    (hes : Entries data pos es) (hsize : pos + span es < size)
    (hlen : ∀ e ∈ es, 1 ≤ e.length ∧ e.length ≤ 255)
    (hchar : ∀ e ∈ es, charLen (UInt8.ofNat e.length) = e.length) :
    paramLoop size charLen data (es.length + fuel) pos =
      (paramLoop size charLen data fuel (pos + span es)).map fun r => (es.map cut ++ r.1, r.2) := by
  induction es generalizing pos with
  | nil => simp
  | cons e es ih =>
    obtain ⟨hhead, hstored, hrest⟩ := hes
    simp only [span_cons, Nat.cast_add, Nat.cast_one] at hsize
    have hne : data pos ≠ 0 := by
      rw [hhead]
      exact length_byte (hlen e (by simp)).1 (hlen e (by simp)).2
    have hstop : pos + 1 + charLen (data pos) = pos + 1 + e.length := by
      rw [hhead, hchar e (by simp)]
    rw [List.length_cons, show es.length + 1 + fuel = es.length + fuel + 1 by omega, paramLoop,
      if_neg (by omega), if_neg hne]
    dsimp only
    rw [hstop, if_neg (by omega)]
    have hcut : cString (Function.update data (pos + 1 + e.length) 0) (pos + 1)
        (size - (pos + 1)).toNat = cut e :=
      cString_cut (hstored.update (.inr (by omega))) (Function.update_self ..) (by omega)
    have hback : Function.update (Function.update data (pos + 1 + e.length) 0)
        (pos + 1 + e.length) (data (pos + 1 + e.length)) = data := by
      rw [Function.update_idem, Function.update_eq_self]
    have hspan : pos + 1 + e.length + (span es : Int) = pos + (span (e :: es) : Int) := by
      simp only [span_cons, Nat.cast_add, Nat.cast_one]
      omega
    rw [hcut, hback, ih (by omega) hrest (by omega) (fun e' h => hlen e' (by simp [h]))
      (fun e' h => hchar e' (by simp [h])), hspan, Option.map_map]
    rfl

/-- Where all lengths are read as they are, the loop passes on the entries up to their first NUL. -/
lemma paramLoop_block {E : Env} {charLen : UInt8 → Int} (hes : Entries data 0 es)
    (hend : data (span es) = 0) (hsize : span es < E.sizeofData)
    (hlen : ∀ e ∈ es, 1 ≤ e.length ∧ e.length ≤ 255)
    (hchar : ∀ e ∈ es, charLen (UInt8.ofNat e.length) = e.length) :
    paramLoop E.sizeofData charLen data (E.sizeofData.toNat + 1) 0 = some (es.map cut, data) := by
  have hle := length_le_span es
  obtain ⟨k, hk⟩ := Nat.exists_eq_add_of_le (show es.length + 1 ≤ E.sizeofData.toNat + 1 by omega)
  rw [hk, show es.length + 1 + k = es.length + (k + 1) by omega,
    paramLoop_entries (k + 1) (le_refl 0) hes (by omega) hlen hchar, zero_add, paramLoop,
    if_neg (by omega), if_pos hend]
  simp

lemma toNat_ofNat (hle : e.length ≤ 255) : ((UInt8.ofNat e.length).toNat : Int) = e.length := by
  rw [UInt8.toNat_ofNat', Nat.mod_eq_of_lt (by omega)]

lemma signedChar_short (hlt : e.length < 128) : signedChar (UInt8.ofNat e.length) = e.length := by
  have hnat : (UInt8.ofNat e.length).toNat = e.length := by
    rw [UInt8.toNat_ofNat', Nat.mod_eq_of_lt (by omega)]
  have hsmall : UInt8.ofNat e.length < 128 := by
    rw [UInt8.lt_iff_toNat_lt, hnat]
    exact hlt
  rw [signedChar, if_pos hsmall, hnat]

lemma signedChar_long (hge : 128 ≤ e.length) (hle : e.length ≤ 255) :
    signedChar (UInt8.ofNat e.length) = e.length - 256 := by
  have hnat : (UInt8.ofNat e.length).toNat = e.length := by
    rw [UInt8.toNat_ofNat', Nat.mod_eq_of_lt (by omega)]
  have hlarge : ¬UInt8.ofNat e.length < 128 := by
    rw [UInt8.lt_iff_toNat_lt, hnat]
    exact Nat.not_lt.2 hge
  rw [signedChar, if_neg hlarge, hnat]

/-- A length of 128 or more is read as a negative number: the loop goes back, passes on more than the
entry where another one follows, and more strings than there are where none does. -/
lemma paramLoop_long {size : Int} {fuel : Nat} {out : List (List UInt8)} {mem : Int → UInt8}
    (hpos : 0 ≤ pos)
    (hes : Entries data pos (e :: es)) (hsize : pos + span (e :: es) < size)
    (hend : data (pos + span (e :: es)) = 0)
    (hge : 128 ≤ e.length) (hle : e.length ≤ 255)
    (hrest : ∀ e' ∈ es, 1 ≤ e'.length ∧ e'.length ≤ 255)
    (hne : ∀ j, 0 ≤ j → j < pos + span (e :: es) → data j ≠ 0)
    (h : paramLoop size signedChar data (fuel + 1) pos = some (out, mem)) : out ≠ e :: es := by
  obtain ⟨hhead, hstored, htail⟩ := hes
  simp only [span_cons, Nat.cast_add, Nat.cast_one] at hsize hne hend
  have hstop : pos + 1 + signedChar (data pos) = pos + 1 + e.length - 256 := by
    rw [hhead, signedChar_long hge hle]
    omega
  rw [paramLoop, if_neg (by omega), if_neg (hne pos (by omega) (by omega))] at h
  dsimp only at h
  rw [hstop] at h
  split at h
  case isTrue => cases h
  case isFalse hin =>
    rw [Function.update_idem, Function.update_eq_self] at h
    generalize hcut : Function.update data (pos + 1 + e.length - 256) 0 = cutData at h
    obtain ⟨r, hr, heq⟩ := Option.map_eq_some_iff.1 h
    cases heq
    rintro heq
    obtain ⟨hstring, hout⟩ := List.cons.inj heq
    cases es with
    | nil =>
      -- the loop goes on where there is no NUL
      have hstopne : data (pos + 1 + e.length - 256) ≠ 0 := hne _ (by omega) (by omega)
      cases fuel with
      | zero => cases hr
      | succ fuel =>
        rw [paramLoop, if_neg (by omega), if_neg hstopne] at hr
        dsimp only at hr
        split at hr
        · cases hr
        · obtain ⟨r', _, hr'⟩ := Option.map_eq_some_iff.1 hr
          rw [← hr'] at hout
          cases hout
    | cons e' es =>
      -- the length of the next entry is no NUL
      obtain ⟨hnext, _, _⟩ := htail
      simp only [span_cons, Nat.cast_add, Nat.cast_one] at hsize
      have hlen : (cString cutData (pos + 1) (size - (pos + 1)).toNat).length <
          (size - (pos + 1)).toNat := by
        rw [hstring]
        omega
      have hnul := cString_end hlen
      rw [hstring, ← hcut, Function.update_of_ne (by omega), hnext] at hnul
      exact length_byte (hrest e' (by simp)).1 (hrest e' (by simp)).2 hnul

lemma exists_first_long (he : e ∈ es) (hlong : 128 ≤ e.length) :
    ∃ es₁ e' es₂, es = es₁ ++ e' :: es₂ ∧ (∀ a ∈ es₁, a.length < 128) ∧ 128 ≤ e'.length := by
  induction es with
  | nil => cases he
  | cons a es ih =>
    by_cases ha : 128 ≤ a.length
    · exact ⟨[], a, es, rfl, by simp, ha⟩
    · have he : e ∈ es := by
        obtain rfl | he := List.mem_cons.1 he
        · exact absurd hlong ha
        · exact he
      obtain ⟨es₁, e', es₂, rfl, hshort, hge⟩ := ih he
      refine ⟨a :: es₁, e', es₂, rfl, ?_, hge⟩
      intro b hb
      obtain rfl | hb := List.mem_cons.1 hb
      · exact Nat.not_le.1 ha
      · exact hshort b hb

/-- The loops over a block that holds entries of 1 to 255 bytes decode it exactly if none of them has 128
bytes or more, or a NUL in it. -/
theorem decoded_iff (E : Env) (data : Int → UInt8) (es : List (List UInt8)) (hes : Entries data 0 es)
    (hend : data (span es) = 0) (hsize : span es < E.sizeofData)
    (hlen : ∀ e ∈ es, 1 ≤ e.length ∧ e.length ≤ 255) :
    Decoded E data es ↔ ∀ e ∈ es, e.length < 128 ∧ (0 : UInt8) ∉ e := by
  have hheaders : headersLoop E data = some (es.map cut, data) :=
    paramLoop_block hes hend hsize hlen fun e he => toNat_ofNat (hlen e he).2
  have hmap : es.map cut = es ↔ ∀ e ∈ es, (0 : UInt8) ∉ e := by
    constructor
    · intro h e he
      rw [← cut_eq_iff]
      obtain ⟨i, hi, rfl⟩ := List.getElem_of_mem he
      have := congrArg (·[i]?) h
      simpa [List.getElem?_eq_getElem hi] using this
    · intro h
      conv_rhs => rw [← List.map_id es]
      exact List.map_congr_left fun e he => (cut_eq_iff e).2 (h e he)
  constructor
  case mpr =>
    intro hshort
    have hcut : es.map cut = es := hmap.2 fun e he => (hshort e he).2
    have htrailers : paramLoop E.sizeofData signedChar data (E.sizeofData.toNat + 1) 0 =
        some (es.map cut, data) :=
      paramLoop_block hes hend hsize hlen fun e he => signedChar_short (hshort e he).1
    rw [hcut] at hheaders htrailers
    exact ⟨hheaders, htrailers, htrailers⟩
  case mp =>
    intro hdec
    have hnul : ∀ e ∈ es, (0 : UInt8) ∉ e := by
      apply hmap.1
      have := hheaders.symm.trans hdec.headers
      simpa using this
    intro e he
    refine ⟨?_, hnul e he⟩
    by_contra hge
    -- the loop comes to the first entry of 128 bytes or more
    obtain ⟨es₁, e', es₂, rfl, hshort, hlong⟩ := exists_first_long he (Nat.not_lt.1 hge)
    have hle := length_le_span (es₁ ++ e' :: es₂)
    simp only [List.length_append, List.length_cons] at hle
    obtain ⟨k, hk⟩ := Nat.exists_eq_add_of_le
      (show es₁.length + 1 ≤ E.sizeofData.toNat + 1 by omega)
    obtain ⟨hes₁, hes₂⟩ := entries_append.1 hes
    have hspan : (span (es₁ ++ e' :: es₂) : Int) = span es₁ + span (e' :: es₂) := by
      rw [span_append]
      push_cast
      rfl
    have htrailers := hdec.trailers
    rw [trailersLoop, hk, show es₁.length + 1 + k = es₁.length + (k + 1) by omega,
      paramLoop_entries (k + 1) (le_refl 0) hes₁ (by omega) (fun a ha => hlen a (by simp [ha]))
        fun a ha => signedChar_short (hshort a ha)] at htrailers
    obtain ⟨r, hr, heq⟩ := Option.map_eq_some_iff.1 htrailers
    have hcut : es₁.map cut = es₁ := by
      conv_rhs => rw [← List.map_id es₁]
      exact List.map_congr_left fun a ha => (cut_eq_iff a).2 (hnul a (by simp [ha]))
    rw [hcut] at heq
    have hout : r.1 = e' :: es₂ := List.append_cancel_left (congrArg Prod.fst heq)
    refine paramLoop_long (by omega) hes₂ (by omega) ?_ hlong (hlen e' (by simp)).2
      (fun a ha => hlen a (by simp [ha])) ?_ hr hout
    · rw [zero_add, ← hspan]
      exact hend
    · intro j h0 h1
      exact entries_ne_zero hes hlen hnul j h0 (by omega)

/-- A block with one entry, of `n` times the letter `a`. -/
def letters (n : Nat) (i : Int) : UInt8 :=
  if i = 0 then UInt8.ofNat n else if i ≤ n then 97 else 0

lemma entries_letters (n : Nat) : Entries (letters n) 0 [List.replicate n 97] := by
  have hstored : ∀ (k : Nat) (pos : Int), 1 ≤ pos → pos + k ≤ n + 1 →
      Stored (letters n) pos (List.replicate k 97) := by
    intro k
    induction k with
    | zero =>
      intro pos _ _
      trivial
    | succ k ih =>
      intro pos h1 h2
      push_cast at h2
      refine ⟨?_, ih (pos + 1) (by omega) (by omega)⟩
      rw [letters, if_neg (by omega), if_pos (by omega)]
  refine ⟨?_, hstored n (0 + 1) (by omega) (by omega), trivial⟩
  rw [List.length_replicate]
  rfl

theorem letter_decoded : Decoded deviceEnv (letters 1) [[97]] := by
  refine (decoded_iff deviceEnv (letters 1) [[97]] (entries_letters 1) ?_ ?_ ?_).2 ?_
  · rfl
  · decide
  · simp
  · simp

/-- An entry of 128 bytes: in the trailers the loop starts before the block. -/
theorem not_decoded :
    ¬ ∀ (E : Env) (data : Int → UInt8) (es : List (List UInt8)), Entries data 0 es →
      data (span es) = 0 → span es < E.sizeofData → (∀ e ∈ es, 1 ≤ e.length ∧ e.length ≤ 255) →
      Decoded E data es := by
  intro h
  have hspan : span [List.replicate 128 97] = 129 := by
    simp only [span_cons, List.length_replicate, span_nil]
  have hdec := h deviceEnv (letters 128) [List.replicate 128 97] (entries_letters 128)
    (by rw [hspan]; rfl) (by rw [hspan]; decide) (by simp)
  have htrailers := hdec.trailers
  have hnone : trailersLoop deviceEnv (letters 128) = none := by
    rw [trailersLoop, paramLoop, if_neg (by decide), if_neg (by decide)]
    exact if_pos (by decide)
  rw [hnone] at htrailers
  cases htrailers

end Parser

end LowJs.HTTPDirect
