import LowJs.Core.Framing

/-!
# Hexadecimal numbers

What `sprintf` writes with `%x`, the chunk size line reads back.
-/

namespace LowJs

/-- `sprintf` with `%x`. -/
def hexBytes (n : Nat) : List UInt8 := (Nat.toDigits 16 n).map fun c => c.val.toUInt8

/-- A character that `%x` reads as a digit. -/
def IsHexDigit (c : UInt8) : Prop := (hexVal c).isSome

instance (c : UInt8) : Decidable (IsHexDigit c) := inferInstanceAs (Decidable (_ = true))

lemma IsHexDigit.ne {c : UInt8} (h : IsHexDigit c) :
    isSpace c = false ∧ c ≠ 0 ∧ c ≠ 45 ∧ c ≠ 43 ∧ c ≠ 120 ∧ c ≠ 88 ∧ c ≠ CR ∧ c ≠ LF := by
  have hall : ∀ n : Fin 256, (hexVal (UInt8.ofNat n)).isSome →
      isSpace (UInt8.ofNat n) = false ∧ UInt8.ofNat n ≠ 0 ∧ UInt8.ofNat n ≠ 45 ∧
        UInt8.ofNat n ≠ 43 ∧ UInt8.ofNat n ≠ 120 ∧ UInt8.ofNat n ≠ 88 ∧ UInt8.ofNat n ≠ CR ∧
        UInt8.ofNat n ≠ LF := by decide +kernel
  have hc := hall ⟨c.toNat, c.toNat_lt⟩
  simp only [UInt8.ofNat_toNat] at hc
  exact hc h

lemma hexVal_digitChar {n : Nat} (h : n < 16) :
    hexVal (Nat.digitChar n).val.toUInt8 = some n := by
  have hall : ∀ n : Fin 16, hexVal (Nat.digitChar n).val.toUInt8 = some n.val := by decide
  exact hall ⟨n, h⟩

/-- A digit behind others. -/
lemma scanDigits_concat {base : Nat} {val : UInt8 → Option Nat} {l : List UInt8} {c : UInt8}
    {d : Nat} (hl : ∀ c ∈ l, (val c).isSome) (hc : val c = some d) (acc : Nat) :
    scanDigits base val acc (l ++ [c]) =
      ((scanDigits base val acc l).1 * base + d, (scanDigits base val acc l).2 + 1) := by
  induction l generalizing acc with
  | nil => simp [scanDigits, hc]
  | cons c' l ih =>
    obtain ⟨d', hd'⟩ := Option.isSome_iff_exists.mp (hl c' (by simp))
    have h := ih (fun c hc => hl c (by simp [hc])) (acc * base + d')
    rw [List.cons_append, scanDigits, scanDigits, hd']
    simp only [h]

lemma hexBytes_spec (n : Nat) :
    (∀ c ∈ hexBytes n, IsHexDigit c) ∧
      scanDigits 16 hexVal 0 (hexBytes n) = (n, (hexBytes n).length) := by
  induction n using Nat.strong_induction_on with
  | _ n ih =>
    by_cases h : n < 16
    · have heq : hexBytes n = [(Nat.digitChar n).val.toUInt8] := by
        rw [hexBytes, Nat.toDigits_of_lt_base h]
        rfl
      have hv := hexVal_digitChar h
      rw [heq]
      refine ⟨?_, ?_⟩
      · intro c hc
        obtain rfl := List.mem_singleton.mp hc
        rw [IsHexDigit, hv]
        rfl
      · rw [scanDigits, hv]
        simp [scanDigits]
    · have heq : hexBytes n =
          hexBytes (n / 16) ++ [(Nat.digitChar (n % 16)).val.toUInt8] := by
        rw [hexBytes, Nat.toDigits_of_base_le (by decide) (not_lt.mp h), List.map_append]
        rfl
      have hv := hexVal_digitChar (Nat.mod_lt n (by decide : 0 < 16))
      obtain ⟨hdigits, hscan⟩ := ih (n / 16) (by omega)
      rw [heq]
      refine ⟨?_, ?_⟩
      · intro c hc
        rcases List.mem_append.mp hc with hc | hc
        · exact hdigits c hc
        · obtain rfl := List.mem_singleton.mp hc
          rw [IsHexDigit, hv]
          rfl
      · rw [scanDigits_concat hdigits hv, hscan, List.length_append]
        have hdiv : n / 16 * 16 + n % 16 = n := by omega
        rw [hdiv, List.length_singleton]

lemma hexBytes_ne_nil (n : Nat) : hexBytes n ≠ [] := by
  simp [hexBytes]

lemma hexBytes_length_le {n k : Nat} (hk : 0 < k) (h : n < 16 ^ k) : (hexBytes n).length ≤ k := by
  rw [hexBytes, List.length_map]
  exact (Nat.length_toDigits_le_iff (by decide) hk).mpr h

/-- A size line that holds a hexadecimal number announces this number. -/
theorem chunkSize_hexBytes (n : Nat) : chunkSize (hexBytes n) = some (n : Int) := by
  obtain ⟨hdigits, hscan⟩ := hexBytes_spec n
  have hnul : (hexBytes n).takeWhile (· ≠ 0) = hexBytes n := by
    refine List.takeWhile_eq_self_iff.mpr fun c hc => ?_
    simpa using (hdigits c hc).ne.2.1
  obtain ⟨c, cs, hcons⟩ := List.exists_cons_of_ne_nil (hexBytes_ne_nil n)
  have hc := hdigits c (by simp [hcons])
  obtain ⟨hspace, -, hminus, hplus, -⟩ := hc.ne
  have hdrop : (hexBytes n).dropWhile isSpace = hexBytes n := by
    rw [hcons, List.dropWhile_cons_of_neg (by simp [hspace])]
  have hsign : scanSign (hexBytes n) = (false, hexBytes n) := by
    rw [hcons]
    unfold scanSign
    split
    · next h => exact absurd (List.cons.inj h).1 hminus
    · next h => exact absurd (List.cons.inj h).1 hplus
    · rfl
  have hskip : skipHexPrefix (hexBytes n) = some (hexBytes n) := by
    rw [hcons]
    unfold skipHexPrefix
    split
    · next x cs' h =>
      have hx : IsHexDigit x := hdigits x (by rw [hcons, h]; simp)
      obtain ⟨-, -, -, -, h1, h2, -⟩ := hx.ne
      rw [if_neg (by simp [h1, h2]), ← h]
    · rfl
  have hlen : (hexBytes n).length ≠ 0 := by
    rw [hcons]
    simp
  rw [chunkSize, hnul, hexValue, hdrop, hsign]
  simp only [hskip, hscan, if_neg hlen, Bool.false_eq_true, if_false]

end LowJs
