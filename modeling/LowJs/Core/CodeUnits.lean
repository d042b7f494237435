import LowJs.Core.Machine

/-!
# Strings of code units

A string of the language is a list of 16-bit code units. `slice` and `lastIndexOf` are its methods, at the
arguments from 0 to the length, where they do nothing special.
-/

namespace LowJs

abbrev JSString := List UInt16

/-- The code unit of a character of the basic plane. -/
def codeUnit (c : Char) : UInt16 := c.val.toUInt16

namespace JSString

variable {s t : JSString} {c : UInt16} {i j k : Nat}

/-- `s.slice(i, j)`. -/
def slice (s : JSString) (i j : Nat) : JSString := (s.take j).drop i

/-- `s.lastIndexOf(c)`. -/
def lastIndexOf (s : JSString) (c : UInt16) : Int :=
  match s.reverse.findIdx? (· == c) with
  | some k => s.length - 1 - k
  | none => -1

@[simp] lemma length_slice (s : JSString) (i j : Nat) : (s.slice i j).length = min j s.length - i := by
  simp [slice]

lemma slice_self (s : JSString) (i : Nat) : s.slice i i = [] := by
  simp [slice]

lemma slice_zero (s : JSString) (j : Nat) : s.slice 0 j = s.take j := rfl

lemma slice_length (s : JSString) (i : Nat) : s.slice i s.length = s.drop i := by
  simp [slice]

lemma slice_succ (h : i ≤ j) (hc : s[j]? = some c) : s.slice i (j + 1) = s.slice i j ++ [c] := by
  obtain ⟨hj, rfl⟩ := List.getElem?_eq_some_iff.mp hc
  rw [slice, slice, ← List.take_concat_get' s j hj, List.drop_append_of_le_length]
  simp
  omega

lemma lastIndexOf_eq_neg_one (h : c ∉ s) : s.lastIndexOf c = -1 := by
  have : s.reverse.findIdx? (· == c) = none := by
    rw [List.findIdx?_eq_none_iff]
    intro x hx
    have : x ≠ c := fun heq => h (heq ▸ List.mem_reverse.mp hx)
    simpa using this
  rw [lastIndexOf, this]

lemma lastIndexOf_append_cons (h : c ∉ t) : (s ++ c :: t).lastIndexOf c = s.length := by
  have hnone : t.reverse.findIdx? (· == c) = none := by
    rw [List.findIdx?_eq_none_iff]
    intro x hx
    have : x ≠ c := fun heq => h (heq ▸ List.mem_reverse.mp hx)
    simpa using this
  have hidx : (s ++ c :: t).reverse.findIdx? (· == c) = some t.length := by
    rw [List.reverse_append, List.reverse_cons, List.append_assoc, List.findIdx?_append, hnone]
    simp [List.findIdx?_cons]
  rw [lastIndexOf, hidx]
  simp only [List.length_append, List.length_cons]
  omega

end JSString

end LowJs
