import Mathlib

/-!
# Bytes, C strings and the C library's number parsing

Bytes are `UInt8`, `int` is an `Int` kept in range by `int32`. The conversions follow the C
library of the 64-bit targets: `atoi` is `strtol` cut to 32 bits, and `sscanf` with `%x` stores
a 32-bit unsigned number into an `int`.
-/

namespace LowJs

abbrev HT : UInt8 := 9
abbrev LF : UInt8 := 10
abbrev CR : UInt8 := 13
abbrev SP : UInt8 := 32

/-- The bytes of an ASCII text. -/
def bytes (s : String) : List UInt8 := s.toList.map fun c => c.val.toUInt8

/-- Reduction to a 32-bit two's complement `int`. -/
def int32 (n : Int) : Int := n.bmod (2 ^ 32)

/-- The numbers an `int` can hold. -/
def IsInt32 (n : Int) : Prop := -2 ^ 31 ≤ n ∧ n < 2 ^ 31

instance (n : Int) : Decidable (IsInt32 n) := inferInstanceAs (Decidable (_ ∧ _))

lemma int32_eq {n : Int} (h : IsInt32 n) : int32 n = n := by
  unfold IsInt32 at h
  rw [int32, Int.bmod_def]
  split <;> omega

lemma isInt32_int32 (n : Int) : IsInt32 (int32 n) := by
  unfold IsInt32
  rw [int32, Int.bmod_def]
  split <;> omega

lemma int32_add (a b : Int) : int32 (int32 a + b) = int32 (a + b) := Int.bmod_add_bmod

/-- A `char` read as a number where `char` is signed. -/
def signedChar (b : UInt8) : Int := if b < 128 then b.toNat else b.toNat - 256

/-! ### Characters -/

def isBlank (c : UInt8) : Bool := c == SP || c == HT

/-- `isspace` in the C locale. -/
def isSpace (c : UInt8) : Bool := c == SP || (HT ≤ c && c ≤ CR)

def toLower (c : UInt8) : UInt8 := if 65 ≤ c && c ≤ 90 then c + 32 else c

def toUpper (c : UInt8) : UInt8 := if 97 ≤ c && c ≤ 122 then c - 32 else c

def digitVal (c : UInt8) : Option Nat :=
  if 48 ≤ c && c ≤ 57 then some (c.toNat - 48) else none

def hexVal (c : UInt8) : Option Nat :=
  if 48 ≤ c && c ≤ 57 then some (c.toNat - 48)
  else if 97 ≤ c && c ≤ 102 then some (c.toNat - 87)
  else if 65 ≤ c && c ≤ 70 then some (c.toNat - 55)
  else none

/-- The value of the longest prefix of digits, and the number of digits in it. -/
def scanDigits (base : Nat) (val : UInt8 → Option Nat) : Nat → List UInt8 → Nat × Nat
  | acc, [] => (acc, 0)
  | acc, c :: cs =>
    match val c with
    | none => (acc, 0)
    | some d =>
      let (n, k) := scanDigits base val (acc * base + d) cs
      (n, k + 1)

/-- An optional sign; `true` is minus. -/
def scanSign : List UInt8 → Bool × List UInt8
  | 45 :: cs => (true, cs)
  | 43 :: cs => (false, cs)
  | cs => (false, cs)

/-- The number that a decimal text announces, before it is forced into a machine type. -/
def decimalValue (s : List UInt8) : Int :=
  let (neg, cs) := scanSign (s.dropWhile isSpace)
  let (n, _) := scanDigits 10 digitVal 0 cs
  if neg then -n else n

/-- `strtol` with base 10: the value is clamped to the range of a 64-bit `long`. -/
def strtol (s : List UInt8) : Int := max (-2 ^ 63) (min (2 ^ 63 - 1) (decimalValue s))

/-- `atoi`: the result of `strtol` converted to `int`. -/
def atoi (s : List UInt8) : Int := int32 (strtol s)

lemma atoi_eq {s : List UInt8} (h : IsInt32 (decimalValue s)) : atoi s = decimalValue s := by
  unfold IsInt32 at h
  have hs : strtol s = decimalValue s := by
    unfold strtol
    omega
  rw [atoi, hs, int32_eq h]

/-- The digits `%x` reads: a prefix `0x` is skipped, and has to be followed by a digit. -/
def skipHexPrefix : List UInt8 → Option (List UInt8)
  | 48 :: x :: cs =>
    if x == 120 || x == 88 then
      if (cs.head?.bind hexVal).isSome then some cs else none
    else some (48 :: x :: cs)
  | cs => some cs

/-- The number that `%x` reads, before it is stored; `none` where there is no digit. -/
def hexValue (s : List UInt8) : Option Int :=
  let (neg, cs) := scanSign (s.dropWhile isSpace)
  match skipHexPrefix cs with
  | none => none
  | some cs =>
    let (n, k) := scanDigits 16 hexVal 0 cs
    if k = 0 then none else some (if neg then -n else n)

/-- `sscanf(s, "%x", &i)`: the number stored in `i`, if the conversion succeeds. -/
def sscanfX (s : List UInt8) : Option Int := (hexValue s).map int32

/-! ### Strings in memory -/

/-- The C string at `pos`: the bytes up to the first NUL, of which at most `n` are looked at. -/
def cString (data : Int → UInt8) (pos : Int) : Nat → List UInt8
  | 0 => []
  | n + 1 => if data pos = 0 then [] else data pos :: cString data (pos + 1) n

/-- `strcasestr(s, pat) != NULL`. -/
def containsIgnoreCase (s pat : List UInt8) : Bool :=
  s.tails.any fun t => (pat.map toLower).isPrefixOf (t.map toLower)

/-- `n` bytes of memory from `pos` on. -/
def slice (data : Int → UInt8) (pos : Int) (n : Nat) : List UInt8 :=
  (List.range n).map fun i => data (pos + i)

end LowJs
