import LowJs.App.CommandLine

/-!
# The memory limit

How `main` sets `max_heap_size`, the limit of the heap in 32 bits: from `--max-old-space-size`, in the
arithmetic of `int`, or from what `sysinfo` says about the memory, through a local `int`.
-/

namespace LowJs.App

/-- A value that is stored as an `int`. -/
def toInt (n : Int) : Int := n.bmod (2 ^ 32)

/-- A value that is stored as an `unsigned int`. -/
def toUnsigned (n : Int) : Nat := (n % 2 ^ 32).toNat

/-- The limit of `low_init`, in bytes. -/
def builtinLimit : Nat := 512 * 1024 * 1024

/-- `maxMemSize * 1024 * 1024`. -/
def optionLimit (maxMemSize : Int) : Nat := toUnsigned (toInt (toInt (maxMemSize * 1024) * 1024))

/-- `info.freeram + info.freeswap / 2` in `max`, which is compared as an `unsigned int`. -/
def systemLimit (freeram freeswap : UInt64) : Nat :=
  let max := toInt (freeram + freeswap / 2).toNat
  if toUnsigned max < builtinLimit then toUnsigned max else builtinLimit

/-- `max_heap_size` behind the options. -/
def max_heap_size (o : Options) (freeram freeswap : UInt64) : Nat :=
  if o.maxMemSize ≠ 0 then optionLimit o.maxMemSize else systemLimit freeram freeswap

/-- `--max-old-space-size=n`. -/
def maxOldSpaceSizeOption (n : Nat) : Arg := maxOldSpaceSize ++ Nat.toDigits 10 n

/-- The option is refused, or the limit is as many MiB as it says, but at least 4. -/
def OptionKept (n : Nat) : Prop :=
  ∀ o o', readOption o (maxOldSpaceSizeOption n) = .ok o' → ∀ freeram freeswap,
    max_heap_size o' freeram freeswap = max n 4 * 2 ^ 20

/-- Without the option, the limit is the free memory where that is less than the limit of `low_init`. -/
def SystemKept (freeram freeswap : UInt64) : Prop :=
  ∀ o, o.maxMemSize = 0 →
    max_heap_size o freeram freeswap = min builtinLimit (freeram.toNat + freeswap.toNat / 2)

/-! ### The option -/

lemma isDigit_toDigits (n : Nat) : ∀ c ∈ Nat.toDigits 10 n, c.isDigit = true :=
  fun _ hc => Nat.isDigit_of_mem_toDigits (by decide) (by decide) hc

lemma digits_toDigits (n : Nat) : digits (Nat.toDigits 10 n) = n := by
  rw [digits, List.takeWhile_eq_self_iff.mpr (isDigit_toDigits n)]
  exact Nat.ofDigitChars_toDigits (by decide) (by decide)

lemma strtol_toDigits (n : Nat) : strtol (Nat.toDigits 10 n) = min (2 ^ 63 - 1) (n : Int) := by
  obtain ⟨c, cs, hcs⟩ := List.exists_cons_of_ne_nil (Nat.toDigits_ne_nil (n := n) (b := 10))
  have hc : c.isDigit = true := isDigit_toDigits n c (by rw [hcs]; exact List.mem_cons_self)
  have hspace : isSpace c = false := by
    rw [Bool.eq_false_iff]
    intro h
    simp only [isSpace, Bool.or_eq_true, beq_iff_eq] at h
    rcases h with ((((rfl | rfl) | rfl) | rfl) | rfl) | rfl <;> exact absurd hc (by decide)
  have hvalue := digits_toDigits n
  rw [hcs] at hvalue ⊢
  rw [strtol, List.dropWhile_cons_of_neg (by rw [hspace]; exact Bool.false_ne_true)]
  split
  · rename_i heq
    obtain ⟨rfl, -⟩ := List.cons.inj heq
    exact absurd hc (by decide)
  · rename_i heq
    obtain ⟨rfl, -⟩ := List.cons.inj heq
    exact absurd hc (by decide)
  · rw [hvalue]

/-- The number that `atoi` reads. -/
def read (n : Nat) : Int := toInt (min (2 ^ 63 - 1) (n : Int))

lemma atoi_toDigits (n : Nat) : atoi (Nat.toDigits 10 n) = read n := by
  rw [atoi, strtol_toDigits, read, toInt]

lemma readOption_maxOldSpaceSize (o : Options) (n : Nat) : readOption o (maxOldSpaceSizeOption n) =
    if read n ≤ 0 then .error ⟨false, .usage⟩ else .ok { o with maxMemSize := max (read n) 4 } := by
  have hpos : 0 < (Nat.toDigits 10 n).length := Nat.length_toDigits_pos
  have hne : ∀ name : Arg, name.length ≤ maxOldSpaceSize.length → maxOldSpaceSizeOption n ≠ name := by
    rintro name hlen rfl
    rw [maxOldSpaceSizeOption, List.length_append] at hlen
    omega
  have hoption : maxOldSpaceSize.length < (maxOldSpaceSizeOption n).length ∧
      maxOldSpaceSize <+: maxOldSpaceSizeOption n := by
    refine ⟨?_, List.prefix_append _ _⟩
    rw [maxOldSpaceSizeOption, List.length_append]
    omega
  have hrest : (maxOldSpaceSizeOption n).drop maxOldSpaceSize.length = Nat.toDigits 10 n := List.drop_left
  rw [readOption, if_neg (hne _ (by decide)), if_neg (hne _ (by decide)), if_pos hoption, hrest,
    atoi_toDigits]

lemma toInt_emod (x : Int) : toInt x % 2 ^ 32 = x % 2 ^ 32 := Int.bmod_emod

lemma toInt_bounds (x : Int) : -2 ^ 31 ≤ toInt x ∧ toInt x < 2 ^ 31 := by
  have hlow := Int.le_bmod (x := x) (m := 2 ^ 32) (by decide)
  have hhigh := Int.bmod_lt (x := x) (m := 2 ^ 32) (by decide)
  rw [toInt]
  omega

/-- The multiplications wrap. -/
lemma optionLimit_eq (m : Int) : optionLimit m = (m * 2 ^ 20 % 2 ^ 32).toNat := by
  have h1 := toInt_emod (m * 1024)
  have h2 := toInt_emod (toInt (m * 1024) * 1024)
  rw [optionLimit, toUnsigned, h2]
  omega

/-- Where an option is refused. -/
lemma read_nonpos_iff (n : Nat) :
    read n ≤ 0 ↔ 2 ^ 63 ≤ n ∨ n % 2 ^ 32 = 0 ∨ 2 ^ 31 ≤ n % 2 ^ 32 := by
  have hmod := toInt_emod (min (2 ^ 63 - 1) (n : Int))
  have hbounds := toInt_bounds (min (2 ^ 63 - 1) (n : Int))
  rw [read]
  omega

lemma read_eq {n : Nat} (h : n < 4096) : read n = n := by
  have hmod := toInt_emod (min (2 ^ 63 - 1) (n : Int))
  have hbounds := toInt_bounds (min (2 ^ 63 - 1) (n : Int))
  rw [read]
  omega

lemma optionKept_iff (n : Nat) :
    OptionKept n ↔ n < 4096 ∨ 2 ^ 63 ≤ n ∨ n % 2 ^ 32 = 0 ∨ 2 ^ 31 ≤ n % 2 ^ 32 := by
  rw [← read_nonpos_iff]
  by_cases hrefused : read n ≤ 0
  · refine iff_of_true (fun o o' ho => ?_) (Or.inr hrefused)
    rw [readOption_maxOldSpaceSize, if_pos hrefused] at ho
    exact absurd ho nofun
  · have hlimit : ∀ (o : Options) (freeram freeswap : UInt64),
        max_heap_size { o with maxMemSize := max (read n) 4 } freeram freeswap =
          (max (read n) 4 * 2 ^ 20 % 2 ^ 32).toNat := by
      intro o freeram freeswap
      rw [max_heap_size, if_pos (by show max (read n) 4 ≠ 0; omega), optionLimit_eq]
    constructor
    · intro h
      left
      have hkept := h noOptions { noOptions with maxMemSize := max (read n) 4 }
        (by rw [readOption_maxOldSpaceSize, if_neg hrefused]) 0 0
      rw [hlimit] at hkept
      omega
    · rintro (hn | hn)
      · intro o o' ho freeram freeswap
        rw [readOption_maxOldSpaceSize, if_neg hrefused] at ho
        obtain rfl := Except.ok.inj ho
        rw [hlimit, read_eq hn]
        omega
      · exact absurd hn hrefused

/-! ### The system -/

lemma systemKept_iff (freeram freeswap : UInt64) : SystemKept freeram freeswap ↔
    freeram.toNat + freeswap.toNat / 2 < 2 ^ 32 ∨
      builtinLimit ≤ (freeram.toNat + freeswap.toNat / 2) % 2 ^ 32 := by
  have hbuiltin : builtinLimit = 2 ^ 29 := by decide
  have hsum : (freeram + freeswap / 2).toNat = (freeram.toNat + freeswap.toNat / 2) % 2 ^ 64 := by
    rw [UInt64.toNat_add, UInt64.toNat_div]
    rfl
  have hmax : toUnsigned (toInt (freeram + freeswap / 2).toNat) =
      (freeram.toNat + freeswap.toNat / 2) % 2 ^ 32 := by
    have hmod := toInt_emod (freeram + freeswap / 2).toNat
    rw [toUnsigned, hmod, hsum]
    omega
  have hlimit : systemLimit freeram freeswap =
      min builtinLimit ((freeram.toNat + freeswap.toNat / 2) % 2 ^ 32) := by
    rw [systemLimit, hmax]
    split <;> omega
  have hkept : SystemKept freeram freeswap ↔
      systemLimit freeram freeswap = min builtinLimit (freeram.toNat + freeswap.toNat / 2) := by
    constructor
    · intro h
      have hnone : noOptions.maxMemSize = 0 := rfl
      have hkept := h noOptions hnone
      rw [max_heap_size, if_neg (not_not.mpr hnone)] at hkept
      exact hkept
    · intro h o ho
      rw [max_heap_size, if_neg (not_not.mpr ho), h]
  rw [hkept, hlimit]
  omega

/-- When the limit is what the option says, and when it is what the system has. -/
theorem memoryLimit_iff (n : Nat) (freeram freeswap : UInt64) :
    (OptionKept n ↔ n < 4096 ∨ 2 ^ 63 ≤ n ∨ n % 2 ^ 32 = 0 ∨ 2 ^ 31 ≤ n % 2 ^ 32) ∧
      (SystemKept freeram freeswap ↔ freeram.toNat + freeswap.toNat / 2 < 2 ^ 32 ∨
        builtinLimit ≤ (freeram.toNat + freeswap.toNat / 2) % 2 ^ 32) :=
  ⟨optionKept_iff n, systemKept_iff freeram freeswap⟩

/-- 4096 MiB are no bytes, and 4 GiB and 4 MiB of free memory are 4 MiB. -/
theorem memoryLimit_wraps : ¬OptionKept 4096 ∧ ¬SystemKept (2 ^ 32 + 2 ^ 22) 0 := by
  rw [optionKept_iff, systemKept_iff]
  decide

end LowJs.App
