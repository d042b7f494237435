import LowJs.Core.Whiles
import Mathlib.Data.List.Infix
import Mathlib.Data.Int.Order.Basic
import Mathlib.Tactic.Ring

/-!
# Searching a buffer

`Uint8Array.prototype.indexOf` of init.js, on which `Buffer.indexOf` rests, for a search value of bytes. The
outer loop ends at one index behind the last one at which the value has room; it is left with an inequality,
and an index behind that one never meets it.
-/

namespace LowJs.IndexOf

abbrev Bytes := List UInt8

/-- An array; the engine counts its bytes with 32 bits. -/
structure Uint8Array where
  data : Bytes
  bound : data.length < 2 ^ 32

/-- `n | 0`. -/
def toInt32 (n : Int) : Int := n.bmod (2 ^ 32)

variable (that : Uint8Array) (memberArray : Bytes)

/-- `that.length >>> 0`. -/
def Len : Int := (that.data.length % 2 ^ 32 : Nat)

/-- Where the search begins; `none` where -1 is returned at once. -/
def firstIndex (fromIndex : Int) : Option Nat :=
  let i := min (toInt32 fromIndex) (Len that)
  if i < 0 then some (max 0 (Len that + i)).toNat
  else if Len that ≤ i then none
  else some i.toNat

/-- The inner loop, from the `j` on at which `memberArray` is left; a byte behind the array is `undefined`. -/
def compare (that : Bytes) : Nat → Bytes → Bool
  | _, [] => true
  | i, byte :: memberArray => if that[i]? ≠ some byte then false else compare that (i + 1) memberArray

/-- A round of the outer loop. -/
def round (i : Nat) : Nat ⊕ Int :=
  if (i : Int) = Len that - memberArray.length + 1 then .inr (-1)
  else if compare that.data i memberArray then .inr i
  else .inl (i + 1)

/-- `indexOf`; `none` where the rounds are not enough. -/
def indexOf (fuel : Nat) (fromIndex : Int) : Option Int :=
  match firstIndex that fromIndex with
  | none => some (-1)
  | some i => While.exec (round that memberArray) fuel i

/-! ### What is promised -/

/-- The whole value stands at `k`. -/
def OccursAt (k : Nat) : Prop := k ≤ that.data.length ∧ memberArray <+: that.data.drop k

/-- The index from which on is searched: a negative one counts from the end, and none is behind the end. -/
def normalised (fromIndex : Int) : Nat :=
  if fromIndex < 0 then (that.data.length + fromIndex).toNat else min fromIndex.toNat that.data.length

/-- The smallest index from the normalised one on at which the value stands, or -1. -/
def IsFirst (fromIndex : Int) (r : Int) : Prop :=
  (∃ k : Nat, r = k ∧ normalised that fromIndex ≤ k ∧ OccursAt that memberArray k ∧
    ∀ k', normalised that fromIndex ≤ k' → OccursAt that memberArray k' → k ≤ k') ∨
  (r = -1 ∧ ∀ k, normalised that fromIndex ≤ k → ¬OccursAt that memberArray k)

/-- The index wraps to one with the same first occurrence, an empty value is searched in front of the end,
and another one from an index at which it has room, the one behind, or the end on. -/
def Regular (fromIndex : Int) : Prop :=
  (memberArray = [] → toInt32 fromIndex < that.data.length) ∧
  (memberArray ≠ [] → (that.data.length : Int) ≤ toInt32 fromIndex ∨
    normalised that (toInt32 fromIndex) + memberArray.length ≤ that.data.length + 1) ∧
  ∀ r, IsFirst that memberArray fromIndex r ↔ IsFirst that memberArray (toInt32 fromIndex) r

variable {that memberArray}

/-! ### The parts of the search -/

lemma Len_eq : Len that = that.data.length := by
  rw [Len, Nat.mod_eq_of_lt that.bound]

lemma compare_iff (bytes : Bytes) (i : Nat) (memberArray : Bytes) :
    compare bytes i memberArray = true ↔ memberArray <+: bytes.drop i := by
  induction memberArray generalizing i with
  | nil => simp [compare]
  | cons byte memberArray ih =>
    rw [compare]
    by_cases hbyte : bytes[i]? = some byte
    · rw [if_neg (not_not.mpr hbyte), ih]
      obtain ⟨hi, hget⟩ := List.getElem?_eq_some_iff.mp hbyte
      rw [List.drop_eq_getElem_cons hi, hget, List.cons_prefix_cons]
      simp
    · rw [if_pos hbyte]
      refine iff_of_false Bool.false_ne_true fun hprefix => hbyte ?_
      obtain ⟨rest, hrest⟩ := hprefix
      have hget := congrArg (·[0]?) hrest
      simpa using hget.symm

/-- The value has room where it stands. -/
lemma OccursAt.room {k : Nat} (h : OccursAt that memberArray k) :
    k + memberArray.length ≤ that.data.length := by
  obtain ⟨hle, hprefix⟩ := h
  have hlen := hprefix.length_le
  rw [List.length_drop] at hlen
  omega

lemma occursAt_iff {k : Nat} (hle : k ≤ that.data.length) :
    OccursAt that memberArray k ↔ compare that.data k memberArray = true := by
  rw [compare_iff]
  exact and_iff_right hle

/-- A value that is not empty is not found where it has no room. -/
lemma compare_behind (hne : memberArray ≠ []) {i : Nat}
    (hroom : that.data.length < i + memberArray.length) : compare that.data i memberArray = false := by
  rw [Bool.eq_false_iff]
  intro hcompare
  have hlen := ((compare_iff _ _ _).mp hcompare).length_le
  rw [List.length_drop] at hlen
  have hpos := List.length_pos_iff.mpr hne
  omega

/-- The search from an index up to which nothing is passed over. -/
lemma exec_round (hne : memberArray ≠ []) {start i : Nat} (hstart : start ≤ i)
    (hle : i + memberArray.length ≤ that.data.length + 1)
    (hbefore : ∀ k, start ≤ k → k < i → ¬OccursAt that memberArray k) :
    ∃ r, While.Returns (round that memberArray) i r ∧
      ((∃ k : Nat, r = k ∧ start ≤ k ∧ OccursAt that memberArray k ∧
          ∀ k', start ≤ k' → OccursAt that memberArray k' → k ≤ k') ∨
        (r = -1 ∧ ∀ k, start ≤ k → ¬OccursAt that memberArray k)) := by
  have hpos := List.length_pos_iff.mpr hne
  -- induction on what is left up to the end of the search
  obtain ⟨left, hleft⟩ := Nat.exists_eq_add_of_le hle
  induction left generalizing i with
  | zero =>
    have hend : (i : Int) = Len that - memberArray.length + 1 := by
      rw [Len_eq]
      omega
    refine ⟨-1, (While.returns_inr (by rw [round, if_pos hend])).mpr rfl, Or.inr ⟨rfl, fun k hk hoccurs => ?_⟩⟩
    by_cases hki : k < i
    · exact hbefore k hk hki hoccurs
    · have hroom := hoccurs.room
      omega
  | succ left ih =>
    have hend : (i : Int) ≠ Len that - memberArray.length + 1 := by
      rw [Len_eq]
      omega
    have hile : i ≤ that.data.length := by omega
    cases hcompare : compare that.data i memberArray with
    | true =>
      refine ⟨i, (While.returns_inr (by rw [round, if_neg hend, hcompare, if_pos rfl])).mpr rfl,
        Or.inl ⟨i, rfl, hstart, (occursAt_iff hile).mpr hcompare, fun k' hk' hoccurs => ?_⟩⟩
      by_contra hlt
      exact hbefore k' hk' (by omega) hoccurs
    | false =>
      have hround : round that memberArray i = .inl (i + 1) := by
        rw [round, if_neg hend, hcompare, if_neg Bool.false_ne_true]
      have hbefore' : ∀ k, start ≤ k → k < i + 1 → ¬OccursAt that memberArray k := by
        intro k hk hki hoccurs
        by_cases hk' : k < i
        · exact hbefore k hk hk' hoccurs
        · obtain rfl : k = i := by omega
          rw [occursAt_iff hile, hcompare] at hoccurs
          exact Bool.false_ne_true hoccurs
      obtain ⟨r, hreturns, hr⟩ := ih (i := i + 1) (by omega) (by omega) hbefore' (by omega)
      exact ⟨r, (While.returns_inl hround).mpr hreturns, hr⟩

/-- Behind the index at which it ends, the search goes on for ever. -/
lemma not_returns_round (hne : memberArray ≠ []) {i : Nat}
    (hbehind : that.data.length + 1 < i + memberArray.length) (r : Int) :
    ¬While.Returns (round that memberArray) i r := by
  refine While.not_returns (P := fun i => that.data.length + 1 < i + memberArray.length) ?_ hbehind
  intro i hi
  refine ⟨i + 1, ?_, by omega⟩
  have hend : (i : Int) ≠ Len that - memberArray.length + 1 := by
    rw [Len_eq]
    omega
  rw [round, if_neg hend, compare_behind hne (by omega), if_neg Bool.false_ne_true]

lemma firstIndex_eq (n : Int) : firstIndex that n =
    if (that.data.length : Int) ≤ toInt32 n then none else some (normalised that (toInt32 n)) := by
  rw [firstIndex, normalised, Len_eq]
  by_cases hbehind : (that.data.length : Int) ≤ toInt32 n
  · rw [if_pos hbehind, min_eq_right hbehind, if_neg (by omega), if_pos le_rfl]
  · rw [if_neg hbehind, min_eq_left (by omega)]
    by_cases hneg : toInt32 n < 0
    · rw [if_pos hneg, if_pos hneg]
      congr 1
      omega
    · rw [if_neg hneg, if_neg hneg, if_neg hbehind]
      congr 1
      omega

lemma IsFirst.unique {n r r' : Int} (h : IsFirst that memberArray n r) (h' : IsFirst that memberArray n r') :
    r = r' := by
  obtain ⟨k, rfl, hk, hoccurs, hmin⟩ | ⟨rfl, hnone⟩ := h
  · obtain ⟨k', rfl, hk', hoccurs', hmin'⟩ | ⟨-, hnone⟩ := h'
    · rw [le_antisymm (hmin k' hk' hoccurs') (hmin' k hk hoccurs)]
    · exact absurd hoccurs (hnone k hk)
  · obtain ⟨k', rfl, hk', hoccurs', -⟩ | ⟨rfl, -⟩ := h'
    · exact absurd hoccurs' (hnone k' hk')
    · rfl

/-- The search from an index in front of the end, for a value that has room there or one behind. -/
lemma indexOf_returns {n : Int} (hempty : memberArray = [] → toInt32 n < that.data.length)
    (hroom : memberArray ≠ [] → (that.data.length : Int) ≤ toInt32 n ∨
      normalised that (toInt32 n) + memberArray.length ≤ that.data.length + 1) :
    ∃ r, (∃ fuel, indexOf that memberArray fuel n = some r) ∧ IsFirst that memberArray (toInt32 n) r := by
  by_cases hbehind : (that.data.length : Int) ≤ toInt32 n
  · have hne : memberArray ≠ [] := fun hnil => absurd (hempty hnil) (by omega)
    refine ⟨-1, ⟨0, by rw [indexOf, firstIndex_eq, if_pos hbehind]⟩, Or.inr ⟨rfl, fun k hk hoccurs => ?_⟩⟩
    have hpos := List.length_pos_iff.mpr hne
    have hfit := hoccurs.room
    rw [normalised, if_neg (by omega)] at hk
    omega
  · have hfirst : firstIndex that n = some (normalised that (toInt32 n)) := by
      rw [firstIndex_eq, if_neg hbehind]
    by_cases hnil : memberArray = []
    · -- the empty value stands where the search begins
      have hle : normalised that (toInt32 n) ≤ that.data.length := by
        rw [normalised]
        split <;> omega
      have hround : round that memberArray (normalised that (toInt32 n)) =
          .inr (normalised that (toInt32 n)) := by
        have hend : (normalised that (toInt32 n) : Int) ≠ Len that - memberArray.length + 1 := by
          rw [Len_eq, hnil, List.length_nil]
          omega
        rw [round, if_neg hend, if_pos (by rw [hnil]; rfl)]
      refine ⟨normalised that (toInt32 n), ⟨1, ?_⟩, Or.inl ⟨_, rfl, le_rfl, ⟨hle, ?_⟩, fun k' hk' _ => hk'⟩⟩
      · rw [indexOf, hfirst]
        exact While.exec_succ_inr hround 0
      · rw [hnil]
        exact List.nil_prefix
    · have hbefore : ∀ k, normalised that (toInt32 n) ≤ k → k < normalised that (toInt32 n) →
          ¬OccursAt that memberArray k := fun k hk hk' => absurd hk (by omega)
      obtain ⟨r, ⟨fuel, hfuel⟩, hr⟩ :=
        exec_round hnil le_rfl ((hroom hnil).resolve_left hbehind) hbefore
      refine ⟨r, ⟨fuel, ?_⟩, hr⟩
      rw [indexOf, hfirst]
      exact hfuel

/-- The result of a search that ends. -/
lemma indexOf_room {n r : Int} {fuel : Nat} (h : indexOf that memberArray fuel n = some r)
    (hfirst : IsFirst that memberArray n r) :
    (memberArray = [] → toInt32 n < that.data.length) ∧
      (memberArray ≠ [] → (that.data.length : Int) ≤ toInt32 n ∨
        normalised that (toInt32 n) + memberArray.length ≤ that.data.length + 1) := by
  rw [indexOf, firstIndex_eq] at h
  by_cases hbehind : (that.data.length : Int) ≤ toInt32 n
  · refine ⟨fun hnil => ?_, fun _ => Or.inl hbehind⟩
    -- -1 is returned, and the empty value stands at the normalised index
    rw [if_pos hbehind] at h
    obtain rfl := Option.some.inj h
    obtain ⟨k, hk, -⟩ | ⟨-, hnone⟩ := hfirst
    · omega
    · refine absurd ⟨?_, ?_⟩ (hnone (normalised that n) le_rfl)
      · rw [normalised]
        split <;> omega
      · rw [hnil]
        exact List.nil_prefix
  · rw [if_neg hbehind] at h
    refine ⟨fun _ => by omega, fun hne => Or.inr ?_⟩
    by_contra hroom
    exact not_returns_round hne (by omega) r ⟨fuel, h⟩

/-- `indexOf` ends with the promised index if and only if the call is regular. -/
theorem indexOf_isFirst_iff (that : Uint8Array) (memberArray : Bytes) (fromIndex : Int) :
    (∃ fuel r, indexOf that memberArray fuel fromIndex = some r ∧ IsFirst that memberArray fromIndex r) ↔
      Regular that memberArray fromIndex := by
  constructor
  · rintro ⟨fuel, r, hr, hfirst⟩
    obtain ⟨hempty, hroom⟩ := indexOf_room hr hfirst
    refine ⟨hempty, hroom, fun r' => ?_⟩
    obtain ⟨r'', ⟨fuel', hr''⟩, hwrapped⟩ := indexOf_returns hempty hroom
    have hsame : r'' = r := by
      rw [indexOf] at hr hr''
      cases hindex : firstIndex that fromIndex with
      | none =>
        rw [hindex] at hr hr''
        exact Option.some.inj (hr''.symm.trans hr)
      | some i =>
        rw [hindex] at hr hr''
        exact While.Returns.unique ⟨fuel', hr''⟩ ⟨fuel, hr⟩
    subst hsame
    constructor
    · intro h
      rwa [h.unique hfirst]
    · intro h
      rwa [h.unique hwrapped]
  · rintro ⟨hempty, hroom, hsame⟩
    obtain ⟨r, ⟨fuel, hr⟩, hwrapped⟩ := indexOf_returns hempty hroom
    exact ⟨fuel, r, hr, (hsame r).mpr hwrapped⟩

/-- Indexes of 32 bits do not wrap. -/
lemma toInt32_eq {n : Int} (hlow : -2 ^ 31 ≤ n) (hhigh : n < 2 ^ 31) : toInt32 n = n := by
  refine Int.bmod_eq_of_le ?_ ?_ <;> omega

/-- An array of one byte. -/
def oneByte : Uint8Array := ⟨[7], by decide⟩

/-- A value of three bytes is searched for in an array of one: the search never ends. -/
theorem indexOf_longer_value : ¬∃ fuel r, indexOf oneByte [1, 2, 3] fuel 0 = some r := by
  rintro ⟨fuel, r, hr⟩
  rw [indexOf, firstIndex_eq, toInt32_eq (by decide) (by decide), if_neg (by decide)] at hr
  exact not_returns_round (by decide) (by decide) r ⟨fuel, hr⟩

end LowJs.IndexOf
