import LowJs.Core.Machine

/-!
# Lists with holes

A list that only grows: what is taken out leaves a hole. `List.reduceOption` closes the holes, and `rank`
says where a place of the list is in what is left. A place keeps its meaning whatever comes and goes, so a
reader of the closed list that follows the rank of a place misses nothing and reads nothing twice.
-/

namespace LowJs.Slots

variable {α : Type*} {s t : List (Option α)} {a b : α} {k d i : Nat}

/-- How many elements are in front of a place. -/
def rank (s : List (Option α)) (d : Nat) : Nat := (s.take d).reduceOption.length

/-- The first place from `d` on that has an element. -/
def next (s : List (Option α)) (d : Nat) : Option Nat :=
  ((s.drop d).findIdx? Option.isSome).map (d + ·)

lemma split (h : s[k]? = some (some a)) : ∃ l r, s = l ++ some a :: r ∧ l.length = k := by
  obtain ⟨hk, ha⟩ := List.getElem?_eq_some_iff.mp h
  refine ⟨s.take k, s.drop (k + 1), ?_, by simp; omega⟩
  rw [← ha, List.cons_getElem_drop_succ, List.take_append_drop]

@[simp] lemma rank_zero (s : List (Option α)) : rank s 0 = 0 := rfl

@[simp] lemma rank_length (s : List (Option α)) : rank s s.length = s.reduceOption.length := by
  simp [rank]

lemma rank_mono (s : List (Option α)) (h : k ≤ d) : rank s k ≤ rank s d := by
  have hd : s.take d = s.take k ++ (s.drop k).take (d - k) := by
    rw [← List.take_add, Nat.add_sub_cancel' h]
  simp [rank, hd, List.reduceOption_append]

lemma rank_append (h : d ≤ s.length) : rank (s ++ t) d = rank s d := by
  simp [rank, List.take_append_of_le_length h]

/-- The element of a place is the element of its rank. -/
lemma getElem?_rank (h : s[k]? = some (some a)) : s.reduceOption[rank s k]? = some a := by
  obtain ⟨l, r, rfl, rfl⟩ := split h
  simp [rank, List.reduceOption_append, List.reduceOption_cons_of_some]

lemma rank_succ (h : s[k]? = some (some a)) : rank s (k + 1) = rank s k + 1 := by
  obtain ⟨l, r, rfl, rfl⟩ := split h
  simp [rank, List.take_append, List.reduceOption_append, List.reduceOption_cons_of_some,
    List.take_of_length_le]

/-- Only what is in front of a place counts for its rank. -/
lemma rank_lt_rank_iff (h : s[k]? = some (some a)) : rank s k < rank s d ↔ k < d := by
  constructor
  · intro hlt
    by_contra hle
    exact absurd (rank_mono s (not_lt.mp hle)) (not_le.mpr hlt)
  · intro hlt
    have hsucc := rank_mono s (Nat.succ_le_of_lt hlt)
    rw [Nat.succ_eq_add_one, rank_succ h] at hsucc
    exact hsucc

lemma rank_injective {k' : Nat} {b : α} (h : s[k]? = some (some a)) (h' : s[k']? = some (some b))
    (heq : rank s k = rank s k') : k = k' := by
  have := rank_lt_rank_iff (d := k') h
  have := rank_lt_rank_iff (d := k) h'
  omega

/-- Making a hole takes the element out. -/
lemma reduceOption_set_none (h : s[k]? = some (some a)) :
    (s.set k none).reduceOption = s.reduceOption.eraseIdx (rank s k) := by
  obtain ⟨l, r, rfl, rfl⟩ := split h
  simp [rank, List.reduceOption_append, List.reduceOption_cons_of_some,
    List.reduceOption_cons_of_none, List.eraseIdx_append_of_length_le]

/-- Behind a new hole the ranks go down by one. -/
lemma rank_set_none (h : s[k]? = some (some a)) :
    rank (s.set k none) d = if k < d then rank s d - 1 else rank s d := by
  unfold rank
  split
  · next hlt =>
    have hk : (s.take d)[k]? = some (some a) := by rw [List.getElem?_take_of_lt hlt, h]
    have hpos : rank (s.take d) k < (s.take d).reduceOption.length := by
      have := List.getElem?_eq_some_iff.mp (getElem?_rank hk)
      exact this.choose
    rw [List.take_set, reduceOption_set_none hk, List.length_eraseIdx_of_lt hpos]
  · next hle =>
    rw [List.take_set_of_le (not_lt.mp hle)]

lemma reduceOption_set_some (h : s[k]? = some (some a)) :
    (s.set k (some b)).reduceOption = s.reduceOption.set (rank s k) b := by
  obtain ⟨l, r, rfl, rfl⟩ := split h
  simp [rank, List.reduceOption_append, List.reduceOption_cons_of_some]

lemma rank_set_some (h : s[k]? = some (some a)) : rank (s.set k (some b)) d = rank s d := by
  unfold rank
  rcases lt_or_ge k d with hlt | hle
  · have hk : (s.take d)[k]? = some (some a) := by rw [List.getElem?_take_of_lt hlt, h]
    rw [List.take_set, reduceOption_set_some hk, List.length_set]
  · rw [List.take_set_of_le hle]

lemma next_some (h : next s d = some k) :
    d ≤ k ∧ k < s.length ∧ (∃ a, s[k]? = some (some a)) ∧ rank s k = rank s d := by
  unfold next at h
  obtain ⟨n, hn, rfl⟩ := Option.map_eq_some_iff.mp h
  obtain ⟨hlt, hsome, hmin⟩ := List.findIdx?_eq_some_iff_getElem.mp hn
  rw [List.length_drop] at hlt
  rw [List.getElem_drop] at hsome
  obtain ⟨a, ha⟩ := Option.isSome_iff_exists.mp hsome
  refine ⟨Nat.le_add_right d n, by omega, ⟨a, by rw [← ha]; exact List.getElem?_eq_getElem _⟩, ?_⟩
  have hholes : ((s.drop d).take n).reduceOption = [] := by
    rw [List.reduceOption, List.filterMap_eq_nil_iff]
    intro x hx
    obtain ⟨j, hj, rfl⟩ := List.getElem_of_mem hx
    rw [List.length_take] at hj
    simpa using hmin j (by omega)
  simp [rank, List.take_add, List.reduceOption_append, hholes]

lemma next_none (h : next s d = none) : rank s d = s.reduceOption.length := by
  unfold next at h
  rw [Option.map_eq_none_iff, List.findIdx?_eq_none_iff] at h
  have hholes : (s.drop d).reduceOption = [] := by
    rw [List.reduceOption, List.filterMap_eq_nil_iff]
    intro x hx
    simpa using h x hx
  conv_rhs => rw [← List.take_append_drop d s, List.reduceOption_append, hholes, List.append_nil]
  rfl

end LowJs.Slots
