import Mathlib

/-!
# Association lists with distinct keys

The properties of an object, in the order in which they were made: the value of one of them is replaced, or it
is deleted.
-/

namespace LowJs

variable {κ ν : Type*} [DecidableEq κ] {l : List (κ × ν)} {k : κ} {v : ν}

lemma lookup_cons_ite (p : κ × ν) (l : List (κ × ν)) (k : κ) :
    (p :: l).lookup k = if k = p.1 then some p.2 else l.lookup k := by
  obtain ⟨a, b⟩ := p
  by_cases hk : k = a
  · simp [hk]
  · simp [List.lookup_cons, hk, beq_false_of_ne hk]

lemma lookup_eq_some_iff_mem (h : (l.map Prod.fst).Nodup) : l.lookup k = some v ↔ (k, v) ∈ l := by
  induction l with
  | nil => simp
  | cons p l ih =>
    obtain ⟨hp, hl⟩ := List.nodup_cons.mp h
    rw [lookup_cons_ite, List.mem_cons]
    by_cases hk : k = p.1
    · have hnot : (k, v) ∉ l := fun hm => hp (hk ▸ List.mem_map_of_mem hm)
      rw [if_pos hk, Option.some_inj, or_iff_left hnot, Prod.ext_iff]
      exact ⟨fun hv => ⟨hk, hv.symm⟩, fun hv => hv.2.symm⟩
    · rw [if_neg hk, ih hl, or_iff_right fun hp => hk (congrArg Prod.fst hp)]

/-- The value of a key that is there is replaced. -/
lemma lookup_replace (l : List (κ × ν)) (k j : κ) (v : ν) :
    (l.map fun p => if p.1 = k then (k, v) else p).lookup j =
      if j = k then (l.lookup j).map fun _ => v else l.lookup j := by
  induction l with
  | nil => simp
  | cons p l ih =>
    rw [List.map_cons, lookup_cons_ite, lookup_cons_ite, ih]
    by_cases hp : p.1 = k
    · by_cases hj : j = k <;> simp [hp, hj]
    · by_cases hj : j = p.1 <;> simp [hp, hj]

lemma keys_replace (l : List (κ × ν)) (k : κ) (v : ν) :
    (l.map fun p => if p.1 = k then (k, v) else p).map Prod.fst = l.map Prod.fst := by
  rw [List.map_map]
  refine List.map_congr_left fun p _ => ?_
  by_cases hp : p.1 = k <;> simp [hp]

/-- A key is deleted. -/
lemma lookup_delete (l : List (κ × ν)) (k j : κ) :
    (l.filter fun p => p.1 ≠ k).lookup j = if j = k then none else l.lookup j := by
  induction l with
  | nil => simp
  | cons p l ih =>
    rw [List.filter_cons, lookup_cons_ite]
    by_cases hp : p.1 = k
    · rw [if_neg (by simp [hp]), ih, hp]
      split <;> rfl
    · rw [if_pos (by simp [hp]), lookup_cons_ite, ih]
      by_cases hj : j = p.1 <;> simp [hp, hj]

lemma length_delete (h : (l.map Prod.fst).Nodup) (hk : l.lookup k = some v) :
    (l.filter fun p => p.1 ≠ k).length + 1 = l.length := by
  induction l with
  | nil => simp at hk
  | cons p l ih =>
    obtain ⟨hp, hl⟩ := List.nodup_cons.mp h
    rw [lookup_cons_ite] at hk
    by_cases hkp : k = p.1
    · have hall : l.filter (fun q => q.1 ≠ k) = l :=
        List.filter_eq_self.mpr fun q hq => by
          have : q.1 ≠ k := fun hqk => hp (hkp ▸ hqk ▸ List.mem_map_of_mem hq)
          simp [this]
      rw [List.filter_cons, if_neg (by simp [hkp]), hall, List.length_cons]
    · rw [if_neg hkp] at hk
      rw [List.filter_cons, if_pos (by simpa using Ne.symm hkp), List.length_cons, ih hl hk, List.length_cons]

end LowJs
