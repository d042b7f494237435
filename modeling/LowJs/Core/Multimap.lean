import Mathlib

/-!
# Sorted lists as multimaps

A list that is sorted by a key, as `std::multimap` keeps it: a new element goes behind the elements
with its key, a search starts at the first element with a key. `next` reads the keys as points of a
circle: it takes the first element from a key on, and begins again where there is none.
-/

namespace LowJs.Multimap

open scoped List

variable {κ α : Type*} [LinearOrder κ] {key : α → κ} {a b : α} {l : List α} {k : κ}

/-- `insert`: behind the elements with the same key. -/
def insert (key : α → κ) (a : α) : List α → List α
  | [] => [a]
  | b :: l => if key b ≤ key a then b :: insert key a l else a :: b :: l

lemma insert_perm (key : α → κ) (a : α) (l : List α) : insert key a l ~ a :: l := by
  induction l with
  | nil => exact .refl _
  | cons b l ih =>
    unfold insert
    split
    · exact (ih.cons b).trans (.swap a b l)
    · exact .refl _

@[simp] lemma mem_insert : b ∈ insert key a l ↔ b = a ∨ b ∈ l := by
  rw [(insert_perm key a l).mem_iff, List.mem_cons]

/-- A relation that follows the keys is kept, if the new element is related to those before it and
behind it. -/
lemma pairwise_insert {r : α → α → Prop} (h : l.Pairwise r)
    (hsorted : l.Pairwise fun b c => key b ≤ key c)
    (hbefore : ∀ b ∈ l, key b ≤ key a → r b a) (hbehind : ∀ b ∈ l, key a < key b → r a b) :
    (insert key a l).Pairwise r := by
  induction l with
  | nil => exact List.pairwise_singleton r a
  | cons b l ih =>
    obtain ⟨hb, hl⟩ := List.pairwise_cons.mp h
    obtain ⟨hsb, hsl⟩ := List.pairwise_cons.mp hsorted
    unfold insert
    split
    · next hle =>
      refine List.pairwise_cons.mpr ⟨fun c hc => ?_, ?_⟩
      · rcases mem_insert.mp hc with rfl | hc
        · exact hbefore b List.mem_cons_self hle
        · exact hb c hc
      · exact ih hl hsl (fun c hc => hbefore c (List.mem_cons_of_mem b hc))
          fun c hc => hbehind c (List.mem_cons_of_mem b hc)
    · next hlt =>
      have hlt : key a < key b := not_le.mp hlt
      refine List.pairwise_cons.mpr ⟨fun c hc => hbehind c hc ?_, h⟩
      rcases List.mem_cons.mp hc with rfl | hc
      · exact hlt
      · exact hlt.trans_le (hsb c hc)

lemma sorted_insert (hsorted : l.Pairwise fun b c => key b ≤ key c) :
    (insert key a l).Pairwise fun b c => key b ≤ key c :=
  pairwise_insert hsorted hsorted (fun _ _ h => h) fun _ _ h => h.le

/-- `lower_bound`, and `begin` where it is at the end. -/
def next (key : α → κ) (k : κ) (l : List α) : Option α :=
  (l.find? fun b => decide (k ≤ key b)).or l.head?

/-- The element that `next` finds comes first on the circle from `k` on. -/
lemma next_eq_some (h : next key k l = some a) :
    ∃ before behind, l = before ++ a :: behind ∧
      ((k ≤ key a ∧ ∀ b ∈ before, key b < k) ∨ (before = [] ∧ ∀ b ∈ l, key b < k)) := by
  rw [next, Option.or_eq_some_iff] at h
  rcases h with h | ⟨hnone, hhead⟩
  · obtain ⟨ha, before, behind, rfl, hbefore⟩ := List.find?_eq_some_iff_append.mp h
    refine ⟨before, behind, rfl, .inl ⟨by simpa using ha, fun b hb => ?_⟩⟩
    simpa using hbefore b hb
  · obtain ⟨behind, rfl⟩ := List.head?_eq_some_iff.mp hhead
    exact ⟨[], behind, rfl, .inr ⟨rfl, by simpa using hnone⟩⟩

lemma mem_of_next (h : next key k l = some a) : a ∈ l := by
  obtain ⟨before, behind, rfl, -⟩ := next_eq_some h
  simp

lemma next_eq_none : next key k l = none ↔ l = [] := by
  constructor
  · intro h
    exact List.head?_eq_none_iff.mp (Option.or_eq_none_iff.mp h).2
  · rintro rfl
    rfl

/-- `find` for a key, and from there on to the first element that satisfies `p`; `none` where one of
them is at the end. -/
def seek (key : α → κ) (k : κ) (p : α → Bool) (l : List α) : Option α :=
  let found := l.dropWhile fun b => decide (key b < k)
  if (found.head?.map key) = some k then found.find? p else none

/-- The search ends at the element that it is meant for, if that is the only one with `p`. -/
lemma seek_eq_some {p : α → Bool} (hsorted : l.Pairwise fun b c => key b ≤ key c) (ha : a ∈ l)
    (hp : p a = true) (honly : ∀ b ∈ l, p b = true → b = a) : seek key (key a) p l = some a := by
  induction l with
  | nil => cases ha
  | cons b l ih =>
    obtain ⟨hb, hl⟩ := List.pairwise_cons.mp hsorted
    unfold seek
    by_cases hlt : key b < key a
    · rw [List.dropWhile_cons_of_pos (by simpa using hlt)]
      have hal : a ∈ l := (List.mem_cons.mp ha).resolve_left fun h => by simp [h] at hlt
      exact ih hl hal fun c hc => honly c (List.mem_cons_of_mem b hc)
    · rw [List.dropWhile_cons_of_neg (by simpa using hlt)]
      have heq : key b = key a := by
        refine le_antisymm ?_ (not_lt.mp hlt)
        rcases List.mem_cons.mp ha with rfl | ha
        · exact le_refl _
        · exact hb a ha
      dsimp only
      rw [if_pos (by simp [heq])]
      obtain ⟨c, hc⟩ : ∃ c, (b :: l).find? p = some c :=
        Option.isSome_iff_exists.mp (List.find?_isSome.mpr ⟨a, ha, hp⟩)
      rw [hc, honly c (List.mem_of_find?_eq_some hc) (List.find?_some hc)]

end LowJs.Multimap
