import Mathlib

/-!
# Queues linked through their elements

The elements carry the link `next`, a queue is the pair of its first and its last element. Several queues
may share the links, as long as no element is in two of them. `Linked` relates the links to the list of
the elements; what is queued is recognised by its link and by the last element.
-/

namespace LowJs

variable {α : Type*}

/-- The elements from `p` on are `xs`. -/
def Linked (next : α → Option α) : Option α → List α → Prop
  | p, [] => p = none
  | p, x :: xs => p = some x ∧ Linked next (next x) xs

namespace Linked

variable {next next' : α → Option α} {p : Option α} {xs ys : List α} {x y : α}

lemma congr (h : Linked next p xs) (heq : ∀ z ∈ xs, next' z = next z) : Linked next' p xs := by
  induction xs generalizing p with
  | nil => exact h
  | cons x xs ih =>
    obtain ⟨hp, h⟩ := h
    refine ⟨hp, ?_⟩
    rw [heq x List.mem_cons_self]
    exact ih h fun z hz => heq z (List.mem_cons_of_mem x hz)

/-- The link of an element leads to what stands behind it. -/
lemma next_eq (h : Linked next p (xs ++ x :: ys)) : next x = ys.head? := by
  induction xs generalizing p with
  | nil =>
    obtain ⟨-, h⟩ := h
    cases ys with
    | nil => exact h
    | cons y ys => exact h.1
  | cons z xs ih => exact ih h.2

/-- The links determine the elements. -/
lemma unique (hx : Linked next p xs) (hy : Linked next p ys) : xs = ys := by
  induction xs generalizing p ys with
  | nil =>
    cases hx
    cases ys with
    | nil => rfl
    | cons y ys => cases hy.1
  | cons x xs ih =>
    obtain ⟨rfl, hx⟩ := hx
    cases ys with
    | nil => cases hy
    | cons y ys =>
      obtain ⟨hp, hy⟩ := hy
      cases hp
      rw [ih hx hy]

lemma head_eq (h : Linked next p xs) : p = xs.head? := by
  cases xs with
  | nil => exact h
  | cons x xs => exact h.1

variable [DecidableEq α]

/-- A new element behind the last one. -/
lemma push (h : Linked next p (xs ++ [x])) (hnodup : (xs ++ [x]).Nodup) (hy : y ∉ xs ++ [x])
    (hlink : next y = none) : Linked (Function.update next x (some y)) p (xs ++ [x, y]) := by
  induction xs generalizing p with
  | nil =>
    have hne : y ≠ x := by simpa using hy
    exact ⟨h.1, by rw [Function.update_self], by rw [Function.update_of_ne hne]; exact hlink⟩
  | cons z xs ih =>
    have hz : z ≠ x := by
      rintro rfl
      simp at hnodup
    refine ⟨h.1, ?_⟩
    rw [Function.update_of_ne hz]
    exact ih h.2 hnodup.of_cons fun hmem => hy (List.mem_cons_of_mem z hmem)

/-- An element behind another one is taken out. -/
lemma unlink (h : Linked next p (xs ++ x :: y :: ys)) (hnodup : (xs ++ x :: y :: ys).Nodup) :
    Linked (Function.update next x (next y)) p (xs ++ x :: ys) := by
  induction xs generalizing p with
  | nil =>
    obtain ⟨hp, -, h⟩ := h
    refine ⟨hp, ?_⟩
    rw [Function.update_self]
    refine h.congr fun z hz => Function.update_of_ne ?_ _ _
    rintro rfl
    simp at hnodup
    exact hnodup.1.2 hz
  | cons z xs ih =>
    have hz : z ≠ x := by
      rintro rfl
      simp at hnodup
    refine ⟨h.1, ?_⟩
    rw [Function.update_of_ne hz]
    exact ih h.2 hnodup.of_cons

end Linked

/-! ### Walks -/

/-- The first element from `p` on that is not `busy`, with the one before it; `last` is the one before
`p`. -/
def firstIdle (next : α → Option α) (busy : α → Bool) : ℕ → Option α → Option α → Option α × Option α
  | 0, last, _ => (last, none)
  | _ + 1, last, none => (last, none)
  | n + 1, last, some c => if busy c then firstIdle next busy n (some c) (next c) else (last, some c)

/-- The walk finds the first element that is not busy, or all are. -/
lemma firstIdle_cases {next : α → Option α} {busy : α → Bool} {p : Option α} {xs : List α} {n : ℕ}
    (h : Linked next p xs) (hn : xs.length ≤ n) (last : Option α) :
    ((firstIdle next busy n last p).2 = none ∧ ∀ x ∈ xs, busy x = true) ∨
      ∃ as c bs, xs = as ++ c :: bs ∧ busy c = false ∧
        firstIdle next busy n last p = (as.getLast?.or last, some c) := by
  induction xs generalizing p n last with
  | nil =>
    cases h
    left
    cases n <;> exact ⟨rfl, by simp⟩
  | cons x xs ih =>
    obtain ⟨rfl, h⟩ := h
    cases n with
    | zero => simp at hn
    | succ n =>
      cases hb : busy x with
      | false => exact .inr ⟨[], x, xs, rfl, hb, by simp [firstIdle, hb]⟩
      | true =>
        simp only [firstIdle, hb, if_true]
        rcases ih h (by simpa using hn) (some x) with ⟨hnone, hall⟩ | ⟨as, c, bs, rfl, hc, heq⟩
        · refine .inl ⟨hnone, fun z hz => ?_⟩
          rcases List.mem_cons.mp hz with rfl | hz
          · exact hb
          · exact hall z hz
        · refine .inr ⟨x :: as, c, bs, rfl, hc, ?_⟩
          rw [heq, List.getLast?_cons]
          cases as.getLast? <;> rfl

variable [DecidableEq α]

/-- The element whose link leads to `c`, searched from `p` on in at most `n` steps. -/
def predecessor (next : α → Option α) (c : α) : ℕ → Option α → Option α
  | 0, _ => none
  | _ + 1, none => none
  | n + 1, some e => if next e = some c then some e else predecessor next c n (next e)

lemma predecessor_eq {next : α → Option α} {p : Option α} {xs ys : List α} {x c : α} {n : ℕ}
    (h : Linked next p (xs ++ x :: c :: ys)) (hnodup : (xs ++ x :: c :: ys).Nodup)
    (hn : xs.length < n) : predecessor next c n p = some x := by
  induction xs generalizing p n with
  | nil =>
    cases n with
    | zero => cases hn
    | succ n =>
      obtain ⟨rfl, hx, -⟩ := h
      simp [predecessor, hx]
  | cons z xs ih =>
    cases n with
    | zero => cases hn
    | succ n =>
      obtain ⟨rfl, h⟩ := h
      have hz : next z ≠ some c := by
        rw [h.head_eq]
        cases xs with
        | nil =>
          rintro heq
          cases heq
          simp at hnodup
        | cons w xs =>
          rintro heq
          cases heq
          simp at hnodup
      rw [predecessor, if_neg hz]
      exact ih h hnodup.of_cons (by simpa using hn)

lemma predecessor_eq_none {next : α → Option α} {p : Option α} {xs : List α} {c : α} {n : ℕ}
    (h : Linked next p xs) (hc : c ∉ xs) : predecessor next c n p = none := by
  induction xs generalizing p n with
  | nil =>
    cases h
    cases n <;> rfl
  | cons z xs ih =>
    cases n with
    | zero => rfl
    | succ n =>
      obtain ⟨rfl, h⟩ := h
      have hz : next z ≠ some c := by
        rw [h.head_eq]
        intro heq
        exact hc (List.mem_cons_of_mem z (List.mem_of_mem_head? heq))
      rw [predecessor, if_neg hz]
      exact ih h fun hmem => hc (List.mem_cons_of_mem z hmem)

/-! ### Queues -/

/-- The first and the last element of a queue. -/
structure Ends (α : Type*) where
  first : Option α
  last : Option α
  deriving DecidableEq, Repr

/-- The queue holds the elements `xs`, in this order. -/
structure IsQueue (next : α → Option α) (q : Ends α) (xs : List α) : Prop where
  linked : Linked next q.first xs
  last : q.last = xs.getLast?
  nodup : xs.Nodup

/-- The element is put behind the last one. -/
def Ends.push (q : Ends α) (next : α → Option α) (c : α) : Ends α × (α → Option α) :=
  match q.last with
  | some l => (⟨q.first, some c⟩, Function.update next l (some c))
  | none => (⟨some c, some c⟩, next)

/-- The element `c` behind `prev`, or at the head, is taken out, and its link is cleared. -/
def Ends.unlink (q : Ends α) (next : α → Option α) (prev : Option α) (c : α) :
    Ends α × (α → Option α) :=
  match prev with
  | none =>
    (⟨next c, if next c = none then none else q.last⟩, Function.update next c none)
  | some l =>
    (⟨q.first, if q.last = some c then some l else q.last⟩,
      Function.update (Function.update next l (next c)) c none)

namespace IsQueue

variable {next : α → Option α} {q : Ends α} {xs ys : List α} {c : α}

omit [DecidableEq α] in
lemma congr {next' : α → Option α} (h : IsQueue next q xs) (heq : ∀ z ∈ xs, next' z = next z) :
    IsQueue next' q xs := ⟨h.linked.congr heq, h.last, h.nodup⟩

omit [DecidableEq α] in
lemma empty : IsQueue next (⟨none, none⟩ : Ends α) [] := ⟨rfl, rfl, List.nodup_nil⟩

/-- A queue of numbers below `n` has at most `n` elements. -/
lemma length_le {next : ℕ → Option ℕ} {q : Ends ℕ} {xs : List ℕ} {n : ℕ} (h : IsQueue next q xs)
    (hbound : ∀ x ∈ xs, x < n) : xs.length ≤ n := by
  have hsub : xs.toFinset ⊆ Finset.range n := fun x hx =>
    Finset.mem_range.mpr (hbound x (List.mem_toFinset.mp hx))
  have hcard := Finset.card_le_card hsub
  rwa [List.toFinset_card_of_nodup h.nodup, Finset.card_range] at hcard

omit [DecidableEq α] in
lemma mem_of_last (h : IsQueue next q xs) (hlast : q.last = some c) : c ∈ xs := by
  rw [h.last] at hlast
  exact List.mem_of_getLast? hlast

omit [DecidableEq α] in
/-- What is queued has a link, or it is the last one. -/
lemma link_or_last (h : IsQueue next q xs) (hmem : c ∈ xs) : next c ≠ none ∨ q.last = some c := by
  obtain ⟨as, bs, rfl⟩ := List.append_of_mem hmem
  cases bs with
  | nil => exact .inr (by rw [h.last]; simp)
  | cons b bs => exact .inl (by rw [h.linked.next_eq]; simp)

omit [DecidableEq α] in
lemma mem_iff (h : IsQueue next q xs) (hother : c ∉ xs → next c = none) :
    (next c ≠ none ∨ q.last = some c) ↔ c ∈ xs := by
  constructor
  · rintro (hlink | hlast)
    · by_contra hmem
      exact hlink (hother hmem)
    · exact h.mem_of_last hlast
  · exact h.link_or_last

omit [DecidableEq α] in
lemma eq_cons (h : IsQueue next q xs) (hfirst : q.first = some c) : ∃ ys, xs = c :: ys := by
  have hhead := h.linked.head_eq
  rw [hfirst] at hhead
  cases xs with
  | nil => cases hhead
  | cons x ys =>
    cases hhead
    exact ⟨ys, rfl⟩

omit [DecidableEq α] in
lemma first_ne (h : IsQueue next q (xs ++ c :: ys)) (hne : xs ≠ []) : q.first ≠ some c := by
  intro hfirst
  obtain ⟨zs, heq⟩ := h.eq_cons hfirst
  have hnodup := h.nodup
  cases xs with
  | nil => exact hne rfl
  | cons x xs =>
    obtain ⟨rfl, -⟩ := List.cons.inj heq
    simp at hnodup

omit [DecidableEq α] in
/-- What is left when an element is taken out. -/
lemma mem_unlinked (h : IsQueue next q (xs ++ c :: ys)) {z : α} :
    z ∈ xs ++ ys ↔ z ∈ xs ++ c :: ys ∧ z ≠ c := by
  have hout : c ∉ xs ++ ys := (List.nodup_cons.mp (List.nodup_middle.mp h.nodup)).1
  simp only [List.mem_append, List.mem_cons] at hout ⊢
  constructor
  · exact fun hz => ⟨hz.imp_right .inr, fun hzc => hout (hzc ▸ hz)⟩
  · rintro ⟨hz | hz | hz, hne⟩
    · exact .inl hz
    · exact absurd hz hne
    · exact .inr hz

lemma push (h : IsQueue next q xs) (hc : c ∉ xs) (hlink : next c = none) :
    IsQueue (q.push next c).2 (q.push next c).1 (xs ++ [c]) := by
  rcases List.eq_nil_or_concat xs with rfl | ⟨ys, l, rfl⟩
  · have hlast : q.last = none := h.last
    simp only [Ends.push, hlast]
    exact ⟨⟨rfl, hlink⟩, rfl, List.nodup_singleton c⟩
  · have hlast : q.last = some l := by rw [h.last]; simp
    simp only [Ends.push, hlast]
    simp only [List.concat_eq_append] at *
    refine ⟨by simpa using h.linked.push h.nodup hc hlink, by simp, ?_⟩
    rw [List.nodup_append]
    exact ⟨h.nodup, List.nodup_singleton c, fun a ha b hb => by
      rw [List.mem_singleton.mp hb]
      exact fun heq => hc (heq ▸ ha)⟩

/-- The links of other elements stay. -/
lemma push_next (h : IsQueue next q xs) {z : α} (hz : z ∉ xs) : (q.push next c).2 z = next z := by
  unfold Ends.push
  split
  · rename_i l hlast
    rw [h.last] at hlast
    refine Function.update_of_ne ?_ _ _
    rintro rfl
    exact hz (List.mem_of_getLast? hlast)
  · rfl

lemma unlink (h : IsQueue next q (xs ++ c :: ys)) :
    IsQueue (q.unlink next xs.getLast? c).2 (q.unlink next xs.getLast? c).1 (xs ++ ys) := by
  have hlink := h.linked.next_eq
  have hnodup : (xs ++ ys).Nodup ∧ c ∉ xs ++ ys := by
    have := List.nodup_middle.mp h.nodup
    exact ⟨this.of_cons, (List.nodup_cons.mp this).1⟩
  rcases List.eq_nil_or_concat xs with rfl | ⟨zs, l, rfl⟩
  · simp only [Ends.unlink, List.getLast?_nil, List.nil_append] at *
    refine ⟨?_, ?_, hnodup.1⟩
    · refine (h.linked.2).congr fun z hz => Function.update_of_ne ?_ _ _
      rintro rfl
      exact hnodup.2 hz
    · rw [hlink, h.last]
      cases ys with
      | nil => simp
      | cons y ys => simp [List.getLast?_cons_cons]
  · simp only [List.concat_eq_append, List.append_assoc, List.cons_append, List.nil_append,
      List.getLast?_append, List.getLast?_singleton, Option.some_or] at *
    simp only [Ends.unlink]
    refine ⟨?_, ?_, hnodup.1⟩
    · refine (h.linked.unlink h.nodup).congr fun z hz => Function.update_of_ne ?_ _ _
      rintro rfl
      exact hnodup.2 hz
    · rw [h.last]
      cases ys with
      | nil => simp
      | cons y ys =>
        have hlast : (zs ++ l :: c :: y :: ys).getLast? = (y :: ys).getLast? := by
          rw [show zs ++ l :: c :: y :: ys = (zs ++ [l, c]) ++ (y :: ys) by simp]
          exact List.getLast?_append_of_ne_nil _ (List.cons_ne_nil y ys)
        have hne : (y :: ys).getLast? ≠ some c := fun heq =>
          hnodup.2 (List.mem_append_right _ (List.mem_cons_of_mem l (List.mem_of_getLast? heq)))
        rw [hlast, if_neg hne, show zs ++ l :: y :: ys = (zs ++ [l]) ++ (y :: ys) by simp,
          List.getLast?_append_of_ne_nil _ (List.cons_ne_nil y ys)]

/-- The links of other elements stay, and that of the element is cleared. -/
lemma unlink_next {z : α} (hz : z ∉ xs ++ c :: ys) :
    (q.unlink next xs.getLast? c).2 z = next z := by
  have hc : z ≠ c := fun heq => hz (by simp [heq])
  unfold Ends.unlink
  split
  · exact Function.update_of_ne hc _ _
  · rename_i l hlast
    have hl : z ≠ l := by
      rintro rfl
      exact hz (List.mem_append_left _ (List.mem_of_getLast? hlast))
    exact (Function.update_of_ne hc _ _).trans (Function.update_of_ne hl _ _)

lemma unlink_self (prev : Option α) : (q.unlink next prev c).2 c = none := by
  unfold Ends.unlink
  split <;> exact Function.update_self ..

end IsQueue

end LowJs
