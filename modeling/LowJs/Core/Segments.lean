import LowJs.Core.Machine

/-!
# Names that go up

A path is a list of names. Some names are skipped, one name goes up: it takes back the name in front of it.
The names that are left are kept as a stack, the last name first. Above the bottom of the stack the name that
goes up is either kept or dropped.
-/

namespace LowJs.Segments

variable {S : Type*} [DecidableEq S]

/-- What the names mean. -/
structure Meaning (S : Type*) where
  skip : S → Bool
  up : S
  skip_up : skip up = false

variable (N : Meaning S) (above : Bool) {stack l r as bs : List S} {s : S}

/-- A name is added to the stack. -/
def push (stack : List S) (s : S) : List S :=
  if N.skip s then stack
  else if s = N.up then
    match stack with
    | [] => if above then [s] else []
    | t :: rest => if t = N.up then if above then s :: t :: rest else t :: rest else rest
  else s :: stack

/-- What is left of a path. -/
def normal (segs : List S) : List S := segs.foldl (push N above) []

/-- A name that is neither skipped nor goes up. -/
def Plain (s : S) : Prop := N.skip s = false ∧ s ≠ N.up

/-- A stack of plain names, above names that go up if those are kept. -/
def Canonical (stack : List S) : Prop :=
  ∃ l n, stack = l ++ List.replicate n N.up ∧ (∀ s ∈ l, Plain N s) ∧ (above = false → n = 0)

variable {N above}

lemma push_skip (h : N.skip s) : push N above stack s = stack := by
  simp [push, h]

lemma push_plain (h : Plain N s) : push N above stack s = s :: stack := by
  simp [push, h.1, h.2]

lemma push_up_cons {t : S} (h : t ≠ N.up) : push N above (t :: stack) N.up = stack := by
  simp [push, N.skip_up, h]

lemma push_up_replicate (n : Nat) : push N true (List.replicate n N.up) N.up =
    List.replicate (n + 1) N.up := by
  cases n <;> simp [push, N.skip_up, List.replicate_succ]

omit [DecidableEq S] in
lemma canonical_nil : Canonical N above ([] : List S) := ⟨[], 0, rfl, by simp, fun _ => rfl⟩

lemma Canonical.push (h : Canonical N above stack) (s : S) : Canonical N above (push N above stack s) := by
  obtain ⟨l, n, rfl, hl, hn⟩ := h
  by_cases hskip : N.skip s
  · rw [push_skip hskip]
    exact ⟨l, n, rfl, hl, hn⟩
  · by_cases hup : s = N.up
    · subst hup
      cases l with
      | cons t l =>
        rw [List.cons_append, push_up_cons (hl t List.mem_cons_self).2]
        exact ⟨l, n, rfl, fun s hs => hl s (List.mem_cons_of_mem _ hs), hn⟩
      | nil =>
        cases above with
        | false =>
          obtain rfl := hn rfl
          exact ⟨[], 0, by simp [Segments.push, N.skip_up], by simp, fun _ => rfl⟩
        | true =>
          rw [List.nil_append, push_up_replicate]
          exact ⟨[], n + 1, rfl, by simp, nofun⟩
    · have hplain : Plain N s := ⟨by simpa using hskip, hup⟩
      rw [push_plain hplain]
      refine ⟨s :: l, n, rfl, fun t ht => ?_, hn⟩
      rcases List.mem_cons.mp ht with rfl | ht
      · exact hplain
      · exact hl t ht

lemma Canonical.foldl (h : Canonical N above stack) (segs : List S) :
    Canonical N above (segs.foldl (Segments.push N above) stack) := by
  induction segs generalizing stack with
  | nil => exact h
  | cons s segs ih => exact ih (h.push s)

lemma canonical_normal (segs : List S) : Canonical N above (normal N above segs) :=
  canonical_nil.foldl segs

/-- Plain names pile up. -/
lemma foldl_plain (h : ∀ s ∈ l, Plain N s) :
    l.foldl (push N above) stack = l.reverse ++ stack := by
  induction l generalizing stack with
  | nil => rfl
  | cons s l ih =>
    rw [List.foldl_cons, push_plain (h s List.mem_cons_self),
      ih fun t ht => h t (List.mem_cons_of_mem _ ht)]
    simp

lemma foldl_replicate_up (n m : Nat) :
    (List.replicate n N.up).foldl (push N true) (List.replicate m N.up) =
      List.replicate (m + n) N.up := by
  induction n generalizing m with
  | zero => rfl
  | succ n ih =>
    rw [List.replicate_succ, List.foldl_cons, push_up_replicate, ih]
    congr 1
    omega

/-- A stack is what is left of its own names. -/
lemma Canonical.normal_reverse (h : Canonical N above stack) : normal N above stack.reverse = stack := by
  obtain ⟨l, n, rfl, hl, hn⟩ := h
  have hups : (List.replicate n N.up).foldl (Segments.push N above) [] = List.replicate n N.up := by
    cases above with
    | false =>
      obtain rfl := hn rfl
      rfl
    | true => simpa using foldl_replicate_up (N := N) n 0
  rw [normal, List.reverse_append, List.reverse_replicate, List.foldl_append, hups,
    foldl_plain fun s hs => hl s (List.mem_reverse.mp hs), List.reverse_reverse]

lemma normal_append (as bs : List S) :
    normal N above (as ++ bs) = bs.foldl (push N above) (normal N above as) :=
  List.foldl_append ..

omit [DecidableEq S] in
/-- Without the names above the bottom every name is plain. -/
lemma Canonical.plain (h : Canonical N false stack) : ∀ s ∈ stack, Plain N s := by
  obtain ⟨l, n, rfl, hl, hn⟩ := h
  obtain rfl := hn rfl
  simpa using hl

/-- As many names that go up take as many plain names back. -/
lemma foldl_up_plain (h : ∀ s ∈ l, Plain N s) :
    (List.replicate l.length N.up).foldl (push N above) (l ++ r) = r := by
  induction l with
  | nil => rfl
  | cons s l ih =>
    rw [List.length_cons, List.replicate_succ, List.foldl_cons, List.cons_append,
      push_up_cons (h s List.mem_cons_self).2]
    exact ih fun t ht => h t (List.mem_cons_of_mem _ ht)

end LowJs.Segments
