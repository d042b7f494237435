import LowJs.Core.Bytes

/-!
# Entries in memory

Byte strings stored one behind the other, each behind a byte that holds its length. What is
written outside of the entries leaves them as they are.
-/

namespace LowJs

/-- The bytes of a string lie in memory from `pos` on. -/
def Stored (data : Int → UInt8) : Int → List UInt8 → Prop
  | _, [] => True
  | pos, c :: cs => data pos = c ∧ Stored data (pos + 1) cs

/-- The entries lie in memory from `pos` on, each behind its length. -/
def Entries (data : Int → UInt8) : Int → List (List UInt8) → Prop
  | _, [] => True
  | pos, e :: es =>
    data pos = UInt8.ofNat e.length ∧ Stored data (pos + 1) e ∧
      Entries data (pos + 1 + e.length) es

/-- The number of bytes that entries take up. -/
def span (es : List (List UInt8)) : Nat := (es.map fun e => e.length + 1).sum

@[simp] lemma span_nil : span [] = 0 := rfl

@[simp] lemma span_cons (e : List UInt8) (es : List (List UInt8)) :
    span (e :: es) = e.length + 1 + span es := by simp [span]

@[simp] lemma span_append (es fs : List (List UInt8)) : span (es ++ fs) = span es + span fs := by
  simp [span]

lemma length_le_span (es : List (List UInt8)) : es.length ≤ span es := by
  induction es with
  | nil => simp
  | cons e es ih =>
    rw [span_cons, List.length_cons]
    omega

variable {data : Int → UInt8} {pos i : Int} {v : UInt8}

@[simp] lemma stored_nil : Stored data pos [] := trivial

@[simp] lemma entries_nil : Entries data pos [] := trivial

lemma stored_append {cs ds : List UInt8} :
    Stored data pos (cs ++ ds) ↔ Stored data pos cs ∧ Stored data (pos + cs.length) ds := by
  induction cs generalizing pos with
  | nil => simp
  | cons c cs ih =>
    have hpos : pos + 1 + (cs.length : Int) = pos + ((c :: cs).length : Int) := by
      simp only [List.length_cons, Nat.cast_add, Nat.cast_one]
      omega
    simp only [List.cons_append, Stored, ih, hpos, and_assoc]

lemma entries_append {es fs : List (List UInt8)} :
    Entries data pos (es ++ fs) ↔ Entries data pos es ∧ Entries data (pos + span es) fs := by
  induction es generalizing pos with
  | nil => simp
  | cons e es ih =>
    have hpos : pos + 1 + (e.length : Int) + (span es : Int) = pos + (span (e :: es) : Int) := by
      simp only [span_cons, Nat.cast_add, Nat.cast_one]
      omega
    simp only [List.cons_append, Entries, ih, hpos, and_assoc]

lemma Stored.of_prefix {cs ds : List UInt8} (h : Stored data pos ds) (hp : cs <+: ds) :
    Stored data pos cs := by
  obtain ⟨es, rfl⟩ := hp
  exact (stored_append.mp h).1

/-- A string depends on its own bytes only. -/
lemma Stored.congr {data' : Int → UInt8} {cs : List UInt8} (h : Stored data pos cs)
    (heq : ∀ j, pos ≤ j → j < pos + cs.length → data' j = data j) : Stored data' pos cs := by
  induction cs generalizing pos with
  | nil => trivial
  | cons c cs ih =>
    simp only [List.length_cons, Nat.cast_add, Nat.cast_one] at heq
    refine ⟨(heq pos (by omega) (by omega)).trans h.1, ih h.2 fun j h1 h2 => ?_⟩
    exact heq j (by omega) (by omega)

lemma Entries.congr {data' : Int → UInt8} {es : List (List UInt8)} (h : Entries data pos es)
    (heq : ∀ j, pos ≤ j → j < pos + span es → data' j = data j) : Entries data' pos es := by
  induction es generalizing pos with
  | nil => trivial
  | cons e es ih =>
    simp only [span_cons, Nat.cast_add, Nat.cast_one] at heq
    obtain ⟨hlen, he, hes⟩ := h
    refine ⟨(heq pos (by omega) (by omega)).trans hlen, he.congr fun j h1 h2 => ?_,
      ih hes fun j h1 h2 => ?_⟩
    · exact heq j (by omega) (by omega)
    · exact heq j (by omega) (by omega)

lemma Stored.update {cs : List UInt8} (h : Stored data pos cs)
    (hi : i < pos ∨ pos + cs.length ≤ i) : Stored (Function.update data i v) pos cs :=
  h.congr fun j h1 h2 => Function.update_of_ne (by omega) _ _

lemma Entries.update {es : List (List UInt8)} (h : Entries data pos es)
    (hi : i < pos ∨ pos + span es ≤ i) : Entries (Function.update data i v) pos es :=
  h.congr fun j h1 h2 => Function.update_of_ne (by omega) _ _

/-- A byte written behind a string makes it longer. -/
lemma Stored.concat {cs : List UInt8} (h : Stored data pos cs) (c : UInt8) :
    Stored (Function.update data (pos + cs.length) c) pos (cs ++ [c]) := by
  refine stored_append.mpr ⟨h.update (.inr (le_refl _)), ?_, trivial⟩
  exact Function.update_self ..

/-- An entry joins the others when its length is written in front of it. -/
lemma Entries.concat {es : List (List UInt8)} {e : List UInt8} (h : Entries data pos es)
    (he : Stored data (pos + span es + 1) e) :
    Entries (Function.update data (pos + span es) (UInt8.ofNat e.length)) pos (es ++ [e]) := by
  refine entries_append.mpr ⟨h.update (.inr (le_refl _)), Function.update_self .., ?_, trivial⟩
  exact he.update (.inl (by omega))

/-- A string without NUL that has a NUL behind it is read as it is. -/
lemma cString_of_stored {e : List UInt8} (he : Stored data pos e) (hnul : ∀ c ∈ e, c ≠ 0)
    (hend : data (pos + e.length) = 0) {n : Nat} (hn : e.length < n) : cString data pos n = e := by
  induction e generalizing pos n with
  | nil =>
    cases n with
    | zero => rfl
    | succ n =>
      simp only [List.length_nil, Nat.cast_zero, add_zero] at hend
      simp [cString, hend]
  | cons c e ih =>
    cases n with
    | zero => simp at hn
    | succ n =>
      simp only [List.length_cons, Nat.cast_add, Nat.cast_one] at hend hn
      have hc : data pos ≠ 0 := by
        rw [he.1]
        exact hnul c (by simp)
      have hrest : cString data (pos + 1) n = e := by
        refine ih he.2 (fun d hd => hnul d (by simp [hd])) ?_ (by omega)
        rw [← hend]
        congr 1
        omega
      rw [cString, if_neg hc, hrest, he.1]

end LowJs
