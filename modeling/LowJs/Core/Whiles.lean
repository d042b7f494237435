import Mathlib.Logic.Basic
import Mathlib.Order.Basic

/-!
# Loops that may run for ever

The body of a loop goes on with a new state or leaves with a result. A run of the body is cut off by a
number of rounds; the loop returns if some number is enough.
-/

namespace LowJs.While

variable {σ α : Type*} {body : σ → σ ⊕ α} {s t : σ} {a b : α}

/-- The result of at most so many rounds. -/
def exec (body : σ → σ ⊕ α) : Nat → σ → Option α
  | 0, _ => none
  | fuel + 1, s =>
    match body s with
    | .inl s => exec body fuel s
    | .inr a => some a

/-- The loop leaves with `a`. -/
def Returns (body : σ → σ ⊕ α) (s : σ) (a : α) : Prop := ∃ fuel, exec body fuel s = some a

lemma exec_succ_inl (h : body s = .inl t) (fuel : Nat) : exec body (fuel + 1) s = exec body fuel t := by
  rw [exec, h]

lemma exec_succ_inr (h : body s = .inr a) (fuel : Nat) : exec body (fuel + 1) s = some a := by
  rw [exec, h]

/-- A round that goes on. -/
lemma returns_inl (h : body s = .inl t) : Returns body s a ↔ Returns body t a := by
  constructor
  · rintro ⟨fuel, hfuel⟩
    cases fuel with
    | zero => exact absurd hfuel nofun
    | succ fuel => exact ⟨fuel, (exec_succ_inl h fuel).symm.trans hfuel⟩
  · rintro ⟨fuel, hfuel⟩
    exact ⟨fuel + 1, (exec_succ_inl h fuel).trans hfuel⟩

/-- A round that leaves. -/
lemma returns_inr (h : body s = .inr b) : Returns body s a ↔ a = b := by
  constructor
  · rintro ⟨fuel, hfuel⟩
    cases fuel with
    | zero => exact absurd hfuel nofun
    | succ fuel => exact (Option.some.inj ((exec_succ_inr h fuel).symm.trans hfuel)).symm
  · rintro rfl
    exact ⟨1, exec_succ_inr h 0⟩

lemma exec_mono {fuel fuel' : Nat} (hle : fuel ≤ fuel') (h : exec body fuel s = some a) :
    exec body fuel' s = some a := by
  induction fuel generalizing fuel' s with
  | zero => exact absurd h nofun
  | succ fuel ih =>
    obtain ⟨fuel', rfl⟩ := Nat.exists_eq_add_one_of_ne_zero (Nat.ne_zero_of_lt hle)
    cases hs : body s with
    | inl t =>
      rw [exec_succ_inl hs] at h ⊢
      exact ih (Nat.le_of_succ_le_succ hle) h
    | inr b =>
      rw [exec_succ_inr hs] at h ⊢
      exact h

/-- A loop has one result. -/
lemma Returns.unique (ha : Returns body s a) (hb : Returns body s b) : a = b := by
  obtain ⟨fuel, ha⟩ := ha
  obtain ⟨fuel', hb⟩ := hb
  have ha' := exec_mono (Nat.le_max_left fuel fuel') ha
  have hb' := exec_mono (Nat.le_max_right fuel fuel') hb
  exact Option.some.inj (ha'.symm.trans hb')

/-- Where every round goes on to a state of the same kind, the loop never returns. -/
theorem not_returns {P : σ → Prop} (hstep : ∀ s, P s → ∃ t, body s = .inl t ∧ P t) (hs : P s) :
    ¬Returns body s a := by
  rintro ⟨fuel, hfuel⟩
  induction fuel generalizing s with
  | zero => exact absurd hfuel nofun
  | succ fuel ih =>
    obtain ⟨t, ht, hP⟩ := hstep s hs
    exact ih hP ((exec_succ_inl ht fuel).symm.trans hfuel)

end LowJs.While
