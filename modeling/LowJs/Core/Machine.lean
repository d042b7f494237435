import Mathlib

/-!
# Deterministic machines and their runs

A machine is a total step function on states, driven by a list of inputs. An input that
cannot happen in a state leaves it unchanged, so a run exists for every list of inputs and
`run` is a fold.

`Guarded ok` restricts the runs to those in which every input is admissible, under `ok`, in
the state it meets. `run_invariant` is the induction every safety result uses.
-/

namespace LowJs

/-- A state type, an input type, and what an input does to a state. -/
structure Machine (σ ι : Type*) where
  step : σ → ι → σ

namespace Machine

variable {σ ι : Type*} (M : Machine σ ι)

/-- The state after a list of inputs. -/
def run (s : σ) (is : List ι) : σ := is.foldl M.step s

@[simp] lemma run_nil (s : σ) : M.run s [] = s := rfl

@[simp] lemma run_cons (s : σ) (i : ι) (is : List ι) :
    M.run s (i :: is) = M.run (M.step s i) is := rfl

lemma run_append (s : σ) (is js : List ι) : M.run s (is ++ js) = M.run (M.run s is) js := by
  simp [run]

lemma run_concat (s : σ) (is : List ι) (i : ι) :
    M.run s (is ++ [i]) = M.step (M.run s is) i := by
  simp [run]

/-- Every input of the run satisfies `ok` in the state it meets. -/
def Guarded (ok : σ → ι → Prop) : σ → List ι → Prop
  | _, [] => True
  | s, i :: is => ok s i ∧ Guarded ok (M.step s i) is

variable {M} {ok : σ → ι → Prop}

@[simp] lemma guarded_nil (s : σ) : M.Guarded ok s [] := trivial

@[simp] lemma guarded_cons (s : σ) (i : ι) (is : List ι) :
    M.Guarded ok s (i :: is) ↔ ok s i ∧ M.Guarded ok (M.step s i) is := Iff.rfl

instance decidableGuarded [∀ s i, Decidable (ok s i)] :
    ∀ (s : σ) (is : List ι), Decidable (M.Guarded ok s is)
  | _, [] => isTrue trivial
  | s, i :: is =>
    have := decidableGuarded (M.step s i) is
    inferInstanceAs (Decidable (_ ∧ _))

lemma guarded_append (s : σ) (is js : List ι) :
    M.Guarded ok s (is ++ js) ↔ M.Guarded ok s is ∧ M.Guarded ok (M.run s is) js := by
  induction is generalizing s with
  | nil => simp
  | cons i is ih => simp [ih, and_assoc]

lemma guarded_of_forall {s : σ} {is : List ι} (h : ∀ s, ∀ i ∈ is, ok s i) :
    M.Guarded ok s is := by
  induction is generalizing s with
  | nil => trivial
  | cons i is ih =>
    exact ⟨h s i List.mem_cons_self, ih fun s j hj => h s j (List.mem_cons_of_mem _ hj)⟩

/-- A property that holds at the start and that admissible steps preserve holds after every
guarded run. -/
theorem run_invariant {P : σ → Prop} (hstep : ∀ s i, P s → ok s i → P (M.step s i))
    {s : σ} (hs : P s) {is : List ι} (hok : M.Guarded ok s is) : P (M.run s is) := by
  induction is generalizing s with
  | nil => exact hs
  | cons i is ih =>
    obtain ⟨hi, his⟩ := hok
    exact ih (hstep s i hs hi) his

/-- The unguarded form: the steps preserve the property whatever the input. -/
theorem run_invariant_of_step {P : σ → Prop} (hstep : ∀ s i, P s → P (M.step s i))
    {s : σ} (hs : P s) (is : List ι) : P (M.run s is) := by
  induction is generalizing s with
  | nil => exact hs
  | cons i is ih => exact ih (hstep s i hs)

end Machine

end LowJs
