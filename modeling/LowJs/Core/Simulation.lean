import LowJs.Core.Machine

/-!
# Machines that follow each other

Two machines with the same inputs are related by a relation that every step under a guard keeps; then every
guarded run keeps it. `answering` makes a machine of a step that gives an answer: the answers are kept in a
log, beside the inputs that they belong to.
-/

namespace LowJs.Machine

variable {σ τ ι ω : Type*}

/-- The simulation rule: the guard is one of the first machine. -/
theorem run_related {M : Machine σ ι} {N : Machine τ ι} {ok : σ → ι → Prop} {R : σ → τ → Prop}
    (hstep : ∀ s t i, R s t → ok s i → R (M.step s i) (N.step t i)) {s : σ} {t : τ} (h : R s t)
    {is : List ι} (hok : M.Guarded ok s is) : R (M.run s is) (N.run t is) := by
  induction is generalizing s t with
  | nil => exact h
  | cons i is ih =>
    obtain ⟨hi, his⟩ := hok
    exact ih (hstep s t i h hi) his

/-- A step with an answer, as a machine that keeps a log. -/
def answering (step : σ → ι → σ × ω) : Machine (σ × List (ι × ω)) ι :=
  ⟨fun s i => ((step s.1 i).1, s.2 ++ [(i, (step s.1 i).2)])⟩

section
variable {step : σ → ι → σ × ω} {s : σ} {log : List (ι × ω)} {is : List ι}

@[simp] lemma answering_step (s : σ × List (ι × ω)) (i : ι) :
    (answering step).step s i = ((step s.1 i).1, s.2 ++ [(i, (step s.1 i).2)]) := rfl

end

/-- Two steps that answer alike, where they are related and the guard is kept, give the same log. -/
theorem run_answering_related {step : σ → ι → σ × ω} {step' : τ → ι → τ × ω} {ok : σ → ι → Prop}
    {R : σ → τ → Prop} (hstep : ∀ s t i, R s t → ok s i →
      (step s i).2 = (step' t i).2 ∧ R (step s i).1 (step' t i).1) {s : σ} {t : τ} (h : R s t)
    {is : List ι} (hok : (answering step).Guarded (fun s i => ok s.1 i) (s, []) is) :
    ((answering step).run (s, []) is).2 = ((answering step').run (t, []) is).2 ∧
      R ((answering step).run (s, []) is).1 ((answering step').run (t, []) is).1 := by
  refine run_related (N := answering step')
    (R := fun (s : σ × List (ι × ω)) (t : τ × List (ι × ω)) => s.2 = t.2 ∧ R s.1 t.1) ?_ ⟨rfl, h⟩ hok
  rintro ⟨s, l⟩ ⟨t, l'⟩ i ⟨rfl, hR⟩ hi
  obtain ⟨hanswer, hR'⟩ := hstep s t i hR hi
  exact ⟨by simp [hanswer], hR'⟩

end LowJs.Machine
