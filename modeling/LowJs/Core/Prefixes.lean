import LowJs.Core.Machine

/-!
# What holds in every state of a run

Where one kind of step keeps an invariant and every other step breaks the property at once, the property
holds in every state of a run exactly if all steps of the run are of the first kind.
-/

namespace LowJs.Machine

variable {σ ι : Type*} {M : Machine σ ι} {ok : σ → ι → Prop}

/-- An invariant that admissible steps keep holds in every state of a run. -/
theorem forall_prefix_of_guarded {Inv : σ → Prop} {dom : ι → Prop}
    (hstep : ∀ s i, Inv s → dom i → ok s i → Inv (M.step s i)) {s : σ} (hs : Inv s) {is : List ι}
    (hdom : ∀ i ∈ is, dom i) (h : M.Guarded ok s is) {js : List ι} (hjs : js <+: is) : Inv (M.run s js) := by
  induction js generalizing s is with
  | nil => exact hs
  | cons j js ih =>
    obtain ⟨ks, rfl⟩ := hjs
    obtain ⟨hok, hrest⟩ := h
    exact ih (hstep s j hs (hdom j List.mem_cons_self) hok) (fun k hk => hdom k (List.mem_cons_of_mem j hk))
      hrest ⟨ks, rfl⟩

/-- The property holds in every state of a run if and only if every step is admissible. -/
theorem forall_prefix_iff_guarded {Inv P : σ → Prop} {dom : ι → Prop} (hP : ∀ s, Inv s → P s)
    (hstep : ∀ s i, Inv s → dom i → ok s i → Inv (M.step s i))
    (hbad : ∀ s i, Inv s → dom i → ¬ok s i → ¬P (M.step s i)) {s : σ} (hs : Inv s) {is : List ι}
    (hdom : ∀ i ∈ is, dom i) : (∀ js, js <+: is → P (M.run s js)) ↔ M.Guarded ok s is := by
  refine ⟨fun h => ?_, fun h js hjs => hP _ (forall_prefix_of_guarded hstep hs hdom h hjs)⟩
  induction is generalizing s with
  | nil => trivial
  | cons i is ih =>
    have hi := hdom i List.mem_cons_self
    have hok : ok s i := by
      by_contra hok
      exact hbad s i hs hi hok (h [i] ⟨is, rfl⟩)
    refine ⟨hok, ih (hstep s i hs hi hok) (fun j hj => hdom j (List.mem_cons_of_mem i hj)) ?_⟩
    intro js hjs
    exact h (i :: js) ((List.cons_prefix_cons).mpr ⟨rfl, hjs⟩)

/-- Two conditions that mean the same where an invariant holds admit the same runs. -/
theorem guarded_iff_guarded {Inv : σ → Prop} {ok' : σ → ι → Prop}
    (hiff : ∀ s i, Inv s → (ok s i ↔ ok' s i)) (hstep : ∀ s i, Inv s → ok s i → Inv (M.step s i)) {s : σ}
    (hs : Inv s) (is : List ι) : M.Guarded ok s is ↔ M.Guarded ok' s is := by
  induction is generalizing s with
  | nil => exact Iff.rfl
  | cons i is ih =>
    rw [guarded_cons, guarded_cons, ← hiff s i hs]
    exact and_congr_right fun hok => ih (hstep s i hs hok)

end LowJs.Machine
