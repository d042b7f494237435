import LowJs.Path.Components

/-!
# `dirname`

The loop of `dirname` stops in front of the last component, as that of `basename` does. `join` puts the two
together.
-/

namespace LowJs.Path

open JSString Segments

section
variable {path front comp : JSString} {n k j : Nat}

lemma dirLoop_slashes (h : ∀ i < j, path[k + i]? = some CHAR_FORWARD_SLASH) :
    dirLoop path (k + j) true = if k = 0 then -1 else dirLoop path k true := by
  induction j with
  | zero => cases k <;> rfl
  | succ j ih =>
    have ih := ih fun i hi => h i (Nat.lt_succ_of_lt hi)
    rw [← Nat.add_assoc, dirLoop]
    by_cases hlast : k + j < 1
    · rw [if_pos hlast, if_pos (by omega)]
    · rw [if_neg hlast, if_pos (h j (Nat.lt_succ_self j)), if_neg (by simp), ih]

lemma dirLoop_units (h : ∀ i < j, path[k + i]? ≠ some CHAR_FORWARD_SLASH) (hj : 0 < j) (m : Bool) :
    dirLoop path (k + j) m = if k = 0 then -1 else dirLoop path k false := by
  induction j generalizing m with
  | zero => exact absurd hj (Nat.lt_irrefl 0)
  | succ j ih =>
    rw [← Nat.add_assoc, dirLoop]
    by_cases hlast : k + j < 1
    · rw [if_pos hlast, if_pos (by omega)]
    · rw [if_neg hlast, if_neg (h j (Nat.lt_succ_self j))]
      rcases Nat.eq_zero_or_pos j with rfl | hpos
      · rw [Nat.add_zero, if_neg (by omega)]
      · exact ih (fun i hi => h i (Nat.lt_succ_of_lt hi)) hpos false

/-- The loop stops at the slash in front of the last component, other than the first code unit. -/
lemma Split.dirLoop_eq (h : Split path front comp n) :
    dirLoop path path.length true = if front.length ≤ 1 then -1 else (front.length : Int) - 1 := by
  have hpos := List.length_pos_iff_ne_nil.mpr h.comp_ne
  rw [h.length_eq, dirLoop_slashes fun i hi => h.slash hi, if_neg (by omega),
    dirLoop_units (fun i hi => h.unit_ne hi) hpos]
  rcases hk : front.length with _ | k
  · rfl
  · rw [if_neg (Nat.succ_ne_zero k), dirLoop]
    by_cases hlt : k < 1
    · rw [if_pos hlt, if_pos (by omega)]
    · rw [if_neg hlt, if_pos (h.front_slash hk), if_pos (by rfl), if_neg (by omega)]
      simp

lemma Split.dirname_eq (h : Split path front comp n) :
    dirname path =
      if front = [] then [CHAR_DOT]
      else if front = [CHAR_FORWARD_SLASH] then front
      else if front = [CHAR_FORWARD_SLASH, CHAR_FORWARD_SLASH] then front
      else front.dropLast := by
  have hpos := List.length_pos_iff_ne_nil.mpr h.comp_ne
  have hlen : path.length ≠ 0 := by
    rw [h.length_eq]
    omega
  have habs : (path[0]? == some CHAR_FORWARD_SLASH) = (front.head? == some CHAR_FORWARD_SLASH) := h.leading_eq
  rw [dirname, if_neg hlen]
  simp only [habs, h.dirLoop_eq]
  rcases h.front_eq with rfl | ⟨f, hf⟩
  · rfl
  · have hfront : front ≠ [] := by simp [hf]
    rw [if_neg hfront]
    rcases f with _ | ⟨c, _ | ⟨d, f⟩⟩
    · rw [List.nil_append] at hf
      subst hf
      rfl
    · have hone : front ≠ [CHAR_FORWARD_SLASH] := by simp [hf]
      have hslice : path.slice 0 1 = [c] := by
        rw [h.path_eq, hf]
        rfl
      rw [if_neg hone]
      by_cases hc : c = CHAR_FORWARD_SLASH
      · subst hc hf
        rfl
      · have htwo : front ≠ [CHAR_FORWARD_SLASH, CHAR_FORWARD_SLASH] := by simp [hf, hc]
        rw [if_neg htwo, hf]
        simpa [hc] using hslice
    · have hone : front ≠ [CHAR_FORWARD_SLASH] := by simp [hf]
      have htwo : front ≠ [CHAR_FORWARD_SLASH, CHAR_FORWARD_SLASH] := by simp [hf]
      have hlen : front.length = f.length + 3 := by simp [hf]
      have htake : path.take (f.length + 2) = c :: d :: f := by
        rw [h.path_eq, hf, List.append_assoc, List.take_left']
        rfl
      have hto : ((front.length : Int) - 1).toNat = f.length + 2 := by omega
      have hroot : ¬((front.head? == some CHAR_FORWARD_SLASH) && decide ((front.length : Int) - 1 = 1)) = true := by
        simp
        omega
      rw [if_neg hone, if_neg htwo, if_neg (by omega : ¬front.length ≤ 1), if_neg (by omega), if_neg hroot, hto,
        JSString.slice_zero, htake, hf, List.dropLast_concat]

/-- Slashes at the end name no further component. -/
lemma norm_slashes {above : Bool} (x : JSString) (n : Nat) :
    norm above (x ++ List.replicate n CHAR_FORWARD_SLASH) = norm above x := by
  induction n with
  | zero => rw [List.replicate_zero, List.append_nil]
  | succ n ih => rw [List.replicate_succ', ← List.append_assoc, norm_concat, ih]

/-- The directory and the name lead where the path leads. -/
lemma Split.dirname_alike (h : Split path front comp n) (above : Bool) :
    leading (dirname path ++ CHAR_FORWARD_SLASH :: comp) = leading path ∧
      norm above (dirname path ++ CHAR_FORWARD_SLASH :: comp) = norm above path := by
  have hnorm : norm above path = norm above (front ++ comp) := by
    rw [h.path_eq, ← List.append_assoc, norm_slashes]
  have hlead : leading path = leading front := by
    rcases h.front_eq with rfl | ⟨f, hf⟩
    · have hfree := leading_free h.comp_free
      rw [h.path_eq, List.nil_append, leading_append h.comp_ne]
      exact hfree
    · rw [h.path_eq, leading_append (by simp [hf])]
  have hslash : ∀ x, norm above (x ++ CHAR_FORWARD_SLASH :: comp) =
      (segs comp).foldl (push meaning above) (norm above x) := fun x => norm_append x comp
  rw [hnorm, hlead, h.dirname_eq]
  rcases h.front_eq with rfl | ⟨f, hf⟩
  · refine ⟨rfl, ?_⟩
    rw [if_pos rfl, hslash, norm_dot]
    rfl
  · have hfront : front ≠ [] := by simp [hf]
    have happ : front ++ comp = f ++ CHAR_FORWARD_SLASH :: comp := by simp [hf]
    rw [if_neg hfront, happ, hslash]
    split_ifs with hone htwo
    · obtain rfl : f = [] := by simpa [hone] using hf
      rw [hone]
      exact ⟨rfl, by rw [hslash]; rfl⟩
    · obtain rfl : f = [CHAR_FORWARD_SLASH] := by
        rw [htwo] at hf
        exact (List.append_cancel_right (show [CHAR_FORWARD_SLASH] ++ [CHAR_FORWARD_SLASH] = f ++ _ from hf)).symm
      rw [htwo]
      refine ⟨rfl, ?_⟩
      rw [hslash]
      rfl
    · have hne : f ≠ [] := fun hnil => hone (by simp [hf, hnil])
      rw [hf, List.dropLast_concat, hslash, leading_append hne, leading_append hne]
      exact ⟨rfl, rfl⟩

lemma dirname_slashes (n : Nat) :
    dirname (List.replicate (n + 1) CHAR_FORWARD_SLASH) = [CHAR_FORWARD_SLASH] := by
  have hloop : dirLoop (List.replicate (n + 1) CHAR_FORWARD_SLASH) (n + 1) true = -1 := by
    have hall : dirLoop (List.replicate (n + 1) CHAR_FORWARD_SLASH) (0 + (n + 1)) true =
      if 0 = 0 then -1 else dirLoop (List.replicate (n + 1) CHAR_FORWARD_SLASH) 0 true :=
        dirLoop_slashes fun i hi => by simp [hi]
    rwa [Nat.zero_add] at hall
  simp [dirname, hloop]

lemma Split.dirname_ne_nil (h : Split path front comp n) : dirname path ≠ [] := by
  rw [h.dirname_eq]
  rcases h.front_eq with rfl | ⟨f, hf⟩
  · simp
  · split_ifs with _ hone htwo
    · simp
    · simp [hone]
    · simp [htwo]
    · rw [hf, List.dropLast_concat]
      rintro rfl
      exact hone hf

/-- `join` makes of the directory and the name what `normalize` makes of the path, but for the slash at the
end. -/
theorem join_dirname_basename (path : JSString) :
    join [dirname path, basename path none] = normalize path ↔
      (trailing path → normalize path = [CHAR_FORWARD_SLASH]) := by
  rcases exists_split path with hall | ⟨front, comp, n, h⟩
  · rw [hall]
    generalize path.length = k
    cases k with
    | zero => decide
    | succ k =>
      have hnorm : norm false (List.replicate (k + 1) CHAR_FORWARD_SLASH) = [] := norm_slashes [] (k + 1)
      have hlead : leading (List.replicate (k + 1) CHAR_FORWARD_SLASH) = true := by simp [leading]
      have htrail : trailing (List.replicate (k + 1) CHAR_FORWARD_SLASH) = true := by
        simp [trailing, List.getLast?_replicate]
      have hnormalize : normalize (List.replicate (k + 1) CHAR_FORWARD_SLASH) = [CHAR_FORWARD_SLASH] := by
        rw [normalize_eq (by simp), hlead, htrail, Bool.not_true, hnorm]
        rfl
      rw [dirname_slashes, basename_slashes, hnormalize]
      exact iff_of_true (by decide) fun _ => rfl
  · have hne : dirname path ≠ [] := h.dirname_ne_nil
    have hpath : path ≠ [] := by
      rw [h.path_eq]
      simp [h.comp_ne]
    have hjoin : join [dirname path, comp] = normalize (dirname path ++ CHAR_FORWARD_SLASH :: comp) := by
      have hpos := List.length_pos_iff_ne_nil.mpr hne
      have hcomp := List.length_pos_iff_ne_nil.mpr h.comp_ne
      simp only [join, joinLoop, hpos, hcomp, if_true]
      rfl
    obtain ⟨hlead, hnorm⟩ := h.dirname_alike (!leading path)
    have htrail : trailing (dirname path ++ CHAR_FORWARD_SLASH :: comp) = false := by
      rw [trailing_append _ (List.cons_ne_nil _ _), ← List.singleton_append, trailing_append _ h.comp_ne]
      exact trailing_free h.comp_free
    rw [h.basename_none, hjoin, normalize_eq (by simp), normalize_eq hpath, hlead, htrail, hnorm]
    have halike : ∀ trails, _ := fun trails =>
      @render_alike (norm (!leading path) path) (leading path) trails (canonical_normal _) (free_norm _ path)
    have hroot : render (leading path) (trailing path) (norm (!leading path) path) = [CHAR_FORWARD_SLASH] ↔
        leading path ∧ norm (!leading path) path = [] := by
      constructor
      · intro heq
        obtain ⟨-, hl, hn, -⟩ := halike (trailing path)
        rw [heq] at hl hn
        have hl : leading path = true := hl.symm
        rw [hl] at hn ⊢
        exact ⟨rfl, hn.symm⟩
      · rintro ⟨hl, hn⟩
        rw [hn, hl]
        cases trailing path <;> rfl
    rw [hroot]
    cases htp : trailing path with
    | false => exact iff_of_true rfl fun hf => absurd hf (by simp)
    | true =>
      refine ⟨fun heq _ => ?_, fun hand => ?_⟩
      · obtain ⟨-, -, -, hf⟩ := halike false
        obtain ⟨-, -, -, ht⟩ := halike true
        rw [heq] at hf
        rcases hf with hf | hf
        · rcases ht with ht | ht
          · rw [ht] at hf
            cases hf
          · exact ht
        · exact hf
      · exact render_trails _ (hand rfl).1 (hand rfl).2

end

end LowJs.Path
