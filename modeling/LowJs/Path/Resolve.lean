import LowJs.Path.Join

/-!
# `resolve`

`resolve` goes over its arguments from the last one on and stops at an absolute one. It gives the directory in
which one is after going from the current directory to each of the arguments, one after another.
-/

namespace LowJs.Path

open JSString Segments

/-- The directory, the last name first, that a path leads to from a directory. -/
def cd (dir : List JSString) (path : JSString) : List JSString :=
  if leading path then norm false path else (segs path).foldl (push meaning false) dir

section
variable {path cwd : JSString} {dir stack : List JSString} {args as bs : List JSString}

lemma isAbsolute_eq (path : JSString) : isAbsolute path = leading path := by
  cases path with
  | nil => rfl
  | cons c path => simp [isAbsolute, leading]

lemma cd_nil (dir : List JSString) : cd dir [] = dir :=
  show push meaning false dir [] = dir from push_nil dir

lemma cd_leading (h : leading path) : cd dir path = norm false path := if_pos h

lemma cd_relative (h : leading path = false) : cd dir path = (segs path).foldl (push meaning false) dir :=
  if_neg (by simp [h])

lemma Canonical.cd (h : Canonical meaning false dir) (path : JSString) :
    Canonical meaning false (cd dir path) := by
  unfold Path.cd
  split_ifs
  · exact canonical_normal _
  · exact h.foldl _

lemma canonical_cds (h : Canonical meaning false dir) (args : List JSString) :
    Canonical meaning false (args.foldl cd dir) := by
  induction args generalizing dir with
  | nil => exact h
  | cons path args ih => exact ih (Canonical.cd h path)

lemma Free.cd (h : Free dir) (path : JSString) : Free (cd dir path) := by
  unfold Path.cd
  split_ifs
  · exact free_norm false path
  · exact h.foldl (slash_notMem_segs path)

lemma free_cds (h : Free dir) (args : List JSString) : Free (args.foldl cd dir) := by
  induction args generalizing dir with
  | nil => exact h
  | cons path args ih => exact ih (h.cd path)

/-- The loop over the arguments that are left, where one of them is absolute. The text it is given is read in
the directory that they lead to. -/
lemma resolveLoop_eq {paths : List JSString} (h : ∃ path ∈ paths, leading path) (text : JSString) :
    (resolveLoop paths text false).2 = true ∧
      norm false (resolveLoop paths text false).1 =
        (segs text).foldl (push meaning false) (paths.reverse.foldl cd []) := by
  induction paths generalizing text with
  | nil => simp at h
  | cons path paths ih =>
    rw [resolveLoop, if_neg (by simp)]
    by_cases hnil : path = []
    · subst hnil
      rw [if_pos (show ([] : JSString).length = 0 from rfl)]
      obtain ⟨h1, h2⟩ := ih (by simpa [leading] using h) text
      refine ⟨h1, ?_⟩
      rw [h2, List.reverse_cons, List.foldl_append, List.foldl_cons, List.foldl_nil, cd_nil]
    · rw [if_neg (by simpa using hnil)]
      change (resolveLoop paths _ (leading path)).2 = _ ∧ norm false (resolveLoop paths _ (leading path)).1 = _
      rw [List.reverse_cons, List.foldl_append, List.foldl_cons, List.foldl_nil]
      cases hl : leading path with
      | true =>
        have hdone : resolveLoop paths (path ++ CHAR_FORWARD_SLASH :: text) true =
            (path ++ CHAR_FORWARD_SLASH :: text, true) := by
          cases paths <;> rfl
        rw [hdone, cd_leading hl]
        exact ⟨rfl, norm_append path text⟩
      | false =>
        have hrest : ∃ path ∈ paths, leading path := by
          obtain ⟨p, hp, hlead⟩ := h
          rcases List.mem_cons.mp hp with rfl | hp
          · rw [hl] at hlead
            cases hlead
          · exact ⟨p, hp, hlead⟩
        obtain ⟨h1, h2⟩ := ih hrest (path ++ CHAR_FORWARD_SLASH :: text)
        refine ⟨h1, ?_⟩
        rw [h2, segs_append, List.foldl_append, cd_relative hl]

lemma resolve_text (h : isAbsolute cwd) (args : List JSString) :
    resolve cwd args = CHAR_FORWARD_SLASH :: joined CHAR_FORWARD_SLASH (args.foldl cd (norm false cwd)) := by
  rw [isAbsolute_eq] at h
  have hcwd : ∃ path ∈ args.reverse ++ [cwd], leading path := ⟨cwd, by simp, h⟩
  obtain ⟨habs, hnorm⟩ := resolveLoop_eq hcwd []
  rw [List.reverse_append, List.reverse_reverse, segs_nil, List.foldl_cons, push_nil, List.foldl_nil,
    List.reverse_singleton, List.singleton_append, List.foldl_cons, cd_leading h] at hnorm
  simp only [resolve, habs, if_true, normalizeString_norm, Bool.not_true, hnorm]
  split_ifs with hpos
  · rfl
  · rw [List.length_eq_zero_iff.mp (Nat.eq_zero_of_not_pos hpos)]

/-- From an absolute directory `resolve` gives the directory that its arguments lead to, one after another: a
slash and names of which none is empty, `.` or `..`. -/
theorem resolve_eq_cd (h : isAbsolute cwd) (args : List JSString) :
    resolve cwd args = CHAR_FORWARD_SLASH :: joined CHAR_FORWARD_SLASH (args.foldl cd (norm false cwd)) ∧
      (∀ s ∈ args.foldl cd (norm false cwd), s ≠ [] ∧ s ≠ [CHAR_DOT] ∧ s ≠ dotdot) ∧
      segs (resolve cwd args) = [] :: if args.foldl cd (norm false cwd) = [] then [[]]
        else (args.foldl cd (norm false cwd)).reverse := by
  have hfree := free_cds (free_norm false cwd) args
  have hcan := canonical_cds (canonical_normal (N := meaning) (segs cwd)) args
  change Canonical meaning false (args.foldl cd (norm false cwd)) at hcan
  have hresolve := resolve_text h args
  refine ⟨hresolve, fun s hs => ?_, ?_⟩
  · obtain ⟨hskip, hup⟩ := hcan.plain s hs
    have hskip' : ¬ (s = [] ∨ s = [CHAR_DOT]) := by
      rw [← skip_iff, hskip]
      simp
    exact ⟨fun hs => hskip' (.inl hs), fun hs => hskip' (.inr hs), hup⟩
  · rw [hresolve, segs_cons]
    split_ifs with hnil
    · rw [hnil]
      rfl
    · rw [hfree.segs_joined hnil]

theorem resolve_eq_cd_up :
    resolve (['/', 'a'].map codeUnit) [['.', '.', '/', 'b'].map codeUnit] =
      CHAR_FORWARD_SLASH :: joined CHAR_FORWARD_SLASH
        ([['.', '.', '/', 'b'].map codeUnit].foldl cd (norm false (['/', 'a'].map codeUnit))) :=
  (resolve_eq_cd (by decide) _).1

end

end LowJs.Path
