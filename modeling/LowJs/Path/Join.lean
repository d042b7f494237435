import LowJs.Path.Normalize

/-!
# `normalize` and `join`

A normalised path keeps what it needs to stand in a longer path for the path it comes from.
-/

namespace LowJs.Path

open JSString Segments

/-- The segments of a path. -/
def segs (path : JSString) : List JSString := path.splitOnP isPosixPathSeparator

/-- The segments that are left. -/
def norm (above : Bool) (path : JSString) : List JSString := normal meaning above (segs path)

/-- The path begins with a slash. -/
def leading (path : JSString) : Bool := path[0]? == some CHAR_FORWARD_SLASH

/-- The path ends with a slash. -/
def trailing (path : JSString) : Bool := path.getLast? == some CHAR_FORWARD_SLASH

/-- The path that `normalize` makes of what is left. -/
def render (leads trails : Bool) (stack : List JSString) : JSString :=
  (if leads then [CHAR_FORWARD_SLASH] else []) ++
    ((if stack = [] ∧ leads = false then [CHAR_DOT] else joined CHAR_FORWARD_SLASH stack) ++
      if trails ∧ ¬ (stack = [] ∧ leads) then [CHAR_FORWARD_SLASH] else [])

/-- Segments that are not empty and have no slash. -/
def Free (stack : List JSString) : Prop := ∀ t ∈ stack, t ≠ [] ∧ CHAR_FORWARD_SLASH ∉ t

section
variable {path x y t : JSString} {stack : List JSString} {above leads trails : Bool}

lemma isPosix_eq_false {c : UInt16} : isPosixPathSeparator c = false ↔ c ≠ CHAR_FORWARD_SLASH := by
  simp [isPosixPathSeparator]

lemma posix_free {s : JSString} (h : CHAR_FORWARD_SLASH ∉ s) : ∀ c ∈ s, isPosixPathSeparator c = false :=
  fun _ hc => isPosix_eq_false.mpr fun heq => h (heq ▸ hc)

lemma segs_nil : segs [] = [[]] := rfl

lemma segs_append (x y : JSString) : segs (x ++ CHAR_FORWARD_SLASH :: y) = segs x ++ segs y :=
  List.splitOnP_append_cons x y (by decide)

lemma segs_cons (y : JSString) : segs (CHAR_FORWARD_SLASH :: y) = [] :: segs y := segs_append [] y

lemma segs_free (h : CHAR_FORWARD_SLASH ∉ t) : segs t = [t] :=
  List.splitOnP_eq_singleton (posix_free h)

lemma Free.segs_joined (h : Free stack) (hne : stack ≠ []) :
    segs (joined CHAR_FORWARD_SLASH stack) = stack.reverse := by
  induction stack with
  | nil => exact absurd rfl hne
  | cons s stack ih =>
    have hs := (h s List.mem_cons_self).2
    by_cases hstack : stack = []
    · subst hstack
      exact segs_free hs
    · rw [joined_cons s hstack, segs_append, ih (fun t ht => h t (List.mem_cons_of_mem _ ht)) hstack,
        segs_free hs, List.reverse_cons]

lemma slash_notMem_segs (path : JSString) : ∀ s ∈ segs path, CHAR_FORWARD_SLASH ∉ s := by
  induction path with
  | nil => simp [segs_nil]
  | cons c path ih =>
    by_cases hc : c = CHAR_FORWARD_SLASH
    · subst hc
      rw [segs_cons]
      simpa using ih
    · obtain ⟨s, l, hl⟩ := List.exists_cons_of_ne_nil (List.splitOnP_ne_nil isPosixPathSeparator path)
      rw [segs, List.splitOnP_cons_eq_if_modifyHead, if_neg (by simp [isPosixPathSeparator, hc]), hl,
        List.modifyHead_cons]
      rw [segs, hl] at ih
      intro t ht
      rcases List.mem_cons.mp ht with rfl | ht
      · simpa [Ne.symm hc] using ih s List.mem_cons_self
      · exact ih t (List.mem_cons_of_mem _ ht)

lemma Free.push (h : Free stack) {s : JSString} (hs : CHAR_FORWARD_SLASH ∉ s) :
    Free (push meaning above stack s) := by
  have hfree := push_free above posix_separators
    (fun t ht => ⟨(h t ht).1, posix_free (h t ht).2⟩) (posix_free hs)
  exact fun t ht => ⟨(hfree t ht).1, fun hm => absurd ((hfree t ht).2 _ hm) (by decide)⟩

lemma Free.foldl (h : Free stack) {l : List JSString} (hl : ∀ s ∈ l, CHAR_FORWARD_SLASH ∉ s) :
    Free (l.foldl (Segments.push meaning above) stack) := by
  induction l generalizing stack with
  | nil => exact h
  | cons s l ih =>
    exact ih (h.push (hl s List.mem_cons_self)) fun t ht => hl t (List.mem_cons_of_mem _ ht)

lemma free_norm (above : Bool) (path : JSString) : Free (norm above path) :=
  Free.foldl (fun _ ht => by cases ht) (slash_notMem_segs path)

lemma norm_append (x y : JSString) :
    norm above (x ++ CHAR_FORWARD_SLASH :: y) = (segs y).foldl (push meaning above) (norm above x) := by
  rw [norm, segs_append, normal_append]
  rfl

lemma push_nil (stack : List JSString) : push meaning above stack [] = stack := push_skip (by decide)

/-- A slash in front adds nothing. -/
lemma norm_cons (y : JSString) : norm above (CHAR_FORWARD_SLASH :: y) = norm above y := by
  rw [norm, segs_cons, normal, List.foldl_cons, push_nil]
  rfl

lemma norm_concat (x : JSString) : norm above (x ++ [CHAR_FORWARD_SLASH]) = norm above x := by
  rw [norm_append, segs_nil, List.foldl_cons, push_nil, List.foldl_nil]

/-- What is left of the text of a stack is the stack. -/
lemma norm_joined (h : Canonical meaning above stack) (hfree : Free stack) :
    norm above (joined CHAR_FORWARD_SLASH stack) = stack := by
  by_cases hstack : stack = []
  · subst hstack
    rfl
  · rw [norm, hfree.segs_joined hstack, h.normal_reverse]

lemma normalizeString_norm (path : JSString) (above : Bool) :
    normalizeString path above CHAR_FORWARD_SLASH isPosixPathSeparator =
      joined CHAR_FORWARD_SLASH (norm above path) :=
  normalizeString_text posix_separators path above

lemma joined_norm_eq_nil : joined CHAR_FORWARD_SLASH (norm above path) = [] ↔ norm above path = [] :=
  joined_eq_nil fun s hs => (free_norm above path s hs).1

lemma normalize_eq (h : path ≠ []) :
    normalize path = render (leading path) (trailing path) (norm (!leading path) path) := by
  have hlen : path.length ≠ 0 := by simpa using h
  have hlast : (path[path.length - 1]? == some CHAR_FORWARD_SLASH) = trailing path := by
    rw [trailing, List.getLast?_eq_getElem?]
  have hlead : (path[0]? == some CHAR_FORWARD_SLASH) = leading path := rfl
  have hnil : joined CHAR_FORWARD_SLASH (norm (!leading path) path) = [] ↔
    norm (!leading path) path = [] := joined_norm_eq_nil
  rw [normalize, if_neg hlen]
  simp only [hlead, hlast, normalizeString_norm]
  unfold render
  generalize norm (!leading path) path = stack at hnil
  by_cases hstack : stack = []
  · subst hstack
    cases leading path <;> cases trailing path <;> rfl
  · have hjoined : joined CHAR_FORWARD_SLASH stack ≠ [] := hnil.not.mpr hstack
    have hpos : (joined CHAR_FORWARD_SLASH stack).length > 0 := List.length_pos_iff_ne_nil.mpr hjoined
    cases leading path <;> cases trailing path <;> simp [hstack, hjoined, hpos]

/-- A path that says the same of itself as another one. -/
structure Alike (path x : JSString) : Prop where
  ne_nil : x ≠ []
  leading_eq : leading x = leading path
  norm_eq : norm (!leading path) x = norm (!leading path) path
  trailing_eq : trailing x = trailing path ∨ leading path ∧ norm (!leading path) path = []

lemma leading_append (h : x ≠ []) (y : JSString) : leading (x ++ y) = leading x := by
  obtain ⟨c, x, rfl⟩ := List.exists_cons_of_ne_nil h
  rfl

lemma trailing_append (x : JSString) (h : y ≠ []) : trailing (x ++ y) = trailing y := by
  rw [trailing, trailing, List.getLast?_append_of_ne_nil x h]

lemma leading_free (h : CHAR_FORWARD_SLASH ∉ t) : leading t = false := by
  cases t with
  | nil => rfl
  | cons c t =>
    have hc : c ≠ CHAR_FORWARD_SLASH := fun heq => h (heq ▸ List.mem_cons_self)
    simpa [leading] using hc

lemma trailing_free (h : CHAR_FORWARD_SLASH ∉ t) : trailing t = false := by
  rw [trailing, beq_eq_false_iff_ne]
  exact fun hm => h (List.mem_of_getLast? hm)

lemma Free.leading_joined (h : Free stack) : leading (joined CHAR_FORWARD_SLASH stack) = false := by
  induction stack with
  | nil => rfl
  | cons s stack ih =>
    have hs := h s List.mem_cons_self
    have hrest : Free stack := fun t ht => h t (List.mem_cons_of_mem _ ht)
    by_cases hstack : stack = []
    · subst hstack
      exact leading_free hs.2
    · rw [joined_cons s hstack, leading_append, ih hrest]
      rw [ne_eq, joined_eq_nil fun t ht => (hrest t ht).1]
      exact hstack

lemma Free.trailing_joined (h : Free stack) : trailing (joined CHAR_FORWARD_SLASH stack) = false := by
  cases stack with
  | nil => rfl
  | cons s stack =>
    have hs := h s List.mem_cons_self
    obtain ⟨front, hfront⟩ := joined_suffix CHAR_FORWARD_SLASH s stack
    rw [hfront, trailing_append front hs.1]
    exact trailing_free hs.2

lemma Free.joined_ne_nil (h : Free stack) (hne : stack ≠ []) : joined CHAR_FORWARD_SLASH stack ≠ [] := by
  rwa [ne_eq, joined_eq_nil fun t ht => (h t ht).1]

lemma render_trails (stack : List JSString) {trails' : Bool} (h : leads) (hstack : stack = []) :
    render leads trails stack = render leads trails' stack := by
  subst h hstack
  cases trails <;> cases trails' <;> rfl

lemma norm_dot (above : Bool) : norm above [CHAR_DOT] = [] := by
  cases above <;> decide

/-- The text between the slashes of `render`. -/
lemma render_eq (leads trails : Bool) (stack : List JSString) : ∃ x,
    render leads trails stack =
      (if leads then [CHAR_FORWARD_SLASH] else []) ++ (x ++
        if trails ∧ ¬ (stack = [] ∧ leads) then [CHAR_FORWARD_SLASH] else []) ∧
      x = if stack = [] ∧ leads = false then [CHAR_DOT] else joined CHAR_FORWARD_SLASH stack :=
  ⟨_, rfl, rfl⟩

lemma render_alike (h : Canonical meaning (!leads) stack) (hfree : Free stack) :
    render leads trails stack ≠ [] ∧ leading (render leads trails stack) = leads ∧
      norm (!leads) (render leads trails stack) = stack ∧
      (trailing (render leads trails stack) = trails ∨ leads ∧ stack = []) := by
  obtain ⟨x, hr, hx⟩ := render_eq leads trails stack
  have hnorm : norm (!leads) x = stack := by
    rw [hx]
    split_ifs with hdot
    · rw [norm_dot, hdot.1]
    · exact norm_joined h hfree
  have hlead : leading x = false := by
    rw [hx]
    split_ifs
    · decide
    · exact hfree.leading_joined
  have htrail : trailing x = false := by
    rw [hx]
    split_ifs
    · decide
    · exact hfree.trailing_joined
  have hne : leads = false → x ≠ [] := by
    intro hl
    rw [hx]
    split_ifs with hdot
    · simp
    · exact hfree.joined_ne_nil fun hstack => hdot ⟨hstack, hl⟩
  have hend : stack ≠ [] → x ≠ [] := by
    intro hstack
    rw [hx, if_neg fun hdot => hstack hdot.1]
    exact hfree.joined_ne_nil hstack
  have htail : ∀ y, norm (!leads) (y ++ if trails ∧ ¬ (stack = [] ∧ leads) then [CHAR_FORWARD_SLASH] else []) =
      norm (!leads) y := by
    intro y
    split_ifs
    · exact norm_concat y
    · rw [List.append_nil]
  have hlast : x ≠ [] → ∀ y, ¬ (leads ∧ stack = []) → trailing (y ++ (x ++
      if trails ∧ ¬ (stack = [] ∧ leads) then [CHAR_FORWARD_SLASH] else [])) = trails := by
    intro hx y hnot
    rw [trailing_append y (by simp [hx])]
    cases trails with
    | true =>
      rw [if_pos ⟨rfl, fun hstack => hnot hstack.symm⟩, trailing_append x (by simp)]
      decide
    | false => simpa using htrail
  rw [hr]
  cases leads with
  | true =>
    refine ⟨by simp, by simp [leading], ?_, ?_⟩
    · rw [if_pos rfl, List.singleton_append, norm_cons, htail, hnorm]
    · by_cases hstack : stack = []
      · exact .inr ⟨rfl, hstack⟩
      · exact .inl (hlast (hend hstack) _ (by simp [hstack]))
  | false =>
    have hx' := hne rfl
    refine ⟨by simp [hx'], ?_, ?_, .inl (hlast hx' _ (by simp))⟩
    · simp only [Bool.false_eq_true, if_false, List.nil_append]
      rw [leading_append hx', hlead]
    · simp only [Bool.false_eq_true, if_false, List.nil_append]
      simpa using (htail x).trans hnorm

/-- `normalize` keeps what a path says of itself. -/
lemma alike_normalize (h : path ≠ []) : Alike path (normalize path) := by
  obtain ⟨hne, hlead, hnorm, htrail⟩ := @render_alike _ (leading path) (trailing path)
    (canonical_normal (segs path)) (free_norm _ path)
  rw [normalize_eq h]
  exact ⟨hne, hlead, hnorm, htrail⟩

/-- Paths that are alike are normalised alike, also in front of more. -/
lemma Alike.normalize_append (h : Alike path x) (hpath : path ≠ [])
    (ht : t = [] ∨ ∃ y ≠ [], t = CHAR_FORWARD_SLASH :: y) :
    normalize (x ++ t) = normalize (path ++ t) := by
  have hlead : leading (x ++ t) = leading (path ++ t) := by
    rw [leading_append h.ne_nil, leading_append hpath, h.leading_eq]
  rw [normalize_eq (by simp [h.ne_nil]), normalize_eq (by simp [hpath]), hlead,
    leading_append hpath]
  rcases ht with rfl | ⟨y, hy, rfl⟩
  · rw [List.append_nil, List.append_nil, h.norm_eq]
    rcases h.trailing_eq with htrail | ⟨hl, hnil⟩
    · rw [htrail]
    · exact render_trails _ hl hnil
  · rw [norm_append, norm_append, h.norm_eq, trailing_append x (by simp), trailing_append path (by simp)]

/-! ### `join` -/

/-- What `join` adds for the further arguments. -/
def tails (args : List JSString) : JSString :=
  args.flatMap fun arg => if arg = [] then [] else CHAR_FORWARD_SLASH :: arg

lemma joinLoop_some (args : List JSString) (j : JSString) :
    joinLoop args (some j) = some (j ++ tails args) := by
  induction args generalizing j with
  | nil => simp [joinLoop, tails]
  | cons arg args ih =>
    cases arg with
    | nil => simp [joinLoop, tails, ih]
    | cons c arg => simp [joinLoop, tails, ih]

lemma tails_eq (args : List JSString) : tails args = [] ∨ ∃ y ≠ [], tails args = CHAR_FORWARD_SLASH :: y := by
  induction args with
  | nil => exact .inl rfl
  | cons arg args ih =>
    cases arg with
    | nil => simpa [tails] using ih
    | cons c arg => exact .inr ⟨c :: arg ++ tails args, by simp, by simp [tails]⟩

lemma joinLoop_append (as bs : List JSString) (j : Option JSString) :
    joinLoop (as ++ bs) j = joinLoop bs (joinLoop as j) := by
  induction as generalizing j with
  | nil => rfl
  | cons a as ih =>
    rw [List.cons_append, joinLoop, joinLoop, ih, ih]
    split_ifs <;> rfl

/-- An argument that is not empty begins the path. -/
lemma joinLoop_none {as : List JSString} (h : ∃ a ∈ as, a ≠ []) : ∃ x ≠ [], joinLoop as none = some x := by
  induction as with
  | nil => simp at h
  | cons a as ih =>
    cases a with
    | nil =>
      rw [joinLoop, if_neg (by simp)]
      exact ih (by simpa using h)
    | cons c a =>
      rw [joinLoop, if_pos (by simp), joinLoop_some]
      exact ⟨_, by simp, rfl⟩

/-- What is joined can be joined again: the arguments in front can be joined first, if one of them is not
empty. -/
theorem join_join {as : List JSString} (h : ∃ a ∈ as, a ≠ []) (bs : List JSString) :
    join (join as :: bs) = join (as ++ bs) := by
  obtain ⟨x, hx, hjoin⟩ := joinLoop_none h
  have has : as.length ≠ 0 := by
    obtain ⟨a, ha, -⟩ := h
    exact List.length_pos_of_mem ha |>.ne'
  have hfirst : join as = normalize x := by
    rw [join, if_neg has, hjoin]
  have hlike := alike_normalize hx
  have hpos : (normalize x).length > 0 := List.length_pos_iff_ne_nil.mpr hlike.ne_nil
  have hleft : joinLoop (normalize x :: bs) none = some (normalize x ++ tails bs) := by
    rw [joinLoop, if_pos hpos, joinLoop_some]
    rfl
  rw [hfirst, join, if_neg (by simp), hleft, join,
    if_neg (by rw [List.length_append]; omega), joinLoop_append, hjoin,
    joinLoop_some]
  exact hlike.normalize_append hx (tails_eq bs)

theorem join_join_up :
    join (join [['a'].map codeUnit, ['.', '.', '/'].map codeUnit] :: [['b'].map codeUnit]) =
      join ([['a'].map codeUnit, ['.', '.', '/'].map codeUnit] ++ [['b'].map codeUnit]) :=
  join_join ⟨['a'].map codeUnit, by decide, by decide⟩ _

end

end LowJs.Path
