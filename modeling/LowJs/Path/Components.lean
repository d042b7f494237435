import LowJs.Path.Join

/-!
# The last component of a path

`basename`, `extname` and `parse` go over the path from its end, each by a loop of its own. The loops stop in
front of the last component, and have met its last dot.
-/

namespace LowJs.Path

open JSString

/-- A path with a last component: what is in front of it, and the slashes behind it. -/
structure Split (path front comp : JSString) (n : Nat) : Prop where
  path_eq : path = front ++ (comp ++ List.replicate n CHAR_FORWARD_SLASH)
  comp_ne : comp ≠ []
  comp_free : CHAR_FORWARD_SLASH ∉ comp
  front_eq : front = [] ∨ ∃ f, front = f ++ [CHAR_FORWARD_SLASH]

section
variable {path front comp pre suf ext : JSString} {n k j low : Nat} {s : DotScan}

/-- A path consists of slashes, or it has a last component. -/
lemma exists_split (path : JSString) :
    path = List.replicate path.length CHAR_FORWARD_SLASH ∨ ∃ front comp n, Split path front comp n := by
  have htail : ∀ {p : UInt16 → Bool} {l : JSString} {c : UInt16}, (∀ x, p x → x = c) →
      l.rtakeWhile p = List.replicate (l.rtakeWhile p).length c := fun hp =>
    List.eq_replicate_of_mem fun x hx => hp x (List.mem_rtakeWhile_imp hx)
  have hpath := List.rdropWhile_append_rtakeWhile (p := (· == CHAR_FORWARD_SLASH)) (l := path)
  rw [htail (c := CHAR_FORWARD_SLASH) (by simp)] at hpath
  have hlast := List.rdropWhile_last_not (· == CHAR_FORWARD_SLASH) path
  generalize path.rdropWhile (· == CHAR_FORWARD_SLASH) = body at hpath hlast
  by_cases hnil : body = []
  · left
    rw [hnil, List.nil_append] at hpath
    exact List.eq_replicate_of_mem fun x hx => by
      rw [← hpath] at hx
      exact List.eq_of_mem_replicate hx
  · right
    have hsplit := List.rdropWhile_append_rtakeWhile (p := (· != CHAR_FORWARD_SLASH)) (l := body)
    refine ⟨body.rdropWhile (· != CHAR_FORWARD_SLASH), body.rtakeWhile (· != CHAR_FORWARD_SLASH), _,
      by rw [← List.append_assoc, hsplit, hpath], ?_, ?_, ?_⟩
    · rw [ne_eq, List.rtakeWhile_eq_nil_iff]
      exact fun h => h hnil (by simpa using hlast hnil)
    · intro h
      simpa using List.mem_rtakeWhile_imp h
    · by_cases hfront : body.rdropWhile (· != CHAR_FORWARD_SLASH) = []
      · exact .inl hfront
      · right
        have hlast := List.rdropWhile_last_not _ _ hfront
        have hslash : (body.rdropWhile (· != CHAR_FORWARD_SLASH)).getLast hfront = CHAR_FORWARD_SLASH := by
          simpa using hlast
        have hconcat := List.dropLast_concat_getLast hfront
        rw [hslash] at hconcat
        exact ⟨_, hconcat.symm⟩

/-- The code units behind the component. -/
lemma Split.slash (h : Split path front comp n) {i : Nat} (hi : i < n) :
    path[front.length + comp.length + i]? = some CHAR_FORWARD_SLASH := by
  rw [h.path_eq, ← List.append_assoc, ← List.length_append, List.getElem?_append_right (by omega)]
  simp [hi]

/-- The code units of the component. -/
lemma Split.unit (h : Split path front comp n) {i : Nat} (hi : i < comp.length) :
    path[front.length + i]? = comp[i]? := by
  rw [h.path_eq, List.getElem?_append_right (by omega), Nat.add_sub_cancel_left,
    List.getElem?_append_left hi]

lemma Split.unit_ne (h : Split path front comp n) {i : Nat} (hi : i < comp.length) :
    path[front.length + i]? ≠ some CHAR_FORWARD_SLASH := by
  rw [h.unit hi]
  exact fun hm => h.comp_free (List.mem_of_getElem? hm)

/-- The code unit in front of the component. -/
lemma Split.front_slash (h : Split path front comp n) (hk : front.length = k + 1) :
    path[k]? = some CHAR_FORWARD_SLASH := by
  rcases h.front_eq with rfl | ⟨f, rfl⟩
  · cases hk
  · rw [h.path_eq]
    simp only [List.length_append, List.length_singleton, Nat.add_right_cancel_iff] at hk
    rw [List.append_assoc, List.getElem?_append_right (by omega), hk, Nat.sub_self]
    rfl

lemma Split.length_eq (h : Split path front comp n) :
    path.length = front.length + comp.length + n := by
  rw [h.path_eq]
  simp
  omega

lemma Split.slice (h : Split path front comp n) {i j : Nat} (hj : j ≤ comp.length) :
    path.slice (front.length + i) (front.length + j) = comp.slice i j := by
  rw [h.path_eq, JSString.slice, JSString.slice, List.take_append, List.take_of_length_le (by omega),
    List.drop_append, List.drop_eq_nil_of_le (by omega), List.nil_append, Nat.add_sub_cancel_left,
    Nat.add_sub_cancel_left, List.take_append_of_le_length hj]

lemma Split.slice_comp (h : Split path front comp n) :
    path.slice front.length (front.length + comp.length) = comp := by
  have := h.slice (i := 0) (le_refl comp.length)
  simpa [JSString.slice] using this

/-! ### `basename` -/

lemma baseLoop_slashes (h : ∀ i < j, path[k + i]? = some CHAR_FORWARD_SLASH) :
    baseLoop path (k + j) (-1) true = baseLoop path k (-1) true := by
  induction j with
  | zero => rfl
  | succ j ih =>
    rw [← Nat.add_assoc, baseLoop, if_pos (h j (Nat.lt_succ_self j)), if_neg (by simp)]
    exact ih fun i hi => h i (Nat.lt_succ_of_lt hi)

lemma baseLoop_units {end_ : Int} (hend : end_ ≠ -1) {m : Bool}
    (h : ∀ i < j, path[k + i]? ≠ some CHAR_FORWARD_SLASH) :
    baseLoop path (k + j) end_ m = baseLoop path k end_ m := by
  induction j with
  | zero => rfl
  | succ j ih =>
    rw [← Nat.add_assoc, baseLoop, if_neg (h j (Nat.lt_succ_self j)), if_neg hend]
    exact ih fun i hi => h i (Nat.lt_succ_of_lt hi)

lemma Split.basename_none (h : Split path front comp n) : basename path none = comp := by
  obtain ⟨m, hm⟩ : ∃ m, comp.length = m + 1 :=
    Nat.exists_eq_add_one_of_ne_zero fun h0 => h.comp_ne (List.eq_nil_of_length_eq_zero h0)
  have hloop : baseLoop path path.length (-1) true = ((front.length : Int), (front.length + comp.length : Int)) := by
    rw [h.length_eq, baseLoop_slashes fun i hi => h.slash hi, hm, ← Nat.add_assoc, baseLoop,
      if_neg (h.unit_ne (by omega)), if_pos rfl, baseLoop_units (by omega) fun i hi => h.unit_ne (by omega)]
    cases hk : front.length with
    | zero =>
      rw [baseLoop]
      simp
    | succ k =>
      rw [baseLoop, if_pos (h.front_slash hk)]
      simp
      omega
  rw [basename]
  simp only [Option.filter_none, hloop]
  rw [if_neg (by omega)]
  have := h.slice_comp
  have hto : (front.length + comp.length : Int).toNat = front.length + comp.length := by omega
  rw [hto]
  exact this

lemma basename_slashes (n : Nat) : basename (List.replicate n CHAR_FORWARD_SLASH) none = [] := by
  have hloop : baseLoop (List.replicate n CHAR_FORWARD_SLASH) (0 + n) (-1) true = (0, -1) := by
    rw [baseLoop_slashes fun i hi => by simp [hi]]
    rfl
  rw [Nat.zero_add] at hloop
  rw [basename]
  simp only [Option.filter_none, List.length_replicate, hloop]
  rfl

/-! ### The loop of `extname` and `parse` -/

/-- The turns over the code units from `k + j` down to `k`. -/
def turns (path : JSString) (k : Nat) : Nat → DotScan → DotScan
  | 0, s => s
  | j + 1, s => turns path k j (dotTurn path (k + j) s)

lemma turns_add (i : Nat) (s : DotScan) :
    turns path k (i + j) s = turns path k i (turns path (k + i) j s) := by
  induction j generalizing s with
  | zero => rfl
  | succ j ih => rw [← Nat.add_assoc, turns, ih, turns, Nat.add_assoc]

lemma dotLoop_slashes (hlow : low ≤ k) (hs : s.matchedSlash = true)
    (h : ∀ i < j, path[k + i]? = some CHAR_FORWARD_SLASH) :
    dotLoop path low (k + j) s = dotLoop path low k s := by
  induction j with
  | zero => rfl
  | succ j ih =>
    rw [← Nat.add_assoc, dotLoop, if_neg (by omega), if_pos (h j (Nat.lt_succ_self j)), if_neg (by simp [hs])]
    exact ih fun i hi => h i (Nat.lt_succ_of_lt hi)

lemma dotLoop_units (hlow : low ≤ k) (h : ∀ i < j, path[k + i]? ≠ some CHAR_FORWARD_SLASH) :
    dotLoop path low (k + j) s = dotLoop path low k (turns path k j s) := by
  induction j generalizing s with
  | zero => rfl
  | succ j ih =>
    rw [← Nat.add_assoc, dotLoop, if_neg (by omega), if_neg (h j (Nat.lt_succ_self j)),
      ih fun i hi => h i (Nat.lt_succ_of_lt hi)]
    rfl

/-- The turns keep `startPart`, and the first one finds the end of the component. -/
lemma turns_end (path : JSString) (k j : Nat) (s : DotScan) :
    (turns path k j s).startPart = s.startPart ∧
      (0 < j → s.end_ = -1 → (turns path k j s).end_ = k + j ∧ (turns path k j s).matchedSlash = false) ∧
      (s.end_ ≠ -1 → (turns path k j s).end_ = s.end_ ∧ (turns path k j s).matchedSlash = s.matchedSlash) := by
  induction j generalizing s with
  | zero => exact ⟨rfl, fun h => absurd h (Nat.lt_irrefl 0), fun _ => ⟨rfl, rfl⟩⟩
  | succ j ih =>
    have hturn : (dotTurn path (k + j) s).startPart = s.startPart ∧
        (s.end_ = -1 → (dotTurn path (k + j) s).end_ = k + j + 1 ∧
          (dotTurn path (k + j) s).matchedSlash = false) ∧
        (s.end_ ≠ -1 → (dotTurn path (k + j) s).end_ = s.end_ ∧
          (dotTurn path (k + j) s).matchedSlash = s.matchedSlash) := by
      by_cases he : s.end_ = -1 <;> by_cases hd : path[k + j]? = some CHAR_DOT <;>
        simp only [dotTurn, he, hd, if_true, if_false] <;> split_ifs <;> simp [he]
    obtain ⟨h1, h2, h3⟩ := ih (dotTurn path (k + j) s)
    rw [turns]
    refine ⟨h1.trans hturn.1, fun _ h => ?_, fun h => ?_⟩
    · obtain ⟨he, hm⟩ := hturn.2.1 h
      obtain ⟨he', hm'⟩ := h3 (by omega)
      refine ⟨?_, hm'.trans hm⟩
      rw [he', he]
      push_cast
      ring
    · obtain ⟨he, hm⟩ := hturn.2.2 h
      obtain ⟨he', hm'⟩ := h3 (by omega)
      exact ⟨he'.trans he, hm'.trans hm⟩

/-- Without a dot there is no start of an extension. -/
lemma turns_no_dot (hs : s.startDot = -1) (h : ∀ i < j, path[k + i]? ≠ some CHAR_DOT) :
    (turns path k j s).startDot = -1 ∧ (turns path k j s).preDotState = s.preDotState := by
  induction j generalizing s with
  | zero => exact ⟨hs, rfl⟩
  | succ j ih =>
    have hturn : (dotTurn path (k + j) s).startDot = -1 ∧
        (dotTurn path (k + j) s).preDotState = s.preDotState := by
      have hd := h j (Nat.lt_succ_self j)
      by_cases he : s.end_ = -1 <;> simp [dotTurn, he, hd, hs]
    rw [turns]
    obtain ⟨h1, h2⟩ := ih hturn.1 fun i hi => h i (Nat.lt_succ_of_lt hi)
    exact ⟨h1, h2.trans hturn.2⟩

/-- In front of the dot the first code unit decides. -/
lemma turns_before_dot (path : JSString) (hs : s.startDot ≠ -1) (hend : s.end_ ≠ -1) :
    (turns path k j s).startDot = s.startDot ∧
      (turns path k j s).preDotState =
        if j = 0 then s.preDotState else if path[k]? = some CHAR_DOT then 1 else -1 := by
  induction j generalizing s with
  | zero => exact ⟨rfl, rfl⟩
  | succ j ih =>
    have hturn : (dotTurn path (k + j) s).startDot = s.startDot ∧
        (dotTurn path (k + j) s).end_ = s.end_ ∧
        (dotTurn path (k + j) s).preDotState = if path[k + j]? = some CHAR_DOT then 1 else -1 := by
      by_cases hd : path[k + j]? = some CHAR_DOT <;> by_cases hp : s.preDotState = 1 <;>
        simp [dotTurn, hend, hd, hs, hp]
    obtain ⟨h1, h2⟩ := ih (s := dotTurn path (k + j) s) (by rw [hturn.1]; exact hs)
      (by rw [hturn.2.1]; exact hend)
    rw [turns]
    refine ⟨h1.trans hturn.1, h2.trans ?_⟩
    rw [hturn.2.2]
    cases j with
    | zero => rfl
    | succ j => rfl

/-- The variables in front of the loop. -/
def DotScan.start : DotScan := ⟨-1, 0, -1, true, 0⟩

lemma exists_last_dot (comp : JSString) :
    CHAR_DOT ∉ comp ∨ ∃ pre suf, comp = pre ++ CHAR_DOT :: suf ∧ CHAR_DOT ∉ suf := by
  by_cases h : CHAR_DOT ∈ comp
  · obtain ⟨as, bs, heq, hnot⟩ := List.eq_append_cons_of_mem (List.mem_reverse.mpr h)
    refine .inr ⟨bs.reverse, as.reverse, ?_, by simpa using hnot⟩
    rw [← List.reverse_reverse comp, heq]
    simp
  · exact .inl h

lemma Split.dotLoop_eq (h : Split path front comp n) (hlow : low ≤ front.length) :
    dotLoop path low path.length .start =
      { turns path front.length comp.length .start with
        startPart := if low < front.length then (front.length : Int) else 0 } := by
  have hpos : 0 < comp.length := List.length_pos_iff_ne_nil.mpr h.comp_ne
  obtain ⟨hstart, hend, -⟩ := turns_end path front.length comp.length .start
  obtain ⟨-, hm⟩ := hend hpos rfl
  have hs : ∀ {t : DotScan}, t.startPart = 0 → t = { t with startPart := 0 } := fun ht => by
    rw [← ht]
  rw [h.length_eq, dotLoop_slashes (by omega) rfl fun i hi => h.slash hi,
    dotLoop_units hlow fun i hi => h.unit_ne hi]
  cases hk : front.length with
  | zero =>
    rw [dotLoop, if_neg (by omega)]
    rw [hk] at hstart
    exact hs hstart
  | succ k =>
    rw [hk] at hm hstart
    rw [dotLoop]
    by_cases hlt : low < k + 1
    · rw [if_neg (by omega), if_pos (h.front_slash hk), if_pos (by rw [hm]; rfl), if_pos hlt]
      simp
    · rw [if_pos (by omega), if_neg hlt]
      exact hs hstart

lemma Split.turns_no (h : Split path front comp n) (hd : CHAR_DOT ∉ comp) :
    (turns path front.length comp.length .start).startDot = -1 :=
  (turns_no_dot rfl fun i hi => by
    rw [h.unit hi]
    exact fun hm => hd (List.mem_of_getElem? hm)).1

/-- What the loop finds where the last dot of the component is. -/
lemma Split.turns_dot (h : Split path front (pre ++ CHAR_DOT :: suf) n) (hd : CHAR_DOT ∉ suf) :
    (turns path front.length (pre ++ CHAR_DOT :: suf).length .start).startDot = front.length + pre.length ∧
      (turns path front.length (pre ++ CHAR_DOT :: suf).length .start).preDotState =
        if pre = [] then 0 else if pre.head? = some CHAR_DOT then 1 else -1 := by
  have hlen : (pre ++ CHAR_DOT :: suf).length = pre.length + (1 + suf.length) := by
    simp
    omega
  have hunit : ∀ i < suf.length, path[front.length + pre.length + 1 + i]? ≠ some CHAR_DOT := by
    intro i hi
    rw [Nat.add_assoc, Nat.add_assoc, h.unit (by rw [hlen]; omega), List.getElem?_append_right (by omega)]
    have hidx : pre.length + (1 + i) - pre.length = i + 1 := by omega
    rw [hidx, List.getElem?_cons_succ]
    exact fun hm => hd (List.mem_of_getElem? hm)
  have hdot : path[front.length + pre.length + 0]? = some CHAR_DOT := by
    rw [Nat.add_zero, h.unit (by rw [hlen]; omega), List.getElem?_append_right (le_refl _), Nat.sub_self]
    rfl
  obtain ⟨hs, hp⟩ := turns_no_dot (s := .start) rfl hunit
  set t := turns path (front.length + pre.length + 1) suf.length .start with ht
  have hturn : (dotTurn path (front.length + pre.length + 0) t).startDot = front.length + pre.length ∧
      (dotTurn path (front.length + pre.length + 0) t).preDotState = 0 ∧
      (dotTurn path (front.length + pre.length + 0) t).end_ ≠ -1 := by
    by_cases he : t.end_ = -1
    · simp only [dotTurn, he, if_true, if_pos hdot, hs]
      exact ⟨by simp, hp, by omega⟩
    · simp only [dotTurn, if_neg he, if_pos hdot, hs, if_true]
      exact ⟨by simp, hp, he⟩
  rw [hlen, turns_add, turns_add, ← ht]
  obtain ⟨h1, h2⟩ := turns_before_dot path (k := front.length) (j := pre.length)
    (s := turns path (front.length + pre.length) 1 t) (by rw [turns, turns, hturn.1]; omega) hturn.2.2
  refine ⟨h1.trans hturn.1, h2.trans ?_⟩
  cases pre with
  | nil => exact hturn.2.1
  | cons c pre =>
    rw [if_neg (by simp), if_neg (List.cons_ne_nil _ _)]
    have hfirst := h.unit (i := 0) (by simp)
    rw [Nat.add_zero] at hfirst
    rw [hfirst]
    rfl

lemma Split.end_eq (h : Split path front comp n) :
    (turns path front.length comp.length .start).end_ = front.length + comp.length :=
  ((turns_end path front.length comp.length .start).2.1 (List.length_pos_iff_ne_nil.mpr h.comp_ne) rfl).1

lemma Split.noExtension_no (h : Split path front comp n) (hd : CHAR_DOT ∉ comp) (x : Int) :
    ({ turns path front.length comp.length .start with startPart := x } : DotScan).noExtension = true := by
  simp [DotScan.noExtension, h.turns_no hd]

lemma Split.noExtension_dot (h : Split path front (pre ++ CHAR_DOT :: suf) n) (hd : CHAR_DOT ∉ suf) (x : Int) :
    ({ turns path front.length (pre ++ CHAR_DOT :: suf).length .start with
        startPart := x } : DotScan).noExtension =
      decide (pre = [] ∨ pre.head? = some CHAR_DOT ∧ suf = [] ∧ (front.length + pre.length : Int) = x + 1) := by
  obtain ⟨hs, hp⟩ := h.turns_dot hd
  have he := h.end_eq
  have hlen : ((pre ++ CHAR_DOT :: suf).length : Int) = pre.length + suf.length + 1 := by
    simp
    omega
  have h1 : ((front.length + pre.length : Int) == -1) = false := by
    rw [beq_eq_false_iff_ne]
    omega
  have h2 : ((front.length + (pre ++ CHAR_DOT :: suf).length : Int) == -1) = false := by
    rw [beq_eq_false_iff_ne]
    omega
  have h3 : ((front.length + pre.length : Int) == front.length + (pre ++ CHAR_DOT :: suf).length - 1) =
      decide (suf = []) := by
    rw [Bool.eq_iff_iff, beq_iff_eq, decide_eq_true_eq, ← List.length_eq_zero_iff, hlen]
    omega
  simp only [DotScan.noExtension, hs, hp, he, h1, h2, h3, Bool.false_or]
  by_cases hpre : pre = []
  · simp [hpre]
  · by_cases hhead : pre.head? = some CHAR_DOT
    · by_cases hsuf : suf = [] <;> by_cases hx : (front.length + pre.length : Int) = x + 1 <;>
        simp [hpre, hhead, hsuf, hx]
    · simp [hpre, hhead]

/-! ### `parse` -/

lemma Split.leading_eq (h : Split path front comp n) : leading path = (front.head? == some CHAR_FORWARD_SLASH) := by
  cases front with
  | nil =>
    have hfirst := h.unit_ne (i := 0) (List.length_pos_iff_ne_nil.mpr h.comp_ne)
    simpa [leading] using hfirst
  | cons c front =>
    rw [leading, h.path_eq]
    rfl

/-- The variable `startPart` behind the loop of `parse`. -/
def startPart (path front : JSString) : Int :=
  if (if leading path then 1 else 0) < front.length then (front.length : Int) else 0

lemma Split.low_le (h : Split path front comp n) : (if leading path then 1 else 0) ≤ front.length := by
  rw [h.leading_eq]
  cases front with
  | nil => simp
  | cons c front =>
    split_ifs
    · simp
    · exact Nat.zero_le _

/-- The component begins where `parse` begins it. -/
lemma Split.first_eq (h : Split path front comp n) :
    (if startPart path front = 0 && leading path then 1 else (startPart path front).toNat) = front.length := by
  have habs := h.leading_eq
  cases front with
  | nil => simp [startPart, habs]
  | cons c front =>
    cases ha : leading path with
    | false => simp [startPart, ha]
    | true =>
      cases front with
      | nil => simp [startPart, ha]
      | cons d front =>
        simp [startPart, ha]
        split_ifs <;> omega

lemma Split.dir_eq (h : Split path front comp n) :
    (if startPart path front > 0 then path.slice 0 (startPart path front - 1).toNat
      else if leading path then [CHAR_FORWARD_SLASH] else []) =
      if front = [CHAR_FORWARD_SLASH] then [CHAR_FORWARD_SLASH] else front.dropLast := by
  have habs := h.leading_eq
  have htake : ∀ f, front = f ++ [CHAR_FORWARD_SLASH] → path.take f.length = f := fun f hf => by
    rw [h.path_eq, hf, List.append_assoc, List.take_left']
    rfl
  rcases h.front_eq with hf | ⟨f, hf⟩
  · subst hf
    simp [startPart, habs]
  · cases f with
    | nil =>
      obtain rfl : front = [CHAR_FORWARD_SLASH] := hf
      simp [startPart, habs]
    | cons c f =>
      have hne : front ≠ [CHAR_FORWARD_SLASH] := by
        rw [hf]
        cases f <;> simp
      have hstart : startPart path front = front.length := by
        rw [startPart, if_pos]
        rw [hf]
        split_ifs <;> simp
      have hpos : (front.length : Int) > 0 := by
        rw [hf]
        simp
        omega
      have hto : ((front.length : Int) - 1).toNat = (c :: f).length := by
        rw [hf]
        simp
      rw [if_neg hne, hstart, if_pos hpos, hto, JSString.slice_zero, htake _ hf, hf, List.dropLast_concat]

/-- The parts of a path with a last component, where the extension is found at `m`. -/
def partsOf (path front comp : JSString) (m : Option Nat) : PathObject where
  root := if leading path then [CHAR_FORWARD_SLASH] else []
  dir := if front = [CHAR_FORWARD_SLASH] then [CHAR_FORWARD_SLASH] else front.dropLast
  base := comp
  ext := m.elim [] fun m => comp.drop m
  name := m.elim comp fun m => comp.take m

lemma Split.parse_eq (h : Split path front comp n) {m : Option Nat}
    (hno : ({ turns path front.length comp.length .start with
      startPart := startPart path front } : DotScan).noExtension = m.isNone)
    (hm : ∀ k ∈ m, k ≤ comp.length ∧ (turns path front.length comp.length .start).startDot = front.length + k) :
    parse path = partsOf path front comp m := by
  have hlen : path.length ≠ 0 := by
    rw [h.length_eq]
    have := List.length_pos_iff_ne_nil.mpr h.comp_ne
    omega
  have hend := h.end_eq
  have hto : (front.length + comp.length : Int).toNat = front.length + comp.length := by omega
  have hbase : ∀ ret, parseBase path (leading path)
      { turns path front.length comp.length .start with startPart := startPart path front } ret =
      { ret with base := comp, ext := m.elim ret.ext fun m => comp.drop m
                 name := m.elim comp fun m => comp.take m } := by
    intro ret
    rw [parseBase, hno, h.first_eq]
    cases m with
    | none =>
      simp only [Option.isNone_none, if_true, hend, hto, h.slice_comp]
      rw [if_pos (by omega)]
      rfl
    | some k =>
      obtain ⟨hk, hdot⟩ := hm k rfl
      have htok : (front.length + k : Int).toNat = front.length + k := by omega
      have hname := h.slice (i := 0) hk
      have hext := h.slice (i := k) (le_refl comp.length)
      rw [JSString.slice_length] at hext
      simp only [Option.isNone_some, Bool.false_eq_true, if_false, hend, hdot, hto, htok, h.slice_comp]
      rw [hext]
      rw [Nat.add_zero] at hname
      rw [hname]
      rfl
  have hdir := h.dir_eq
  have hloop : dotLoop path (if leading path then 1 else 0) path.length ⟨-1, 0, -1, true, 0⟩ =
      { turns path front.length comp.length .start with startPart := startPart path front } :=
    h.dotLoop_eq h.low_le
  rw [parse, if_neg hlen]
  simp only [show (path[0]? == some CHAR_FORWARD_SLASH) = leading path from rfl, hloop, hbase]
  rw [partsOf, ← hdir]
  by_cases hs : startPart path front > 0
  · rw [if_pos hs, if_pos hs]
    cases leading path <;> cases m <;> rfl
  · rw [if_neg hs, if_neg hs]
    cases leading path <;> cases m <;> rfl

/-- Where the extension of a component begins. -/
def extensionAt (comp : JSString) : Option Nat :=
  if CHAR_DOT ∈ comp then
    let at_ := comp.length - 1 - comp.reverse.idxOf CHAR_DOT
    if at_ = 0 ∨ comp = [CHAR_DOT, CHAR_DOT] then none else some at_
  else none

lemma extensionAt_dot (hd : CHAR_DOT ∉ suf) :
    extensionAt (pre ++ CHAR_DOT :: suf) =
      if pre = [] ∨ pre = [CHAR_DOT] ∧ suf = [] then none else some pre.length := by
  have hidx : (pre ++ CHAR_DOT :: suf).reverse.idxOf CHAR_DOT = suf.length := by
    have hrev : (pre ++ CHAR_DOT :: suf).reverse = suf.reverse ++ CHAR_DOT :: pre.reverse := by simp
    rw [hrev, List.idxOf_append_of_notMem (by simpa using hd), List.idxOf_cons_self, List.length_reverse,
      Nat.add_zero]
  have hat : (pre ++ CHAR_DOT :: suf).length - 1 - suf.length = pre.length := by simp
  have hdots : pre ++ CHAR_DOT :: suf = [CHAR_DOT, CHAR_DOT] ↔ pre = [] ∧ suf = [CHAR_DOT] ∨
      pre = [CHAR_DOT] ∧ suf = [] := by
    rcases pre with _ | ⟨c, _ | ⟨d, pre⟩⟩ <;> simp
  rw [extensionAt, if_pos (by simp), hidx, hat]
  simp only [List.length_eq_zero_iff, hdots]
  by_cases hpre : pre = [] <;> simp [hpre]

lemma extensionAt_no (hd : CHAR_DOT ∉ comp) : extensionAt comp = none := if_neg hd

/-- The extension that `parse` finds. -/
def parseAt (front comp : JSString) : Option Nat :=
  if front = [CHAR_FORWARD_SLASH] ∧ comp = [CHAR_DOT, CHAR_DOT] then some 1 else extensionAt comp

lemma extensionAt_le {m : Nat} (hm : extensionAt comp = some m) : 0 < m ∧ m < comp.length := by
  rcases exists_last_dot comp with hd | ⟨pre, suf, rfl, hd⟩
  · rw [extensionAt_no hd] at hm
    cases hm
  · rw [extensionAt_dot hd] at hm
    split_ifs at hm with hno
    cases hm
    exact ⟨List.length_pos_iff_ne_nil.mpr fun h => hno (.inl h), by simp⟩

/-- The test for `..`, when the loop found the start of the component. -/
lemma dots_iff (hd : CHAR_DOT ∉ suf) :
    (pre = [] ∨ pre.head? = some CHAR_DOT ∧ suf = [] ∧ pre.length = 1) ↔
      (extensionAt (pre ++ CHAR_DOT :: suf)).isNone := by
  rw [extensionAt_dot hd]
  rcases pre with _ | ⟨c, _ | ⟨d, pre⟩⟩
  · simp
  · by_cases hc : c = CHAR_DOT <;> by_cases hs : suf = [] <;> simp [hc, hs]
  · simp

lemma Split.noExtension_eq (h : Split path front comp n) :
    ({ turns path front.length comp.length .start with
      startPart := front.length } : DotScan).noExtension = (extensionAt comp).isNone := by
  rcases exists_last_dot comp with hd | ⟨pre, suf, rfl, hd⟩
  · rw [h.noExtension_no hd, extensionAt_no hd]
    rfl
  · rw [h.noExtension_dot hd, Bool.eq_iff_iff, decide_eq_true_eq, ← dots_iff hd]
    have hlen : (front.length + pre.length : Int) = front.length + 1 ↔ pre.length = 1 := by omega
    rw [hlen]

lemma Split.startDot_eq (h : Split path front comp n) {m : Nat} (hm : extensionAt comp = some m) :
    (turns path front.length comp.length .start).startDot = front.length + m := by
  rcases exists_last_dot comp with hd | ⟨pre, suf, rfl, hd⟩
  · rw [extensionAt_no hd] at hm
    cases hm
  · rw [extensionAt_dot hd] at hm
    split_ifs at hm
    cases hm
    exact (h.turns_dot hd).1

lemma Split.extname_eq (h : Split path front comp n) :
    extname path = (extensionAt comp).elim [] fun m => comp.drop m := by
  have hpart : (if 0 < front.length then (front.length : Int) else 0) = front.length := by
    split_ifs <;> omega
  have hloop : dotLoop path 0 path.length ⟨-1, 0, -1, true, 0⟩ =
      { turns path front.length comp.length .start with startPart := front.length } := by
    rw [← hpart]
    exact h.dotLoop_eq (Nat.zero_le _)
  have hto : (front.length + comp.length : Int).toNat = front.length + comp.length := by omega
  rw [extname, hloop, h.noExtension_eq]
  cases hm : extensionAt comp with
  | none => rfl
  | some m =>
    have htom : (front.length + m : Int).toNat = front.length + m := by omega
    have hext := h.slice (i := m) (le_refl comp.length)
    rw [JSString.slice_length] at hext
    simp only [Option.isNone_some, Bool.false_eq_true, if_false, h.startDot_eq hm, h.end_eq, hto, htom]
    exact hext

lemma Split.parse_at (h : Split path front comp n) :
    parse path = partsOf path front comp (parseAt front comp) := by
  by_cases hroot : front = [CHAR_FORWARD_SLASH]
  · have hstart : startPart path front = 0 := by
      have habs := h.leading_eq
      subst hroot
      simp [startPart, habs]
    have hfront : (front.length : Int) = 1 := by simp [hroot]
    by_cases hdots : comp = [CHAR_DOT, CHAR_DOT]
    · -- The loop did not set `startPart`, so the test for `..` fails.
      rw [parseAt, if_pos ⟨hroot, hdots⟩]
      obtain rfl : comp = [CHAR_DOT] ++ CHAR_DOT :: [] := hdots
      refine h.parse_eq ?_ fun k hk => ?_
      · rw [h.noExtension_dot List.not_mem_nil, hstart, hfront]
        rfl
      · cases hk
        exact ⟨by simp, (h.turns_dot List.not_mem_nil).1⟩
    · rw [parseAt, if_neg fun hand => hdots hand.2]
      refine h.parse_eq ?_ fun k hk => ⟨(extensionAt_le hk).2.le, h.startDot_eq hk⟩
      rcases exists_last_dot comp with hd | ⟨pre, suf, rfl, hd⟩
      · rw [h.noExtension_no hd, extensionAt_no hd]
        rfl
      · rw [h.noExtension_dot hd, extensionAt_dot hd, hstart, hfront, Bool.eq_iff_iff, decide_eq_true_eq]
        have hne : ¬(pre = [CHAR_DOT] ∧ suf = []) := fun hand => hdots (by simp [hand])
        rcases pre with _ | ⟨c, pre⟩
        · simp
        · have hlen : ¬(1 + ((c :: pre).length : Int) = 0 + 1) := by
            simp
            omega
          simp only [reduceCtorEq, false_or, hlen, and_false]
          simpa using hne
  · have hstart : startPart path front = front.length := by
      rw [startPart]
      rcases h.front_eq with hf | ⟨f, hf⟩
      · simp [hf]
      · rw [if_pos]
        cases f with
        | nil => exact absurd hf hroot
        | cons c f =>
          rw [hf]
          split_ifs <;> simp
    rw [parseAt, if_neg fun hand => hroot hand.1]
    refine h.parse_eq ?_ fun k hk => ⟨(extensionAt_le hk).2.le, h.startDot_eq hk⟩
    rw [hstart]
    exact h.noExtension_eq

end

end LowJs.Path
