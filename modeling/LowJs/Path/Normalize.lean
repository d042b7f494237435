import LowJs.Path.Path
import LowJs.Core.Segments

/-!
# `normalizeString`

The loop goes over the code units once and cuts segments off the end of its result. What it gives is what is
left of the segments of the path when they are read as names, one of which goes up.
-/

namespace LowJs.Path

open JSString Segments

/-- `..`. -/
def dotdot : JSString := [CHAR_DOT, CHAR_DOT]

/-- An empty segment and `.` are skipped, `..` goes up. -/
def meaning : Meaning JSString where
  skip s := s == [] || s == [CHAR_DOT]
  up := dotdot
  skip_up := by decide

/-- The text of a stack of segments. -/
def joined (separator : UInt16) : List JSString → JSString
  | [] => []
  | [s] => s
  | s :: t :: stack => joined separator (t :: stack) ++ separator :: s

/-- The variable `dots` for what there is of a segment. -/
def dotsOf (seg : JSString) : Int := if seg.all (· == CHAR_DOT) then seg.length else -1

/-- The variable `lastSegmentLength`. -/
def lastLength (stack : List JSString) : Int := (stack.head?.map List.length).getD 0

section
variable {separator c : UInt16} {seg s t : JSString} {stack : List JSString}

lemma joined_cons (s : JSString) (h : stack ≠ []) :
    joined separator (s :: stack) = joined separator stack ++ separator :: s := by
  cases stack with
  | nil => exact absurd rfl h
  | cons t stack => rfl

lemma joined_eq_nil (h : ∀ s ∈ stack, s ≠ []) : joined separator stack = [] ↔ stack = [] := by
  cases stack with
  | nil => simp [joined]
  | cons s stack =>
    have hs := h s List.mem_cons_self
    cases stack with
    | nil => simp [joined, hs]
    | cons t stack => simp [joined]

lemma dotsOf_concat (seg : JSString) (c : UInt16) :
    dotsOf (seg ++ [c]) = if c == CHAR_DOT && dotsOf seg != -1 then dotsOf seg + 1 else -1 := by
  unfold dotsOf
  cases hc : c == CHAR_DOT <;> cases hs : seg.all (· == CHAR_DOT) <;> simp [hc, hs]

lemma dotsOf_eq_one : dotsOf seg = 1 ↔ seg = [CHAR_DOT] := by
  unfold dotsOf
  constructor
  · intro h
    split_ifs at h with hall
    obtain ⟨c, rfl⟩ := List.length_eq_one_iff.mp (by omega : seg.length = 1)
    simpa using hall
  · rintro rfl
    rfl

lemma dotsOf_eq_two : dotsOf seg = 2 ↔ seg = dotdot := by
  unfold dotsOf
  constructor
  · intro h
    split_ifs at h with hall
    obtain ⟨c, d, rfl⟩ := List.length_eq_two.mp (by omega : seg.length = 2)
    simpa [dotdot] using hall
  · rintro rfl
    rfl

end

/-- What is assumed of the separators: the one that is written is one, `/` is one, `.` is none. -/
structure Separators (separator : UInt16) (isPathSeparator : UInt16 → Bool) : Prop where
  separator : isPathSeparator separator
  slash : isPathSeparator CHAR_FORWARD_SLASH
  dot : isPathSeparator CHAR_DOT = false

/-- The state of the loop in front of the code unit `i`: the stack has been written, `seg` is there of the next
segment. -/
structure At (path : JSString) (separator : UInt16) (isSep : UInt16 → Bool) (i : Nat) (s : Scan)
    (seg : JSString) (stack : List JSString) : Prop where
  lastSlash : s.lastSlash + 1 + seg.length = i
  lastSlash_ge : -1 ≤ s.lastSlash
  slice : path.slice (s.lastSlash + 1).toNat i = seg
  dots : s.dots = dotsOf seg
  res : s.res = joined separator stack
  lastSegmentLength : s.lastSegmentLength = lastLength stack
  stack_free : ∀ t ∈ stack, t ≠ [] ∧ ∀ c ∈ t, isSep c = false
  seg_free : ∀ c ∈ seg, isSep c = false
  code : s.code.any isSep = decide (seg = [] ∧ 0 < i)

section
variable {path : JSString} {above : Bool} {separator c : UInt16} {isSep : UInt16 → Bool} {i : Nat} {s : Scan}
  {seg t : JSString} {stack rest : List JSString}

lemma joined_suffix (separator : UInt16) (t : JSString) (rest : List JSString) :
    ∃ front, joined separator (t :: rest) = front ++ t := by
  cases rest with
  | nil => exact ⟨[], rfl⟩
  | cons u rest => exact ⟨joined separator (u :: rest) ++ [separator], by simp [joined]⟩

/-- The last two code units are those of the last segment. -/
lemma dotdot_of_last {front : JSString} (hlen : t.length = 2)
    (h1 : (front ++ t)[(front ++ t).length - 1]? = some CHAR_DOT)
    (h2 : (front ++ t)[(front ++ t).length - 2]? = some CHAR_DOT) : t = dotdot := by
  obtain ⟨a, b, rfl⟩ := List.length_eq_two.mp hlen
  rw [List.getElem?_append_right (by simp)] at h1
  rw [List.getElem?_append_right (by simp)] at h2
  simp at h1 h2
  simp [dotdot, h1, h2]

/-- A segment is taken back. -/
lemma goUp_cons (hsep : Separators separator isSep) (h : s.res = joined separator (t :: rest))
    (hlast : s.lastSegmentLength = t.length)
    (hstack : ∀ u ∈ t :: rest, u ≠ [] ∧ ∀ c ∈ u, isSep c = false) (ht : t ≠ dotdot) :
    goUp separator s = some { s with
      res := joined separator rest
      lastSegmentLength := lastLength rest } := by
  have hfree : ∀ u ∈ t :: rest, separator ∉ u := fun u hu hm => by
    have := (hstack u hu).2 separator hm
    rw [hsep.separator] at this
    cases this
  have hne : ∀ u ∈ t :: rest, u.length ≠ 0 := fun u hu => by
    simpa using (hstack u hu).1
  have hcond : (s.res.length < 2 || s.lastSegmentLength != 2 ||
      s.res[s.res.length - 1]? != some CHAR_DOT || s.res[s.res.length - 2]? != some CHAR_DOT) = true := by
    by_contra hc
    simp only [Bool.or_eq_true, decide_eq_true_eq, bne_iff_ne, not_or, ne_eq, not_not] at hc
    obtain ⟨⟨⟨-, h2⟩, ha⟩, hb⟩ := hc
    obtain ⟨front, hfront⟩ := joined_suffix separator t rest
    rw [h, hfront] at ha hb
    exact ht (dotdot_of_last (by omega) ha hb)
  have htlen := hne t List.mem_cons_self
  rw [goUp, if_pos hcond]
  cases rest with
  | nil =>
    have hres : s.res = t := h
    have hidx := lastIndexOf_eq_neg_one (hfree t List.mem_cons_self)
    rw [hres]
    by_cases hlong : t.length > 2
    · rw [if_pos hlong, hidx]
      dsimp only
      rw [if_pos (by simp; omega)]
      rfl
    · rw [if_neg hlong, if_pos (by simp; omega)]
      rfl
  | cons u rest =>
    have hres : s.res = joined separator (u :: rest) ++ separator :: t := h
    have hulen := hne u (by simp)
    obtain ⟨front, hfront⟩ := joined_suffix separator u rest
    have hidx : s.res.lastIndexOf separator = (joined separator (u :: rest)).length := by
      rw [hres]
      exact lastIndexOf_append_cons (hfree t List.mem_cons_self)
    have hlen : s.res.length = (joined separator (u :: rest)).length + 1 + t.length := by
      rw [hres]
      simp
      omega
    have hfl : (joined separator (u :: rest)).length = front.length + u.length := by
      rw [hfront, List.length_append]
    rw [if_pos (by omega), hidx]
    dsimp only
    rw [if_pos (by simp; omega), if_neg (by simp)]
    have htake : s.res.slice 0 (((joined separator (u :: rest)).length : Nat) : Int).toNat =
        joined separator (u :: rest) := by
      rw [slice_zero, hres]
      simp
    rw [htake]
    congr 2
    cases rest with
    | nil =>
      change (u.length : Int) - 1 - lastIndexOf u separator = _
      rw [lastIndexOf_eq_neg_one (hfree u (by simp))]
      simp [lastLength]
    | cons v rest =>
      rw [joined, lastIndexOf_append_cons (hfree u (by simp))]
      simp [lastLength]
      omega

lemma goUp_dotdot (h : s.res = joined separator (dotdot :: rest))
    (hlast : s.lastSegmentLength = 2) : goUp separator s = none := by
  obtain ⟨front, hfront⟩ := joined_suffix separator dotdot rest
  rw [goUp, if_neg]
  rw [h, hfront, hlast]
  simp [dotdot]

lemma goUp_nil (h : s.res = []) : goUp separator s = none := by
  simp [goUp, h]

lemma skip_iff : meaning.skip seg ↔ seg = [] ∨ seg = [CHAR_DOT] := by
  simp [meaning]

/-- The names on the stack stay segments. -/
lemma push_free (above : Bool) (hsep : Separators separator isSep) (hstack : ∀ t ∈ stack, t ≠ [] ∧ ∀ c ∈ t, isSep c = false)
    (hseg : ∀ c ∈ seg, isSep c = false) :
    ∀ t ∈ push meaning above stack seg, t ≠ [] ∧ ∀ c ∈ t, isSep c = false := by
  have hdots : dotdot ≠ [] ∧ ∀ c ∈ dotdot, isSep c = false := by
    simp [dotdot, hsep.dot]
  intro t ht
  by_cases hskip : meaning.skip seg
  · rw [push_skip hskip] at ht
    exact hstack t ht
  · by_cases hup : seg = dotdot
    · unfold push at ht
      rw [if_neg hskip, if_pos (show seg = meaning.up from hup), hup] at ht
      cases stack with
      | nil =>
        dsimp only at ht
        split_ifs at ht
        · obtain rfl := List.mem_singleton.mp ht
          exact hdots
        · cases ht
      | cons u rest =>
        dsimp only at ht
        split_ifs at ht
        · rcases List.mem_cons.mp ht with rfl | ht
          · exact hdots
          · exact hstack t ht
        · exact hstack t ht
        · exact hstack t (List.mem_cons_of_mem _ ht)
    · rw [push_plain ⟨by simpa using hskip, hup⟩] at ht
      rcases List.mem_cons.mp ht with rfl | ht
      · rw [skip_iff, not_or] at hskip
        exact ⟨hskip.1, hseg⟩
      · exact hstack t ht

/-- What a separator does to the stack. -/
lemma atSeparator_spec (above : Bool) (hsep : Separators separator isSep) (h : At path separator isSep i s seg stack)
    (code : Option UInt16) :
    (atSeparator path above separator { s with code } i).res =
        joined separator (push meaning above stack seg) ∧
      (atSeparator path above separator { s with code } i).lastSegmentLength =
        lastLength (push meaning above stack seg) ∧
      (atSeparator path above separator { s with code } i).code = code := by
  have hlen := h.lastSlash
  have hempty : (s.lastSlash == (i : Int) - 1) = decide (seg = []) := by
    rw [Bool.eq_iff_iff]
    simp only [beq_iff_eq, decide_eq_true_eq, ← List.length_eq_zero_iff]
    omega
  have hone : (s.dots == 1) = decide (seg = [CHAR_DOT]) := by
    rw [Bool.eq_iff_iff, beq_iff_eq, h.dots, dotsOf_eq_one, decide_eq_true_eq]
  have htwo : (s.dots == 2) = decide (seg = dotdot) := by
    rw [Bool.eq_iff_iff, beq_iff_eq, h.dots, dotsOf_eq_two, decide_eq_true_eq]
  by_cases hskip : meaning.skip seg
  · rw [push_skip hskip, atSeparator, if_pos]
    · exact ⟨h.res, h.lastSegmentLength, rfl⟩
    · rw [skip_iff] at hskip
      simpa [hempty, hone] using hskip
  · have hskip' := hskip
    rw [skip_iff, not_or] at hskip'
    rw [atSeparator, if_neg (by simp [hempty, hone, hskip'])]
    by_cases hup : seg = dotdot
    · rw [if_pos (by simp [bne, hempty, htwo, hup, dotdot]), hup]
      cases stack with
      | nil =>
        rw [goUp_nil (s := { s with code }) h.res]
        cases above
        · exact ⟨h.res, h.lastSegmentLength, rfl⟩
        · have hres : s.res = [] := h.res
          simp [hres, push, meaning, dotdot, joined, lastLength]
      | cons t rest =>
        by_cases ht : t = dotdot
        · subst ht
          rw [goUp_dotdot (s := { s with code }) h.res h.lastSegmentLength]
          cases above
          · exact ⟨h.res, h.lastSegmentLength, rfl⟩
          · have hpush : push meaning true (dotdot :: rest) dotdot = dotdot :: dotdot :: rest := by
              simp [push, meaning, dotdot]
            have hpos : s.res.length > 0 := by
              obtain ⟨front, hfront⟩ := joined_suffix separator dotdot rest
              rw [h.res, hfront]
              simp [dotdot]
            rw [hpush]
            simp only [if_true, if_pos hpos]
            exact ⟨by rw [h.res]; rfl, rfl, trivial⟩
        · rw [goUp_cons (s := { s with code }) hsep h.res h.lastSegmentLength h.stack_free ht,
            show dotdot = meaning.up from rfl, push_up_cons ht]
          exact ⟨rfl, rfl, rfl⟩
    · rw [if_neg (by simp [htwo, hup]), push_plain ⟨by simpa using hskip, hup⟩]
      refine ⟨?_, ?_, rfl⟩
      · dsimp only
        rw [h.slice]
        by_cases hstack : stack = []
        · have hres : s.res = [] := by rw [h.res, hstack]; rfl
          simp [hres, hstack, joined]
        · have hpos : s.res.length > 0 := by
            rw [h.res, gt_iff_lt, List.length_pos_iff_ne_nil, ne_eq,
              joined_eq_nil fun t ht => (h.stack_free t ht).1]
            exact hstack
          rw [if_pos hpos, joined_cons _ hstack, h.res]
      · simp only [lastLength, List.head?_cons, Option.map_some, Option.getD_some]
        omega

/-- A code unit of a segment. -/
lemma At.turn_unit (h : At path separator isSep i s seg stack) (hc : path[i]? = some c)
    (hfree : isSep c = false) :
    At path separator isSep (i + 1) (turn path above separator isSep s i) (seg ++ [c]) stack := by
  have hi := (List.getElem?_eq_some_iff.mp hc).1
  have hlen := h.lastSlash
  have hge := h.lastSlash_ge
  have hslice : path.slice (s.lastSlash + 1).toNat (i + 1) = seg ++ [c] := by
    rw [slice_succ (by omega) hc, h.slice]
  have hturn : turn path above separator isSep s i =
      { s with code := some c, dots := dotsOf (seg ++ [c]) } := by
    simp only [turn, nextCode, if_pos hi, hc, hfree, dotsOf_concat, ← h.dots]
    split_ifs <;> simp_all
  rw [hturn]
  refine ⟨?_, hge, hslice, rfl, h.res, h.lastSegmentLength, h.stack_free, ?_, ?_⟩
  · simp only [List.length_append, List.length_singleton]
    omega
  · intro d hd
    rcases List.mem_append.mp hd with hd | hd
    · exact h.seg_free d hd
    · obtain rfl := List.mem_singleton.mp hd
      exact hfree
  · simp [hfree]

/-- A separator, in the path or behind its end. -/
lemma At.turn_separator (hsep : Separators separator isSep) (h : At path separator isSep i s seg stack)
    (hc : nextCode path isSep s i = some c) (hsc : isSep c) :
    At path separator isSep (i + 1) (turn path above separator isSep s i) []
      (push meaning above stack seg) := by
  obtain ⟨hres, hlast, hcode⟩ := atSeparator_spec above hsep h (some c)
  simp only [turn, hc, hsc, if_true]
  refine ⟨by simp, by simp, by simp [slice_self], rfl, hres, hlast,
    push_free above hsep h.stack_free h.seg_free, by simp, ?_⟩
  simp [hcode, hsc]

/-- The turns from the code unit `i` to the end. -/
lemma At.turns (hsep : Separators separator isSep) {n : Nat} (h : At path separator isSep i s seg stack)
    (hn : i + n = path.length) :
    ((List.range' i (n + 1)).foldl (turn path above separator isSep) s).res =
      joined separator
        ((List.splitOnPPrepend isSep (path.drop i) seg.reverse).foldl (push meaning above) stack) := by
  induction n generalizing i s seg stack with
  | zero =>
    have hdrop : path.drop i = [] := List.drop_eq_nil_of_le (by omega)
    rw [hdrop, List.splitOnPPrepend_nil, List.reverse_reverse]
    change (turn path above separator isSep s i).res = joined separator (push meaning above stack seg)
    cases hcode : s.code.any isSep with
    | true =>
      have hseg := h.code
      rw [hcode, eq_comm, decide_eq_true_eq] at hseg
      rw [turn, nextCode, if_neg (by omega), if_pos hcode, h.res,
        push_skip (skip_iff.mpr (.inl hseg.1))]
    | false =>
      have hnext : nextCode path isSep s i = some CHAR_FORWARD_SLASH := by
        rw [nextCode, if_neg (by omega), hcode]
        rfl
      exact (h.turn_separator hsep hnext hsep.slash).res
  | succ n ih =>
    obtain ⟨c, hc⟩ : ∃ c, path[i]? = some c := ⟨_, List.getElem?_eq_getElem (by omega)⟩
    have hi := (List.getElem?_eq_some_iff.mp hc).1
    have hdrop : path.drop i = c :: path.drop (i + 1) := by
      rw [List.drop_eq_getElem_cons hi, (List.getElem?_eq_some_iff.mp hc).2]
    rw [List.range'_succ, List.foldl_cons, hdrop, List.splitOnPPrepend_cons_eq_if]
    cases hsc : isSep c with
    | true =>
      have hnext : nextCode path isSep s i = some c := by
        rw [nextCode, if_pos hi, hc]
      rw [ih (h.turn_separator hsep hnext hsc) (by omega), if_pos rfl, List.reverse_reverse]
      rfl
    | false =>
      rw [ih (h.turn_unit hc hsc) (by omega), if_neg (by simp), List.reverse_append]
      rfl

lemma normalizeString_text (hsep : Separators separator isSep) (path : JSString) (allowAboveRoot : Bool) :
    normalizeString path allowAboveRoot separator isSep =
      joined separator (normal meaning allowAboveRoot (path.splitOnP isSep)) := by
  have hstart : At path separator isSep 0 ⟨[], 0, -1, 0, none⟩ [] [] :=
    ⟨by simp, by simp, by simp [JSString.slice], rfl, rfl, rfl, by simp, by simp, by simp⟩
  rw [normalizeString, List.range_eq_range', hstart.turns hsep (Nat.zero_add _)]
  rfl

end

lemma posix_separators : Separators CHAR_FORWARD_SLASH isPosixPathSeparator := ⟨by decide, by decide, by decide⟩

end LowJs.Path
