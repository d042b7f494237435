import LowJs.Path.Basename

/-!
# `parse` and `format`

The functions agree on what the parts of a path are, but for `..` at the root, and `format` puts the path
together again.
-/

namespace LowJs.Path

open JSString

section
variable {path front comp pre suf ext : JSString} {n k j low : Nat}

/-- A path has one last component. -/
lemma Split.unique {front' comp' : JSString} {n' : Nat} (h : Split path front comp n)
    (h' : Split path front' comp' n') : front = front' ∧ comp = comp' ∧ n = n' := by
  have hcomp : comp = comp' := h.basename_none.symm.trans h'.basename_none
  have hn : n = n' := by
    have := h.trailing.symm.trans h'.trailing
    simpa using congrArg List.length this
  subst hcomp hn
  exact ⟨List.append_cancel_right (h.path_eq.symm.trans h'.path_eq), rfl, rfl⟩

/-- The path is `..` at the root, with slashes behind it. -/
def UpAtRoot (path : JSString) : Prop :=
  ∃ n, path = CHAR_FORWARD_SLASH :: CHAR_DOT :: CHAR_DOT :: List.replicate n CHAR_FORWARD_SLASH

lemma Split.upAtRoot_iff (h : Split path front comp n) :
    UpAtRoot path ↔ front = [CHAR_FORWARD_SLASH] ∧ comp = [CHAR_DOT, CHAR_DOT] := by
  constructor
  · rintro ⟨k, hk⟩
    have h' : Split path [CHAR_FORWARD_SLASH] [CHAR_DOT, CHAR_DOT] k :=
      ⟨by rw [hk]; rfl, List.cons_ne_nil _ _, by decide, .inr ⟨[], rfl⟩⟩
    obtain ⟨hfront, hcomp, -⟩ := h.unique h'
    exact ⟨hfront, hcomp⟩
  · rintro ⟨rfl, rfl⟩
    exact ⟨n, h.path_eq⟩

lemma not_upAtRoot_slashes (n : Nat) : ¬UpAtRoot (List.replicate n CHAR_FORWARD_SLASH) := by
  rintro ⟨k, hk⟩
  have hmem : CHAR_DOT ∈ List.replicate n CHAR_FORWARD_SLASH := by
    rw [hk]
    simp
  exact absurd (List.eq_of_mem_replicate hmem) (by decide)

lemma dotLoop_all (hlow : low ≤ n) :
    dotLoop (List.replicate n CHAR_FORWARD_SLASH) low n .start = .start := by
  obtain ⟨j, rfl⟩ := Nat.exists_eq_add_of_le hlow
  rw [dotLoop_slashes (le_refl low) rfl fun i hi => by simp [hi]]
  cases low with
  | zero => rfl
  | succ low => rw [dotLoop, if_pos (Nat.lt_succ_self low)]

lemma extname_slashes (n : Nat) : extname (List.replicate n CHAR_FORWARD_SLASH) = [] := by
  rw [extname, List.length_replicate]
  exact if_pos (by rw [show DotScan.mk (-1) 0 (-1) true 0 = .start from rfl, dotLoop_all (Nat.zero_le n)]; rfl)

lemma parse_slashes (n : Nat) :
    parse (List.replicate n CHAR_FORWARD_SLASH) =
      if n = 0 then ⟨[], [], [], [], []⟩ else ⟨[CHAR_FORWARD_SLASH], [CHAR_FORWARD_SLASH], [], [], []⟩ := by
  cases n with
  | zero => rfl
  | succ n =>
    have hloop : dotLoop (List.replicate (n + 1) CHAR_FORWARD_SLASH) 1 (n + 1) ⟨-1, 0, -1, true, 0⟩ = .start :=
      dotLoop_all (Nat.le_add_left 1 n)
    have habs : ((List.replicate (n + 1) CHAR_FORWARD_SLASH)[0]? == some CHAR_FORWARD_SLASH) = true := by simp
    rw [parse, if_neg (by simp), if_neg (Nat.succ_ne_zero n)]
    simp only [habs, if_true, List.length_replicate, hloop]
    rfl

/-- The functions agree on the parts of every path but `..` at the root: there `parse` finds an extension, and
`extname` none. -/
theorem parse_parts (path : JSString) :
    (parse path).base = basename path none ∧ (parse path).name ++ (parse path).ext = (parse path).base ∧
      ((parse path).ext = extname path ∧ (parse path).name = basename path (some (extname path)) ↔
        ¬UpAtRoot path) := by
  rcases exists_split path with hall | ⟨front, comp, n, h⟩
  · rw [hall, parse_slashes, extname_slashes, basename_slashes]
    have hempty : basename (List.replicate path.length CHAR_FORWARD_SLASH) (some []) = [] :=
      basename_slashes path.length
    rw [hempty]
    refine ⟨?_, ?_, iff_of_true ?_ (not_upAtRoot_slashes _)⟩ <;> split_ifs <;> simp
  · have hbase := h.basename_none
    rw [h.parse_at, h.upAtRoot_iff, hbase]
    refine ⟨rfl, ?_, ?_⟩
    · cases hm : parseAt front comp with
      | none => exact List.append_nil comp
      | some m => exact List.take_append_drop m comp
    · have hnone : basename path (some []) = comp := hbase
      by_cases hroot : front = [CHAR_FORWARD_SLASH] ∧ comp = [CHAR_DOT, CHAR_DOT]
      · obtain ⟨rfl, rfl⟩ := hroot
        rw [h.extname_eq]
        refine iff_of_false (fun hand => ?_) (fun hnot => hnot ⟨rfl, rfl⟩)
        exact List.cons_ne_nil _ _ hand.1
      · refine iff_of_true ?_ hroot
        rw [h.extname_eq, parseAt, if_neg hroot]
        cases hm : extensionAt comp with
        | none => exact ⟨rfl, hnone.symm⟩
        | some m =>
          obtain ⟨hpos, hlt⟩ := extensionAt_le hm
          have hlen : (comp.drop m).length = comp.length - m := List.length_drop
          have hpath := h.length_eq
          have hne : comp.drop m ≠ comp := fun heq => by
            rw [heq] at hlen
            omega
          refine ⟨rfl, ?_⟩
          show comp.take m = basename path (some (comp.drop m))
          rw [h.basename_ext (List.ne_nil_of_length_pos (by omega)) (by omega)
            (fun heq => by rw [heq] at hlen; omega), if_pos ⟨List.drop_suffix m comp, hne⟩, hlen,
            Nat.sub_sub_self hlt.le]

/-- What `format` makes of the parts. -/
lemma Split.format_eq (h : Split path front comp n) (m : Option Nat) :
    format (partsOf path front comp m) =
      (if front = [CHAR_FORWARD_SLASH, CHAR_FORWARD_SLASH] then [CHAR_FORWARD_SLASH] else front) ++ comp := by
  have habs := h.leading_eq
  have hbase : ∀ b, orElse comp b = comp := fun b =>
    if_neg (List.length_pos_iff_ne_nil.mpr h.comp_ne).ne'
  rcases h.front_eq with rfl | ⟨f, rfl⟩
  · have habs : leading path = false := habs
    simp [format, format_, partsOf, habs, orElse, h.comp_ne]
  · rcases f with _ | ⟨c, f⟩
    · have habs : leading path = true := habs
      simp [format, format_, partsOf, habs, orElse, h.comp_ne]
    · have hone : c :: f ++ [CHAR_FORWARD_SLASH] ≠ [CHAR_FORWARD_SLASH] := by simp
      have hdir : ∀ r, orElse (c :: f) r = c :: f := fun r => if_neg (by simp)
      simp only [format, format_, partsOf, if_neg hone, List.dropLast_concat, hbase, hdir]
      by_cases hroot : c :: f = [CHAR_FORWARD_SLASH]
      · rw [hroot] at habs ⊢
        have habs : leading path = true := habs
        simp [habs]
      · have htwo : c :: f ++ [CHAR_FORWARD_SLASH] ≠ [CHAR_FORWARD_SLASH, CHAR_FORWARD_SLASH] := fun heq =>
          hroot (List.append_cancel_right heq)
        have hne : c :: f ≠ if leading path then [CHAR_FORWARD_SLASH] else [] := by
          split_ifs
          · exact hroot
          · exact List.cons_ne_nil _ _
        rw [if_neg (by simp), if_neg hne, if_neg htwo, List.append_assoc]
        rfl

/-- `format` gives back the path that `parse` took apart, but for slashes at the end and for a name behind two
slashes. -/
theorem format_parse (path : JSString) :
    format (parse path) = path ↔
      (trailing path → path = [CHAR_FORWARD_SLASH]) ∧
        ¬∃ comp, comp ≠ [] ∧ CHAR_FORWARD_SLASH ∉ comp ∧ path = CHAR_FORWARD_SLASH :: CHAR_FORWARD_SLASH :: comp := by
  rcases exists_split path with hall | ⟨front, comp, n, h⟩
  · have hno : ¬∃ comp, comp ≠ [] ∧ CHAR_FORWARD_SLASH ∉ comp ∧
        path = CHAR_FORWARD_SLASH :: CHAR_FORWARD_SLASH :: comp := by
      rintro ⟨comp, hne, hfree, heq⟩
      obtain ⟨c, rest, rfl⟩ := List.exists_cons_of_ne_nil hne
      rw [hall] at heq
      have hmem : c ∈ List.replicate path.length CHAR_FORWARD_SLASH := by
        rw [heq]
        simp
      exact hfree (by simp [List.eq_of_mem_replicate hmem])
    rw [and_iff_left hno]
    rcases hlen : path.length with _ | _ | k
    · rw [List.eq_nil_of_length_eq_zero hlen]
      decide
    · rw [hlen] at hall
      rw [hall]
      decide
    · rw [hlen] at hall
      rw [hall, parse_slashes]
      refine iff_of_false (fun heq => ?_) fun hlast => ?_
      · exact absurd (congrArg List.length heq) (by simp [format, format_, orElse])
      · have := hlast (by simp [trailing, List.getLast?_replicate])
        exact absurd (congrArg List.length this) (by simp)
  · have hlast : trailing path ↔ n ≠ 0 := by
      rw [trailing, beq_iff_eq]
      cases n with
      | zero =>
        obtain ⟨body, c, rfl⟩ := (List.eq_nil_or_concat' comp).resolve_left h.comp_ne
        have hc : c ≠ CHAR_FORWARD_SLASH := fun heq => h.comp_free (by simp [heq])
        have hpath : path = (front ++ body) ++ [c] := by
          rw [h.path_eq]
          simp
        rw [hpath, List.getLast?_concat]
        simp [hc]
      | succ n =>
        rw [h.path_eq, ← List.append_assoc, List.getLast?_append_of_ne_nil _ (by simp)]
        simp [List.getLast?_replicate]
    have hpath : path ≠ [CHAR_FORWARD_SLASH] := fun heq => by
      obtain ⟨c, rest, rfl⟩ := List.exists_cons_of_ne_nil h.comp_ne
      have hmem : c ∈ path := by
        rw [h.path_eq]
        simp
      rw [heq, List.mem_singleton] at hmem
      exact h.comp_free (by simp [hmem])
    have htwo : (∃ comp, comp ≠ [] ∧ CHAR_FORWARD_SLASH ∉ comp ∧
        path = CHAR_FORWARD_SLASH :: CHAR_FORWARD_SLASH :: comp) ↔
        front = [CHAR_FORWARD_SLASH, CHAR_FORWARD_SLASH] ∧ n = 0 := by
      constructor
      · rintro ⟨comp', hne, hfree, heq⟩
        have h' : Split path [CHAR_FORWARD_SLASH, CHAR_FORWARD_SLASH] comp' 0 :=
          ⟨by rw [heq]; simp, hne, hfree, .inr ⟨[CHAR_FORWARD_SLASH], rfl⟩⟩
        obtain ⟨hfront, -, hn⟩ := h.unique h'
        exact ⟨hfront, hn⟩
      · rintro ⟨rfl, rfl⟩
        exact ⟨comp, h.comp_ne, h.comp_free, by rw [h.path_eq]; simp⟩
    rw [hlast, htwo, h.parse_at, h.format_eq, h.path_eq]
    constructor
    · intro heq
      by_cases hfront : front = [CHAR_FORWARD_SLASH, CHAR_FORWARD_SLASH]
      · rw [if_pos hfront, hfront] at heq
        have := congrArg List.length heq
        simp at this
        omega
      · rw [if_neg hfront, ← List.append_assoc, List.self_eq_append_right, List.replicate_eq_nil_iff] at heq
        exact ⟨fun hn => absurd heq hn, fun hand => hfront hand.1⟩
    · rintro ⟨hn, hfront⟩
      have hn : n = 0 := by
        by_contra hne
        refine hpath ?_
        rw [h.path_eq]
        exact hn hne
      rw [if_neg fun heq => hfront ⟨heq, hn⟩, hn]
      simp

end

end LowJs.Path
