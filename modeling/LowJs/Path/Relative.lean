import LowJs.Path.Resolve

/-!
# `relative`

The two resolved paths are compared code unit by code unit. What comes out are as many `..` as the first path
has segments behind what the two have in common, and the segments of the second path behind it: the way from
one to the other.
-/

namespace LowJs.Path

open JSString Segments

/-- Two lists that are not the same have a common front behind which they differ at once. -/
lemma exists_common {β : Type*} [DecidableEq β] {l m : List β} (h : l ≠ m) :
    ∃ c l' m', l = c ++ l' ∧ m = c ++ m' ∧ l'.head? ≠ m'.head? := by
  induction l generalizing m with
  | nil =>
    obtain ⟨b, m, rfl⟩ := List.exists_cons_of_ne_nil (Ne.symm h)
    exact ⟨[], [], b :: m, rfl, rfl, by simp⟩
  | cons a l ih =>
    cases m with
    | nil => exact ⟨[], a :: l, [], rfl, rfl, by simp⟩
    | cons b m =>
      by_cases hab : a = b
      · subst hab
        obtain ⟨c, l', m', rfl, rfl, hne⟩ := ih fun heq => h (by rw [heq])
        exact ⟨a :: c, l', m', rfl, rfl, hne⟩
      · exact ⟨[], a :: l, b :: m, rfl, rfl, by simpa using hab⟩

/-- Segments side by side, with slashes between them. -/
def text : List JSString → JSString
  | [] => []
  | [s] => s
  | s :: t :: l => s ++ CHAR_FORWARD_SLASH :: text (t :: l)

/-- Segments with a slash behind each. -/
def blocks (l : List JSString) : JSString := l.flatMap (· ++ [CHAR_FORWARD_SLASH])

section
variable {l m : List JSString} {s f t u v : JSString} {a b c : UInt16} {i n : Nat} {last : Int}

lemma text_cons (s : JSString) (h : l ≠ []) : text (s :: l) = s ++ CHAR_FORWARD_SLASH :: text l := by
  cases l with
  | nil => exact absurd rfl h
  | cons t l => rfl

lemma text_append (l : List JSString) (h : m ≠ []) : text (l ++ m) = blocks l ++ text m := by
  induction l with
  | nil => rfl
  | cons s l ih =>
    rw [List.cons_append, text_cons s (by simp [h]), ih]
    simp [blocks]

lemma text_concat (l : List JSString) (s : JSString) : text (l ++ [s]) = blocks l ++ s :=
  text_append l (by simp)

lemma joined_eq_text (stack : List JSString) : joined CHAR_FORWARD_SLASH stack = text stack.reverse := by
  induction stack with
  | nil => rfl
  | cons s stack ih =>
    by_cases hstack : stack = []
    · subst hstack
      rfl
    · rw [joined_cons s hstack, ih, List.reverse_cons, text_concat]
      obtain ⟨l, t, hl⟩ := List.eq_nil_or_concat' stack.reverse |>.resolve_left (by simpa using hstack)
      rw [hl, text_concat]
      simp [blocks]

lemma free_reverse {stack : List JSString} (h : Free stack) : Free stack.reverse :=
  fun t ht => h t (List.mem_reverse.mp ht)

/-- The first code unit of a text is no slash. -/
lemma text_head (h : Free l) (hne : l ≠ []) : ∃ c x, text l = c :: x ∧ c ≠ CHAR_FORWARD_SLASH := by
  obtain ⟨s, l, rfl⟩ := List.exists_cons_of_ne_nil hne
  obtain ⟨hs, hfree⟩ := h s List.mem_cons_self
  obtain ⟨c, x, rfl⟩ := List.exists_cons_of_ne_nil hs
  have hc : c ≠ CHAR_FORWARD_SLASH := fun heq => hfree (heq ▸ List.mem_cons_self)
  cases l with
  | nil => exact ⟨c, x, rfl, hc⟩
  | cons t l => exact ⟨c, _, rfl, hc⟩

/-! ### The loop that compares -/

/-- A turn at a code unit that is the same. -/
lemma compare_same (hu : u[i]? = some c) (hv : v[i]? = some c) :
    compare (a :: u) (b :: v) 1 1 (n + 1) i last =
      compare (a :: u) (b :: v) 1 1 n (i + 1) (if c = CHAR_FORWARD_SLASH then i else last) := by
  rw [compare, Nat.add_comm 1 i, List.getElem?_cons_succ, List.getElem?_cons_succ, hu, hv, if_neg (by simp)]
  simp

/-- The turns inside of a segment that is the same. -/
lemma compare_plain (hs : CHAR_FORWARD_SLASH ∉ s) {x y : JSString} (hu : u.drop i = s ++ x)
    (hv : v.drop i = s ++ y) :
    compare (a :: u) (b :: v) 1 1 (s.length + n) i last =
      compare (a :: u) (b :: v) 1 1 n (i + s.length) last := by
  induction s generalizing i with
  | nil => simp
  | cons c s ih =>
    have hc : c ≠ CHAR_FORWARD_SLASH := fun heq => hs (heq ▸ List.mem_cons_self)
    have hu' : u[i]? = some c := by
      rw [← Nat.add_zero i, ← List.getElem?_drop, hu]
      rfl
    have hv' : v[i]? = some c := by
      rw [← Nat.add_zero i, ← List.getElem?_drop, hv]
      rfl
    have hu'' : u.drop (i + 1) = s ++ x := by
      rw [← List.drop_drop, hu]
      rfl
    have hv'' : v.drop (i + 1) = s ++ y := by
      rw [← List.drop_drop, hv]
      rfl
    rw [List.length_cons, Nat.add_right_comm, compare_same hu' hv', if_neg hc,
      ih (fun h => hs (List.mem_cons_of_mem _ h)) hu'' hv'']
    congr 1
    omega

/-- The turns up to behind a slash. -/
lemma compare_block (hs : CHAR_FORWARD_SLASH ∉ s) {x y : JSString}
    (hu : u.drop i = s ++ CHAR_FORWARD_SLASH :: x) (hv : v.drop i = s ++ CHAR_FORWARD_SLASH :: y) :
    compare (a :: u) (b :: v) 1 1 (s.length + 1 + n) i last =
      compare (a :: u) (b :: v) 1 1 n (i + s.length + 1) (i + s.length) := by
  have hu' : u[i + s.length]? = some CHAR_FORWARD_SLASH := by
    rw [← List.getElem?_drop, hu]
    simp
  have hv' : v[i + s.length]? = some CHAR_FORWARD_SLASH := by
    rw [← List.getElem?_drop, hv]
    simp
  rw [Nat.add_assoc, Nat.add_comm 1 n, compare_plain hs hu hv, compare_same hu' hv', if_pos rfl]
  simp

/-- The turns over segments that are the same. -/
lemma compare_blocks (hl : ∀ s ∈ l, CHAR_FORWARD_SLASH ∉ s) {x y : JSString}
    (hu : u.drop i = blocks l ++ x) (hv : v.drop i = blocks l ++ y) (hlast : last = i - 1) :
    compare (a :: u) (b :: v) 1 1 ((blocks l).length + n) i last =
      compare (a :: u) (b :: v) 1 1 n (i + (blocks l).length) (i + (blocks l).length - 1) := by
  induction l generalizing i last with
  | nil => simp [blocks, hlast]
  | cons s l ih =>
    have hblocks : blocks (s :: l) = s ++ CHAR_FORWARD_SLASH :: blocks l := by simp [blocks]
    rw [hblocks] at hu hv
    rw [List.append_assoc, List.cons_append] at hu hv
    have hdrop : ∀ {w z : JSString}, w.drop i = s ++ CHAR_FORWARD_SLASH :: z →
        w.drop (i + s.length + 1) = z := by
      intro w z hw
      rw [Nat.add_assoc, ← List.drop_drop, hw]
      simp
    have hlen : (blocks (s :: l)).length + n = s.length + 1 + ((blocks l).length + n) := by
      rw [hblocks]
      simp
      omega
    rw [hlen, compare_block (hl s List.mem_cons_self) hu hv,
      ih (fun t ht => hl t (List.mem_cons_of_mem _ ht)) (hdrop hu) (hdrop hv) (by push_cast; ring),
      hblocks]
    congr 1
    · simp
      omega
    · simp
      omega

/-- The loop ends behind a code unit that is not the same. -/
lemma compare_differ (hn : n = min u.length v.length - i) (hi : i ≤ min u.length v.length)
    (hne : u[i]? ≠ v[i]?) (hu : u.length ≤ i → v[i]? ≠ some CHAR_FORWARD_SLASH ∧ i ≠ 0)
    (hv : v.length ≤ i → u[i]? ≠ some CHAR_FORWARD_SLASH ∧ i ≠ 0) :
    compare (a :: u) (b :: v) 1 1 n i last = .inr last := by
  cases n with
  | succ n =>
    rw [compare, Nat.add_comm 1 i, List.getElem?_cons_succ, List.getElem?_cons_succ, if_pos hne]
  | zero =>
    simp only [compare, Nat.add_comm 1 i, List.getElem?_cons_succ, List.length_cons, Nat.add_sub_cancel]
    split_ifs with h1 h2 h3 h4 h5 h6
    · exact absurd h2 (hu (by omega)).1
    · exact absurd h3 (hu (by omega)).2
    · rfl
    · exact absurd h5 (hv (by omega)).1
    · exact absurd h6 (hv (by omega)).2
    · rfl
    · rfl

/-- Behind its first segment a text is at its end or has a slash. -/
lemma text_rest (f : JSString) (l : List JSString) :
    ∃ r, text (f :: l) = f ++ r ∧ ∀ c, r.head? = some c → c = CHAR_FORWARD_SLASH := by
  cases l with
  | nil => exact ⟨[], by simp [text], by simp⟩
  | cons t l => exact ⟨CHAR_FORWARD_SLASH :: text (t :: l), rfl, by simp⟩

lemma getElem?_add_of_drop {w x y : JSString} (h : w.drop i = x ++ y) : w[i + x.length]? = y.head? := by
  rw [← List.getElem?_drop, h]
  cases y <;> simp

/-- The loop ends inside of the first segments that are not the same. -/
lemma compare_segments (hf : Free (f :: l)) (ht : Free (t :: m)) (hne : f ≠ t)
    (hu : u.drop i = text (f :: l)) (hv : v.drop i = text (t :: m)) (hn : n = min u.length v.length - i) :
    compare (a :: u) (b :: v) 1 1 n i last = .inr last := by
  obtain ⟨hfne, hffree⟩ := hf f List.mem_cons_self
  obtain ⟨htne, htfree⟩ := ht t List.mem_cons_self
  obtain ⟨r, hr, hrhead⟩ := text_rest f l
  obtain ⟨q, hq, hqhead⟩ := text_rest t m
  obtain ⟨p, f', t', rfl, rfl, hhead⟩ := exists_common hne
  rw [hr, List.append_assoc] at hu
  rw [hq, List.append_assoc] at hv
  have hulen := congrArg List.length hu
  have hvlen := congrArg List.length hv
  simp only [List.length_drop, List.length_append] at hulen hvlen
  have hflen : p.length + f'.length ≠ 0 := by simpa using hfne
  have htlen : p.length + t'.length ≠ 0 := by simpa using htne
  have hsplit : n = p.length + (min u.length v.length - (i + p.length)) := by omega
  have hfhead : ∀ c, f'.head? = some c → c ≠ CHAR_FORWARD_SLASH := fun c hc heq =>
    hffree (List.mem_append_right _ (heq ▸ List.mem_of_head? hc))
  have hthead : ∀ c, t'.head? = some c → c ≠ CHAR_FORWARD_SLASH := fun c hc heq =>
    htfree (List.mem_append_right _ (heq ▸ List.mem_of_head? hc))
  rw [hsplit, compare_plain (fun h => hffree (List.mem_append_left _ h)) hu hv]
  refine compare_differ rfl (by omega) ?_ (fun hle => ?_) fun hle => ?_
  · rw [getElem?_add_of_drop hu, getElem?_add_of_drop hv]
    intro heq
    cases f' with
    | nil =>
      cases t' with
      | nil => exact hhead rfl
      | cons d t' => exact hthead d rfl (hrhead d (by simpa using heq))
    | cons c f' =>
      cases t' with
      | nil => exact hfhead c rfl (hqhead c (by simpa using heq.symm))
      | cons d t' => exact hhead (by simpa using heq)
  · obtain rfl : f' = [] := List.eq_nil_of_length_eq_zero (by omega)
    rw [getElem?_add_of_drop hv]
    cases t' with
    | nil => exact absurd rfl hhead
    | cons d t' =>
      simp only [List.length_nil, Nat.add_zero] at hflen
      exact ⟨by simpa using hthead d rfl, by omega⟩
  · obtain rfl : t' = [] := List.eq_nil_of_length_eq_zero (by omega)
    rw [getElem?_add_of_drop hu]
    cases f' with
    | nil => exact absurd rfl hhead
    | cons c f' =>
      simp only [List.length_nil, Nat.add_zero] at htlen
      exact ⟨by simpa using hfhead c rfl, by omega⟩

/-! ### The loop that goes up -/

lemma blocks_eq (h : l ≠ []) : blocks l = text l ++ [CHAR_FORWARD_SLASH] := by
  induction l with
  | nil => exact absurd rfl h
  | cons s l ih =>
    by_cases hl : l = []
    · subst hl
      simp [blocks, text]
    · rw [text_cons s hl]
      have := ih hl
      simp only [blocks] at this ⊢
      simp [this]

/-- A turn of the loop that goes up. -/
def addUp (out : JSString) : JSString :=
  if out.length = 0 then out ++ [CHAR_DOT, CHAR_DOT] else out ++ [CHAR_FORWARD_SLASH, CHAR_DOT, CHAR_DOT]

lemma addUp_iterate (k : Nat) : addUp^[k] [] = text (List.replicate k dotdot) := by
  induction k with
  | zero => rfl
  | succ k ih =>
    rw [Function.iterate_succ_apply', ih]
    cases k with
    | zero => rfl
    | succ k =>
      have hrep : List.replicate (k + 1 + 1) dotdot = List.replicate (k + 1) dotdot ++ [dotdot] :=
        List.replicate_succ'
      rw [hrep, text_concat, blocks_eq (by simp), addUp, if_neg]
      · simp [dotdot]
      · cases k <;> simp [text, List.replicate_succ, dotdot]

/-- The turn of the loop for the index `i`. -/
def upTurn (from_ : JSString) (fromEnd : Nat) (out : JSString) (i : Nat) : JSString :=
  if i = fromEnd ∨ from_[i]? = some CHAR_FORWARD_SLASH then addUp out else out

lemma ups_eq (from_ : JSString) (start fromEnd : Nat) :
    ups from_ start fromEnd = (List.range' start (fromEnd + 1 - start)).foldl (upTurn from_ fromEnd) [] := rfl

lemma foldl_upTurn_plain {from_ x : JSString} {fromEnd j k : Nat} {out : JSString}
    (hs : CHAR_FORWARD_SLASH ∉ s) (hdrop : from_.drop j = s ++ x) (hk : k = s.length)
    (hend : j + k ≤ fromEnd) : (List.range' j k).foldl (upTurn from_ fromEnd) out = out := by
  induction s generalizing j k with
  | nil =>
    subst hk
    rfl
  | cons c s ih =>
    obtain rfl : k = s.length + 1 := hk
    have hc : from_[j]? = some c := by
      rw [← Nat.add_zero j, ← List.getElem?_drop, hdrop]
      rfl
    have hne : c ≠ CHAR_FORWARD_SLASH := fun heq => hs (heq ▸ List.mem_cons_self)
    rw [List.range'_succ, List.foldl_cons, upTurn, if_neg]
    · refine ih (fun h => hs (List.mem_cons_of_mem _ h)) ?_ rfl (by omega)
      rw [← List.drop_drop, hdrop]
      rfl
    · rw [hc, Option.some_inj]
      rintro (h | h)
      · omega
      · exact hne h

/-- For each of the segments that are left one goes up. -/
lemma foldl_upTurn {from_ : JSString} {fromEnd j k : Nat} {out : JSString} (hl : Free l) (hne : l ≠ [])
    (hdrop : from_.drop j = text l) (hend : fromEnd = j + (text l).length) (hk : k = (text l).length + 1) :
    (List.range' j k).foldl (upTurn from_ fromEnd) out = addUp^[l.length] out := by
  induction l generalizing j k out with
  | nil => exact absurd rfl hne
  | cons s l ih =>
    have hs := (hl s List.mem_cons_self).2
    by_cases hnil : l = []
    · subst hnil
      have htext : text [s] = s := rfl
      rw [htext] at hdrop hend hk
      rw [hk, ← List.range'_append_1, List.foldl_append,
        foldl_upTurn_plain hs (x := []) (by rw [hdrop, List.append_nil]) rfl (by omega),
        List.range'_one, List.foldl_cons, upTurn, if_pos (.inl hend.symm)]
      rfl
    · rw [text_cons s hnil] at hdrop hend hk
      rw [List.length_append, List.length_cons] at hend hk
      have hsplit : k = s.length + (1 + ((text l).length + 1)) := by omega
      have hslash : from_[j + s.length]? = some CHAR_FORWARD_SLASH := by
        rw [getElem?_add_of_drop hdrop]
        rfl
      rw [hsplit, ← List.range'_append_1, List.foldl_append, foldl_upTurn_plain hs hdrop rfl (by omega),
        ← List.range'_append_1, List.foldl_append, List.range'_one, List.foldl_cons, List.foldl_nil,
        upTurn, if_pos (.inr hslash),
        ih (fun t ht => hl t (List.mem_cons_of_mem _ ht)) hnil ?_ (by omega) rfl]
      · rfl
      · rw [Nat.add_assoc, ← List.drop_drop, hdrop]
        simp

/-- The way up from the end of a path to behind its front. -/
lemma ups_text {x : JSString} (hl : Free l) (hne : l ≠ []) :
    ups (x ++ text l) x.length (x ++ text l).length = text (List.replicate l.length dotdot) := by
  rw [ups_eq, foldl_upTurn hl hne (by simp) (by simp) (by simp; omega), addUp_iterate]

/-! ### The way from one path to the other -/

lemma replicate_up_ne_nil (h : l ≠ []) : List.replicate l.length dotdot ≠ [] := by
  simpa using h

lemma text_replicate_up_pos (h : l ≠ []) : (text (List.replicate l.length dotdot)).length > 0 := by
  cases l with
  | nil => exact absurd rfl h
  | cons s l => cases l <;> simp [text, List.replicate_succ, dotdot]

/-- What is returned where the loop has found the last common slash, behind a front that ends with it. -/
lemma behindLoop_inr {x : JSString} {F T : List JSString} (hF : Free F) (hne : F ≠ [])
    (hT : T ≠ []) (hx : x = blocks l) :
    behindLoop (CHAR_FORWARD_SLASH :: (x ++ text F)) (CHAR_FORWARD_SLASH :: (x ++ text T)) 1 1
      (.inr ((x.length : Int) - 1)) = text (List.replicate F.length dotdot ++ T) := by
  have hups : ups (CHAR_FORWARD_SLASH :: (x ++ text F)) (x.length + 1)
      (CHAR_FORWARD_SLASH :: (x ++ text F)).length = text (List.replicate F.length dotdot) :=
    ups_text (x := CHAR_FORWARD_SLASH :: x) hF hne
  have hstart : (((1 : Nat) : Int) + ((x.length : Int) - 1) + 1).toNat = x.length + 1 := by omega
  have hto : (((1 : Nat) : Int) + ((x.length : Int) - 1)).toNat = x.length := by omega
  simp only [behindLoop, hstart, hto, hups]
  rw [if_pos (text_replicate_up_pos hne), slice_length, text_append _ hT, blocks_eq (replicate_up_ne_nil hne),
    List.append_assoc]
  congr 1
  by_cases hl : l = []
  · subst hl hx
    rfl
  · have hfront : CHAR_FORWARD_SLASH :: (text l ++ [CHAR_FORWARD_SLASH] ++ text T) =
        (CHAR_FORWARD_SLASH :: text l) ++ ([CHAR_FORWARD_SLASH] ++ text T) := by simp
    rw [hx, blocks_eq hl, hfront, List.drop_left' (by simp)]

/-- The loop ends at the end of the first path. -/
lemma compare_end_from (hlen : u.length = i) (hlt : i < v.length) :
    compare (a :: u) (b :: v) 1 1 0 i last =
      if v[i]? = some CHAR_FORWARD_SLASH then .inl (v.drop (i + 1))
      else if i = 0 then .inl v else .inr last := by
  rw [compare, if_pos (by simp; omega), Nat.add_comm 1 i, List.getElem?_cons_succ, slice_length, slice_length,
    List.drop_succ_cons, List.drop_succ_cons]
  by_cases hi : i = 0
  · subst hi
    rfl
  · rw [if_neg hi, if_neg hi]

/-- The loop ends at the end of the second path. -/
lemma compare_end_to (hlen : v.length = i) (hlt : i < u.length) :
    compare (a :: u) (b :: v) 1 1 0 i last =
      if u[i]? = some CHAR_FORWARD_SLASH then .inr i else if i = 0 then .inr 0 else .inr last := by
  rw [compare, if_neg (by simp; omega), if_pos (by simp; omega), Nat.add_comm 1 i,
    List.getElem?_cons_succ]

/-- The turns over a path that is a front of the other one. -/
lemma compare_front (hl : ∀ t ∈ l ++ [s], CHAR_FORWARD_SLASH ∉ t) {x y : JSString}
    (hu : u = text (l ++ [s]) ++ x) (hv : v = text (l ++ [s]) ++ y) :
    compare (a :: u) (b :: v) 1 1 ((text (l ++ [s])).length + 0) 0 (-1) =
      compare (a :: u) (b :: v) 1 1 0 (text (l ++ [s])).length ((blocks l).length - 1) := by
  rw [text_concat, List.append_assoc] at hu hv
  rw [text_concat, List.length_append, Nat.add_assoc,
    compare_blocks (i := 0) (fun t ht => hl t (List.mem_append_left _ ht)) hu hv (by simp),
    compare_plain (hl s (by simp)) (x := x) (y := y) (by rw [hu]; simp) (by rw [hv]; simp)]
  simp

/-- The index of a code unit that is no slash can be left out. -/
lemma ups_succ {from_ : JSString} {j fromEnd : Nat} (hj : j < fromEnd)
    (hc : from_[j]? ≠ some CHAR_FORWARD_SLASH) : ups from_ j fromEnd = ups from_ (j + 1) fromEnd := by
  obtain ⟨k, hk⟩ : ∃ k, fromEnd + 1 - j = k + 1 := ⟨fromEnd - j, by omega⟩
  rw [ups_eq, ups_eq, hk, List.range'_succ, List.foldl_cons, upTurn,
    if_neg (by rintro (h | h) <;> [omega; exact hc h])]
  congr 2
  omega

/-- What is left of the two paths, and what is returned. -/
lemma behindLoop_compare {C F T : List JSString} (hF : Free (C ++ F)) (hT : Free (C ++ T))
    (hhead : F.head? ≠ T.head?) :
    behindLoop (CHAR_FORWARD_SLASH :: text (C ++ F)) (CHAR_FORWARD_SLASH :: text (C ++ T)) 1 1
      (compare (CHAR_FORWARD_SLASH :: text (C ++ F)) (CHAR_FORWARD_SLASH :: text (C ++ T)) 1 1
        (min (text (C ++ F)).length (text (C ++ T)).length) 0 (-1)) =
      text (List.replicate F.length dotdot ++ T) := by
  have hC : ∀ s ∈ C, CHAR_FORWARD_SLASH ∉ s := fun s hs => (hF s (List.mem_append_left _ hs)).2
  have hF' : Free F := fun s hs => hF s (List.mem_append_right _ hs)
  have hT' : Free T := fun s hs => hT s (List.mem_append_right _ hs)
  by_cases hFnil : F = []
  · subst hFnil
    have hTnil : T ≠ [] := fun h => hhead (by rw [h])
    rw [List.append_nil]
    rcases List.eq_nil_or_concat' C with rfl | ⟨C, c, rfl⟩
    · -- the first path is the root
      obtain ⟨d, x, hx, hd⟩ := text_head hT' hTnil
      have hmin : min (text []).length (text ([] ++ T)).length = 0 := by simp [text]
      rw [hmin, List.nil_append, hx, compare_end_from (i := 0) rfl (by simp), if_neg (by simpa using hd), if_pos rfl]
      simp [behindLoop, ← hx]
    · -- the first path is a front of the second one
      have hv : text (C ++ [c] ++ T) = text (C ++ [c]) ++ CHAR_FORWARD_SLASH :: text T := by
        rw [text_append _ hTnil, blocks_eq (by simp)]
        simp
      have hmin : min (text (C ++ [c])).length (text (C ++ [c] ++ T)).length =
          (text (C ++ [c])).length + 0 := by
        rw [hv, List.length_append]
        omega
      rw [hmin, hv, compare_front hC (x := []) (by simp) rfl, compare_end_from rfl (by simp),
        if_pos (by simp)]
      simp [behindLoop]
  · by_cases hTnil : T = []
    · subst hTnil
      obtain ⟨f, x, hx, hf⟩ := text_head hF' hFnil
      rw [List.append_nil, List.append_nil]
      rcases List.eq_nil_or_concat' C with rfl | ⟨C, c, rfl⟩
      · -- the second path is the root
        have hmin : min (text ([] ++ F)).length (text []).length = 0 := by simp [text]
        have hups : ups (CHAR_FORWARD_SLASH :: text F) 2 (CHAR_FORWARD_SLASH :: text F).length =
            text (List.replicate F.length dotdot) := by
          rw [← ups_succ (by rw [hx]; simp) (by rw [hx]; simpa using hf)]
          exact ups_text (x := [CHAR_FORWARD_SLASH]) hF' hFnil
        rw [hmin, List.nil_append, compare_end_to (i := 0) rfl (by rw [hx]; simp), if_neg (by rw [hx]; simpa using hf),
          if_pos rfl]
        have hstart : (((1 : Nat) : Int) + 0 + 1).toNat = 2 := rfl
        simp only [behindLoop, hstart, hups]
        rw [if_pos (text_replicate_up_pos hFnil), slice_length]
        simp [text]
      · -- the second path is a front of the first one
        have hu : text (C ++ [c] ++ F) = text (C ++ [c]) ++ CHAR_FORWARD_SLASH :: text F := by
          rw [text_append _ hFnil, blocks_eq (by simp)]
          simp
        have hmin : min (text (C ++ [c] ++ F)).length (text (C ++ [c])).length =
            (text (C ++ [c])).length + 0 := by
          rw [hu, List.length_append]
          omega
        have hups : ups (CHAR_FORWARD_SLASH :: (text (C ++ [c]) ++ CHAR_FORWARD_SLASH :: text F))
            ((text (C ++ [c])).length + 2)
            (CHAR_FORWARD_SLASH :: (text (C ++ [c]) ++ CHAR_FORWARD_SLASH :: text F)).length =
            text (List.replicate F.length dotdot) := by
          have := ups_text (x := CHAR_FORWARD_SLASH :: (text (C ++ [c]) ++ [CHAR_FORWARD_SLASH])) hF' hFnil
          simpa using this
        rw [hmin, hu, compare_front hC rfl (y := []) (by simp), compare_end_to rfl (by simp),
          if_pos (by simp)]
        have hstart : (((1 : Nat) : Int) + ((text (C ++ [c])).length : Int) + 1).toNat =
            (text (C ++ [c])).length + 2 := by omega
        have hto : (((1 : Nat) : Int) + ((text (C ++ [c])).length : Int)).toNat =
            (text (C ++ [c])).length + 1 := by omega
        simp only [behindLoop, hstart, hto, hups]
        rw [if_pos (text_replicate_up_pos hFnil), slice_length]
        simp
    · -- the paths part
      obtain ⟨f, F, rfl⟩ := List.exists_cons_of_ne_nil hFnil
      obtain ⟨t, T, rfl⟩ := List.exists_cons_of_ne_nil hTnil
      have hne : f ≠ t := by simpa using hhead
      have hmin : min (text (C ++ f :: F)).length (text (C ++ t :: T)).length =
          (blocks C).length + min (text (f :: F)).length (text (t :: T)).length := by
        rw [text_append C (by simp), text_append C (by simp), List.length_append, List.length_append]
        omega
      rw [hmin, text_append C (by simp), text_append C (by simp),
        compare_blocks hC rfl rfl (by simp), compare_segments hF' hT' hne (by simp) (by simp)]
      · simpa using behindLoop_inr (x := blocks C) hF' (by simp) (by simp) rfl
      · simp

lemma skipSlashes_text (h : Free l) : skipSlashes (CHAR_FORWARD_SLASH :: text l) 1 = 1 := by
  by_cases hl : l = []
  · subst hl
    rfl
  · obtain ⟨c, x, hx, hc⟩ := text_head h hl
    simp [skipSlashes, hx, hc]

/-- The way from one directory to another: up from the first one to what the two have in common, and down to
the second one. -/
lemma foldl_way {C F T : List JSString} (hF : ∀ s ∈ F, Plain meaning s) (hT : ∀ s ∈ T, Plain meaning s) :
    (List.replicate F.length dotdot ++ T).foldl (push meaning false) (C ++ F).reverse =
      (C ++ T).reverse := by
  have hup : (List.replicate F.reverse.length meaning.up).foldl (push meaning false) (F.reverse ++ C.reverse) =
      C.reverse := foldl_up_plain fun s hs => hF s (List.mem_reverse.mp hs)
  rw [List.length_reverse] at hup
  rw [List.foldl_append, List.reverse_append, show dotdot = meaning.up from rfl, hup, foldl_plain hT,
    List.reverse_append]

/-- `relative` gives the way from one path to the other: who is at the first one and goes where it says is at
the second one. -/
theorem resolve_relative {cwd : JSString} (h : isAbsolute cwd) (from_ to_ : JSString) :
    resolve cwd [from_, relative cwd from_ to_] = resolve cwd [to_] := by
  have hresolve := resolve_text h
  set base := norm false cwd with hbase
  have hone : ∀ path, resolve cwd [path] = CHAR_FORWARD_SLASH :: text (cd base path).reverse := fun path => by
    rw [hresolve, joined_eq_text]
    rfl
  have hcan : ∀ path, Canonical meaning false (cd base path) :=
    Canonical.cd (canonical_normal (segs cwd))
  have hfree : ∀ path, Free (cd base path) := (free_norm false cwd).cd
  have htwo : resolve cwd [from_, relative cwd from_ to_] =
      CHAR_FORWARD_SLASH :: text (cd (cd base from_) (relative cwd from_ to_)).reverse := by
    rw [hresolve, joined_eq_text]
    rfl
  by_cases hsame : from_ = to_ ∨ resolve cwd [from_] = resolve cwd [to_]
  · have hnil : relative cwd from_ to_ = [] := by
      rw [relative]
      rcases hsame with hsame | hsame
      · rw [if_pos hsame]
      · simp only [hsame, if_true, ite_self]
    rw [htwo, hnil, cd_nil, ← hone]
    rcases hsame with rfl | hsame
    · rfl
    · exact hsame
  · rw [not_or] at hsame
    have hne : (cd base from_).reverse ≠ (cd base to_).reverse := fun heq => hsame.2 (by rw [hone, hone, heq])
    obtain ⟨C, F, T, hF, hT, hhead⟩ := exists_common hne
    have hFfree := hF ▸ free_reverse (hfree from_)
    have hTfree := hT ▸ free_reverse (hfree to_)
    have hFplain : ∀ s ∈ F, Plain meaning s := fun s hs =>
      (hcan from_).plain s (List.mem_reverse.mp (hF ▸ List.mem_append_right _ hs))
    have hTplain : ∀ s ∈ T, Plain meaning s := fun s hs =>
      (hcan to_).plain s (List.mem_reverse.mp (hT ▸ List.mem_append_right _ hs))
    have hrel : relative cwd from_ to_ = text (List.replicate F.length dotdot ++ T) := by
      rw [relative, if_neg hsame.1]
      simp only [if_neg hsame.2]
      rw [hone, hone, hF, hT, skipSlashes_text hFfree, skipSlashes_text hTfree]
      exact behindLoop_compare hFfree hTfree hhead
    have hway : Free (List.replicate F.length dotdot ++ T) := by
      intro s hs
      rcases List.mem_append.mp hs with hs | hs
      · obtain rfl := List.eq_of_mem_replicate hs
        decide
      · exact hTfree s (List.mem_append_right _ hs)
    have hwayne : List.replicate F.length dotdot ++ T ≠ [] := by
      intro hnil
      obtain ⟨hF, hT⟩ := List.append_eq_nil_iff.mp hnil
      rw [List.replicate_eq_nil_iff, List.length_eq_zero_iff] at hF
      exact hhead (by rw [hF, hT])
    have hlead : leading (text (List.replicate F.length dotdot ++ T)) = false := by
      obtain ⟨c, x, hx, hc⟩ := text_head hway hwayne
      simpa [hx, leading] using hc
    have hsegs : segs (text (List.replicate F.length dotdot ++ T)) = List.replicate F.length dotdot ++ T := by
      have hrev : Free (List.replicate F.length dotdot ++ T).reverse := free_reverse hway
      have hjoined := hrev.segs_joined (List.reverse_ne_nil_iff.mpr hwayne)
      rwa [joined_eq_text, List.reverse_reverse] at hjoined
    have hfrom : cd base from_ = (C ++ F).reverse := by rw [← hF, List.reverse_reverse]
    rw [htwo, hone, hrel, cd_relative hlead, hsegs, hfrom, foldl_way hFplain hTplain, hT,
      List.reverse_reverse]

theorem resolve_relative_up :
    resolve [codeUnit '/'] [['a', '/', 'b'].map codeUnit,
      relative [codeUnit '/'] (['a', '/', 'b'].map codeUnit) (['a', 'c'].map codeUnit)] =
      resolve [codeUnit '/'] [['a', 'c'].map codeUnit] :=
  resolve_relative (by decide) _ _

end

end LowJs.Path
