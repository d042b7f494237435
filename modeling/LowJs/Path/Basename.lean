import LowJs.Path.Components

/-!
# `basename` with an extension

The loop compares the end of the path with the extension while it looks for the name.
-/

namespace LowJs.Path

open JSString

section
variable {path front comp pre suf ext : JSString} {n k j low : Nat}

/-- The turns over the code units from `k + j` down to `k`. -/
def extTurns (path ext : JSString) (k : Nat) : Nat → ExtScan → ExtScan
  | 0, s => s
  | j + 1, s => extTurns path ext k j (extTurn path ext (k + j) s)

lemma extLoop_slashes {s : ExtScan} (hs : s.matchedSlash = true)
    (h : ∀ i < j, path[k + i]? = some CHAR_FORWARD_SLASH) :
    extLoop path ext (k + j) s = extLoop path ext k s := by
  induction j with
  | zero => rfl
  | succ j ih =>
    rw [← Nat.add_assoc, extLoop, if_pos (h j (Nat.lt_succ_self j)), if_neg (by simp [hs])]
    exact ih fun i hi => h i (Nat.lt_succ_of_lt hi)

lemma extLoop_units {s : ExtScan} (h : ∀ i < j, path[k + i]? ≠ some CHAR_FORWARD_SLASH) :
    extLoop path ext (k + j) s = extLoop path ext k (extTurns path ext k j s) := by
  induction j generalizing s with
  | zero => rfl
  | succ j ih =>
    rw [← Nat.add_assoc, extLoop, if_neg (h j (Nat.lt_succ_self j)), ih fun i hi => h i (Nat.lt_succ_of_lt hi)]
    rfl

/-- What the turns have compared: the last code units of the component with those of the extension. -/
structure Compared (ext comp : JSString) (k : Nat) (done : JSString) (s : ExtScan) : Prop where
  start_eq : s.start = 0
  matchedSlash_eq : done ≠ [] → s.matchedSlash = false
  first_eq : s.firstNonSlashEnd = if done = [] then -1 else (k + comp.length : Int)
  idx_eq : s.extIdx = if done <:+ ext then (ext.length : Int) - 1 - done.length else -1
  end_eq : s.end_ =
    if ext <:+ done then (k + comp.length : Int) - ext.length
    else if done <:+ ext then -1 else (k + comp.length : Int)

lemma Compared.turn {done : JSString} {c : UInt16} {s : ExtScan} (hs : Compared ext comp k done s)
    (hext : ext ≠ []) (hcomp : comp.length = j + (c :: done).length) (hc : path[k + j]? = some c) :
    Compared ext comp k (c :: done) (extTurn path ext (k + j) s) := by
  have hpos := List.length_pos_iff_ne_nil.mpr hext
  have hlen : comp.length = j + (done.length + 1) := by simpa using hcomp
  -- The first code unit finds the end of the component.
  set t : ExtScan :=
    if s.firstNonSlashEnd = -1 then { s with matchedSlash := false, firstNonSlashEnd := (k + j : Nat) + 1 } else s
    with ht
  have hfirst : t.start = 0 ∧ t.matchedSlash = false ∧ t.firstNonSlashEnd = k + comp.length ∧
      t.extIdx = s.extIdx ∧ t.end_ = s.end_ := by
    by_cases hdone : done = []
    · rw [ht, if_pos (by rw [hs.first_eq, if_pos hdone])]
      refine ⟨hs.start_eq, rfl, ?_, rfl, rfl⟩
      rw [hlen, hdone]
      push_cast
      simp
      ring
    · rw [ht, if_neg (by rw [hs.first_eq, if_neg hdone]; omega)]
      exact ⟨hs.start_eq, hs.matchedSlash_eq hdone, by rw [hs.first_eq, if_neg hdone], rfl, rfl⟩
  obtain ⟨ht1, ht2, ht3, ht4, ht5⟩ := hfirst
  have hturn : extTurn path ext (k + j) s =
      if t.extIdx ≥ 0 then
        if path[k + j]? = ext[t.extIdx.toNat]? then
          if t.extIdx - 1 = -1 then { t with extIdx := t.extIdx - 1, end_ := (k + j : Nat) }
          else { t with extIdx := t.extIdx - 1 }
        else { t with extIdx := -1, end_ := t.firstNonSlashEnd }
      else t := rfl
  have hsub : c :: done <:+ ext → done <:+ ext := fun h => (List.suffix_cons c done).trans h
  by_cases hlt : done <:+ ext ∧ done.length < ext.length
  · obtain ⟨⟨front, hfront⟩, hless⟩ := hlt
    have hidx : t.extIdx = ext.length - 1 - done.length := by
      rw [ht4, hs.idx_eq, if_pos ⟨front, hfront⟩]
    have hnot : ¬ext <:+ done := fun h => by
      have := h.length_le
      omega
    have hend : t.end_ = -1 := by rw [ht5, hs.end_eq, if_neg hnot, if_pos ⟨front, hfront⟩]
    have hflen : ext.length = front.length + done.length := by rw [← hfront, List.length_append]
    obtain ⟨f, d, rfl⟩ : ∃ f d, front = f ++ [d] :=
      (List.eq_nil_or_concat' front).resolve_left (by rintro rfl; simp at hflen; omega)
    rw [List.length_append, List.length_singleton] at hflen
    have hat : ext[t.extIdx.toNat]? = some d := by
      have hto : t.extIdx.toNat = f.length := by omega
      rw [hto, ← hfront]
      simp
    have hiff : c :: done <:+ ext ↔ c = d := by
      constructor
      · rintro ⟨g, hg⟩
        rw [← hfront, List.append_assoc] at hg
        have := List.append_inj' hg (by simp)
        exact (List.cons.inj this.2).1
      · rintro rfl
        exact ⟨f, by rw [← hfront]; simp⟩
    rw [hturn, if_pos (by omega), hc, hat]
    by_cases hcd : c = d
    · have hsuf := hiff.mpr hcd
      rw [if_pos (by rw [hcd])]
      by_cases hlast : t.extIdx - 1 = -1
      · have heq : c :: done = ext := hsuf.eq_of_length (by simp; omega)
        rw [if_pos hlast]
        refine ⟨ht1, fun _ => ht2, by rw [if_neg (List.cons_ne_nil _ _)]; exact ht3, ?_, ?_⟩
        · rw [if_pos hsuf]
          simp
          omega
        · rw [if_pos (by rw [heq])]
          simp
          omega
      · have hlong : ¬ext <:+ c :: done := fun h => by
          have := h.length_le
          simp at this
          omega
        rw [if_neg hlast]
        refine ⟨ht1, fun _ => ht2, by rw [if_neg (List.cons_ne_nil _ _)]; exact ht3, ?_, ?_⟩
        · rw [if_pos hsuf]
          simp
          omega
        · rw [if_neg hlong, if_pos hsuf]
          exact hend
    · have hsuf : ¬c :: done <:+ ext := fun h => hcd (hiff.mp h)
      have hlong : ¬ext <:+ c :: done := fun h => by
        have hle := h.length_le
        simp at hle
        exact hsuf (h.eq_of_length (by simp; omega) ▸ List.suffix_rfl)
      rw [if_neg (by simpa using hcd)]
      refine ⟨ht1, fun _ => ht2, by rw [if_neg (List.cons_ne_nil _ _)]; exact ht3, ?_, ?_⟩
      · rw [if_neg hsuf]
      · rw [if_neg hlong, if_neg hsuf]
        exact ht3
  · -- The comparison is over.
    have hidx : t.extIdx = -1 := by
      rw [ht4, hs.idx_eq]
      split_ifs with hsuf
      · have hle := hsuf.length_le
        have : ¬done.length < ext.length := fun h => hlt ⟨hsuf, h⟩
        omega
      · rfl
    have hsuf : ¬c :: done <:+ ext := fun h => by
      have hle := h.length_le
      simp at hle
      exact hlt ⟨hsub h, by omega⟩
    have hiff : ext <:+ c :: done ↔ ext <:+ done := by
      rw [List.suffix_cons_iff]
      exact ⟨fun h => h.resolve_left fun heq => hsuf (heq ▸ List.suffix_rfl), .inr⟩
    have hdone : ¬ext <:+ done → ¬done <:+ ext := fun hnot hd => by
      have hle := hd.length_le
      have : ¬done.length < ext.length := fun h => hlt ⟨hd, h⟩
      exact hnot (hd.eq_of_length (by omega) ▸ List.suffix_rfl)
    rw [hturn, if_neg (by omega)]
    refine ⟨ht1, fun _ => ht2, by rw [if_neg (List.cons_ne_nil _ _)]; exact ht3, ?_, ?_⟩
    · rw [if_neg hsuf]
      exact hidx
    · rw [ht5, hs.end_eq, if_neg hsuf]
      by_cases hd : ext <:+ done
      · rw [if_pos hd, if_pos (hiff.mpr hd)]
      · rw [if_neg hd, if_neg (hdone hd), if_neg fun h => hd (hiff.mp h)]

lemma Compared.turns {s : ExtScan} (hext : ext ≠ []) (hj : j ≤ comp.length)
    (hunit : ∀ i < j, path[k + i]? = comp[i]?) (hs : Compared ext comp k (comp.drop j) s) :
    Compared ext comp k comp (extTurns path ext k j s) := by
  induction j generalizing s with
  | zero =>
    rw [List.drop_zero] at hs
    exact hs
  | succ j ih =>
    have hdrop : comp.drop j = comp[j] :: comp.drop (j + 1) := List.drop_eq_getElem_cons hj
    have hc : path[k + j]? = some comp[j] := by
      rw [hunit j (Nat.lt_succ_self j), List.getElem?_eq_getElem hj]
    have hlen : comp.length = j + (comp[j] :: comp.drop (j + 1)).length := by
      rw [← hdrop, List.length_drop]
      omega
    refine ih (Nat.le_of_succ_le hj) (fun i hi => hunit i (Nat.lt_succ_of_lt hi)) ?_
    rw [hdrop]
    exact hs.turn hext hlen hc

/-- What the loop finds. -/
lemma Split.extLoop_eq (h : Split path front comp n) (hext : ext ≠ []) :
    ∃ s : ExtScan, Compared ext comp front.length comp s ∧
      extLoop path ext path.length ⟨0, -1, true, (ext.length : Int) - 1, -1⟩ =
        { s with start := front.length } := by
  have hstart : Compared ext comp front.length (comp.drop comp.length)
      ⟨0, -1, true, (ext.length : Int) - 1, -1⟩ := by
    rw [List.drop_length]
    refine ⟨rfl, fun h => absurd rfl h, rfl, ?_, ?_⟩
    · rw [if_pos (List.nil_suffix)]
      simp
    · rw [if_neg (by simpa using hext), if_pos (List.nil_suffix)]
  have hall := Compared.turns hext (le_refl _) (fun i hi => h.unit hi) hstart
  refine ⟨_, hall, ?_⟩
  rw [h.length_eq, extLoop_slashes rfl fun i hi => h.slash hi, extLoop_units fun i hi => h.unit_ne hi]
  set s := extTurns path ext front.length comp.length ⟨0, -1, true, (ext.length : Int) - 1, -1⟩
  have hs : ∀ {x : Int}, x = s.start → s = { s with start := x } := fun hx => by rw [hx]
  have hm := hall.matchedSlash_eq h.comp_ne
  cases hk : front.length with
  | zero =>
    rw [extLoop]
    exact hs hall.start_eq.symm
  | succ k =>
    rw [extLoop, if_pos (h.front_slash hk), if_pos (by rw [hm]; rfl)]
    simp

lemma Split.slice_end (h : Split path front comp n) :
    path.slice front.length path.length = comp ++ List.replicate n CHAR_FORWARD_SLASH := by
  rw [JSString.slice, List.take_length, h.path_eq, List.drop_left]

lemma Split.slice_take (h : Split path front comp n) {m : Nat} (hm : m ≤ comp.length) :
    path.slice front.length (front.length + m) = comp.take m := by
  have := h.slice (i := 0) hm
  simpa [JSString.slice] using this

/-- The end of the name when an extension is asked for. -/
lemma Split.basename_ext (h : Split path front comp n) (hext : ext ≠ []) (hle : ext.length ≤ path.length)
    (hne : ext ≠ path) :
    basename path (some ext) =
      if ext <:+ comp ∧ ext ≠ comp then comp.take (comp.length - ext.length)
      else if comp <:+ ext ∧ ext ≠ comp then comp ++ List.replicate n CHAR_FORWARD_SLASH
      else comp := by
  have hpos := List.length_pos_iff_ne_nil.mpr hext
  have hcpos := List.length_pos_iff_ne_nil.mpr h.comp_ne
  have hfilter : (some ext).filter (fun ext => 0 < ext.length && ext.length ≤ path.length) = some ext := by
    simp [hpos, hle]
  obtain ⟨s, hs, hloop⟩ := h.extLoop_eq hext
  have hfirst := hs.first_eq
  have hend := hs.end_eq
  rw [if_neg h.comp_ne] at hfirst
  have hto : (front.length : Int).toNat = front.length := Int.toNat_natCast _
  have htoc : (front.length + comp.length : Int).toNat = front.length + comp.length := by omega
  have hslice : basename path (some ext) = path.slice front.length
      (if (front.length : Int) = s.end_ then (front.length + comp.length : Int)
        else if s.end_ = -1 then (path.length : Int) else s.end_).toNat := by
    rw [basename, hfilter]
    simp only [hloop, hfirst, hne, decide_false, Bool.and_false, Bool.false_eq_true, if_false, hto]
  by_cases hsuf : ext <:+ comp
  · rw [if_pos hsuf] at hend
    have hlen := hsuf.length_le
    by_cases heq : ext = comp
    · rw [if_neg fun hand => hand.2 heq, if_neg fun hand => hand.2 heq, hslice, hend, heq,
        if_pos (by omega), htoc]
      exact h.slice_comp
    · have hlt : ext.length < comp.length := lt_of_le_of_ne hlen fun hl => heq (hsuf.eq_of_length hl)
      have htake : (front.length + comp.length - ext.length : Int).toNat =
          front.length + (comp.length - ext.length) := by omega
      rw [if_pos ⟨hsuf, heq⟩, hslice, hend, if_neg (by omega), if_neg (by omega), htake]
      exact h.slice_take (Nat.sub_le _ _)
  · rw [if_neg hsuf] at hend
    rw [if_neg fun hand => hsuf hand.1]
    by_cases hrev : comp <:+ ext
    · rw [if_pos hrev] at hend
      rw [if_pos ⟨hrev, fun heq => hsuf (heq ▸ List.suffix_rfl)⟩, hslice, hend, if_neg (by omega),
        if_pos rfl, Int.toNat_natCast]
      exact h.slice_end
    · rw [if_neg hrev] at hend
      rw [if_neg fun hand => hrev hand.1, hslice, hend, if_neg (by omega), if_neg (by omega), htoc]
      exact h.slice_comp

lemma Split.trailing (h : Split path front comp n) :
    path.rtakeWhile (· == CHAR_FORWARD_SLASH) = List.replicate n CHAR_FORWARD_SLASH := by
  obtain ⟨body, c, rfl⟩ := (List.eq_nil_or_concat' comp).resolve_left h.comp_ne
  have hc : c ≠ CHAR_FORWARD_SLASH := fun heq => h.comp_free (by simp [heq])
  rw [h.path_eq, List.rtakeWhile]
  simp [hc]

lemma extLoop_all (s : ExtScan) (hs : s.matchedSlash = true) :
    extLoop (List.replicate n CHAR_FORWARD_SLASH) ext n s = s := by
  have hloop : extLoop (List.replicate n CHAR_FORWARD_SLASH) ext (0 + n) s =
      extLoop (List.replicate n CHAR_FORWARD_SLASH) ext 0 s := extLoop_slashes hs fun i hi => by simp [hi]
  rwa [Nat.zero_add] at hloop

end

end LowJs.Path
