import LowJs.Core.Whiles
import Mathlib

/-!
# The stash

`low_add_stash`, `low_remove_stash` and `low_push_stash` of low_main.cpp keep values for native code under
ids. An id is found by counting on from the last one, behind the largest `int` from 1 on again, over the ids
that are in use. No value is stored while the engine is being stopped, and `undefined` is none: the id is 0.
-/

namespace LowJs.Stash

variable {α : Type*}

/-- `stash` is the object `low` in the stash of the heap. -/
structure Low (α : Type*) where
  stash : Int → Option α
  last_stash_index : Int
  duk_flag_stop : Bool

def init : Low α := ⟨fun _ => none, 0, false⟩

/-- The largest `int`. -/
def INT_MAX : Int := 2 ^ 31 - 1

/-- `++low->last_stash_index`, which starts again where it is not positive any more. -/
def nextIndex (last : Int) : Int :=
  let stashIndex := (last + 1).bmod (2 ^ 32)
  if stashIndex ≤ 0 then 1 else stashIndex

/-- A round of the search. -/
def searchRound (stash : Int → Option α) (last : Int) : Int ⊕ Int :=
  if (stash (nextIndex last)).isSome then .inl (nextIndex last) else .inr (nextIndex last)

/-- The value is stored under `i`. -/
def Low.store (s : Low α) (i : Int) (v : α) : Low α :=
  { s with stash := Function.update s.stash i (some v), last_stash_index := i }

/-- `low_add_stash` for a value, which is `none` if it is `undefined`; `none` where the rounds of the search
are not enough. -/
def low_add_stash (fuel : Nat) (s : Low α) (value : Option α) : Option (Low α × Int) :=
  if s.duk_flag_stop then some (s, 0)
  else
    match value with
    | none => some (s, 0)
    | some v => (While.exec (searchRound s.stash) fuel s.last_stash_index).map fun i => (s.store i v, i)

def low_remove_stash (s : Low α) (index : Int) : Low α :=
  if index = 0 then s else { s with stash := Function.update s.stash index none }

/-- `low_push_stash`, with the value it pushes. -/
def low_push_stash (s : Low α) (index : Int) (remove : Bool) : Option α × Low α :=
  (s.stash index, if remove then { s with stash := Function.update s.stash index none } else s)

/-- What happens to the stash; `stop` is the stop of the engine. -/
inductive Step (s : Low α) : Low α → Prop
  | add {fuel : Nat} {value : Option α} {t : Low α} {id : Int} (h : low_add_stash fuel s value = some (t, id)) :
      Step s t
  | remove (index : Int) : Step s (low_remove_stash s index)
  | push (index : Int) (remove : Bool) : Step s (low_push_stash s index remove).2
  | stop : Step s { s with duk_flag_stop := true }

/-- The states of a run. -/
inductive Reached : Low α → Prop
  | init : Reached init
  | step {s t : Low α} (h : Reached s) (hst : Step s t) : Reached t

variable {s t : Low α} {id : Int} {fuel : Nat} {value : Option α}

/-! ### The search -/

lemma nextIndex_eq {last : Int} (hlow : 0 ≤ last) (hhigh : last < INT_MAX) : nextIndex last = last + 1 := by
  have hmax : INT_MAX = 2 ^ 31 - 1 := rfl
  have hwrap : (last + 1).bmod (2 ^ 32) = last + 1 := by
    refine Int.bmod_eq_of_le ?_ ?_ <;> omega
  rw [nextIndex, hwrap, if_neg (by omega)]

/-- The id behind the largest `int` is 1. -/
lemma nextIndex_max : nextIndex INT_MAX = 1 := by decide

lemma nextIndex_pos (last : Int) : 0 < nextIndex last := by
  rw [nextIndex]
  split <;> omega

lemma nextIndex_le (last : Int) : nextIndex last ≤ INT_MAX := by
  have hmax : INT_MAX = 2 ^ 31 - 1 := rfl
  have hlt := Int.bmod_lt (x := last + 1) (m := 2 ^ 32) (by decide)
  rw [nextIndex]
  split <;> omega

/-- What a search finds is positive and free. -/
lemma returns_search {stash : Int → Option α} {last : Int} (h : While.Returns (searchRound stash) last id) :
    0 < id ∧ id ≤ INT_MAX ∧ stash id = none := by
  obtain ⟨fuel, hfuel⟩ := h
  induction fuel generalizing last with
  | zero => exact absurd hfuel nofun
  | succ fuel ih =>
    by_cases hused : (stash (nextIndex last)).isSome = true
    · rw [While.exec_succ_inl (by rw [searchRound, if_pos hused])] at hfuel
      exact ih hfuel
    · rw [While.exec_succ_inr (by rw [searchRound, if_neg hused])] at hfuel
      obtain rfl := Option.some.inj hfuel
      exact ⟨nextIndex_pos last, nextIndex_le last, by simpa using hused⟩

/-- A search ends if it ends behind an id that is in use. -/
lemma search_of_next {stash : Int → Option α} {last : Int}
    (h : (stash (nextIndex last)).isSome = true → ∃ id, While.Returns (searchRound stash) (nextIndex last) id) :
    ∃ id, While.Returns (searchRound stash) last id := by
  by_cases hused : (stash (nextIndex last)).isSome = true
  · obtain ⟨id, hid⟩ := h hused
    exact ⟨id, (While.returns_inl (by rw [searchRound, if_pos hused])).mpr hid⟩
  · exact ⟨nextIndex last, (While.returns_inr (by rw [searchRound, if_neg hused])).mpr rfl⟩

/-- A search that begins in front of a free id ends. -/
lemma search_before {stash : Int → Option α} {free : Int} (hfree : stash free = none) (hmax : free ≤ INT_MAX)
    {last : Int} (hlow : 0 ≤ last) (hlt : last < free) : ∃ id, While.Returns (searchRound stash) last id := by
  -- induction on the distance to the free id
  obtain ⟨left, hleft⟩ := Int.eq_ofNat_of_zero_le (show 0 ≤ free - last - 1 by omega)
  induction left generalizing last with
  | zero =>
    refine search_of_next fun hused => ?_
    have hnext : nextIndex last = free := by
      rw [nextIndex_eq hlow (by omega)]
      omega
    rw [hnext, hfree] at hused
    exact absurd hused Bool.false_ne_true
  | succ left ih =>
    refine search_of_next fun _ => ?_
    rw [nextIndex_eq hlow (by omega)]
    exact ih (by omega) (by omega) (by omega)

/-- A search from an id on goes around. -/
lemma search_around {stash : Int → Option α} {free : Int} (hfree : stash free = none) (hpos : 0 < free)
    (hmax : free ≤ INT_MAX) {last : Int} (hlow : 0 ≤ last) (hle : last ≤ INT_MAX) :
    ∃ id, While.Returns (searchRound stash) last id := by
  obtain ⟨left, hleft⟩ := Int.eq_ofNat_of_zero_le (show 0 ≤ INT_MAX - last by omega)
  induction left generalizing last with
  | zero =>
    obtain rfl : last = INT_MAX := by omega
    refine search_of_next fun hused => ?_
    rw [nextIndex_max] at hused ⊢
    refine search_before hfree hmax (by omega) (lt_of_le_of_ne (by omega) ?_)
    rintro rfl
    rw [hfree] at hused
    exact Bool.false_ne_true hused
  | succ left ih =>
    refine search_of_next fun _ => ?_
    rw [nextIndex_eq hlow (by omega)]
    exact ih (by omega) (by omega) (by omega)

/-- A search ends if a positive id is free. -/
lemma search_ends {stash : Int → Option α} {free : Int} (hfree : stash free = none) (hpos : 0 < free)
    (hmax : free ≤ INT_MAX) (last : Int) : ∃ id, While.Returns (searchRound stash) last id :=
  search_of_next fun _ => search_around hfree hpos hmax (nextIndex_pos last).le (nextIndex_le last)

/-! ### The functions -/

lemma add_refused (h : s.duk_flag_stop = true ∨ value = none) : low_add_stash fuel s value = some (s, 0) := by
  rw [low_add_stash.eq_def]
  obtain hstop | rfl := h
  · rw [if_pos hstop]
  · split <;> rfl

lemma add_some (hstop : s.duk_flag_stop = false) {v : α} (h : low_add_stash fuel s (some v) = some (t, id)) :
    While.Returns (searchRound s.stash) s.last_stash_index id ∧ t = s.store id v := by
  rw [low_add_stash, if_neg (by rw [hstop]; exact Bool.false_ne_true)] at h
  obtain ⟨i, hi, hpair⟩ := Option.map_eq_some_iff.mp h
  obtain ⟨rfl, rfl⟩ := Prod.mk.inj hpair
  exact ⟨⟨fuel, hi⟩, rfl⟩

/-- What `low_add_stash` has to do for a value. -/
structure Added (s t : Low α) (v : α) (id : Int) : Prop where
  pos : 0 < id
  le : id ≤ INT_MAX
  free : s.stash id = none
  stored : t.stash id = some v
  others : ∀ j, j ≠ id → t.stash j = s.stash j

lemma added_of_add (hstop : s.duk_flag_stop = false) {v : α}
    (h : low_add_stash fuel s (some v) = some (t, id)) : Added s t v id := by
  obtain ⟨hreturns, rfl⟩ := add_some hstop h
  obtain ⟨hpos, hle, hfree⟩ := returns_search hreturns
  refine ⟨hpos, hle, hfree, ?_, fun j hj => ?_⟩
  · exact Function.update_self id (some v) s.stash
  · exact Function.update_of_ne hj (some v) s.stash

lemma add_ends (s : Low α) (value : Option α) {free : Int} (hfree : s.stash free = none) (hpos : 0 < free)
    (hmax : free ≤ INT_MAX) : ∃ fuel t id, low_add_stash fuel s value = some (t, id) := by
  by_cases hstop : s.duk_flag_stop = true
  · exact ⟨0, s, 0, add_refused (Or.inl hstop)⟩
  cases value with
  | none => exact ⟨0, s, 0, add_refused (Or.inr rfl)⟩
  | some v =>
    obtain ⟨id, fuel, hfuel⟩ := search_ends hfree hpos hmax s.last_stash_index
    refine ⟨fuel, s.store id v, id, ?_⟩
    rw [low_add_stash, if_neg hstop, hfuel]
    rfl

/-- An entry is taken out, and no other one is touched. -/
structure Removed (s t : Low α) (index : Int) : Prop where
  gone : t.stash index = none
  others : ∀ j, j ≠ index → t.stash j = s.stash j

lemma removed_update (s : Low α) (index : Int) :
    Removed s { s with stash := Function.update s.stash index none } index :=
  ⟨Function.update_self index none s.stash, fun _ hj => Function.update_of_ne hj none s.stash⟩

/-! ### Runs -/

/-- The ids in the stash are positive `int`s. -/
def Positive (s : Low α) : Prop := ∀ j, (s.stash j).isSome = true → 0 < j ∧ j ≤ INT_MAX

lemma Positive.removed (h : Positive s) {index : Int} (hremoved : Removed s t index) : Positive t := by
  intro j hj
  by_cases hji : j = index
  · rw [hji, hremoved.gone] at hj
    exact absurd hj Bool.false_ne_true
  · rw [hremoved.others j hji] at hj
    exact h j hj

lemma Positive.step (h : Positive s) (hst : Step s t) : Positive t := by
  cases hst with
  | @add fuel value _ id hadd =>
    by_cases hrefused : s.duk_flag_stop = true ∨ value = none
    · rw [add_refused hrefused] at hadd
      obtain ⟨rfl, -⟩ := Prod.mk.inj (Option.some.inj hadd)
      exact h
    · obtain ⟨hstop, hvalue⟩ := not_or.mp hrefused
      obtain ⟨v, rfl⟩ := Option.ne_none_iff_exists'.mp hvalue
      have hadded := added_of_add (by simpa using hstop) hadd
      intro j hj
      by_cases hji : j = id
      · rw [hji]
        exact ⟨hadded.pos, hadded.le⟩
      · rw [hadded.others j hji] at hj
        exact h j hj
  | remove index =>
    rw [low_remove_stash]
    split
    · exact h
    · exact h.removed (removed_update s index)
  | push index remove =>
    rw [low_push_stash]
    cases remove with
    | false => exact h
    | true => exact h.removed (removed_update s index)
  | stop => exact h

lemma Reached.positive (h : Reached s) : Positive s := by
  induction h with
  | init => exact fun _ hj => absurd hj Bool.false_ne_true
  | step _ hst ih => exact ih.step hst

/-- What holds of the three functions in a state: ids in use are positive, a search ends if a positive id is
free, a value gets an id that was free and nothing else changes, and entries are taken out one by one; 0 is
the id for no value, and while the engine is being stopped. -/
structure Sound (s : Low α) : Prop where
  positive : Positive s
  ends : ∀ value, (∃ free, s.stash free = none ∧ 0 < free ∧ free ≤ INT_MAX) →
    ∃ fuel t id, low_add_stash fuel s value = some (t, id)
  add : ∀ fuel v t id, s.duk_flag_stop = false → low_add_stash fuel s (some v) = some (t, id) → Added s t v id
  refused : ∀ fuel value t id, s.duk_flag_stop = true ∨ value = none →
    low_add_stash fuel s value = some (t, id) → t = s ∧ id = 0
  remove : ∀ index, index ≠ 0 → Removed s (low_remove_stash s index) index
  pop : ∀ index, (low_push_stash s index true).1 = s.stash index ∧
    Removed s (low_push_stash s index true).2 index
  push : ∀ index, low_push_stash s index false = (s.stash index, s)

theorem reached_sound : ∀ s : Low α, Reached s → Sound s := by
  intro s h
  refine ⟨h.positive, fun value hfree => ?_, fun fuel v t id hstop => added_of_add hstop,
    fun fuel value t id hrefused hadd => ?_, fun index hindex => ?_,
    fun index => ⟨rfl, removed_update s index⟩, fun index => rfl⟩
  · obtain ⟨free, hfree, hpos, hmax⟩ := hfree
    exact add_ends s value hfree hpos hmax
  · rw [add_refused hrefused] at hadd
    obtain ⟨rfl, rfl⟩ := Prod.mk.inj (Option.some.inj hadd)
    exact ⟨rfl, rfl⟩
  · rw [low_remove_stash, if_neg hindex]
    exact removed_update s index

/-- After the largest `int` the search goes on at 1, and passes over what is in use. -/
def wrapped : Low Nat := ⟨Function.update (fun _ => none) 1 (some 5), INT_MAX, false⟩

example : (low_add_stash 2 wrapped (some 7)).map Prod.snd = some 2 := by decide

theorem reached_sound_store : Sound ((init : Low Nat).store 1 5) :=
  reached_sound _ (.step .init (.add (show low_add_stash 1 init (some 5) = some (_, 1) from rfl)))

/-- The id for `undefined` is not positive. -/
theorem add_undefined : ¬∀ value : Option Nat, ∀ fuel t id,
    low_add_stash fuel (init : Low Nat) value = some (t, id) → 0 < id := by
  intro h
  exact absurd (h none 0 init 0 rfl) (by decide)

end LowJs.Stash
