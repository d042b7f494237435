import LowJs.Collections.Collection
import LowJs.Core.Simulation

/-!
# Collections and lists with holes

What a collection is for: a list of entries that only grows, where a deletion leaves a hole and an iterator
goes on from a place of the list. The arrays of a collection are the list without its holes, and the pointer
of an iterator is the rank of its place, as long as `clear` is not called under an iterator that has moved and
a finished iterator is not asked again while another one is under way.
-/

namespace LowJs.Collections

variable {α : Type*} [JSValue α]

open JSValue (strictEq)

section
variable {a b c : α}

@[simp] lemma is_refl (a : α) : is a a := by
  cases h : strictEq a a <;> simp [is, h]

lemma is_symm (h : is a b) : is b a := by
  simp only [is, Bool.or_eq_true, Bool.and_eq_true, Bool.not_eq_true'] at h ⊢
  exact h.imp JSValue.symm And.symm

lemma is_trans (hab : is a b) (hbc : is b c) : is a c := by
  simp only [is, Bool.or_eq_true, Bool.and_eq_true, Bool.not_eq_true'] at hab hbc ⊢
  rcases hab with hab | ⟨ha, hb⟩
  · rcases hbc with hbc | ⟨hb, -⟩
    · exact .inl (JSValue.trans hab hbc)
    · exact absurd (JSValue.trans (JSValue.symm hab) hab) (by simp [hb])
  · rcases hbc with hbc | ⟨-, hc⟩
    · exact absurd (JSValue.trans hbc (JSValue.symm hbc)) (by simp [hb])
    · exact .inr ⟨ha, hc⟩

lemma is_eq_strictEq (h : strictEq b b) : is a b = strictEq a b := by
  simp [is, h]

end

/-- No two of the keys are the same. -/
def Distinct (list : List α) : Prop := list.Pairwise fun a b => ¬ is a b

section
variable {list : List α} {key x y : α} {i j n : Nat}

lemma Distinct.index_eq (h : Distinct list) (hi : list[i]? = some x) (hj : list[j]? = some y)
    (hx : is x key) (hy : is y key) : i = j := by
  obtain ⟨hi', rfl⟩ := List.getElem?_eq_some_iff.mp hi
  obtain ⟨hj', rfl⟩ := List.getElem?_eq_some_iff.mp hj
  have hp := List.pairwise_iff_getElem.mp h
  rcases lt_trichotomy i j with hlt | heq | hgt
  · exact absurd (is_trans hx (is_symm hy)) (hp i j hi' hj' hlt)
  · exact heq
  · exact absurd (is_trans hy (is_symm hx)) (hp j i hj' hi' hgt)

lemma Distinct.findIdx?_iff (h : Distinct list) :
    list.findIdx? (is · key) = some i ↔ ∃ x, list[i]? = some x ∧ is x key := by
  constructor
  · intro hi
    obtain ⟨hlt, his, -⟩ := List.findIdx?_eq_some_iff_getElem.mp hi
    exact ⟨_, List.getElem?_eq_getElem hlt, his⟩
  · rintro ⟨x, hx, his⟩
    cases hf : list.findIdx? (is · key) with
    | none =>
      rw [List.findIdx?_eq_none_iff] at hf
      simp [hf x (List.mem_of_getElem? hx)] at his
    | some k =>
      obtain ⟨hlt, hk, -⟩ := List.findIdx?_eq_some_iff_getElem.mp hf
      rw [h.index_eq (List.getElem?_eq_getElem hlt) hx hk his]

lemma lastIndex_some (h : lastIndex list key n = some i) : ∃ x, list[i]? = some x ∧ is x key := by
  induction n with
  | zero => cases h
  | succ n ih =>
    unfold lastIndex at h
    split_ifs at h with hn
    · cases h
      rwa [Option.any_eq_true] at hn
    · exact ih h

lemma lastIndex_none (h : lastIndex list key n = none) (hi : i < n) (hx : list[i]? = some x) :
    ¬ is x key := by
  induction n with
  | zero => omega
  | succ n ih =>
    unfold lastIndex at h
    split_ifs at h with hn
    rcases Nat.lt_succ_iff_lt_or_eq.mp hi with hlt | rfl
    · exact ih h hlt
    · simpa [hx] using hn

/-- Both searches of `has` find the key where it is. -/
lemma has_eq (h : Distinct list) (proto : Proto) (key : α) :
    has proto list key =
      if proto.objectOnly && !JSValue.isObject key then .error ()
      else .ok (list.findIdx? (is · key)) := by
  unfold has
  split_ifs with hobject hspecial
  · rfl
  · congr 1
    cases hl : lastIndex list key list.length with
    | some i => rw [h.findIdx?_iff.mpr (lastIndex_some hl)]
    | none =>
      symm
      rw [List.findIdx?_eq_none_iff]
      intro x hx
      obtain ⟨i, hi, rfl⟩ := List.getElem_of_mem hx
      simpa using lastIndex_none hl hi (List.getElem?_eq_getElem hi)
  · have hself : strictEq key key := by
      simp only [Bool.or_eq_true, not_or, Bool.not_eq_true, Bool.not_eq_false'] at hspecial
      exact hspecial.1
    rw [indexOf]
    simp only [is_eq_strictEq hself]

end

/-- An iterator as the place from which it goes on. -/
structure Cursor where
  index : Nat
  done : Bool
  arrays : Arrays
  deriving DecidableEq, Repr

/-- The entries that have been made, with holes for those that are gone, and the iterators. -/
structure Data (α : Type*) where
  entries : List (Option (α × α))
  cursors : List Cursor

namespace Data

def new : Data α := ⟨[], []⟩

def live (d : Data α) : List (α × α) := d.entries.reduceOption

/-- The place of a key. -/
def find (d : Data α) (key : α) : Option Nat := d.entries.findIdx? fun e => e.any fun e => is e.1 key

def entry (d : Data α) (k : Nat) : Option (α × α) := d.entries[k]?.join

/-- What an iterator gives of an entry. -/
def give (arrays : Arrays) (e : Option (α × α)) : Yield α :=
  match arrays with
  | .keys => .one (e.map Prod.fst)
  | .values => .one (e.map Prod.snd)
  | .mapEntries => .pair (e.map Prod.fst) (e.map Prod.snd)
  | .setEntries => .pair (e.map Prod.snd) (e.map Prod.snd)

def put (d : Data α) (k : Option Nat) (key value : α) : Data α :=
  match k with
  | some k => { d with entries := d.entries.set k ((d.entry k).map fun e => (e.1, value)) }
  | none => { d with entries := d.entries ++ [some (key, value)] }

/-- The place that an iterator gives next. -/
def place (d : Data α) (it : Cursor) : Option Nat :=
  if it.done then none else Slots.next d.entries it.index

def next (d : Data α) (j : Nat) : Data α × Answer α :=
  match d.cursors[j]? with
  | none => (d, .typeError)
  | some it =>
    match d.place it with
    | some k => ({ d with cursors := d.cursors.set j { it with index := k + 1 } },
        .result false (some (give it.arrays (d.entry k))))
    | none => ({ d with cursors := d.cursors.set j { it with done := true } }, .result true none)

def iterator (d : Data α) (arrays : Arrays) : Data α × Answer α :=
  ({ d with cursors := d.cursors ++ [⟨0, false, arrays⟩] }, .iterator d.cursors.length)

/-- A weak collection refuses keys that are no objects. -/
def withKey (proto : Proto) (d : Data α) (key : α) (f : Option Nat → Data α × Answer α) :
    Data α × Answer α :=
  if proto.objectOnly && !JSValue.isObject key then (d, .typeError) else f (d.find key)

/-- What a call does. -/
def call (proto : Proto) (d : Data α) (op : Op α) : Data α × Answer α :=
  if !proto.has op then (d, .typeError)
  else
    match op with
    | .get key => d.withKey proto key fun k => (d, .value (k.bind fun k => (d.entry k).map Prod.snd))
    | .has key => d.withKey proto key fun k => (d, .bool k.isSome)
    | .set key value => d.withKey proto key fun k => (d.put k key value, .this)
    | .add value => d.withKey proto value fun k => (if k.isSome then d else d.put none value value, .this)
    | .delete key => d.withKey proto key fun k =>
        ({ d with entries := k.elim d.entries fun k => d.entries.set k none }, .bool k.isSome)
    | .clear => ({ d with entries := d.entries.map fun _ => none }, .value none)
    | .size => if proto.objectOnly then (d, .value none) else (d, .number d.live.length)
    | .keys => d.iterator (if proto.isMap then .keys else .values)
    | .values => d.iterator .values
    | .entries => d.iterator (if proto.isMap then .mapEntries else .setEntries)
    | .next j => d.next j

end Data

/-- The pointer of an iterator is the rank of its place. -/
structure Follows (proto : Proto) (entries : List (Option (α × α))) (it : Iter) (cur : Cursor) : Prop where
  done : it.done = cur.done
  arrays : it.arrays = cur.arrays
  fits : it.arrays = .values ∨ if proto.isMap then it.arrays ≠ .setEntries else it.arrays = .setEntries
  bound : cur.index ≤ entries.length
  p : it.done = false → it.p = Slots.rank entries cur.index

/-- The arrays are the entries without the holes, and `_itp` has the pointers of the iterators that are under
way. -/
structure Refines (proto : Proto) (c : Collection α) (d : Data α) : Prop where
  keys : c.keys = if proto.isMap then d.live.map Prod.fst else []
  values : c.values = d.live.map Prod.snd
  distinct : Distinct (d.live.map Prod.fst)
  same : proto.isMap = false → ∀ e ∈ d.live, e.1 = e.2
  itpNodup : c.itp.Nodup
  mem_itp : ∀ j, j ∈ c.itp ↔ ∃ it, c.iters[j]? = some it ∧ it.done = false
  length : c.iters.length = d.cursors.length
  follows : ∀ (j : Nat) it cur, c.iters[j]? = some it → d.cursors[j]? = some cur → Follows proto d.entries it cur

/-- `clear` is called where no iterator under way has moved, a finished iterator is asked again where none is
under way. -/
def Orderly (c : Collection α) : Op α → Prop
  | .clear => ∀ it ∈ c.iters, it.done = false → it.p = 0
  | .next j => ∀ it ∈ c.iters[j]?, it.done → ∀ it ∈ c.iters, it.done
  | _ => True

instance (c : Collection α) : ∀ op, Decidable (Orderly c op)
  | .clear => inferInstanceAs (Decidable (∀ it ∈ c.iters, it.done = false → it.p = 0))
  | .next j => inferInstanceAs (Decidable (∀ it ∈ c.iters[j]?, it.done → ∀ it ∈ c.iters, it.done))
  | .get _ | .has _ | .set .. | .add _ | .delete _ | .size | .keys | .values | .entries => isTrue trivial

section
variable {proto : Proto} {c : Collection α} {d : Data α} {key value : α} {k j i : Nat}

lemma Data.find_some (h : d.find key = some k) :
    ∃ e, d.entries[k]? = some (some e) ∧ is e.1 key := by
  obtain ⟨hlt, hany, -⟩ := List.findIdx?_eq_some_iff_getElem.mp h
  obtain ⟨e, he, his⟩ := Option.any_eq_true _ _ |>.mp hany
  exact ⟨e, by rw [List.getElem?_eq_getElem hlt, he], his⟩

lemma Data.find_none (h : d.find key = none) : ∀ e ∈ d.live, ¬ is e.1 key := by
  intro e he
  rw [Data.live, List.reduceOption_mem_iff] at he
  simpa using List.findIdx?_eq_none_iff.mp h _ he

omit [JSValue α] in
lemma Data.entry_eq {e : α × α} (h : d.entries[k]? = some (some e)) : d.entry k = some e := by
  simp [Data.entry, h]

lemma Refines.list_eq (h : Refines proto c d) :
    (if proto.isMap then c.keys else c.values) = d.live.map Prod.fst := by
  split_ifs with hm
  · rw [h.keys, if_pos hm]
  · rw [h.values]
    exact List.map_congr_left fun e he => (h.same (by simpa using hm) e he).symm

/-- The index that `has` finds is the rank of the place of the key. -/
lemma Refines.protoHas_eq (h : Refines proto c d) (key : α) :
    c.protoHas proto key =
      if proto.objectOnly && !JSValue.isObject key then .error ()
      else .ok ((d.find key).map (Slots.rank d.entries)) := by
  rw [Collection.protoHas, h.list_eq, has_eq h.distinct]
  congr 2
  cases hf : d.find key with
  | some k =>
    obtain ⟨e, he, his⟩ := Data.find_some hf
    rw [h.distinct.findIdx?_iff.mpr ⟨e.1, ?_, his⟩]
    · rfl
    · simp [Data.live, Slots.getElem?_rank he]
  | none =>
    rw [List.findIdx?_eq_none_iff.mpr, Option.map_none]
    intro x hx
    obtain ⟨e, he, rfl⟩ := List.mem_map.mp hx
    simpa using Data.find_none hf e he

/-- What the refinement gives for a place with an element. -/
lemma Refines.value_eq (h : Refines proto c d) {e : α × α} (he : d.entries[k]? = some (some e)) :
    c.values[Slots.rank d.entries k]? = some e.2 := by
  simp [h.values, Data.live, Slots.getElem?_rank he]

/-- The entries change, the iterators stay. -/
lemma Refines.of_entries (h : Refines proto c d) {keys values : List α} {entries : List (Option (α × α))}
    (hkeys : keys = if proto.isMap then entries.reduceOption.map Prod.fst else [])
    (hvalues : values = entries.reduceOption.map Prod.snd)
    (hdistinct : Distinct (entries.reduceOption.map Prod.fst))
    (hsame : proto.isMap = false → ∀ e ∈ entries.reduceOption, e.1 = e.2)
    (hlength : d.entries.length ≤ entries.length)
    (hrank : ∀ k ≤ d.entries.length, Slots.rank entries k = Slots.rank d.entries k) :
    Refines proto { c with keys, values } { d with entries } where
  keys := hkeys
  values := hvalues
  distinct := hdistinct
  same := hsame
  itpNodup := h.itpNodup
  mem_itp := h.mem_itp
  length := h.length
  follows j it cur hi hc :=
    have hf := h.follows j it cur hi hc
    ⟨hf.done, hf.arrays, hf.fits, hf.bound.trans hlength, fun hd => by
      rw [hf.p hd]
      exact (hrank cur.index hf.bound).symm⟩

lemma Refines.append (h : Refines proto c d) (hf : d.find key = none)
    (hsame : proto.isMap = false → key = value) :
    Refines proto { c with
      keys := if proto.isMap then c.keys ++ [key] else c.keys, values := c.values ++ [value] }
      (d.put none key value) := by
  have hlive : (d.entries ++ [some (key, value)]).reduceOption = d.live ++ [(key, value)] := by
    simp [Data.live, List.reduceOption_append, List.reduceOption_singleton]
  refine h.of_entries ?_ ?_ ?_ ?_ (by simp) fun k hk => Slots.rank_append hk
  · rw [hlive, h.keys]
    split_ifs <;> simp
  · rw [hlive, h.values]
    simp
  · rw [hlive, List.map_append, Distinct, List.pairwise_append]
    refine ⟨h.distinct, List.pairwise_singleton _ _, fun x hx y hy => ?_⟩
    obtain ⟨e, he, rfl⟩ := List.mem_map.mp hx
    obtain rfl : y = key := by simpa using hy
    exact Data.find_none hf e he
  · intro hm e he
    rw [hlive, List.mem_append] at he
    rcases he with he | he
    · exact h.same hm e he
    · obtain rfl : e = (key, value) := by simpa using he
      exact hsame hm

lemma Refines.replace (h : Refines proto c d) (hm : proto.isMap) (hf : d.find key = some k) :
    Refines proto { c with values := c.values.set (Slots.rank d.entries k) value }
      (d.put (some k) key value) := by
  obtain ⟨e, he, -⟩ := Data.find_some hf
  have hlive := Slots.reduceOption_set_some (b := (e.1, value)) he
  have hput : d.put (some k) key value =
      { d with entries := d.entries.set k (some (e.1, value)) } := by
    simp [Data.put, Data.entry_eq he]
  have hfst : (d.entries.set k (some (e.1, value))).reduceOption.map Prod.fst = d.live.map Prod.fst := by
    rw [hlive, List.map_set]
    refine List.ext_getElem? fun i => ?_
    rw [List.getElem?_set]
    split_ifs with hi hlt
    · rw [← hi]
      simp [Data.live, Slots.getElem?_rank he]
    · rw [← hi, eq_comm, List.getElem?_eq_none]
      exact not_lt.mp hlt
    · rfl
  rw [hput]
  refine h.of_entries ?_ ?_ ?_ ?_ (by simp) fun k' _ => Slots.rank_set_some he
  · rw [hfst, h.keys]
  · rw [hlive, List.map_set, h.values]
    rfl
  · rw [hfst]
    exact h.distinct
  · intro hm'
    rw [hm] at hm'
    cases hm'

lemma moveBack_getElem? {itp : List Nat} (hn : itp.Nodup) (iters : List Iter) (j : Nat) :
    (Collection.moveBack i itp iters)[j]? =
      if j ∈ itp then iters[j]?.map fun it => if i < it.p then { it with p := it.p - 1 } else it
      else iters[j]? := by
  induction itp generalizing iters with
  | nil => simp [Collection.moveBack]
  | cons a itp ih =>
    obtain ⟨ha, hn⟩ := List.nodup_cons.mp hn
    unfold Collection.moveBack at ih ⊢
    rw [List.foldl_cons, ih hn, List.getElem?_modify]
    by_cases hj : a = j
    · subst hj
      simp [ha]
    · simp [hj, Ne.symm hj]

lemma moveBack_length (itp : List Nat) (iters : List Iter) :
    (Collection.moveBack i itp iters).length = iters.length := by
  induction itp generalizing iters with
  | nil => rfl
  | cons a itp ih =>
    unfold Collection.moveBack at ih ⊢
    rw [List.foldl_cons, ih, List.length_modify]

lemma moveBack_some {itp : List Nat} {iters : List Iter} {it : Iter} (hn : itp.Nodup)
    (h : (Collection.moveBack i itp iters)[j]? = some it) : ∃ it₀, iters[j]? = some it₀ ∧
      it.done = it₀.done ∧ it.arrays = it₀.arrays ∧
      it.p = if j ∈ itp ∧ i < it₀.p then it₀.p - 1 else it₀.p := by
  rw [moveBack_getElem? hn] at h
  split_ifs at h with hj
  · obtain ⟨it₀, h₀, rfl⟩ := Option.map_eq_some_iff.mp h
    by_cases hlt : i < it₀.p
    · exact ⟨it₀, h₀, by simp [hlt], by simp [hlt], by simp [hj, hlt]⟩
    · exact ⟨it₀, h₀, by simp [hlt], by simp [hlt], by simp [hlt]⟩
  · exact ⟨it, h, rfl, rfl, by simp [hj]⟩

lemma Refines.erase (h : Refines proto c d) (hf : d.find key = some k) :
    Refines proto { c with
      keys := c.keys.eraseIdx (Slots.rank d.entries k)
      values := c.values.eraseIdx (Slots.rank d.entries k)
      iters := Collection.moveBack (Slots.rank d.entries k) c.itp c.iters }
      { d with entries := d.entries.set k none } := by
  obtain ⟨e, he, -⟩ := Data.find_some hf
  have hlive := Slots.reduceOption_set_none he
  constructor
  · change c.keys.eraseIdx _ = if proto.isMap then (d.entries.set k none).reduceOption.map Prod.fst else []
    rw [h.keys, hlive]
    split_ifs
    · rw [List.eraseIdx_map]
      rfl
    · rfl
  · change c.values.eraseIdx _ = (d.entries.set k none).reduceOption.map Prod.snd
    rw [h.values, hlive, List.eraseIdx_map]
    rfl
  · change Distinct ((d.entries.set k none).reduceOption.map Prod.fst)
    rw [hlive, ← List.eraseIdx_map]
    exact h.distinct.sublist (List.eraseIdx_sublist _ _)
  · intro hm e' he'
    change e' ∈ (d.entries.set k none).reduceOption at he'
    rw [hlive] at he'
    exact h.same hm e' ((List.eraseIdx_sublist _ _).mem he')
  · exact h.itpNodup
  · intro j
    rw [h.mem_itp, moveBack_getElem? h.itpNodup]
    constructor
    · rintro ⟨it, hi, hd⟩
      rw [hi]
      split_ifs
      · exact ⟨_, rfl, by simpa [apply_ite] using hd⟩
      · exact ⟨it, rfl, hd⟩
    · rintro ⟨it, hi, hd⟩
      split_ifs at hi with hj
      · exact (h.mem_itp j).mp hj
      · exact ⟨it, hi, hd⟩
  · rw [moveBack_length]
    exact h.length
  · intro j it cur hi hc
    obtain ⟨it₀, h₀, hdone, harrays, hp⟩ := moveBack_some h.itpNodup hi
    have hfol := h.follows j it₀ cur h₀ hc
    refine ⟨hdone.trans hfol.done, harrays.trans hfol.arrays, ?_, by simpa using hfol.bound, fun hd => ?_⟩
    · rw [harrays]
      exact hfol.fits
    · rw [hdone] at hd
      have hj : j ∈ c.itp := (h.mem_itp j).mpr ⟨it₀, h₀, hd⟩
      rw [hp, hfol.p hd, Slots.rank_set_none he]
      simp [hj, Slots.rank_lt_rank_iff he]

lemma Refines.clear (h : Refines proto c d) (ho : Orderly c (.clear : Op α)) :
    Refines proto ({ c with keys := [], values := [] } : Collection α)
      { d with entries := d.entries.map fun _ => none } := by
  constructor
  · simp [Data.live, List.reduceOption]
  · simp [Data.live, List.reduceOption]
  · simp [Data.live, List.reduceOption, Distinct]
  · simp [Data.live, List.reduceOption]
  · exact h.itpNodup
  · exact h.mem_itp
  · exact h.length
  · intro j it cur hi hc
    have hf := h.follows j it cur hi hc
    refine ⟨hf.done, hf.arrays, hf.fits, by simpa using hf.bound, fun hd => ?_⟩
    rw [ho it (List.mem_of_getElem? hi) hd]
    simp [Slots.rank, List.reduceOption]

lemma Refines.iterator (h : Refines proto c d) {arrays : Arrays}
    (hfits : arrays = .values ∨ if proto.isMap then arrays ≠ .setEntries else arrays = .setEntries) :
    Refines proto (c.sharedIterator arrays).1 (d.iterator arrays).1 := by
  have hnew : c.iters.length ∉ c.itp := fun hm => by
    obtain ⟨it, hi, -⟩ := (h.mem_itp _).mp hm
    simp at hi
  constructor
  · exact h.keys
  · exact h.values
  · exact h.distinct
  · exact h.same
  · rw [Collection.sharedIterator, List.nodup_append]
    exact ⟨h.itpNodup, List.nodup_singleton _, fun a ha b hb => by
      obtain rfl := List.mem_singleton.mp hb
      rintro rfl
      exact hnew ha⟩
  · intro j
    simp only [Collection.sharedIterator, List.mem_append, List.mem_singleton, h.mem_itp]
    rcases lt_trichotomy j c.iters.length with hlt | rfl | hgt
    · simp [List.getElem?_append_left hlt, hlt.ne]
    · simp
    · have hout : (c.iters ++ [(⟨0, false, arrays⟩ : Iter)])[j]? = none :=
        List.getElem?_eq_none (by simp; omega)
      simp [hout, List.getElem?_eq_none hgt.le, hgt.ne']
  · simp [Collection.sharedIterator, Data.iterator, h.length]
  · intro j it cur hi hc
    simp only [Collection.sharedIterator, Data.iterator] at hi hc
    rcases lt_trichotomy j c.iters.length with hlt | rfl | hgt
    · rw [List.getElem?_append_left hlt] at hi
      rw [List.getElem?_append_left (h.length ▸ hlt)] at hc
      exact h.follows j it cur hi hc
    · rw [h.length, List.getElem?_concat_length] at hc
      rw [List.getElem?_concat_length] at hi
      cases hi
      cases hc
      exact ⟨rfl, rfl, hfits, Nat.zero_le _, fun _ => rfl⟩
    · rw [List.getElem?_eq_none (by simp; omega)] at hi
      cases hi

/-- The array that bounds an iterator is as long as there are entries. -/
lemma Refines.array_length (h : Refines proto c d) {it : Iter} {cur : Cursor}
    (hf : Follows proto d.entries it cur) : (c.array it.arrays).length = d.live.length := by
  have hfits := hf.fits
  cases harr : it.arrays <;> cases hm : proto.isMap <;>
    simp_all [Collection.array, h.keys, h.values]

lemma Refines.yield_eq (h : Refines proto c d) {it : Iter} {cur : Cursor}
    (hf : Follows proto d.entries it cur) {e : α × α} (he : d.entries[k]? = some (some e)) :
    c.yield it.arrays (Slots.rank d.entries k) = Data.give cur.arrays (d.entry k) := by
  have hfits := hf.fits
  have hv := h.value_eq he
  have hk : proto.isMap → c.keys[Slots.rank d.entries k]? = some e.1 := fun hm => by
    simp [h.keys, hm, Data.live, Slots.getElem?_rank he]
  rw [Data.entry_eq he, ← hf.arrays]
  cases harr : it.arrays <;> cases hm : proto.isMap <;>
    simp_all [Collection.yield, Data.give]

/-- An iterator moves on. -/
lemma Refines.advance (h : Refines proto c d) {it : Iter} {cur : Cursor} {e : α × α}
    (hi : c.iters[j]? = some it) (hc : d.cursors[j]? = some cur) (he : d.entries[k]? = some (some e))
    (hrank : Slots.rank d.entries k = it.p) :
    Refines proto { c with iters := c.iters.set j { it with p := it.p + 1 } }
      { d with cursors := d.cursors.set j { cur with index := k + 1 } } where
  keys := h.keys
  values := h.values
  distinct := h.distinct
  same := h.same
  itpNodup := h.itpNodup
  mem_itp j' := by
    rw [h.mem_itp, List.getElem?_set]
    split_ifs with hj hlt
    · subst hj
      simp [hi]
    · subst hj
      rw [List.getElem?_eq_none (not_lt.mp hlt)] at hi
      cases hi
    · rfl
  length := by simp [h.length]
  follows j' it' cur' hi' hc' := by
    have hf := h.follows j it cur hi hc
    have hlt : k < d.entries.length := (List.getElem?_eq_some_iff.mp he).1
    simp only [List.getElem?_set] at hi' hc'
    split_ifs at hi' hc' with hj
    · cases hi'
      cases hc'
      exact ⟨hf.done, hf.arrays, hf.fits, hlt, fun hd => by rw [Slots.rank_succ he, hrank]⟩
    · exact h.follows j' it' cur' hi' hc'

/-- An iterator finishes. -/
lemma Refines.finish (h : Refines proto c d) {it : Iter} {cur : Cursor}
    (hi : c.iters[j]? = some it) (hc : d.cursors[j]? = some cur)
    (ho : it.done → ∀ it ∈ c.iters, it.done) :
    Refines proto
      { c with itp := Collection.spliceItp c.itp j, iters := c.iters.set j { it with done := true } }
      { d with cursors := d.cursors.set j { cur with done := true } } := by
  have hitp : Collection.spliceItp c.itp j = c.itp.erase j := by
    rw [Collection.spliceItp]
    split_ifs with hj
    · rfl
    · have hdone : it.done := by
        by_contra hd
        exact hj ((h.mem_itp j).mpr ⟨it, hi, by simpa using hd⟩)
      have hnil : c.itp = [] := List.eq_nil_iff_forall_not_mem.mpr fun j' hj' => by
        obtain ⟨it', hi', hd'⟩ := (h.mem_itp j').mp hj'
        rw [ho hdone it' (List.mem_of_getElem? hi')] at hd'
        cases hd'
      rw [hnil]
      rfl
  constructor
  · exact h.keys
  · exact h.values
  · exact h.distinct
  · exact h.same
  · rw [hitp]
    exact h.itpNodup.erase j
  · intro j'
    change j' ∈ Collection.spliceItp c.itp j ↔ _
    rw [hitp, h.itpNodup.mem_erase_iff, h.mem_itp, List.getElem?_set]
    split_ifs with hj hlt
    · simp [hj]
    · simp [hj]
    · simp [Ne.symm hj]
  · simp [h.length]
  · intro j' it' cur' hi' hc'
    simp only [List.getElem?_set] at hi' hc'
    split_ifs at hi' hc' with hj
    · cases hi'
      cases hc'
      have hf := h.follows j it cur hi hc
      exact ⟨rfl, hf.arrays, hf.fits, hf.bound, nofun⟩
    · exact h.follows j' it' cur' hi' hc'

lemma Refines.next (h : Refines proto c d) (ho : Orderly c (.next j : Op α)) :
    (c.next j).2 = (d.next j).2 ∧ Refines proto (c.next j).1 (d.next j).1 := by
  cases hi : c.iters[j]? with
  | none =>
    have hc : d.cursors[j]? = none := by
      rw [List.getElem?_eq_none_iff] at hi ⊢
      exact h.length ▸ hi
    simp only [Collection.next, Data.next, hi, hc]
    exact ⟨trivial, h⟩
  | some it =>
    obtain ⟨cur, hc⟩ : ∃ cur, d.cursors[j]? = some cur := by
      have hlt := (List.getElem?_eq_some_iff.mp hi).1
      exact ⟨_, List.getElem?_eq_getElem (h.length ▸ hlt)⟩
    have hf := h.follows j it cur hi hc
    simp only [Collection.next, Data.next, hi, hc]
    cases hp : d.place cur with
    | some k =>
      have hd : it.done = false := by
        rw [hf.done]
        by_contra hd
        simp [Data.place, Bool.not_eq_false _ |>.mp hd] at hp
      rw [Data.place, ← hf.done, hd] at hp
      obtain ⟨hle, hlt, ⟨e, he⟩, hrank⟩ := Slots.next_some hp
      rw [← hf.p hd] at hrank
      have hin : it.p < (c.array it.arrays).length := by
        rw [h.array_length hf, ← hrank]
        exact (List.getElem?_eq_some_iff.mp (Slots.getElem?_rank he)).1
      rw [if_pos (by simp [hd, hin])]
      refine ⟨?_, h.advance hi hc he hrank⟩
      simp only [← h.yield_eq hf he, hrank]
    | none =>
      have hout : ¬ (!it.done && decide (it.p < (c.array it.arrays).length)) = true := by
        rw [h.array_length hf]
        cases hd : it.done with
        | true => simp
        | false =>
          rw [Data.place, ← hf.done, hd] at hp
          simp [hf.p hd, Slots.next_none hp, Data.live]
      rw [if_neg hout]
      exact ⟨rfl, h.finish hi hc (ho it hi)⟩

lemma refines_new : Refines proto (Collection.new : Collection α) Data.new where
  keys := by simp [Collection.new, Data.new, Data.live]
  values := rfl
  distinct := List.Pairwise.nil
  same _ _ he := by cases he
  itpNodup := List.nodup_nil
  mem_itp j := by simp [Collection.new]
  length := rfl
  follows j it cur hi := by simp [Collection.new] at hi

/-- A call does the same to the collection and to its entries. -/
lemma Refines.call {op : Op α} (h : Refines proto c d) (ho : Orderly c op) :
    (call proto c op).2 = (d.call proto op).2 ∧ Refines proto (call proto c op).1 (d.call proto op).1 := by
  by_cases hhas : proto.has op
  · have hn : ¬ (!proto.has op) = true := by simp [hhas]
    rw [Collections.call.eq_def, Data.call.eq_def, if_neg hn, if_neg hn]
    cases op with
    | get key =>
      simp only [Collection.sharedGet, h.protoHas_eq, Data.withKey]
      split_ifs
      · exact ⟨rfl, h⟩
      · cases hf : d.find key with
        | none => exact ⟨rfl, h⟩
        | some k =>
          obtain ⟨e, he, -⟩ := Data.find_some hf
          exact ⟨by simp [h.value_eq he, Data.entry_eq he], h⟩
    | has key =>
      simp only [Collection.sharedHas, h.protoHas_eq, Data.withKey]
      split_ifs
      · exact ⟨rfl, h⟩
      · exact ⟨by simp, h⟩
    | set key value =>
      have hm : proto.isMap := by simpa [Proto.has] using hhas
      simp only [Collection.sharedSet, h.protoHas_eq, Data.withKey]
      split_ifs
      · exact ⟨rfl, h⟩
      · cases hf : d.find key with
        | none =>
          have hsame : proto.isMap = false → key = value := by simp [hm]
          have happ := h.append hf hsame
          rw [if_pos hm] at happ
          exact ⟨rfl, happ⟩
        | some k => exact ⟨rfl, h.replace hm hf⟩
    | add value =>
      have hm : proto.isMap = false := by simpa [Proto.has] using hhas
      simp only [Collection.sharedAdd, h.protoHas_eq, Data.withKey]
      cases hf : d.find value with
      | none =>
        have hsame : proto.isMap = false → value = value := fun _ => rfl
        have happ := h.append hf hsame
        rw [if_neg (by simp [hm])] at happ
        simp only [Option.isSome_none, Bool.false_eq_true, if_false]
        split_ifs
        · exact ⟨rfl, h⟩
        · exact ⟨rfl, happ⟩
      | some k =>
        simp only [Option.isSome_some, if_true]
        split_ifs <;> exact ⟨rfl, h⟩
    | delete key =>
      simp only [Collection.sharedDelete, h.protoHas_eq, Data.withKey]
      split_ifs
      · exact ⟨rfl, h⟩
      · cases hf : d.find key with
        | none => exact ⟨rfl, h⟩
        | some k => exact ⟨rfl, h.erase hf⟩
    | clear => exact ⟨rfl, h.clear ho⟩
    | size =>
      dsimp only
      split_ifs
      · exact ⟨rfl, h⟩
      · exact ⟨by simp [Collection.sharedSize, h.values], h⟩
    | keys =>
      refine ⟨by simp [Collection.sharedIterator, Data.iterator, h.length], h.iterator ?_⟩
      split_ifs <;> simp
    | values => exact ⟨by simp [Collection.sharedIterator, Data.iterator, h.length], h.iterator (.inl rfl)⟩
    | entries =>
      refine ⟨by simp [Collection.sharedIterator, Data.iterator, h.length], h.iterator ?_⟩
      split_ifs <;> simp
    | next j => exact h.next ho
  · have hn : (!proto.has op) = true := by simp [hhas]
    rw [Collections.call.eq_def, Data.call.eq_def, if_pos hn, if_pos hn]
    exact ⟨rfl, h⟩

end

/-- A program that uses a collection: the calls with their answers. -/
def calls (proto : Proto) : Machine (Collection α × List (Op α × Answer α)) (Op α) :=
  Machine.answering (call proto)

/-- The same of a list of entries with holes. -/
def Data.calls (proto : Proto) : Machine (Data α × List (Op α × Answer α)) (Op α) :=
  Machine.answering (Data.call proto)

lemma calls_related (proto : Proto) {ops : List (Op α)}
    (ho : (calls proto).Guarded (fun s op => Orderly s.1 op) (Collection.new, []) ops) :
    ((calls proto).run (Collection.new, []) ops).2 = ((Data.calls proto).run (Data.new, []) ops).2 ∧
      Refines proto ((calls proto).run (Collection.new, []) ops).1
        ((Data.calls proto).run (Data.new, []) ops).1 :=
  Machine.run_answering_related (fun _ _ _ h ho => h.call ho) refines_new ho

/-- Some of the values of the engine. -/
inductive Value
  | nan
  | number (n : Int)
  | object (n : Nat)
  deriving DecidableEq, Repr

def Value.isObject : Value → Bool
  | .object _ => true
  | .nan | .number _ => false

instance : JSValue Value where
  strictEq a b := a != .nan && a == b
  symm {a b} h := by
    obtain ⟨ha, rfl⟩ : a ≠ .nan ∧ a = b := by simpa using h
    simpa using ha
  trans {a b c} h h' := by
    obtain ⟨ha, rfl⟩ : a ≠ .nan ∧ a = b := by simpa using h
    exact h'
  zero := .number 0
  isObject := Value.isObject

/-- A map is changed while an iterator goes through it. -/
def changing : List (Op Value) :=
  [.set (.number 1) .nan, .set .nan (.number 2), .entries, .next 0, .delete (.number 1),
    .set (.object 3) (.number 4), .next 0, .set .nan (.number 5), .next 0, .next 0, .get .nan]

end LowJs.Collections
