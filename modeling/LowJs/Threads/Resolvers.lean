import LowJs.Core.Prefixes

/-!
# The table of DNS resolvers

The main thread creates resolvers and its finalizers delete them, the web thread goes through the table as
long as a query is active. All of them hold `resolvers_mutex`: `Init` takes it, and keeps it where it finds
an empty slot. The web thread asks each slot whether its resolver is active, the empty ones too.
-/

namespace LowJs.Resolvers

/-- The table with the resolvers by their numbers, the first `count` of which were created; `mIndex` is
`none` for -1. `held` says whether the mutex is locked, `polled` whose channels the web thread polls, and
`crashed` whether it has used a slot without a resolver. -/
structure Low where
  resolvers : List (Option Nat)
  mIndex : Nat → Option Nat
  mActiveQueries : Nat → Nat
  resolvers_active : Nat
  held : Bool
  live : Nat → Bool
  count : Nat
  polled : List Nat
  crashed : Bool

def start : Low := ⟨[], fun _ => none, fun _ => 0, 0, false, fun _ => false, 0, [], false⟩

namespace Low

/-- The constructor and `LowDNSResolver::Init`. The exit in the loop leaves the mutex locked; a resolver for
which `ares_init` fails is deleted. -/
def Init (s : Low) (aresInit : Bool) : Low :=
  let o := s.count
  let s := { s with count := o + 1, mIndex := Function.update s.mIndex o none }
  if aresInit = false then s
  else
    match s.resolvers.findIdx? Option.isNone with
    | some i =>
      { s with
        mIndex := Function.update s.mIndex o (some i)
        resolvers := s.resolvers.set i (some o)
        live := Function.update s.live o true
        held := true }
    | none =>
      { s with
        mIndex := Function.update s.mIndex o (some s.resolvers.length)
        resolvers := s.resolvers ++ [some o]
        live := Function.update s.live o true
        held := false }

/-- `LowDNSResolver::~LowDNSResolver`. -/
def delete (s : Low) (o : Nat) : Low :=
  let s := { s with live := Function.update s.live o false }
  match s.mIndex o with
  | none => s
  | some i =>
    if (s.resolvers.drop (i + 1)).any Option.isSome then { s with resolvers := s.resolvers.set i none }
    else { s with resolvers := s.resolvers.take i }

/-- `low_dns_resolver_finalizer`; an index outside the table is an exception. -/
def finalizer (s : Low) (index : Nat) : Low :=
  match s.resolvers[index]? with
  | some (some o) => s.delete o
  | _ => s

/-- The loop of the web thread: the resolvers whose channels it polls, or `none` where a slot has none. -/
def walk (s : Low) : List (Option Nat) → Option (List Nat)
  | [] => some []
  | none :: _ => none
  | some o :: slots =>
    if s.live o then
      (s.walk slots).map fun polled => if s.mActiveQueries o = 0 then polled else o :: polled
    else none

/-- A round of `low_web_thread_main`. -/
def scan (s : Low) : Low :=
  if s.resolvers_active = 0 then { s with polled := [] }
  else
    match s.walk s.resolvers with
    | some polled => { s with polled := polled }
    | none => { s with crashed := true }

end Low

/-- Creation, the finalizer, the construction and destruction of a query, and a round of the web thread. -/
inductive Input
  | create (aresInit : Bool)
  | finalizer (index : Nat)
  | query (o : Nat)
  | queryDone (o : Nat)
  | scan
  deriving DecidableEq, Repr

namespace Low

/-- Who needs the mutex waits while it is locked; a query needs a resolver. -/
def Enabled (s : Low) : Input → Prop
  | .create aresInit => aresInit = false ∨ s.held = false
  | .finalizer _ => s.held = false
  | .query o => s.held = false ∧ s.live o = true
  | .queryDone o => 0 < s.mActiveQueries o ∧ 0 < s.resolvers_active
  | .scan => s.resolvers_active = 0 ∨ s.held = false

instance (s : Low) : ∀ i, Decidable (s.Enabled i)
  | .create _ | .scan => inferInstanceAs (Decidable (_ ∨ _))
  | .query _ | .queryDone _ => inferInstanceAs (Decidable (_ ∧ _))
  | .finalizer _ => inferInstanceAs (Decidable (_ = _))

/-- What an input does. -/
def call (s : Low) : Input → Low
  | .create aresInit => s.Init aresInit
  | .finalizer index => s.finalizer index
  | .query o =>
    { s with
      mActiveQueries := Function.update s.mActiveQueries o (s.mActiveQueries o + 1)
      resolvers_active := s.resolvers_active + 1 }
  | .queryDone o =>
    { s with
      mActiveQueries := Function.update s.mActiveQueries o (s.mActiveQueries o - 1)
      resolvers_active := s.resolvers_active - 1 }
  | .scan => s.scan

def step (s : Low) (i : Input) : Low :=
  if s.crashed = false ∧ s.Enabled i then s.call i else s

end Low

def machine : Machine Low Input := ⟨Low.step⟩

/-- Each live resolver stands in its slot, nothing else stands in the table, the web thread has used no
slot without a live resolver, and the mutex is free. -/
structure Low.Sound (s : Low) : Prop where
  slot : ∀ o, s.live o = true → ∃ i, s.mIndex o = some i ∧ s.resolvers[i]? = some (some o)
  table : ∀ i o, s.resolvers[i]? = some (some o) → s.live o = true ∧ s.mIndex o = some i
  alive : s.crashed = false
  free : s.held = false

/-- No resolver is created, and no query is active in a round of the web thread, while a slot is empty. -/
def Low.Full (s : Low) : Input → Prop
  | .create true => none ∉ s.resolvers
  | .scan => s.resolvers_active = 0 ∨ none ∉ s.resolvers
  | _ => True

namespace Low

/-! ### The table -/

/-- The invariant; new numbers are not those of live resolvers. -/
structure Inv (s : Low) : Prop extends Sound s where
  fresh : ∀ o, s.live o = true → o < s.count

lemma inv_start : start.Inv :=
  ⟨⟨fun _ h => absurd h Bool.false_ne_true, fun _ _ h => by simp [start] at h, rfl, rfl⟩,
    fun _ h => absurd h Bool.false_ne_true⟩

variable {s : Low}

/-- The new number stands in no slot. -/
lemma Inv.new (h : s.Inv) (i : Nat) : s.resolvers[i]? ≠ some (some s.count) := by
  intro hi
  have := h.fresh _ (h.table i _ hi).1
  omega

/-- The constructor changes nothing but the new number. -/
lemma Inv.constructed (h : s.Inv) :
    Inv { s with count := s.count + 1, mIndex := Function.update s.mIndex s.count none } := by
  have hne : ∀ o, s.live o = true → o ≠ s.count := fun o ho => (h.fresh o ho).ne
  refine ⟨⟨fun o ho => ?_, fun i o hi => ?_, h.alive, h.free⟩, fun o ho => ?_⟩
  · obtain ⟨i, hindex, hslot⟩ := h.slot o ho
    exact ⟨i, (Function.update_of_ne (hne o ho) ..).trans hindex, hslot⟩
  · obtain ⟨hlive, hindex⟩ := h.table i o hi
    exact ⟨hlive, (Function.update_of_ne (hne o hlive) ..).trans hindex⟩
  · exact Nat.lt_succ_of_lt (h.fresh o ho)

/-- Without an empty slot, the new resolver gets a slot behind the others. -/
lemma Inv.create (h : s.Inv) (aresInit : Bool) (hfull : aresInit = true → none ∉ s.resolvers) :
    (s.Init aresInit).Inv := by
  rw [Init.eq_def]
  dsimp only
  split
  · exact h.constructed
  rename_i hinit
  have hnone : s.resolvers.findIdx? Option.isNone = none := by
    rw [List.findIdx?_eq_none_iff]
    intro slot hslot
    cases slot with
    | none => exact absurd hslot (hfull (Bool.eq_true_of_not_eq_false hinit))
    | some o => rfl
  rw [hnone]
  have hne : ∀ o, s.live o = true → o ≠ s.count := fun o ho => (h.fresh o ho).ne
  refine ⟨⟨fun o ho => ?_, fun i o hi => ?_, h.alive, rfl⟩, fun o ho => ?_⟩
  · by_cases hnew : o = s.count
    · subst hnew
      exact ⟨s.resolvers.length, Function.update_self .., by simp⟩
    · obtain ⟨i, hindex, hslot⟩ := h.slot o ((Function.update_of_ne hnew ..).symm.trans ho)
      refine ⟨i, ?_, ?_⟩
      · simp only [Function.update_of_ne hnew]
        exact hindex
      · rw [List.getElem?_append_left (List.getElem?_eq_some_iff.mp hslot).1]
        exact hslot
  · rcases Nat.lt_trichotomy i s.resolvers.length with hlt | heq | hgt
    · rw [List.getElem?_append_left hlt] at hi
      obtain ⟨hlive, hindex⟩ := h.table i o hi
      simp only [Function.update_of_ne (hne o hlive)]
      exact ⟨hlive, hindex⟩
    · subst heq
      simp only [List.getElem?_concat_length, Option.some.injEq] at hi
      subst hi
      exact ⟨Function.update_self .., Function.update_self ..⟩
    · rw [List.getElem?_eq_none (by simp; omega)] at hi
      exact absurd hi (Option.some_ne_none _).symm
  · by_cases hnew : o = s.count
    · rw [hnew]
      exact Nat.lt_succ_self _
    · exact Nat.lt_succ_of_lt (h.fresh o ((Function.update_of_ne hnew ..).symm.trans ho))

/-- With an empty slot, the mutex stays locked. -/
lemma held_of_empty (hempty : none ∈ s.resolvers) : (s.Init true).held = true := by
  rw [Init.eq_def]
  dsimp only
  rw [if_neg Bool.true_eq_false.mp]
  cases hfind : s.resolvers.findIdx? Option.isNone with
  | none => exact absurd ((List.findIdx?_eq_none_iff.mp hfind) none hempty) (by simp)
  | some i => rfl

/-- A deleted resolver leaves its slot, and the slots of the others stay. -/
lemma Inv.delete (h : s.Inv) {o : Nat} (ho : s.live o = true) : (s.delete o).Inv := by
  obtain ⟨i, hindex, hslot⟩ := h.slot o ho
  have hlt : i < s.resolvers.length := (List.getElem?_eq_some_iff.mp hslot).1
  -- the two exits leave the same table, up to empty slots at its end
  have hresolvers : ∀ rs : List (Option Nat),
      (∀ j p, rs[j]? = some (some p) ↔ s.resolvers[j]? = some (some p) ∧ j ≠ i) →
      Inv { s with live := Function.update s.live o false, resolvers := rs } := by
    intro rs hrs
    refine ⟨⟨fun p hp => ?_, fun j p hj => ?_, h.alive, h.free⟩, fun p hp => ?_⟩
    · have hne : p ≠ o := by
        rintro rfl
        simp at hp
      obtain ⟨j, hindex', hslot'⟩ := h.slot p ((Function.update_of_ne hne ..).symm.trans hp)
      refine ⟨j, hindex', (hrs j p).mpr ⟨hslot', ?_⟩⟩
      rintro rfl
      rw [hslot] at hslot'
      exact hne (Option.some.inj (Option.some.inj hslot')).symm
    · obtain ⟨hj, hne⟩ := (hrs j p).mp hj
      obtain ⟨hlive, hindex'⟩ := h.table j p hj
      refine ⟨?_, hindex'⟩
      have hpo : p ≠ o := by
        rintro rfl
        exact hne (Option.some.inj (hindex'.symm.trans hindex))
      simp only [Function.update_of_ne hpo]
      exact hlive
    · have hne : p ≠ o := by
        rintro rfl
        simp at hp
      exact h.fresh p ((Function.update_of_ne hne ..).symm.trans hp)
  rw [Low.delete.eq_def]
  dsimp only
  rw [hindex]
  dsimp only
  split
  · apply hresolvers
    intro j p
    by_cases hji : j = i
    · subst hji
      simp [hlt]
    · rw [List.getElem?_set_ne (Ne.symm hji)]
      simp [hji]
  · rename_i hlast
    apply hresolvers
    intro j p
    rw [List.getElem?_take]
    constructor
    · intro hj
      split at hj
      · exact ⟨hj, by omega⟩
      · exact absurd hj (Option.some_ne_none _).symm
    · rintro ⟨hj, hne⟩
      rw [if_pos ?_]
      · exact hj
      · by_contra hge
        apply hlast
        apply List.any_eq_true.mpr
        refine ⟨some p, List.mem_of_getElem? (i := j - (i + 1)) ?_, rfl⟩
        rw [List.getElem?_drop, show i + 1 + (j - (i + 1)) = j by omega]
        exact hj

/-- In a table without empty slots the web thread finds a live resolver everywhere. -/
lemma Inv.walk (h : s.Inv) {slots : List (Option Nat)} (hsub : ∀ slot ∈ slots, slot ∈ s.resolvers)
    (hfull : none ∉ slots) : (s.walk slots).isSome = true := by
  induction slots with
  | nil => rfl
  | cons slot slots ih =>
    cases slot with
    | none => exact absurd List.mem_cons_self hfull
    | some o =>
      obtain ⟨i, hi⟩ := List.mem_iff_getElem?.mp (hsub _ List.mem_cons_self)
      rw [Low.walk, if_pos (h.table i o hi).1, Option.isSome_map]
      exact ih (fun slot hslot => hsub slot (List.mem_cons_of_mem _ hslot))
        fun hin => hfull (List.mem_cons_of_mem _ hin)

lemma walk_empty {slots : List (Option Nat)} (hempty : none ∈ slots) : s.walk slots = none := by
  induction slots with
  | nil => exact absurd hempty List.not_mem_nil
  | cons slot slots ih =>
    cases slot with
    | none => rfl
    | some o =>
      rcases List.mem_cons.mp hempty with heq | hin
      · exact absurd heq.symm (Option.some_ne_none _)
      · rw [Low.walk, ih hin, Option.map_none, ite_self]

/-! ### Steps and runs -/

lemma Inv.step (h : s.Inv) {i : Input} (hfull : s.Full i) : (s.step i).Inv := by
  rw [Low.step]
  split
  swap
  · exact h
  cases i with
  | create aresInit =>
    apply h.create
    rintro rfl
    exact hfull
  | finalizer index =>
    rw [call, finalizer]
    split
    · rename_i o hslot
      exact h.delete (h.table index o hslot).1
    · exact h
  | query o => exact ⟨⟨h.slot, h.table, h.alive, h.free⟩, h.fresh⟩
  | queryDone o => exact ⟨⟨h.slot, h.table, h.alive, h.free⟩, h.fresh⟩
  | scan =>
    rw [call, Low.scan]
    split
    · exact ⟨⟨h.slot, h.table, h.alive, h.free⟩, h.fresh⟩
    · rename_i hactive
      obtain ⟨polled, hwalk⟩ := Option.isSome_iff_exists.mp
        (h.walk (fun _ hslot => hslot) (hfull.resolve_left hactive))
      rw [hwalk]
      exact ⟨⟨h.slot, h.table, h.alive, h.free⟩, h.fresh⟩

/-- A creation with an empty slot keeps the mutex, and a round of the web thread uses the empty slot. -/
lemma Inv.not_full (h : s.Inv) {i : Input} (hfull : ¬s.Full i) : ¬(s.step i).Sound := by
  intro hsound
  cases i with
  | create aresInit =>
    cases aresInit with
    | false => exact hfull trivial
    | true =>
      have hfree := hsound.free
      rw [Low.step, if_pos ⟨h.alive, Or.inr h.free⟩, call, held_of_empty (not_not.mp hfull)] at hfree
      exact Bool.true_eq_false.mp hfree
  | finalizer index => exact hfull trivial
  | query o => exact hfull trivial
  | queryDone o => exact hfull trivial
  | scan =>
    obtain ⟨hactive, hempty⟩ := not_or.mp hfull
    have halive := hsound.alive
    rw [Low.step, if_pos ⟨h.alive, Or.inr h.free⟩, call, Low.scan, if_neg hactive,
      walk_empty (not_not.mp hempty)] at halive
    exact Bool.true_eq_false.mp halive

end Low

/-- The table is sound in every state of a run exactly if no resolver is created, and the web thread looks
at the table for no query, while a slot is empty. -/
theorem sound_iff_full (is : List Input) :
    (∀ js, js <+: is → (machine.run start js).Sound) ↔ machine.Guarded Low.Full start is := by
  apply Machine.forall_prefix_iff_guarded (fun s hs => hs.toSound) _ _ Low.inv_start
    (fun _ _ => trivial : ∀ i ∈ is, (fun _ => True) i)
  · intro s i hs _ hfull
    exact hs.step hfull
  · intro s i hs _ hfull
    exact hs.not_full hfull

/-- Of two resolvers the first one is deleted, and the third takes its slot. -/
theorem reuse_keeps_mutex :
    ¬(machine.run start [.create true, .create true, .finalizer 0, .create true]).Sound := by
  intro h
  exact absurd h.free (by decide)

end LowJs.Resolvers
