import LowJs.Loop.Timers

/-!
# The two containers of the timers

`chores` and `chore_times` hold the same timers, and the timers' share of `run_ref` counts those that
keep the loop alive. Each operation takes a timer out of one container and then out of the other, or
puts it into both; `Without` describes the store while one timer is out.
-/

namespace LowJs.Timers

namespace Low

variable {s : Low} {i : Int} {c : Chore} {e : ChoreTime}

/-- The number of timers that keep the loop alive. -/
def refCount (chores : AList fun _ : Int => Chore) : Nat := chores.entries.countP fun m => m.2.ref

/-- `chores` and `chore_times` have the same timers. -/
structure Bijective (s : Low) : Prop where
  indices : (s.choreTimes.map ChoreTime.index).Nodup
  chore : ∀ e ∈ s.choreTimes, ∃ c, s.chores.lookup e.index = some c ∧ c.stamp = e.stamp
  time : ∀ i c, s.chores.lookup i = some c → ∃ e ∈ s.choreTimes, e.index = i ∧ e.stamp = c.stamp

/-- Every search for a timer among the equal stamps ends at its entry. -/
def SearchesEnd (s : Low) : Prop :=
  ∀ i c, s.chores.lookup i = some c →
    ∃ e ∈ s.choreTimes, s.searchTime c.stamp i = some e ∧ e.index = i ∧ e.stamp = c.stamp

/-- The store is in order, and the timers' share of `run_ref` is right. -/
structure Sound (s : Low) : Prop where
  bijective : s.Bijective
  searches : s.SearchesEnd
  refs : s.runRef = s.otherRef + refCount s.chores
  defined : s.undefined = false

/-! ### Counting -/

lemma refCount_insert (chores : AList fun _ : Int => Chore) (i : Int) (c : Chore) :
    refCount (chores.insert i c) = refCount (chores.erase i) + if c.ref then 1 else 0 := by
  rw [refCount, AList.entries_insert, List.countP_cons]
  rfl

lemma refCount_erase {chores : AList fun _ : Int => Chore} (h : chores.lookup i = some c) :
    refCount chores = refCount (chores.erase i) + if c.ref then 1 else 0 := by
  have hmem : i ∈ chores.entries.keys := AList.lookup_isSome.mp (by simp [h])
  obtain ⟨b, before, behind, hnot, hentries, herase⟩ := List.exists_of_kerase hmem
  have hb : b = c := by
    have hlook : List.dlookup i chores.entries = some c := h
    rw [hentries, List.dlookup_append, List.dlookup_eq_none.mpr hnot] at hlook
    simpa using hlook
  have h1 : refCount chores = (before ++ ⟨i, b⟩ :: behind).countP fun m => m.2.ref := by
    rw [refCount, hentries]
  have h2 : refCount (chores.erase i) = (before ++ behind).countP fun m => m.2.ref := by
    rw [refCount, ← herase]
    rfl
  rw [h1, h2]
  simp only [List.countP_append, List.countP_cons, hb]
  omega

lemma erase_of_lookup {chores : AList fun _ : Int => Chore} (h : chores.lookup i = none) :
    chores.erase i = chores :=
  AList.ext (List.kerase_of_notMem_keys (AList.lookup_eq_none.mp h))

/-! ### A timer is out -/

/-- What holds of every timer but `i`, which is in neither container or only in `chores`, with its
share of `run_ref` given back. -/
structure Without (i : Int) (s : Low) : Prop where
  sorted : s.choreTimes.Pairwise fun a b => a.stamp ≤ b.stamp
  indices : (s.choreTimes.map ChoreTime.index).Nodup
  out : ∀ e ∈ s.choreTimes, e.index ≠ i
  chore : ∀ e ∈ s.choreTimes, ∃ c, s.chores.lookup e.index = some c ∧ c.stamp = e.stamp
  time : ∀ j c, j ≠ i → s.chores.lookup j = some c → ∃ e ∈ s.choreTimes, e.index = j
  refs : s.runRef = s.otherRef + refCount (s.chores.erase i)
  owned : ∀ j ∈ s.chores, j ≠ 0 ∧ IsInt32 j ∧ j ∉ s.otherStash
  stashed : ∀ j ∈ s.chores, j ≠ i → 0 < j → j ∈ s.stash
  others : ∀ j ∈ s.otherStash, j ∈ s.stash ∧ 0 < j
  defined : s.undefined = false

/-- The store in order. -/
structure Inv (s : Low) : Prop where
  sorted : s.choreTimes.Pairwise fun a b => a.stamp ≤ b.stamp
  indices : (s.choreTimes.map ChoreTime.index).Nodup
  chore : ∀ e ∈ s.choreTimes, ∃ c, s.chores.lookup e.index = some c ∧ c.stamp = e.stamp
  time : ∀ j c, s.chores.lookup j = some c → ∃ e ∈ s.choreTimes, e.index = j
  refs : s.runRef = s.otherRef + refCount s.chores
  owned : ∀ j ∈ s.chores, j ≠ 0 ∧ IsInt32 j ∧ j ∉ s.otherStash
  stashed : ∀ j ∈ s.chores, 0 < j → j ∈ s.stash
  others : ∀ j ∈ s.otherStash, j ∈ s.stash ∧ 0 < j
  defined : s.undefined = false

/-- A timer that is not there is out. -/
lemma Inv.without (h : Inv s) (hi : s.chores.lookup i = none) : Without i s where
  sorted := h.sorted
  indices := h.indices
  out := fun e he hei => by
    obtain ⟨c, hc, -⟩ := h.chore e he
    rw [hei, hi] at hc
    cases hc
  chore := h.chore
  time := fun j c _ hj => h.time j c hj
  refs := by
    rw [erase_of_lookup hi]
    exact h.refs
  owned := h.owned
  stashed := fun j hj _ => h.stashed j hj
  others := h.others
  defined := h.defined

/-- The entry of a timer is the only one with its index. -/
lemma Inv.eq_of_index (h : Inv s) {e' : ChoreTime} (he : e ∈ s.choreTimes)
    (he' : e' ∈ s.choreTimes) (heq : e'.index = e.index) : e' = e :=
  List.inj_on_of_nodup_map h.indices he' he heq

lemma Inv.entry (h : Inv s) (hi : s.chores.lookup i = some c) :
    ∃ e ∈ s.choreTimes, e.index = i ∧ e.stamp = c.stamp := by
  obtain ⟨e, he, hei⟩ := h.time i c hi
  obtain ⟨c', hc', hstamp⟩ := h.chore e he
  rw [hei, hi] at hc'
  cases hc'
  exact ⟨e, he, hei, hstamp.symm⟩

/-- The search for a timer ends at its entry. -/
lemma Inv.searchTime (h : Inv s) (he : e ∈ s.choreTimes) :
    s.searchTime e.stamp e.index = some e :=
  Multimap.seek_eq_some h.sorted he (by simp) fun e' he' heq =>
    h.eq_of_index he he' (by simpa using heq)

/-- A timer's entry is erased, and its share of `run_ref` given back. -/
lemma Inv.erased (h : Inv s) (hi : s.chores.lookup i = some c) (he : e ∈ s.choreTimes)
    (hei : e.index = i) :
    Without i (dropRef { s with choreTimes := s.choreTimes.erase e } c) where
  sorted := h.sorted.sublist List.erase_sublist
  indices := h.indices.sublist (List.erase_sublist.map _)
  out := fun e' he' hei' => by
    have hmem := List.mem_of_mem_erase he'
    have heq := h.eq_of_index he hmem (hei'.trans hei.symm)
    subst heq
    have hnodup : s.choreTimes.Nodup := List.Nodup.of_map _ h.indices
    exact hnodup.not_mem_erase he'
  chore := fun e' he' => h.chore e' (List.mem_of_mem_erase he')
  time := fun j c' hj hc' => by
    obtain ⟨e', he', hej⟩ := h.time j c' hc'
    refine ⟨e', (List.mem_erase_of_ne fun heq => hj ?_).mpr he', hej⟩
    rw [← hej, heq, hei]
  refs := by
    have hcount := refCount_erase hi
    have hrefs := h.refs
    change (if c.ref then s.runRef - 1 else s.runRef) = s.otherRef + refCount (s.chores.erase i)
    cases hc : c.ref
    · simp only [hc, Bool.false_eq_true, if_false] at hcount ⊢
      omega
    · simp only [hc, if_true] at hcount ⊢
      omega
  owned := h.owned
  stashed := fun j hj _ => h.stashed j hj
  others := h.others
  defined := h.defined

lemma Inv.eraseTime (h : Inv s) (hi : s.chores.lookup i = some c) :
    Without i ((s.eraseTime c.stamp i).dropRef c) := by
  obtain ⟨e, he, rfl, hstamp⟩ := h.entry hi
  have herase : s.eraseTime c.stamp e.index = { s with choreTimes := s.choreTimes.erase e } := by
    rw [Low.eraseTime, ← hstamp, h.searchTime he]
  rw [herase]
  exact h.erased hi he rfl

/-- The timer that is out is forgotten. -/
lemma Without.forget (h : Without i s) : Inv { s with chores := s.chores.erase i } where
  sorted := h.sorted
  indices := h.indices
  chore := fun e he => by
    dsimp only at he ⊢
    rw [AList.lookup_erase_ne (h.out e he)]
    exact h.chore e he
  time := fun j c hc => by
    dsimp only at hc
    by_cases hj : j = i
    · subst hj
      rw [AList.lookup_erase] at hc
      cases hc
    · rw [AList.lookup_erase_ne hj] at hc
      exact h.time j c hj hc
  refs := h.refs
  owned := fun j hj => h.owned j (AList.mem_erase.mp hj).2
  stashed := fun j hj => h.stashed j (AList.mem_erase.mp hj).2 (AList.mem_erase.mp hj).1
  others := h.others
  defined := h.defined

/-- The stash gives up the place of a timer that is out. -/
lemma Without.removeStash (h : Without i s) (hi : i ∉ s.otherStash) :
    Without i (s.low_remove_stash i) where
  sorted := h.sorted
  indices := h.indices
  out := h.out
  chore := h.chore
  time := h.time
  refs := h.refs
  owned := h.owned
  stashed := fun j hj hne hpos =>
    List.mem_filter.mpr ⟨h.stashed j hj hne hpos, by simpa using hne⟩
  others := fun j hj => by
    have hne : j ≠ i := fun heq => hi (heq ▸ hj)
    exact ⟨List.mem_filter.mpr ⟨(h.others j hj).1, by simpa using hne⟩, (h.others j hj).2⟩
  defined := h.defined

/-- A timer that is out is set. -/
lemma Without.insert (h : Without i s) {runRef : Int}
    (href : runRef = s.runRef + if c.ref then 1 else 0)
    (howned : i ≠ 0 ∧ IsInt32 i ∧ i ∉ s.otherStash) (hstash : 0 < i → i ∈ s.stash) (deadline : Int) :
    Inv (insertTime { s with chores := s.chores.insert i c, runRef := runRef }
      c.stamp i deadline) where
  sorted := Multimap.sorted_insert h.sorted
  indices := by
    have hperm := (Multimap.insert_perm ChoreTime.stamp ⟨c.stamp, i, deadline, s.sets⟩
      s.choreTimes).map ChoreTime.index
    refine hperm.nodup_iff.mpr (List.nodup_cons.mpr ⟨?_, h.indices⟩)
    rintro hmem
    obtain ⟨e, he, hei⟩ := List.mem_map.mp hmem
    exact h.out e he hei
  chore := fun e he => by
    rcases Multimap.mem_insert.mp he with rfl | he
    · exact ⟨c, AList.lookup_insert _, rfl⟩
    · obtain ⟨c', hc', hstamp⟩ := h.chore e he
      exact ⟨c', (AList.lookup_insert_ne (h.out e he)).trans hc', hstamp⟩
  time := fun j c' hc' => by
    by_cases hj : j = i
    · exact ⟨_, Multimap.mem_insert.mpr (.inl rfl), hj.symm⟩
    · have hc' : (s.chores.insert i c).lookup j = some c' := hc'
      rw [AList.lookup_insert_ne hj] at hc'
      obtain ⟨e, he, hej⟩ := h.time j c' hj hc'
      exact ⟨e, Multimap.mem_insert.mpr (.inr he), hej⟩
  refs := by
    have hrefs := h.refs
    change runRef = s.otherRef + refCount (s.chores.insert i c)
    rw [refCount_insert, href, hrefs]
    push_cast
    split <;> omega
  owned := fun j hj => by
    rcases (AList.mem_insert _).mp hj with rfl | hj
    · exact howned
    · exact h.owned j hj
  stashed := fun j hj hpos => by
    by_cases heq : j = i
    · subst heq
      exact hstash hpos
    · exact h.stashed j (((AList.mem_insert _).mp hj).resolve_left heq) heq hpos
  others := h.others
  defined := h.defined

lemma Inv.sound (h : Inv s) : s.Sound where
  bijective := ⟨h.indices, h.chore, fun _ _ hi => h.entry hi⟩
  searches := fun i c hi => by
    obtain ⟨e, he, rfl, hstamp⟩ := h.entry hi
    refine ⟨e, he, ?_, rfl, hstamp⟩
    rw [← hstamp]
    exact h.searchTime he
  refs := h.refs
  defined := h.defined

/-! ### The operations -/

/-- What the stash gives is a positive `int` that was free. -/
lemma freeIndex_spec {stash : List Int} {n : Nat} {last : Int} (h : freeIndex stash n last = some i) :
    i ∉ stash ∧ 0 < i ∧ IsInt32 i := by
  induction n generalizing last with
  | zero => cases h
  | succ n ih =>
    unfold freeIndex at h
    dsimp only at h
    have hint := isInt32_int32 (last + 1)
    have hpos : 0 < (if int32 (last + 1) ≤ 0 then 1 else int32 (last + 1)) ∧
        IsInt32 (if int32 (last + 1) ≤ 0 then 1 else int32 (last + 1)) := by
      unfold IsInt32 at hint ⊢
      split <;> omega
    generalize (if int32 (last + 1) ≤ 0 then 1 else int32 (last + 1)) = k at h hpos
    by_cases hk : k ∈ stash
    · rw [if_pos hk] at h
      exact ih h
    · rw [if_neg hk] at h
      cases h
      exact ⟨hk, hpos⟩

lemma Inv.addStash (h : Inv s) {t : Low} (ht : s.low_add_stash = some (i, t)) :
    t = { s with lastStashIndex := i, stash := i :: s.stash } ∧ s.chores.lookup i = none ∧ i ≠ 0 ∧
      IsInt32 i ∧ i ∉ s.otherStash := by
  obtain ⟨j, hj, heq⟩ := Option.map_eq_some_iff.mp ht
  cases heq
  obtain ⟨hnot, hpos, hint⟩ := freeIndex_spec hj
  refine ⟨rfl, AList.lookup_eq_none.mpr fun hmem => hnot (h.stashed i hmem hpos), ?_, hint,
    fun hmem => hnot (h.others i hmem).1⟩
  omega

/-- More places of the stash are taken. -/
lemma Inv.stashCons (h : Inv s) (i last : Int) :
    Inv { s with lastStashIndex := last, stash := i :: s.stash } :=
  { h with
    stashed := fun j hj hpos => List.mem_cons_of_mem i (h.stashed j hj hpos)
    others := fun j hj => ⟨List.mem_cons_of_mem i (h.others j hj).1, (h.others j hj).2⟩ }

lemma Inv.hung (h : Inv s) : Inv { s with hung := true } := { h with }

lemma Inv.setChore (h : Inv s) (delay : Int) (oneshot : Bool) :
    Inv (s.low_loop_set_chore delay oneshot) := by
  rw [low_loop_set_chore]
  split
  · exact h.hung
  · next index t ht =>
    obtain ⟨rfl, hnone, howned⟩ := h.addStash ht
    exact ((h.stashCons index index).without hnone).insert (c := ⟨_, _, _, true⟩) rfl howned
      (fun _ => List.mem_cons_self) _

lemma Inv.clearChore (h : Inv s) (index : Int) : Inv (s.low_loop_clear_chore index) := by
  rw [low_loop_clear_chore]
  split
  · exact h
  · next chore hchore =>
    have hout := h.eraseTime hchore
    have hother : index ∉ s.otherStash := (h.owned index (AList.lookup_isSome.mp (by simp [hchore]))).2.2
    have hother : index ∉ ((s.eraseTime chore.stamp index).dropRef chore).otherStash := by
      rw [dropRef, Low.eraseTime]
      split <;> exact hother
    exact (hout.removeStash hother).forget

lemma Inv.clearTimeout (h : Inv s) (index : Int) : Inv (s.low_clear_timeout index) := by
  rw [low_clear_timeout]
  split
  · exact h
  · next chore hchore => exact (h.eraseTime hchore).forget

/-- There is a number below the least index. -/
def Room (s : Low) : Prop := ∀ i ∈ s.chores.keys, -2 ^ 31 < i

instance (s : Low) : Decidable s.Room := inferInstanceAs (Decidable (∀ i ∈ s.chores.keys, _))

lemma Inv.timeoutIndex (h : Inv s) (hroom : s.Room) :
    s.chores.lookup s.timeoutIndex = none ∧ s.timeoutIndex < 0 ∧ IsInt32 s.timeoutIndex := by
  rw [AList.lookup_eq_none]
  rw [Low.timeoutIndex]
  cases hmin : s.chores.keys.min? with
  | none =>
    have hnil : s.chores.keys = [] := List.min?_eq_none_iff.mp hmin
    refine ⟨fun hmem => ?_, by decide, by decide⟩
    rw [AList.mem_keys, hnil] at hmem
    cases hmem
  | some least =>
    obtain ⟨hmem, hle⟩ := List.min?_eq_some_iff.mp hmin
    have hlow := hroom least hmem
    obtain ⟨-, hint, -⟩ := h.owned least (AList.mem_keys.mpr hmem)
    unfold IsInt32 at hint
    have heq : int32 (least - 1) = least - 1 := int32_eq ⟨by omega, by omega⟩
    simp only [heq]
    split
    · next hge =>
      refine ⟨fun hin => ?_, by decide, by decide⟩
      have := hle (-1) (AList.mem_keys.mp hin)
      omega
    · next hlt =>
      refine ⟨fun hin => ?_, by omega, ⟨by omega, by omega⟩⟩
      have := hle _ (AList.mem_keys.mp hin)
      omega

/-- A timer of C code that is out is set. -/
lemma Without.setTimeout (h : Without i s) (hneg : i < 0) (hint : IsInt32 i) (delay : Int)
    (call data : Nat) (hother : i ∉ s.otherStash) :
    let delay := if delay < 0 then 0 else delay
    let stamp := int32 (s.low_tick_count + delay)
    Inv (insertTime { s with chores := s.chores.insert i ⟨stamp, delay, .c call data, false⟩ }
      stamp i (s.now + delay)) :=
  h.insert (c := ⟨_, _, _, false⟩) (by simp) ⟨by omega, hint, hother⟩ (fun hpos => by omega) _

lemma Inv.setTimeout (h : Inv s) {index : Int} (hindex : IsInt32 index ∧ index ≤ 0)
    (hroom : index = 0 → s.Room) (delay : Int) (call data : Nat) : Inv (s.low_set_timeout index delay call data) := by
  have hother {j : Int} (hj : j < 0) : j ∉ s.otherStash := fun hmem => by
    have := (h.others j hmem).2
    omega
  rw [low_set_timeout]
  by_cases hzero : index = 0
  · obtain ⟨hnone, hneg, hint⟩ := h.timeoutIndex (hroom hzero)
    rw [if_pos hzero]
    exact (h.without hnone).setTimeout hneg hint delay call data (hother hneg)
  · have hneg : index < 0 := by omega
    rw [if_neg hzero]
    cases hchore : s.chores.lookup index with
    | none => exact (h.without hchore).setTimeout hneg hindex.1 delay call data (hother hneg)
    | some chore =>
      have hout := h.eraseTime hchore
      refine hout.setTimeout hneg hindex.1 delay call data ?_
      rw [dropRef, Low.eraseTime]
      split <;> exact hother hneg

lemma Inv.choreRef (h : Inv s) (index : Int) (ref : Bool) : Inv (s.low_loop_chore_ref index ref) := by
  rw [low_loop_chore_ref]
  split
  · exact h
  · next chore hchore =>
    split
    · next hne =>
      have hcount := refCount_erase hchore
      have hrefs := h.refs
      have hmem {j : Int} (hj : j ∈ s.chores.insert index { chore with ref := ref }) :
          j ∈ s.chores := by
        rcases (AList.mem_insert _).mp hj with rfl | hj
        · exact AList.lookup_isSome.mp (by simp [hchore])
        · exact hj
      refine { h with chore := ?_, time := ?_, refs := ?_, owned := ?_, stashed := ?_ }
      · intro e he
        obtain ⟨c, hc, hstamp⟩ := h.chore e he
        by_cases hei : e.index = index
        · rw [hei, hchore] at hc
          cases hc
          refine ⟨{ chore with ref := ref }, ?_, hstamp⟩
          rw [hei]
          exact AList.lookup_insert _
        · exact ⟨c, (AList.lookup_insert_ne hei).trans hc, hstamp⟩
      · intro j c hc
        by_cases hj : j = index
        · exact hj ▸ h.time index chore hchore
        · exact h.time j c ((AList.lookup_insert_ne hj).symm.trans hc)
      · change (if ref then s.runRef + 1 else s.runRef - 1) =
          s.otherRef + refCount (s.chores.insert index { chore with ref := ref })
        rw [refCount_insert]
        cases hc : chore.ref
        · have hr : ref = true := by
            cases ref
            · exact absurd hc hne
            · rfl
          simp only [hc, hr, Bool.false_eq_true, if_false, if_true] at hcount ⊢
          push_cast
          omega
        · have hr : ref = false := by
            cases ref
            · rfl
            · exact absurd hc hne
          simp only [hc, hr, Bool.false_eq_true, if_false, if_true] at hcount ⊢
          push_cast
          omega
      · exact fun j hj => h.owned j (hmem hj)
      · exact fun j hj => h.stashed j (hmem hj)
    · exact h

lemma Inv.fireChores (h : Inv s) : Inv s.fireChores := by
  rw [Low.fireChores]
  split
  · exact h
  · next e hsel =>
    split
    · have he : e ∈ s.choreTimes := Multimap.mem_of_next hsel
      obtain ⟨chore, hchore, hstamp⟩ := h.chore e he
      have hout : Without e.index (dropRef { s with
          lastChoreTime := e.stamp
          turn := e.deadline
          choreTimes := s.choreTimes.erase e
          fired := s.fired ++ [(e, s.now)] } chore) :=
        { h.erased hchore he rfl with }
      obtain ⟨hne, hint, hother⟩ := h.owned e.index (AList.lookup_isSome.mp (by simp [hchore]))
      dsimp only
      rw [hchore]
      dsimp only
      rw [fireChore]
      split
      · exact hout.forget
      · exact (hout.removeStash hother).forget
      · dsimp only
        refine hout.insert (c := { chore with stamp := _ }) ?_ ⟨hne, hint, hother⟩ (fun hpos => ?_) _
        · change s.runRef = (if chore.ref then s.runRef - 1 else s.runRef) + if chore.ref then 1 else 0
          split <;> omega
        · exact h.stashed e.index (AList.lookup_isSome.mp (by simp [hchore])) hpos
    · exact h

/-! ### The runs -/

/-- A new timer of C code finds a number below the least index. -/
def HasRoom (s : Low) : Input → Prop
  | .setTimeout index _ _ _ => index.1 = 0 → s.Room
  | _ => True

instance (s : Low) (i : Input) : Decidable (s.HasRoom i) := by
  unfold HasRoom
  cases i <;> infer_instance

lemma Inv.step (h : Inv s) {i : Input} (hok : s.HasRoom i) : Inv (s.step i) := by
  rw [Low.step]
  split
  · exact h
  · cases i with
    | elapse ms => exact { h with }
    | setChore delay oneshot => exact h.setChore delay oneshot
    | clearChore index => exact h.clearChore index
    | setTimeout index delay call data => exact h.setTimeout index.2 hok delay call data
    | clearTimeout index => exact h.clearTimeout index
    | choreRef index ref => exact h.choreRef index ref
    | fire => exact h.fireChores
    | addStash =>
      dsimp only [Low.call]
      split
      · exact h.hung
      · next index t ht =>
        obtain ⟨rfl, hnone, -, -, -⟩ := h.addStash ht
        obtain ⟨j, hj, heq⟩ := Option.map_eq_some_iff.mp ht
        cases heq
        have hpos := (freeIndex_spec hj).2.1
        refine { h.stashCons index index with owned := fun k hk => ?_, others := fun k hk => ?_ }
        · obtain ⟨h1, h2, h3⟩ := h.owned k hk
          refine ⟨h1, h2, fun hmem => (List.mem_cons.mp hmem).elim (fun heq => ?_) h3⟩
          subst heq
          exact AList.lookup_eq_none.mp hnone hk
        · rcases List.mem_cons.mp hk with rfl | hk
          · exact ⟨List.mem_cons_self, hpos⟩
          · exact ⟨List.mem_cons_of_mem _ (h.others k hk).1, (h.others k hk).2⟩
    | removeStash index =>
      dsimp only [Low.call]
      split
      · next hmem =>
        refine { h with owned := fun k hk => ?_, stashed := fun k hk hpos => ?_, others := fun k hk => ?_ }
        · obtain ⟨h1, h2, h3⟩ := h.owned k hk
          exact ⟨h1, h2, fun hk => h3 (List.mem_of_mem_filter hk)⟩
        · have hne : k ≠ index := fun heq => (h.owned k hk).2.2 (heq ▸ hmem)
          exact List.mem_filter.mpr ⟨h.stashed k hk hpos, by simpa using hne⟩
        · obtain ⟨hk, hne⟩ := List.mem_filter.mp hk
          exact ⟨List.mem_filter.mpr ⟨(h.others k hk).1, hne⟩, (h.others k hk).2⟩
      · exact h
    | runRef n =>
      refine { h with refs := ?_ }
      have hrefs := h.refs
      change s.runRef + n = s.otherRef + n + refCount s.chores
      omega

lemma inv_start (now : Int) : Inv (start now) where
  sorted := .nil
  indices := .nil
  chore := fun e he => by cases he
  time := fun j c hc => by
    rw [start, AList.lookup_empty] at hc
    cases hc
  refs := rfl
  owned := fun j hj => absurd hj (AList.notMem_empty j)
  stashed := fun j hj => absurd hj (AList.notMem_empty j)
  others := fun j hj => by cases hj
  defined := rfl

lemma inv_run (now : Int) (is : List Input)
    (hroom : machine.Guarded HasRoom (start now) is) : Inv (machine.run (start now) is) :=
  Machine.run_invariant (P := Inv) (fun _ _ h hi => h.step hi) (inv_start now) hroom

/-- In every run in which each new timer of C code finds a number below the least index, the two
containers hold the same timers, the searches end, and the share of `run_ref` is right. -/
theorem timers_sound (now : Int) (is : List Input)
    (hroom : machine.Guarded HasRoom (start now) is) : (machine.run (start now) is).Sound :=
  (inv_run now is hroom).sound

/-- A timeout, an interval that fires, and a timer of C code that is set again. -/
def threeTimers : List Input :=
  [.setChore ⟨10, by decide⟩ true, .setChore ⟨5, by decide⟩ false,
    .setTimeout ⟨0, by decide⟩ ⟨7, by decide⟩ 1 2, .elapse 6, .fire, .choreRef 2 false,
    .setTimeout ⟨-1, by decide⟩ ⟨3, by decide⟩ 1 2, .clearChore 1]

theorem timers_sound_three :
    (machine.run (start 0) threeTimers).choreTimes.length = 2 ∧
      (machine.run (start 0) threeTimers).Sound :=
  ⟨by decide +kernel, timers_sound 0 threeTimers (by decide +kernel)⟩

/-! ### Where there is no room -/

/-- A timer of C code that is due at 0. -/
def dueNow : Chore := ⟨0, 0, .c 0 0, false⟩

/-- C code sets a new timer. -/
def setNew : Input := .setTimeout ⟨0, by decide⟩ ⟨0, by decide⟩ 0 0

/-- The first timer of C code and the last one, `m`, are live. -/
structure Drifted (m : Int) (s : Low) : Prop where
  chores : s.chores.entries = [⟨m, dueNow⟩, ⟨-1, dueNow⟩]
  times : ∃ d o d' o', s.choreTimes = [⟨0, -1, d, o⟩, ⟨0, m, d', o'⟩]
  now : s.now = 0
  hung : s.hung = false

/-- One more timer is set, and the last one is cleared. -/
lemma Drifted.next {m : Int} (h : Drifted m s) (hm : m < -1) (hroom : -2 ^ 31 < m) :
    Drifted (m - 1) (machine.run s [setNew, .clearTimeout m]) := by
  obtain ⟨hchores, ⟨d, o, d', o', htimes⟩, hnow, hhung⟩ := h
  have hkeys : s.chores.keys = [m, -1] := by
    rw [AList.keys, hchores]
    rfl
  have hmin : s.chores.keys.min? = some m := by
    rw [hkeys]
    exact List.min?_eq_some_iff.mpr ⟨by simp, by simp; omega⟩
  have hindex : s.timeoutIndex = m - 1 := by
    rw [timeoutIndex, hmin]
    have heq : int32 (m - 1) = m - 1 := int32_eq ⟨by omega, by omega⟩
    simp only [heq]
    rw [if_neg (by omega)]
  have hset : s.step setNew = { s with
      chores := s.chores.insert (m - 1) dueNow
      choreTimes := s.choreTimes ++ [⟨0, m - 1, s.now + 0, s.sets⟩]
      sets := s.sets + 1 } := by
    rw [Low.step, if_neg (by simp [hhung])]
    have htick : int32 (s.low_tick_count + 0) = 0 := by
      rw [low_tick_count, hnow]
      decide
    simp only [Low.call, setNew, low_set_timeout, if_true, hindex, insertTime, lt_irrefl, if_false,
      htick, htimes]
    rfl
  have hentries : (s.chores.insert (m - 1) dueNow).entries =
      [⟨m - 1, dueNow⟩, ⟨m, dueNow⟩, ⟨-1, dueNow⟩] := by
    rw [AList.entries_insert_of_notMem, hchores]
    rw [AList.mem_keys, hkeys]
    simp
    omega
  have hlookup : (s.chores.insert (m - 1) dueNow).lookup m = some dueNow := by
    rw [AList.lookup, hentries]
    rw [List.dlookup_cons_ne _ _ (by simp; omega), List.dlookup_cons_eq]
  have hne : m ≠ -1 := by omega
  have hne' : m - 1 ≠ m := by omega
  rw [Machine.run_cons, Machine.run_cons, Machine.run_nil]
  change Drifted (m - 1) ((s.step setNew).step (.clearTimeout m))
  rw [hset, Low.step, if_neg (by simp [hhung])]
  have hsearch (t : Low) (ht : t.choreTimes = [⟨0, -1, d, o⟩, ⟨0, m, d', o'⟩, ⟨0, m - 1, s.now + 0, s.sets⟩]) :
      t.eraseTime 0 m = { t with choreTimes := [⟨0, -1, d, o⟩, ⟨0, m - 1, s.now + 0, s.sets⟩] } := by
    have hseek : t.searchTime 0 m = some ⟨0, m, d', o'⟩ := by
      simp [searchTime, Multimap.seek, ht, hne.symm]
    rw [eraseTime, hseek, ht]
    simp [hne.symm]
  rw [Low.call, low_clear_timeout]
  dsimp only
  rw [hlookup]
  dsimp only
  rw [show dueNow.stamp = 0 from rfl, hsearch _ (by simp [htimes])]
  refine ⟨?_, ⟨_, _, _, _, rfl⟩, hnow, hhung⟩
  change List.kerase m (s.chores.insert (m - 1) dueNow).entries = _
  rw [hentries]
  rw [List.kerase_cons_ne (by simp; omega)]
  exact congrArg (_ :: ·) (List.kerase_cons_eq rfl)

/-- Every index can be reached. -/
lemma exists_drifted (n : Nat) (hn : n ≤ 2 ^ 31 - 2) :
    ∃ is, Drifted (-2 - n) (machine.run (start 0) is) := by
  induction n with
  | zero => exact ⟨[setNew, setNew], by decide +kernel, ⟨0, 0, 0, 1, by decide +kernel⟩, rfl, rfl⟩
  | succ n ih =>
    obtain ⟨is, his⟩ := ih (by omega)
    have h := his.next (by omega) (by omega)
    refine ⟨is ++ [setNew, .clearTimeout (-2 - n)], ?_⟩
    rw [Machine.run_append]
    have heq : (-2 : Int) - (n + 1 : Nat) = -2 - n - 1 := by omega
    rwa [heq]

/-- After two thousand million timers of C code, of which two were live at a time, the index of the
first one is given to a second timer. -/
theorem timers_unsound : ∃ is, ¬(machine.run (start 0) is).Sound := by
  obtain ⟨is, hchores, ⟨d, o, d', o', htimes⟩, hnow, hhung⟩ := exists_drifted (2 ^ 31 - 2) (le_refl _)
  refine ⟨is ++ [setNew], fun hsound => ?_⟩
  rw [Machine.run_append] at hsound
  generalize machine.run (start 0) is = s at hchores htimes hnow hhung hsound
  have hindex : s.timeoutIndex = -1 := by
    have hmin : s.chores.keys.min? = some (-2 - ((2 ^ 31 - 2 : Nat) : Int)) := by
      rw [AList.keys, hchores]
      decide
    rw [timeoutIndex, hmin]
    decide
  have hnodup := hsound.bijective.indices
  have hset : (machine.run s [setNew]).choreTimes =
      Multimap.insert ChoreTime.stamp ⟨int32 (s.low_tick_count + 0), -1, s.now + 0, s.sets⟩ s.choreTimes := by
    rw [Machine.run_cons, Machine.run_nil]
    change (s.step setNew).choreTimes = _
    rw [Low.step, if_neg (by simp [hhung])]
    simp only [Low.call, setNew, low_set_timeout, if_true, hindex, insertTime, lt_irrefl, if_false]
  rw [hset] at hnodup
  have hperm := ((Multimap.insert_perm ChoreTime.stamp
    ⟨int32 (s.low_tick_count + 0), -1, s.now + 0, s.sets⟩ s.choreTimes).map ChoreTime.index).nodup_iff.mp
    hnodup
  rw [htimes] at hperm
  simp at hperm

end Low

end LowJs.Timers
