import LowJs.Loop.TimerStore

/-!
# The order in which timers fire

The counter of milliseconds has 32 bits, and `chore_times` is read as a circle that begins at
`last_chore_time`. The circle has the order of time as long as no deadline lies a turn behind another
one.
-/

namespace LowJs.Timers

namespace Low

variable {s : Low} {e : ChoreTime}

/-- No timer is due before `e`, and of those that are due with `e` none has been set before it. -/
def Earliest (s : Low) (e : ChoreTime) : Prop :=
  ∀ e' ∈ s.choreTimes, e.deadline < e'.deadline ∨ (e.deadline = e'.deadline ∧ e.order ≤ e'.order)

/-- The loop selects the earliest timer, if there is one. -/
structure InOrder (s : Low) : Prop where
  earliest : ∀ e, s.selected = some e → s.Earliest e
  selects : s.choreTimes ≠ [] → s.selected ≠ none

/-- No timer has been fired before its deadline. -/
def NotEarly (s : Low) : Prop := ∀ m ∈ s.fired, m.1.deadline ≤ m.2

/-- The turn of the counter, from the time of `last_chore_time` on, in which a timer is due. -/
def turnOf (s : Low) (e : ChoreTime) : Int := (e.deadline - s.turn) / 2 ^ 32

/-- All timers are due in the same turn of the counter. -/
def SameTurn (s : Low) : Prop := ∀ e ∈ s.choreTimes, ∀ e' ∈ s.choreTimes, s.turnOf e = s.turnOf e'

instance (s : Low) : Decidable s.SameTurn :=
  inferInstanceAs (Decidable (∀ e ∈ s.choreTimes, ∀ e' ∈ s.choreTimes, s.turnOf e = s.turnOf e'))

/-- All timers are due within the length of a turn. -/
def Close (s : Low) : Prop :=
  ∀ e ∈ s.choreTimes, ∀ e' ∈ s.choreTimes, e.deadline < e'.deadline + 2 ^ 32

/-! ### The clock -/

lemma int32_sub (a b : Int) : int32 (int32 a - int32 b) = int32 (a - b) := by
  simp [int32]

lemma int32_emod (a : Int) : int32 a % 2 ^ 32 = a % 2 ^ 32 := by
  rw [int32, Int.bmod_def]
  split <;> omega

/-- The stamps are the deadlines as the counter shows them, and equal stamps are in the order in which
their timers have been set. -/
structure Clocked (s : Low) : Prop where
  stamp : ∀ e ∈ s.choreTimes, e.stamp = int32 e.deadline
  turn : s.lastChoreTime = int32 s.turn
  ordered : s.choreTimes.Pairwise fun a b => a.stamp < b.stamp ∨ (a.stamp = b.stamp ∧ a.order < b.order)
  order : ∀ e ∈ s.choreTimes, e.order < s.sets
  near : ∀ e ∈ s.choreTimes, e.deadline < s.now + 2 ^ 31
  interval : ∀ i c, s.chores.lookup i = some c → 0 ≤ c.interval ∧ c.interval < 2 ^ 31
  notEarly : s.NotEarly

lemma Clocked.sorted (h : Clocked s) : s.choreTimes.Pairwise fun a b => a.stamp ≤ b.stamp :=
  h.ordered.imp fun hab => by omega

/-- The entries that are left, with some of the timers. -/
lemma Clocked.sublist (h : Clocked s) (chores : AList fun _ : Int => Chore) {times : List ChoreTime}
    (htimes : times.Sublist s.choreTimes)
    (hchores : ∀ i c, chores.lookup i = some c → ∃ i' c', s.chores.lookup i' = some c' ∧
      c'.interval = c.interval) : Clocked { s with chores := chores, choreTimes := times } where
  stamp := fun e he => h.stamp e (htimes.mem he)
  turn := h.turn
  ordered := h.ordered.sublist htimes
  order := fun e he => h.order e (htimes.mem he)
  near := fun e he => h.near e (htimes.mem he)
  interval := fun i c hc => by
    obtain ⟨i', c', hc', heq⟩ := hchores i c hc
    rw [← heq]
    exact h.interval i' c' hc'
  notEarly := h.notEarly

/-- A timer is set. -/
lemma Clocked.insert (h : Clocked s) {index deadline : Int} {c : Chore} {stamp : Int}
    (hstamp : stamp = int32 deadline) (hnear : deadline < s.now + 2 ^ 31)
    (hc : 0 ≤ c.interval ∧ c.interval < 2 ^ 31) :
    Clocked (insertTime { s with chores := s.chores.insert index c } stamp index deadline) where
  stamp := fun e he => by
    rcases Multimap.mem_insert.mp he with rfl | he
    · exact hstamp
    · exact h.stamp e he
  turn := h.turn
  ordered := by
    refine Multimap.pairwise_insert h.ordered h.sorted (fun e he hle => ?_) fun e he hlt => .inl hlt
    have horder := h.order e he
    rcases hle.lt_or_eq with hlt | heq
    · exact .inl hlt
    · exact .inr ⟨heq, horder⟩
  order := fun e he => by
    rcases Multimap.mem_insert.mp he with rfl | he
    · exact Nat.lt_succ_self s.sets
    · exact Nat.lt_succ_of_lt (h.order e he)
  near := fun e he => by
    rcases Multimap.mem_insert.mp he with rfl | he
    · exact hnear
    · exact h.near e he
  interval := fun i c' hc' => by
    have hc' : (s.chores.insert index c).lookup i = some c' := hc'
    by_cases hi : i = index
    · rw [hi, AList.lookup_insert] at hc'
      cases hc'
      exact hc
    · rw [AList.lookup_insert_ne hi] at hc'
      exact h.interval i c' hc'
  notEarly := h.notEarly

lemma Clocked.eraseTime (h : Clocked s) (stamp index : Int) : Clocked (s.eraseTime stamp index) := by
  rw [Low.eraseTime]
  split
  · exact { h with }
  · exact h.sublist s.chores List.erase_sublist fun i c hc => ⟨i, c, hc, rfl⟩

/-- A timer is forgotten. -/
lemma Clocked.forget (h : Clocked s) (index : Int) :
    Clocked { s with chores := s.chores.erase index } := by
  refine h.sublist _ (List.Sublist.refl _) fun i c hc => ⟨i, c, ?_, rfl⟩
  by_cases hi : i = index
  · rw [hi, AList.lookup_erase] at hc
    cases hc
  · rwa [AList.lookup_erase_ne hi] at hc

lemma Clocked.setChore (h : Clocked s) {delay : Int} (hdelay : IsInt32 delay) (oneshot : Bool) :
    Clocked (s.low_loop_set_chore delay oneshot) := by
  unfold IsInt32 at hdelay
  rw [low_loop_set_chore]
  split
  · exact { h with }
  · next index t ht =>
    obtain ⟨j, hj, heq⟩ := Option.map_eq_some_iff.mp ht
    cases heq
    have h' : Clocked { s with
        lastStashIndex := index
        stash := index :: s.stash
        runRef := s.runRef + 1 } := { h with }
    refine h'.insert (int32_add _ _) ?_ ?_
    · change s.now + (if delay < 0 then 0 else delay) < s.now + 2 ^ 31
      split <;> omega
    · change 0 ≤ (if delay < 0 then 0 else delay) ∧ (if delay < 0 then 0 else delay) < 2 ^ 31
      split <;> omega

lemma Clocked.setTimeout (h : Clocked s) (index : Int) {delay : Int} (hdelay : IsInt32 delay)
    (call data : Nat) : Clocked (s.low_set_timeout index delay call data) := by
  unfold IsInt32 at hdelay
  have hset (t : Low) (ht : Clocked t) (i : Int) :
      let delay := if delay < 0 then 0 else delay
      let stamp := int32 (t.low_tick_count + delay)
      Clocked (insertTime { t with chores := t.chores.insert i ⟨stamp, delay, .c call data, false⟩ }
        stamp i (t.now + delay)) := by
    refine ht.insert (int32_add _ _) ?_ ?_
    · split <;> omega
    · dsimp only
      split <;> omega
  rw [low_set_timeout]
  by_cases hzero : index = 0
  · rw [if_pos hzero]
    exact hset s h _
  · rw [if_neg hzero]
    cases hchore : s.chores.lookup index with
    | none => exact hset s h _
    | some chore =>
      have h' : Clocked ((s.eraseTime chore.stamp index).dropRef chore) :=
        { h.eraseTime chore.stamp index with }
      exact hset _ h' _

/-- The timer that is selected fires when it is due, and not before. -/
lemma Clocked.due (h : Clocked s) (he : e ∈ s.choreTimes)
    (hdue : int32 (e.stamp - s.low_tick_count) ≤ 0) : e.deadline ≤ s.now := by
  rw [h.stamp e he, low_tick_count, int32_sub] at hdue
  have hnear := h.near e he
  by_contra hlate
  rw [int32_eq ⟨by omega, by omega⟩] at hdue
  omega

lemma Clocked.fireChores (h : Clocked s) (hs : Inv s) : Clocked s.fireChores := by
  rw [Low.fireChores]
  split
  · exact h
  · next e hsel =>
    split
    · next hdue =>
      have he : e ∈ s.choreTimes := Multimap.mem_of_next hsel
      obtain ⟨chore, hchore, hstamp⟩ := hs.chore e he
      have hearly := h.due he hdue
      have hinterval := h.interval e.index chore hchore
      have hfired : Clocked { s with
          lastChoreTime := e.stamp
          turn := e.deadline
          choreTimes := s.choreTimes.erase e
          fired := s.fired ++ [(e, s.now)] } := by
        refine { h.sublist s.chores (List.erase_sublist (a := e))
          (fun i c hc => ⟨i, c, hc, rfl⟩) with turn := h.stamp e he, notEarly := fun m hm => ?_ }
        rcases List.mem_append.mp hm with hm | hm
        · exact h.notEarly m hm
        · cases List.mem_singleton.mp hm
          exact hearly
      dsimp only
      rw [hchore]
      dsimp only
      rw [fireChore]
      split
      · exact { hfired.forget e.index with }
      · exact { hfired.forget e.index with }
      · dsimp only
        refine hfired.insert ?_ ?_ hinterval
        · have heq : int32 (chore.stamp + chore.interval) = int32 (e.deadline + chore.interval) := by
            rw [hstamp, h.stamp e he, int32_add]
          split
          · next hr => rw [hr, heq]
          · next hr =>
            unfold rearmStamp at hr ⊢
            dsimp only at hr ⊢
            split at hr
            · next hneg =>
              rw [if_pos hneg]
              rfl
            · exact absurd rfl hr
        · have hnext : e.deadline + chore.interval < s.now + 2 ^ 31 := by omega
          split
          · exact hnext
          · change s.now < s.now + 2 ^ 31
            omega
    · exact h

lemma Clocked.step (h : Clocked s) (hs : Inv s) (i : Input) : Clocked (s.step i) := by
  rw [Low.step]
  split
  · exact h
  · cases i with
    | elapse ms =>
      refine { h with near := fun e he => ?_ }
      have := h.near e he
      change e.deadline < s.now + ms + 2 ^ 31
      omega
    | setChore delay oneshot => exact h.setChore delay.2 oneshot
    | clearChore index =>
      dsimp only [Low.call]
      rw [low_loop_clear_chore]
      split
      · exact h
      · next chore hchore =>
        have h' : Clocked ((s.eraseTime chore.stamp index).dropRef chore) :=
          { h.eraseTime chore.stamp index with }
        exact { h'.forget index with }
    | setTimeout index delay call data => exact h.setTimeout index delay.2 call data
    | clearTimeout index =>
      dsimp only [Low.call]
      rw [low_clear_timeout]
      split
      · exact h
      · next chore hchore =>
        have h' : Clocked ((s.eraseTime chore.stamp index).dropRef chore) :=
          { h.eraseTime chore.stamp index with }
        exact h'.forget index
    | choreRef index ref =>
      dsimp only [Low.call]
      rw [low_loop_chore_ref]
      split
      · exact h
      · next chore hchore =>
        split
        · refine { h with interval := fun i c hc => ?_ }
          by_cases hi : i = index
          · rw [hi, AList.lookup_insert] at hc
            cases hc
            exact h.interval index chore hchore
          · rw [AList.lookup_insert_ne hi] at hc
            exact h.interval i c hc
        · exact h
    | fire => exact h.fireChores hs
    | addStash =>
      dsimp only [Low.call]
      split
      · exact { h with }
      · next index t ht =>
        obtain ⟨j, hj, heq⟩ := Option.map_eq_some_iff.mp ht
        cases heq
        exact { h with }
    | removeStash index =>
      dsimp only [Low.call]
      split
      · exact { h with }
      · exact h
    | runRef n => exact { h with }

lemma clocked_start (now : Int) : Clocked (start now) where
  stamp := fun e he => by cases he
  turn := rfl
  ordered := .nil
  order := fun e he => by cases he
  near := fun e he => by cases he
  interval := fun i c hc => by
    rw [start, AList.lookup_empty] at hc
    cases hc
  notEarly := fun m hm => by cases hm

/-! ### The timer that is selected -/

/-- How far a timer lies from `last_chore_time` on the circle. -/
def place (s : Low) (e : ChoreTime) : Int := (e.deadline - s.turn) % 2 ^ 32

lemma Clocked.place (h : Clocked s) (he : e ∈ s.choreTimes) :
    s.place e = if s.lastChoreTime ≤ e.stamp then e.stamp - s.lastChoreTime
      else e.stamp - s.lastChoreTime + 2 ^ 32 := by
  have h1 := isInt32_int32 e.deadline
  have h2 := isInt32_int32 s.turn
  rw [h.stamp e he, h.turn, Low.place]
  unfold IsInt32 at h1 h2
  have h3 := int32_emod e.deadline
  have h4 := int32_emod s.turn
  split <;> omega

/-- The timer that is selected comes first on the circle, and of those at its place it has been set
first. -/
lemma Clocked.selected (h : Clocked s) (hsel : s.selected = some e) {e' : ChoreTime}
    (he' : e' ∈ s.choreTimes) : s.place e < s.place e' ∨ (s.place e = s.place e' ∧ e.order ≤ e'.order) := by
  have he : e ∈ s.choreTimes := Multimap.mem_of_next hsel
  rw [h.place he, h.place he']
  have hint {a : ChoreTime} (ha : a ∈ s.choreTimes) : -2 ^ 31 ≤ a.stamp ∧ a.stamp < 2 ^ 31 := by
    rw [h.stamp a ha]
    exact isInt32_int32 a.deadline
  have h1 := hint he
  have h2 := hint he'
  obtain ⟨before, behind, hlist, hfirst⟩ := Multimap.next_eq_some hsel
  have hordered := h.ordered
  rw [hlist] at hordered
  have hbehind (hmem : e' ∈ behind) : e.stamp < e'.stamp ∨ (e.stamp = e'.stamp ∧ e.order < e'.order) :=
    (List.pairwise_cons.mp (List.pairwise_append.mp hordered).2.1).1 e' hmem
  rw [hlist] at he'
  rcases List.mem_append.mp he' with hmem | hmem
  · rcases hfirst with ⟨hle, hbefore⟩ | ⟨rfl, -⟩
    · have hlt := hbefore e' hmem
      rw [if_pos hle, if_neg (by omega)]
      omega
    · cases hmem
  · rcases List.mem_cons.mp hmem with rfl | hmem
    · exact .inr ⟨rfl, le_refl _⟩
    · have hord := hbehind hmem
      rcases hfirst with ⟨hle, -⟩ | ⟨-, hall⟩
      · rw [if_pos hle, if_pos (by omega)]
        omega
      · have hlt := hall e he
        have hlt' := hall e' (hlist ▸ he')
        rw [if_neg (by omega), if_neg (by omega)]
        omega

lemma Clocked.inOrder (h : Clocked s) (hturn : s.SameTurn) : s.InOrder where
  earliest := fun e hsel e' he' => by
    have hplace := h.selected hsel he'
    have hsame := hturn e (Multimap.mem_of_next hsel) e' he'
    unfold turnOf at hsame
    unfold Low.place at hplace
    omega
  selects := fun hne hnone => hne (Multimap.next_eq_none.mp hnone)

lemma Clocked.sameTurn (h : Clocked s) (hclose : s.Close) (hin : s.InOrder) : s.SameTurn := by
  -- all timers are due in the turn of the one that is selected
  have hone {e : ChoreTime} (hsel : s.selected = some e) {e' : ChoreTime} (he' : e' ∈ s.choreTimes) :
      s.turnOf e = s.turnOf e' := by
    have hplace := h.selected hsel he'
    have hearly := hin.earliest e hsel e' he'
    have hnear := hclose e' he' e (Multimap.mem_of_next hsel)
    unfold turnOf
    unfold Low.place at hplace
    omega
  intro e he e' he'
  obtain ⟨e₀, hsel⟩ := Option.ne_none_iff_exists'.mp (hin.selects (List.ne_nil_of_mem he))
  exact (hone hsel he).symm.trans (hone hsel he')

lemma clocked_run (now : Int) (is : List Input)
    (hroom : machine.Guarded HasRoom (start now) is) : Clocked (machine.run (start now) is) := by
  have hrun : Inv (machine.run (start now) is) ∧ Clocked (machine.run (start now) is) :=
    Machine.run_invariant (P := fun s => Inv s ∧ Clocked s)
      (fun _ i h hi => ⟨h.1.step hi, h.2.step h.1 i⟩) ⟨inv_start now, clocked_start now⟩ hroom
  exact hrun.2

/-- In every state that a run reaches, no timer has been fired before its deadline, and the loop
selects the earliest timer if all of them are due in the same turn of the counter; it selects a wrong
one if they are not, unless two of them are a whole turn apart. -/
theorem timers_in_order (now : Int) (is : List Input)
    (hroom : machine.Guarded HasRoom (start now) is) :
    (machine.run (start now) is).Bijective ∧ (machine.run (start now) is).NotEarly ∧
      ((machine.run (start now) is).SameTurn → (machine.run (start now) is).InOrder) ∧
      ((machine.run (start now) is).Close →
        ((machine.run (start now) is).InOrder ↔ (machine.run (start now) is).SameTurn)) :=
  have h := clocked_run now is hroom
  ⟨(inv_run now is hroom).sound.bijective, h.notEarly, h.inOrder,
    fun hclose => ⟨h.sameTurn hclose, h.inOrder⟩⟩

/-- Two timers across the point at which the counter becomes negative. -/
def acrossSign : List Input :=
  [.setChore ⟨2000, by decide⟩ true, .setChore ⟨500, by decide⟩ true, .elapse 600, .fire]

theorem timers_in_order_across : (machine.run (start (2 ^ 31 - 1000)) acrossSign).fired.length = 1 ∧
    (machine.run (start (2 ^ 31 - 1000)) acrossSign).InOrder :=
  ⟨by decide +kernel, (timers_in_order (2 ^ 31 - 1000) acrossSign (by decide +kernel)).2.2.1
    (by decide +kernel)⟩

/-- Seven weeks without a timer, and then two of them across the time at which the counter shows
`last_chore_time` again. -/
def afterWeeks : List Input :=
  [.elapse (2 ^ 32 - 1000), .setChore ⟨2000, by decide⟩ true, .setChore ⟨500, by decide⟩ true]

/-- The timer that is due first is not selected. -/
theorem timers_out_of_order : ¬(machine.run (start 0) afterWeeks).InOrder := by
  intro h
  have hsel : ∃ e, (machine.run (start 0) afterWeeks).selected = some e ∧
      ∃ e' ∈ (machine.run (start 0) afterWeeks).choreTimes, e'.deadline < e.deadline :=
    ⟨_, rfl, by decide +kernel⟩
  obtain ⟨e, hsel, e', he', hlt⟩ := hsel
  have := h.earliest e hsel e' he'
  omega

end Low

end LowJs.Timers
