import LowJs.Core.IntrusiveQueue
import LowJs.Core.Machine

/-!
# The loop callbacks

The callbacks that wait for the main loop are linked through `mNext`. Each operation holds
`loop_thread_mutex`, so that a run is a list of operations. Against this stands a queue without
duplicates.
-/

namespace LowJs.CallbackQueue

variable {α : Type*} [DecidableEq α]

/-- The operations. `pop` is a round of the loop, which ends before the pop if nothing waits. -/
inductive Input (α : Type*)
  | set (callback : α)
  | clear (callback : α)
  | pop
  deriving DecidableEq, Repr

/-- The queue part of `low_t` and the links of the callbacks. The rest is history: the callbacks whose
`OnLoop` was called, how often one was linked, and whether a link that leads nowhere was followed. -/
structure Low (α : Type*) where
  mNext : α → Option α
  loop_callback_first : Option α
  loop_callback_last : Option α
  called : List α
  links : Nat
  undefined : Bool

namespace Low

variable {s : Low α} {c : α}

/-- The test for a callback that waits. -/
def isSet (s : Low α) (callback : α) : Bool :=
  s.mNext callback != none || s.loop_callback_last == some callback

/-- `low_loop_set_callback`. -/
def low_loop_set_callback (s : Low α) (callback : α) : Low α :=
  if s.isSet callback then s
  else
    let s := { s with links := s.links + 1 }
    match s.loop_callback_last with
    | some last =>
      { s with
        mNext := Function.update s.mNext last (some callback)
        loop_callback_last := some callback }
    | none =>
      { s with
        loop_callback_first := some callback
        loop_callback_last := some callback }

/-- `elem->mNext` is made to lead past the callback. -/
def unlinkBehind (s : Low α) (elem callback : α) : Low α :=
  if s.loop_callback_last = some callback then
    { s with
      loop_callback_last := some elem
      mNext := Function.update s.mNext elem none }
  else { s with mNext := Function.update s.mNext elem (s.mNext callback) }

/-- `low_loop_clear_callback`. The search meets each of the linked callbacks once at most. -/
def low_loop_clear_callback (s : Low α) (callback : α) : Low α :=
  if s.isSet callback then
    let t :=
      if s.loop_callback_first = some callback then
        { s with
          loop_callback_first := s.mNext callback
          loop_callback_last := if s.mNext callback = none then none else s.loop_callback_last }
      else
        match predecessor s.mNext callback s.links s.loop_callback_first with
        | some elem => s.unlinkBehind elem callback
        | none => { s with undefined := true }
    { t with mNext := Function.update t.mNext callback none }
  else s

/-- The pop in `low_loop_run_safe`. -/
def low_loop_run_safe (s : Low α) : Low α :=
  match s.loop_callback_first with
  | some callback =>
    { s with
      loop_callback_first := s.mNext callback
      loop_callback_last := if s.mNext callback = none then none else s.loop_callback_last
      mNext := Function.update s.mNext callback none
      called := s.called ++ [callback] }
  | none => s

def step (s : Low α) : Input α → Low α
  | .set callback => s.low_loop_set_callback callback
  | .clear callback => s.low_loop_clear_callback callback
  | .pop => s.low_loop_run_safe

def start : Low α := ⟨fun _ => none, none, none, [], 0, false⟩

end Low

def machine : Machine (Low α) (Input α) := ⟨Low.step⟩

/-! ### The queue without duplicates -/

/-- What waits, in the order in which it was set, and what has been called. -/
structure Waiting (α : Type*) where
  queue : List α
  called : List α
  deriving DecidableEq, Repr

namespace Waiting

def step (w : Waiting α) : Input α → Waiting α
  | .set callback => if callback ∈ w.queue then w else { w with queue := w.queue ++ [callback] }
  | .clear callback => { w with queue := w.queue.filter (· ≠ callback) }
  | .pop => ⟨w.queue.tail, w.called ++ w.queue.head?.toList⟩

def start : Waiting α := ⟨[], []⟩

def machine : Machine (Waiting α) (Input α) := ⟨step⟩

end Waiting

/-- The list from `loop_callback_first` to `loop_callback_last` holds exactly what waits, in order; the
test is true exactly for what waits; both ends are null together; the loop has called what was taken out;
and no link that leads nowhere was followed. -/
structure Implements (s : Low α) (w : Waiting α) : Prop where
  linked : Linked s.mNext s.loop_callback_first w.queue
  last : s.loop_callback_last = w.queue.getLast?
  nodup : w.queue.Nodup
  test : ∀ c, s.isSet c = true ↔ c ∈ w.queue
  ends : s.loop_callback_first = none ↔ s.loop_callback_last = none
  called : s.called = w.called
  defined : s.undefined = false

/-! ### The operations -/

/-- The links lead through the queue, and those of other callbacks lead nowhere. -/
structure Holds (s : Low α) (xs : List α) : Prop where
  queue : IsQueue s.mNext ⟨s.loop_callback_first, s.loop_callback_last⟩ xs
  free : ∀ c, c ∉ xs → s.mNext c = none
  length : xs.length ≤ s.links
  defined : s.undefined = false

namespace Holds

variable {s : Low α} {xs ys : List α} {c : α}

lemma isSet_iff (h : Holds s xs) (c : α) : s.isSet c = true ↔ c ∈ xs := by
  rw [← h.queue.mem_iff (h.free c), Low.isSet]
  simp

lemma set (h : Holds s xs) (c : α) :
    Holds (s.low_loop_set_callback c) (if c ∈ xs then xs else xs ++ [c]) := by
  rw [Low.low_loop_set_callback]
  by_cases hc : c ∈ xs
  · rw [if_pos hc, if_pos ((h.isSet_iff c).mpr hc)]
    exact h
  · rw [if_neg hc, if_neg (mt (h.isSet_iff c).mp hc)]
    have hpush := h.queue.push hc (h.free c hc)
    have hlen : (xs ++ [c]).length ≤ s.links + 1 := by
      simpa using h.length
    have hfree (z : α) (hz : z ∉ xs ++ [c]) := h.queue.push_next (c := c)
      (fun hmem => hz (List.mem_append_left _ hmem))
    cases hlast : s.loop_callback_last with
    | some l =>
      simp only [Ends.push, hlast] at hpush hfree
      refine ⟨hpush, fun z hz => ?_, hlen, h.defined⟩
      exact (hfree z hz).trans (h.free z fun hmem => hz (List.mem_append_left _ hmem))
    | none =>
      simp only [Ends.push, hlast] at hpush
      refine ⟨hpush, fun z hz => ?_, hlen, h.defined⟩
      exact h.free z fun hmem => hz (List.mem_append_left _ hmem)

/-- The first callback is taken out. -/
lemma first (h : Holds s (c :: xs)) :
    IsQueue (Function.update s.mNext c none)
      ⟨s.mNext c, if s.mNext c = none then none else s.loop_callback_last⟩ xs ∧
      ∀ z, z ∉ xs → Function.update s.mNext c none z = none := by
  have hqueue : IsQueue _ _ ([] ++ c :: xs) := h.queue
  have hunlink := hqueue.unlink
  refine ⟨hunlink, fun z hz => ?_⟩
  by_cases hzc : z = c
  · rw [hzc, Function.update_self]
  · rw [Function.update_of_ne hzc]
    exact h.free z fun hmem => hz ((List.mem_cons.mp hmem).resolve_left hzc)

/-- A callback behind another one is taken out. -/
lemma unlinkBehind (h : Holds s (xs ++ c :: ys)) {elem : α} (hlast : xs.getLast? = some elem) :
    Holds { s.unlinkBehind elem c with
      mNext := Function.update (s.unlinkBehind elem c).mNext c none } (xs ++ ys) := by
  have hunlink := h.queue.unlink
  have hnext := h.queue.linked.next_eq
  have heq : { s.unlinkBehind elem c with
      mNext := Function.update (s.unlinkBehind elem c).mNext c none } =
      { s with
        mNext := Function.update (Function.update s.mNext elem (s.mNext c)) c none
        loop_callback_last :=
          if s.loop_callback_last = some c then some elem else s.loop_callback_last } := by
    rw [Low.unlinkBehind]
    by_cases hc : s.loop_callback_last = some c
    · have hys : ys = [] := by
        have hend : (xs ++ c :: ys).getLast? = some c := h.queue.last.symm.trans hc
        rw [List.getLast?_append_of_ne_nil _ (List.cons_ne_nil c ys)] at hend
        cases ys with
        | nil => rfl
        | cons y ys =>
          rw [List.getLast?_cons_cons] at hend
          have hout := (List.nodup_cons.mp (List.nodup_middle.mp h.queue.nodup)).1
          exact absurd (List.mem_append_right xs (List.mem_of_getLast? hend)) hout
      rw [hys] at hnext
      rw [if_pos hc, if_pos hc, hnext]
      rfl
    · rw [if_neg hc, if_neg hc]
  rw [hlast] at hunlink
  rw [heq]
  refine ⟨hunlink, fun z hz => ?_, ?_, h.defined⟩
  · by_cases hzc : z = c
    · rw [hzc]
      exact Function.update_self ..
    · have hout : z ∉ xs ++ c :: ys := fun hmem => hz (h.queue.mem_unlinked.mpr ⟨hmem, hzc⟩)
      have hkeep : (Ends.unlink ⟨s.loop_callback_first, s.loop_callback_last⟩ s.mNext
          xs.getLast? c).2 z = s.mNext z := IsQueue.unlink_next hout
      rw [hlast] at hkeep
      exact hkeep.trans (h.free z hout)
  · have hlen := h.length
    simp only [List.length_append, List.length_cons] at hlen ⊢
    exact le_trans (by omega) hlen

lemma clear (h : Holds s xs) (c : α) :
    Holds (s.low_loop_clear_callback c) (xs.filter (· ≠ c)) := by
  rw [Low.low_loop_clear_callback]
  by_cases hc : c ∈ xs
  · rw [if_pos ((h.isSet_iff c).mpr hc)]
    obtain ⟨as, bs, rfl⟩ := List.append_of_mem hc
    have hout : c ∉ as ++ bs := (List.nodup_cons.mp (List.nodup_middle.mp h.queue.nodup)).1
    have hfilter : (as ++ c :: bs).filter (· ≠ c) = as ++ bs := by
      rw [List.filter_append, List.filter_cons_of_neg (by simp), ← List.filter_append,
        List.filter_eq_self]
      intro z hz
      simpa using ne_of_mem_of_not_mem hz hout
    rw [hfilter]
    cases hlast : as.getLast? with
    | none =>
      obtain rfl : as = [] := List.getLast?_eq_none_iff.mp hlast
      have hfirst : s.loop_callback_first = some c := h.queue.linked.head_eq
      rw [if_pos hfirst]
      obtain ⟨hqueue, hfree⟩ := h.first
      refine ⟨hqueue, hfree, ?_, h.defined⟩
      exact le_trans (Nat.le_succ _) h.length
    | some elem =>
      have hne : as ≠ [] := by
        rintro rfl
        cases hlast
      rw [if_neg (h.queue.first_ne hne)]
      obtain ⟨zs, hzs⟩ : ∃ zs, as = zs ++ [elem] := List.getLast?_eq_some_iff.mp hlast
      have hpred : predecessor s.mNext c s.links s.loop_callback_first = some elem := by
        have hlinked := h.queue.linked
        have hnodup := h.queue.nodup
        have hlen := h.length
        rw [hzs, List.append_assoc, List.singleton_append] at hlinked hnodup hlen
        refine predecessor_eq hlinked hnodup ?_
        simp only [List.length_append, List.length_cons] at hlen
        omega
      rw [hpred]
      exact h.unlinkBehind hlast
  · rw [if_neg (mt (h.isSet_iff c).mp hc), List.filter_eq_self.mpr]
    · exact h
    · intro z hz
      simpa using ne_of_mem_of_not_mem hz hc

lemma pop (h : Holds s xs) : Holds s.low_loop_run_safe xs.tail := by
  have hhead : s.loop_callback_first = xs.head? := h.queue.linked.head_eq
  rw [Low.low_loop_run_safe, hhead]
  cases xs with
  | nil => exact h
  | cons c xs =>
    obtain ⟨hqueue, hfree⟩ := h.first
    exact ⟨hqueue, hfree, le_trans (Nat.le_succ _) h.length, h.defined⟩

end Holds

/-! ### The runs -/

/-- The two machines hold and have called the same. -/
structure Agrees (s : Low α) (w : Waiting α) : Prop where
  holds : Holds s w.queue
  called : s.called = w.called

namespace Agrees

variable {s : Low α} {w : Waiting α}

lemma step (h : Agrees s w) (i : Input α) : Agrees (s.step i) (w.step i) := by
  cases i with
  | set c =>
    refine ⟨?_, ?_⟩
    · have := h.holds.set c
      simp only [Waiting.step]
      split_ifs at this ⊢ <;> exact this
    · have hcalled : (s.low_loop_set_callback c).called = s.called := by
        rw [Low.low_loop_set_callback]
        split
        · rfl
        · dsimp only
          split <;> rfl
      have hsame : (w.step (.set c)).called = w.called := by
        simp only [Waiting.step]
        split <;> rfl
      rw [hsame]
      exact hcalled.trans h.called
  | clear c =>
    refine ⟨h.holds.clear c, ?_⟩
    have hcalled : (s.low_loop_clear_callback c).called = s.called := by
      rw [Low.low_loop_clear_callback]
      split
      · dsimp only
        split
        · rfl
        · split
          · rw [Low.unlinkBehind]
            split <;> rfl
          · rfl
      · rfl
    exact hcalled.trans h.called
  | pop =>
    refine ⟨h.holds.pop, ?_⟩
    have hhead : s.loop_callback_first = w.queue.head? := h.holds.queue.linked.head_eq
    change s.low_loop_run_safe.called = w.called ++ w.queue.head?.toList
    rw [Low.low_loop_run_safe, hhead, ← h.called]
    cases w.queue.head? with
    | none => exact (List.append_nil _).symm
    | some c => rfl

lemma run (h : Agrees s w) (is : List (Input α)) :
    Agrees (machine.run s is) (Waiting.machine.run w is) := by
  induction is generalizing s w with
  | nil => exact h
  | cons i is ih => exact ih (h.step i)

lemma implements (h : Agrees s w) : Implements s w where
  linked := h.holds.queue.linked
  last := h.holds.queue.last
  nodup := h.holds.queue.nodup
  test := h.holds.isSet_iff
  ends := by
    have hfirst : s.loop_callback_first = w.queue.head? := h.holds.queue.linked.head_eq
    have hlast : s.loop_callback_last = w.queue.getLast? := h.holds.queue.last
    rw [hfirst, hlast, List.head?_eq_none_iff, List.getLast?_eq_none_iff]
  called := h.called
  defined := h.holds.defined

end Agrees

omit [DecidableEq α] in
lemma agrees_start : Agrees (Low.start : Low α) Waiting.start :=
  ⟨⟨IsQueue.empty, fun _ _ => rfl, Nat.le_refl _, rfl⟩, rfl⟩

/-- In every run of the three operations the list holds what the queue without duplicates holds, in the
same order, and the loop calls the same callbacks. -/
theorem run_implements (is : List (Input α)) :
    Implements (machine.run Low.start is) (Waiting.machine.run Waiting.start is) :=
  (agrees_start.run is).implements

end LowJs.CallbackQueue
