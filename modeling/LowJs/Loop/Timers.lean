import LowJs.Core.Bytes
import LowJs.Core.Machine
import LowJs.Core.Multimap

/-!
# The timers of the main loop

`chores` holds the timers by their indices, `chore_times` the same timers by the counter value at
which they are due. JavaScript timers are indexed by their place in the stash, timers of C code by
negative numbers. Callbacks run at the end of a pass of the loop; what they do to the timers are the
next inputs.
-/

namespace LowJs.Timers

/-- `oneshot`: 0 for an interval, 1 for a timer that fires once, 2 for one of C code, with its `call`
and `data`. -/
inductive Oneshot
  | interval
  | once
  | c (call data : Nat)
  deriving DecidableEq, Repr

/-- `low_chore_t`. -/
structure Chore where
  stamp : Int
  interval : Int
  oneshot : Oneshot
  ref : Bool
  deriving DecidableEq, Repr

/-- An entry of `chore_times`. The code keeps `stamp` and `index`; `deadline` is the time at which the
timer is due, not reduced to an `int`, and `order` counts the times a timer has been set. -/
structure ChoreTime where
  stamp : Int
  index : Int
  deadline : Int
  order : Nat
  deriving DecidableEq, Repr

/-- The timers' part of `low_t`, and the stash. `now` is the time in milliseconds, of which
`low_tick_count` gives the low 32 bits. The rest is history: `turn` is the time `lastChoreTime` stands
for, `sets` the number of times a timer has been set, `otherStash` and `otherRef` what other
components own of the stash and of `run_ref`, `fired` the timers that were called, each with the time.
`undefined` marks runs that have left the behaviour C++ defines, `hung` those in which a call does not
return. -/
structure Low where
  chores : AList fun _ : Int => Chore
  choreTimes : List ChoreTime
  lastChoreTime : Int
  runRef : Int
  lastStashIndex : Int
  stash : List Int
  now : Int
  turn : Int
  sets : Nat
  otherStash : List Int
  otherRef : Int
  fired : List (ChoreTime × Int)
  undefined : Bool
  hung : Bool

namespace Low

def low_tick_count (s : Low) : Int := int32 s.now

/-- The loop of `low_add_stash`: the first index behind the last one that is free. -/
def freeIndex (stash : List Int) : Nat → Int → Option Int
  | 0, _ => none
  | n + 1, last =>
    let stashIndex := int32 (last + 1)
    let stashIndex := if stashIndex ≤ 0 then 1 else stashIndex
    if stashIndex ∈ stash then freeIndex stash n stashIndex else some stashIndex

/-- `low_add_stash` of a value. It does not return where no positive `int` is free. -/
def low_add_stash (s : Low) : Option (Int × Low) :=
  (freeIndex s.stash (2 ^ 31) s.lastStashIndex).map fun stashIndex =>
    (stashIndex, { s with lastStashIndex := stashIndex, stash := stashIndex :: s.stash })

/-- `low_remove_stash`. -/
def low_remove_stash (s : Low) (index : Int) : Low :=
  { s with stash := s.stash.filter (· ≠ index) }

/-- `chore_times.insert`, for a timer that is due at `deadline`. -/
def insertTime (s : Low) (stamp index deadline : Int) : Low :=
  { s with
    choreTimes := Multimap.insert ChoreTime.stamp ⟨stamp, index, deadline, s.sets⟩ s.choreTimes
    sets := s.sets + 1 }

/-- The search for an index among the entries of `chore_times` with a stamp. -/
def searchTime (s : Low) (stamp index : Int) : Option ChoreTime :=
  Multimap.seek ChoreTime.stamp stamp (fun e => decide (e.index = index)) s.choreTimes

/-- The entry of a timer in `chore_times` is erased. -/
def eraseTime (s : Low) (stamp index : Int) : Low :=
  match s.searchTime stamp index with
  | none => { s with undefined := true }
  | some e => { s with choreTimes := s.choreTimes.erase e }

/-- A timer gives its share of `run_ref` back. -/
def dropRef (s : Low) (chore : Chore) : Low :=
  { s with runRef := if chore.ref then s.runRef - 1 else s.runRef }

/-- `low_loop_set_chore`. -/
def low_loop_set_chore (s : Low) (delay : Int) (oneshot : Bool) : Low :=
  match s.low_add_stash with
  | none => { s with hung := true }
  | some (index, s) =>
    let delay := if delay < 0 then 0 else delay
    let stamp := int32 (s.low_tick_count + delay)
    let chore : Chore := ⟨stamp, delay, if oneshot then .once else .interval, true⟩
    insertTime { s with chores := s.chores.insert index chore, runRef := s.runRef + 1 }
      stamp index (s.now + delay)

/-- `low_loop_clear_chore`. -/
def low_loop_clear_chore (s : Low) (index : Int) : Low :=
  match s.chores.lookup index with
  | none => s
  | some chore =>
    let s := (s.eraseTime chore.stamp index).dropRef chore
    low_remove_stash { s with chores := s.chores.erase index } index

/-- The index of a new timer of C code: one below the least index. -/
def timeoutIndex (s : Low) : Int :=
  let index :=
    match s.chores.keys.min? with
    | some least => int32 (least - 1)
    | none => -1
  if index ≥ 0 then -1 else index

/-- `low_set_timeout`. -/
def low_set_timeout (s : Low) (index delay : Int) (call data : Nat) : Low :=
  let (index, s) :=
    if index = 0 then (s.timeoutIndex, s)
    else
      match s.chores.lookup index with
      | none => (index, s)
      | some chore => (index, (s.eraseTime chore.stamp index).dropRef chore)
  let delay := if delay < 0 then 0 else delay
  let stamp := int32 (s.low_tick_count + delay)
  insertTime { s with chores := s.chores.insert index ⟨stamp, delay, .c call data, false⟩ }
    stamp index (s.now + delay)

/-- `low_clear_timeout`. -/
def low_clear_timeout (s : Low) (index : Int) : Low :=
  match s.chores.lookup index with
  | none => s
  | some chore =>
    let s := (s.eraseTime chore.stamp index).dropRef chore
    { s with chores := s.chores.erase index }

/-- `low_loop_chore_ref`. -/
def low_loop_chore_ref (s : Low) (index : Int) (ref : Bool) : Low :=
  match s.chores.lookup index with
  | none => s
  | some chore =>
    if chore.ref ≠ ref then
      { s with
        runRef := if ref then s.runRef + 1 else s.runRef - 1
        chores := s.chores.insert index { chore with ref := ref } }
    else s

/-- The timer that `low_loop_run_safe` selects, lines 115 to 121. -/
def selected (s : Low) : Option ChoreTime :=
  Multimap.next ChoreTime.stamp s.lastChoreTime s.choreTimes

/-- The stamp of an interval that is set again: one interval later, or now where that is past. -/
def rearmStamp (s : Low) (chore : Chore) : Int :=
  let stamp := int32 (chore.stamp + chore.interval)
  if int32 (stamp - s.low_tick_count) < 0 then s.low_tick_count else stamp

/-- Lines 132 to 166, up to the call of the timer `e`. -/
def fireChore (s : Low) (e : ChoreTime) (chore : Chore) : Low :=
  match chore.oneshot with
  | .c _ _ => { s.dropRef chore with chores := s.chores.erase e.index }
  | .once =>
    low_remove_stash { s.dropRef chore with chores := s.chores.erase e.index } e.index
  | .interval =>
    let stamp := s.rearmStamp chore
    let deadline :=
      if stamp = int32 (chore.stamp + chore.interval) then e.deadline + chore.interval else s.now
    insertTime { s with chores := s.chores.insert e.index { chore with stamp := stamp } }
      stamp e.index deadline

/-- The timers' part of a pass of `low_loop_run_safe`, lines 112 to 168. -/
def fireChores (s : Low) : Low :=
  match s.selected with
  | none => s
  | some e =>
    if int32 (e.stamp - s.low_tick_count) ≤ 0 then
      let s := { s with
        lastChoreTime := e.stamp
        turn := e.deadline
        choreTimes := s.choreTimes.erase e
        fired := s.fired ++ [(e, s.now)] }
      match s.chores.lookup e.index with
      | none => { s with undefined := true }
      | some chore => s.fireChore e chore
    else s

/-- What can happen to the timers. C code passes 0 to `low_set_timeout`, or an index that it has got
from it; other components remove from the stash what they have added, and `runRef` is what they do to
`run_ref`. -/
inductive Input
  | elapse (ms : Nat)
  | setChore (delay : {n : Int // IsInt32 n}) (oneshot : Bool)
  | clearChore (index : Int)
  | setTimeout (index : {i : Int // IsInt32 i ∧ i ≤ 0}) (delay : {n : Int // IsInt32 n}) (call data : Nat)
  | clearTimeout (index : Int)
  | choreRef (index : Int) (ref : Bool)
  | fire
  | addStash
  | removeStash (index : Int)
  | runRef (n : Int)

def call (s : Low) : Input → Low
  | .elapse ms => { s with now := s.now + ms }
  | .setChore delay oneshot => s.low_loop_set_chore delay oneshot
  | .clearChore index => s.low_loop_clear_chore index
  | .setTimeout index delay call data => s.low_set_timeout index delay call data
  | .clearTimeout index => s.low_clear_timeout index
  | .choreRef index ref => s.low_loop_chore_ref index ref
  | .fire => s.fireChores
  | .addStash =>
    match s.low_add_stash with
    | none => { s with hung := true }
    | some (index, s) => { s with otherStash := index :: s.otherStash }
  | .removeStash index =>
    if index ∈ s.otherStash then
      { s.low_remove_stash index with otherStash := s.otherStash.filter (· ≠ index) }
    else s
  | .runRef n => { s with runRef := s.runRef + n, otherRef := s.otherRef + n }

/-- Nothing happens any more once a call does not return. -/
def step (s : Low) (i : Input) : Low := if s.hung then s else s.call i

/-- `low_init`, at any value of the counter. -/
def start (now : Int) : Low where
  chores := ∅
  choreTimes := []
  lastChoreTime := int32 now
  runRef := 0
  lastStashIndex := 0
  stash := []
  now := now
  turn := now
  sets := 0
  otherStash := []
  otherRef := 0
  fired := []
  undefined := false
  hung := false

end Low

def machine : Machine Low Low.Input := ⟨Low.step⟩

end LowJs.Timers
