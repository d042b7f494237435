import LowJs.Core.IntrusiveQueue
import LowJs.Core.Machine

/-!
# The poll table of the web thread

The web thread polls the descriptors in `fds` and calls `OnEvents` of the objects in the same places of
`lowFDs`. Other threads change what is polled through a list of changed objects, which the web thread
works off under `web_thread_mutex`. Places are used again, and the vectors are cut off behind the last
valid one.
-/

namespace LowJs.PollTable

/-- What stands in a place of `lowFDs`. -/
inductive Entry
  | pipe
  | cares
  | low (o : Nat)
  deriving DecidableEq, Repr

/-- A place in the vectors `fds` and `lowFDs`; the descriptor is −1 where there is none. -/
structure Slot where
  fd : Option Nat
  events : Nat
  entry : Entry
  deriving DecidableEq, Repr

structure LowFD where
  mFD : Option Nat
  mPollIndex : Option Nat
  mPollEvents : Nat
  mMarkDelete : Bool
  deriving DecidableEq, Repr

/-- Where the web thread is: in `poll`, at a place of its scan, in `OnEvents` of a place, deleting an
object in the scan, in the loop over the changed objects, which holds the mutex, deleting an object
there, or at its end. The scan goes up to `firstCares` and knows the place behind the last valid one. -/
inductive PC
  | polling
  | scanning (i firstNone firstCares : Nat)
  | inEvents (i firstNone firstCares : Nat)
  | removing (o i firstNone firstCares : Nat)
  | processing
  | deleting (o : Nat)
  | done
  deriving DecidableEq, Repr

/-- The web thread's part of `low_t`, the first `count` objects with their links in the list of changed
objects, and the callers that wait in `low_web_clear_poll`, each with its object and whether it is the
object's destructor. The rest is history: which objects are deleted, which have been changed since the
web thread has looked at them, and for which `low_web_clear_poll` has returned since their events were set. -/
structure Low where
  fds : List Slot
  obj : Nat → LowFD
  mNextChanged : Nat → Option Nat
  web_changed : Ends Nat
  count : Nat
  pc : PC
  destroying : Bool
  clearing : Nat → Option (Nat × Bool)
  deleted : Nat → Bool
  changed : Nat → Bool
  quiet : Nat → Bool

namespace Low

/-- The test for an object in the list of changed objects. -/
def isListed (s : Low) (o : Nat) : Bool := s.mNextChanged o != none || s.web_changed.last == some o

def setObj (s : Low) (o : Nat) (fd : LowFD) : Low := { s with obj := Function.update s.obj o fd }

def setList (s : Low) (q : Ends Nat × (Nat → Option Nat)) : Low :=
  { s with web_changed := q.1, mNextChanged := q.2 }

/-- The object is put into the list, unless it is there. -/
def enlist (s : Low) (o : Nat) : Low :=
  if s.isListed o then s
  else { s.setList (s.web_changed.push s.mNextChanged o) with
    changed := Function.update s.changed o true }

/-- The object is taken out of the list. -/
def unlist (s : Low) (o : Nat) : Low :=
  let t :=
    if s.isListed o then
      if s.web_changed.first = some o then s.setList (s.web_changed.unlink s.mNextChanged none o)
      else
        match predecessor s.mNextChanged o (s.count + 1) s.web_changed.first with
        | none => s
        | some l => s.setList (s.web_changed.unlink s.mNextChanged (some l) o)
    else s
  { t with
    mNextChanged := Function.update t.mNextChanged o none
    changed := Function.update s.changed o false }

/-- `low_web_set_poll_events`. -/
def low_web_set_poll_events (s : Low) (o events : Nat) : Low :=
  { (s.setObj o { s.obj o with mPollEvents := events }).enlist o with
    quiet := Function.update s.quiet o false }

/-- `low_web_mark_delete`. -/
def low_web_mark_delete (s : Low) (o : Nat) : Low :=
  (s.setObj o { s.obj o with mMarkDelete := true }).enlist o

/-- The test of `low_web_clear_poll`. -/
def isCleared (s : Low) (o : Nat) : Bool := (s.obj o).mPollIndex == none && !s.isListed o

/-- A pass of the loop of `low_web_clear_poll`, with whether it returns. -/
def clearPass (s : Low) (o : Nat) : Bool × Low :=
  if s.isCleared o then (true, s)
  else (s.pc = .done, (s.setObj o { s.obj o with mPollEvents := 0 }).enlist o)

/-- A caller of `low_web_clear_poll` has made a pass. A destructor that returns leaves no object. -/
def clear (s : Low) (client o : Nat) (destroy : Bool) : Low :=
  let (returns, t) := s.clearPass o
  if returns then
    { t with
      clearing := Function.update s.clearing client none
      deleted := if destroy then Function.update s.deleted o true else s.deleted
      quiet := if s.pc = .done then s.quiet else Function.update s.quiet o true }
  else { t with clearing := Function.update s.clearing client (some (o, destroy)) }

/-- A place no longer has a descriptor. -/
def invalidate (s : Low) (i : Nat) : Low :=
  { s with fds := s.fds.modify i fun slot => { slot with fd := none } }

/-- `poll` returns: `cares` are the descriptors of the resolvers, `count` whether a place other than that
of the pipe has events. -/
def poll (s : Low) (cares : List Nat) (count : Bool) : Low :=
  if s.destroying then
    { s with fds := s.fds ++ cares.map (⟨some ·, 1, .cares⟩), pc := .done }
  else if count then
    { s with
      fds := s.fds ++ cares.map (⟨some ·, 1, .cares⟩)
      pc := .scanning 1 1 s.fds.length }
  else { s with pc := .processing }

/-- A place of the scan, where `revents` says whether it has events. Behind the last one the vectors are
cut off. -/
def scan (s : Low) (i firstNone firstCares : Nat) (revents : Bool) : Low :=
  if i < firstCares then
    match s.fds[i]? with
    | some ⟨some _, _, .low _⟩ =>
      if revents then { s with pc := .inEvents i firstNone firstCares }
      else { s with pc := .scanning (i + 1) (i + 1) firstCares }
    | some ⟨some _, _, _⟩ => { s with pc := .scanning (i + 1) (i + 1) firstCares }
    | _ => { s with pc := .scanning (i + 1) firstNone firstCares }
  else { s with fds := s.fds.take firstNone, pc := .processing }

/-- `OnEvents` of a place has returned `keep`. -/
def onEventsReturned (s : Low) (i firstNone firstCares : Nat) (keep : Bool) : Low :=
  if keep then { s with pc := .scanning (i + 1) (i + 1) firstCares }
  else
    match s.fds[i]? with
    | some ⟨_, _, .low o⟩ =>
      let s := (s.invalidate i).unlist o
      { s.setObj o { s.obj o with mPollIndex := none } with
        pc := .removing o (i + 1) firstNone firstCares }
    | _ => s

/-- The `delete` of the web thread, whose `low_web_clear_poll` does not return while the object is in the
list again. -/
def delete (s : Low) (o : Nat) (pc : PC) : Low :=
  let (returns, t) := s.clearPass o
  if returns then { t with deleted := Function.update s.deleted o true, pc := pc } else t

/-- The object gets a place: the first without a descriptor, or a new one. -/
def addSlot (s : Low) (o fd events : Nat) : Low :=
  match s.fds.findIdx? (fun slot => slot.fd == none) with
  | some i =>
    { s.setObj o { s.obj o with mPollIndex := some i } with fds := s.fds.set i ⟨some fd, events, .low o⟩ }
  | none =>
    { s.setObj o { s.obj o with mPollIndex := some s.fds.length } with
      fds := s.fds ++ [⟨some fd, events, .low o⟩] }

/-- An object that has a place loses it. -/
def dropSlot (s : Low) (o : Nat) : Low :=
  match (s.obj o).mPollIndex with
  | none => s
  | some i => (s.invalidate i).setObj o { s.obj o with mPollIndex := none }

/-- The first changed object. -/
def process (s : Low) : Low :=
  match s.web_changed.first with
  | none => { s with pc := .polling }
  | some o =>
    let s := { s.setList (s.web_changed.unlink s.mNextChanged none o) with
      changed := Function.update s.changed o false }
    let fd := s.obj o
    if fd.mMarkDelete then { s.dropSlot o with pc := .deleting o }
    else
      match fd.mFD, fd.mPollIndex with
      | none, _ => s.dropSlot o
      | some n, none => if fd.mPollEvents = 0 then s else s.addSlot o n fd.mPollEvents
      | some n, some i =>
        if fd.mPollEvents = 0 then s.dropSlot o
        else { s with fds := s.fds.modify i fun slot => { slot with fd := some n, events := fd.mPollEvents } }

/-- A step of the web thread outside of `poll`. -/
def web (s : Low) (revents keep : Bool) : Low :=
  match s.pc with
  | .polling | .done => s
  | .scanning i firstNone firstCares => s.scan i firstNone firstCares revents
  | .inEvents i firstNone firstCares => s.onEventsReturned i firstNone firstCares keep
  | .removing o i firstNone firstCares => s.delete o (.scanning i firstNone firstCares)
  | .processing => s.process
  | .deleting o => s.delete o .processing

inductive Input
  | setFD (o : Nat) (fd : Option Nat)
  | set (o events : Nat)
  | markDelete (o : Nat)
  | clear (client o : Nat) (destroy : Bool)
  | wake (client : Nat)
  | poll (cares : List Nat) (count : Bool)
  | web (revents keep : Bool)
  | destroy
  deriving DecidableEq, Repr

/-- A function of another thread may run: it gets the mutex, and the object is there. -/
def mayCall (s : Low) (o : Nat) : Prop := s.pc ≠ .processing ∧ o < s.count ∧ s.deleted o = false

instance (s : Low) (o : Nat) : Decidable (s.mayCall o) := inferInstanceAs (Decidable (_ ∧ _))

def step (s : Low) : Input → Low
  | .setFD o fd => if s.mayCall o then s.setObj o { s.obj o with mFD := fd } else s
  | .set o events => if s.mayCall o then s.low_web_set_poll_events o events else s
  | .markDelete o => if s.mayCall o then s.low_web_mark_delete o else s
  | .clear client o destroy =>
    if s.mayCall o ∧ s.clearing client = none then s.clear client o destroy else s
  | .wake client =>
    match s.clearing client with
    | none => s
    | some (o, destroy) => if s.mayCall o then s.clear client o destroy else s
  | .poll cares count => if s.pc = .polling then s.poll cares count else s
  | .web revents keep => s.web revents keep
  | .destroy => { s with destroying := true }

/-- The objects have no events yet; `pipe` is the descriptor of `web_thread_pipe`. -/
def start (count pipe : Nat) (fd : Nat → Option Nat) : Low where
  fds := [⟨some pipe, 1, .pipe⟩]
  obj o := ⟨fd o, none, 0, false⟩
  mNextChanged _ := none
  web_changed := ⟨none, none⟩
  count := count
  pc := .polling
  destroying := false
  clearing _ := none
  deleted _ := false
  changed _ := false
  quiet _ := false

end Low

def machine : Machine Low Low.Input := ⟨Low.step⟩

namespace Low

/-! ### The property -/

/-- The place has a descriptor and leads to the object. -/
def hasSlot (s : Low) (o i : Nat) : Prop :=
  ∃ fd events, s.fds[i]? = some ⟨some fd, events, .low o⟩

/-- `mPollIndex` names the one place of an object; the list holds each changed object once, in some
order, and nothing else; a deleted object is in no place with a descriptor and not in the list; and
`OnEvents` is called on no object for which `low_web_clear_poll` has returned since its events were set. -/
structure Sound (s : Low) : Prop where
  slots : ∀ o i, s.hasSlot o i ↔ (s.obj o).mPollIndex = some i
  list : ∃ xs, IsQueue s.mNextChanged s.web_changed xs ∧ ∀ o, o ∈ xs ↔ s.changed o = true
  deleted : ∀ o, s.deleted o = true → (∀ i, ¬s.hasSlot o i) ∧ s.changed o = false
  quiet : ∀ o i firstNone firstCares, s.pc = .inEvents i firstNone firstCares → s.hasSlot o i →
    s.quiet o = false

/-- The condition: no destructor calls `low_web_clear_poll` after the end of the web thread for an object
that has a place or is in the list. -/
def WebRuns (s : Low) : Input → Prop
  | .clear _ o true => s.pc = .done → s.isCleared o = true
  | .wake client => ∀ o, s.clearing client = some (o, true) → s.pc = .done → s.isCleared o = true
  | _ => True

/-! ### The list of changed objects -/

/-- The list is a linked list, what is not in it has no link, and the history knows its members. -/
structure Listed (s : Low) (xs : List Nat) : Prop where
  queue : IsQueue s.mNextChanged s.web_changed xs
  link : ∀ o, o ∉ xs → s.mNextChanged o = none
  bound : ∀ o ∈ xs, o < s.count
  changed : ∀ o, s.changed o = true ↔ o ∈ xs

variable {s t : Low} {xs ys : List Nat} {o o' i j : Nat}

lemma Listed.congr (h : s.Listed xs) (hn : t.mNextChanged = s.mNextChanged)
    (hl : t.web_changed = s.web_changed) (hc : t.count = s.count) (hch : t.changed = s.changed) :
    t.Listed xs := by
  constructor
  · rw [hn, hl]
    exact h.queue
  · rw [hn]
    exact h.link
  · rw [hc]
    exact h.bound
  · rw [hch]
    exact h.changed

lemma Listed.isListed_iff (h : s.Listed xs) : s.isListed o = true ↔ o ∈ xs := by
  rw [← h.queue.mem_iff (h.link o)]
  simp [isListed]

lemma Listed.enlist (h : s.Listed xs) (hlt : o < s.count) :
    ∃ ys, (s.enlist o).Listed ys ∧ ∀ z, z ∈ ys ↔ z ∈ xs ∨ z = o := by
  rw [Low.enlist]
  split_ifs with hl
  · have hmem := h.isListed_iff.mp hl
    exact ⟨xs, h, fun z => ⟨.inl, fun hz => hz.elim id fun heq => heq ▸ hmem⟩⟩
  · have hmem : o ∉ xs := fun hm => hl (h.isListed_iff.mpr hm)
    refine ⟨xs ++ [o], ⟨h.queue.push hmem (h.link o hmem), fun z hz => ?_, fun z hz => ?_, fun z => ?_⟩,
      fun z => by simp⟩
    · have hz' : z ∉ xs := fun hm => hz (List.mem_append_left _ hm)
      exact (h.queue.push_next hz').trans (h.link z hz')
    · rcases List.mem_append.mp hz with hz | hz
      · exact h.bound z hz
      · exact List.mem_singleton.mp hz ▸ hlt
    · show Function.update s.changed o true z = true ↔ _
      by_cases hzo : z = o
      · simp [hzo]
      · rw [Function.update_of_ne hzo, h.changed z]
        simp [hzo]

/-- An object of the list is taken out. -/
lemma Listed.unlink (h : s.Listed xs) {as bs : List Nat} (heq : xs = as ++ o :: bs) :
    ({ s.setList (s.web_changed.unlink s.mNextChanged as.getLast? o) with
      changed := Function.update s.changed o false } : Low).Listed (as ++ bs) ∧
      ∀ z, z ∈ as ++ bs ↔ z ∈ xs ∧ z ≠ o := by
  have hq := h.queue
  rw [heq] at hq
  have hmem : ∀ z, z ∈ as ++ bs ↔ z ∈ xs ∧ z ≠ o := by
    rw [heq]
    exact fun z => hq.mem_unlinked
  refine ⟨⟨hq.unlink, fun z hz => ?_, fun z hz => h.bound z ((hmem z).mp hz).1, fun z => ?_⟩, hmem⟩
  · by_cases hzo : z = o
    · rw [hzo]
      exact @IsQueue.unlink_self _ _ s.mNextChanged s.web_changed o as.getLast?
    · have hz' : z ∉ xs := fun hm => hz ((hmem z).mpr ⟨hm, hzo⟩)
      exact (IsQueue.unlink_next (heq ▸ hz')).trans (h.link z hz')
  · show Function.update s.changed o false z = true ↔ _
    rw [hmem z]
    by_cases hzo : z = o
    · simp [hzo]
    · rw [Function.update_of_ne hzo, h.changed z]
      simp [hzo]

lemma Listed.unlist (h : s.Listed xs) (o : Nat) :
    ∃ ys, (s.unlist o).Listed ys ∧ ∀ z, z ∈ ys ↔ z ∈ xs ∧ z ≠ o := by
  have hdone : ∀ t : Low, t.mNextChanged o = none →
      ∀ ys, ({ t with changed := Function.update s.changed o false } : Low).Listed ys →
      (∀ z, z ∈ ys ↔ z ∈ xs ∧ z ≠ o) →
      ∃ ys, ({ t with
        mNextChanged := Function.update t.mNextChanged o none
        changed := Function.update s.changed o false } : Low).Listed ys ∧
          ∀ z, z ∈ ys ↔ z ∈ xs ∧ z ≠ o := fun t hlink ys ht hw =>
    ⟨ys, ht.congr (Function.update_eq_self_iff.mpr hlink.symm) rfl rfl rfl, hw⟩
  rw [Low.unlist]
  by_cases hl : s.isListed o = true
  · obtain ⟨as, bs, heq⟩ := List.append_of_mem (h.isListed_iff.mp hl)
    obtain ⟨hu, hw⟩ := h.unlink heq
    have hq := h.queue
    rw [heq] at hq
    have hlen := h.queue.length_le h.bound
    simp only [if_pos hl]
    rcases List.eq_nil_or_concat as with rfl | ⟨as, l, rfl⟩
    · have hfirst : s.web_changed.first = some o := hq.linked.1
      simp only [if_pos hfirst]
      exact hdone _ (@IsQueue.unlink_self _ _ s.mNextChanged s.web_changed o none) _ hu hw
    · have hne : s.web_changed.first ≠ some o := hq.first_ne (by simp)
      have heq' : xs = as ++ l :: o :: bs := by simpa using heq
      rw [heq'] at hlen
      have hpred : predecessor s.mNextChanged o (s.count + 1) s.web_changed.first = some l := by
        have hq' := h.queue
        rw [heq'] at hq'
        exact predecessor_eq hq'.linked hq'.nodup (by simp at hlen; omega)
      have hlast : some l = (as.concat l).getLast? := by simp
      simp only [if_neg hne, hpred]
      rw [hlast]
      exact hdone _ (@IsQueue.unlink_self _ _ s.mNextChanged s.web_changed o _) _ hu hw
  · have hmem : o ∉ xs := fun hm => hl (h.isListed_iff.mpr hm)
    have hw : ∀ z, z ∈ xs ↔ z ∈ xs ∧ z ≠ o := fun z =>
      ⟨fun hz => ⟨hz, fun heq => hmem (heq ▸ hz)⟩, And.left⟩
    simp only [if_neg hl]
    refine hdone s (h.link o hmem) xs ⟨h.queue, h.link, h.bound, fun z => ?_⟩ hw
    show Function.update s.changed o false z = true ↔ _
    by_cases hzo : z = o
    · simp [hzo, hmem]
    · rw [Function.update_of_ne hzo]
      exact h.changed z

lemma enlist_rest (s : Low) (o : Nat) : ∃ q n c, s.enlist o =
    { s with web_changed := q, mNextChanged := n, changed := c } := by
  rw [enlist]
  split_ifs
  · exact ⟨_, _, _, rfl⟩
  · exact ⟨_, _, _, rfl⟩

lemma unlist_rest (s : Low) (o : Nat) : ∃ q n c, s.unlist o =
    { s with web_changed := q, mNextChanged := n, changed := c } := by
  rw [unlist]
  split_ifs
  · exact ⟨_, _, _, rfl⟩
  · split <;> exact ⟨_, _, _, rfl⟩
  · exact ⟨_, _, _, rfl⟩

/-! ### The places -/

/-- The object a place leads to, if the place has a descriptor. -/
def Slot.obj (slot : Slot) : Option Nat :=
  match slot.fd, slot.entry with
  | some _, .low o => some o
  | _, _ => none

lemma hasSlot_iff : s.hasSlot o i ↔ s.fds[i]?.bind Slot.obj = some o := by
  rw [hasSlot]
  cases s.fds[i]? with
  | none => simp
  | some slot =>
    obtain ⟨fd, events, entry⟩ := slot
    cases fd <;> cases entry <;> simp [Slot.obj]

lemma hasSlot_congr (h : t.fds = s.fds) : t.hasSlot o i ↔ s.hasSlot o i := by
  unfold hasSlot
  rw [h]

/-- The places of the resolvers lead to no object. -/
lemma hasSlot_cares {cares : List Nat} (h : t.fds = s.fds ++ cares.map (⟨some ·, 1, .cares⟩)) :
    t.hasSlot o i ↔ s.hasSlot o i := by
  rw [hasSlot_iff, hasSlot_iff, h, List.getElem?_append]
  split_ifs with hlt
  · exact Iff.rfl
  · rw [List.getElem?_eq_none (not_lt.mp hlt), List.getElem?_map]
    cases cares[i - s.fds.length]? <;> simp [Slot.obj]

lemma hasSlot_invalidate : (s.invalidate i).hasSlot o j ↔ s.hasSlot o j ∧ j ≠ i := by
  rw [hasSlot_iff, hasSlot_iff, invalidate, List.getElem?_modify]
  by_cases hij : i = j
  · subst hij
    cases s.fds[i]? <;> simp [Slot.obj]
  · simp [hij, Ne.symm hij]

lemma hasSlot_lt (h : s.hasSlot o i) : i < s.fds.length := by
  obtain ⟨fd, events, heq⟩ := h
  exact (List.getElem?_eq_some_iff.mp heq).1

lemma hasSlot_take {n : Nat} (h : t.fds = s.fds.take n) (hn : ∀ j o, n ≤ j → ¬s.hasSlot o j) :
    t.hasSlot o i ↔ s.hasSlot o i := by
  rw [hasSlot_iff, h, List.getElem?_take]
  split_ifs with hlt
  · exact hasSlot_iff.symm
  · exact iff_of_false (by simp) (hn i o (not_lt.mp hlt))

/-- Where a scan stands: between `firstNone` and the place it looks at no place leads to an object, and
none from `firstCares` on. -/
def Scans (s : Low) (i firstNone firstCares : Nat) : Prop :=
  ∀ o j, s.hasSlot o j → (j < firstNone ∨ i ≤ j) ∧ j < firstCares

/-- What the web thread knows where it is. -/
def AtPC (s : Low) : PC → Prop
  | .polling | .processing | .done => True
  | .scanning i firstNone firstCares => s.Scans i firstNone firstCares
  | .inEvents i firstNone firstCares => s.Scans i firstNone firstCares ∧ ∃ o, s.hasSlot o i
  | .removing o i firstNone firstCares => s.Scans i firstNone firstCares ∧ o < s.count
  | .deleting o => o < s.count

/-- The invariant: `mPollIndex` names the place, a deleted object has no place and is not in the list,
and a quiet one gets no place when the list is worked off. -/
structure Inv (s : Low) (xs : List Nat) : Prop where
  listed : s.Listed xs
  slots : ∀ o i, s.hasSlot o i ↔ (s.obj o).mPollIndex = some i
  bound : ∀ o, (s.obj o).mPollIndex ≠ none → o < s.count
  deleted : ∀ o, s.deleted o = true → (s.obj o).mPollIndex = none ∧ o ∉ xs
  quiet : ∀ o, s.quiet o = true → (s.obj o).mPollIndex = none ∧
    (o ∈ xs → (s.obj o).mMarkDelete = true ∨ (s.obj o).mPollEvents = 0)
  pc : s.AtPC s.pc

lemma Inv.sound (h : s.Inv xs) : s.Sound where
  slots := h.slots
  list := ⟨xs, h.listed.queue, fun o => (h.listed.changed o).symm⟩
  deleted := by
    intro o hd
    obtain ⟨hp, hmem⟩ := h.deleted o hd
    refine ⟨fun i hi => ?_, ?_⟩
    · rw [h.slots, hp] at hi
      cases hi
    · exact Bool.eq_false_iff.mpr fun hch => hmem ((h.listed.changed o).mp hch)
  quiet := by
    intro o i _ _ _ hi
    refine Bool.eq_false_iff.mpr fun hq => ?_
    rw [h.slots, (h.quiet o hq).1] at hi
    cases hi

lemma inv_start (count pipe : Nat) (fd : Nat → Option Nat) : (start count pipe fd).Inv [] where
  listed := ⟨IsQueue.empty, fun _ _ => rfl, by simp, by simp [start]⟩
  slots := by
    intro o i
    refine iff_of_false ?_ (by simp [start])
    rintro ⟨n, events, heq⟩
    cases i <;> simp [start] at heq
  bound := fun _ hp => absurd rfl hp
  deleted := fun _ hd => by cases hd
  quiet := fun _ hq => by cases hq
  pc := trivial

lemma AtPC.congr {pc : PC} (h : s.AtPC pc) (hf : t.fds = s.fds) (hc : t.count = s.count) :
    t.AtPC pc := by
  unfold AtPC Scans at *
  simpa only [hasSlot_congr hf, hc] using h

/-! ### Calls of the other threads -/

/-- An object changes, but not its place. -/
lemma Inv.setObj (h : s.Inv xs) {fd : LowFD} (hp : fd.mPollIndex = (s.obj o).mPollIndex)
    (hq : s.quiet o = true → o ∈ xs → fd.mMarkDelete = true ∨ fd.mPollEvents = 0) :
    (s.setObj o fd).Inv xs := by
  have hindex : ∀ z, ((s.setObj o fd).obj z).mPollIndex = (s.obj z).mPollIndex := by
    intro z
    by_cases hzo : z = o
    · rw [hzo, ← hp]
      exact congrArg LowFD.mPollIndex (Function.update_self ..)
    · exact congrArg LowFD.mPollIndex (Function.update_of_ne hzo ..)
  refine ⟨h.listed.congr rfl rfl rfl rfl, fun z i => ?_, fun z hz => ?_, fun z hz => ?_, fun z hz => ?_,
    h.pc.congr rfl rfl⟩
  · rw [hindex]
    exact h.slots z i
  · rw [hindex] at hz
    exact h.bound z hz
  · rw [hindex]
    exact h.deleted z hz
  · rw [hindex]
    refine ⟨(h.quiet z hz).1, ?_⟩
    by_cases hzo : z = o
    · subst hzo
      simp only [Low.setObj, Function.update_self]
      exact hq hz
    · simp only [Low.setObj, Function.update_of_ne hzo]
      exact (h.quiet z hz).2

lemma Inv.enlist (h : s.Inv xs) (hlt : o < s.count) (hd : s.deleted o = false)
    (hq : s.quiet o = true → (s.obj o).mMarkDelete = true ∨ (s.obj o).mPollEvents = 0) :
    ∃ ys, (s.enlist o).Inv ys ∧ ∀ z, z ∈ ys ↔ z ∈ xs ∨ z = o := by
  obtain ⟨ys, hy, hw⟩ := h.listed.enlist hlt
  obtain ⟨q, n, c, heq⟩ := s.enlist_rest o
  rw [heq] at hy ⊢
  refine ⟨ys, ⟨hy, h.slots, h.bound, fun z hz => ?_, fun z hz => ?_, h.pc.congr rfl rfl⟩, hw⟩
  · refine ⟨(h.deleted z hz).1, fun hmem => ?_⟩
    rcases (hw z).mp hmem with hmem | rfl
    · exact (h.deleted z hz).2 hmem
    · rw [show s.deleted z = true from hz] at hd
      cases hd
  · refine ⟨(h.quiet z hz).1, fun hmem => ?_⟩
    rcases (hw z).mp hmem with hmem | rfl
    · exact (h.quiet z hz).2 hmem
    · exact hq hz

/-- An object has changed and is put into the list. -/
lemma Inv.change (h : s.Inv xs) (hlt : o < s.count) (hd : s.deleted o = false) (fd : LowFD)
    (hp : fd.mPollIndex = (s.obj o).mPollIndex)
    (hq : s.quiet o = true → fd.mMarkDelete = true ∨ fd.mPollEvents = 0) :
    ∃ ys, ((s.setObj o fd).enlist o).Inv ys := by
  obtain ⟨ys, hy, -⟩ := (h.setObj hp fun hz _ => hq hz).enlist hlt hd (by
    simp only [Low.setObj, Function.update_self]
    exact hq)
  exact ⟨ys, hy⟩

/-- It is less that is known to be quiet. -/
lemma Inv.withQuiet (h : s.Inv xs) {quiet : Nat → Bool}
    (hq : ∀ o, quiet o = true → (s.obj o).mPollIndex = none ∧
      (o ∈ xs → (s.obj o).mMarkDelete = true ∨ (s.obj o).mPollEvents = 0)) :
    ({ s with quiet := quiet } : Low).Inv xs :=
  ⟨h.listed.congr rfl rfl rfl rfl, h.slots, h.bound, h.deleted, hq, h.pc.congr rfl rfl⟩

lemma Inv.set_poll_events (h : s.Inv xs) (hlt : o < s.count) (hd : s.deleted o = false) (events : Nat) :
    ∃ ys, (s.low_web_set_poll_events o events).Inv ys := by
  have hq : ({ s with quiet := Function.update s.quiet o false } : Low).Inv xs := by
    refine h.withQuiet fun z hz => ?_
    by_cases hzo : z = o
    · rw [hzo, Function.update_self] at hz
      cases hz
    · rw [Function.update_of_ne hzo] at hz
      exact h.quiet z hz
  obtain ⟨ys, hy⟩ := hq.change hlt hd { s.obj o with mPollEvents := events } rfl (by simp)
  refine ⟨ys, ?_⟩
  convert hy using 1
  unfold low_web_set_poll_events Low.enlist
  split_ifs <;> first | rfl | contradiction

lemma Inv.isCleared_iff (h : s.Inv xs) :
    s.isCleared o = true ↔ (s.obj o).mPollIndex = none ∧ o ∉ xs := by
  rw [← h.listed.isListed_iff]
  simp [isCleared]

/-- A pass that returns while the web thread runs leaves nothing of the object. -/
lemma Inv.clearPass (h : s.Inv xs) (hlt : s.isCleared o = false → o < s.count ∧ s.deleted o = false) :
    ∃ ys, (s.clearPass o).2.Inv ys ∧ (s.clearPass o).2.pc = s.pc ∧
      (s.clearPass o).2.quiet = s.quiet ∧ (s.clearPass o).2.deleted = s.deleted ∧
      (s.clearPass o).2.fds = s.fds ∧ (s.clearPass o).2.count = s.count ∧
      ((s.clearPass o).1 = true → (s.pc = .done → s.isCleared o = true) →
        (s.clearPass o).2.isCleared o = true) := by
  rw [Low.clearPass]
  split_ifs with hc
  · exact ⟨xs, h, rfl, rfl, rfl, rfl, rfl, fun _ _ => hc⟩
  · obtain ⟨hlt, hd⟩ := hlt (Bool.eq_false_iff.mpr hc)
    obtain ⟨ys, hy⟩ := h.change hlt hd { s.obj o with mPollEvents := 0 } rfl fun _ => .inr rfl
    obtain ⟨q, n, c, heq⟩ := (s.setObj o { s.obj o with mPollEvents := 0 }).enlist_rest o
    refine ⟨ys, hy, ?_⟩
    rw [heq]
    exact ⟨rfl, rfl, rfl, rfl, rfl, fun hret hdone => absurd (hdone (of_decide_eq_true hret)) hc⟩

/-- Only the callers that wait have changed. -/
lemma Inv.withClearing (h : s.Inv xs) (clearing : Nat → Option (Nat × Bool)) :
    ({ s with clearing := clearing } : Low).Inv xs :=
  ⟨h.listed.congr rfl rfl rfl rfl, h.slots, h.bound, h.deleted, h.quiet, h.pc.congr rfl rfl⟩

lemma Inv.withDeleted (h : s.Inv xs) (hc : s.isCleared o = true) :
    ({ s with deleted := Function.update s.deleted o true } : Low).Inv xs := by
  refine ⟨h.listed.congr rfl rfl rfl rfl, h.slots, h.bound, fun z hz => ?_, h.quiet, h.pc.congr rfl rfl⟩
  by_cases hzo : z = o
  · rw [hzo]
    exact h.isCleared_iff.mp hc
  · refine h.deleted z ?_
    rwa [← Function.update_of_ne hzo true s.deleted]

lemma Inv.withQuiet_self (h : s.Inv xs) (hc : s.isCleared o = true) :
    ({ s with quiet := Function.update s.quiet o true } : Low).Inv xs := by
  refine h.withQuiet fun z hz => ?_
  by_cases hzo : z = o
  · subst hzo
    obtain ⟨hp, hmem⟩ := h.isCleared_iff.mp hc
    exact ⟨hp, fun hm => absurd hm hmem⟩
  · rw [Function.update_of_ne hzo] at hz
    exact h.quiet z hz

/-- The object is alone in `low_web_clear_poll`, or its caller waits. -/
lemma Inv.clear (h : s.Inv xs) (client : Nat) (hlt : o < s.count) (hd : s.deleted o = false) (destroy : Bool)
    (hok : destroy = true → s.pc = .done → s.isCleared o = true) :
    ∃ ys, (s.clear client o destroy).Inv ys := by
  obtain ⟨ys, hy, -, hquiet, hdeleted, -, -, hret⟩ := h.clearPass (o := o) fun _ => ⟨hlt, hd⟩
  rw [Low.clear]
  generalize s.clearPass o = r at hy hquiet hdeleted hret ⊢
  obtain ⟨returns, t⟩ := r
  simp only at hy hquiet hdeleted hret ⊢
  rw [← hquiet, ← hdeleted]
  split_ifs with hr hdes hdone hdone
  · have hc := hret hr (hok hdes)
    exact ⟨ys, (hy.withDeleted hc).withClearing _⟩
  · have hc := hret hr (hok hdes)
    exact ⟨ys, ((hy.withDeleted hc).withQuiet_self hc).withClearing _⟩
  · exact ⟨ys, hy.withClearing _⟩
  · have hc := hret hr fun hd => absurd hd hdone
    exact ⟨ys, (hy.withQuiet_self hc).withClearing _⟩
  · exact ⟨ys, hy.withClearing _⟩

/-! ### The web thread -/

/-- The vectors have changed, but in no place that leads to an object. -/
lemma Inv.withFds (h : s.Inv xs) {fds : List Slot} (pc : PC)
    (hf : ∀ o i, ({ s with fds := fds } : Low).hasSlot o i ↔ s.hasSlot o i)
    (hp : ({ s with fds := fds } : Low).AtPC pc) : ({ s with fds := fds, pc := pc } : Low).Inv xs :=
  ⟨h.listed.congr rfl rfl rfl rfl, fun o i => (hf o i).trans (h.slots o i), h.bound, h.deleted, h.quiet,
    hp.congr rfl rfl⟩

lemma Inv.withPC (h : s.Inv xs) {pc : PC} (hp : s.AtPC pc) : ({ s with pc := pc } : Low).Inv xs :=
  h.withFds pc (fun _ _ => Iff.rfl) hp

lemma Inv.poll (h : s.Inv xs) (cares : List Nat) (count : Bool) : (s.poll cares count).Inv xs := by
  have hf : ∀ o i, ({ s with fds := s.fds ++ cares.map (⟨some ·, 1, .cares⟩) } : Low).hasSlot o i ↔
      s.hasSlot o i := fun _ _ => hasSlot_cares rfl
  rw [Low.poll]
  split_ifs
  · exact h.withFds _ hf trivial
  · refine h.withFds _ hf fun o j hj => ⟨?_, hasSlot_lt ((hf o j).mp hj)⟩
    exact lt_or_ge j 1
  · exact h.withPC trivial

lemma Scans.next_last {n m : Nat} (h : s.Scans i n m) : s.Scans (i + 1) (i + 1) m := fun o j hj =>
  ⟨lt_or_ge j (i + 1), (h o j hj).2⟩

/-- A place that leads to no object is passed. -/
lemma Scans.next {n m : Nat} (h : s.Scans i n m) (hi : ∀ o, ¬s.hasSlot o i) : s.Scans (i + 1) n m := by
  intro o j hj
  obtain ⟨hbetween, hlt⟩ := h o j hj
  refine ⟨hbetween.imp_right fun hle => ?_, hlt⟩
  refine lt_of_le_of_ne hle ?_
  rintro rfl
  exact hi o hj

lemma Inv.scan (h : s.Inv xs) {n m : Nat} (hs : s.Scans i n m) (revents : Bool) :
    (s.scan i n m revents).Inv xs := by
  rw [Low.scan]
  by_cases hlt : i < m
  · rw [if_pos hlt]
    split
    · rename_i fd events o heq
      split_ifs
      · exact h.withPC ⟨hs, o, fd, events, heq⟩
      · exact h.withPC hs.next_last
    · exact h.withPC hs.next_last
    · rename_i hlow hother
      refine h.withPC (hs.next ?_)
      rintro o ⟨fd, events, heq⟩
      exact hlow fd events o heq
  · rw [if_neg hlt]
    refine h.withFds .processing (fun o j => hasSlot_take rfl ?_) trivial
    intro j o hn hj
    obtain ⟨hlo | hle, hlt'⟩ := hs o j hj
    · omega
    · omega

/-- A place is given up. -/
lemma Inv.drop (h : s.Inv xs) (hi : (s.obj o).mPollIndex = some i) (pc : PC)
    (hp : (s.invalidate i).AtPC pc) :
    ({ (s.invalidate i).setObj o { s.obj o with mPollIndex := none } with pc := pc } : Low).Inv xs := by
  refine ⟨h.listed.congr rfl rfl rfl rfl, fun z j => ?_, fun z hz => ?_, fun z hz => ?_, fun z hz => ?_,
    hp.congr rfl rfl⟩
  · refine (hasSlot_congr rfl).trans (hasSlot_invalidate.trans ?_)
    rw [h.slots]
    by_cases hzo : z = o
    · subst hzo
      simp only [Low.setObj, Function.update_self]
      rw [hi]
      simp only [Option.some.injEq, reduceCtorEq, iff_false, not_and, not_not]
      exact Eq.symm
    · have hobj : (Function.update s.obj o { s.obj o with mPollIndex := none } : Nat → LowFD) z = s.obj z :=
        Function.update_of_ne hzo ..
      simp only [Low.setObj, Low.invalidate, hobj]
      refine ⟨And.left, fun hz => ⟨hz, ?_⟩⟩
      rintro rfl
      obtain ⟨_, _, hz'⟩ := (h.slots z j).mpr hz
      obtain ⟨_, _, ho⟩ := (h.slots o j).mpr hi
      rw [hz'] at ho
      cases ho
      exact hzo rfl
  · by_cases hzo : z = o
    · subst hzo
      simp [Low.setObj] at hz
    · exact h.bound z (by simpa [Low.setObj, Low.invalidate, hzo] using hz)
  · by_cases hzo : z = o
    · subst hzo
      exact ⟨by simp [Low.setObj], (h.deleted z hz).2⟩
    · simpa [Low.setObj, Low.invalidate, hzo] using h.deleted z hz
  · by_cases hzo : z = o
    · subst hzo
      simpa [Low.setObj] using (h.quiet z hz).2
    · simpa [Low.setObj, Low.invalidate, hzo] using h.quiet z hz

lemma Inv.unlist (h : s.Inv xs) (o : Nat) : ∃ ys, (s.unlist o).Inv ys := by
  obtain ⟨ys, hy, hw⟩ := h.listed.unlist o
  obtain ⟨q, n, c, heq⟩ := s.unlist_rest o
  rw [heq] at hy ⊢
  refine ⟨ys, hy, h.slots, h.bound, fun z hz => ?_, fun z hz => ?_, h.pc.congr rfl rfl⟩
  · exact ⟨(h.deleted z hz).1, fun hmem => (h.deleted z hz).2 ((hw z).mp hmem).1⟩
  · exact ⟨(h.quiet z hz).1, fun hmem => (h.quiet z hz).2 ((hw z).mp hmem).1⟩

/-- The list does not depend on the places. -/
lemma unlist_drop (s : Low) (o : Nat) (pc : PC) :
    ({ s.setObj o { s.obj o with mPollIndex := none } with pc := pc } : Low).unlist o =
      { (s.unlist o).setObj o { (s.unlist o).obj o with mPollIndex := none } with pc := pc } := by
  unfold Low.unlist isListed
  simp only [setList, setObj]
  by_cases hl : (s.mNextChanged o != none || s.web_changed.last == some o) = true
  · by_cases hf : s.web_changed.first = some o
    · simp [hl, hf]
    · cases predecessor s.mNextChanged o (s.count + 1) s.web_changed.first with
      | none => simp [hl, hf]
      | some l => simp [hl, hf]
  · simp [hl]

lemma Inv.onEventsReturned (h : s.Inv xs) {n m : Nat} (hs : s.Scans i n m) (hslot : ∃ o, s.hasSlot o i)
    (keep : Bool) : ∃ ys, (s.onEventsReturned i n m keep).Inv ys := by
  obtain ⟨o, hslot⟩ := hslot
  have hi := (h.slots o i).mp hslot
  obtain ⟨fd, events, heq⟩ := hslot
  rw [Low.onEventsReturned]
  split_ifs
  · exact ⟨xs, h.withPC hs.next_last⟩
  · have hscans : (s.invalidate i).Scans (i + 1) n m := by
      refine Scans.next (fun z j hj => hs z j (hasSlot_invalidate.mp hj).1) fun z hz => ?_
      exact (hasSlot_invalidate.mp hz).2 rfl
    obtain ⟨ys, hy⟩ := (h.drop hi (.removing o (i + 1) n m)
      ⟨hscans, h.bound o (by simp [hi])⟩).unlist o
    refine ⟨ys, ?_⟩
    simp only [heq]
    rwa [← unlist_drop]

/-- The web thread has deleted an object, or waits for the list to be worked off. -/
lemma Inv.delete (h : s.Inv xs) {pc : PC} (hlt : o < s.count) (hdone : s.pc ≠ .done) (hp : s.AtPC pc) :
    ∃ ys, (s.delete o pc).Inv ys := by
  have hcall : s.isCleared o = false → o < s.count ∧ s.deleted o = false := by
    refine fun hc => ⟨hlt, Bool.eq_false_iff.mpr fun hd => ?_⟩
    rw [h.isCleared_iff.mpr (h.deleted o hd)] at hc
    cases hc
  obtain ⟨ys, hy, -, -, hdeleted, hfds, hcount, hret⟩ := h.clearPass hcall
  rw [Low.delete]
  generalize s.clearPass o = r at hy hdeleted hfds hcount hret ⊢
  obtain ⟨returns, t⟩ := r
  simp only at hy hdeleted hfds hcount hret ⊢
  rw [← hdeleted]
  split_ifs with hr
  · exact ⟨ys, (hy.withDeleted (hret hr fun hd => absurd hd hdone)).withPC (hp.congr hfds hcount)⟩
  · exact ⟨ys, hy⟩

lemma Inv.dropSlot (h : s.Inv xs) (hp : s.pc = .processing) (o : Nat) :
    (s.dropSlot o).Inv xs ∧ (s.dropSlot o).count = s.count := by
  rw [Low.dropSlot]
  split
  · exact ⟨h, rfl⟩
  · rename_i i hi
    have hpc : (s.invalidate i).AtPC s.pc := by
      rw [hp]
      trivial
    exact ⟨h.drop hi _ hpc, rfl⟩

/-- The object gets the place `i`, which led to no object. -/
lemma Inv.gains (h : s.Inv xs) (hpc : s.pc = .processing) (hlt : o < s.count)
    (hnone : (s.obj o).mPollIndex = none) (hd : s.deleted o = false) (hq : s.quiet o = false)
    {fds : List Slot} (hf : ∀ z j, ({ s with fds := fds } : Low).hasSlot z j ↔
      s.hasSlot z j ∨ j = i ∧ z = o) :
    ({ s.setObj o { s.obj o with mPollIndex := some i } with fds := fds } : Low).Inv xs := by
  refine ⟨h.listed.congr rfl rfl rfl rfl, fun z j => ?_, fun z hz => ?_, fun z hz => ?_, fun z hz => ?_,
    ?_⟩
  · refine (hf z j).trans ?_
    rw [h.slots]
    by_cases hzo : z = o
    · subst hzo
      simp [Low.setObj, hnone, eq_comm]
    · simp [Low.setObj, hzo]
  · by_cases hzo : z = o
    · exact hzo ▸ hlt
    · exact h.bound z (by simpa [Low.setObj, hzo] using hz)
  · by_cases hzo : z = o
    · subst hzo
      rw [show s.deleted z = true from hz] at hd
      cases hd
    · simpa [Low.setObj, hzo] using h.deleted z hz
  · by_cases hzo : z = o
    · subst hzo
      rw [show s.quiet z = true from hz] at hq
      cases hq
    · simpa [Low.setObj, hzo] using h.quiet z hz
  · show AtPC _ s.pc
    rw [hpc]
    trivial

lemma Inv.addSlot (h : s.Inv xs) (hpc : s.pc = .processing) (hlt : o < s.count)
    (hnone : (s.obj o).mPollIndex = none) (hd : s.deleted o = false) (hq : s.quiet o = false)
    (fd events : Nat) : (s.addSlot o fd events).Inv xs := by
  rw [Low.addSlot]
  split
  · rename_i i hfind
    obtain ⟨hi, hfree, -⟩ := List.findIdx?_eq_some_iff_getElem.mp hfind
    refine h.gains hpc hlt hnone hd hq fun z j => ?_
    rw [hasSlot_iff, hasSlot_iff, List.getElem?_set]
    by_cases hij : i = j
    · subst hij
      have hobj : Slot.obj s.fds[i] = none := by
        simp only [beq_iff_eq] at hfree
        simp [Slot.obj, hfree]
      have hnew : Slot.obj ⟨some fd, events, .low o⟩ = some o := rfl
      simp [hi, hobj, hnew, eq_comm]
    · simp [hij, Ne.symm hij]
  · refine h.gains hpc hlt hnone hd hq fun z j => ?_
    rw [hasSlot_iff, hasSlot_iff, List.getElem?_append]
    split_ifs with hj
    · simp [hj.ne]
    · rw [List.getElem?_eq_none (not_lt.mp hj)]
      rcases (not_lt.mp hj).lt_or_eq with hlt' | heq
      · have hz : j - s.fds.length ≠ 0 := by omega
        simp [hz, hlt'.ne']
      · simp [← heq, Slot.obj, eq_comm]

/-- The place of an object gets its events. -/
lemma Inv.update (h : s.Inv xs) (hpc : s.pc = .processing) (hi : (s.obj o).mPollIndex = some i)
    (fd events : Nat) :
    ({ s with fds := s.fds.modify i fun slot => { slot with fd := some fd, events := events } } :
      Low).Inv xs := by
  obtain ⟨fd', events', heq⟩ := (h.slots o i).mpr hi
  have hpc' : ({ s with fds := s.fds.modify i fun slot => { slot with fd := some fd, events := events } } :
      Low).AtPC s.pc := by
    rw [hpc]
    trivial
  refine h.withFds _ (fun z j => ?_) hpc'
  rw [hasSlot_iff, hasSlot_iff, List.getElem?_modify]
  by_cases hij : i = j
  · subst hij
    simp [heq, Slot.obj]
  · simp [hij]

lemma Inv.process (h : s.Inv xs) (hpc : s.pc = .processing) : ∃ ys, s.process.Inv ys := by
  rw [Low.process]
  split
  · exact ⟨xs, h.withPC trivial⟩
  · rename_i o hfirst
    obtain ⟨bs, rfl⟩ : ∃ bs, xs = o :: bs := by
      rw [h.listed.queue.linked.head_eq] at hfirst
      exact ⟨xs.tail, (List.cons_head?_tail hfirst).symm⟩
    obtain ⟨hl, hw⟩ := h.listed.unlink (show o :: bs = [] ++ o :: bs from rfl)
    have hlt := h.listed.bound o List.mem_cons_self
    have hd : s.deleted o = false := Bool.eq_false_iff.mpr fun hd => (h.deleted o hd).2 List.mem_cons_self
    have hmem := (hw o).not.mpr fun hm => hm.2 rfl
    have hq : s.quiet o = true → (s.obj o).mMarkDelete = true ∨ (s.obj o).mPollEvents = 0 :=
      fun hq => (h.quiet o hq).2 List.mem_cons_self
    have ht : ({ s.setList (s.web_changed.unlink s.mNextChanged none o) with
        changed := Function.update s.changed o false } : Low).Inv bs := by
      refine ⟨hl, h.slots, h.bound, fun z hz => ?_, fun z hz => ?_, ?_⟩
      · exact ⟨(h.deleted z hz).1, fun hm => (h.deleted z hz).2 ((hw z).mp hm).1⟩
      · exact ⟨(h.quiet z hz).1, fun hm => (h.quiet z hz).2 ((hw z).mp hm).1⟩
      · exact h.pc.congr rfl rfl
    refine ⟨bs, ?_⟩
    generalize hts : ({ s.setList (s.web_changed.unlink s.mNextChanged none o) with
      changed := Function.update s.changed o false } : Low) = t at ht ⊢
    have hobj : t.obj = s.obj := by rw [← hts]; rfl
    have hcount : t.count = s.count := by rw [← hts]; rfl
    have hpc' : t.pc = .processing := by rw [← hts]; exact hpc
    have hd' : t.deleted = s.deleted := by rw [← hts]; rfl
    have hq' : t.quiet = s.quiet := by rw [← hts]; rfl
    rw [← hobj] at hq
    rw [← hcount] at hlt
    simp only
    by_cases hmark : (t.obj o).mMarkDelete = true
    · rw [if_pos hmark]
      obtain ⟨hdrop, hc⟩ := ht.dropSlot hpc' o
      refine hdrop.withPC ?_
      show o < _
      rwa [hc]
    · rw [if_neg hmark]
      split
      · exact (ht.dropSlot hpc' o).1
      · rename_i n hfd hindex
        split_ifs with hev
        · exact ht
        · refine ht.addSlot hpc' hlt hindex (hd' ▸ hd) (Bool.eq_false_iff.mpr fun hquiet => ?_) _ _
          exact (hq (hq' ▸ hquiet)).elim hmark hev
      · rename_i n i hfd hindex
        split_ifs with hev
        · exact (ht.dropSlot hpc' o).1
        · exact ht.update hpc' hindex _ _

/-- What each step keeps. -/
lemma Inv.step (h : s.Inv xs) {i : Input} (hok : s.WebRuns i) : ∃ ys, (s.step i).Inv ys := by
  cases i with
  | setFD o fd =>
    simp only [Low.step]
    split_ifs
    · exact ⟨xs, h.setObj rfl fun hq hmem => (h.quiet o hq).2 hmem⟩
    · exact ⟨xs, h⟩
  | set o events =>
    simp only [Low.step]
    split_ifs with hc
    · exact h.set_poll_events hc.2.1 hc.2.2 events
    · exact ⟨xs, h⟩
  | markDelete o =>
    simp only [Low.step]
    split_ifs with hc
    · exact h.change hc.2.1 hc.2.2 _ rfl fun _ => .inl rfl
    · exact ⟨xs, h⟩
  | clear client o destroy =>
    simp only [Low.step]
    split_ifs with hc
    · refine h.clear client hc.1.2.1 hc.1.2.2 destroy ?_
      rintro rfl
      exact hok
    · exact ⟨xs, h⟩
  | wake client =>
    simp only [Low.step]
    split
    · exact ⟨xs, h⟩
    · rename_i o destroy hcl
      split_ifs with hc
      · refine h.clear client hc.2.1 hc.2.2 destroy ?_
        rintro rfl
        exact hok o hcl
      · exact ⟨xs, h⟩
  | poll cares count =>
    simp only [Low.step]
    split_ifs
    · exact ⟨xs, h.poll cares count⟩
    · exact ⟨xs, h⟩
  | web revents keep =>
    have hpc := h.pc
    simp only [Low.step, Low.web]
    generalize hat : s.pc = pc at hpc
    cases pc with
    | polling => exact ⟨xs, h⟩
    | done => exact ⟨xs, h⟩
    | scanning i n m => exact ⟨xs, h.scan hpc revents⟩
    | inEvents i n m => exact h.onEventsReturned hpc.1 hpc.2 keep
    | removing o i n m => exact h.delete hpc.2 (by simp [hat]) hpc.1
    | processing => exact h.process hat
    | deleting o => exact h.delete hpc (by simp [hat]) trivial
  | destroy => exact ⟨xs, h.listed.congr rfl rfl rfl rfl, h.slots, h.bound, h.deleted, h.quiet,
      h.pc.congr rfl rfl⟩

/-- For any number of objects and in every run in which no destructor meets an object that still has a
place or is in the list after the end of the web thread, the poll table is sound. -/
theorem poll_table_sound (count pipe : Nat) (fd : Nat → Option Nat) {is : List Input}
    (hok : machine.Guarded WebRuns (start count pipe fd) is) :
    (machine.run (start count pipe fd) is).Sound := by
  have hinv : ∃ xs, (machine.run (start count pipe fd) is).Inv xs :=
    machine.run_invariant (P := fun s => ∃ xs, s.Inv xs) (fun _ _ ⟨_, h⟩ hi => h.step hi)
      ⟨_, inv_start count pipe fd⟩ hok
  obtain ⟨xs, h⟩ := hinv
  exact h.sound

/-- An object gets a place, loses it in `low_web_clear_poll`, and another gets the same place. -/
theorem poll_table_sound_two :
    (machine.run (start 2 7 some) [.set 0 1, .poll [] false, .web false true, .web false true,
      .clear 0 0 false, .set 1 1, .poll [] false, .web false true, .web false true, .web false true,
      .wake 0, .poll [5] true, .web true true, .web true false]).Sound :=
  poll_table_sound 2 7 some ⟨trivial, trivial, trivial, trivial, trivial, trivial, trivial, trivial, trivial,
    trivial, (fun _ h => by cases h), trivial, trivial, trivial, trivial⟩

/-- An object that is destroyed after the end of the web thread stays in the list. -/
theorem deleted_but_listed :
    ¬(machine.run (start 1 7 some) [.set 0 1, .poll [] false, .web false true, .web false true,
      .destroy, .poll [] false, .clear 0 0 true]).Sound := by
  intro h
  have hin : (machine.run (start 1 7 some) [.set 0 1, .poll [] false, .web false true, .web false true,
      .destroy, .poll [] false, .clear 0 0 true]).changed 0 = true := rfl
  rw [(h.deleted 0 rfl).2] at hin
  cases hin

end Low

end LowJs.PollTable
