import LowJs.Core.Machine

/-!
# Requests that keep the loop alive

The loop ends when `run_ref` is zero and no loop callback is queued. Each class of file system and DNS
requests counts `run_ref` up and down by hand: some before the callback is called and some behind it, some
in their constructors and destructors, some only where they have an id for the callback.
-/

namespace LowJs.Requests

/-- Where a request is: with a data thread or c-ares, in the list of loop callbacks, in its callback, or at
its end. -/
inductive Stage
  | working
  | queued
  | calling
  | over
  deriving DecidableEq, Repr

inductive Phase
  | opening
  | reading
  | writing
  | fstat
  | closing
  | ready
  deriving DecidableEq, Repr

/-- The functions of an open file. -/
inductive Op
  | read
  | write
  | fstat
  | close
  deriving DecidableEq, Repr

def Op.phase : Op → Phase
  | read => .reading
  | write => .writing
  | fstat => .fstat
  | close => .closing

/-- The id `low_add_stash` gives for a callback is none where the callback is undefined. -/
structure LowFSMisc where
  mCallID : Option Nat
  stage : Stage
  deriving DecidableEq, Repr

structure LowFile where
  mCallID : Option Nat
  mPhase : Phase
  mDataDone : Bool
  mClose : Bool
  mError : Bool
  deriving DecidableEq, Repr

structure LowDNSWorker where
  mCallID : Nat
  stage : Stage
  deriving DecidableEq, Repr

/-- `LowDNSResolver_Query` and `LowDNSResolver_GetHostByAddr`. -/
structure Query where
  mCallID : Option Nat
  stage : Stage
  deriving DecidableEq, Repr

inductive Object
  | fsMisc (r : LowFSMisc)
  | file (f : LowFile)
  | worker (w : LowDNSWorker)
  | query (q : Query)
  | deleted
  deriving DecidableEq, Repr

/-! ### The classes

What a function does to its object and adds to `run_ref`. -/

namespace LowFSMisc

/-- `LowFSMisc::Run` with the index of a callback. -/
def Run (callback : Option Nat) : Object × Int := (.fsMisc ⟨callback, .working⟩, 1)

def OnData (r : LowFSMisc) : LowFSMisc :=
  { r with stage := if r.mCallID = none then .over else .queued }

/-- `LowFSMisc::OnLoop` until it calls the callback. -/
def OnLoop (r : LowFSMisc) : Object × Int :=
  (.fsMisc ⟨none, .calling⟩, if r.mCallID = none then 0 else -1)

/-- The destructor. -/
def delete (r : LowFSMisc) : Object × Int := (.deleted, if r.mCallID = none then 0 else -1)

end LowFSMisc

namespace LowFile

/-- The constructor. -/
def new (callback : Option Nat) : Object × Int :=
  (.file ⟨callback, .opening, false, false, false⟩, if callback = none then 0 else 1)

/-- `LowFile::Read`, `Write`, `FStat` and `Close`. Where they refuse, they call the callback with an error
in the next tick. -/
def start (f : LowFile) (op : Op) (callback : Option Nat) : Object × Int :=
  if f.mClose then (.file f, 0)
  else if f.mPhase ≠ .ready then (.file f, 0)
  else
    (.file { f with mCallID := callback, mPhase := op.phase, mDataDone := false },
      if callback = none then 0 else 1)

def OnData (f : LowFile) (error : Bool) : LowFile := { f with mDataDone := true, mError := error }

/-- `LowFile::FinishPhase` until it calls the callback. -/
def FinishPhase (f : LowFile) : Object × Int :=
  if f.mPhase = .ready then (.file f, 0)
  else if f.mDataDone = false then (.file f, 0)
  else
    (.file { f with
      mCallID := none
      mPhase := .ready
      mClose := f.mClose || (f.mPhase = .opening && f.mError) || f.mPhase = .closing },
      if f.mCallID = none then 0 else -1)

/-- The destructor. -/
def delete (f : LowFile) : Object × Int := (.deleted, if f.mCallID = none then 0 else -1)

def OnLoop (f : LowFile) : Object × Int := if f.mClose then f.delete else f.FinishPhase

end LowFile

namespace LowDNSWorker

/-- `LowDNSWorker::Lookup` and `LookupService`, for a text with `strlen` bytes and room for `size`. Where
they refuse, the worker is deleted. -/
def start (size strlen : Nat) (callback : Option Nat) : Object × Int :=
  if strlen ≥ size then (.deleted, 0)
  else
    match callback with
    | none => (.deleted, 0)
    | some mCallID => (.worker ⟨mCallID, .working⟩, 1)

def Lookup : Nat → Option Nat → Object × Int := start 64

def LookupService : Nat → Option Nat → Object × Int := start 16

end LowDNSWorker

namespace Query

/-- A resolver's request: the constructor, and `Resolve`, which may refuse. -/
def start (ok : Bool) (callback : Option Nat) : Object × Int :=
  if ok then (.query ⟨callback, .working⟩, 1) else (.query ⟨none, .over⟩, 1)

def types : List String :=
  ["ANY", "A", "AAAA", "CNAME", "MX", "NS", "TXT", "SRV", "PTR", "NAPTR", "SOA"]

/-- `low_dns_resolver_resolve`: an unknown type throws. -/
def resolve (type : String) : Option Nat → Object × Int := start (types.contains type)

/-- `low_dns_resolver_gethostbyaddr`: an address that `inet_pton` does not take gives an error. -/
def gethostbyaddr (pton : Bool) : Option Nat → Object × Int := start pton

/-- The destructor. -/
def delete : Object × Int := (.deleted, -1)

end Query

namespace Object

/-- A data thread, or c-ares, is done with a request. -/
def data (error : Bool) : Object → Object × Int
  | fsMisc r => (fsMisc (if r.stage = .working then r.OnData else r), 0)
  | file f => (file (if f.mPhase ≠ .ready ∧ f.mDataDone = false then f.OnData error else f), 0)
  | worker w => (worker (if w.stage = .working then { w with stage := .queued } else w), 0)
  | query q => (query (if q.stage = .working then { q with stage := .queued } else q), 0)
  | deleted => (deleted, 0)

/-- `OnLoop`, until the callback is called. The callback of a file may be queued still when
`low_fs_waitdone` has finished its phase. -/
def loop : Object → Object × Int
  | fsMisc r => if r.stage = .queued then r.OnLoop else (fsMisc r, 0)
  | file f => f.OnLoop
  | worker w => (worker (if w.stage = .queued then { w with stage := .calling } else w), 0)
  | query q => (query (if q.stage = .queued then { q with stage := .calling } else q), 0)
  | deleted => (deleted, 0)

/-- `low_fs_waitdone`. -/
def waitdone : Object → Object × Int
  | file f => f.FinishPhase
  | o => (o, 0)

/-- The callback has returned, or it has thrown, which takes the loop out of `OnLoop`. A callback that is
undefined throws when it is called. -/
def returned (throws : Bool) : Object → Object × Int
  | fsMisc r =>
    if r.stage ≠ .calling then (fsMisc r, 0)
    else if throws then (fsMisc { r with stage := .over }, 0)
    else r.delete
  | file f => if f.mClose ∧ throws = false then f.delete else (file f, 0)
  | worker w =>
    if w.stage ≠ .calling then (worker w, 0)
    else if throws then (worker { w with stage := .over }, 0)
    else (deleted, -1)
  | query q =>
    if q.stage ≠ .calling then (query q, 0)
    else if throws ∨ q.mCallID = none then (query { q with stage := .over }, 0)
    else Query.delete
  | deleted => (deleted, 0)

/-- `LowFile::Read` and the others of an open file. -/
def request (op : Op) (callback : Option Nat) : Object → Object × Int
  | file f => f.start op callback
  | o => (o, 0)

/-- A request is outstanding from its start until it is counted off: one of the file system when its
callback is called, one of DNS when that has returned. -/
def outstanding : Object → Bool
  | fsMisc r => r.stage = .working ∨ r.stage = .queued
  | file f => f.mPhase ≠ .ready
  | worker w => w.stage ≠ .over
  | query q => q.stage ≠ .over
  | deleted => false

def isDNS : Object → Bool
  | worker _ | query _ => true
  | _ => false

end Object

/-- The part of `run_ref` that the requests own, and their objects. -/
structure Low where
  run_ref : Int
  objects : List Object
  deriving DecidableEq, Repr

namespace Low

def add (s : Low) (r : Object × Int) : Low := ⟨s.run_ref + r.2, s.objects ++ [r.1]⟩

def modify (s : Low) (i : Nat) (f : Object → Object × Int) : Low :=
  match s.objects[i]? with
  | none => s
  | some o => ⟨s.run_ref + (f o).2, s.objects.set i (f o).1⟩

inductive Input
  | run (callback : Option Nat)
  | open (callback : Option Nat)
  | request (i : Nat) (op : Op) (callback : Option Nat)
  | lookup (strlen : Nat) (callback : Option Nat)
  | lookupService (strlen : Nat) (callback : Option Nat)
  | resolve (type : String) (callback : Option Nat)
  | gethostbyaddr (pton : Bool) (callback : Option Nat)
  | data (i : Nat) (error : Bool)
  | loop (i : Nat)
  | waitdone (i : Nat)
  | returned (i : Nat) (throws : Bool)
  deriving DecidableEq, Repr

def step (s : Low) : Input → Low
  | .run callback => s.add (LowFSMisc.Run callback)
  | .open callback => s.add (LowFile.new callback)
  | .request i op callback => s.modify i (Object.request op callback)
  | .lookup strlen callback => s.add (LowDNSWorker.Lookup strlen callback)
  | .lookupService strlen callback => s.add (LowDNSWorker.LookupService strlen callback)
  | .resolve type callback => s.add (Query.resolve type callback)
  | .gethostbyaddr pton callback => s.add (Query.gethostbyaddr pton callback)
  | .data i error => s.modify i (Object.data error)
  | .loop i => s.modify i Object.loop
  | .waitdone i => s.modify i Object.waitdone
  | .returned i throws => s.modify i (Object.returned throws)

def start : Low := ⟨0, []⟩

end Low

def machine : Machine Low Low.Input := ⟨Low.step⟩

namespace Low

/-- The requests' part of `run_ref` is the number of requests that are outstanding, so it lets the loop end
exactly when there are none. -/
structure Sound (s : Low) : Prop where
  count : s.run_ref = s.objects.countP Object.outstanding
  ends : s.run_ref = 0 ↔ ∀ o ∈ s.objects, o.outstanding = false

/-- The condition: requests are started with a callback (a DNS worker without one is not started), a
resolver takes those it gets, and no callback of a DNS request throws. -/
def CountedOff (s : Low) : Input → Prop
  | .run callback | .open callback | .request _ _ callback => callback ≠ none
  | .resolve type callback => Query.types.contains type = true ∧ callback ≠ none
  | .gethostbyaddr pton callback => pton = true ∧ callback ≠ none
  | .returned i throws => throws = true → ∀ o ∈ s.objects[i]?, o.isDNS = false
  | _ => True

end Low

/-! ### What the functions keep -/

namespace Object

/-- What an object owns of `run_ref`. -/
def ref (o : Object) : Int := if o.outstanding then 1 else 0

/-- An object that counts its request off: it holds the id of a callback as long as it has to. -/
def Accounted : Object → Prop
  | fsMisc r => r.mCallID ≠ none ↔ r.stage = .working ∨ r.stage = .queued
  | file f => (f.mCallID ≠ none ↔ f.mPhase ≠ .ready) ∧ (f.mClose = true → f.mPhase = .ready)
  | worker w => w.stage ≠ .over
  | query q => q.mCallID ≠ none ∧ q.stage ≠ .over
  | deleted => True

/-- A result that keeps account, from an object that owns `n`. -/
def Keeps (n : Int) (r : Object × Int) : Prop := r.1.Accounted ∧ r.2 = r.1.ref - n

variable {o : Object}

lemma keeps_self (h : o.Accounted) : Keeps o.ref (o, 0) := ⟨h, by simp⟩

end Object

open Object

namespace LowFSMisc

variable {r : LowFSMisc}

lemma keeps_run (callback : Nat) : Keeps 0 (Run (some callback)) :=
  ⟨by simp [Run, Accounted], by simp [Run, ref, outstanding]⟩

lemma keeps_onData (h : (fsMisc r).Accounted) (hs : r.stage = .working) :
    Keeps (fsMisc r).ref (fsMisc r.OnData, 0) := by
  have hid : r.mCallID ≠ none := h.mpr (.inl hs)
  constructor
  · simp [Accounted, OnData, hid]
  · simp [ref, outstanding, OnData, hid, hs]

lemma keeps_onLoop (h : (fsMisc r).Accounted) (hs : r.stage = .queued) :
    Keeps (fsMisc r).ref r.OnLoop := by
  have hid : r.mCallID ≠ none := h.mpr (.inr hs)
  constructor
  · simp [Accounted, OnLoop]
  · simp [ref, outstanding, OnLoop, hid, hs]

/-- The callback's outcome does not matter: its request is counted off. -/
lemma keeps_returned (h : (fsMisc r).Accounted) (throws : Bool) :
    Keeps (fsMisc r).ref ((fsMisc r).returned throws) := by
  have hid : r.stage = .calling → r.mCallID = none := by
    intro hs
    by_contra hid
    simpa [hs] using h.mp hid
  simp only [returned]
  split_ifs with hs ht
  · exact keeps_self h
  · constructor
    · simp [Accounted, hid (not_not.mp hs)]
    · simp [ref, outstanding, not_not.mp hs]
  · constructor
    · exact trivial
    · simp [ref, outstanding, delete, not_not.mp hs, hid (not_not.mp hs)]

end LowFSMisc

namespace LowFile

variable {f : LowFile}

lemma keeps_new (callback : Nat) : Keeps 0 (new (some callback)) :=
  ⟨by simp [new, Accounted], by simp [new, ref, outstanding]⟩

lemma keeps_start (h : (file f).Accounted) (op : Op) (callback : Nat) :
    Keeps (file f).ref (f.start op (some callback)) := by
  have hop : op.phase ≠ .ready := by cases op <;> decide
  unfold start
  by_cases hc : f.mClose = true
  · rw [if_pos hc]
    exact keeps_self h
  · rw [if_neg hc]
    by_cases hp : f.mPhase = .ready
    · rw [if_neg (not_not.mpr hp)]
      constructor
      · exact ⟨iff_of_true (by simp) hop, fun hclose => absurd hclose hc⟩
      · simp [ref, outstanding, hop, hp]
    · rw [if_pos hp]
      exact keeps_self h

lemma keeps_onData (h : (file f).Accounted) (error : Bool) :
    Keeps (file f).ref (file (f.OnData error), 0) := ⟨h, (sub_self _).symm⟩

lemma keeps_finishPhase (h : (file f).Accounted) : Keeps (file f).ref f.FinishPhase := by
  unfold FinishPhase
  split_ifs with hp hd hid
  · exact keeps_self h
  · exact keeps_self h
  · exact absurd hid (h.1.mpr hp)
  · constructor
    · exact ⟨by simp, fun _ => rfl⟩
    · simp [ref, outstanding, hp]

lemma keeps_delete (h : (file f).Accounted) (hc : f.mClose = true) : Keeps (file f).ref f.delete := by
  have hp := h.2 hc
  have hid : f.mCallID = none := by
    by_contra hid
    exact h.1.mp hid hp
  exact ⟨trivial, by simp [ref, outstanding, delete, hid, hp]⟩

lemma keeps_onLoop (h : (file f).Accounted) : Keeps (file f).ref f.OnLoop := by
  unfold OnLoop
  split_ifs with hc
  · exact keeps_delete h hc
  · exact keeps_finishPhase h

end LowFile

lemma LowDNSWorker.keeps_start (size strlen : Nat) (callback : Option Nat) :
    Keeps 0 (LowDNSWorker.start size strlen callback) := by
  unfold LowDNSWorker.start
  split_ifs
  · exact ⟨trivial, rfl⟩
  · cases callback with
    | none => exact ⟨trivial, rfl⟩
    | some id => exact ⟨by simp [Accounted], rfl⟩

lemma Query.keeps_start (callback : Nat) : Keeps 0 (Query.start true (some callback)) :=
  ⟨by simp [Query.start, Accounted], rfl⟩

namespace Object

variable {o : Object}

lemma keeps_data (h : o.Accounted) (error : Bool) : Keeps o.ref (o.data error) := by
  cases o with
  | fsMisc r =>
    simp only [data]
    split_ifs with hs
    · exact LowFSMisc.keeps_onData h hs
    · exact keeps_self h
  | file f =>
    simp only [data]
    split_ifs
    · exact LowFile.keeps_onData h error
    · exact keeps_self h
  | worker w =>
    simp only [data]
    split_ifs with hs
    · exact ⟨by simp [Accounted], by simp [ref, outstanding, hs]⟩
    · exact keeps_self h
  | query q =>
    simp only [data]
    split_ifs with hs
    · exact ⟨⟨h.1, by simp⟩, by simp [ref, outstanding, hs]⟩
    · exact keeps_self h
  | deleted => exact keeps_self h

lemma keeps_loop (h : o.Accounted) : Keeps o.ref o.loop := by
  cases o with
  | fsMisc r =>
    simp only [loop]
    split_ifs with hs
    · exact LowFSMisc.keeps_onLoop h hs
    · exact keeps_self h
  | file f => exact LowFile.keeps_onLoop h
  | worker w =>
    simp only [loop]
    split_ifs with hs
    · exact ⟨by simp [Accounted], by simp [ref, outstanding, hs]⟩
    · exact keeps_self h
  | query q =>
    simp only [loop]
    split_ifs with hs
    · exact ⟨⟨h.1, by simp⟩, by simp [ref, outstanding, hs]⟩
    · exact keeps_self h
  | deleted => exact keeps_self h

lemma keeps_waitdone (h : o.Accounted) : Keeps o.ref o.waitdone := by
  cases o with
  | file f => exact LowFile.keeps_finishPhase h
  | fsMisc _ | worker _ | query _ | deleted => exact keeps_self h

lemma keeps_request (h : o.Accounted) (op : Op) (callback : Nat) :
    Keeps o.ref (o.request op (some callback)) := by
  cases o with
  | file f => exact LowFile.keeps_start h op callback
  | fsMisc _ | worker _ | query _ | deleted => exact keeps_self h

/-- The callback of a DNS request must not throw. -/
lemma keeps_returned (h : o.Accounted) {throws : Bool} (ht : throws = true → o.isDNS = false) :
    Keeps o.ref (o.returned throws) := by
  cases o with
  | fsMisc r => exact LowFSMisc.keeps_returned h throws
  | file f =>
    simp only [returned]
    split_ifs with hc
    · exact LowFile.keeps_delete h hc.1
    · exact keeps_self h
  | worker w =>
    simp only [returned]
    split_ifs with hs hthrows
    · exact keeps_self h
    · cases ht hthrows
    · exact ⟨trivial, by simp [ref, outstanding, not_not.mp hs]⟩
  | query q =>
    simp only [returned]
    split_ifs with hs hthrows
    · exact keeps_self h
    · rcases hthrows with hthrows | hid
      · cases ht hthrows
      · exact absurd hid h.1
    · exact ⟨trivial, by simp [Query.delete, ref, outstanding, not_not.mp hs]⟩
  | deleted => exact keeps_self h

end Object

namespace Low

/-! ### The count -/

/-- The invariant: every object keeps account. -/
structure Inv (s : Low) : Prop where
  accounted : ∀ o ∈ s.objects, o.Accounted
  run_ref : s.run_ref = s.objects.countP Object.outstanding

variable {s : Low}

lemma Inv.sound (h : s.Inv) : s.Sound where
  count := h.run_ref
  ends := by
    rw [h.run_ref, Int.natCast_eq_zero, List.countP_eq_zero]
    simp

lemma inv_start : start.Inv := ⟨by simp [start], rfl⟩

lemma Inv.add (h : s.Inv) {r : Object × Int} (hr : Keeps 0 r) : (s.add r).Inv := by
  constructor
  · intro o ho
    rcases List.mem_append.mp ho with ho | ho
    · exact h.accounted o ho
    · exact List.mem_singleton.mp ho ▸ hr.1
  · have hcount : ((s.objects ++ [r.1]).countP Object.outstanding : Int) =
        s.objects.countP Object.outstanding + r.1.ref := by
      rw [List.countP_append, List.countP_singleton, ref]
      split_ifs <;> simp
    show s.run_ref + r.2 = _
    rw [h.run_ref, hr.2, sub_zero]
    exact hcount.symm

lemma Inv.modify (h : s.Inv) {i : Nat} {f : Object → Object × Int}
    (hf : ∀ o ∈ s.objects[i]?, o.Accounted → Keeps o.ref (f o)) : (s.modify i f).Inv := by
  unfold Low.modify
  split
  · exact h
  · rename_i o hi
    obtain ⟨hlt, heq⟩ := List.getElem?_eq_some_iff.mp hi
    obtain ⟨hacc, hd⟩ := hf o hi (h.accounted o (List.mem_of_getElem? hi))
    constructor
    · intro z hz
      rcases List.mem_or_eq_of_mem_set hz with hz | rfl
      · exact h.accounted z hz
      · exact hacc
    · have hle := List.boole_getElem_le_countP (p := Object.outstanding) hlt
      have hset := List.countP_set (p := Object.outstanding) (a := (f o).1) hlt
      rw [heq] at hle hset
      show s.run_ref + (f o).2 = ((s.objects.set i (f o).1).countP Object.outstanding : Int)
      rw [h.run_ref, hd, hset]
      unfold ref
      split_ifs at hle ⊢ <;> omega

/-- What each step keeps. -/
lemma Inv.step (h : s.Inv) {i : Input} (hok : s.CountedOff i) : (s.step i).Inv := by
  cases i with
  | run callback =>
    obtain ⟨id, rfl⟩ := Option.ne_none_iff_exists'.mp hok
    exact h.add (LowFSMisc.keeps_run id)
  | «open» callback =>
    obtain ⟨id, rfl⟩ := Option.ne_none_iff_exists'.mp hok
    exact h.add (LowFile.keeps_new id)
  | request i op callback =>
    obtain ⟨id, rfl⟩ := Option.ne_none_iff_exists'.mp hok
    exact h.modify fun o _ ho => keeps_request ho op id
  | lookup strlen callback => exact h.add (LowDNSWorker.keeps_start 64 strlen callback)
  | lookupService strlen callback => exact h.add (LowDNSWorker.keeps_start 16 strlen callback)
  | resolve type callback =>
    obtain ⟨htype, hcallback⟩ := hok
    obtain ⟨id, rfl⟩ := Option.ne_none_iff_exists'.mp hcallback
    refine h.add ?_
    rw [Query.resolve, htype]
    exact Query.keeps_start id
  | gethostbyaddr pton callback =>
    obtain ⟨rfl, hcallback⟩ := hok
    obtain ⟨id, rfl⟩ := Option.ne_none_iff_exists'.mp hcallback
    exact h.add (Query.keeps_start id)
  | data i error => exact h.modify fun o _ ho => keeps_data ho error
  | loop i => exact h.modify fun o _ ho => keeps_loop ho
  | waitdone i => exact h.modify fun o _ ho => keeps_waitdone ho
  | returned i throws => exact h.modify fun o hi ho => keeps_returned ho fun ht => hok ht o hi

/-- In every run in which requests are started with a callback and accepted, and no callback of a DNS
request throws, `run_ref` counts the requests that are outstanding. -/
theorem run_ref_exact {is : List Input} (hok : machine.Guarded CountedOff start is) :
    (machine.run start is).Sound :=
  (machine.run_invariant (fun _ _ h hi => h.step hi) inv_start hok).sound

/-- A file is read and closed, with a callback that throws, while a name is looked up. -/
theorem run_ref_exact_file : (machine.run start [.open (some 1), .lookup 9 (some 2), .data 0 false, .loop 0,
    .request 0 .read (some 3), .data 1 true, .data 0 false, .loop 1, .waitdone 0, .returned 1 false,
    .request 0 .close (some 4), .data 0 false, .loop 0, .returned 0 true]).Sound :=
  run_ref_exact ⟨Option.some_ne_none 1, trivial, trivial, trivial, Option.some_ne_none 3, trivial, trivial,
    trivial, trivial, (fun h => by cases h), Option.some_ne_none 4, trivial, trivial,
    (fun _ o ho => by cases ho; rfl), trivial⟩

/-- The request without a callback is finished, and the loop does not end. -/
theorem run_ref_kept : ¬(machine.run start [.run none, .data 0 false]).Sound := fun h => by
  have hcount := h.count
  revert hcount
  decide

end Low

end LowJs.Requests
