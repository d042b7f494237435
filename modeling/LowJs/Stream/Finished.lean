import Mathlib

/-!
# The end of a chain of streams

`finished` and `pipeline` of `stream.js`. An event of a stream comes with what the stream says of its two
halves at that time. Two names of the module are bound nowhere: `finished` calls `eos` where it gets no
options, and `pipeline` calls `destroyer` for each of its streams.
-/

namespace LowJs.Chain

/-- What is read of a stream. -/
structure Source where
  readable : Bool
  writable : Bool
  isRequest : Bool
  /-- `stream.req`, when `finished` is called. -/
  req : Bool
  /-- Whether there is a function `destroy`. -/
  destroy : Bool

/-- The events of a stream, and `finish` of its `req`. `close` and `abort` find the two fields `_readableEOF`
and `_writableEOF`. -/
inductive Event (ε : Type)
  | ended
  | finish
  | complete
  | reqFinish
  | request
  | error (err : ε)
  | close (readableEOF writableEOF : Bool)
  | abort (readableEOF writableEOF : Bool)

/-- The listeners of `finished`. -/
inductive Handler (ε : Type)
  | onend
  | onfinish
  | onerror (err : ε)
  | onclose (readableEOF writableEOF : Bool)

/-- What a callback gets: the error of an event, or the error that was made at a time. -/
inductive Failure (ε : Type)
  | error (err : ε)
  | premature (time : Nat)

/-- What leaves a call. -/
inductive Thrown
  | reference (name : String)
  | missingArgs
  deriving DecidableEq

/-- The options of `finished`; `none` for what is not given. -/
structure FinishedOptions where
  readable : Option Bool := none
  writable : Option Bool := none
  error : Option Bool := none

/-- The second argument of `finished`. -/
inductive Opts
  | options (opts : FinishedOptions)
  | callback

def Opts.get : Opts → FinishedOptions
  | .options opts => opts
  | .callback => {}

variable {ε : Type} {n : Nat}

/-! ### `finished` -/

namespace Source

/-- How often `onfinish` listens to the `req` at first. -/
def requests (stream : Source) : Nat := if stream.isRequest && stream.req then 1 else 0

/-- The listeners an event calls, where `onfinish` has been put on the `req` some times. -/
def hears (stream : Source) (opts : FinishedOptions) (requests : Nat) : Event ε → List (Handler ε)
  | .ended => [.onend]
  | .finish => [.onfinish]
  | .complete => if stream.isRequest then [.onfinish] else []
  | .reqFinish => List.replicate requests .onfinish
  | .request => []
  | .error err => if opts.error ≠ some false then [.onerror err] else []
  | .close readableEOF writableEOF => [.onclose readableEOF writableEOF]
  | .abort readableEOF writableEOF => if stream.isRequest then [.onclose readableEOF writableEOF] else []

/-- `onrequest`. -/
def onrequest (stream : Source) (requests : Nat) : Event ε → Nat
  | .request => if stream.isRequest && !stream.req then requests + 1 else requests
  | _ => requests

end Source

/-- The listeners that a run of events calls on some streams. -/
def heard (streams : Fin n → Source) (opts : Fin n → FinishedOptions) :
    (Fin n → Nat) → List (Fin n × Event ε) → List (Fin n × Handler ε)
  | _, [] => []
  | requests, (i, event) :: events =>
    ((streams i).hears (opts i) (requests i) event).map (i, ·) ++
      heard streams opts (Function.update requests i ((streams i).onrequest (requests i) event)) events

/-- The variables of a call of `finished`, with the calls of the callback. -/
structure Finished (ε : Type) where
  readable : Bool
  writable : Bool
  called : Bool
  calls : List (Option (Failure ε))

namespace Finished

/-- `once`. -/
def callback (s : Finished ε) (err : Option (Failure ε)) : Finished ε :=
  if s.called then s else { s with called := true, calls := s.calls ++ [err] }

def onend (s : Finished ε) : Finished ε :=
  let s := { s with readable := false }
  if !s.writable then s.callback none else s

def onfinish (s : Finished ε) : Finished ε :=
  let s := { s with writable := false }
  if !s.readable then s.callback none else s

def onclose (s : Finished ε) (time : Nat) (readableEOF writableEOF : Bool) : Finished ε :=
  if s.readable && !readableEOF then s.callback (some (.premature time))
  else if s.writable && !writableEOF then s.callback (some (.premature time))
  else s

def handle (s : Finished ε) (time : Nat) : Handler ε → Finished ε
  | .onend => s.onend
  | .onfinish => s.onfinish
  | .onerror err => s.callback (some (.error err))
  | .onclose readableEOF writableEOF => s.onclose time readableEOF writableEOF

def run (s : Finished ε) (time : Nat) : List (Handler ε) → Finished ε
  | [] => s
  | h :: hs => (s.handle time h).run (time + 1) hs

end Finished

/-- Whether `finished` waits for the readable half, and for the writable half. -/
def Source.waits (stream : Source) (opts : FinishedOptions) : Bool × Bool :=
  (opts.readable == some true || (opts.readable != some false && stream.readable),
    opts.writable == some true || (opts.writable != some false && stream.writable))

/-- `eos` is not defined. -/
def eos : Except Thrown (Finished ε) := throw (.reference "eos")

def finished (stream : Source) : Opts → Except Thrown (Finished ε)
  | .callback => eos
  | .options opts => return ⟨(stream.waits opts).1, (stream.waits opts).2, false, []⟩

/-- The events of one stream, as its listeners hear them. -/
def Source.heard (stream : Source) (opts : Opts) (events : List (Event ε)) : List (Fin 1 × Handler ε) :=
  Chain.heard (fun _ => stream) (fun _ => opts.get) (fun _ => stream.requests) (events.map (0, ·))

/-- The calls of the callback in a run of events. -/
def Source.calls (stream : Source) (opts : Opts) (events : List (Event ε)) : List (Option (Failure ε)) :=
  match finished stream opts with
  | .error _ => []
  | .ok s => (s.run 0 ((stream.heard opts events).map Prod.snd)).calls

/-! ### `pipeline` -/

/-- The streams of a pipeline, as `finished` has them, with the streams that were destroyed or aborted and
the calls of the callback. -/
structure Pipeline (ε : Type) (n : Nat) where
  finished : Fin n → Finished ε
  destroyed : Bool
  destroys : List (Fin n)
  calls : List (Option (Failure ε))

namespace Pipeline

/-- The loop of `destroyAll`: it returns at the first stream that it can destroy or abort. -/
def destroyLoop (streams : Fin n → Source) (error : Option (Failure ε)) (p : Pipeline ε n) :
    List (Fin n) → Pipeline ε n
  | [] => { p with calls := p.calls ++ [error] }
  | i :: is =>
    if (streams i).isRequest then { p with destroys := p.destroys ++ [i] }
    else if (streams i).destroy then { p with destroys := p.destroys ++ [i] }
    else destroyLoop streams error p is

def destroyAll (streams : Fin n → Source) (p : Pipeline ε n) (error : Option (Failure ε)) : Pipeline ε n :=
  if p.destroyed then p
  else destroyLoop streams error { p with destroyed := true } (List.finRange n)

/-- A listener is called; where it calls the callback of its `finished`, `destroyAll` runs. -/
def handle (streams : Fin n → Source) (p : Pipeline ε n) (time : Nat) (i : Fin n) (h : Handler ε) :
    Pipeline ε n :=
  let s := (p.finished i).handle time h
  let p' := { p with finished := Function.update p.finished i s }
  match s.calls.drop (p.finished i).calls.length with
  | [] => p'
  | err :: _ => p'.destroyAll streams err

def run (streams : Fin n → Source) (p : Pipeline ε n) (time : Nat) :
    List (Fin n × Handler ε) → Pipeline ε n
  | [] => p
  | (i, h) :: hs => (p.handle streams time i h).run streams (time + 1) hs

/-- The options `finished` gets for a stream. -/
def options (n : Nat) (i : Fin n) : FinishedOptions :=
  { readable := some (decide (i.val + 1 < n)), writable := some (decide (0 < i.val)) }

end Pipeline

/-- `destroyer` is not defined. -/
def destroyer : Except Thrown PUnit := throw (.reference "destroyer")

def pipeline (streams : Fin n → Source) : Except Thrown (Pipeline ε n) := do
  if n < 2 then throw .missingArgs
  (List.finRange n).forM fun _ => destroyer
  return ⟨fun i => ⟨((streams i).waits (Pipeline.options n i)).1,
    ((streams i).waits (Pipeline.options n i)).2, false, []⟩, false, [], []⟩

namespace Pipeline

/-- The events of the streams, as the listeners hear them. -/
def heard (streams : Fin n → Source) (events : List (Fin n × Event ε)) : List (Fin n × Handler ε) :=
  Chain.heard streams (options n) (fun i => (streams i).requests) events

/-- The calls of the callback in a run of events, and the streams that it destroys or aborts. -/
def outcome (streams : Fin n → Source) (events : List (Fin n × Event ε)) :
    List (Option (Failure ε)) × List (Fin n) :=
  match pipeline streams with
  | .error _ => ([], [])
  | .ok p => ((p.run streams 0 (heard streams events)).calls,
    (p.run streams 0 (heard streams events)).destroys)

end Pipeline

/-! ### What is promised -/

/-- What the callback of a chain is to get, and nothing as long as it is not to be called: no error once
no half is open that is waited for, or the first error, where the end of a stream with an open half is
one. -/
def due (halves : Fin n → Bool × Bool) (time : Nat) :
    List (Fin n × Handler ε) → Option (Option (Failure ε))
  | [] => if ∀ i, halves i = (false, false) then some none else none
  | (i, h) :: hs =>
    if ∀ i, halves i = (false, false) then some none
    else
      match h with
      | .onend => due (Function.update halves i (false, (halves i).2)) (time + 1) hs
      | .onfinish => due (Function.update halves i ((halves i).1, false)) (time + 1) hs
      | .onerror err => some (some (.error err))
      | .onclose _ _ =>
        if halves i = (false, false) then due halves (time + 1) hs else some (some (.premature time))

/-- What the callback of `finished` is to get. -/
def Source.due (stream : Source) (opts : Opts) (events : List (Event ε)) : Option (Option (Failure ε)) :=
  Chain.due (fun _ => stream.waits opts.get) 0 (stream.heard opts events)

/-- What the callback of `pipeline` is to get. -/
def Pipeline.due (streams : Fin n → Source) (events : List (Fin n × Event ε)) :
    Option (Option (Failure ε)) :=
  Chain.due (fun i => (streams i).waits (options n i)) 0 (heard streams events)

/-- The callback of `finished` is called as it should be. -/
def Source.Meets (stream : Source) (opts : Opts) (events : List (Event ε)) : Prop :=
  stream.calls opts events = (stream.due opts events).toList

/-- The callback of `pipeline` is called as it should be, and an error destroys all streams. -/
def Pipeline.Meets (streams : Fin n → Source) (events : List (Fin n × Event ε)) : Prop :=
  (outcome streams events).1 = (due streams events).toList ∧
    ∀ err, due streams events = some (some err) → ∀ i, i ∈ (outcome streams events).2

/-- The first `close` that comes before the end and before an error finds an open half whose end has not
been seen. -/
def Clear (readable writable : Bool) : List (Handler ε) → Prop
  | [] => True
  | .onend :: hs => writable = true → Clear false writable hs
  | .onfinish :: hs => readable = true → Clear readable false hs
  | .onerror _ :: _ => True
  | .onclose readableEOF writableEOF :: _ =>
    (readable = true ∧ readableEOF = false) ∨ (writable = true ∧ writableEOF = false)

/-- The end of a half comes, and before an error. -/
def Reports : List (Handler ε) → Prop
  | [] => False
  | .onend :: _ => True
  | .onfinish :: _ => True
  | .onerror _ :: _ => False
  | .onclose _ _ :: hs => Reports hs

/-- The condition on a run of `finished`. -/
def Source.Keeps (stream : Source) (opts : Opts) (events : List (Event ε)) : Prop :=
  match opts with
  | .callback => stream.due .callback events = none
  | .options o =>
    if stream.waits o = (false, false) then Reports ((stream.heard opts events).map Prod.snd)
    else Clear (stream.waits o).1 (stream.waits o).2 ((stream.heard opts events).map Prod.snd)

/-! ### One call of `finished` -/

namespace Finished

variable {s : Finished ε}

lemma callback_calls (h : s.called = false) (err : Option (Failure ε)) :
    (s.callback err).calls = s.calls ++ [err] := by
  rw [callback, h]
  rfl

lemma callback_called (s : Finished ε) (err : Option (Failure ε)) : (s.callback err).called = true := by
  rw [callback]
  split
  case isTrue h => exact h
  case isFalse => rfl

/-- Once the callback has been called, no listener calls it again. -/
lemma handle_called (h : s.called = true) (time : Nat) (handler : Handler ε) :
    (s.handle time handler).calls = s.calls ∧ (s.handle time handler).called = true := by
  cases handler with
  | onend => simp only [handle, onend, callback, h, if_true, ite_self, and_self]
  | onfinish => simp only [handle, onfinish, callback, h, if_true, ite_self, and_self]
  | onerror err => simp only [handle, callback, h, if_true, and_self]
  | onclose readableEOF writableEOF =>
    simp only [handle, onclose, callback, h, if_true, ite_self, and_self]

lemma run_called (h : s.called = true) (time : Nat) (hs : List (Handler ε)) :
    (s.run time hs).calls = s.calls := by
  induction hs generalizing s time with
  | nil => rfl
  | cons handler hs ih =>
    obtain ⟨hcalls, hcalled⟩ := handle_called h time handler
    rw [run, ih hcalled, hcalls]

/-- The first call is the only one. -/
lemma run_callback (h : s.called = false) (hcalls : s.calls = []) (err : Option (Failure ε))
    (time : Nat) (hs : List (Handler ε)) : ((s.callback err).run time hs).calls = [err] := by
  rw [run_called (callback_called s err), callback_calls h, hcalls, List.nil_append]

/-- An error that is made is made now. -/
lemma handle_premature {time k : Nat} {handler : Handler ε}
    (h : some (.premature k) ∈ (s.handle time handler).calls) : some (.premature k) ∈ s.calls ∨ time = k := by
  have hcallback : ∀ (t : Finished ε) (err : Option (Failure ε)), some (.premature k) ∈ (t.callback err).calls →
      some (.premature k) ∈ t.calls ∨ some (.premature k) = err := by
    intro t err hmem
    rw [callback] at hmem
    split at hmem
    · exact .inl hmem
    · rcases List.mem_append.mp hmem with hmem | hmem
      · exact .inl hmem
      · exact .inr (List.mem_singleton.mp hmem)
  cases handler with
  | onend =>
    simp only [handle, onend] at h
    split at h
    · exact (hcallback _ _ h).imp_right nofun
    · exact .inl h
  | onfinish =>
    simp only [handle, onfinish] at h
    split at h
    · exact (hcallback _ _ h).imp_right nofun
    · exact .inl h
  | onerror err => exact (hcallback _ _ h).imp_right nofun
  | onclose readableEOF writableEOF =>
    have hmade : some (.premature k) = some (Failure.premature (ε := ε) time) → time = k := by
      intro heq
      injection heq with heq
      injection heq with heq
      exact heq.symm
    simp only [handle, onclose] at h
    split at h
    · exact (hcallback _ _ h).imp_right hmade
    · split at h
      · exact (hcallback _ _ h).imp_right hmade
      · exact .inl h

lemma run_premature {time k : Nat} {hs : List (Handler ε)}
    (h : some (.premature k) ∈ (s.run time hs).calls) : some (.premature k) ∈ s.calls ∨ time ≤ k := by
  induction hs generalizing s time with
  | nil => exact .inl h
  | cons handler hs ih =>
    rcases ih h with h | h
    · exact (handle_premature h).imp_right le_of_eq
    · exact .inr (Nat.le_of_succ_le h)

end Finished

/-! ### The listeners of one stream -/

lemma due_closed {halves : Fin n → Bool × Bool} (h : ∀ i, halves i = (false, false)) (time : Nat)
    (hs : List (Fin n × Handler ε)) : due halves time hs = some none := by
  cases hs with
  | nil => exact if_pos h
  | cons handler hs => exact if_pos h

/-- There is one stream only. -/
lemma update_half (a b : Bool × Bool) (i : Fin 1) : Function.update (fun _ => a) i b = fun _ => b := by
  funext j
  rw [Subsingleton.elim j i, Function.update_self]

namespace Finished

variable {s : Finished ε}

/-- As long as a half is open, the listeners do what they should exactly under the condition. -/
lemma run_clear (h : s.called = false) (hcalls : s.calls = [])
    (hopen : (s.readable, s.writable) ≠ (false, false)) (time : Nat) (hs : List (Fin 1 × Handler ε)) :
    (s.run time (hs.map Prod.snd)).calls =
        (due (fun _ => (s.readable, s.writable)) time hs).toList ↔
      Clear s.readable s.writable (hs.map Prod.snd) := by
  have hnot : ¬∀ i : Fin 1, (fun _ => (s.readable, s.writable)) i = (false, false) := fun hall => hopen (hall 0)
  induction hs generalizing s time with
  | nil =>
    rw [due, if_neg hnot]
    exact iff_of_true hcalls trivial
  | cons first hs ih =>
    obtain ⟨i, handler⟩ := first
    rw [due.eq_def, List.map_cons, run]
    simp only [if_neg hnot]
    cases handler with
    | onend =>
      simp only [update_half, handle, onend, Clear]
      cases hw : s.writable with
      | false =>
        simp only [Bool.not_false, if_true, due_closed (fun _ => rfl)]
        rw [run_callback]
        · exact iff_of_true rfl nofun
        · exact h
        · exact hcalls
      | true =>
        simp only [Bool.not_true, Bool.false_eq_true, if_false, forall_const]
        have := ih (s := { s with readable := false }) h hcalls (by simp [hw]) (time + 1)
          (by simp [hw])
        simpa only [hw] using this
    | onfinish =>
      simp only [update_half, handle, onfinish, Clear]
      cases hr : s.readable with
      | false =>
        simp only [Bool.not_false, if_true, due_closed (fun _ => rfl)]
        rw [run_callback]
        · exact iff_of_true rfl nofun
        · exact h
        · exact hcalls
      | true =>
        simp only [Bool.not_true, Bool.false_eq_true, if_false, forall_const]
        have := ih (s := { s with writable := false }) h hcalls (by simp [hr]) (time + 1)
          (by simp [hr])
        simpa only [hr] using this
    | onerror err =>
      simp only [handle]
      rw [run_callback h hcalls]
      exact iff_of_true rfl trivial
    | onclose readableEOF writableEOF =>
      simp only [if_neg hopen, handle, onclose, Clear, Bool.and_eq_true, Bool.not_eq_true']
      split
      case isTrue hreadable =>
        rw [run_callback h hcalls]
        exact iff_of_true rfl (.inl hreadable)
      case isFalse hreadable =>
        split
        case isTrue hwritable =>
          rw [run_callback h hcalls]
          exact iff_of_true rfl (.inr hwritable)
        case isFalse hwritable =>
          -- a later `close` makes an error of its own
          apply iff_of_false
          · intro heq
            have hmem : some (.premature time) ∈ (s.run (time + 1) (hs.map Prod.snd)).calls := by
              rw [heq]
              exact List.mem_singleton_self _
            rcases run_premature hmem with hmem | hle
            · rw [hcalls] at hmem
              cases hmem
            · exact absurd hle (Nat.not_succ_le_self time)
          · rintro (hr | hw)
            · exact hreadable hr
            · exact hwritable hw

/-- With no half open the callback is called for the end of a half. -/
lemma run_reports (h : s.called = false) (hcalls : s.calls = []) (hr : s.readable = false)
    (hw : s.writable = false) (time : Nat) (hs : List (Handler ε)) :
    (s.run time hs).calls = [none] ↔ Reports hs := by
  induction hs generalizing time with
  | nil =>
    apply iff_of_false
    · intro heq
      rw [run, hcalls] at heq
      cases heq
    · exact id
  | cons handler hs ih =>
    rw [run]
    cases handler with
    | onend =>
      simp only [handle, onend, hw, Bool.not_false, if_true]
      rw [run_callback]
      · exact iff_of_true rfl trivial
      · exact h
      · exact hcalls
    | onfinish =>
      simp only [handle, onfinish, hr, Bool.not_false, if_true]
      rw [run_callback]
      · exact iff_of_true rfl trivial
      · exact h
      · exact hcalls
    | onerror err =>
      simp only [handle]
      rw [run_callback h hcalls]
      exact iff_of_false nofun id
    | onclose readableEOF writableEOF =>
      simp only [handle, onclose, hr, hw, Bool.false_and, Bool.false_eq_true, if_false]
      exact ih (time + 1)

end Finished

/-! ### The two functions -/

/-- The callback of `finished` is called as it should be exactly under the condition. -/
lemma Source.meets_iff (stream : Source) (opts : Opts) (events : List (Event ε)) :
    stream.Meets opts events ↔ stream.Keeps opts events := by
  rw [Source.Meets, Source.calls, Source.Keeps.eq_def]
  cases opts with
  | callback =>
    rw [finished, eos]
    exact eq_comm.trans Option.toList_eq_nil_iff
  | options o =>
    have hok : finished (ε := ε) stream (.options o) =
        .ok ⟨(stream.waits o).1, (stream.waits o).2, false, []⟩ := rfl
    rw [hok, Source.due]
    dsimp only [Opts.get]
    split
    case isTrue hclosed =>
      rw [hclosed, due_closed (fun _ => rfl)]
      exact Finished.run_reports rfl rfl rfl rfl 0 _
    case isFalse hopen => exact Finished.run_clear rfl rfl hopen 0 _

/-- `pipeline` never gets to the end of its streams. -/
lemma pipeline_eq (streams : Fin (n + 2) → Source) :
    pipeline (ε := ε) streams = .error (.reference "destroyer") := by
  have htest : ¬n + 2 < 2 := by omega
  rw [pipeline, if_neg htest, List.finRange_succ]
  rfl

/-- The callback of `pipeline` is called as it should be only as long as it is not to be called. -/
lemma Pipeline.meets_iff (streams : Fin (n + 2) → Source) (events : List (Fin (n + 2) × Event ε)) :
    Meets streams events ↔ due streams events = none := by
  have houtcome : outcome streams events = ([], []) := by
    rw [outcome, pipeline_eq]
  rw [Meets, houtcome]
  cases due streams events with
  | none => simp
  | some err => simp

end LowJs.Chain
