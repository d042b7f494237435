import LowJs.Core.Machine

/-!
# Files

A `LowFile` between the main thread and the data threads, with the functions of `low_fs.cpp` that wait for
it. The main thread and a data thread share `mPhase`, `mDataDone` and the two queues; every access is a step
of its own. The data threads run one `OnData` of a callback at a time. Operations are numbered in the order
in which they are accepted.
-/

namespace LowJs.FS

/-- `mPhase`. -/
inductive Phase
  | opening
  | ready
  | reading
  | writing
  | fstat
  | closing
  deriving DecidableEq, Repr

/-- Where a data thread is with the file: not there, with `mInDataThread` before the work of `OnData`,
between `mDataDone = true` and `low_loop_set_callback`, and behind it. -/
inductive InData
  | out
  | taken
  | done
  | leaving
  deriving DecidableEq, Repr

/-- The functions that wait in the main thread. -/
inductive Sync
  | openSync
  | closeSync
  | waitDone
  deriving DecidableEq, Repr

/-- Where such a function is: before `low_loop_clear_callback`, before `FinishPhase`, and in
`low_loop_wait`. -/
inductive Stage
  | clear
  | finish
  | wait
  deriving DecidableEq, Repr

/-- A call of the main thread that has not returned: the loop has taken the file from its queue; `OnLoop` or
one of the functions that wait runs a callback of the user, `closing` being `potentiallyClose`; the function
waits; and the destructor waits for the data thread. -/
inductive Frame
  | loopTaken
  | loopCall (closing : Bool)
  | sync (function : Sync) (stage : Stage)
  | syncCall (function : Sync)
  | destructor
  deriving DecidableEq, Repr

/-- A file; `mCallID` says whether there is a callback, `mError` whether there is an error, `advertised`
whether the file is in `fds`. The rest is history: the number of operations accepted, those whose work was
done, those that have been reported, by a callback, an exception or the return of a function that waits,
and how often the file has been deleted. -/
structure LowFile where
  mPhase : Phase
  mDataDone : Bool
  mClose : Bool
  mCallID : Bool
  mError : Bool
  advertised : Bool
  dataQueued : Bool
  inData : InData
  loopQueued : Bool
  control : List Frame
  accepted : Nat
  executed : List Nat
  reported : List Nat
  deleted : Nat

/-- What the constructor leaves, for `low_fs_open` and for `low_fs_open_sync`. -/
def create (callback sync : Bool) : LowFile where
  mPhase := .opening
  mDataDone := false
  mClose := false
  mCallID := callback && !sync
  mError := false
  advertised := false
  dataQueued := true
  inData := .out
  loopQueued := false
  control := if sync then [.sync .openSync .clear] else []
  accepted := 1
  executed := []
  reported := []
  deleted := 0

/-- What can happen: calls of the user's code, the return of its innermost callback or its exception, the
steps of the main thread and those of a data thread, whose work may fail. -/
inductive Input
  | start (phase : Phase) (callback : Bool)
  | close (callback : Bool)
  | closeSync
  | waitDone
  | callReturn (threw : Bool)
  | loopTake
  | main
  | dataTake
  | dataExecute (error : Bool)
  | dataLoop
  | dataLeave
  deriving DecidableEq

namespace LowFile

/-- User code runs: in a callback, or called by the main loop. -/
def userRuns (s : LowFile) : Bool :=
  match s.control with
  | [] | .loopCall _ :: _ | .syncCall _ :: _ => true
  | _ => false

/-- The operation is put into the queue of the data threads. -/
def begin_ (s : LowFile) (phase : Phase) (callback : Bool) : LowFile :=
  { s with
    mPhase := phase
    mDataDone := false
    mCallID := callback
    dataQueued := true
    accepted := s.accepted + 1 }

/-- `Read`, `Write` and `FStat`; a file that is closed or busy refuses. -/
def start (s : LowFile) (phase : Phase) (callback : Bool) : LowFile :=
  if s.mClose || s.mPhase != .ready then s else s.begin_ phase callback

/-- `Close`. -/
def close (s : LowFile) (callback : Bool) : LowFile :=
  if s.mClose || s.mPhase != .ready then s
  else { s with advertised := false }.begin_ .closing callback

/-- What comes out of `FinishPhase`: `false`, `true`, a callback of the user first, or an exception. -/
inductive Finish
  | notDone
  | finished
  | calls
  | throws
  deriving DecidableEq

/-- `FinishPhase`. -/
def finishPhase (s : LowFile) : Finish × LowFile :=
  if s.mPhase = .ready then (.finished, s)
  else if s.mDataDone = false then (.notDone, s)
  else
    let t := { s with
      mPhase := .ready
      advertised := s.advertised || (s.mPhase == .opening && !s.mError)
      mClose := s.mClose || (s.mPhase == .opening && s.mError) || s.mPhase == .closing
      mCallID := false
      reported := s.reported ++ [s.accepted - 1] }
    (if s.mCallID then .calls else if s.mError then .throws else .finished, t)

/-- `delete`; the destructor takes the file from the data queue and waits for the data thread. -/
def delete (s : LowFile) (frames : List Frame) : LowFile :=
  { s with control := .destructor :: frames, dataQueued := false }

/-- `OnLoop`, up to the callback. -/
def onLoop (s : LowFile) (frames : List Frame) : LowFile :=
  if s.mClose then s.delete frames
  else
    match s.finishPhase with
    | (.notDone, t) | (.throws, t) => { t with control := frames }
    | (.finished, t) => if s.mPhase = .closing then t.delete frames else { t with control := frames }
    | (.calls, t) => { t with control := .loopCall (s.mPhase == .closing) :: frames }

/-- What a function that waits does when `FinishPhase` has returned `true`. -/
def syncDone (s : LowFile) (function : Sync) (frames : List Frame) : LowFile :=
  if function = .closeSync then s.delete frames else { s with control := frames }

/-- `FinishPhase` in a function that waits. -/
def syncFinish (s : LowFile) (function : Sync) (frames : List Frame) : LowFile :=
  match s.finishPhase with
  | (.notDone, t) => { t with control := .sync function .wait :: frames }
  | (.throws, t) => { t with control := frames }
  | (.finished, t) => t.syncDone function frames
  | (.calls, t) => { t with control := .syncCall function :: frames }

/-- The next step of the main thread in the function it is in. -/
def main (s : LowFile) : LowFile :=
  match s.control with
  | .loopTaken :: frames => s.onLoop frames
  | .sync function .clear :: frames =>
    { s with loopQueued := false, control := .sync function .finish :: frames }
  | .sync function .finish :: frames => s.syncFinish function frames
  | .sync function .wait :: frames =>
    if s.loopQueued then { s with control := .sync function .clear :: frames } else s
  | .destructor :: frames =>
    if s.inData = .out then { s with control := frames, loopQueued := false, deleted := s.deleted + 1 }
    else s
  | _ => s

/-- The innermost callback returns or throws; an exception leaves `OnLoop`, or the function that waits, as
well. -/
def callReturn (s : LowFile) (threw : Bool) : LowFile :=
  match s.control with
  | .loopCall closing :: frames =>
    if closing && !threw then s.delete frames else { s with control := frames }
  | .syncCall function :: frames =>
    if threw then { s with control := frames } else s.syncDone function frames
  | _ => s

/-- The work of `OnData`. -/
def execute (s : LowFile) (error : Bool) : LowFile :=
  { s with
    mError := error
    mDataDone := true
    inData := .done
    executed := s.executed ++ [s.accepted - 1] }

/-- The inputs that can happen; the functions of the user find the file in `fds` only. -/
def enabled (s : LowFile) : Input → Bool
  | .start phase _ => s.userRuns && s.advertised && (phase == .reading || phase == .writing || phase == .fstat)
  | .close _ | .closeSync | .waitDone => s.userRuns && s.advertised
  | .callReturn _ => s.userRuns
  | .loopTake => s.control.isEmpty && s.loopQueued
  | .main => !s.userRuns
  | .dataTake => s.dataQueued && s.inData == .out
  | .dataExecute _ => s.inData == .taken
  | .dataLoop => s.inData == .done
  | .dataLeave => s.inData == .leaving

def perform (s : LowFile) : Input → LowFile
  | .start phase callback => s.start phase callback
  | .close callback => s.close callback
  | .closeSync => { s.close false with control := .sync .closeSync .clear :: s.control }
  | .waitDone => { s with control := .sync .waitDone .clear :: s.control }
  | .callReturn threw => s.callReturn threw
  | .loopTake => { s with control := [.loopTaken], loopQueued := false }
  | .main => s.main
  | .dataTake => { s with dataQueued := false, inData := .taken }
  | .dataExecute error => s.execute error
  | .dataLoop => { s with inData := .leaving, loopQueued := true }
  | .dataLeave => { s with inData := .out }

def step (s : LowFile) (i : Input) : LowFile := if s.enabled i then s.perform i else s

end LowFile

def machine : Machine LowFile Input := ⟨LowFile.step⟩

end LowJs.FS
