import LowJs.FS.File

/-!
# The protocol of a file

One operation at a time is executed and reported, a function that waits is woken, and the file is deleted
once, after its close, as long as opening succeeds, `closeSync` meets no unfinished operation, a close
without a callback succeeds and the callback of a close does not throw.
-/

namespace LowJs.FS

namespace LowFile

variable {s : LowFile} {frames : List Frame}

/-- The main thread is about to look at `mDataDone`. -/
def looks (s : LowFile) : Bool :=
  match s.control with
  | .loopTaken :: _ | .sync _ .finish :: _ => true
  | _ => false

/-- What a file promises: the operations are executed and reported in order, each once, and none is accepted
before the one before it has been reported; an operation that is not done is still to be executed, one that
is done will be noticed by the main thread, and a function that waits finds the file in the loop queue then,
once the data thread has nothing left to do for it; and the file is deleted once, when it is closed and no
data thread is in its `OnData`. -/
structure Sound (s : LowFile) : Prop where
  executed : s.executed = List.range s.executed.length
  reported : s.reported = List.range s.reported.length
  inOrder : s.reported.length ≤ s.executed.length ∧ s.executed.length ≤ s.accepted ∧
    s.accepted ≤ s.reported.length + 1
  complete : s.mPhase = .ready → s.reported.length = s.accepted
  pending : s.mPhase ≠ .ready → s.mDataDone = false → s.dataQueued = true ∨ s.inData = .taken
  noticed : s.mPhase ≠ .ready → s.mDataDone = true →
    s.loopQueued = true ∨ s.inData = .done ∨ s.looks = true
  woken : ∀ function frames, s.control = .sync function .wait :: frames → s.mPhase ≠ .ready →
    s.mDataDone = true → s.inData ≠ .done → s.loopQueued = true
  once : s.deleted ≤ 1
  deleted : s.deleted = 1 → s.mClose = true ∧ s.mPhase = .ready ∧ s.inData = .out ∧ s.dataQueued = false ∧
    s.loopQueued = false
  closed : s.control = [] → s.mClose = true → s.deleted = 1

/-- The condition: `open` succeeds, and so does a `close` without a callback; `closeSync` is not called while
an operation is unfinished; and the callback of a close does not throw. -/
def Safe (s : LowFile) : Input → Prop
  | .dataExecute error => error = true → s.mPhase ≠ .opening ∧ (s.mPhase = .closing → s.mCallID = true)
  | .closeSync => s.mPhase = .ready
  | .callReturn threw => threw = true → s.control.head? ≠ some (.loopCall true)
  | _ => True

instance (s : LowFile) : ∀ i, Decidable (s.Safe i)
  | .dataExecute _ | .callReturn _ => inferInstanceAs (Decidable (_ → _))
  | .closeSync => inferInstanceAs (Decidable (_ = _))
  | .start .. | .close _ | .waitDone | .loopTake | .main | .dataTake | .dataLoop | .dataLeave =>
    isTrue trivial

/-- The main thread runs user code that an ordinary callback has called. -/
def Frame.isCall : Frame → Bool
  | .loopCall false | .syncCall .waitDone => true
  | _ => false

/-- The operations, by the phase and `mDataDone`. -/
structure Data (s : LowFile) : Prop where
  ready : s.mPhase = .ready → s.executed = List.range s.accepted ∧ s.reported = List.range s.accepted ∧
    s.dataQueued = false ∧ s.inData ≠ .taken
  busy : s.mPhase ≠ .ready → s.mDataDone = false → s.executed = List.range (s.accepted - 1) ∧
    s.reported = List.range (s.accepted - 1) ∧ 1 ≤ s.accepted ∧ (s.dataQueued = true ↔ s.inData ≠ .taken)
  done : s.mPhase ≠ .ready → s.mDataDone = true → s.executed = List.range s.accepted ∧
    s.reported = List.range (s.accepted - 1) ∧ 1 ≤ s.accepted ∧ s.dataQueued = false ∧ s.inData ≠ .taken ∧
    (s.loopQueued = true ∨ s.inData = .done ∨ s.looks = true) ∧
    (s.mError = true → s.mPhase ≠ .opening ∧ (s.mPhase = .closing → s.mCallID = true))

/-- The file is open or gone. -/
def Calm (s : LowFile) : Prop :=
  s.mClose = false ∧ s.deleted = 0 ∨
    s.mClose = true ∧ s.deleted = 1 ∧ s.mPhase = .ready ∧ s.inData = .out ∧ s.loopQueued = false

/-- The file is closed and will be deleted. -/
def Closed (s : LowFile) : Prop := s.mClose = true ∧ s.deleted = 0 ∧ s.mPhase = .ready

/-- What the calls of the main thread say about the file. -/
def Shape (s : LowFile) : Prop :=
  match s.control with
  | [] => s.Calm
  | .loopTaken :: frames => frames = [] ∧ s.mClose = false ∧ s.deleted = 0
  | .loopCall false :: frames | .syncCall .waitDone :: frames => frames.all Frame.isCall = true ∧ s.Calm
  | .loopCall true :: frames => frames = [] ∧ s.Closed
  | .destructor :: frames => frames.all Frame.isCall = true ∧ s.Closed
  | .sync .openSync _ :: frames => frames = [] ∧ s.mClose = false ∧ s.deleted = 0 ∧ s.mPhase = .opening ∧
    s.mCallID = false
  | .sync .closeSync _ :: frames => frames.all Frame.isCall = true ∧ s.mClose = false ∧ s.deleted = 0 ∧
    s.mPhase = .closing ∧ s.mCallID = false
  | .sync .waitDone _ :: frames => frames.all Frame.isCall = true ∧ s.mClose = false ∧ s.deleted = 0 ∧
    s.mPhase ≠ .opening ∧ s.mPhase ≠ .closing
  | .syncCall _ :: _ => False

/-- What carries `Sound`. -/
structure Inv (s : LowFile) : Prop where
  data : s.Data
  shape : s.Shape
  advertised : s.advertised = true → s.mClose = false ∧ s.mPhase ≠ .opening ∧ s.mPhase ≠ .closing

lemma inv_create (callback sync : Bool) : (create callback sync).Inv := by
  refine ⟨⟨?_, ?_, ?_⟩, ?_, ?_⟩ <;> cases sync <;> simp [create, Shape, Calm]

lemma Inv.sound (h : s.Inv) : s.Sound := by
  have hcases : (s.executed = List.range s.executed.length ∧ s.reported = List.range s.reported.length ∧
      s.reported.length ≤ s.executed.length ∧ s.executed.length ≤ s.accepted ∧
      s.accepted ≤ s.reported.length + 1) ∧ (s.mPhase = .ready → s.reported.length = s.accepted) := by
    by_cases hready : s.mPhase = .ready
    · obtain ⟨hex, hrep, -⟩ := h.data.ready hready
      simp [hex, hrep]
    · cases hd : s.mDataDone with
      | false =>
        obtain ⟨hex, hrep, hpos, -⟩ := h.data.busy hready hd
        simp [hex, hrep, hready]
        omega
      | true =>
        obtain ⟨hex, hrep, hpos, -⟩ := h.data.done hready hd
        simp [hex, hrep, hready]
        omega
  have hshape := h.shape
  have hgone : s.deleted ≤ 1 ∧ (s.deleted = 1 → s.Calm) := by
    unfold Shape at hshape
    split at hshape <;> simp_all [Calm, Closed] <;> grind
  refine ⟨hcases.1.1, hcases.1.2.1, hcases.1.2.2, hcases.2, fun hready hbusy => ?_,
    fun hready hdone => (h.data.done hready hdone).2.2.2.2.2.1, fun f frames hctl hready hdone hin => ?_,
    hgone.1, fun hdel => ?_, fun hctl hclose => ?_⟩
  · obtain ⟨-, -, -, hqueued⟩ := h.data.busy hready hbusy
    by_cases htaken : s.inData = .taken
    · exact .inr htaken
    · exact .inl (hqueued.2 htaken)
  · obtain ⟨-, -, -, -, -, hwake, -⟩ := h.data.done hready hdone
    simpa [hin, looks, hctl] using hwake
  · rcases hgone.2 hdel with ⟨-, hzero⟩ | ⟨hclose, -, hready, hout, hloop⟩
    · simp [hzero] at hdel
    · exact ⟨hclose, hready, hout, (h.data.ready hready).2.2.1, hloop⟩
  · simp only [Shape, hctl, Calm, hclose] at hshape
    simpa using hshape.resolve_left (by simp) |>.2.1

/-! ### The steps -/

lemma shape_calls (hcalls : s.control.all Frame.isCall = true) (h : s.Calm) : s.Shape := by
  rw [Shape]
  cases hctl : s.control with
  | nil => exact h
  | cons f frames =>
    rw [hctl, List.all_cons, Bool.and_eq_true] at hcalls
    cases f with
    | loopCall closing =>
      cases closing with
      | false => exact ⟨hcalls.2, h⟩
      | true => simp [Frame.isCall] at hcalls
    | syncCall f => cases f <;> simp_all [Frame.isCall]
    | _ => simp [Frame.isCall] at hcalls

/-- User code that finds the file has been called by the loop or by ordinary callbacks. -/
lemma Inv.user (h : s.Inv) (huser : s.userRuns = true) (hadv : s.advertised = true) :
    s.control.all Frame.isCall = true ∧ s.mClose = false ∧ s.deleted = 0 := by
  have hopen := (h.advertised hadv).1
  have hshape := h.shape
  unfold Shape at hshape
  unfold userRuns at huser
  split at hshape <;> simp_all [Calm, Closed, Frame.isCall]

/-- The calls change, while the main thread is not about to look at `mDataDone`. -/
lemma Data.calls (h : s.Data) (hlooks : s.looks = false) (frames : List Frame) :
    Data { s with control := frames } :=
  ⟨h.ready, h.busy, fun hr hd => by
    obtain ⟨h₁, h₂, h₃, h₄, h₅, h₆, h₇⟩ := h.done hr hd
    exact ⟨h₁, h₂, h₃, h₄, h₅, by simpa [hlooks, or_assoc] using h₆.imp_right Or.inl, h₇⟩⟩

lemma Data.begin_ (h : s.Data) (hready : s.mPhase = .ready) {phase : Phase} (hphase : phase ≠ .ready)
    (callback : Bool) : (s.begin_ phase callback).Data := by
  obtain ⟨hex, hrep, -, htaken⟩ := h.ready hready
  exact ⟨fun hr => absurd hr hphase, fun _ _ => ⟨hex, hrep, Nat.succ_pos _, by simpa [LowFile.begin_] using htaken⟩,
    fun _ hd => by simp [LowFile.begin_] at hd⟩

lemma userRuns_looks (h : s.userRuns = true) : s.looks = false := by
  unfold userRuns at h
  rw [looks]
  split at h <;> simp_all

lemma Inv.start (h : s.Inv) (huser : s.userRuns = true) (hadv : s.advertised = true) {phase : Phase}
    (hphase : phase ≠ .ready ∧ phase ≠ .opening ∧ phase ≠ .closing) (callback : Bool) :
    (s.start phase callback).Inv := by
  rw [LowFile.start]
  split
  · exact h
  · next hfree =>
    obtain ⟨hcalls, hopen, hdel⟩ := h.user huser hadv
    have hready : s.mPhase = .ready := by simpa [hopen] using hfree
    exact ⟨h.data.begin_ hready hphase.1 callback, shape_calls hcalls (.inl ⟨hopen, hdel⟩),
      fun _ => ⟨hopen, hphase.2⟩⟩

lemma Inv.close (h : s.Inv) (huser : s.userRuns = true) (hadv : s.advertised = true) (callback : Bool) :
    (s.close callback).Inv := by
  rw [LowFile.close]
  split
  · exact h
  · next hfree =>
    obtain ⟨hcalls, hopen, hdel⟩ := h.user huser hadv
    have hready : s.mPhase = .ready := by simpa [hopen] using hfree
    have hdata : Data { s with advertised := false } := ⟨h.data.ready, h.data.busy, h.data.done⟩
    exact ⟨hdata.begin_ hready (by simp) callback, shape_calls hcalls (.inl ⟨hopen, hdel⟩),
      fun hadv => by simp [LowFile.begin_] at hadv⟩

lemma Inv.closeSync (h : s.Inv) (huser : s.userRuns = true) (hadv : s.advertised = true)
    (hready : s.mPhase = .ready) :
    Inv { s.close false with control := .sync .closeSync .clear :: s.control } := by
  obtain ⟨hcalls, hopen, hdel⟩ := h.user huser hadv
  have hclose := h.close huser hadv false
  have hlooks : (s.close false).looks = false := by
    rw [LowFile.close]
    split
    · exact userRuns_looks huser
    · exact userRuns_looks huser
  refine ⟨hclose.data.calls hlooks _, ?_, hclose.advertised⟩
  rw [LowFile.close]
  simp [hopen, hready, LowFile.begin_, Shape, hdel, hcalls]

lemma Inv.waitDone (h : s.Inv) (huser : s.userRuns = true) (hadv : s.advertised = true) :
    Inv { s with control := .sync .waitDone .clear :: s.control } := by
  obtain ⟨hcalls, hopen, hdel⟩ := h.user huser hadv
  exact ⟨h.data.calls (userRuns_looks huser) _, ⟨hcalls, hopen, hdel, (h.advertised hadv).2⟩, h.advertised⟩

lemma Closed.delete (h : s.Closed) (hdata : s.Data)
    (hadv : s.advertised = true → s.mClose = false ∧ s.mPhase ≠ .opening ∧ s.mPhase ≠ .closing)
    (hcalls : frames.all Frame.isCall = true) : (s.delete frames).Inv := by
  obtain ⟨hex, hrep, -, htaken⟩ := hdata.ready h.2.2
  exact ⟨⟨fun _ => ⟨hex, hrep, rfl, htaken⟩, fun hr => absurd h.2.2 hr, fun hr => absurd h.2.2 hr⟩,
    ⟨hcalls, h⟩, hadv⟩

lemma Inv.callReturn (h : s.Inv) {threw : Bool} (hok : s.Safe (.callReturn threw)) :
    (s.callReturn threw).Inv := by
  rw [LowFile.callReturn]
  have hshape := h.shape
  split
  · next closing frames hctl =>
    have hlooks : s.looks = false := by simp [looks, hctl]
    cases closing with
    | true =>
      simp only [Shape, hctl] at hshape
      have hthrew : threw = false := by
        refine Bool.eq_false_iff.mpr fun hthrew => ?_
        apply hok hthrew
        rw [hctl]
        rfl
      simp only [hthrew, Bool.not_false, Bool.and_self, if_true]
      exact hshape.2.delete h.data h.advertised (by simp [hshape.1])
    | false =>
      simp only [Shape, hctl] at hshape
      simp only [Bool.false_and, Bool.false_eq_true, if_false]
      exact ⟨h.data.calls hlooks frames, shape_calls hshape.1 hshape.2, h.advertised⟩
  · next f frames hctl =>
    have hlooks : s.looks = false := by simp [looks, hctl]
    cases f with
    | waitDone =>
      simp only [Shape, hctl] at hshape
      have hpop : Inv { s with control := frames } :=
        ⟨h.data.calls hlooks frames, shape_calls hshape.1 hshape.2, h.advertised⟩
      split
      · exact hpop
      · exact hpop
    | _ => simp [Shape, hctl] at hshape
  · exact h

/-- The calls change, while no operation is done. -/
lemma Data.idle (h : s.Data) (hidle : s.mPhase = .ready ∨ s.mDataDone = false) (frames : List Frame) :
    Data { s with control := frames } :=
  ⟨h.ready, h.busy, fun hr hd => by
    rcases hidle with hidle | hidle
    · exact absurd hidle hr
    · exact absurd hd (by simp [hidle])⟩

lemma finishPhase_idle (hready : s.mPhase = .ready) : s.finishPhase = (.finished, s) := if_pos hready

lemma finishPhase_busy (hready : s.mPhase ≠ .ready) (hbusy : s.mDataDone = false) :
    s.finishPhase = (.notDone, s) := by
  simp [finishPhase, hready, hbusy]

/-- The operation that is accepted last is added. -/
lemma range_accepted {n : Nat} (hpos : 1 ≤ n) : List.range (n - 1) ++ [n - 1] = List.range n := by
  rw [← List.range_succ, Nat.succ_eq_add_one, Nat.sub_add_cancel hpos]

/-- What `FinishPhase` does with an operation that is done. -/
lemma Inv.finishPhase (h : s.Inv) (hready : s.mPhase ≠ .ready) (hdone : s.mDataDone = true)
    (hopen : s.mClose = false) :
    ∃ t, s.finishPhase = (if s.mCallID then .calls else if s.mError then .throws else .finished, t) ∧
      (∀ frames, Data { t with control := frames }) ∧ t.mPhase = .ready ∧ t.deleted = s.deleted ∧
      t.mClose = decide (s.mPhase = .closing) ∧
      (t.advertised = true → t.mClose = false ∧ t.mPhase ≠ .opening ∧ t.mPhase ≠ .closing) := by
  obtain ⟨hex, hrep, hpos, hqueued, htaken, -, herror⟩ := h.data.done hready hdone
  let t : LowFile := { s with
    mPhase := .ready
    advertised := s.advertised || (s.mPhase == .opening && !s.mError)
    mClose := s.mClose || (s.mPhase == .opening && s.mError) || s.mPhase == .closing
    mCallID := false
    reported := s.reported ++ [s.accepted - 1] }
  have hfinish : s.finishPhase =
      (if s.mCallID then .calls else if s.mError then .throws else .finished, t) := by
    rw [LowFile.finishPhase, if_neg hready, if_neg (by simp [hdone])]
  have hclose : t.mClose = decide (s.mPhase = .closing) := by
    have hnot : (s.mPhase == .opening && s.mError) = false := by
      rw [Bool.and_eq_false_imp]
      intro hopening
      refine Bool.eq_false_iff.mpr fun he => ?_
      exact (herror he).1 (by simpa using hopening)
    simp only [t, hopen, hnot, Bool.false_or]
    exact beq_eq_decide _ _
  refine ⟨t, hfinish, fun frames => ?_, rfl, rfl, hclose, fun hadv => ⟨?_, by simp [t], by simp [t]⟩⟩
  · exact ⟨fun _ => ⟨hex, (congrArg (· ++ [s.accepted - 1]) hrep).trans (range_accepted hpos), hqueued, htaken⟩,
      fun hr => absurd rfl hr, fun hr => absurd rfl hr⟩
  · rw [hclose, decide_eq_false_iff_not]
    intro hclosing
    have hadv : (s.advertised || (s.mPhase == .opening && !s.mError)) = true := hadv
    rw [Bool.or_eq_true] at hadv
    rcases hadv with hadv | hadv
    · exact (h.advertised hadv).2.2 hclosing
    · simp [hclosing] at hadv

lemma Inv.onLoop (h : s.Inv) (hctl : s.control = [.loopTaken]) : (s.onLoop []).Inv := by
  have hshape := h.shape
  simp only [Shape, hctl] at hshape
  obtain ⟨-, hopen, hdel⟩ := hshape
  rw [LowFile.onLoop]
  simp only [hopen, Bool.false_eq_true, if_false]
  have hcalm : Calm { s with control := [] } := .inl ⟨hopen, hdel⟩
  by_cases hready : s.mPhase = .ready
  · rw [finishPhase_idle hready]
    dsimp only
    rw [if_neg (by simp [hready])]
    exact ⟨h.data.idle (.inl hready) [], hcalm, h.advertised⟩
  · cases hdone : s.mDataDone with
    | false =>
      rw [finishPhase_busy hready hdone]
      exact ⟨h.data.idle (.inr hdone) [], hcalm, h.advertised⟩
    | true =>
      obtain ⟨t, hfinish, hdata, htready, htdel, hclose, hadv⟩ := h.finishPhase hready hdone hopen
      obtain ⟨-, -, -, -, -, -, herror⟩ := h.data.done hready hdone
      rw [hfinish]
      by_cases hclosing : s.mPhase = .closing
      · have hclosed : t.Closed := ⟨by simp [hclose, hclosing], by rw [htdel, hdel], htready⟩
        cases hcall : s.mCallID with
        | true =>
          simp only [if_true, hclosing, beq_self_eq_true]
          exact ⟨hdata _, ⟨rfl, hclosed⟩, hadv⟩
        | false =>
          have hnone : s.mError = false := by
            refine Bool.eq_false_iff.mpr fun he => ?_
            simp [(herror he).2 hclosing] at hcall
          simp only [hnone, Bool.false_eq_true, if_false, hclosing, if_true]
          exact hclosed.delete (hdata t.control) hadv rfl
      · have htcalm : t.Calm := .inl ⟨by simp [hclose, hclosing], by rw [htdel, hdel]⟩
        have hpop : Inv { t with control := [] } := ⟨hdata [], htcalm, hadv⟩
        cases hcall : s.mCallID with
        | true =>
          have hbeq : (s.mPhase == .closing) = false := by simpa using hclosing
          simp only [if_true, hbeq]
          exact ⟨hdata _, ⟨rfl, htcalm⟩, hadv⟩
        | false =>
          cases he : s.mError with
          | true => simpa using hpop
          | false => simpa [hclosing] using hpop

lemma Inv.syncFinish (h : s.Inv) {f : Sync} (hctl : s.control = .sync f .finish :: frames) :
    (s.syncFinish f frames).Inv := by
  have hshape := h.shape
  have hopen : s.mClose = false ∧ s.deleted = 0 := by
    cases f <;> simp only [Shape, hctl] at hshape
    · exact ⟨hshape.2.1, hshape.2.2.1⟩
    · exact ⟨hshape.2.1, hshape.2.2.1⟩
    · exact ⟨hshape.2.1, hshape.2.2.1⟩
  have hcalls : frames.all Frame.isCall = true := by
    cases f <;> simp only [Shape, hctl] at hshape
    · simp [hshape.1]
    · exact hshape.1
    · exact hshape.1
  rw [LowFile.syncFinish]
  by_cases hready : s.mPhase = .ready
  · rw [finishPhase_idle hready]
    have hf : f = .waitDone := by
      cases f <;> simp [Shape, hctl, hready] at hshape
      rfl
    subst hf
    exact ⟨h.data.idle (.inl hready) frames, shape_calls hcalls (.inl hopen), h.advertised⟩
  · cases hdone : s.mDataDone with
    | false =>
      rw [finishPhase_busy hready hdone]
      refine ⟨h.data.idle (.inr hdone) _, ?_, h.advertised⟩
      cases f <;> simpa [Shape, hctl] using hshape
    | true =>
      obtain ⟨t, hfinish, hdata, htready, htdel, hclose, hadv⟩ := h.finishPhase hready hdone hopen.1
      obtain ⟨-, -, -, -, -, -, herror⟩ := h.data.done hready hdone
      rw [hfinish]
      cases f with
      | openSync =>
        simp only [Shape, hctl] at hshape
        obtain ⟨-, -, -, hphase, hcall⟩ := hshape
        have hnone : s.mError = false := by
          refine Bool.eq_false_iff.mpr fun he => ?_
          exact (herror he).1 hphase
        simp only [hcall, hnone, Bool.false_eq_true, if_false, syncDone, reduceCtorEq]
        refine ⟨hdata frames, shape_calls hcalls (.inl ⟨?_, htdel.trans hopen.2⟩), hadv⟩
        simp [hclose, hphase]
      | closeSync =>
        simp only [Shape, hctl] at hshape
        obtain ⟨-, -, -, hphase, hcall⟩ := hshape
        have hnone : s.mError = false := by
          refine Bool.eq_false_iff.mpr fun he => ?_
          simp [(herror he).2 hphase] at hcall
        simp only [hcall, hnone, Bool.false_eq_true, if_false, syncDone, if_true]
        exact Closed.delete ⟨by simp [hclose, hphase], htdel.trans hopen.2, htready⟩ (hdata t.control) hadv
          hcalls
      | waitDone =>
        simp only [Shape, hctl] at hshape
        obtain ⟨-, -, -, -, hphase⟩ := hshape
        have htcalm : t.Calm := .inl ⟨by simp [hclose, hphase], htdel.trans hopen.2⟩
        have hpop : Inv { t with control := frames } := ⟨hdata frames, shape_calls hcalls htcalm, hadv⟩
        cases hcall : s.mCallID with
        | true =>
          simp only [if_true]
          exact ⟨hdata _, ⟨hcalls, htcalm⟩, hadv⟩
        | false =>
          cases he : s.mError with
          | true => simpa using hpop
          | false => simpa [syncDone] using hpop

/-- The next step of the main thread keeps the invariant. -/
lemma Inv.main (h : s.Inv) : s.main.Inv := by
  have hshape := h.shape
  rw [LowFile.main]
  split
  · next frames hctl =>
    have hnil : frames = [] := by
      simp only [Shape, hctl] at hshape
      exact hshape.1
    subst hnil
    exact h.onLoop hctl
  · next f frames hctl =>
    refine ⟨⟨h.data.ready, h.data.busy, fun hr hd => ?_⟩, ?_, h.advertised⟩
    · obtain ⟨hex, hrep, hpos, hqueued, htaken, -, herror⟩ := h.data.done hr hd
      exact ⟨hex, hrep, hpos, hqueued, htaken, .inr (.inr rfl), herror⟩
    · cases f <;> simpa [Shape, hctl] using hshape
  · next f frames hctl => exact h.syncFinish hctl
  · next f frames hctl =>
    split
    · refine ⟨h.data.calls (by simp [looks, hctl]) _, ?_, h.advertised⟩
      cases f <;> simpa [Shape, hctl] using hshape
    · exact h
  · next frames hctl =>
    split
    · next hout =>
      simp only [Shape, hctl] at hshape
      obtain ⟨hcalls, hclose, hdel, hready⟩ := hshape
      refine ⟨⟨h.data.ready, fun hr => absurd hready hr, fun hr => absurd hready hr⟩,
        shape_calls hcalls (.inr ⟨hclose, ?_, hready, hout, rfl⟩), h.advertised⟩
      exact congrArg (· + 1) hdel
    · exact h
  · exact h

/-- The main loop takes the file from its queue. -/
lemma Inv.loopTake (h : s.Inv) (hctl : s.control = []) (hloop : s.loopQueued = true) :
    Inv { s with control := [.loopTaken], loopQueued := false } := by
  have hshape := h.shape
  simp only [Shape, hctl, Calm, hloop] at hshape
  have hopen : s.mClose = false ∧ s.deleted = 0 := by simpa using hshape
  refine ⟨⟨h.data.ready, h.data.busy, fun hr hd => ?_⟩, ⟨rfl, hopen⟩, h.advertised⟩
  obtain ⟨hex, hrep, hpos, hqueued, htaken, -, herror⟩ := h.data.done hr hd
  exact ⟨hex, hrep, hpos, hqueued, htaken, .inr (.inr rfl), herror⟩

/-- What the calls of the main thread say does not depend on the data thread, as long as an operation is
unfinished or the data thread is there. -/
lemma Shape.data (h : s.Shape) (hready : s.mPhase = .ready → s.inData ≠ .out) {t : LowFile} (hcontrol : t.control = s.control)
    (hphase : t.mPhase = s.mPhase) (hclose : t.mClose = s.mClose) (hdel : t.deleted = s.deleted)
    (hcall : t.mCallID = s.mCallID) : t.Shape := by
  have hcalm : s.Calm → t.Calm := by
    rintro (⟨hopen, hzero⟩ | ⟨-, -, hr, hout, -⟩)
    · exact .inl ⟨hclose.trans hopen, hdel.trans hzero⟩
    · exact absurd hout (hready hr)
  have hclosed : s.Closed → t.Closed := by
    rintro ⟨hc, hzero, hr⟩
    exact ⟨hclose.trans hc, hdel.trans hzero, hphase.trans hr⟩
  unfold Shape at h ⊢
  rw [hcontrol]
  split at h
  · exact hcalm h
  · simpa [hclose, hdel] using h
  · exact ⟨h.1, hcalm h.2⟩
  · exact ⟨h.1, hcalm h.2⟩
  · exact ⟨h.1, hclosed h.2⟩
  · exact ⟨h.1, hclosed h.2⟩
  · simpa [hclose, hdel, hphase, hcall] using h
  · simpa [hclose, hdel, hphase, hcall] using h
  · simpa [hclose, hdel, hphase] using h
  · exact h

lemma Data.not_ready (h : s.Data) (hin : s.inData = .taken) : s.mPhase ≠ .ready ∧ s.mDataDone = false := by
  have hready : s.mPhase ≠ .ready := fun hready => (h.ready hready).2.2.2 hin
  refine ⟨hready, ?_⟩
  cases hd : s.mDataDone with
  | false => rfl
  | true => exact absurd hin (h.done hready hd).2.2.2.2.1

lemma Data.of_queued (h : s.Data) (hqueued : s.dataQueued = true) : s.mPhase ≠ .ready ∧ s.mDataDone = false := by
  have hready : s.mPhase ≠ .ready := fun hready => by simp [(h.ready hready).2.2.1] at hqueued
  refine ⟨hready, ?_⟩
  cases hd : s.mDataDone with
  | false => rfl
  | true => simp [(h.done hready hd).2.2.2.1] at hqueued

lemma Inv.dataTake (h : s.Inv) (hqueued : s.dataQueued = true) :
    Inv { s with dataQueued := false, inData := .taken } := by
  obtain ⟨hready, hbusy⟩ := h.data.of_queued hqueued
  obtain ⟨hex, hrep, hpos, -⟩ := h.data.busy hready hbusy
  refine ⟨⟨fun hr => absurd hr hready, fun _ _ => ⟨hex, hrep, hpos, by simp⟩, fun _ hd => ?_⟩,
    h.shape.data (absurd · hready) rfl rfl rfl rfl rfl, h.advertised⟩
  exact absurd hd (by simp [hbusy])

lemma Inv.execute (h : s.Inv) (hin : s.inData = .taken) {error : Bool} (hok : s.Safe (.dataExecute error)) :
    (s.execute error).Inv := by
  obtain ⟨hready, hbusy⟩ := h.data.not_ready hin
  obtain ⟨hex, hrep, hpos, hqueued⟩ := h.data.busy hready hbusy
  have hnone : s.dataQueued = false := by simpa [hin] using hqueued
  refine ⟨⟨fun hr => absurd hr hready, fun _ hd => by simp [LowFile.execute] at hd, fun _ _ => ?_⟩,
    h.shape.data (absurd · hready) rfl rfl rfl rfl rfl, h.advertised⟩
  exact ⟨(congrArg (· ++ [s.accepted - 1]) hex).trans (range_accepted hpos), hrep, hpos, hnone, by simp [LowFile.execute],
    .inr (.inl rfl), hok⟩

lemma Inv.dataLoop (h : s.Inv) (hin : s.inData = .done) :
    Inv { s with inData := .leaving, loopQueued := true } := by
  refine ⟨⟨fun hr => ?_, fun hr hd => ?_, fun hr hd => ?_⟩,
    h.shape.data (fun _ => by simp [hin]) rfl rfl rfl rfl rfl, h.advertised⟩
  · obtain ⟨hex, hrep, hqueued, -⟩ := h.data.ready hr
    exact ⟨hex, hrep, hqueued, by simp⟩
  · obtain ⟨hex, hrep, hpos, hqueued⟩ := h.data.busy hr hd
    exact ⟨hex, hrep, hpos, by simpa [hin] using hqueued⟩
  · obtain ⟨hex, hrep, hpos, hqueued, -, -, herror⟩ := h.data.done hr hd
    exact ⟨hex, hrep, hpos, hqueued, by simp, .inl rfl, herror⟩

lemma Inv.dataLeave (h : s.Inv) (hin : s.inData = .leaving) : Inv { s with inData := .out } := by
  refine ⟨⟨fun hr => ?_, fun hr hd => ?_, fun hr hd => ?_⟩,
    h.shape.data (fun _ => by simp [hin]) rfl rfl rfl rfl rfl, h.advertised⟩
  · obtain ⟨hex, hrep, hqueued, -⟩ := h.data.ready hr
    exact ⟨hex, hrep, hqueued, by simp⟩
  · obtain ⟨hex, hrep, hpos, hqueued⟩ := h.data.busy hr hd
    exact ⟨hex, hrep, hpos, by simpa [hin] using hqueued⟩
  · obtain ⟨hex, hrep, hpos, hqueued, -, hwake, herror⟩ := h.data.done hr hd
    exact ⟨hex, hrep, hpos, hqueued, by simp, by simpa [hin, looks] using hwake, herror⟩

lemma Inv.step (h : s.Inv) {i : Input} (hok : s.Safe i) : (s.step i).Inv := by
  rw [LowFile.step]
  split
  case isFalse => exact h
  case isTrue hen =>
    cases i with
    | start phase callback =>
      simp only [enabled, Bool.and_eq_true, Bool.or_eq_true, beq_iff_eq] at hen
      refine h.start hen.1.1 hen.1.2 ?_ callback
      rcases hen.2 with (rfl | rfl) | rfl <;> simp
    | close callback =>
      simp only [enabled, Bool.and_eq_true] at hen
      exact h.close hen.1 hen.2 callback
    | closeSync =>
      simp only [enabled, Bool.and_eq_true] at hen
      exact h.closeSync hen.1 hen.2 hok
    | waitDone =>
      simp only [enabled, Bool.and_eq_true] at hen
      exact h.waitDone hen.1 hen.2
    | callReturn threw => exact h.callReturn hok
    | loopTake =>
      simp only [enabled, Bool.and_eq_true, List.isEmpty_iff] at hen
      exact h.loopTake hen.1 hen.2
    | main => exact h.main
    | dataTake =>
      simp only [enabled, Bool.and_eq_true] at hen
      exact h.dataTake hen.1
    | dataExecute error => exact h.execute (by simpa [enabled] using hen) hok
    | dataLoop => exact h.dataLoop (by simpa [enabled] using hen)
    | dataLeave => exact h.dataLeave (by simpa [enabled] using hen)

/-- In every run in which opening succeeds, `closeSync` meets no unfinished operation, a close without a
callback succeeds and the callback of a close does not throw, a file keeps its promises. -/
theorem file_sound {callback sync : Bool} {is : List Input}
    (hok : machine.Guarded Safe (create callback sync) is) :
    (machine.run (create callback sync) is).Sound :=
  (machine.run_invariant (P := Inv) (fun _ _ h hi => h.step hi) (inv_create callback sync) hok).sound

/-- A file is opened, read and closed, the last while the data thread is still behind the read. -/
theorem file_sound_one :
    (machine.run (create true false) [.dataTake, .dataExecute false, .dataLoop, .dataLeave, .loopTake, .main,
      .start .reading true, .callReturn false, .dataTake, .dataExecute true, .dataLoop, .waitDone, .main,
      .main, .closeSync, .main, .main, .dataLeave, .dataTake, .dataExecute false, .dataLoop, .main, .main,
      .main, .dataLeave, .main, .callReturn false]).Sound :=
  file_sound (by decide)

/-- An open that fails and tells its callback so: the file is closed and stays. -/
theorem open_failed_stays :
    ¬(machine.run (create true false) [.dataTake, .dataExecute true, .dataLoop, .dataLeave, .loopTake, .main,
      .callReturn false]).Sound := by
  intro h
  exact absurd (h.closed (by decide) (by decide)) (by decide)

end LowFile

end LowJs.FS
