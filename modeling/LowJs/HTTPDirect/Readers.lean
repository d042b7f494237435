import LowJs.HTTPDirect.Steps

/-!
# What reading leaves alone

`Read` and `OnSocketData` go through the same functions. Of what belongs to the writing side they change
nothing but by `Init`, which ends a request whose response is finished. A relation between states that
allows for `Init`, for a read callback that is told to wait and for the events of the reader therefore
holds over both.
-/

open LowJs.HTTPDirect.Parser

namespace LowJs.HTTPDirect

/-- The events of the reading side. -/
def Event.ofReader : Event → Bool
  | .read .. => true
  | .readEnd .. => true
  | .readError .. => true
  | .requestError .. => true
  | _ => false

namespace LowHTTPDirect

variable {E : Env} {s t u : LowHTTPDirect}

/-- What reading leaves alone while it meets none of its own events. -/
def unread (s : LowHTTPDirect) :=
  (s.writer, s.mIsServer, s.mIsRequest, s.reader.mReadCallID, s.rt.stash, s.rt.deleted, s.rt.log)

/-- The relation allows for what the report to a reader does. -/
structure Reporting (R : LowHTTPDirect → LowHTTPDirect → Prop) : Prop where
  frame : ∀ {s t}, t.unread = s.unread → R s t
  trans : ∀ {s t u}, R s t → R t u → R s u
  emit : ∀ s e, e.ofReader = true → R s (s.emit e)

/-- The relation allows for what reading does. -/
structure Reading (R : LowHTTPDirect → LowHTTPDirect → Prop) : Prop extends Reporting R where
  init : ∀ {s}, s.responseDone = true → R s s.init
  wait : ∀ s accepted, R s { s with
    reader.mReadCallID := s.rt.stash.add.1, rt.stash := s.rt.stash.add.2, rt.accepted := accepted }

lemma unread_detach (s : LowHTTPDirect) : s.detach.unread = s.unread := by
  rw [detach]
  split <;> rfl

variable {R : LowHTTPDirect → LowHTTPDirect → Prop}

namespace Reporting

variable (h : Reporting R)
include h

lemma refl (s : LowHTTPDirect) : R s s := h.frame rfl

lemma start (hu : R u t) (heq : u.unread = s.unread) : R s t := h.trans (h.frame heq) hu

lemma next (hu : R s u) (heq : t.unread = u.unread) : R s t := h.trans hu (h.frame heq)

lemma detach (s : LowHTTPDirect) : R s s.detach := h.frame (unread_detach s)

lemma endMessage (s : LowHTTPDirect) (via : Via) : R s (s.endMessage E via) := by
  have hlock : R s (if s.parser.mParamFirst.isSome
      then unlock (lock { s with reader.mBytesRead := 0 })
      else { s with reader.mBytesRead := 0 }) := by
    split <;> exact h.frame rfl
  rw [LowHTTPDirect.endMessage]
  dsimp only
  generalize (if s.parser.mParamFirst.isSome = true then
    unlock (lock { s with reader.mBytesRead := 0 }) else { s with reader.mBytesRead := 0 }) = t at hlock ⊢
  split
  · exact h.next hlock rfl
  · refine h.trans hlock (h.trans ?_ (h.emit _ _ rfl))
    split
    · exact h.start (h.detach _) rfl
    · exact h.frame rfl

lemma reportRead (s : LowHTTPDirect) (via : Via) : R s (s.reportRead E via) := by
  rw [LowHTTPDirect.reportRead]
  dsimp only
  split
  · exact h.start (h.endMessage _ _) rfl
  · exact h.start (h.emit _ _ rfl) rfl

end Reporting

namespace Reading

variable (h : Reading R)
include h

/-! ### The byte loop -/

lemma bodyRead (s : LowHTTPDirect) : R s s.bodyRead := by
  rw [LowHTTPDirect.bodyRead]
  split
  · split
    · exact h.frame rfl
    · dsimp only
      split
      · next hdone => exact h.start (h.init hdone) rfl
      · exact h.frame rfl
  · exact h.refl s

lemma bodyBytes (s : LowHTTPDirect) (data : List UInt8) : R s (s.bodyBytes data).2.1 := by
  rw [LowHTTPDirect.bodyBytes]
  dsimp only
  split
  · exact h.frame rfl
  · split
    · exact h.frame rfl
    · split
      · exact h.frame rfl
      · exact h.start (h.next (h.bodyRead _) rfl) rfl

lemma sectionEnded (s : LowHTTPDirect) : R s s.sectionEnded := by
  rw [LowHTTPDirect.sectionEnded]
  dsimp only
  split
  · split
    · next hdone => exact h.start (h.next (h.init hdone) rfl) rfl
    · exact h.frame rfl
  · exact h.frame rfl

lemma paramBytes (s : LowHTTPDirect) (c : UInt8) : R s (s.paramBytes E c).2 := by
  have hstore (t : LowHTTPDirect) (ht : R s t) (r : ParamExit × Parser) :
      R s (t.afterParam r).2 := by
    have hparser (p : Parser) : R s { t with parser := p } := h.next ht rfl
    obtain ⟨e, p⟩ := r
    cases e with
    | next => exact hparser p
    | err => exact hparser p
    | ended => exact h.trans (hparser p) (h.sectionEnded _)
  rw [LowHTTPDirect.paramBytes_def]
  split
  · refine hstore _ ?_ _
    exact h.frame rfl
  · refine hstore _ ?_ _
    exact h.frame rfl
  · exact h.frame rfl
  · exact h.frame rfl

lemma socketByte (s : LowHTTPDirect) (c : UInt8) (rest : List UInt8) :
    R s (s.socketByte E c rest).2.1 := by
  rw [LowHTTPDirect.socketByte]
  split
  · exact h.frame rfl
  · dsimp only
    split
    · exact h.frame rfl
    · exact h.start (h.bodyBytes _ _) rfl
    · split
      · exact h.frame rfl
      · exact h.frame rfl
    · exact h.start (h.paramBytes _ _) rfl

lemma socketLoop (s : LowHTTPDirect) (fuel : Nat) (data : List UInt8) :
    R s (s.socketLoop E fuel data).2.1 := by
  induction fuel generalizing s data with
  | zero => cases data <;> exact h.refl s
  | succ fuel ih =>
    cases data with
    | nil => exact h.refl s
    | cons c rest =>
      have hbyte := h.socketByte (E := E) s c rest
      simp only [LowHTTPDirect.socketLoop]
      cases hr : s.socketByte E c rest with
      | mk exit r =>
        rw [hr] at hbyte
        cases exit with
        | next => exact h.trans hbyte (ih _ _)
        | brk | err | done | undef => exact hbyte

lemma loopDone (s : LowHTTPDirect) (len : Int) (inLoop : Bool) : R s (s.loopDone len inLoop).2 := by
  rw [LowHTTPDirect.loopDone]
  dsimp only
  split
  · exact h.frame rfl
  · exact h.frame rfl

lemma SocketData (s : LowHTTPDirect) (input : SocketInput) (inLoop : Bool) :
    R s (LowHTTPDirect.SocketData E s input inLoop).2 := by
  unfold LowHTTPDirect.SocketData
  dsimp only
  split
  · split <;> exact h.frame rfl
  · exact h.frame rfl
  · rename_i d hd
    split
    · exact h.frame rfl
    · have hloop : R s (LowHTTPDirect.socketLoop E d.length { s with setCallback := false } d).2.1 :=
        h.start (h.socketLoop _ _ _) rfl
      generalize LowHTTPDirect.socketLoop E d.length { s with setCallback := false } d = r at hloop ⊢
      obtain ⟨exit, t, rest⟩ := r
      cases exit with
      | next => exact h.trans hloop (h.loopDone t _ inLoop)
      | brk => exact h.trans hloop (h.loopDone t _ inLoop)
      | err | done | undef => exact h.next hloop rfl

/-! ### `Read` and `OnSocketData` -/

lemma readRemaining (s : LowHTTPDirect) : R s (s.readRemaining E) := by
  rw [LowHTTPDirect.readRemaining]
  split
  · exact h.frame rfl
  · rename_i data hdata
    split
    · exact h.frame rfl
    · have hdata : R s (LowHTTPDirect.SocketData E { s.unlock with reader.mRemainingRead := none }
          (.data data) true).2 := h.start (h.SocketData _ _ _) rfl
      dsimp only
      split
      · exact h.next hdata rfl
      · exact hdata

lemma readOutcome (s : LowHTTPDirect) : R s (s.readOutcome E) := by
  rw [LowHTTPDirect.readOutcome]
  dsimp only
  have hrem := h.readRemaining (E := E) s
  split
  · exact hrem
  · split
    · exact h.trans hrem (h.reportRead _ _)
    · split
      · refine h.trans hrem (h.start (h.trans (h.detach _) (h.emit _ _ ?_)) rfl)
        split <;> rfl
      · exact h.trans hrem (h.wait _ _)

/-- `Read` holds to the relation. -/
lemma Read (s : LowHTTPDirect) (len : Nat) : R s (s.Read E len) := by
  rw [LowHTTPDirect.Read]
  split
  · exact h.emit _ _ rfl
  · exact h.start (h.readOutcome _) rfl

/-- `OnSocketData` holds to the relation. -/
lemma onEventsRead (s : LowHTTPDirect) (input : SocketInput) : R s (s.onEventsRead E input) := by
  rw [LowHTTPDirect.onEventsRead]
  split
  · dsimp only
    have hinput (t : LowHTTPDirect) (ht : R s t) :
        R s (if (LowHTTPDirect.SocketData E t input false).1 then
          { (LowHTTPDirect.SocketData E t input false).2 with rt.mDirectReadEnabled := true }
        else (LowHTTPDirect.SocketData E t input false).2) := by
      have hdata := h.trans ht (h.SocketData (E := E) t input false)
      split
      · exact h.next hdata rfl
      · exact hdata
    apply hinput
    split <;> exact h.frame rfl
  · exact h.refl s

end Reading

end LowHTTPDirect

end LowJs.HTTPDirect
