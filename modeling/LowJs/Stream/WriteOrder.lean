import LowJs.Stream.Writable

/-!
# The order of the writes

The chunks reach `_write` in the order of the calls of `write`, and one at a time, as long as the
stream has no `_writev` and no `drain` listener writes while the buffer is not empty: at that point
`_writableNext` has not yet set `_writableWriting` and does not look at it again.
-/

namespace LowJs.Stream

/-- An operation that holds a chunk. -/
def Op.isWrite : Op → Bool
  | .final => false
  | _ => true

/-- The callback of an operation that holds a chunk, which has not yet set `_writableWriting`
back. -/
def Frame.isDone : Frame → Bool
  | .directDone _ => true
  | .entryDone _ => true
  | .writevDone _ _ => true
  | _ => false

/-- Something that only `_writev` leads to. -/
def Frame.isWritev : Frame → Bool
  | .nextWritev => true
  | .writevDone _ _ => true
  | _ => false

variable {α ε : Type*}

/-- A chunk that has been merged from a list of chunks. -/
inductive Joins (O : Options α ε) : List α → α → Prop
  | single (c : α) : Joins O [c] c
  | concat {cs : List α} {m c m' : α} :
    Joins O cs m → O.concat m c = some m' → Joins O (cs ++ [c]) m'

namespace Writable

variable {O : Options α ε} {s t : Writable α ε}

/-- The operations in flight that hold a chunk, and those whose callback is not done. -/
def busy (s : Writable α ε) : Nat := s.inFlight.countP Op.isWrite + s.control.countP Frame.isDone

/-- The writes are in order, and at most one of them is under way. -/
structure Serial (O : Options α ε) (s : Writable α ε) : Prop where
  parts : (s.sent ++ s.writableBuf).flatMap Entry.parts = s.written
  callbacks : (s.sent ++ s.writableBuf).flatMap Entry.callbacks = List.range s.written.length
  joins : ∀ e ∈ s.sent ++ s.writableBuf, Joins O e.parts e.chunk
  busy : s.busy ≤ if s.writableWriting then 1 else 0
  frames : ∀ f ∈ s.control, f.isWritev = false
  ops : .writev ∉ s.inFlight

/-- `t` has the writes of `s`, and no more under way. -/
structure Quiet (s t : Writable α ε) : Prop where
  sent : t.sent = s.sent
  buf : t.writableBuf = s.writableBuf
  written : t.written = s.written
  writing : t.writableWriting = s.writableWriting
  busy : t.busy ≤ s.busy
  frames : ∀ f ∈ t.control, f.isWritev = true → f ∈ s.control
  ops : .writev ∈ t.inFlight → .writev ∈ s.inFlight

lemma Serial.quiet (h : Serial O s) (hst : Quiet s t) : Serial O t := by
  refine ⟨?_, ?_, ?_, ?_, fun f hf => ?_, fun hn => h.ops (hst.ops hn)⟩
  · rw [hst.sent, hst.buf, hst.written]
    exact h.parts
  · rw [hst.sent, hst.buf, hst.written]
    exact h.callbacks
  · rw [hst.sent, hst.buf]
    exact h.joins
  · rw [hst.writing]
    exact hst.busy.trans h.busy
  · by_contra hn
    have hw : f.isWritev = true := by simpa using hn
    exact hn (h.frames f (hst.frames f hf hw))

/-- Nothing is under way on a stream that is not writing. -/
lemma Serial.idle (h : Serial O s) (hw : s.writableWriting = false) : s.busy = 0 := by
  have hb := h.busy
  rw [hw] at hb
  simpa using hb

/-! ### The methods -/

lemma quiet_writeResult (s : Writable α ε) : Quiet s (s.writeResult O) := by
  rw [writeResult]
  split
  · exact ⟨rfl, rfl, rfl, rfl, le_rfl, fun _ hf _ => hf, fun h => h⟩
  · exact ⟨rfl, rfl, rfl, rfl, le_rfl, fun _ hf _ => hf, fun h => h⟩

/-- The first entry is taken from the buffer. -/
lemma Serial.takeEntry (h : Serial O s) (hidle : s.busy = 0) (hbuf : s.writableBuf ≠ []) :
    Serial O (takeEntry O { s with writableWriting := true }) := by
  rw [Writable.takeEntry]
  split
  · next hnil => exact absurd hnil hbuf
  · next e rest hcons =>
    have hcons' : s.writableBuf = e :: rest := hcons
    have hmove : (s.sent ++ [e]) ++ rest = s.sent ++ s.writableBuf := by simp [hcons']
    refine ⟨?_, ?_, ?_, ?_, ?_, ?_⟩
    · change ((s.sent ++ [e]) ++ rest).flatMap Entry.parts = s.written
      rw [hmove, h.parts]
    · change ((s.sent ++ [e]) ++ rest).flatMap Entry.callbacks = _
      rw [hmove, h.callbacks]
      rfl
    · change ∀ e' ∈ (s.sent ++ [e]) ++ rest, _
      rw [hmove]
      exact h.joins
    · have hcount : s.inFlight.countP Op.isWrite + s.control.countP Frame.isDone = 0 := hidle
      have hop : Op.isWrite (.entry e.callbacks) = true := rfl
      have huser : Frame.isDone .user = false := rfl
      simp only [callUserLast, Writable.busy, List.countP_append, List.countP_cons, hop, huser,
        List.countP_nil, if_true]
      simp only [Bool.false_eq_true, if_false]
      omega
    · intro f hf
      rcases List.mem_cons.mp hf with rfl | hf
      · rfl
      · exact h.frames f hf
    · intro hn
      rcases List.mem_append.mp hn with hn | hn
      · exact h.ops hn
      · simp at hn

lemma Serial.nextRest (h : Serial O s) (hv : O.hasWritev = true → s.writableBuf = [])
    (hidle : s.writableCorkCount = 0 → s.writableBuf ≠ [] → s.busy = 0) :
    Serial O (s.nextRest O) := by
  rw [Writable.nextRest]
  split
  · next hcork =>
    split
    · next hbuf =>
      have hnov : ¬O.hasWritev = true := fun hn => hbuf (hv hn)
      dsimp only
      rw [if_neg hnov]
      exact h.takeEntry (hidle hcork hbuf) hbuf
    · split
      · refine ⟨h.parts, h.callbacks, h.joins, ?_, ?_, ?_⟩
        · refine le_of_eq_of_le ?_ h.busy
          simp [Writable.busy, callUserLast, Op.isWrite, Frame.isDone]
        · intro f hf
          rcases List.mem_cons.mp hf with rfl | hf
          · rfl
          · exact h.frames f hf
        · intro hn
          rcases List.mem_append.mp hn with hn | hn
          · exact h.ops hn
          · simp at hn
      · exact h
  · exact h

lemma Serial.writableNext (h : Serial O s) (hv : O.hasWritev = true → s.writableBuf = []) :
    Serial O (s.writableNext O) := by
  rw [Writable.writableNext]
  split
  · exact h
  · next hw =>
    have hw' : s.writableWriting = false := by simpa using hw
    split
    · refine ⟨h.parts, h.callbacks, h.joins, ?_, ?_, h.ops⟩
      · refine le_of_eq_of_le ?_ h.busy
        simp [Writable.busy, callUser, Frame.isDone]
      · intro f hf
        rcases List.mem_cons.mp hf with rfl | hf
        · rfl
        · rcases List.mem_cons.mp hf with rfl | hf
          · rfl
          · exact h.frames f hf
    · exact h.nextRest hv fun _ _ => h.idle hw'

/-- A chunk goes to `_write` at once; the buffer is empty. -/
lemma Serial.writeDirect (h : Serial O s) (hbuf : s.writableBuf = [])
    (hw : s.writableWriting = false) (chunk : α) (encoding : ε) :
    Serial O (s.writeDirect chunk encoding) := by
  have hparts := h.parts
  have hcallbacks := h.callbacks
  rw [hbuf, List.append_nil] at hparts hcallbacks
  refine ⟨?_, ?_, ?_, ?_, ?_, ?_⟩
  · simp [Writable.writeDirect, callUser, hbuf, hparts]
  · simp [Writable.writeDirect, callUser, hbuf, hcallbacks, List.range_succ]
  · intro e he
    simp only [Writable.writeDirect, callUser, hbuf, List.append_nil, List.mem_append,
      List.mem_singleton] at he
    rcases he with he | rfl
    · exact h.joins e (List.mem_append_left _ he)
    · exact .single chunk
  · have hcount : s.inFlight.countP Op.isWrite + s.control.countP Frame.isDone = 0 := h.idle hw
    simp [Writable.writeDirect, callUser, Writable.busy, Op.isWrite, Frame.isDone]
    omega
  · intro f hf
    rcases List.mem_cons.mp hf with rfl | hf
    · rfl
    · rcases List.mem_cons.mp hf with rfl | hf
      · rfl
      · exact h.frames f hf
  · intro hn
    rcases List.mem_append.mp hn with hn | hn
    · exact h.ops hn
    · simp at hn

lemma Serial.pushEntry (h : Serial O s) (chunk : α) (encoding : ε) :
    Serial O (s.pushEntry O chunk encoding) := by
  refine Serial.quiet (s := { s with
    writableBuf := s.writableBuf ++ [⟨chunk, encoding, [s.written.length], [chunk]⟩]
    writableLength := s.writableLength + size O chunk
    written := s.written ++ [chunk] }) ⟨?_, ?_, ?_, h.busy, h.frames, h.ops⟩ (quiet_writeResult _)
  · have hparts := h.parts
    rw [List.flatMap_append] at hparts
    simp [← List.append_assoc, hparts]
  · have hcallbacks := h.callbacks
    rw [List.flatMap_append] at hcallbacks
    simp [← List.append_assoc, hcallbacks, List.range_succ]
  · intro e he
    simp only [← List.append_assoc, List.mem_append, List.mem_singleton] at he
    rcases he with he | rfl
    · exact h.joins e (List.mem_append.mpr he)
    · exact .single chunk

variable [DecidableEq ε]

lemma Serial.writeBuffered (h : Serial O s) (chunk : α) (encoding : ε) :
    Serial O (s.writeBuffered O chunk encoding) := by
  rw [Writable.writeBuffered]
  split
  · next last hlast =>
    split
    · split
      · exact h
      · next merged hmerged =>
        have hbuf : s.writableBuf = s.writableBuf.dropLast ++ [last] :=
          (List.dropLast_append_getLast? last hlast).symm
        refine Serial.quiet (s := { s with
          writableBuf := s.writableBuf.dropLast ++
            [⟨merged, last.encoding, last.callbacks ++ [s.written.length], last.parts ++ [chunk]⟩]
          writableLength := s.writableLength + size O chunk
          written := s.written ++ [chunk] }) ⟨?_, ?_, ?_, h.busy, h.frames, h.ops⟩
          (quiet_writeResult _)
        · have hparts := h.parts
          rw [hbuf] at hparts
          simp [← hparts]
        · have hcallbacks := h.callbacks
          rw [hbuf] at hcallbacks
          simp only [List.flatMap_append, List.flatMap_cons, List.flatMap_nil, List.append_nil,
            ← List.append_assoc, List.length_append, List.length_singleton, List.range_succ] at *
          rw [hcallbacks]
        · intro e he
          simp only [← List.append_assoc, List.mem_append, List.mem_singleton] at he
          rcases he with he | rfl
          · refine h.joins e ?_
            rw [hbuf, ← List.append_assoc]
            exact List.mem_append_left _ (List.mem_append.mpr he)
          · have hl : last ∈ s.sent ++ s.writableBuf :=
              List.mem_append_right _ (List.mem_of_getLast? hlast)
            exact (h.joins last hl).concat hmerged
    · exact h.pushEntry chunk encoding
  · exact h.pushEntry chunk encoding

/-! ### The steps -/

/-- A call of `write` that goes to `_write` at once. -/
def WritesNow (s : Writable α ε) : Input α ε → Prop
  | .write _ _ => s.writableCorkCount = 0 ∧ s.writableWriting = false
  | .end_ (some _) => s.writableCorkCount = 0 ∧ s.writableWriting = false
  | _ => False

/-- A stream with a `_writev` buffers nothing, a call of `write` that goes to `_write` at once finds
the buffer empty, and when the `drain` listeners have returned to `_writableNext` no write is under
way that it would overtake. -/
structure Alone (O : Options α ε) (s : Writable α ε) (i : Input α ε) : Prop where
  noWritev : O.hasWritev = true → s.writableBuf = []
  write : s.userRuns = true → s.WritesNow i → ¬(s.finished ∨ s.writableEOF) → s.writableBuf = []
  next : ∀ control, s.control = .next :: control → s.writableCorkCount = 0 →
    s.writableBuf ≠ [] → s.writableWriting = false

lemma Serial.write (h : Serial O s) (chunk : α) (encoding : ε)
    (hbuf : s.writableCorkCount = 0 → s.writableWriting = false → ¬(s.finished ∨ s.writableEOF) →
      s.writableBuf = []) : Serial O (s.write O chunk encoding) := by
  rw [Writable.write]
  split
  · exact h
  · next hopen =>
    dsimp only
    split
    · next hnow =>
      have hw : s.writableWriting = false := by simpa using hnow.2
      exact h.writeDirect (hbuf hnow.1 hw hopen) hw _ encoding
    · exact h.writeBuffered _ encoding

omit [DecidableEq ε] in
lemma Serial.endNow (h : Serial O s) (hv : O.hasWritev = true → s.writableBuf = []) :
    Serial O (s.endNow O) := by
  rw [Writable.endNow]
  split
  · exact h
  · have heof : Serial O { s with writableEOF := true } :=
      ⟨h.parts, h.callbacks, h.joins, h.busy, h.frames, h.ops⟩
    dsimp only
    split
    · exact heof
    · exact Serial.writableNext (s := { s with writableEOF := true, writableCorkCount := 0 })
        ⟨h.parts, h.callbacks, h.joins, h.busy, h.frames, h.ops⟩ hv

lemma Serial.end_ (h : Serial O s) (chunk : Option (α × ε)) (hok : Alone O s (.end_ chunk))
    (hruns : s.userRuns = true) : Serial O (s.end_ O chunk) := by
  have hsame {t : Writable α ε} (ht : Serial O t) (n : Option Nat) (l : List Nat) :
      Serial O { t with endedAt := n, endCallbacks := l } :=
    ⟨ht.parts, ht.callbacks, ht.joins, ht.busy, ht.frames, ht.ops⟩
  unfold Writable.end_
  dsimp only
  split
  · exact hsame h _ _
  · split
    · exact hsame (h.endNow hok.noWritev) _ _
    · next chunk encoding =>
      have hwrite : Serial O (s.write O chunk encoding) :=
        h.write chunk encoding fun hc hw hopen => hok.write hruns ⟨hc, hw⟩ hopen
      split
      · exact hwrite
      · exact hsame hwrite _ _

omit [DecidableEq ε] in
lemma Serial.callUserLast (h : Serial O s) : Serial O s.callUserLast := by
  refine h.quiet ⟨rfl, rfl, rfl, rfl, ?_, fun f hf hw => ?_, fun h => h⟩
  · simp [Writable.busy, Writable.callUserLast, Frame.isDone]
  · rcases List.mem_cons.mp hf with rfl | hf
    · cases hw
    · exact hf

omit [DecidableEq ε] in
lemma Serial.callCallback (h : Serial O s) (hv : O.hasWritev = true → s.writableBuf = [])
    (id : Nat) : Serial O (s.callCallback O id) := by
  have hcalled : Serial O { s with called := s.called ++ [id] } :=
    ⟨h.parts, h.callbacks, h.joins, h.busy, h.frames, h.ops⟩
  rw [Writable.callCallback]
  dsimp only
  split
  · exact hcalled.endNow hv
  · exact hcalled.callUserLast

omit [DecidableEq ε] in
/-- A frame leaves the calls, and what has set `_writableWriting` is done. -/
lemma Serial.popDone (h : Serial O s) {f : Frame} {control : List Frame}
    (hctl : s.control = f :: control) (hf : f.isDone = true) :
    Serial O { s with control := control, writableWriting := false } := by
  refine ⟨h.parts, h.callbacks, h.joins, ?_, fun g hg => h.frames g (hctl ▸ List.mem_cons_of_mem f hg),
    h.ops⟩
  have hb := h.busy
  have hle : (if s.writableWriting then 1 else 0) ≤ 1 := by split <;> omega
  have hcount : s.busy =
      s.inFlight.countP Op.isWrite + (control.countP Frame.isDone + 1) := by
    rw [Writable.busy, hctl, List.countP_cons_of_pos hf]
  have hzero : s.inFlight.countP Op.isWrite + control.countP Frame.isDone ≤ 0 := by omega
  simpa [Writable.busy] using hzero

omit [DecidableEq ε] in
/-- A frame leaves the calls. -/
lemma Serial.pop (h : Serial O s) {f : Frame} {control : List Frame}
    (hctl : s.control = f :: control) : Serial O { s with control := control } := by
  refine h.quiet ⟨rfl, rfl, rfl, rfl, ?_, fun g hg _ => ?_, fun h => h⟩
  · simp only [Writable.busy, hctl, List.countP_cons]
    omega
  · exact hctl ▸ List.mem_cons_of_mem f hg

omit [DecidableEq ε] in
lemma Serial.advance (h : Serial O s) {i : Input α ε} (hok : Alone O s i) :
    Serial O (s.advance O) := by
  rw [Writable.advance]
  split
  · next control hctl => exact (h.pop hctl).quiet (quiet_writeResult _)
  · next control hctl =>
    refine (h.pop hctl).nextRest hok.noWritev fun hcork hbuf => ?_
    exact (h.pop hctl).idle (hok.next control hctl hcork hbuf)
  · next control hctl =>
    have hf := h.frames .nextWritev (by simp [hctl])
    cases hf
  · next id control hctl =>
    rw [writingDone]
    refine Serial.writableNext ?_ hok.noWritev
    have hpop := h.popDone hctl rfl
    refine hpop.quiet ⟨rfl, rfl, rfl, rfl, ?_, fun f hf hw => ?_, fun h => h⟩
    · simp [Writable.busy, Frame.isDone]
    · rcases List.mem_cons.mp hf with rfl | hf
      · cases hw
      · exact hf
  · next id control hctl =>
    have hpop := h.pop hctl
    exact ⟨hpop.parts, hpop.callbacks, hpop.joins, hpop.busy, hpop.frames, hpop.ops⟩
  · next control hctl =>
    rw [writingDone]
    exact Serial.writableNext (h.popDone hctl rfl) hok.noWritev
  · next id ids control hctl =>
    refine Serial.callCallback (s := { s with control := .entryDone ids :: control }) ?_
      hok.noWritev id
    refine h.quiet ⟨rfl, rfl, rfl, rfl, ?_, fun f hf hw => ?_, fun h => h⟩
    · simp [Writable.busy, hctl, List.countP_cons, Frame.isDone]
    · rcases List.mem_cons.mp hf with rfl | hf
      · cases hw
      · exact hctl ▸ List.mem_cons_of_mem _ hf
  · next i j control hctl =>
    have hf := h.frames (.writevDone i j) (by simp [hctl])
    cases hf
  · next control hctl =>
    have hpop := h.pop hctl
    exact Serial.callUserLast (s := { s with control := control, finishes := s.finishes + 1 })
      ⟨hpop.parts, hpop.callbacks, hpop.joins, hpop.busy, hpop.frames, hpop.ops⟩
  · exact h

omit [DecidableEq ε] in
lemma Serial.complete (h : Serial O s) (k : Nat) (err : Bool) : Serial O (s.complete k err) := by
  rw [Writable.complete]
  split
  · exact h
  · next op hop =>
    have hmem : op ∈ s.inFlight := List.mem_of_getElem? hop
    have hcount : s.inFlight.countP Op.isWrite =
        (s.inFlight.eraseIdx k).countP Op.isWrite + (if op.isWrite then 1 else 0) := by
      obtain ⟨hk, hget⟩ := List.getElem?_eq_some_iff.mp hop
      have hperm := (List.getElem_cons_eraseIdx_perm hk).countP_eq Op.isWrite
      rw [← hperm, hget, List.countP_cons]
    have hdone : op.frame.isDone = op.isWrite := by cases op <;> rfl
    have hframe : Serial O { s with
        inFlight := s.inFlight.eraseIdx k, control := op.frame :: s.control } := by
      refine h.quiet ⟨rfl, rfl, rfl, rfl, ?_, fun f hf hw => ?_, fun h => List.mem_of_mem_eraseIdx h⟩
      · simp only [Writable.busy, List.countP_cons, hdone, hcount]
        omega
      · rcases List.mem_cons.mp hf with rfl | hf
        · cases op with
          | writev => exact absurd hmem h.ops
          | direct id => cases hw
          | entry ids => cases hw
          | final => cases hw
        · exact hf
    dsimp only
    split
    · exact hframe.callUserLast
    · exact hframe

omit [DecidableEq ε] in
lemma Serial.dropFrames (h : Serial O s) {control : List Frame} (hsub : control.Sublist s.control) :
    Serial O { s with control := control } := by
  refine h.quiet ⟨rfl, rfl, rfl, rfl, ?_, fun f hf _ => hsub.subset hf, fun h => h⟩
  exact Nat.add_le_add_left (hsub.countP_le) _

/-- A step keeps the writes in order. -/
theorem Serial.step (h : Serial O s) {i : Input α ε} (hok : Alone O s i) : Serial O (s.step O i) := by
  unfold Writable.step
  split
  · next hruns =>
    cases i with
    | write chunk encoding =>
      exact h.write chunk encoding fun hc hw hopen => hok.write hruns ⟨hc, hw⟩ hopen
    | cork => exact ⟨h.parts, h.callbacks, h.joins, h.busy, h.frames, h.ops⟩
    | uncork =>
      have hcork : Serial O { s with writableCorkCount := s.writableCorkCount - 1 } :=
        ⟨h.parts, h.callbacks, h.joins, h.busy, h.frames, h.ops⟩
      unfold userStep
      dsimp only
      split
      · exact hcork.writableNext hok.noWritev
      · exact hcork
    | end_ chunk => exact h.end_ chunk hok hruns
    | complete k err => exact h.complete k err
    | ret => exact h.dropFrames (List.tail_sublist _)
    | throw => exact h.dropFrames ((List.dropWhile_sublist _).trans (List.tail_sublist _))
    | advance => exact h
    | tick =>
      unfold userStep
      dsimp only
      split
      · next id nextTicks hctl hticks =>
        exact Serial.callCallback (s := { s with nextTicks := nextTicks })
          ⟨h.parts, h.callbacks, h.joins, h.busy, h.frames, h.ops⟩ hok.noWritev id
      · exact h
  · split
    · exact h.advance hok
    · exact h

omit [DecidableEq ε] in
lemma serial_init : Serial O (init : Writable α ε) := by
  refine ⟨rfl, rfl, ?_, Nat.zero_le _, ?_, ?_⟩
  · simp [init]
  · simp [init]
  · simp [init]

/-- A stream of objects with room for two of them. -/
def objects : Options Nat Nat :=
  ⟨true, 2, false, false, fun _ => 1, fun _ _ => none, fun chunk _ => chunk⟩

/-- Three chunks are written, and a fourth one by a `drain` listener when one of them is still in
the buffer. -/
def writeOnDrain : List (Input Nat Nat) :=
  [.write 0 0, .ret, .advance, .write 1 0, .write 2 0, .complete 0 false, .advance, .ret, .advance,
    .complete 0 false, .advance, .ret, .advance, .write 3 0, .ret, .advance, .ret, .advance]

end Writable

end LowJs.Stream
