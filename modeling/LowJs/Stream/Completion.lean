import LowJs.Stream.WriteOrder

/-!
# The end of a stream

No write is accepted behind `end`, every callback is called once, and `finish` is emitted once and
behind all writes, in the runs in which nothing writes between a call of `end` with a chunk and the
callback of that chunk, the `drain` listeners leave no write under way, and no exception leaves user
code into the methods.
-/

namespace LowJs.Stream

/-- The writes whose callbacks an operation in flight has to call. -/
def Op.ids : Op → List Nat
  | .direct id => [id]
  | .entry callbacks => callbacks
  | _ => []

/-- The writes whose callbacks a frame has still to call. -/
def Frame.ids : Frame → List Nat
  | .directDone id => [id]
  | .directTick id => [id]
  | .entryDone callbacks => callbacks
  | _ => []

@[simp] lemma Frame.ids_user : Frame.ids .user = [] := rfl

@[simp] lemma Frame.isDone_user : Frame.isDone .user = false := rfl

@[simp] lemma Op.ids_frame (op : Op) : op.frame.ids = op.ids := by
  cases op <;> rfl

variable {α ε : Type*}

namespace Writable

variable {O : Options α ε} {s t : Writable α ε}

/-- How often a callback has been called or is still to be called. -/
def tally (s : Writable α ε) (id : Nat) : Nat :=
  s.called.count id + (s.inFlight.flatMap Op.ids).count id + (s.control.flatMap Frame.ids).count id +
    s.nextTicks.count id + (s.writableBuf.flatMap Entry.callbacks).count id

/-- `_final`, from its call to the emission of `finish`. -/
def finals (s : Writable α ε) : Nat :=
  s.inFlight.count .final + s.control.count .finalDone + s.finishes

/-- The callbacks, the writes under way and `finish` are accounted for. -/
structure Books (s : Writable α ε) : Prop where
  tally : ∀ id, s.tally id = if id < s.written.length then 1 else 0
  busy : s.busy = if s.writableWriting then 1 else 0
  finals : s.finals = if s.finished then 1 else 0
  finished : s.finished = true →
    s.writableEOF = true ∧ s.writableBuf = [] ∧ s.writableWriting = false

/-- What `end` leaves behind: the number of the writes, and the end itself or a callback that will
bring it. -/
structure Ended (s : Writable α ε) : Prop where
  eof : s.writableEOF = true ∨ s.endCallbacks ≠ [] → s.endedAt.isSome = true
  late : ∀ n, s.endedAt = some n → s.written.length = n
  pending : s.endedAt.isSome = true → s.writableEOF = true ∨
    ∃ id ∈ s.endCallbacks, id < s.written.length ∧ id ∉ s.called

/-- Where nothing is under way, the buffer is empty and the end has been taken up. -/
def Settled (O : Options α ε) (s : Writable α ε) : Prop :=
  s.writableWriting = false → s.writableCorkCount = 0 → .next ∉ s.control →
    s.writableBuf = [] ∧ (s.writableEOF = true → s.finished = true ∨ O.noUncorkOnEnd = true)

/-! ### The end is taken up -/

lemma settled_nextRest (s : Writable α ε) : Settled O (s.nextRest O) := by
  rw [nextRest]
  split
  · next hcork =>
    split
    · next hbuf =>
      intro hw
      dsimp only at hw
      split at hw
      · cases hw
      · unfold takeEntry at hw
        dsimp only at hw
        split at hw
        · next hnil => exact absurd hnil hbuf
        · cases hw
    · next hbuf =>
      have hnil : s.writableBuf = [] := by simpa using hbuf
      split
      · exact fun _ _ _ => ⟨hnil, fun _ => .inl rfl⟩
      · next hend =>
        refine fun _ _ _ => ⟨hnil, fun heof => .inl ?_⟩
        by_contra hfin
        exact hend ⟨heof, hfin⟩
  · next hcork => exact fun _ hc => absurd hc hcork

lemma settled_writableNext (s : Writable α ε) : Settled O (s.writableNext O) := by
  rw [writableNext]
  split
  · next hw => exact fun hn => by simp [hw] at hn
  · split
    · exact fun _ _ hn => absurd (List.mem_cons_of_mem _ List.mem_cons_self) hn
    · exact settled_nextRest s

lemma Settled.endNow (h : Settled O s) : Settled O (s.endNow O) := by
  rw [Writable.endNow]
  split
  · exact h
  · dsimp only
    split
    · next hno => exact fun hw hc hn => ⟨(h hw hc hn).1, fun _ => .inr hno⟩
    · exact settled_writableNext _

lemma Settled.callCallback (h : Settled O s) (id : Nat) : Settled O (s.callCallback O id) := by
  rw [Writable.callCallback]
  dsimp only
  split
  · exact Settled.endNow (s := { s with called := s.called ++ [id] }) h
  · exact fun hw hc hn => h hw hc fun hmem => hn (List.mem_cons_of_mem _ hmem)

lemma Settled.writeResult (h : Settled O s) : Settled O (s.writeResult O) := by
  rw [Writable.writeResult]
  split
  · exact h
  · exact h

lemma settled_busy (h : ¬(s.writableCorkCount = 0 ∧ ¬s.writableWriting = true))
    (hc : t.writableCorkCount = s.writableCorkCount) (hw : t.writableWriting = s.writableWriting) :
    Settled O t := by
  intro hw' hc'
  refine absurd ⟨hc ▸ hc', ?_⟩ h
  rw [← hw, hw']
  simp

section

variable [DecidableEq ε]

lemma Settled.write (h : Settled O s) (chunk : α) (encoding : ε) :
    Settled O (s.write O chunk encoding) := by
  rw [Writable.write]
  split
  · exact h
  · dsimp only
    split
    · exact fun hw => by cases hw
    · next hbusy =>
      have hpush (c : α) : Settled O (s.pushEntry O c encoding) :=
        Settled.writeResult (settled_busy hbusy rfl rfl)
      rw [writeBuffered]
      split
      · split
        · split
          · exact h
          · exact Settled.writeResult (settled_busy hbusy rfl rfl)
        · exact hpush _
      · exact hpush _

end

/-! ### Callbacks, writes and `finish` -/

/-- Nothing that is accounted for changes. -/
structure SameBooks (s t : Writable α ε) : Prop where
  called : t.called = s.called
  inFlight : t.inFlight = s.inFlight
  ids : t.control.flatMap Frame.ids = s.control.flatMap Frame.ids
  done : t.control.countP Frame.isDone = s.control.countP Frame.isDone
  finalDone : t.control.count .finalDone = s.control.count .finalDone
  nextTicks : t.nextTicks = s.nextTicks
  buf : t.writableBuf = s.writableBuf
  written : t.written = s.written
  writing : t.writableWriting = s.writableWriting
  finished : t.finished = s.finished
  finishes : t.finishes = s.finishes
  eof : s.writableEOF = true → t.writableEOF = true

lemma Books.congr (h : Books s) (hst : SameBooks s t) : Books t := by
  refine ⟨fun id => ?_, ?_, ?_, fun hfin => ?_⟩
  · rw [Writable.tally, hst.called, hst.inFlight, hst.ids, hst.nextTicks, hst.buf, hst.written]
    exact h.tally id
  · rw [Writable.busy, hst.inFlight, hst.done, hst.writing]
    exact h.busy
  · rw [Writable.finals, hst.inFlight, hst.finalDone, hst.finishes, hst.finished]
    exact h.finals
  · obtain ⟨heof, hbuf, hw⟩ := h.finished (hst.finished ▸ hfin)
    exact ⟨hst.eof heof, hst.buf.trans hbuf, hst.writing.trans hw⟩

lemma sameBooks_callUserLast (s : Writable α ε) : SameBooks s s.callUserLast := by
  constructor <;> simp [callUserLast]

lemma sameBooks_callUser (s : Writable α ε) {f : Frame} (hids : f.ids = []) (hdone : f.isDone = false)
    (hfinal : f ≠ .finalDone) : SameBooks s (s.callUser f) := by
  constructor <;> simp [callUser, hids, hdone, hfinal]

lemma sameBooks_writeResult (s : Writable α ε) : SameBooks s (s.writeResult O) := by
  rw [writeResult]
  split
  · constructor <;> simp
  · constructor <;> simp

lemma Books.takeEntry (h : Books s) (hw : s.writableWriting = false) (hbuf : s.writableBuf ≠ []) :
    Books (takeEntry O { s with writableWriting := true }) := by
  have hbusy : s.inFlight.countP Op.isWrite + s.control.countP Frame.isDone = 0 := by
    have hb := h.busy
    rw [hw] at hb
    exact hb
  rw [Writable.takeEntry]
  split
  · next hnil => exact absurd hnil hbuf
  · next e rest hcons =>
    have hcons' : s.writableBuf = e :: rest := hcons
    refine Books.congr (s := { s with
      writableWriting := true
      writableBuf := rest
      inFlight := s.inFlight ++ [.entry e.callbacks]
      sent := s.sent ++ [e] }) ⟨fun id => ?_, ?_, ?_, fun hfin => ?_⟩ ?_
    · rw [← h.tally id]
      simp only [Writable.tally, hcons', List.flatMap_append, List.flatMap_cons, List.flatMap_nil,
        List.append_nil, List.count_append, Op.ids]
      omega
    · simp [Writable.busy, List.countP_append, Op.isWrite]
      omega
    · rw [← h.finals]
      simp [Writable.finals, List.count_append]
    · exact absurd (h.finished hfin).2.1 hbuf
    · constructor <;> simp [Writable.callUserLast]

lemma Books.nextRest (h : Books s) (hv : O.hasWritev = true → s.writableBuf = [])
    (hidle : s.writableCorkCount = 0 → s.writableBuf ≠ [] ∨ s.writableEOF = true ∧ ¬s.finished = true →
      s.writableWriting = false) : Books (s.nextRest O) := by
  rw [Writable.nextRest]
  split
  · next hcork =>
    split
    · next hbuf =>
      have hnov : ¬O.hasWritev = true := fun hn => hbuf (hv hn)
      dsimp only
      rw [if_neg hnov]
      exact h.takeEntry (hidle hcork (.inl hbuf)) hbuf
    · next hbuf =>
      have hnil : s.writableBuf = [] := by simpa using hbuf
      split
      · next hend =>
        have hw := hidle hcork (.inr hend)
        have hfin : s.finished = false := by simpa using hend.2
        refine Books.congr (s := { s with
          finished := true, inFlight := s.inFlight ++ [.final] }) ⟨fun id => ?_, ?_, ?_, ?_⟩ ?_
        · rw [← h.tally id]
          simp [Writable.tally, Op.ids]
        · rw [← h.busy]
          simp [Writable.busy, Op.isWrite]
        · have hf := h.finals
          rw [hfin] at hf
          simp only [Writable.finals, List.count_append, List.count_singleton_self, if_true] at hf ⊢
          simp only [Bool.false_eq_true, if_false] at hf
          omega
        · exact fun _ => ⟨hend.1, hnil, hw⟩
        · constructor <;> simp [Writable.callUserLast]
      · exact h
  · exact h

lemma Books.writableNext (h : Books s) (hv : O.hasWritev = true → s.writableBuf = []) :
    Books (s.writableNext O) := by
  rw [Writable.writableNext]
  split
  · exact h
  · next hw =>
    split
    · exact Books.congr (s := { s with emittedHighMark := false })
        ⟨h.tally, h.busy, h.finals, h.finished⟩ (sameBooks_callUser _ rfl rfl (by simp))
    · exact h.nextRest hv fun _ _ => by simpa using hw

/-- A write is accepted: its callback is the next one. -/
lemma tally_written {n m id : Nat} (h : m = if id < n then 1 else 0) :
    m + [n].count id = if id < n + 1 then 1 else 0 := by
  rw [h, List.count_singleton]
  by_cases hid : id < n
  · have hne : ¬n = id := by omega
    simp [hid, hne]
    omega
  · by_cases heq : n = id
    · subst heq
      simp
    · have hlt : ¬id < n + 1 := by omega
      simp [hid, heq, hlt]

lemma Books.writeDirect (h : Books s) (hw : s.writableWriting = false) (hfin : s.finished = false)
    (chunk : α) (encoding : ε) : Books (s.writeDirect chunk encoding) := by
  have hbusy : s.inFlight.countP Op.isWrite + s.control.countP Frame.isDone = 0 := by
    have hb := h.busy
    rw [hw] at hb
    exact hb
  rw [Writable.writeDirect]
  refine Books.congr (s := { s with
    writableWriting := true
    inFlight := s.inFlight ++ [.direct s.written.length]
    written := s.written ++ [chunk]
    sent := s.sent ++ [⟨chunk, encoding, [s.written.length], [chunk]⟩] })
    ⟨fun id => ?_, ?_, ?_, fun hn => ?_⟩ (sameBooks_callUser _ rfl rfl (by simp))
  · simp only [List.length_append, List.length_singleton]
    rw [← tally_written (h.tally id)]
    simp only [Writable.tally, List.flatMap_append, List.flatMap_cons, List.flatMap_nil,
      List.append_nil, List.count_append, Op.ids]
    omega
  · simp [Writable.busy, List.countP_append, Op.isWrite]
    omega
  · rw [← h.finals]
    simp [Writable.finals, List.count_append]
  · simp [hfin] at hn

lemma Books.pushEntry (h : Books s) (hfin : s.finished = false) (chunk : α) (encoding : ε) :
    Books (s.pushEntry O chunk encoding) := by
  rw [Writable.pushEntry]
  refine Books.congr (s := { s with
    writableBuf := s.writableBuf ++ [⟨chunk, encoding, [s.written.length], [chunk]⟩]
    writableLength := s.writableLength + size O chunk
    written := s.written ++ [chunk] }) ⟨fun id => ?_, h.busy, h.finals, fun hn => ?_⟩
    (sameBooks_writeResult _)
  · simp only [List.length_append, List.length_singleton]
    rw [← tally_written (h.tally id)]
    simp only [Writable.tally, List.flatMap_append, List.flatMap_cons, List.flatMap_nil,
      List.append_nil, List.count_append]
    omega
  · simp [hfin] at hn

lemma Books.endNow (h : Books s) (hv : O.hasWritev = true → s.writableBuf = []) :
    Books (s.endNow O) := by
  rw [Writable.endNow]
  split
  · exact h
  · have heof : Books { s with writableEOF := true } :=
      ⟨h.tally, h.busy, h.finals, fun hfin => ⟨rfl, (h.finished hfin).2⟩⟩
    dsimp only
    split
    · exact heof
    · exact Books.writableNext (s := { s with writableEOF := true, writableCorkCount := 0 })
        ⟨heof.tally, heof.busy, heof.finals, heof.finished⟩ hv

section

variable [DecidableEq ε]

lemma Books.writeBuffered (h : Books s) (hfin : s.finished = false) (chunk : α) (encoding : ε) :
    Books (s.writeBuffered O chunk encoding) := by
  rw [Writable.writeBuffered]
  split
  · next last hlast =>
    split
    · split
      · exact h
      · next merged hmerged =>
        have hbuf : s.writableBuf = s.writableBuf.dropLast ++ [last] :=
          (List.dropLast_append_getLast? last hlast).symm
        refine Books.congr (s := { s with
          writableBuf := s.writableBuf.dropLast ++
            [⟨merged, last.encoding, last.callbacks ++ [s.written.length], last.parts ++ [chunk]⟩]
          writableLength := s.writableLength + size O chunk
          written := s.written ++ [chunk] }) ⟨fun id => ?_, h.busy, h.finals, fun hn => ?_⟩
          (sameBooks_writeResult _)
        · have htally := h.tally id
          rw [Writable.tally, hbuf] at htally
          simp only [List.length_append, List.length_singleton]
          rw [← tally_written htally]
          simp only [Writable.tally, List.flatMap_append, List.flatMap_cons, List.flatMap_nil,
            List.append_nil, List.count_append]
          omega
        · simp [hfin] at hn
    · exact h.pushEntry hfin chunk encoding
  · exact h.pushEntry hfin chunk encoding

lemma Books.write (h : Books s) (chunk : α) (encoding : ε) : Books (s.write O chunk encoding) := by
  rw [Writable.write]
  split
  · exact h
  · next hopen =>
    have hfin : s.finished = false := by simpa using (not_or.mp hopen).1
    dsimp only
    split
    · next hnow => exact h.writeDirect (by simpa using hnow.2) hfin _ encoding
    · exact h.writeBuffered hfin _ encoding

end

/-- A callback that has set `_writableWriting` leaves the calls. -/
lemma Books.popDone (h : Books s) {control : List Frame}
    (hids : control.flatMap Frame.ids = s.control.flatMap Frame.ids)
    (hdone : s.control.countP Frame.isDone = control.countP Frame.isDone + 1)
    (hfinal : control.count .finalDone = s.control.count .finalDone) :
    Books { s with control := control, writableWriting := false } := by
  have hb := h.busy
  have hle : (if s.writableWriting then 1 else 0) ≤ 1 := by split <;> omega
  have hzero : s.inFlight.countP Op.isWrite + control.countP Frame.isDone = 0 := by
    rw [Writable.busy, hdone] at hb
    omega
  refine ⟨fun id => ?_, hzero, ?_, fun hfin => ?_⟩
  · rw [← h.tally id]
    simp [Writable.tally, hids]
  · rw [← h.finals]
    simp [Writable.finals, hfinal]
  · obtain ⟨heof, hbuf, -⟩ := h.finished hfin
    exact ⟨heof, hbuf, rfl⟩

/-! ### The end -/

/-- The number of the writes and what `end` has left behind stay as they are. -/
structure SameEnd (s t : Writable α ε) : Prop where
  eof : t.writableEOF = s.writableEOF
  endCallbacks : t.endCallbacks = s.endCallbacks
  endedAt : t.endedAt = s.endedAt
  written : t.written = s.written
  called : t.called = s.called

lemma SameEnd.refl (s : Writable α ε) : SameEnd s s := ⟨rfl, rfl, rfl, rfl, rfl⟩

lemma SameEnd.trans {u : Writable α ε} (h : SameEnd s t) (h' : SameEnd t u) : SameEnd s u :=
  ⟨h'.eof.trans h.eof, h'.endCallbacks.trans h.endCallbacks, h'.endedAt.trans h.endedAt,
    h'.written.trans h.written, h'.called.trans h.called⟩

lemma Ended.congr (h : Ended s) (hst : SameEnd s t) : Ended t := by
  refine ⟨?_, ?_, ?_⟩
  · rw [hst.eof, hst.endCallbacks, hst.endedAt]
    exact h.eof
  · rw [hst.endedAt, hst.written]
    exact h.late
  · rw [hst.endedAt, hst.eof, hst.endCallbacks, hst.written, hst.called]
    exact h.pending

lemma sameEnd_takeEntry (s : Writable α ε) : SameEnd s (s.takeEntry O) := by
  rw [takeEntry]
  split
  · exact ⟨rfl, rfl, rfl, rfl, rfl⟩
  · exact ⟨rfl, rfl, rfl, rfl, rfl⟩

lemma sameEnd_nextRest (s : Writable α ε) : SameEnd s (s.nextRest O) := by
  rw [nextRest]
  split
  · split
    · dsimp only
      split
      · exact ⟨rfl, rfl, rfl, rfl, rfl⟩
      · have h := sameEnd_takeEntry (O := O) { s with writableWriting := true }
        exact ⟨h.eof, h.endCallbacks, h.endedAt, h.written, h.called⟩
    · split
      · exact ⟨rfl, rfl, rfl, rfl, rfl⟩
      · exact .refl s
  · exact .refl s

lemma sameEnd_writableNext (s : Writable α ε) : SameEnd s (s.writableNext O) := by
  rw [writableNext]
  split
  · exact .refl s
  · split
    · exact ⟨rfl, rfl, rfl, rfl, rfl⟩
    · exact sameEnd_nextRest s

/-- The end comes. -/
lemma endNow_end (s : Writable α ε) :
    (s.endNow O).writableEOF = true ∧ (s.endNow O).endCallbacks = s.endCallbacks ∧
      (s.endNow O).endedAt = s.endedAt ∧ (s.endNow O).written = s.written ∧
      (s.endNow O).called = s.called := by
  rw [endNow]
  split
  · next heof => exact ⟨heof, rfl, rfl, rfl, rfl⟩
  · dsimp only
    split
    · exact ⟨rfl, rfl, rfl, rfl, rfl⟩
    · have h := sameEnd_writableNext (O := O) { s with writableEOF := true, writableCorkCount := 0 }
      exact ⟨h.eof, h.endCallbacks, h.endedAt, h.written, h.called⟩

lemma Ended.endNow (h : Ended s) (hs : s.endedAt.isSome = true) : Ended (s.endNow O) := by
  obtain ⟨heof, hcb, hat, hw, -⟩ := endNow_end (O := O) s
  refine ⟨fun _ => by rw [hat, hs], ?_, fun _ => .inl heof⟩
  rw [hat, hw]
  exact h.late

lemma Ended.callCallback (h : Ended s) (id : Nat) : Ended (s.callCallback O id) := by
  rw [Writable.callCallback]
  dsimp only
  split
  · next hid =>
    have hs : s.endedAt.isSome = true := h.eof (.inr (List.ne_nil_of_mem hid))
    obtain ⟨heof, hcb, hat, hw, -⟩ := endNow_end (O := O) { s with called := s.called ++ [id] }
    refine ⟨fun _ => by rw [hat]; exact hs, ?_, fun _ => .inl heof⟩
    rw [hat, hw]
    exact h.late
  · next hid =>
    refine ⟨h.eof, h.late, fun hs => (h.pending hs).imp_right ?_⟩
    rintro ⟨id', hmem, hlt, hcalled⟩
    refine ⟨id', hmem, hlt, fun hn => ?_⟩
    rcases List.mem_append.mp hn with hn | hn
    · exact hcalled hn
    · exact hid (List.mem_singleton.mp hn ▸ hmem)

/-- A write is accepted before `end` is called. -/
lemma Ended.write [DecidableEq ε] (h : Ended s) (hopen : s.endedAt.isSome = true → s.writableEOF = true)
    (chunk : α) (encoding : ε) : Ended (s.write O chunk encoding) := by
  rw [Writable.write]
  split
  · exact h
  · next hn =>
    obtain ⟨-, heof⟩ := not_or.mp hn
    have hnone : s.endedAt = none := by
      rw [← Option.not_isSome_iff_eq_none]
      exact fun hs => heof (hopen hs)
    have hcb : s.endCallbacks = [] := by
      by_contra hne
      have hs := h.eof (.inr hne)
      simp [hnone] at hs
    have hof {t : Writable α ε} (h₁ : t.writableEOF = s.writableEOF)
        (h₂ : t.endCallbacks = s.endCallbacks) (h₃ : t.endedAt = s.endedAt) : Ended t := by
      refine ⟨?_, fun n hn => ?_, fun hs => ?_⟩
      · rw [h₁, h₂, h₃]
        exact h.eof
      · simp [h₃, hnone] at hn
      · simp [h₃, hnone] at hs
    have hres {t : Writable α ε} (ht : Ended t) : Ended (t.writeResult O) := by
      rw [Writable.writeResult]
      split
      · exact ht
      · exact ht.congr ⟨rfl, rfl, rfl, rfl, rfl⟩
    dsimp only
    split
    · exact hof rfl rfl rfl
    · have hpush (c : α) : Ended (s.pushEntry O c encoding) := hres (hof rfl rfl rfl)
      rw [Writable.writeBuffered]
      split
      · split
        · split
          · exact h
          · exact hres (hof rfl rfl rfl)
        · exact hpush _
      · exact hpush _

/-- An accepted write is the last one of the history. -/
lemma write_written [DecidableEq ε] (s : Writable α ε) (chunk : α) (encoding : ε) :
    ((s.write O chunk encoding).written = s.written ∨
        ∃ c, (s.write O chunk encoding).written = s.written ++ [c]) ∧
      (s.write O chunk encoding).called = s.called ∧
      (s.write O chunk encoding).endCallbacks = s.endCallbacks := by
  have hres (t : Writable α ε) : (t.writeResult O).written = t.written ∧
      (t.writeResult O).called = t.called ∧ (t.writeResult O).endCallbacks = t.endCallbacks := by
    rw [writeResult]
    split
    · exact ⟨rfl, rfl, rfl⟩
    · exact ⟨rfl, rfl, rfl⟩
  rw [Writable.write]
  split
  · exact ⟨.inl rfl, rfl, rfl⟩
  · dsimp only
    split
    · exact ⟨.inr ⟨_, rfl⟩, rfl, rfl⟩
    · have hpush (c : α) : ((s.pushEntry O c encoding).written = s.written ∨
            ∃ c', (s.pushEntry O c encoding).written = s.written ++ [c']) ∧
          (s.pushEntry O c encoding).called = s.called ∧
          (s.pushEntry O c encoding).endCallbacks = s.endCallbacks := by
        rw [pushEntry]
        obtain ⟨hw, hc, he⟩ := hres { s with
          writableBuf := s.writableBuf ++ [⟨c, encoding, [s.written.length], [c]⟩]
          writableLength := s.writableLength + size O c
          written := s.written ++ [c] }
        exact ⟨.inr ⟨c, hw⟩, hc, he⟩
      rw [writeBuffered]
      split
      · split
        · split
          · exact ⟨.inl rfl, rfl, rfl⟩
          · obtain ⟨hw, hc, he⟩ := hres _
            exact ⟨.inr ⟨_, hw⟩, hc, he⟩
        · exact hpush _
      · exact hpush _

/-! ### The steps -/

/-- In addition to the order of the writes: no write is accepted between `end` and the end, when the
`drain` listeners have returned at the end of the stream no write is under way, and an exception
passes no method but `write`. -/
structure Orderly (O : Options α ε) [DecidableEq ε] (s : Writable α ε) (i : Input α ε) : Prop
    extends Alone O s i where
  late : s.userRuns = true → (∃ chunk encoding, i = .write chunk encoding ∨
    i = .end_ (some (chunk, encoding))) → s.endedAt.isSome = true → s.writableEOF = true
  finish : ∀ control, s.control = .next :: control → s.writableCorkCount = 0 →
    s.writableEOF = true → s.finished = false → s.writableWriting = false
  throw : i = .throw → ∀ f ∈ s.control.tail.takeWhile (· ≠ .user), f = .write

/-- Everything that holds of a stream. -/
structure Sound (O : Options α ε) (s : Writable α ε) : Prop where
  serial : Serial O s
  books : Books s
  ended : Ended s
  settled : Settled O s

lemma Settled.frames (h : Settled O s) {control : List Frame}
    (hn : .next ∈ s.control → .next ∈ control) : Settled O { s with control := control } :=
  fun hw hc hnext => h hw hc fun hmem => hnext (hn hmem)

lemma Books.callCallback {id : Nat} (h : Books { s with called := s.called ++ [id] })
    (hv : O.hasWritev = true → s.writableBuf = []) : Books (s.callCallback O id) := by
  rw [Writable.callCallback]
  dsimp only
  split
  · exact h.endNow hv
  · exact h.congr (sameBooks_callUserLast _)

lemma Sound.advance [DecidableEq ε] (h : Sound O s) {i : Input α ε} (hok : Orderly O s i) :
    Sound O (s.advance O) := by
  obtain ⟨hserial, hbooks, hended, hsettled⟩ := h
  refine ⟨hserial.advance hok.toAlone, ?_, ?_, ?_⟩
  · -- the books
    rw [Writable.advance]
    split
    · next control hctl =>
      refine Books.congr (s := { s with control := control }) (hbooks.congr ?_)
        (sameBooks_writeResult _)
      constructor <;> simp [hctl, Frame.ids, Frame.isDone]
    · next control hctl =>
      refine Books.nextRest (s := { s with control := control }) (hbooks.congr ?_) hok.noWritev ?_
      · constructor <;> simp [hctl, Frame.ids, Frame.isDone]
      · rintro hcork (hbuf | ⟨heof, hfin⟩)
        · exact hok.next control hctl hcork hbuf
        · exact hok.finish control hctl hcork heof (by simpa using hfin)
    · next control hctl => cases hserial.frames .nextWritev (by simp [hctl])
    · next id control hctl =>
      refine Books.writableNext (hbooks.popDone ?_ ?_ ?_) hok.noWritev
      · simp [hctl, Frame.ids]
      · simp [hctl, List.countP_cons, Frame.isDone]
      · simp [hctl]
    · next id control hctl =>
      refine ⟨fun id' => ?_, ?_, ?_, hbooks.finished⟩
      · rw [← hbooks.tally id']
        simp only [Writable.tally, hctl, List.flatMap_cons, Frame.ids, List.count_append,
          List.count_cons, List.count_nil]
        omega
      · rw [← hbooks.busy]
        simp [Writable.busy, hctl, Frame.isDone]
      · rw [← hbooks.finals]
        simp [Writable.finals, hctl]
    · next control hctl =>
      refine Books.writableNext (hbooks.popDone ?_ ?_ ?_) hok.noWritev
      · simp [hctl, Frame.ids]
      · simp [hctl, List.countP_cons, Frame.isDone]
      · simp [hctl]
    · next id ids control hctl =>
      refine Books.callCallback (s := { s with control := .entryDone ids :: control }) ?_
        hok.noWritev
      refine ⟨fun id' => ?_, ?_, ?_, hbooks.finished⟩
      · rw [← hbooks.tally id']
        simp only [Writable.tally, hctl, List.flatMap_cons, Frame.ids, List.count_append,
          List.count_cons, List.count_nil]
        omega
      · rw [← hbooks.busy]
        simp [Writable.busy, hctl, List.countP_cons, Frame.isDone]
      · rw [← hbooks.finals]
        simp [Writable.finals, hctl]
    · next i j control hctl => cases hserial.frames (.writevDone i j) (by simp [hctl])
    · next control hctl =>
      refine Books.congr (s := { s with control := control, finishes := s.finishes + 1 })
        ⟨fun id => ?_, ?_, ?_, hbooks.finished⟩ (sameBooks_callUserLast _)
      · rw [← hbooks.tally id]
        simp [Writable.tally, hctl, Frame.ids]
      · rw [← hbooks.busy]
        simp [Writable.busy, hctl, Frame.isDone]
      · rw [← hbooks.finals]
        simp only [Writable.finals, hctl, List.count_cons_self]
        omega
    · exact hbooks
  · -- what `end` has left behind
    have hsame {control : List Frame} : Ended { s with control := control } :=
      hended.congr ⟨rfl, rfl, rfl, rfl, rfl⟩
    rw [Writable.advance]
    split
    · rw [writeResult]
      split
      · exact hsame
      · exact hended.congr ⟨rfl, rfl, rfl, rfl, rfl⟩
    · exact hsame.congr (sameEnd_nextRest _)
    · exact hsame.congr (sameEnd_takeEntry _)
    · rw [writingDone]
      refine Ended.congr ?_ (sameEnd_writableNext _)
      exact hended.congr ⟨rfl, rfl, rfl, rfl, rfl⟩
    · exact hended.congr ⟨rfl, rfl, rfl, rfl, rfl⟩
    · rw [writingDone]
      refine Ended.congr ?_ (sameEnd_writableNext _)
      exact hended.congr ⟨rfl, rfl, rfl, rfl, rfl⟩
    · exact hsame.callCallback _
    · next i j control hctl => cases hserial.frames (.writevDone i j) (by simp [hctl])
    · exact hended.congr ⟨rfl, rfl, rfl, rfl, rfl⟩
    · exact hended
  · -- nothing is left where nothing is under way
    rw [Writable.advance]
    split
    · next control hctl =>
      exact (hsettled.frames fun hmem => by simpa [hctl] using hmem).writeResult
    · exact settled_nextRest _
    · next control hctl => cases hserial.frames .nextWritev (by simp [hctl])
    · exact settled_writableNext _
    · next id control hctl =>
      have hpop : Settled O { s with control := control } :=
        hsettled.frames fun hmem => by simpa [hctl] using hmem
      exact hpop
    · exact settled_writableNext _
    · next id ids control hctl =>
      exact (hsettled.frames fun hmem => by simpa [hctl] using hmem).callCallback id
    · next i j control hctl => cases hserial.frames (.writevDone i j) (by simp [hctl])
    · next control hctl =>
      have hpop : Settled O { s with control := .user :: control } :=
        hsettled.frames fun hmem => by simpa [hctl] using hmem
      exact hpop
    · exact hsettled

lemma Sound.complete (h : Sound O s) (k : Nat) (err : Bool) : Sound O (s.complete k err) := by
  refine ⟨h.serial.complete k err, ?_, ?_, ?_⟩
  · rw [Writable.complete]
    split
    · exact h.books
    · next op hop =>
      obtain ⟨hk, hget⟩ := List.getElem?_eq_some_iff.mp hop
      have hperm : (op :: s.inFlight.eraseIdx k).Perm s.inFlight := by
        have hp := List.getElem_cons_eraseIdx_perm hk
        rwa [hget] at hp
      have hframe : Books { s with
          inFlight := s.inFlight.eraseIdx k, control := op.frame :: s.control } := by
        refine ⟨fun id => ?_, ?_, ?_, h.books.finished⟩
        · have hids := (hperm.flatMap_right Op.ids).count_eq id
          rw [← h.books.tally id, Writable.tally, Writable.tally, ← hids]
          simp only [List.flatMap_cons, Op.ids_frame, List.count_append]
          omega
        · have hdone : op.frame.isDone = op.isWrite := by cases op <;> rfl
          have hcount := hperm.countP_eq Op.isWrite
          rw [← h.books.busy, Writable.busy, Writable.busy, ← hcount]
          simp only [List.countP_cons, hdone]
          omega
        · have hfinal : [op.frame].count .finalDone = [op].count .final := by cases op <;> rfl
          have hcount := hperm.count_eq .final
          rw [← List.singleton_append, List.count_append] at hcount
          have hsplit : (op.frame :: s.control).count .finalDone =
              [op.frame].count .finalDone + s.control.count .finalDone := by
            rw [← List.singleton_append, List.count_append]
          rw [← h.books.finals, Writable.finals, Writable.finals, ← hcount, hsplit, hfinal]
          dsimp only
          omega
      dsimp only
      split
      · exact hframe.congr (sameBooks_callUserLast _)
      · exact hframe
  · rw [Writable.complete]
    split
    · exact h.ended
    · dsimp only
      split
      · exact h.ended.congr ⟨rfl, rfl, rfl, rfl, rfl⟩
      · exact h.ended.congr ⟨rfl, rfl, rfl, rfl, rfl⟩
  · rw [Writable.complete]
    split
    · exact h.settled
    · next op hop =>
      have hpush {control : List Frame} (hsub : ∀ f ∈ s.control, f ∈ control) :
          Settled O { s with inFlight := s.inFlight.eraseIdx k, control := control } :=
        fun hw hc hn => h.settled hw hc fun hmem => hn (hsub _ hmem)
      dsimp only
      split
      · exact hpush fun f hf => List.mem_cons_of_mem _ (List.mem_cons_of_mem _ hf)
      · exact hpush fun f hf => List.mem_cons_of_mem _ hf

variable [DecidableEq ε]

lemma Ended.end_ (h : Ended s) (hb : Books s) {chunk : Option (α × ε)}
    (hopen : chunk.isSome = true → s.endedAt.isSome = true → s.writableEOF = true) :
    Ended (s.end_ O chunk) := by
  unfold Writable.end_
  have hsame {t : Writable α ε} (heof : t.writableEOF = true) (hw : t.written = s.written) :
      Ended { t with endedAt := some (s.endedAt.getD t.written.length) } := by
    refine ⟨fun _ => rfl, fun n hn => ?_, fun _ => .inl heof⟩
    cases hn
    cases hat : s.endedAt with
    | none => rfl
    | some n => simpa [hw] using h.late n hat
  dsimp only
  split
  · next heof => exact hsame heof rfl
  · next heof =>
    split
    · obtain ⟨heof', -, -, hw, -⟩ := endNow_end (O := O) s
      exact hsame heof' hw
    · next chunk encoding =>
      have hat : s.endedAt = none := by
        rw [← Option.not_isSome_iff_eq_none]
        exact fun hs => heof (hopen rfl hs)
      obtain ⟨hw, hc, he⟩ := write_written (O := O) s chunk encoding
      split
      · exact h.write (fun hs => by simp [hat] at hs) chunk encoding
      · next hne =>
        have hlen : (s.write O chunk encoding).written.length = s.written.length + 1 := by
          rcases hw with hw | ⟨c, hw⟩
          · exact absurd (by rw [hw]) hne
          · simp [hw]
        refine ⟨fun _ => rfl, fun n hn => ?_, fun _ => .inr ⟨s.written.length, by simp, ?_, ?_⟩⟩
        · cases hn
          simp [hat]
        · change s.written.length < (s.write O chunk encoding).written.length
          omega
        · change s.written.length ∉ (s.write O chunk encoding).called
          rw [hc]
          have htally := hb.tally s.written.length
          rw [if_neg (lt_irrefl _), Writable.tally] at htally
          exact List.count_eq_zero.mp (by omega)

lemma Sound.end_ (h : Sound O s) (chunk : Option (α × ε)) (hok : Orderly O s (.end_ chunk))
    (hruns : s.userRuns = true) : Sound O (s.end_ O chunk) := by
  refine ⟨h.serial.end_ chunk hok.toAlone hruns, ?_, h.ended.end_ h.books fun hc hs => ?_, ?_⟩
  · have hsame {t : Writable α ε} (ht : Books t) (n : Option Nat) (l : List Nat) :
        Books { t with endedAt := n, endCallbacks := l } :=
      ⟨ht.tally, ht.busy, ht.finals, ht.finished⟩
    unfold Writable.end_
    dsimp only
    split
    · exact hsame h.books _ _
    · split
      · exact hsame (h.books.endNow hok.noWritev) _ _
      · next chunk encoding =>
        have hwrite : Books (s.write O chunk encoding) := h.books.write chunk encoding
        split
        · exact hwrite
        · exact hsame hwrite _ _
  · cases chunk with
    | none => cases hc
    | some c => exact hok.late hruns ⟨c.1, c.2, .inr rfl⟩ hs
  · unfold Writable.end_
    dsimp only
    split
    · exact h.settled
    · split
      · exact h.settled.endNow
      · next chunk encoding =>
        have hwrite : Settled O (s.write O chunk encoding) := h.settled.write chunk encoding
        split
        · exact hwrite
        · exact hwrite

omit [DecidableEq ε] in
/-- Frames without anything to do leave the calls. -/
lemma Sound.dropFrames (h : Sound O s) {dropped control : List Frame}
    (hctl : s.control = dropped ++ control) (hd : ∀ f ∈ dropped, f = .user ∨ f = .write) :
    Sound O { s with control := control } := by
  have hids : dropped.flatMap Frame.ids = [] := by
    refine List.flatMap_eq_nil_iff.mpr fun f hf => ?_
    rcases hd f hf with rfl | rfl <;> rfl
  have hdone : dropped.countP Frame.isDone = 0 := by
    refine List.countP_eq_zero.mpr fun f hf => ?_
    rcases hd f hf with rfl | rfl <;> simp [Frame.isDone]
  have hfinal : dropped.count .finalDone = 0 :=
    List.count_eq_zero.mpr fun hf => by simpa using hd _ hf
  have hsub : control.Sublist s.control := hctl ▸ List.sublist_append_right dropped control
  refine ⟨h.serial.dropFrames hsub, h.books.congr ?_, h.ended.congr ⟨rfl, rfl, rfl, rfl, rfl⟩,
    h.settled.frames fun hmem => ?_⟩
  · constructor <;> simp [hctl, hids, hdone, hfinal]
  · rw [hctl] at hmem
    refine (List.mem_append.mp hmem).resolve_left fun hf => ?_
    simpa using hd _ hf

/-- A callback is taken from the next-tick queue, or nothing happens. -/
lemma tick_cases (s : Writable α ε) :
    (∃ id nextTicks, s.nextTicks = id :: nextTicks ∧
      s.userStep O .tick = callCallback O { s with nextTicks := nextTicks } id) ∨
      s.userStep O .tick = s := by
  unfold userStep
  dsimp only
  split
  · next id nextTicks _ hticks => exact .inl ⟨id, nextTicks, hticks, rfl⟩
  · exact .inr rfl

/-- A step keeps the accounts. -/
theorem Sound.step (h : Sound O s) {i : Input α ε} (hok : Orderly O s i) : Sound O (s.step O i) := by
  have hserial : Serial O (s.step O i) := h.serial.step hok.toAlone
  unfold Writable.step at hserial ⊢
  split
  · next hruns =>
    rw [if_pos hruns] at hserial
    -- the user code on top of the calls
    obtain ⟨dropped, hdropped, htail⟩ : ∃ dropped, (∀ f ∈ dropped, f = .user ∨ f = .write) ∧
        s.control = dropped ++ s.control.tail := by
      cases hctl : s.control with
      | nil => exact ⟨[], by simp, rfl⟩
      | cons f control =>
        have hf : f = .user := by simpa [userRuns, hctl] using hruns
        exact ⟨[f], by simp [hf], rfl⟩
    cases i with
    | write chunk encoding =>
      refine ⟨hserial, h.books.write chunk encoding, h.ended.write ?_ chunk encoding,
        h.settled.write chunk encoding⟩
      exact hok.late hruns ⟨chunk, encoding, .inl rfl⟩
    | cork =>
      exact ⟨hserial, ⟨h.books.tally, h.books.busy, h.books.finals, h.books.finished⟩,
        h.ended.congr ⟨rfl, rfl, rfl, rfl, rfl⟩, fun _ hc => by cases hc⟩
    | uncork =>
      have hbooks : Books { s with writableCorkCount := s.writableCorkCount - 1 } :=
        ⟨h.books.tally, h.books.busy, h.books.finals, h.books.finished⟩
      have hended : Ended { s with writableCorkCount := s.writableCorkCount - 1 } :=
        h.ended.congr ⟨rfl, rfl, rfl, rfl, rfl⟩
      refine ⟨hserial, ?_, ?_, ?_⟩
      all_goals
        rw [userStep]
        dsimp only
        split
      · exact hbooks.writableNext hok.noWritev
      · exact hbooks
      · exact hended.congr (sameEnd_writableNext _)
      · exact hended
      · exact settled_writableNext _
      · next hc => exact fun _ hc' => absurd hc' hc
    | end_ chunk => exact h.end_ chunk hok hruns
    | complete k err => exact h.complete k err
    | ret => exact h.dropFrames htail hdropped
    | throw =>
      have hsplit : s.control =
          (dropped ++ s.control.tail.takeWhile (· ≠ .user)) ++ unwind s.control.tail := by
        rw [List.append_assoc]
        refine htail.trans (congrArg (dropped ++ ·) ?_)
        exact (List.takeWhile_append_dropWhile).symm
      refine h.dropFrames hsplit fun f hf => ?_
      rcases List.mem_append.mp hf with hf | hf
      · exact hdropped f hf
      · exact .inr (hok.throw rfl f hf)
    | advance => exact h
    | tick =>
      rcases tick_cases (O := O) s with ⟨id, nextTicks, hticks, heq⟩ | heq
      · rw [heq] at hserial ⊢
        refine ⟨hserial, ?_, ?_, ?_⟩
        · refine Books.callCallback (s := { s with nextTicks := nextTicks }) ?_ hok.noWritev
          refine ⟨fun id' => ?_, h.books.busy, h.books.finals, h.books.finished⟩
          rw [← h.books.tally id']
          simp only [Writable.tally, hticks, List.count_append, List.count_cons, List.count_nil]
          omega
        · exact Ended.callCallback (s := { s with nextTicks := nextTicks })
            (h.ended.congr ⟨rfl, rfl, rfl, rfl, rfl⟩) id
        · exact Settled.callCallback (s := { s with nextTicks := nextTicks }) h.settled id
      · rw [heq]
        exact h
  · split
    · exact h.advance hok
    · exact h

omit [DecidableEq ε] in
lemma sound_init : Sound O (init : Writable α ε) := by
  refine ⟨serial_init, ⟨fun id => rfl, rfl, rfl, fun hfin => by cases hfin⟩, ⟨?_, ?_, ?_⟩, ?_⟩
  · simp [init]
  · simp [init]
  · simp [init]
  · exact fun _ _ _ => ⟨rfl, fun heof => by cases heof⟩

/-- No write is accepted behind `end`; a callback is called at most once, and each one has been
called when nothing is left to do; `finish` is emitted at most once, behind `end` and all writes,
and has been emitted when nothing is left to do on a stream that has been ended. -/
structure EndsOnce (O : Options α ε) (s : Writable α ε) : Prop where
  noneLate : ∀ n, s.endedAt = some n → s.written.length = n
  calledOnce : s.called.Nodup
  calledOf : ∀ id ∈ s.called, id < s.written.length
  calledAll : s.inFlight = [] → s.control = [] → s.nextTicks = [] → s.writableCorkCount = 0 →
    s.called.Perm (List.range s.written.length)
  finishOnce : s.finishes ≤ 1
  finishLast : s.finishes = 1 → s.endedAt.isSome = true ∧ s.writableBuf = [] ∧
    s.inFlight.countP Op.isWrite = 0
  finishAll : s.inFlight = [] → s.control = [] → s.nextTicks = [] → s.writableCorkCount = 0 →
    s.endedAt.isSome = true → O.noUncorkOnEnd = false → s.finishes = 1

omit [DecidableEq ε] in
lemma Sound.endsOnce (h : Sound O s) : EndsOnce O s := by
  have hcalled (id : Nat) : s.called.count id ≤ if id < s.written.length then 1 else 0 := by
    rw [← h.books.tally id, Writable.tally]
    omega
  -- nothing under way: the stream is not writing, and the buffer is empty
  have hidle (hfl : s.inFlight = []) (hctl : s.control = []) (hcork : s.writableCorkCount = 0) :
      s.writableBuf = [] ∧ (s.writableEOF = true → s.finished = true ∨ O.noUncorkOnEnd = true) := by
    have hw : s.writableWriting = false := by
      have hb := h.books.busy
      by_contra hn
      rw [Bool.not_eq_false] at hn
      simp [Writable.busy, hfl, hctl, hn] at hb
    exact h.settled hw hcork (by simp [hctl])
  have hall (hfl : s.inFlight = []) (hctl : s.control = []) (hticks : s.nextTicks = [])
      (hcork : s.writableCorkCount = 0) (id : Nat) :
      s.called.count id = if id < s.written.length then 1 else 0 := by
    rw [← h.books.tally id, Writable.tally, hfl, hctl, hticks, (hidle hfl hctl hcork).1]
    simp
  have hfinals : s.finishes ≤ if s.finished then 1 else 0 := by
    rw [← h.books.finals, Writable.finals]
    omega
  refine ⟨h.ended.late, ?_, fun id hid => ?_, fun hfl hctl hticks hcork => ?_, ?_, fun hfin => ?_,
    fun hfl hctl hticks hcork hend hno => ?_⟩
  · refine List.nodup_iff_count_le_one.mpr fun id => (hcalled id).trans ?_
    split
    · exact le_rfl
    · exact Nat.zero_le 1
  · by_contra hlt
    have hzero := hcalled id
    rw [if_neg hlt] at hzero
    exact absurd (List.count_pos_iff.mpr hid) (by omega)
  · refine List.perm_iff_count.mpr fun id => ?_
    rw [hall hfl hctl hticks hcork id, List.count_range]
  · refine hfinals.trans ?_
    split
    · exact le_rfl
    · exact Nat.zero_le 1
  · have hfinished : s.finished = true := by
      by_contra hn
      rw [if_neg hn] at hfinals
      omega
    obtain ⟨heof, hbuf, hw⟩ := h.books.finished hfinished
    refine ⟨h.ended.eof (.inl heof), hbuf, ?_⟩
    have hb := h.books.busy
    rw [hw, Writable.busy] at hb
    simp only [Bool.false_eq_true, if_false] at hb
    omega
  · have heof : s.writableEOF = true := by
      refine (h.ended.pending hend).resolve_right ?_
      rintro ⟨id, -, hlt, hnot⟩
      have hone := hall hfl hctl hticks hcork id
      rw [if_pos hlt, List.count_eq_zero.mpr hnot] at hone
      omega
    have hfinished : s.finished = true :=
      ((hidle hfl hctl hcork).2 heof).resolve_right (by simp [hno])
    have hf := h.books.finals
    rw [Writable.finals, hfl, hctl, hfinished] at hf
    simpa using hf

/-- A chunk is given to `end`, and another one is written before its callback. -/
def writeBehindEnd : List (Input Nat Nat) := [.end_ (some (0, 0)), .ret, .advance, .write 1 0]

end Writable

end LowJs.Stream
