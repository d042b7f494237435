import LowJs.Stream.Readable

/-!
# The order of the data

A stream delivers what it has got in its order, and `end` behind it, as long as nothing is pushed
into a flowing stream whose buffer is not empty: `push` hands data and the end of a flowing stream
to the listeners at once, whatever waits in the buffer.
-/

namespace LowJs.Stream

namespace Readable

variable {β : Type*} {O : Options β} {s t : Readable β}

/-- The events deliver the data in its order, with unshifted data first, and leave `rest` to be
delivered; `end` comes when nothing is left, and no data behind it. -/
inductive Delivers : List (Event β) → List β → Prop
  | nil : Delivers [] []
  | pushed {l : List (Event β)} {rest : List β} (data : List β) :
    Delivers l rest → .ended ∉ l → Delivers (l ++ [.pushed data]) (rest ++ data)
  | unshifted {l : List (Event β)} {rest : List β} (data : List β) :
    Delivers l rest → .ended ∉ l → Delivers (l ++ [.unshifted data]) (data ++ rest)
  | delivered {l : List (Event β)} {data rest : List β} :
    Delivers l (data ++ rest) → Delivers (l ++ [.delivered data]) rest
  | ended {l : List (Event β)} : Delivers l [] → Delivers (l ++ [.ended]) []

def Event.isEnd : Event β → Bool
  | .ended => true
  | _ => false

def Frame.isLoop : Frame β → Bool
  | .resumeLoop => true
  | _ => false

/-- The data is in order, `end` has been emitted if the stream is finished, and a flowing stream that
has got its end is in the loop of `resume` until it is finished. -/
structure Faithful (s : Readable β) : Prop where
  data : Delivers s.log s.readableBuf.flatten
  ended : s.log.countP Event.isEnd = if s.finished then 1 else 0
  eof : s.finished = true → s.readableEOF = true
  loop : s.readableFlowing = some true → s.readableEOF = true → s.finished = false →
    ∃ f ∈ s.control, Frame.isLoop f = true

lemma Faithful.ended_notMem (h : Faithful s) (hfin : s.finished = false) : .ended ∉ s.log := by
  intro hmem
  have hcount := h.ended
  rw [hfin] at hcount
  have hpos : 0 < s.log.countP Event.isEnd := List.countP_pos_iff.mpr ⟨_, hmem, rfl⟩
  simp [hcount] at hpos

/-- Nothing that matters for the data changes. -/
structure SameData (s t : Readable β) : Prop where
  log : t.log = s.log
  buf : t.readableBuf = s.readableBuf
  finished : t.finished = s.finished
  eof : t.readableEOF = s.readableEOF
  flowing : t.readableFlowing = s.readableFlowing
  loop : (∃ f ∈ s.control, Frame.isLoop f = true) → ∃ f ∈ t.control, Frame.isLoop f = true

lemma Faithful.congr (h : Faithful s) (hst : SameData s t) : Faithful t := by
  refine ⟨?_, ?_, ?_, fun hf he hn => ?_⟩
  · rw [hst.log, hst.buf]
    exact h.data
  · rw [hst.log, hst.finished]
    exact h.ended
  · rw [hst.finished, hst.eof]
    exact h.eof
  · rw [hst.flowing] at hf
    rw [hst.eof] at he
    rw [hst.finished] at hn
    exact hst.loop (h.loop hf he hn)

lemma sameData_callUser (s : Readable β) (f : Frame β) : SameData s (s.callUser f) := by
  refine ⟨rfl, rfl, rfl, rfl, rfl, ?_⟩
  rintro ⟨g, hg, hl⟩
  exact ⟨g, List.mem_cons_of_mem _ (List.mem_cons_of_mem _ hg), hl⟩

lemma sameData_considerRead (s : Readable β) : SameData s (s.considerRead O) := by
  unfold considerRead
  split
  · exact ⟨rfl, rfl, rfl, rfl, rfl, fun h => h⟩
  · exact ⟨rfl, rfl, rfl, rfl, rfl, fun h => h⟩

/-! ### Reading -/

/-- The bytes come from the front of the buffer. -/
lemma takeBytes_append (len : Nat) (buf : List (List β)) :
    (takeBytes len buf).1 ++ (takeBytes len buf).2.flatten = buf.flatten := by
  induction buf generalizing len with
  | nil => cases len <;> rfl
  | cons chunk rest ih =>
    cases len with
    | zero => rfl
    | succ len =>
      rw [takeBytes.eq_3 _ _ _ (Nat.succ_ne_zero len)]
      split
      · rw [List.flatten_cons, List.flatten_cons, ← List.append_assoc, List.take_append_drop]
      · rw [List.flatten_cons, List.append_assoc, ih]

lemma read_append (s : Readable β) (len : Option Nat) :
    (s.read O len).1 ++ (s.read O len).2.readableBuf.flatten = s.readableBuf.flatten ∧
      (s.read O len).2.log = s.log ∧ (s.read O len).2.finished = s.finished ∧
      (s.read O len).2.readableEOF = s.readableEOF ∧
      (s.read O len).2.readableFlowing = s.readableFlowing ∧
      (s.read O len).2.control = s.control := by
  have hconsider (t : Readable β) : (t.considerRead O).readableBuf = t.readableBuf ∧
      (t.considerRead O).log = t.log ∧ (t.considerRead O).finished = t.finished ∧
      (t.considerRead O).readableEOF = t.readableEOF ∧
      (t.considerRead O).readableFlowing = t.readableFlowing ∧
      (t.considerRead O).control = t.control := by
    unfold considerRead
    split
    · exact ⟨rfl, rfl, rfl, rfl, rfl, rfl⟩
    · exact ⟨rfl, rfl, rfl, rfl, rfl, rfl⟩
  unfold read
  split
  · exact ⟨rfl, rfl, rfl, rfl, rfl, rfl⟩
  · next len' _ =>
    obtain ⟨hbuf, hrest⟩ := hconsider { s with
      readableLength := s.readableLength - len'
      readableBuf := (if O.objectMode then (s.readableBuf.headD [], s.readableBuf.tail)
        else takeBytes len'.toNat s.readableBuf).2 }
    refine ⟨?_, hrest⟩
    dsimp only
    rw [hbuf]
    split
    · cases s.readableBuf with
      | nil => rfl
      | cons chunk rest => rfl
    · exact takeBytes_append _ _

/-- What `read` takes is delivered. -/
lemma Faithful.read (h : Faithful s) (len : Option Nat) :
    Faithful ((s.read O len).2.emit (.delivered (s.read O len).1)) := by
  obtain ⟨happend, hlog, hfin, heof, hflow, hctl⟩ := read_append (O := O) s len
  refine ⟨?_, ?_, ?_, ?_⟩
  · refine .delivered ?_
    change Delivers (s.read O len).2.log
      ((s.read O len).1 ++ (s.read O len).2.readableBuf.flatten)
    rw [hlog, happend]
    exact h.data
  · simp only [emit, hlog, List.countP_append, hfin]
    exact h.ended
  · simp only [emit, hfin, heof]
    exact h.eof
  · simp only [emit, hflow, heof, hfin, hctl]
    exact h.loop

/-! ### The steps -/

/-- `push` does not ignore the chunk. -/
def Takes (O : Options β) (chunk : Option (List β)) : Prop :=
  O.objectMode = true ∨ chunk ≠ some []

/-- When `push` takes a chunk the stream is not finished, and not flowing with data in its buffer;
an exception does not leave the loop of `resume`. -/
structure Plain (O : Options β) (s : Readable β) (i : Input β) : Prop where
  notFinished : ∀ chunk control, s.control = .pushBody chunk :: control → Takes O chunk →
    s.finished = false
  push : ∀ chunk control, s.control = .pushBody chunk :: control → Takes O chunk →
    s.readableFlowing = some true → s.readableBuf = []
  throw : i = .throw → ∀ f ∈ s.control.tail.takeWhile Frame.isMethod, Frame.isLoop f = false

lemma Faithful.end_ (h : Faithful s) (hbuf : s.readableBuf = []) (hfin : s.finished = false)
    (heof : s.readableEOF = true) : Faithful (emit { s with finished := true } .ended) := by
  have hdata := h.data
  rw [hbuf] at hdata
  have hended := h.ended
  rw [hfin] at hended
  refine ⟨?_, ?_, fun _ => heof, fun _ _ hn => by cases hn⟩
  · change Delivers (s.log ++ [.ended]) s.readableBuf.flatten
    rw [hbuf]
    exact .ended hdata
  · change (s.log ++ [Event.ended]).countP Event.isEnd = 1
    rw [List.countP_append, hended]
    rfl

lemma Faithful.pushBody (h : Faithful s) {chunk : Option (List β)}
    (hfin : Takes O chunk → s.finished = false)
    (hbuf : Takes O chunk → s.readableFlowing = some true → s.readableBuf = []) :
    Faithful (s.pushBody O chunk) := by
  unfold Readable.pushBody
  split
  · replace hfin := hfin (.inr (by simp))
    replace hbuf := hbuf (.inr (by simp))
    dsimp only
    split
    · next hflow =>
      have hend : Faithful (emit { s with finished := true, readableEOF := true } .ended) := by
        have hd := h.data
        rw [hbuf hflow] at hd
        refine ⟨?_, ?_, fun _ => rfl, fun _ _ hn => by cases hn⟩
        · change Delivers (s.log ++ [.ended]) s.readableBuf.flatten
          rw [hbuf hflow]
          exact .ended hd
        · change (s.log ++ [Event.ended]).countP Event.isEnd = 1
          rw [List.countP_append, h.ended, hfin]
          rfl
      exact hend.congr (sameData_callUser _ _)
    · next hflow =>
      refine Faithful.congr (s := { s with readableEOF := true }) ⟨h.data, h.ended, fun _ => rfl, ?_⟩
        (sameData_callUser _ _)
      exact fun hf => absurd hf hflow
  · next data =>
    split
    · next htakes =>
      replace hfin := hfin (by simpa [Takes] using htakes)
      replace hbuf := hbuf (by simpa [Takes] using htakes)
      have hopen := h.ended_notMem hfin
      dsimp only
      split
      · next hflow =>
        refine Faithful.congr (s := (s.emit (.pushed (O.convert data))).emit
          (.delivered (O.convert data))) ⟨?_, ?_, h.eof, h.loop⟩ (sameData_callUser _ _)
        · have hd := h.data
          rw [hbuf hflow] at hd
          change Delivers ((s.log ++ [.pushed _]) ++ [.delivered _]) s.readableBuf.flatten
          rw [hbuf hflow]
          refine .delivered ?_
          have hp := hd.pushed (O.convert data) hopen
          simpa using hp
        · simp only [emit, List.countP_append, h.ended]
          rfl
      · refine Faithful.congr (s := { s.emit (.pushed (O.convert data)) with
          readableBuf := s.readableBuf ++ [O.convert data]
          readableLength := s.readableLength + size O (O.convert data) })
          ⟨?_, ?_, h.eof, h.loop⟩ (sameData_callUser _ _)
        · have hp := h.data.pushed (O.convert data) hopen
          simpa [emit] using hp
        · simp only [emit, List.countP_append, h.ended]
          rfl
    · refine h.congr ⟨rfl, rfl, rfl, rfl, rfl, ?_⟩
      rintro ⟨f, hf, hl⟩
      exact ⟨f, List.mem_cons_of_mem _ hf, hl⟩

/-- A frame that is not the loop leaves the calls. -/
lemma Faithful.pop (h : Faithful s) {f : Frame β} {control : List (Frame β)}
    (hctl : s.control = f :: control) (hf : Frame.isLoop f = false) :
    Faithful { s with control := control } := by
  refine h.congr ⟨rfl, rfl, rfl, rfl, rfl, ?_⟩
  rintro ⟨g, hg, hl⟩
  rw [hctl] at hg
  rcases List.mem_cons.mp hg with rfl | hg
  · simp [hf] at hl
  · exact ⟨g, hg, hl⟩

lemma Faithful.resumeLoop (h : Faithful s) (control : List (Frame β)) :
    Faithful (resumeLoop O { s with control := control }) := by
  unfold Readable.resumeLoop
  split
  · -- the loop goes on behind the listeners
    obtain ⟨happend, hlog, hfin, heof, -, -⟩ :=
      read_append (O := O) { s with control := control } none
    dsimp only
    refine ⟨.delivered ?_, ?_, ?_, fun _ _ _ => ⟨.resumeLoop, ?_, rfl⟩⟩
    · rw [hlog]
      exact happend ▸ h.data
    · simp only [callUser, emit, hlog, List.countP_append, hfin]
      exact h.ended
    · simp only [callUser, emit, hfin, heof]
      exact h.eof
    · exact List.mem_cons_of_mem _ List.mem_cons_self
  · next hgo =>
    split
    · next hend =>
      have hbuf : s.readableBuf = [] := by
        by_contra hne
        exact hgo ⟨hend.1, hne⟩
      have he := h.end_ hbuf (by simpa using hend.2.2) hend.2.1
      exact ⟨he.data, he.ended, he.eof, fun _ _ hn => by cases hn⟩
    · next hend =>
      refine ⟨h.data, h.ended, h.eof, fun hf he hn => ?_⟩
      exact absurd ⟨hf, he, by simpa using hn⟩ hend

lemma Faithful.advance (h : Faithful s) {i : Input β} (hok : Plain O s i) :
    Faithful (s.advance O) := by
  unfold Readable.advance
  split
  · next chunk control hctl =>
    exact (h.pop hctl rfl).pushBody (hok.notFinished chunk control hctl) (hok.push chunk control hctl)
  · next control hctl =>
    have hpop := h.pop hctl rfl
    exact Faithful.congr (s := { s with control := control, readableReading := false })
      ⟨hpop.data, hpop.ended, hpop.eof, hpop.loop⟩ (sameData_considerRead _)
  · exact ⟨h.data, h.ended, h.eof, fun _ _ _ => ⟨.resumeLoop, List.mem_cons_self, rfl⟩⟩
  · exact h.resumeLoop _
  · next control hctl =>
    have hpop := h.pop hctl rfl
    exact ⟨hpop.data, hpop.ended, hpop.eof, hpop.loop⟩
  · next control hctl =>
    exact Faithful.congr (s := { s with control := control, readableFlowing := some false })
      ⟨h.data, h.ended, h.eof, fun hf => by cases hf⟩ (sameData_considerRead _)
  · next first control hctl => exact (h.pop hctl rfl).congr (sameData_callUser _ _)
  · next first control hctl =>
    split
    · exact (h.pop hctl rfl).congr (sameData_callUser _ _)
    · exact h.pop hctl rfl
  · exact h

lemma Faithful.onData (h : Faithful s) : Faithful s.onData := by
  unfold Readable.onData
  split
  · exact h.congr (sameData_callUser _ _)
  · exact h

/-- A step keeps the data in order. -/
theorem Faithful.step (h : Faithful s) {i : Input β} (hok : Plain O s i) : Faithful (s.step O i) := by
  unfold Readable.step
  split
  · next hruns =>
    have htop : ∀ f ∈ s.control, f ∉ s.control.tail → Frame.isLoop f = false := by
      intro f hf hn
      cases hctl : s.control with
      | nil => simp [hctl] at hf
      | cons g control =>
        rw [hctl] at hf hn
        rcases List.mem_cons.mp hf with rfl | hf
        · cases f with
          | user => rfl
          | _ => simp [userRuns, hctl] at hruns
        · exact absurd hf hn
    have htail {f : Frame β} (hf : f ∈ s.control) (hl : Frame.isLoop f = true) :
        f ∈ s.control.tail := by
      by_contra hn
      simp [htop f hf hn] at hl
    cases i with
    | push chunk =>
      unfold userStep Readable.push
      dsimp only
      split
      · exact ⟨h.data, h.ended, h.eof, h.loop⟩
      · exact h.congr (sameData_callUser _ _)
    | unshift chunk =>
      unfold userStep Readable.unshift
      dsimp only
      split
      · exact h
      · next hfin =>
        refine ⟨?_, ?_, h.eof, h.loop⟩
        · have hd := h.data.unshifted (O.convert chunk) (h.ended_notMem (by simpa using hfin))
          simpa [emit] using hd
        · simp only [emit, List.countP_append, h.ended]
          rfl
    | read len => exact h.read len
    | pause => exact h.congr (sameData_callUser _ _)
    | resume => exact h.congr (sameData_callUser _ _)
    | onData => exact h.onData
    | pipe first =>
      refine Faithful.onData (h.congr ⟨rfl, rfl, rfl, rfl, rfl, ?_⟩)
      rintro ⟨f, hf, hl⟩
      exact ⟨f, List.mem_cons_of_mem _ hf, hl⟩
    | ret =>
      refine h.congr ⟨rfl, rfl, rfl, rfl, rfl, ?_⟩
      rintro ⟨f, hf, hl⟩
      exact ⟨f, htail hf hl, hl⟩
    | throw =>
      refine h.congr ⟨rfl, rfl, rfl, rfl, rfl, ?_⟩
      rintro ⟨f, hf, hl⟩
      refine ⟨f, ?_, hl⟩
      have hmem := htail hf hl
      rw [← List.takeWhile_append_dropWhile (p := Frame.isMethod) (l := s.control.tail)] at hmem
      refine (List.mem_append.mp hmem).resolve_left fun hn => ?_
      simp [hok.throw rfl f hn] at hl
    | advance => exact h
    | immediate =>
      unfold userStep
      dsimp only
      split
      · split
        · unfold reconsiderRead
          dsimp only
          split
          · refine h.congr ⟨rfl, rfl, rfl, rfl, rfl, ?_⟩
            rintro ⟨f, hf, hl⟩
            exact ⟨f, List.mem_cons_of_mem _ hf, hl⟩
          · exact ⟨h.data, h.ended, h.eof, h.loop⟩
        · exact h
      · exact h
  · split
    · exact h.advance hok
    · exact h

lemma faithful_init : Faithful (init : Readable β) :=
  ⟨.nil, rfl, by simp [init], by simp [init]⟩

/-- A stream of bytes. -/
def bytes : Options Nat := ⟨false, 16, id⟩

/-- What an event does to the data that is left to be delivered. -/
def Event.Moves : Event β → List β → List β → Prop
  | .pushed data, before, rest => rest = before ++ data
  | .unshifted data, before, rest => rest = data ++ before
  | .delivered data, before, rest => before = data ++ rest
  | .ended, before, rest => before = [] ∧ rest = []

lemma Delivers.last {l : List (Event β)} {e : Event β} {rest : List β}
    (h : Delivers (l ++ [e]) rest) : ∃ before, Delivers l before ∧ e.Moves before rest := by
  generalize hl : l ++ [e] = l' at h
  cases h with
  | nil => simp at hl
  | pushed data h _ =>
    obtain ⟨rfl, he⟩ := List.append_inj' hl rfl
    cases he
    exact ⟨_, h, rfl⟩
  | unshifted data h _ =>
    obtain ⟨rfl, he⟩ := List.append_inj' hl rfl
    cases he
    exact ⟨_, h, rfl⟩
  | delivered h =>
    obtain ⟨rfl, he⟩ := List.append_inj' hl rfl
    cases he
    exact ⟨_, h, rfl⟩
  | ended h =>
    obtain ⟨rfl, he⟩ := List.append_inj' hl rfl
    cases he
    exact ⟨_, h, rfl, rfl⟩

/-- A chunk is unshifted into a flowing stream, and then another one pushed. -/
def unshiftFlowing : List (Input Nat) :=
  [.resume, .ret, .advance, .advance, .advance, .unshift [1], .push (some [2]), .ret, .advance]

end Readable

end LowJs.Stream
