import LowJs.Stream.Transform
import LowJs.Stream.ReadOrder

/-!
# The end of a transform

Nothing in `Transform` pushes `null`: the readable side of a transform whose user code does not do it
never ends, whatever has been written and read.
-/

namespace LowJs.Stream

variable {β ε : Type*}

namespace Readable

variable {O : Options β} {s : Readable β}

/-- No end has been pushed, and none is on its way. -/
structure NoEnd (s : Readable β) : Prop where
  eof : s.readableEOF = false
  log : .ended ∉ s.log
  control : .pushBody none ∉ s.control

lemma NoEnd.emit (h : NoEnd s) {e : Event β} (he : e ≠ .ended) : NoEnd (s.emit e) := by
  refine ⟨h.eof, fun hmem => ?_, h.control⟩
  rcases List.mem_append.mp hmem with hlog | hnew
  · exact h.log hlog
  · exact he (List.mem_singleton.mp hnew).symm

lemma NoEnd.callUser (h : NoEnd s) {f : Frame β} (hf : f ≠ .pushBody none) :
    NoEnd (s.callUser f) := by
  refine ⟨h.eof, h.log, fun hmem => ?_⟩
  rcases List.mem_cons.mp hmem with hu | hmem
  · cases hu
  · rcases List.mem_cons.mp hmem with hf' | hctl
    · exact hf hf'.symm
    · exact h.control hctl

lemma NoEnd.considerRead (h : NoEnd s) : NoEnd (s.considerRead O) := by
  rw [Readable.considerRead]
  split
  · exact ⟨h.eof, h.log, h.control⟩
  · exact h

lemma NoEnd.read (h : NoEnd s) (len : Option Nat) : NoEnd (s.read O len).2 := by
  obtain ⟨-, hlog, -, heof, -, hctl⟩ := read_append (O := O) s len
  exact ⟨heof ▸ h.eof, hlog ▸ h.log, hctl ▸ h.control⟩

lemma NoEnd.pop (h : NoEnd s) {f : Frame β} {control : List (Frame β)}
    (hctl : s.control = f :: control) : NoEnd { s with control := control } :=
  ⟨h.eof, h.log, fun hmem => h.control (hctl ▸ List.mem_cons_of_mem _ hmem)⟩

lemma NoEnd.pushBody (h : NoEnd s) (data : List β) : NoEnd (s.pushBody O (some data)) := by
  rw [Readable.pushBody]
  dsimp only
  split
  · have hpushed := h.emit (e := .pushed (O.convert data)) (by simp)
    split
    · exact (hpushed.emit (e := .delivered (O.convert data)) (by simp)).callUser (by simp)
    · refine NoEnd.callUser ?_ (by simp)
      exact ⟨hpushed.eof, hpushed.log, hpushed.control⟩
  · refine ⟨h.eof, h.log, fun hmem => ?_⟩
    rcases List.mem_cons.mp hmem with hf | hctl
    · cases hf
    · exact h.control hctl

lemma NoEnd.resumeLoop (h : NoEnd s) : NoEnd (s.resumeLoop O) := by
  rw [Readable.resumeLoop]
  split
  · exact ((h.read none).emit (by simp)).callUser (by simp)
  · split
    · next hend =>
      have heof : s.readableEOF = true := hend.2.1
      simp [h.eof] at heof
    · refine ⟨h.eof, h.log, fun hmem => ?_⟩
      rcases List.mem_cons.mp hmem with hf | hctl
      · cases hf
      · exact h.control hctl

lemma NoEnd.advance (h : NoEnd s) : NoEnd (s.advance O) := by
  rw [Readable.advance]
  split
  · next chunk control hctl =>
    cases chunk with
    | none => exact absurd (hctl ▸ List.mem_cons_self) h.control
    | some data => exact (h.pop hctl).pushBody data
  · next control hctl =>
    have hpop := h.pop hctl
    exact NoEnd.considerRead ⟨hpop.eof, hpop.log, hpop.control⟩
  · next control hctl =>
    refine ⟨h.eof, h.log, fun hmem => ?_⟩
    rcases List.mem_cons.mp hmem with hf | hmem
    · cases hf
    · exact (h.pop hctl).control hmem
  · next control hctl => exact (h.pop hctl).resumeLoop
  · next control hctl =>
    have hpop := h.pop hctl
    exact ⟨hpop.eof, hpop.log, hpop.control⟩
  · next control hctl =>
    have hpop := h.pop hctl
    exact NoEnd.considerRead ⟨hpop.eof, hpop.log, hpop.control⟩
  · next first control hctl => exact (h.pop hctl).callUser (by simp)
  · next first control hctl =>
    split
    · exact (h.pop hctl).callUser (by simp)
    · exact h.pop hctl
  · exact h

lemma NoEnd.push (h : NoEnd s) (data : List β) : NoEnd (s.push (some data)) := by
  rw [Readable.push]
  split
  · exact ⟨h.eof, h.log, h.control⟩
  · exact h.callUser (by simp)

lemma NoEnd.onData (h : NoEnd s) : NoEnd s.onData := by
  rw [Readable.onData]
  split
  · exact h.callUser (by simp)
  · exact h

lemma NoEnd.unshift (h : NoEnd s) (chunk : List β) : NoEnd (s.unshift O chunk) := by
  rw [Readable.unshift]
  split
  · exact h
  · refine NoEnd.emit ?_ (by simp)
    exact ⟨h.eof, h.log, h.control⟩

lemma NoEnd.pipe (h : NoEnd s) (first : Bool) : NoEnd (s.userStep O (.pipe first)) := by
  refine NoEnd.onData ⟨h.eof, h.log, fun hmem => ?_⟩
  rcases List.mem_cons.mp hmem with hf | hctl
  · cases hf
  · exact h.control hctl

end Readable

namespace Transform

variable {O : Options β ε} {s : Transform β ε}

/-- The readable side has got no end, and none is on its way. -/
structure Endless (s : Transform β ε) : Prop where
  readable : s.readable.NoEnd
  control : .readable (.pushBody none) ∉ s.control

/-- The readable side is left alone. -/
lemma Endless.congr (h : Endless s) {t : Transform β ε} (hr : t.readable = s.readable)
    (hctl : .readable (.pushBody none) ∉ t.control) : Endless t :=
  ⟨hr ▸ h.readable, hctl⟩

lemma Endless.cons (h : Endless s) {f : Frame β} (hf : f ≠ .readable (.pushBody none)) :
    .readable (.pushBody none) ∉ f :: s.control := by
  intro hmem
  rcases List.mem_cons.mp hmem with hf' | hctl
  · exact hf hf'.symm
  · exact h.control hctl

lemma Endless.onReadable (h : Endless s) {f : Readable β → Readable β}
    (hf : ∀ r, r.NoEnd → (f r).NoEnd) : Endless (s.onReadable f) := by
  have hr := hf { s.readable with control := [] } ⟨h.readable.eof, h.readable.log, by simp⟩
  refine ⟨⟨hr.eof, hr.log, by simp [Transform.onReadable]⟩, fun hmem => ?_⟩
  rcases List.mem_append.mp hmem with hnew | hctl
  · obtain ⟨g, hg, hgf⟩ := List.mem_map.mp hnew
    cases g with
    | pushBody chunk =>
      cases hgf
      exact hr.control hg
    | _ => cases hgf
  · exact h.control hctl

lemma Endless.onWritable (h : Endless s)
    (f : Writable (List β) ε → Writable (List β) ε) : Endless (s.onWritable f) := by
  have hwritable (l : List Stream.Frame) :
      .readable (.pushBody none) ∉ l.map (Frame.ofWritable : Stream.Frame → Frame β) := by
    intro hmem
    obtain ⟨g, -, hg⟩ := List.mem_map.mp hmem
    cases g with
    | _ => cases hg
  refine h.congr rfl fun hmem => ?_
  rcases List.mem_append.mp hmem with hnew | hctl
  · split at hnew
    · rcases List.mem_cons.mp hnew with hg | hnew
      · cases hg
      · exact hwritable _ hnew
    · exact hwritable _ hnew
  · exact h.control hctl

lemma Endless.transform (h : Endless s) (chunk : List β) : Endless (s.transform O chunk) := by
  rw [Transform.transform]
  split
  · exact ⟨h.readable, h.control⟩
  · exact ⟨h.readable, h.cons (by simp)⟩

lemma Endless.read (h : Endless s) : Endless (s.read O) := by
  rw [Transform.read]
  split
  · split
    · exact Endless.transform (s := { s with transforming := true }) ⟨h.readable, h.control⟩ _
    · exact ⟨h.readable, h.control⟩
  · exact ⟨h.readable, h.control⟩

lemma Endless.start (h : Endless s) (op : Op) : Endless (s.start O op) := by
  have hwrite (e : List β) : Endless (s.write O e op) := by
    unfold Transform.write
    dsimp only
    split
    · exact Endless.read ⟨h.readable, h.control⟩
    · exact ⟨h.readable, h.control⟩
  unfold Transform.start
  split
  · unfold Transform.final
    split
    · exact ⟨h.readable, h.cons (by simp)⟩
    · exact ⟨h.readable, h.control⟩
  · exact hwrite _
  · exact h

lemma Endless.transformCalled (h : Endless s) (chunk : List β) (err : Bool) :
    Endless (s.transformCalled (some (some chunk)) err) :=
  Endless.onReadable (s := { s with control := .transformed err :: s.control })
    ⟨h.readable, h.cons (by simp)⟩ fun _ hr => hr.push chunk

lemma Endless.transformed (h : Endless s) (err : Bool) : Endless (s.transformed err) := by
  rw [Transform.transformed]
  dsimp only
  split
  · refine Endless.onWritable (s := { s with transforming := false, transformChunk := none }) ?_ _
    exact ⟨h.readable, h.control⟩
  · exact ⟨h.readable, h.control⟩

lemma Endless.pop (h : Endless s) {f : Frame β} {control : List (Frame β)}
    (hctl : s.control = f :: control) : Endless { s with control := control } :=
  ⟨h.readable, fun hmem => h.control (hctl ▸ List.mem_cons_of_mem _ hmem)⟩

lemma Endless.advance (h : Endless s) : Endless (s.advance O) := by
  rw [Transform.advance]
  split
  · next f control hctl =>
    refine (h.pop hctl).onReadable fun r hr => Readable.NoEnd.advance ⟨hr.eof, hr.log, ?_⟩
    intro hmem
    obtain rfl := List.mem_singleton.mp hmem
    exact h.control (hctl ▸ List.mem_cons_self)
  · next f control hctl => exact (h.pop hctl).onWritable _
  · next control hctl => exact (h.pop hctl).read
  · next op control hctl => exact (h.pop hctl).start op
  · next err control hctl => exact (h.pop hctl).transformed err
  · exact h

lemma Endless.runTick (h : Endless s) (tick : Tick β) : Endless (runTick O s tick) := by
  unfold Transform.runTick
  cases tick with
  | write id => exact h.onWritable _
  | transform chunk => exact h.transformCalled chunk false
  | final => exact h.onWritable _

/-- User code hands its input to the callback of `_transform`, and pushes no end. -/
structure HandsOver (s : Transform β ε) (i : Input β ε) : Prop where
  push : i ≠ .push none
  transformed : ∀ k data err, i = .transformed k data err → k < s.callbacks.length →
    data = (s.callbacks[k]?).map some

variable [DecidableEq ε]

lemma Endless.userStep (h : Endless s) {i : Input β ε} (hok : HandsOver s i) :
    Endless (s.userStep O i) := by
  unfold Transform.userStep
  cases i with
  | write chunk encoding => exact h.onWritable _
  | cork => exact h.onWritable _
  | uncork => exact h.onWritable _
  | end_ chunk => exact h.onWritable _
  | push chunk =>
    cases chunk with
    | none => exact absurd rfl hok.push
    | some data => exact h.onReadable fun _ hr => hr.push data
  | unshift chunk => exact h.onReadable fun _ hr => hr.unshift chunk
  | read len => exact h.onReadable fun _ hr => (hr.read len).emit (by simp)
  | pause => exact h.onReadable fun _ hr => hr.callUser (by simp)
  | resume => exact h.onReadable fun _ hr => hr.callUser (by simp)
  | onData => exact h.onReadable fun _ hr => hr.onData
  | pipe first => exact h.onReadable fun _ hr => hr.pipe first
  | transformed k data err =>
    dsimp only
    split
    · next hk =>
      have hdata := hok.transformed k data err rfl hk
      rw [List.getElem?_eq_getElem hk] at hdata
      subst hdata
      exact Endless.transformCalled (s := { s with callbacks := s.callbacks.eraseIdx k })
        ⟨h.readable, h.control⟩ _ err
    · exact h
  | flushed err =>
    dsimp only
    split
    · exact h.onWritable _
    · exact h
  | ret => exact h.congr rfl fun hmem => h.control (List.mem_of_mem_tail hmem)
  | throw =>
    refine h.congr rfl fun hmem => h.control ?_
    exact List.mem_of_mem_tail ((List.dropWhile_sublist _).subset hmem)
  | advance => exact h
  | immediate =>
    dsimp only
    split
    · split
      · have hr : (s.readable.reconsiderRead O.readable).readableEOF = s.readable.readableEOF ∧
            (s.readable.reconsiderRead O.readable).log = s.readable.log := by
          unfold Readable.reconsiderRead
          dsimp only
          split
          · exact ⟨rfl, rfl⟩
          · exact ⟨rfl, rfl⟩
        refine ⟨⟨hr.1 ▸ h.readable.eof, hr.2 ▸ h.readable.log, by simp⟩, ?_⟩
        simp
      · exact h
    · exact h
  | tick =>
    dsimp only
    split
    · next tick nextTicks _ _ =>
      exact Endless.runTick (s := { s with nextTicks := nextTicks }) ⟨h.readable, h.control⟩ tick
    · exact h

lemma Endless.step (h : Endless s) {i : Input β ε} (hok : HandsOver s i) :
    Endless (s.step O i) := by
  unfold Transform.step
  split
  · exact h.userStep hok
  · split
    · exact h.advance
    · exact h

/-- The readable side has delivered the chunks that have been written, and its end; the writable side
has finished. -/
structure PassesThrough (O : Options β ε) (s : Transform β ε) : Prop where
  data : (s.readable.log.flatMap fun
    | .delivered data => data
    | _ => []) = (s.writable.written.map O.readable.convert).flatten
  ended : .ended ∈ s.readable.log
  finish : s.writable.finishes = 1

/-- A `PassThrough` for bytes. -/
def passThrough : Options Nat Unit where
  readable := Readable.bytes
  objectMode := false
  highWaterMark := 16
  length := List.length
  concat := fun a b => some (a ++ b)
  decode := fun chunk _ => chunk
  truthy := fun _ => true
  passThrough := true
  hasFlush := false

/-- A chunk is written to a flowing stream, and `end` called when it has passed. -/
def oneChunk : List (Input Nat Unit) :=
  [.resume, .ret, .advance, .advance, .advance, .immediate, .advance, .write [7] (), .advance,
    .advance, .tick, .ret, .advance, .ret, .advance, .advance, .advance, .advance, .end_ none,
    .advance, .tick, .advance, .ret, .tick, .ret, .immediate, .advance]

end Transform

end LowJs.Stream
