import LowJs.Core.Prefixes

/-!
# Write streams of files

The class `WriteStream` of fs.js on top of the class `Writable` of stream.js, with the file below. A write
in front of the end of `open` is parked, what `write` leaves of a chunk is written again, and `close` is
reached from `final`, from `destroy` and behind `open`. The listeners of `drain` are called in the middle of
`_writableNext`; those of the other events and the callbacks of `write` run as calls of their own. The file is
not opened for appending.
-/

namespace LowJs.WriteStreams

abbrev Bytes := List UInt8

/-- The options of a stream, and what it finds: the bytes of the file and the position of its descriptor.
`fd` is the descriptor if the stream does not open the file. -/
structure Options where
  autoClose : Bool
  start : Option Nat
  fd : Option Nat
  file : Nat → UInt8
  offset : Nat

/-- What the data thread does for the descriptor. -/
inductive Native
  | write (chunk : Bytes) (pos : Option Nat)
  | close
  deriving DecidableEq, Repr

/-- A stream. `native` is the operation under way, `refused` counts the callbacks of those that were refused
as the descriptor was busy, and `waitsClose` stands for the callback of `final` on `close`. A chunk in the
buffer comes with its encoding. The file is given by its bytes and the position of the descriptor. The rest
is history: the bytes given to `write` and those written, how often the descriptor was closed, and how often
`finish` was emitted. -/
structure WriteStream where
  autoClose : Bool
  fd : Option Nat
  opening : Bool
  pos : Option Nat
  posSet : Bool
  writeData : Option Bytes
  closed : Bool
  writableBuf : List (Bytes × Nat)
  writableWriting : Bool
  writableEOF : Bool
  finished : Bool
  emittedHighMark : Bool
  destroyed : Bool
  native : Option Native
  refused : Nat
  waitsClose : Bool
  file : Nat → UInt8
  offset : Nat
  given : Bytes
  written : Bytes
  closes : Nat
  finishes : Nat

/-- What the constructor leaves. -/
def create (O : Options) : WriteStream where
  autoClose := O.autoClose
  fd := O.fd
  opening := O.fd.isNone
  pos := O.start
  posSet := O.fd.isSome && O.start.isNone
  writeData := none
  closed := false
  writableBuf := []
  writableWriting := false
  writableEOF := false
  finished := false
  emittedHighMark := false
  destroyed := false
  native := none
  refused := 0
  waitsClose := false
  file := O.file
  offset := O.offset
  given := []
  written := []
  closes := 0
  finishes := 0

/-- A call of a `drain` listener. -/
inductive Call
  | write (chunk : Bytes) (encoding : Nat)
  | end_
  deriving DecidableEq, Repr

/-- The calls of the user and the callbacks; `written` comes with what the listeners of `drain` do. -/
inductive Input
  | call (c : Call)
  | opened (fd : Nat)
  | openFailed
  | written (n : Nat) (drain : List Call)
  | writeFailed
  | refusedDone
  | closeDone (ok : Bool)
  deriving DecidableEq, Repr

namespace WriteStream

def highWaterMark : Nat := 16384

/-- `duk_get_int_default` brings a position into the range of `int`. -/
def getInt (pos : Option Nat) : Option Nat := pos.map fun p => min p (2 ^ 31 - 1)

/-- `native.write`. -/
def nativeWrite (s : WriteStream) (chunk : Bytes) (pos : Option Nat) : WriteStream :=
  match s.native with
  | some _ => { s with refused := s.refused + 1 }
  | none => { s with native := some (.write chunk (getInt pos)) }

/-- `native.close`. -/
def nativeClose (s : WriteStream) : WriteStream :=
  match s.native with
  | some _ => { s with refused := s.refused + 1 }
  | none => { s with native := some .close }

/-- `_write`. -/
def write_ (s : WriteStream) (chunk : Bytes) : WriteStream :=
  match s.fd with
  | none => { s with writeData := some chunk }
  | some _ => { s with writeData := none }.nativeWrite chunk (if s.posSet then none else s.pos)

/-- `close`. The descriptor 0 counts as none. -/
def close (s : WriteStream) : WriteStream :=
  let s := { s with closed := true }
  match s.fd with
  | none | some 0 => s
  | some (_ + 1) => { s.nativeClose with fd := none }

/-- `final`. -/
def final (s : WriteStream) : WriteStream :=
  if s.autoClose then { s with waitsClose := true }.close else { s with finishes := s.finishes + 1 }

/-- `destroy`. -/
def destroy (s : WriteStream) : WriteStream :=
  if s.destroyed then s
  else
    let s := { s with destroyed := true, writableBuf := [], writableEOF := true, finished := true }
    if s.autoClose then s.close else s

/-- `_writableNext` behind the listeners of `drain`. -/
def nextRest (s : WriteStream) : WriteStream :=
  match s.writableBuf with
  | (chunk, _) :: buf => { s with writableWriting := true, writableBuf := buf }.write_ chunk
  | [] => if s.writableEOF ∧ s.finished = false then { s with finished := true }.final else s

/-- `writableLength`: the bytes in the buffer. -/
def writableLength (s : WriteStream) : Nat := (s.writableBuf.map fun e => e.1.length).sum

/-- A chunk is added to the buffer, as a part of the last one if both are small. -/
def buffer : List (Bytes × Nat) → Bytes → Nat → List (Bytes × Nat)
  | [], chunk, encoding => [(chunk, encoding)]
  | [(last, e)], chunk, encoding =>
    if last.length + chunk.length < 1024 ∧ e = encoding then [(last ++ chunk, e)]
    else [(last, e), (chunk, encoding)]
  | e :: next :: buf, chunk, encoding => e :: buffer (next :: buf) chunk encoding

/-- `write`. -/
def write (s : WriteStream) (chunk : Bytes) (encoding : Nat) : WriteStream :=
  if s.finished ∨ s.writableEOF then s
  else
    let s := { s with given := s.given ++ chunk }
    let s :=
      if s.writableWriting then { s with writableBuf := buffer s.writableBuf chunk encoding }
      else { s with writableWriting := true }.write_ chunk
    if s.writableLength < highWaterMark then s else { s with emittedHighMark := true }

/-- `end`; `drain` is not emitted any more. -/
def end_ (s : WriteStream) : WriteStream :=
  if s.writableEOF then s
  else
    let s := { s with writableEOF := true }
    if s.writableWriting ∨ s.destroyed then s else s.nextRest

def call (s : WriteStream) : Call → WriteStream
  | .write chunk encoding => s.write chunk encoding
  | .end_ => s.end_

/-- `_writableNext` emits `drain`. -/
def Drains (s : WriteStream) : Prop :=
  s.emittedHighMark = true ∧ s.writableLength < highWaterMark ∧ s.writableEOF = false

instance (s : WriteStream) : Decidable s.Drains := inferInstanceAs (Decidable (_ ∧ _))

/-- `_writableNext`. -/
def writableNext (s : WriteStream) (drain : List Call) : WriteStream :=
  if s.writableWriting ∨ s.destroyed then s
  else (if s.Drains then drain.foldl call { s with emittedHighMark := false } else s).nextRest

/-- The data thread writes, and the callback of `native.write` runs. -/
def written_ (s : WriteStream) (n : Nat) (drain : List Call) : WriteStream :=
  match s.native with
  | some (.write chunk pos) =>
    let offset := pos.getD s.offset
    let data := chunk.take n
    let s := { s with
      native := none
      file := fun i => if offset ≤ i then (data[i - offset]?).getD (s.file i) else s.file i
      offset := offset + data.length
      written := s.written ++ data
      pos := s.pos.map (· + data.length)
      posSet := true }
    if data.length ≠ chunk.length then s.write_ (chunk.drop n)
    else { s with writableWriting := false }.writableNext drain
  | _ => s

/-- The callback of `native.open`. -/
def opened (s : WriteStream) (fd : Nat) : WriteStream :=
  let s := { s with opening := false, fd := some fd, posSet := s.posSet || s.pos.isNone }
  let s :=
    match s.writeData with
    | some chunk => s.write_ chunk
    | none => s
  if s.closed then { s with closed := false }.close else s

/-- The callback of `native.close`, with the event `close`. -/
def closeDone (s : WriteStream) (ok : Bool) : WriteStream :=
  let s := { s with native := none, closes := s.closes + 1 }
  if ok then { s with waitsClose := false, finishes := s.finishes + s.waitsClose.toNat }
  else if s.autoClose then s.destroy else s

/-- The inputs that can happen. -/
def Enabled (s : WriteStream) : Input → Prop
  | .call _ => True
  | .opened _ | .openFailed => s.opening = true
  | .written _ _ | .writeFailed => ∃ op ∈ s.native, op ≠ .close
  | .refusedDone => 0 < s.refused
  | .closeDone _ => s.native = some .close

instance (s : WriteStream) : ∀ i, Decidable (s.Enabled i)
  | .call _ => inferInstanceAs (Decidable True)
  | .opened _ | .openFailed | .closeDone _ => inferInstanceAs (Decidable (_ = _))
  | .written _ _ | .writeFailed => inferInstanceAs (Decidable (∃ op ∈ s.native, op ≠ .close))
  | .refusedDone => inferInstanceAs (Decidable (0 < _))

def step (s : WriteStream) (i : Input) : WriteStream :=
  if s.Enabled i then
    match i with
    | .call c => s.call c
    | .opened fd => s.opened fd
    | .openFailed => if s.autoClose then { s with opening := false }.destroy else { s with opening := false }
    | .written n drain => s.written_ n drain
    | .writeFailed => { s with native := none }.destroy
    | .refusedDone => { s with refused := s.refused - 1 }.destroy
    | .closeDone ok => s.closeDone ok
  else s

end WriteStream

def machine : Machine WriteStream Input := ⟨WriteStream.step⟩

/-- The first position of the stream. -/
def Options.first (O : Options) : Nat := O.start.getD O.offset

/-- The file holds a part of what was given to `write`, from the first position on and nothing else; the
descriptor is closed at most once; `finish` comes once, when everything is written and the descriptor is
closed; and until then something is under way. -/
structure WriteStream.Sound (O : Options) (s : WriteStream) : Prop where
  part : s.written <+: s.given
  file : ∀ i, s.file i = if O.first ≤ i then (s.written[i - O.first]?).getD (O.file i) else O.file i
  closes : s.closes ≤ 1
  finishes : s.finishes ≤ 1
  complete : s.finishes = 1 → s.writableEOF = true ∧ s.written = s.given ∧ s.closes = 1
  moves : s.writableEOF = true → s.finishes = 1 ∨ s.opening = true ∨ s.native.isSome = true

/-- The stream closes its descriptor, which is not 0, and its first position is an `int`. -/
def Options.Regular (O : Options) : Prop :=
  O.autoClose = true ∧ (∀ p ∈ O.start, p < 2 ^ 31) ∧ O.fd ≠ some 0

/-- No call fails. -/
def Input.Regular : Input → Prop
  | .openFailed | .writeFailed | .closeDone false => False
  | _ => True

/-- The descriptor is not 0, and where a chunk is done, the listeners of `drain` do nothing if the buffer is
not empty, and nothing but a `write`, or an `end` first, if it is. -/
def WriteStream.Calm (s : WriteStream) : Input → Prop
  | .opened fd => fd ≠ 0
  | .written n drain => (∀ chunk pos, s.native = some (.write chunk pos) → chunk.length ≤ n) → s.Drains →
      drain = [] ∨
      (s.writableBuf = [] ∧ ((∃ chunk encoding, drain = [.write chunk encoding]) ∨ drain.head? = some .end_))
  | _ => True

namespace WriteStream

variable {O : Options} {s : WriteStream}

/-! ### The phases of a stream -/

/-- The phases of a stream that is not destroyed; `between` is left within a step. -/
inductive Phase
  | opening (parked : Option Bytes)
  | between
  | idle
  | writing (chunk : Bytes) (pos : Option Nat)
  | closesLater
  | closing
  | done

/-- What is on its way into the file. -/
def Phase.chunk : Phase → Bytes
  | .opening parked => parked.getD []
  | .writing chunk _ => chunk
  | _ => []

/-- What is in the buffer. -/
def pending (s : WriteStream) : Bytes := (s.writableBuf.map Prod.fst).flatten

/-- Nothing is finished. -/
structure Unfinished (s : WriteStream) : Prop where
  finished : s.finished = false
  closed : s.closed = false
  waitsClose : s.waitsClose = false
  closes : s.closes = 0
  finishes : s.finishes = 0

/-- Nothing is left to write, and nothing is taken any more. -/
structure Finished (s : WriteStream) : Prop where
  finished : s.finished = true
  writableEOF : s.writableEOF = true
  writableBuf : s.writableBuf = []

/-- The descriptor is there and free. -/
structure Free (s : WriteStream) : Prop where
  opening : s.opening = false
  fd : ∃ n, s.fd = some (n + 1)
  native : s.native = none
  writeData : s.writeData = none

def At (O : Options) (s : WriteStream) : Phase → Prop
  | .opening parked => s.opening = true ∧ s.fd = none ∧ s.native = none ∧ s.writeData = parked ∧
      s.writableWriting = parked.isSome ∧ (parked = none → s.writableBuf = [] ∧ s.writableEOF = false) ∧
      s.Unfinished
  | .between => s.Free ∧ s.writableWriting = false ∧ s.Unfinished
  | .idle => s.Free ∧ s.writableWriting = false ∧ s.Unfinished ∧ s.writableBuf = [] ∧ s.writableEOF = false
  | .writing chunk pos => s.opening = false ∧ (∃ n, s.fd = some (n + 1)) ∧
      s.native = some (.write chunk pos) ∧ s.writeData = none ∧ s.writableWriting = true ∧ s.Unfinished ∧
      pos.getD s.offset = O.first + s.written.length
  | .closesLater => s.opening = true ∧ s.fd = none ∧ s.native = none ∧ s.writeData = none ∧ s.closed = true ∧
      s.waitsClose = true ∧ s.Finished ∧ s.closes = 0 ∧ s.finishes = 0
  | .closing => s.opening = false ∧ s.native = some .close ∧ s.waitsClose = true ∧ s.Finished ∧ s.closes = 0 ∧
      s.finishes = 0
  | .done => s.opening = false ∧ s.native = none ∧ s.Finished ∧ s.closes = 1 ∧ s.finishes = 1

/-- What holds in every phase. -/
structure Core (O : Options) (s : WriteStream) : Prop where
  autoClose : s.autoClose = true
  destroyed : s.destroyed = false
  refused : s.refused = 0
  file : ∀ i, s.file i = if O.first ≤ i then (s.written[i - O.first]?).getD (O.file i) else O.file i
  place : (s.posSet = true ∧ s.offset = O.first + s.written.length) ∨
    (s.posSet = false ∧ s.written = [] ∧ s.pos = O.start ∧ s.offset = O.offset)

structure Inv (O : Options) (p : Phase) (s : WriteStream) : Prop where
  core : Core O s
  account : s.written ++ p.chunk ++ s.pending = s.given
  shape : s.At O p

/-! ### The parts of a step -/

lemma buffer_flatten (buf : List (Bytes × Nat)) (chunk : Bytes) (encoding : Nat) :
    ((buffer buf chunk encoding).map Prod.fst).flatten = (buf.map Prod.fst).flatten ++ chunk := by
  induction buf, chunk, encoding using buffer.induct with
  | case1 chunk encoding => simp [buffer]
  | case2 last e chunk encoding hsmall => simp [buffer, hsmall]
  | case3 last e chunk encoding hlarge => simp [buffer, hlarge]
  | case4 e next buf chunk encoding ih => simp [buffer, ih]

lemma Inv.highMark {p : Phase} (h : Inv O p s) (b : Bool) : Inv O p { s with emittedHighMark := b } := by
  obtain ⟨hcore, haccount, hshape⟩ := h
  refine ⟨⟨hcore.autoClose, hcore.destroyed, hcore.refused, hcore.file, hcore.place⟩, haccount, ?_⟩
  cases p with
  | opening parked =>
    obtain ⟨hopening, hfd, hnative, hdata, hwriting, hempty, hun⟩ := hshape
    exact ⟨hopening, hfd, hnative, hdata, hwriting, hempty, ⟨hun.1, hun.2, hun.3, hun.4, hun.5⟩⟩
  | between =>
    obtain ⟨hfree, hwriting, hun⟩ := hshape
    exact ⟨⟨hfree.1, hfree.2, hfree.3, hfree.4⟩, hwriting, ⟨hun.1, hun.2, hun.3, hun.4, hun.5⟩⟩
  | idle =>
    obtain ⟨hfree, hwriting, hun, hempty⟩ := hshape
    exact ⟨⟨hfree.1, hfree.2, hfree.3, hfree.4⟩, hwriting, ⟨hun.1, hun.2, hun.3, hun.4, hun.5⟩, hempty⟩
  | writing chunk pos =>
    obtain ⟨hopening, hfd, hnative, hdata, hwriting, hun, hplace⟩ := hshape
    exact ⟨hopening, hfd, hnative, hdata, hwriting, ⟨hun.1, hun.2, hun.3, hun.4, hun.5⟩, hplace⟩
  | closesLater =>
    obtain ⟨hopening, hfd, hnative, hdata, hclosed, hwaits, hfin, hcounts⟩ := hshape
    exact ⟨hopening, hfd, hnative, hdata, hclosed, hwaits, ⟨hfin.1, hfin.2, hfin.3⟩, hcounts⟩
  | closing =>
    obtain ⟨hopening, hnative, hwaits, hfin, hcounts⟩ := hshape
    exact ⟨hopening, hnative, hwaits, ⟨hfin.1, hfin.2, hfin.3⟩, hcounts⟩
  | done =>
    obtain ⟨hopening, hnative, hfin, hcounts⟩ := hshape
    exact ⟨hopening, hnative, ⟨hfin.1, hfin.2, hfin.3⟩, hcounts⟩

lemma Inv.between_of_idle (h : Inv O .idle s) : Inv O .between s :=
  ⟨h.core, h.account, h.shape.1, h.shape.2.1, h.shape.2.2.1⟩

/-- The next byte is written at its place, with an explicit position and without one. -/
lemma Core.next_place (h : Core O s) (hO : O.Regular) :
    (getInt (if s.posSet = true then none else s.pos)).getD s.offset = O.first + s.written.length := by
  obtain ⟨hset, hoffset⟩ | ⟨hset, hwritten, hpos, hoffset⟩ := h.place
  · simp [hset, getInt, hoffset]
  · rw [hset, if_neg Bool.false_ne_true, hpos, hoffset, hwritten, Options.first]
    cases hstart : O.start with
    | none => rfl
    | some start =>
      have hlt := hO.2.1 start hstart
      show min start (2 ^ 31 - 1) = start + 0
      omega

/-- A chunk is handed to a free descriptor. -/
lemma Core.write_ (h : Core O s) (hO : O.Regular) (hfree : s.Free) (hun : s.Unfinished)
    (hwriting : s.writableWriting = true) {chunk : Bytes}
    (haccount : s.written ++ chunk ++ s.pending = s.given) :
    ∃ pos, Inv O (.writing chunk pos) (s.write_ chunk) := by
  obtain ⟨n, hfd⟩ := hfree.fd
  have hwrite : s.write_ chunk = { s with
      writeData := none
      native := some (.write chunk (getInt (if s.posSet = true then none else s.pos))) } := by
    simp [WriteStream.write_, hfd, nativeWrite, hfree.native]
  rw [hwrite]
  refine ⟨_, ⟨h.autoClose, h.destroyed, h.refused, h.file, h.place⟩, haccount, hfree.opening, ⟨n, hfd⟩, rfl,
    rfl, hwriting, ⟨hun.1, hun.2, hun.3, hun.4, hun.5⟩, h.next_place hO⟩

/-- `close` where `final` waits for it. -/
lemma Inv.final (h : Inv O .between s) (hempty : s.writableBuf = []) (heof : s.writableEOF = true) :
    Inv O .closing { s with finished := true }.final := by
  obtain ⟨hcore, haccount, hfree, -, hun⟩ := h
  obtain ⟨n, hfd⟩ := hfree.fd
  have hfinal : ({ s with finished := true } : WriteStream).final = { s with
      finished := true, waitsClose := true, closed := true, native := some .close, fd := none } := by
    simp [WriteStream.final, hcore.autoClose, close, hfd, nativeClose, hfree.native]
  rw [hfinal]
  exact ⟨⟨hcore.autoClose, hcore.destroyed, hcore.refused, hcore.file, hcore.place⟩, haccount, hfree.opening,
    rfl, rfl, ⟨rfl, heof, hempty⟩, hun.closes, hun.finishes⟩

/-- A step is over. -/
def Rests (O : Options) (s : WriteStream) : Prop := ∃ p, p ≠ .between ∧ Inv O p s

lemma nextRest_cons {chunk : Bytes} {encoding : Nat} {buf : List (Bytes × Nat)}
    (hbuf : s.writableBuf = (chunk, encoding) :: buf) :
    s.nextRest = ({ s with writableWriting := true, writableBuf := buf } : WriteStream).write_ chunk := by
  rw [WriteStream.nextRest]
  split
  · rename_i hcons
    rw [hbuf] at hcons
    cases hcons
    rfl
  · rename_i hnil
    rw [hbuf] at hnil
    exact absurd hnil nofun

lemma nextRest_nil (hbuf : s.writableBuf = []) :
    s.nextRest = if s.writableEOF ∧ s.finished = false then { s with finished := true }.final else s := by
  rw [WriteStream.nextRest]
  split
  · rename_i hcons
    rw [hbuf] at hcons
    exact absurd hcons nofun
  · rfl

lemma Inv.nextRest (h : Inv O .between s) (hO : O.Regular) : s.nextRest.Rests O := by
  have hinv := h
  obtain ⟨hcore, haccount, hfree, hwriting, hun⟩ := h
  cases hbuf : s.writableBuf with
  | cons e buf =>
    obtain ⟨chunk, encoding⟩ := e
    have hrest : s.written ++ chunk ++ (buf.map Prod.fst).flatten = s.given := by
      rw [← haccount, pending, hbuf]
      simp [Phase.chunk]
    obtain ⟨pos, hwritten⟩ := Core.write_ (s := { s with writableWriting := true, writableBuf := buf })
      ⟨hcore.autoClose, hcore.destroyed, hcore.refused, hcore.file, hcore.place⟩ hO
      ⟨hfree.1, hfree.2, hfree.3, hfree.4⟩ ⟨hun.1, hun.2, hun.3, hun.4, hun.5⟩ rfl hrest
    rw [nextRest_cons hbuf]
    exact ⟨.writing chunk pos, nofun, hwritten⟩
  | nil =>
    rw [nextRest_nil hbuf]
    by_cases heof : s.writableEOF = true
    · rw [if_pos ⟨heof, hun.finished⟩]
      exact ⟨.closing, nofun, hinv.final hbuf heof⟩
    · rw [if_neg fun hend => heof hend.1]
      exact ⟨.idle, nofun, hcore, haccount, hfree, hwriting, hun, hbuf, Bool.eq_false_iff.mpr heof⟩

/-- Where nothing is left to do, `_writableNext` does nothing. -/
lemma nextRest_eq_self (hempty : s.writableBuf = []) (h : s.writableEOF = true → s.finished = true) :
    s.nextRest = s := by
  rw [nextRest_nil hempty, if_neg]
  rintro ⟨heof, hfinished⟩
  exact absurd (hfinished.symm.trans (h heof)) Bool.false_ne_true

/-! ### The steps -/

lemma Finished.write (h : s.Finished) (chunk : Bytes) (encoding : Nat) : s.write chunk encoding = s := by
  rw [WriteStream.write, if_pos (Or.inl h.finished)]

lemma Finished.call (h : s.Finished) (c : Call) : s.call c = s := by
  cases c with
  | write chunk encoding => exact h.write chunk encoding
  | end_ => exact if_pos h.writableEOF

lemma Finished.foldl (h : s.Finished) (cs : List Call) : cs.foldl WriteStream.call s = s := by
  induction cs with
  | nil => rfl
  | cons c cs ih => rw [List.foldl_cons, h.call, ih]

/-- The high-water mark is looked at behind each chunk. -/
lemma Rests.mark (h : s.Rests O) :
    (if s.writableLength < highWaterMark then s else { s with emittedHighMark := true }).Rests O := by
  obtain ⟨p, hp, hinv⟩ := h
  split
  · exact ⟨p, hp, hinv⟩
  · exact ⟨p, hp, hinv.highMark true⟩

lemma write_eq (hfinished : s.finished = false) (heof : s.writableEOF = false) (chunk : Bytes)
    (encoding : Nat) :
    s.write chunk encoding =
      let t := if s.writableWriting then
          { s with given := s.given ++ chunk, writableBuf := buffer s.writableBuf chunk encoding }
        else { s with given := s.given ++ chunk, writableWriting := true }.write_ chunk
      if t.writableLength < highWaterMark then t else { t with emittedHighMark := true } := by
  rw [WriteStream.write, if_neg (by simp [hfinished, heof])]

/-- A stream that is not finished is in one of the first phases. -/
lemma Inv.unfinished {p : Phase} (h : Inv O p s) (hfinished : s.finished = false) :
    p ≠ .closesLater ∧ p ≠ .closing ∧ p ≠ .done := by
  have hnot : ¬s.Finished := fun hfin => Bool.false_ne_true (hfinished.symm.trans hfin.finished)
  refine ⟨?_, ?_, ?_⟩
  · rintro rfl
    exact hnot h.shape.2.2.2.2.2.2.1
  · rintro rfl
    exact hnot h.shape.2.2.2.1
  · rintro rfl
    exact hnot h.shape.2.2.1

/-- A chunk is added to the buffer. -/
lemma Inv.buffered {p : Phase} (h : Inv O p s) (hp : p ≠ .between) (hwriting : s.writableWriting = true)
    (hfinished : s.finished = false) (chunk : Bytes) (encoding : Nat) :
    Rests O { s with given := s.given ++ chunk, writableBuf := buffer s.writableBuf chunk encoding } := by
  obtain ⟨hlater, hclosing, hdone⟩ := h.unfinished hfinished
  obtain ⟨hcore, haccount, hshape⟩ := h
  have hgiven : s.written ++ p.chunk ++ ((buffer s.writableBuf chunk encoding).map Prod.fst).flatten =
      s.given ++ chunk := by
    rw [buffer_flatten, ← haccount, pending, List.append_assoc _ _ chunk]
  refine ⟨p, hp, ⟨hcore.autoClose, hcore.destroyed, hcore.refused, hcore.file, hcore.place⟩, hgiven, ?_⟩
  cases p with
  | opening parked =>
    obtain ⟨hopening, hfd, hnative, hdata, hbusy, -, hun⟩ := hshape
    refine ⟨hopening, hfd, hnative, hdata, hbusy, fun hnone => ?_, ⟨hun.1, hun.2, hun.3, hun.4, hun.5⟩⟩
    rw [hbusy, hnone] at hwriting
    exact absurd hwriting Bool.false_ne_true
  | between => exact absurd rfl hp
  | idle => exact absurd (hshape.2.1.symm.trans hwriting) Bool.false_ne_true
  | writing _ pos =>
    obtain ⟨hopening, hfd, hnative, hdata, hbusy, hun, hplace⟩ := hshape
    exact ⟨hopening, hfd, hnative, hdata, hbusy, ⟨hun.1, hun.2, hun.3, hun.4, hun.5⟩, hplace⟩
  | closesLater => exact absurd rfl hlater
  | closing => exact absurd rfl hclosing
  | done => exact absurd rfl hdone

/-- A chunk for an idle stream is written at once. -/
lemma Inv.write_idle (h : Inv O .idle s) (hO : O.Regular) (chunk : Bytes) :
    ∃ pos, Inv O (.writing chunk pos)
      (({ s with given := s.given ++ chunk, writableWriting := true } : WriteStream).write_ chunk) := by
  obtain ⟨hcore, haccount, hfree, -, hun, hempty, -⟩ := h
  have hgiven : s.written ++ chunk ++ s.pending = s.given ++ chunk := by
    rw [← haccount, pending, hempty]
    simp [Phase.chunk]
  exact Core.write_ (s := { s with given := s.given ++ chunk, writableWriting := true })
    ⟨hcore.autoClose, hcore.destroyed, hcore.refused, hcore.file, hcore.place⟩ hO
    ⟨hfree.1, hfree.2, hfree.3, hfree.4⟩ ⟨hun.1, hun.2, hun.3, hun.4, hun.5⟩ rfl hgiven

lemma Rests.write (h : s.Rests O) (hO : O.Regular) (chunk : Bytes) (encoding : Nat) :
    (s.write chunk encoding).Rests O := by
  by_cases hclosed : s.finished = true ∨ s.writableEOF = true
  · rw [WriteStream.write, if_pos hclosed]
    exact h
  obtain ⟨hfinished, heof⟩ : s.finished = false ∧ s.writableEOF = false := by
    simpa using hclosed
  obtain ⟨p, hp, hinv⟩ := h
  obtain ⟨hlater, hclosing, hdone⟩ := hinv.unfinished hfinished
  rw [write_eq hfinished heof]
  apply Rests.mark
  by_cases hwriting : s.writableWriting = true
  · rw [if_pos hwriting]
    exact hinv.buffered hp hwriting hfinished chunk encoding
  · rw [if_neg hwriting]
    cases p with
    | opening parked =>
      obtain ⟨hcore, haccount, hopening, hfd, hnative, -, hbusy, hempty, hun⟩ := hinv
      have hnone : parked = none := by
        rw [hbusy] at hwriting
        simpa using hwriting
      subst hnone
      have hgiven : s.written ++ chunk ++ s.pending = s.given ++ chunk := by
        rw [← haccount, pending, (hempty rfl).1]
        simp [Phase.chunk]
      have hwrite : ({ s with given := s.given ++ chunk, writableWriting := true } : WriteStream).write_ chunk =
          { s with given := s.given ++ chunk, writableWriting := true, writeData := some chunk } := by
        rw [WriteStream.write_.eq_def]
        simp only [hfd]
      rw [hwrite]
      exact ⟨.opening (some chunk), nofun,
        ⟨hcore.autoClose, hcore.destroyed, hcore.refused, hcore.file, hcore.place⟩, hgiven, hopening, hfd,
        hnative, rfl, rfl, nofun, ⟨hun.1, hun.2, hun.3, hun.4, hun.5⟩⟩
    | between => exact absurd rfl hp
    | idle =>
      obtain ⟨pos, hwritten⟩ := hinv.write_idle hO chunk
      exact ⟨.writing chunk pos, nofun, hwritten⟩
    | writing _ pos => exact absurd hinv.shape.2.2.2.2.1 hwriting
    | closesLater => exact absurd rfl hlater
    | closing => exact absurd rfl hclosing
    | done => exact absurd rfl hdone

/-- The end of an idle stream closes the descriptor at once. -/
lemma Inv.end_idle (h : Inv O .idle s) : Inv O .closing s.end_ := by
  obtain ⟨hcore, haccount, hfree, hwriting, hun, hempty, heof⟩ := h
  have hbetween : Inv O .between { s with writableEOF := true } :=
    ⟨⟨hcore.autoClose, hcore.destroyed, hcore.refused, hcore.file, hcore.place⟩, haccount,
      ⟨hfree.1, hfree.2, hfree.3, hfree.4⟩, hwriting, ⟨hun.1, hun.2, hun.3, hun.4, hun.5⟩⟩
  have hend : s.end_ = ({ s with writableEOF := true, finished := true } : WriteStream).final := by
    simp [end_, heof, hwriting, hcore.destroyed, WriteStream.nextRest, hempty, hun.finished]
  rw [hend]
  exact hbetween.final hempty rfl

lemma Rests.end_ (h : s.Rests O) : s.end_.Rests O := by
  by_cases heof : s.writableEOF = true
  · rw [WriteStream.end_, if_pos heof]
    exact h
  obtain ⟨p, hp, hinv⟩ := h
  cases p with
  | opening parked =>
    obtain ⟨hcore, haccount, hopening, hfd, hnative, hdata, hbusy, hempty, hun⟩ := hinv
    cases parked with
    | none =>
      have hend : s.end_ = { s with
          writableEOF := true, finished := true, waitsClose := true, closed := true } := by
        simp [WriteStream.end_, heof, hbusy, hcore.destroyed, WriteStream.nextRest, (hempty rfl).1,
          hun.finished, WriteStream.final, hcore.autoClose, close, hfd]
      rw [hend]
      exact ⟨.closesLater, nofun,
        ⟨hcore.autoClose, hcore.destroyed, hcore.refused, hcore.file, hcore.place⟩, haccount, hopening, hfd,
        hnative, hdata, rfl, rfl, ⟨rfl, rfl, (hempty rfl).1⟩, hun.closes, hun.finishes⟩
    | some chunk =>
      have hend : s.end_ = { s with writableEOF := true } := by
        simp [WriteStream.end_, heof, hbusy]
      rw [hend]
      exact ⟨.opening (some chunk), nofun,
        ⟨hcore.autoClose, hcore.destroyed, hcore.refused, hcore.file, hcore.place⟩, haccount, hopening, hfd,
        hnative, hdata, hbusy, nofun, ⟨hun.1, hun.2, hun.3, hun.4, hun.5⟩⟩
  | between => exact absurd rfl hp
  | idle => exact ⟨.closing, nofun, hinv.end_idle⟩
  | writing chunk pos =>
    obtain ⟨hcore, haccount, hopening, hfd, hnative, hdata, hbusy, hun, hplace⟩ := hinv
    have hend : s.end_ = { s with writableEOF := true } := by
      simp [WriteStream.end_, heof, hbusy]
    rw [hend]
    exact ⟨.writing chunk pos, nofun,
      ⟨hcore.autoClose, hcore.destroyed, hcore.refused, hcore.file, hcore.place⟩, haccount, hopening, hfd,
      hnative, hdata, hbusy, ⟨hun.1, hun.2, hun.3, hun.4, hun.5⟩, hplace⟩
  | closesLater => exact absurd hinv.shape.2.2.2.2.2.2.1.writableEOF heof
  | closing => exact absurd hinv.shape.2.2.2.1.writableEOF heof
  | done => exact absurd hinv.shape.2.2.1.writableEOF heof

lemma Rests.call (h : s.Rests O) (hO : O.Regular) (c : Call) : (s.call c).Rests O := by
  cases c with
  | write chunk encoding => exact h.write hO chunk encoding
  | end_ => exact h.end_

lemma buf_write_ (chunk : Bytes) :
    (s.write_ chunk).writableBuf = s.writableBuf ∧ (s.write_ chunk).writableEOF = s.writableEOF := by
  rw [WriteStream.write_.eq_def]
  split
  · exact ⟨rfl, rfl⟩
  · rw [nativeWrite]
    split <;> exact ⟨rfl, rfl⟩

/-- The listeners of `drain` write once, or end the stream. -/
lemma Inv.drained (h : Inv O .idle s) (hO : O.Regular) {drain : List Call}
    (hcalm : drain = [] ∨ (∃ chunk encoding, drain = [.write chunk encoding]) ∨ drain.head? = some .end_) :
    (drain.foldl WriteStream.call s).nextRest.Rests O := by
  obtain rfl | ⟨chunk, encoding, rfl⟩ | hhead := hcalm
  · exact h.between_of_idle.nextRest hO
  · have hrests := Rests.write (O := O) ⟨.idle, nofun, h⟩ hO chunk encoding
    obtain ⟨-, -, -, hwriting, hun, hempty, heof⟩ := h
    have hfields : (s.write chunk encoding).writableBuf = [] ∧ (s.write chunk encoding).writableEOF = false := by
      rw [write_eq hun.finished heof, if_neg (Bool.eq_false_iff.mp hwriting)]
      obtain ⟨hbuf, heof'⟩ := buf_write_
        (s := { s with given := s.given ++ chunk, writableWriting := true }) chunk
      dsimp only
      split
      · exact ⟨hbuf.trans hempty, heof'.trans heof⟩
      · exact ⟨hbuf.trans hempty, heof'.trans heof⟩
    rw [List.foldl_cons, List.foldl_nil, WriteStream.call,
      nextRest_eq_self hfields.1 fun htrue => absurd (hfields.2.symm.trans htrue) Bool.false_ne_true]
    exact hrests
  · cases drain with
    | nil => exact absurd hhead nofun
    | cons c cs =>
      obtain rfl : c = .end_ := by simpa using hhead
      have hclosing := h.end_idle
      have hfin : s.end_.Finished := hclosing.shape.2.2.2.1
      rw [List.foldl_cons, WriteStream.call, hfin.foldl, nextRest_eq_self hfin.writableBuf fun _ => hfin.finished]
      exact ⟨.closing, nofun, hclosing⟩

/-- What is written at the next place continues the file. -/
lemma Core.file_append (h : Core O s) (data : Bytes) (i : Nat) :
    (if O.first + s.written.length ≤ i then
        (data[i - (O.first + s.written.length)]?).getD (s.file i) else s.file i) =
      if O.first ≤ i then ((s.written ++ data)[i - O.first]?).getD (O.file i) else O.file i := by
  have hfile := h.file i
  by_cases hfirst : O.first ≤ i
  · rw [if_pos hfirst] at hfile ⊢
    by_cases hbehind : O.first + s.written.length ≤ i
    · rw [if_pos hbehind, List.getElem?_append_right (by omega), hfile, Nat.sub_sub,
        List.getElem?_eq_none (l := s.written) (by omega), Option.getD_none]
    · rw [if_neg hbehind, hfile, List.getElem?_append_left (by omega)]
  · rw [if_neg hfirst] at hfile ⊢
    rw [if_neg (by omega), hfile]

lemma Inv.written_ {chunk : Bytes} {pos : Option Nat} (h : Inv O (.writing chunk pos) s) (hO : O.Regular)
    (n : Nat) {drain : List Call} (hcalm : s.Calm (.written n drain)) : (s.written_ n drain).Rests O := by
  obtain ⟨hcore, haccount, hopening, hfd, hnative, hdata, hbusy, hun, hplace⟩ := h
  rw [WriteStream.written_.eq_def]
  simp only [hnative, hplace]
  have hcore' : ∀ b, Core O { s with
      native := none
      file := fun i => if O.first + s.written.length ≤ i then
        ((chunk.take n)[i - (O.first + s.written.length)]?).getD (s.file i) else s.file i
      offset := O.first + s.written.length + (chunk.take n).length
      written := s.written ++ chunk.take n
      pos := s.pos.map (· + (chunk.take n).length)
      posSet := true
      writableWriting := b } := by
    intro b
    refine ⟨hcore.autoClose, hcore.destroyed, hcore.refused, hcore.file_append (chunk.take n), Or.inl ⟨rfl, ?_⟩⟩
    rw [List.length_append, Nat.add_assoc]
  have haccount' : s.written ++ chunk.take n ++ chunk.drop n ++ s.pending = s.given := by
    rw [List.append_assoc s.written, List.take_append_drop]
    exact haccount
  split
  case isTrue hpartial =>
    -- the rest of the chunk is written without a position
    obtain ⟨pos, hinv⟩ := (hcore' s.writableWriting).write_ hO ⟨hopening, hfd, rfl, hdata⟩
      ⟨hun.1, hun.2, hun.3, hun.4, hun.5⟩ hbusy haccount'
    exact ⟨.writing (chunk.drop n) pos, nofun, hinv⟩
  case isFalse hwhole =>
    have hlen : chunk.length ≤ n := by
      rw [not_not, List.length_take] at hwhole
      omega
    rw [List.drop_eq_nil_of_le hlen, List.append_nil] at haccount'
    have hbetween : Inv O .between { s with
        native := none
        file := fun i => if O.first + s.written.length ≤ i then
          ((chunk.take n)[i - (O.first + s.written.length)]?).getD (s.file i) else s.file i
        offset := O.first + s.written.length + (chunk.take n).length
        written := s.written ++ chunk.take n
        pos := s.pos.map (· + (chunk.take n).length)
        posSet := true
        writableWriting := false } := by
      refine ⟨hcore' false, ?_, ⟨hopening, hfd, rfl, hdata⟩, rfl, ⟨hun.1, hun.2, hun.3, hun.4, hun.5⟩⟩
      show s.written ++ chunk.take n ++ [] ++ s.pending = s.given
      rw [List.append_nil]
      exact haccount'
    rw [writableNext, if_neg (by simp [hcore.destroyed])]
    split
    case isFalse => exact hbetween.nextRest hO
    case isTrue hdrains =>
      have hdone : ∀ c p, s.native = some (.write c p) → c.length ≤ n := by
        intro c p hc
        cases hnative.symm.trans hc
        exact hlen
      obtain hnone | ⟨hempty, hone⟩ := hcalm hdone hdrains
      · rw [hnone, List.foldl_nil]
        exact (hbetween.highMark false).nextRest hO
      · have hidle := hbetween.highMark false
        have heof : s.writableEOF = false := hdrains.2.2
        exact Inv.drained ⟨hidle.core, hidle.account, hidle.shape.1, hidle.shape.2.1, hidle.shape.2.2, hempty,
          heof⟩ hO (Or.inr hone)

lemma Rests.opened (h : s.Rests O) (hO : O.Regular) (hopening : s.opening = true) {fd : Nat} (hfd : fd ≠ 0) :
    (s.opened fd).Rests O := by
  obtain ⟨n, rfl⟩ := Nat.exists_eq_succ_of_ne_zero hfd
  obtain ⟨p, hp, hinv⟩ := h
  have hcore : Core O { s with
      opening := false, fd := some (n + 1), posSet := s.posSet || s.pos.isNone } := by
    have hcore := hinv.core
    refine ⟨hcore.autoClose, hcore.destroyed, hcore.refused, hcore.file, ?_⟩
    obtain ⟨hset, hoffset⟩ | ⟨hset, hwritten, hpos, hoffset⟩ := hcore.place
    · exact Or.inl ⟨by simp [hset], hoffset⟩
    · cases hstart : O.start with
      | none =>
        refine Or.inl ⟨by simp [hpos, hstart], ?_⟩
        simp [hwritten, hoffset, Options.first, hstart]
      | some start => exact Or.inr ⟨by simp [hset, hpos, hstart], hwritten, by rw [hpos, hstart], hoffset⟩
  cases p with
  | opening parked =>
    obtain ⟨-, haccount, -, -, hnative, hdata, hbusy, hempty, hun⟩ := hinv
    cases parked with
    | none =>
      have hopened : s.opened (n + 1) = { s with
          opening := false, fd := some (n + 1), posSet := s.posSet || s.pos.isNone } := by
        simp [WriteStream.opened, hdata, hun.closed]
      rw [hopened]
      exact ⟨.idle, nofun, hcore, haccount, ⟨rfl, ⟨n, rfl⟩, hnative, hdata⟩, hbusy,
        ⟨hun.1, hun.2, hun.3, hun.4, hun.5⟩, hempty rfl⟩
    | some chunk =>
      obtain ⟨pos, hwritten⟩ := Core.write_ (s := { s with
          opening := false, fd := some (n + 1), posSet := s.posSet || s.pos.isNone, writeData := none })
        ⟨hcore.autoClose, hcore.destroyed, hcore.refused, hcore.file, hcore.place⟩ hO
        ⟨rfl, ⟨n, rfl⟩, hnative, rfl⟩ ⟨hun.1, hun.2, hun.3, hun.4, hun.5⟩ hbusy haccount
      have hopened : s.opened (n + 1) = ({ s with
          opening := false, fd := some (n + 1), posSet := s.posSet || s.pos.isNone,
          writeData := none } : WriteStream).write_ chunk := by
        simp [WriteStream.opened, hdata, WriteStream.write_, nativeWrite, hnative, hun.closed]
      rw [hopened]
      exact ⟨.writing chunk pos, nofun, hwritten⟩
  | between => exact absurd rfl hp
  | idle => exact absurd (hinv.shape.1.opening.symm.trans hopening) Bool.false_ne_true
  | writing chunk pos => exact absurd (hinv.shape.1.symm.trans hopening) Bool.false_ne_true
  | closesLater =>
    obtain ⟨-, haccount, -, -, hnative, hdata, hclosed, hwaits, hfin, hcounts⟩ := hinv
    have hopened : s.opened (n + 1) = { s with
        opening := false, fd := none, posSet := s.posSet || s.pos.isNone, native := some .close } := by
      simp [WriteStream.opened, hdata, hclosed, close, nativeClose, hnative]
    rw [hopened]
    exact ⟨.closing, nofun, ⟨hcore.autoClose, hcore.destroyed, hcore.refused, hcore.file, hcore.place⟩,
      haccount, rfl, rfl, hwaits, ⟨hfin.1, hfin.2, hfin.3⟩, hcounts⟩
  | closing => exact absurd (hinv.shape.1.symm.trans hopening) Bool.false_ne_true
  | done => exact absurd (hinv.shape.1.symm.trans hopening) Bool.false_ne_true

/-- The phase tells the operation that is under way. -/
lemma Inv.native_eq {p : Phase} (h : Inv O p s) {op : Native} (hop : s.native = some op) :
    (∃ chunk pos, op = .write chunk pos ∧ p = .writing chunk pos) ∨ (op = .close ∧ p = .closing) := by
  have hshape := h.shape
  cases p with
  | opening parked => exact absurd (hshape.2.2.1.symm.trans hop) nofun
  | between => exact absurd (hshape.1.native.symm.trans hop) nofun
  | idle => exact absurd (hshape.1.native.symm.trans hop) nofun
  | writing chunk pos => exact Or.inl ⟨chunk, pos, Option.some.inj (hop.symm.trans hshape.2.2.1), rfl⟩
  | closesLater => exact absurd (hshape.2.2.1.symm.trans hop) nofun
  | closing => exact Or.inr ⟨Option.some.inj (hop.symm.trans hshape.2.1), rfl⟩
  | done => exact absurd (hshape.2.1.symm.trans hop) nofun

lemma Rests.closeDone (h : s.Rests O) (hnative : s.native = some .close) : (s.closeDone true).Rests O := by
  obtain ⟨p, hp, hinv⟩ := h
  obtain ⟨chunk, pos, hwrite, -⟩ | ⟨-, rfl⟩ := hinv.native_eq hnative
  · exact absurd hwrite nofun
  · obtain ⟨hcore, haccount, hopening, -, hwaits, hfin, hcloses, hfinishes⟩ := hinv
    have hdone : s.closeDone true = { s with
        native := none, closes := 1, waitsClose := false, finishes := 1 } := by
      simp [WriteStream.closeDone, hwaits, hcloses, hfinishes]
    rw [hdone]
    exact ⟨.done, nofun, ⟨hcore.autoClose, hcore.destroyed, hcore.refused, hcore.file, hcore.place⟩, haccount,
      hopening, rfl, ⟨hfin.1, hfin.2, hfin.3⟩, rfl, rfl⟩

/-- A step leaves the stream in a phase. -/
lemma Rests.step (h : s.Rests O) (hO : O.Regular) {i : Input} (hi : i.Regular) (hcalm : s.Calm i) :
    (s.step i).Rests O := by
  rw [WriteStream.step.eq_def]
  split
  case isFalse => exact h
  case isTrue henabled =>
    cases i with
    | call c => exact h.call hO c
    | opened fd => exact h.opened hO henabled hcalm
    | openFailed => exact hi.elim
    | written n drain =>
      obtain ⟨op, hop, hne⟩ := henabled
      obtain ⟨p, hp, hinv⟩ := h
      obtain ⟨chunk, pos, -, rfl⟩ | ⟨hclose, -⟩ := hinv.native_eq hop
      · exact hinv.written_ hO n hcalm
      · exact absurd hclose hne
    | writeFailed => exact hi.elim
    | refusedDone =>
      obtain ⟨p, hp, hinv⟩ := h
      exact absurd henabled (by rw [WriteStream.Enabled, hinv.core.refused]; exact lt_irrefl 0)
    | closeDone ok =>
      cases ok with
      | false => exact hi.elim
      | true => exact h.closeDone henabled

lemma Rests.sound (h : s.Rests O) : s.Sound O := by
  obtain ⟨p, hp, hinv⟩ := h
  have hpart : s.written <+: s.given := by
    rw [← hinv.account, List.append_assoc]
    exact List.prefix_append _ _
  have hcounts : s.closes ≤ 1 ∧ s.finishes ≤ 1 ∧ (s.finishes = 1 → p = .done) ∧
      (s.writableEOF = true → s.finishes = 1 ∨ s.opening = true ∨ s.native.isSome = true) := by
    cases p with
    | opening parked =>
      obtain ⟨hopening, -, -, -, -, -, hun⟩ := hinv.shape
      simp [hun.closes, hun.finishes, hopening]
    | between => exact absurd rfl hp
    | idle =>
      obtain ⟨-, -, hun, -, heof⟩ := hinv.shape
      simp [hun.closes, hun.finishes, heof]
    | writing chunk pos =>
      obtain ⟨-, -, hnative, -, -, hun, -⟩ := hinv.shape
      simp [hun.closes, hun.finishes, hnative]
    | closesLater =>
      obtain ⟨hopening, -, -, -, -, -, -, hcloses, hfinishes⟩ := hinv.shape
      simp [hcloses, hfinishes, hopening]
    | closing =>
      obtain ⟨-, hnative, -, -, hcloses, hfinishes⟩ := hinv.shape
      simp [hcloses, hfinishes, hnative]
    | done =>
      obtain ⟨-, -, -, hcloses, hfinishes⟩ := hinv.shape
      simp [hcloses, hfinishes]
  refine ⟨hpart, hinv.core.file, hcounts.1, hcounts.2.1, fun hone => ?_, hcounts.2.2.2⟩
  obtain rfl := hcounts.2.2.1 hone
  obtain ⟨-, -, hfin, hcloses, -⟩ := hinv.shape
  have haccount := hinv.account
  rw [pending, hfin.writableBuf] at haccount
  exact ⟨hfin.writableEOF, by simpa [Phase.chunk] using haccount, hcloses⟩

lemma rests_create (hO : O.Regular) : (create O).Rests O := by
  have hcore : Core O (create O) := by
    refine ⟨hO.1, rfl, rfl, fun i => by simp [create], ?_⟩
    cases hfd : O.fd with
    | none => exact Or.inr ⟨by simp [create, hfd], rfl, rfl, rfl⟩
    | some fd =>
      cases hstart : O.start with
      | none => exact Or.inl ⟨by simp [create, hfd, hstart], by simp [create, Options.first, hstart]⟩
      | some start => exact Or.inr ⟨by simp [create, hstart], rfl, by rw [← hstart]; rfl, rfl⟩
  cases hfd : O.fd with
  | none =>
    exact ⟨.opening none, nofun, hcore, rfl, by simp [create, hfd], hfd, rfl, rfl, rfl, fun _ => ⟨rfl, rfl⟩,
      ⟨rfl, rfl, rfl, rfl, rfl⟩⟩
  | some fd =>
    have hne : fd ≠ 0 := by
      rintro rfl
      exact hO.2.2 hfd
    obtain ⟨n, rfl⟩ := Nat.exists_eq_succ_of_ne_zero hne
    exact ⟨.idle, nofun, hcore, rfl, ⟨by simp [create, hfd], ⟨n, hfd⟩, rfl, rfl⟩, rfl,
      ⟨rfl, rfl, rfl, rfl, rfl⟩, rfl, rfl⟩

end WriteStream

/-! ### Runs -/

/-- Every regular run of calm steps writes the file as it is given, and closes the descriptor once. -/
theorem writeStream_sound (O : Options) (hO : O.Regular) (is : List Input) (his : ∀ i ∈ is, i.Regular)
    (hcalm : machine.Guarded WriteStream.Calm (create O) is) :
    ∀ js, js <+: is → (machine.run (create O) js).Sound O := by
  intro js hjs
  have hstep : ∀ s i, s.Rests O → i.Regular → s.Calm i → (machine.step s i).Rests O :=
    fun _ _ hs hi hok => hs.step hO hi hok
  exact (Machine.forall_prefix_of_guarded hstep (WriteStream.rests_create hO) his hcalm hjs).sound

/-- A file of zeros. -/
def zeros (start : Option Nat) : Options where
  autoClose := true
  start := start
  fd := none
  file := fun _ => 0
  offset := 0

/-- A write in front of `open`, one behind it, and `end`; the first is written in two parts. -/
def parkedRun : List Input :=
  [.call (.write [1, 2, 3] 0), .opened 3, .call (.write [4] 0), .call .end_, .written 2 [], .written 1 [],
    .written 1 [], .closeDone true]

theorem writeStream_sound_parked :
    (machine.run (create (zeros (some 5))) parkedRun).Sound (zeros (some 5)) :=
  writeStream_sound (zeros (some 5)) ⟨rfl, by simp [zeros], by simp [zeros]⟩ parkedRun
    (by simp [parkedRun, Input.Regular])
    ⟨trivial, by simp [WriteStream.Calm], trivial, trivial, fun _ _ => Or.inl rfl, fun _ _ => Or.inl rfl,
      fun _ _ => Or.inl rfl, trivial, trivial⟩ parkedRun List.prefix_rfl

example : (machine.run (create (zeros (some 5))) parkedRun).finishes = 1 := by decide +kernel

/-- A start behind the range of `int`: the byte is written in front of it. -/
theorem not_sound_bigStart : (∀ i ∈ parkedRun, i.Regular) ∧
    ¬(machine.run (create (zeros (some (2 ^ 31)))) parkedRun).Sound (zeros (some (2 ^ 31))) := by
  refine ⟨by simp [parkedRun, Input.Regular], fun h => ?_⟩
  have hfile := h.file (2 ^ 31 - 1)
  revert hfile
  decide +kernel

end LowJs.WriteStreams
