import LowJs.Core.Prefixes
import LowJs.Stream.ReadOrder

/-!
# Read streams of files

The class `ReadStream` of fs.js on top of the class `Readable` of stream.js, with the file below. A read in
front of the end of `open` is parked, the position goes with the first read only, and `close` is reached
from the end of the file, from `destroy` and behind `open`. A `data` listener that pauses or destroys the
stream within `resume` comes with `resume`; the listeners of the other events run as calls of their own.
-/

namespace LowJs.ReadStreams

open LowJs.Stream (Readable.takeBytes)

abbrev Bytes := List UInt8

/-- The options of a stream, and what it finds: the bytes of the file and the position of its descriptor.
`end_` is the last position, `fd` the descriptor if the stream does not open the file. -/
structure Options where
  autoClose : Bool
  start : Option Nat
  end_ : Option Nat
  highWaterMark : Nat
  fd : Option Nat
  file : Bytes
  offset : Nat

/-- What the data thread does for the descriptor. -/
inductive Native
  | read (size : Nat) (pos : Option Int)
  | close
  deriving DecidableEq, Repr

/-- A stream. `native` is the operation under way, `refused` counts the callbacks of those that were refused
as the descriptor was busy, `waitsClose` stands for the callback of `destroy` on `close`, and `offset` is the
position of the descriptor. The rest is history: the bytes read, those emitted as `data` or returned by
`read`, how often `end` and `close` were emitted, and how often the descriptor was closed. -/
structure ReadStream where
  fd : Option Nat
  opening : Bool
  pos : Option Int
  posSet : Bool
  readSize : Option Nat
  closed : Bool
  readableFlowing : Option Bool
  readableBuf : List Bytes
  readableReading : Bool
  readableCalling : Bool
  readableEOF : Bool
  finished : Bool
  destroyed : Bool
  native : Option Native
  refused : Nat
  waitsClose : Bool
  offset : Nat
  got : Bytes
  delivered : Bytes
  ends : Nat
  closes : Nat
  closeEvents : Nat

/-- What a `data` listener does within `resume`. -/
inductive Inner
  | nothing
  | pause
  | destroy
  deriving DecidableEq, Repr

/-- The calls of the user, of the main loop and of the data thread. -/
inductive Input
  | onData
  | resume (inner : Inner)
  | pause
  | read (len : Option Nat)
  | destroy
  | immediate
  | opened (fd : Nat)
  | openFailed
  | readDone (n : Nat)
  | readFailed
  | refusedDone
  | closeDone (ok : Bool)
  deriving DecidableEq, Repr

namespace ReadStream

variable (O : Options)

/-- `duk_get_int_default` brings a position into the range of `int`. -/
def getInt (pos : Option Int) : Option Int := pos.map fun p => min p (2 ^ 31 - 1)

/-- `native.file_pos`; `duk_push_int` takes an `int`. -/
def filePos (offset : Nat) : Int := Int.bmod offset (2 ^ 32)

/-- `native.read`. -/
def nativeRead (s : ReadStream) (size : Nat) (pos : Option Int) : ReadStream :=
  match s.native with
  | some _ => { s with refused := s.refused + 1 }
  | none => { s with native := some (.read size (getInt pos)) }

/-- `native.close`. -/
def nativeClose (s : ReadStream) : ReadStream :=
  match s.native with
  | some _ => { s with refused := s.refused + 1 }
  | none => { s with native := some .close }

/-- `close`; `callback` says whether it is called with a callback. The descriptor 0 counts as none. -/
def close (s : ReadStream) (callback : Bool) : ReadStream :=
  let s := { s with waitsClose := s.waitsClose || callback, closed := true }
  match s.fd with
  | none | some 0 => s
  | some (_ + 1) => { s.nativeClose with fd := none }

/-- `destroy`. -/
def destroy (s : ReadStream) : ReadStream :=
  if s.destroyed then s
  else
    let s := { s with destroyed := true, readableEOF := true, finished := true }
    if O.autoClose then s.close true else { s with closeEvents := s.closeEvents + 1 }

/-- `readableLength`. -/
def readableLength (s : ReadStream) : Nat := s.readableBuf.flatten.length

/-- The test in front of `_read`. -/
def wantsRead (s : ReadStream) : Bool :=
  !s.readableEOF && !s.readableReading && decide (s.readableLength < O.highWaterMark)

/-- `setImmediate` with `_reconsiderRead`. -/
def considerRead (s : ReadStream) : ReadStream :=
  if s.wantsRead O then { s with readableCalling := true } else s

/-- `push`; `none` is the end. -/
def push (s : ReadStream) (chunk : Option Bytes) : ReadStream :=
  if s.readableEOF then { s with readableReading := false }
  else
    match chunk with
    | none =>
      let s := { s with readableEOF := true, readableReading := false }
      if s.readableFlowing = some true then { s with finished := true, ends := s.ends + 1 } else s
    | some data =>
      let s := { s with readableReading := false }
      if s.readableFlowing = some true then considerRead O { s with delivered := s.delivered ++ data }
      else considerRead O { s with readableBuf := s.readableBuf ++ [data] }

/-- What is left of the range, with the position of the stream. -/
def room (s : ReadStream) (size : Nat) : Nat :=
  match O.end_, s.pos with
  | some last, some pos => min size (last + 1 - pos).toNat
  | _, _ => size

/-- `_read`. -/
def read_ (s : ReadStream) (size : Nat) : ReadStream :=
  match s.fd with
  | none => { s with readSize := some size }
  | some _ =>
    let s := { s with readSize := none }
    if s.room O size = 0 then s.push O none
    else s.nativeRead (s.room O size) (if s.posSet then none else s.pos)

/-- `_reconsiderRead`. -/
def reconsiderRead (s : ReadStream) : ReadStream :=
  let s := { s with readableCalling := false }
  if s.wantsRead O then { s with readableReading := true }.read_ O 1024 else s

/-- `pause`. -/
def pause (s : ReadStream) : ReadStream := considerRead O { s with readableFlowing := some false }

/-- The loop of `resume`: `read()` takes all of the buffer. -/
def resumeLoop (s : ReadStream) (inner : Inner) : ReadStream :=
  if s.readableBuf = [] then s
  else
    let s := considerRead O { s with delivered := s.delivered ++ s.readableBuf.flatten, readableBuf := [] }
    match inner with
    | .nothing => s
    | .pause => s.pause O
    | .destroy => s.destroy O

/-- `resume`. -/
def resume (s : ReadStream) (inner : Inner) : ReadStream :=
  let s := { s with readableFlowing := some true }.resumeLoop O inner
  let s :=
    if s.readableFlowing = some true ∧ s.readableEOF ∧ s.finished = false then
      { s with finished := true, ends := s.ends + 1 }
    else s
  { s with readableCalling := true }

/-- A `data` listener is added. The first one resumes the stream in front of that; nobody gets what `resume`
emits then. -/
def onData (s : ReadStream) : ReadStream :=
  if s.readableFlowing = none then { s with readableBuf := [] }.resume O .nothing else s

/-- `read`. -/
def read (s : ReadStream) (len : Option Nat) : ReadStream :=
  let n := if s.readableEOF then s.readableLength else len.getD s.readableLength
  if s.readableLength < n then s
  else considerRead O { s with
    delivered := s.delivered ++ (Readable.takeBytes n s.readableBuf).1
    readableBuf := (Readable.takeBytes n s.readableBuf).2 }

/-- The position of a descriptor that is there. -/
def setPos (s : ReadStream) : ReadStream :=
  match s.pos with
  | some _ => s
  | none => { s with pos := if O.end_.isSome then some (filePos s.offset) else none, posSet := true }

/-- The callback of `native.open`. -/
def opened (s : ReadStream) (fd : Nat) : ReadStream :=
  let s := { s with opening := false, fd := some fd }.setPos O
  let s :=
    match s.readSize with
    | some size => s.read_ O size
    | none => s
  if s.closed then { s with closed := false }.close false else s

/-- The data thread reads up to `n + 1` bytes, and the callback of `native.read` runs. -/
def readDone (s : ReadStream) (n : Nat) : ReadStream :=
  match s.native with
  | some (.read size pos) =>
    let offset := (pos.map Int.toNat).getD s.offset
    let data := (O.file.drop offset).take (min size (n + 1))
    let s := { s with native := none, offset := offset + data.length, posSet := true }
    if data = [] then
      if O.autoClose then (s.push O none).close false else s.push O none
    else
      { s with pos := s.pos.map (· + data.length), got := s.got ++ data }.push O (some data)
  | _ => s

/-- The callback of `native.close`, with the event `close`. -/
def closeDone (s : ReadStream) (ok : Bool) : ReadStream :=
  let s := { s with native := none, closes := s.closes + 1 }
  if ok then { s with waitsClose := false, closeEvents := s.closeEvents + 1 + s.waitsClose.toNat }
  else if O.autoClose then s.destroy O else s

/-- The inputs that can happen. -/
def Enabled (s : ReadStream) : Input → Prop
  | .onData | .resume _ | .pause | .read _ | .destroy => True
  | .immediate => s.readableCalling = true
  | .opened _ | .openFailed => s.opening = true
  | .readDone _ | .readFailed => ∃ op ∈ s.native, op ≠ .close
  | .refusedDone => 0 < s.refused
  | .closeDone _ => s.native = some .close

instance (s : ReadStream) : ∀ i, Decidable (s.Enabled i)
  | .onData | .resume _ | .pause | .read _ | .destroy => inferInstanceAs (Decidable True)
  | .immediate | .opened _ | .openFailed | .closeDone _ => inferInstanceAs (Decidable (_ = _))
  | .readDone _ | .readFailed => inferInstanceAs (Decidable (∃ op ∈ s.native, op ≠ .close))
  | .refusedDone => inferInstanceAs (Decidable (0 < _))

def step (s : ReadStream) (i : Input) : ReadStream :=
  if s.Enabled i then
    match i with
    | .onData => s.onData O
    | .resume inner => s.resume O inner
    | .pause => s.pause O
    | .read len => s.read O len
    | .destroy => s.destroy O
    | .immediate => s.reconsiderRead O
    | .opened fd => s.opened O fd
    | .openFailed => if O.autoClose then { s with opening := false }.destroy O else { s with opening := false }
    | .readDone n => s.readDone O n
    | .readFailed => { s with native := none }.destroy O
    | .refusedDone => { s with refused := s.refused - 1 }.destroy O
    | .closeDone ok => s.closeDone O ok
  else s

end ReadStream

/-- What the constructor leaves. -/
def create (O : Options) : ReadStream :=
  let s : ReadStream := {
    fd := O.fd
    opening := O.fd.isNone
    pos := O.start.map Int.ofNat
    posSet := false
    readSize := none
    closed := false
    readableFlowing := none
    readableBuf := []
    readableReading := false
    readableCalling := false
    readableEOF := false
    finished := false
    destroyed := false
    native := none
    refused := 0
    waitsClose := false
    offset := O.offset
    got := []
    delivered := []
    ends := 0
    closes := 0
    closeEvents := 0 }
  if O.fd.isSome then s.setPos O else s

def machine (O : Options) : Machine ReadStream Input := ⟨ReadStream.step O⟩

/-- The first position of the stream. -/
def Options.first (O : Options) : Nat := O.start.getD O.offset

/-- The bytes of the range, as far as the file has them. -/
def Options.range (O : Options) : Bytes :=
  match O.end_ with
  | some last => (O.file.drop O.first).take (last + 1 - O.first)
  | none => O.file.drop O.first

/-- The stream delivers the range in its order, and `end` once behind it; while it flows something is under
way, or `end` has come. The descriptor is closed at most once, with `close`, and by a stream that closes it
as soon as it ends. -/
structure ReadStream.Sound (O : Options) (s : ReadStream) : Prop where
  part : s.delivered <+: O.range
  ends : s.ends ≤ 1
  complete : s.ends = 1 → s.delivered = O.range
  flows : s.readableFlowing = some true → s.destroyed = false →
    s.ends = 1 ∨ s.readableCalling = true ∨ s.opening = true ∨ s.native.isSome = true
  closes : s.closes ≤ 1
  closeEvents : s.closes = 1 → 1 ≤ s.closeEvents
  closing : O.autoClose = true → s.readableEOF = true →
    s.closes = 1 ∨ s.opening = true ∨ s.native = some .close

/-- The range starts in front of its end, positions are `int`s, and the descriptor is not 0. -/
structure Options.Regular (O : Options) : Prop where
  range : ∀ last ∈ O.end_, O.first ≤ last
  start : ∀ p ∈ O.start, p < 2 ^ 31
  offset : O.start = none → O.end_ ≠ none → O.offset < 2 ^ 31
  highWaterMark : 0 < O.highWaterMark
  fd : O.fd ≠ some 0

/-- No read is under way or parked. -/
def ReadStream.Quiet (s : ReadStream) : Prop := (∀ size pos, s.native ≠ some (.read size pos)) ∧ s.readSize = none

/-- The steps that close a stream in an orderly way: the descriptor is not 0 and can be opened and closed, a
stream with `autoClose` does not come to the end of its range, and it is not destroyed while a read is under
way or parked; the first `data` listener finds an empty buffer. -/
def ReadStream.Calm (O : Options) (s : ReadStream) : Input → Prop
  | .onData => s.readableFlowing = none → s.readableBuf = []
  | .resume .destroy => s.readableBuf ≠ [] → O.autoClose = true → s.Quiet
  | .destroy => O.autoClose = true → s.Quiet
  | .immediate => O.autoClose = true → s.wantsRead O = true → s.fd ≠ none → s.room O 1024 ≠ 0
  | .opened fd => fd ≠ 0
  | .openFailed => False
  | .closeDone ok => ok = true
  | _ => True

namespace ReadStream

variable {O : Options} {s : ReadStream}

/-! ### The range -/

/-- What the file has behind a part of the range continues it. -/
lemma append_range {got : Bytes} (hgot : got <+: O.range) {m : Nat}
    (hm : ∀ last ∈ O.end_, O.first + got.length + m ≤ last + 1) :
    got ++ (O.file.drop (O.first + got.length)).take m <+: O.range := by
  rw [← List.drop_drop]
  cases hend : O.end_ with
  | none =>
    have hrange : O.range = O.file.drop O.first := by rw [Options.range, hend]
    rw [hrange] at hgot ⊢
    obtain ⟨rest, hrest⟩ := hgot
    rw [← hrest, List.drop_left]
    exact (List.prefix_append_right_inj got).mpr (List.take_prefix m rest)
  | some last =>
    have hrange : O.range = (O.file.drop O.first).take (last + 1 - O.first) := by rw [Options.range, hend]
    rw [hrange] at hgot ⊢
    obtain ⟨rest, hrest⟩ := hgot.trans (List.take_prefix _ _)
    have hlast := hm last hend
    have htake : got.take (last + 1 - O.first) = got := List.take_of_length_le (by omega)
    rw [← hrest, List.drop_left, List.take_append, htake]
    exact (List.prefix_append_right_inj got).mpr (List.take_prefix_take_left (by omega))

/-- At the end of the file or of the range, all of it is there. -/
lemma eq_range {got : Bytes} (hgot : got <+: O.range)
    (hend : O.file.length ≤ O.first + got.length ∨ ∃ last ∈ O.end_, last + 1 ≤ O.first + got.length) :
    got = O.range := by
  refine hgot.eq_of_length_le ?_
  obtain hfile | ⟨last, hlast, hle⟩ := hend
  · have hle : O.range.length ≤ (O.file.drop O.first).length := by
      rw [Options.range]
      split
      · exact List.length_take_le' _ _
      · exact le_rfl
    rw [List.length_drop] at hle
    omega
  · rw [Options.range, hlast]
    simp only [List.length_take]
    omega

/-! ### What holds between two steps -/

/-- The data of a stream. -/
structure Data (O : Options) (s : ReadStream) : Prop where
  refused : s.refused = 0
  got : s.got <+: O.range
  account : s.delivered ++ s.readableBuf.flatten <+: s.got
  whole : s.destroyed = false → s.delivered ++ s.readableBuf.flatten = s.got
  flowing : s.readableFlowing = some true → s.readableBuf = []
  eof : s.readableEOF = true → s.destroyed = true ∨ s.got = O.range
  ends : s.ends = 0 ∨ (s.ends = 1 ∧ s.finished = true ∧ s.readableBuf = [] ∧ s.delivered = O.range)
  finished : s.finished = true → s.readableEOF = true ∧ (s.destroyed = true ∨ s.ends = 1)
  destroyed : s.destroyed = true → s.readableEOF = true ∧ s.finished = true

/-- A flowing stream waits for a read or has ended. -/
def Live (s : ReadStream) : Prop :=
  s.readableFlowing = some true → s.destroyed = false →
    s.ends = 1 ∨ (s.readableEOF = false ∧ (s.readableReading = true ∨ s.readableCalling = true))

/-- The phases of the descriptor. -/
inductive Phase
  | opening
  | closesLater
  | free
  | reading (size : Nat) (pos : Option Int)
  | closing
  | done

/-- The next byte that is read is the next one of the range. -/
def Placed (O : Options) (s : ReadStream) : Prop :=
  ((s.posSet = true ∧ s.offset = O.first + s.got.length) ∨
    (s.posSet = false ∧ s.got = [] ∧ s.pos = O.start.map Int.ofNat ∧ s.offset = O.offset)) ∧
  ∀ last ∈ O.end_, s.pos = some ((O.first + s.got.length : Nat) : Int)

def At (O : Options) (s : ReadStream) : Phase → Prop
  | .opening => s.opening = true ∧ s.fd = none ∧ s.native = none ∧ s.closed = false ∧ s.closes = 0 ∧
      (s.readSize = none ∨ s.readSize = some 1024) ∧
      (s.readableEOF = false → s.readableReading = s.readSize.isSome) ∧
      (s.readableEOF = true → s.destroyed = true ∧ O.autoClose = false) ∧
      s.posSet = false ∧ s.got = [] ∧ s.pos = O.start.map Int.ofNat ∧ s.offset = O.offset
  | .closesLater => s.opening = true ∧ s.fd = none ∧ s.native = none ∧ s.closed = true ∧ s.closes = 0 ∧
      s.readSize = none ∧ s.readableEOF = true ∧ s.destroyed = true
  | .free => s.opening = false ∧ (∃ n, s.fd = some (n + 1)) ∧ s.native = none ∧ s.closed = false ∧
      s.closes = 0 ∧ s.readSize = none ∧ (s.readableEOF = false → s.readableReading = false) ∧
      (s.readableEOF = true → O.autoClose = false) ∧ s.Placed O
  | .reading size pos => s.opening = false ∧ (∃ n, s.fd = some (n + 1)) ∧ s.native = some (.read size pos) ∧
      s.closed = false ∧ s.closes = 0 ∧ s.readSize = none ∧
      (s.readableEOF = false → s.readableReading = true) ∧
      (s.readableEOF = true → s.destroyed = true ∧ O.autoClose = false) ∧ s.Placed O ∧ size ≠ 0 ∧
      (∀ last ∈ O.end_, O.first + s.got.length + size ≤ last + 1) ∧
      (pos.map Int.toNat).getD s.offset = O.first + s.got.length
  | .closing => s.opening = false ∧ s.fd = none ∧ s.native = some .close ∧ s.closes = 0 ∧ s.readableEOF = true
  | .done => s.opening = false ∧ s.fd = none ∧ s.native = none ∧ s.closes = 1 ∧ 1 ≤ s.closeEvents ∧
      s.readableEOF = true

structure Inv (O : Options) (s : ReadStream) : Prop where
  data : Data O s
  live : s.Live
  shape : ∃ p, s.At O p

/-! ### Operations on the buffer -/

lemma Data.considerRead (h : Data O s) : Data O (s.considerRead O) := by
  rw [ReadStream.considerRead]
  split
  · exact { h with }
  · exact h

lemma at_considerRead {p : Phase} : (s.considerRead O).At O p ↔ s.At O p := by
  rw [ReadStream.considerRead]
  split
  · cases p <;> exact Iff.rfl
  · exact Iff.rfl

/-- A flowing stream reads on. -/
lemma live_considerRead (hO : O.Regular) (hflowing : s.readableFlowing = some true → s.readableBuf = [])
    (h : s.readableFlowing = some true → s.destroyed = false → s.ends = 1 ∨ s.readableEOF = false) :
    (s.considerRead O).Live := by
  rw [ReadStream.considerRead]
  by_cases hwants : s.wantsRead O = true
  · rw [if_pos hwants]
    intro hflow hdestroyed
    exact (h hflow hdestroyed).imp id fun heof => ⟨heof, Or.inr rfl⟩
  · rw [if_neg hwants]
    intro hflow hdestroyed
    refine (h hflow hdestroyed).imp id fun heof => ⟨heof, Or.inl ?_⟩
    have hroom : s.readableLength < O.highWaterMark := by
      rw [readableLength, hflowing hflow]
      exact hO.highWaterMark
    simpa [wantsRead, heof, hroom] using hwants

lemma Live.ended (h : s.Live) (hflow : s.readableFlowing = some true) (hdestroyed : s.destroyed = false) :
    s.ends = 1 ∨ s.readableEOF = false :=
  (h hflow hdestroyed).imp id And.left

lemma Inv.pause (h : Inv O s) (hO : O.Regular) : Inv O (s.pause O) := by
  have hdata : Data O { s with readableFlowing := some false } := { h.data with flowing := nofun }
  obtain ⟨p, hp⟩ := h.shape
  exact ⟨hdata.considerRead, live_considerRead hO nofun nofun, p, at_considerRead.mpr (by cases p <;> exact hp)⟩

lemma Data.read (h : Data O s) (n : Nat) :
    Data O { s with
      delivered := s.delivered ++ (Readable.takeBytes n s.readableBuf).1
      readableBuf := (Readable.takeBytes n s.readableBuf).2 } := by
  have hflat : s.delivered ++ (Readable.takeBytes n s.readableBuf).1 ++
      (Readable.takeBytes n s.readableBuf).2.flatten = s.delivered ++ s.readableBuf.flatten := by
    rw [List.append_assoc, Stream.Readable.takeBytes_append]
  have hnil : s.readableBuf = [] → (Readable.takeBytes n s.readableBuf).1 = [] ∧
      (Readable.takeBytes n s.readableBuf).2 = [] := by
    intro hbuf
    rw [hbuf]
    cases n <;> exact ⟨rfl, rfl⟩
  refine { h with
    account := hflat ▸ h.account
    whole := fun hdestroyed => hflat.trans (h.whole hdestroyed)
    flowing := fun hflow => (hnil (h.flowing hflow)).2
    ends := h.ends.imp id ?_ }
  rintro ⟨hone, hfinished, hbuf, hrange⟩
  refine ⟨hone, hfinished, (hnil hbuf).2, ?_⟩
  show s.delivered ++ (Readable.takeBytes n s.readableBuf).1 = O.range
  rw [(hnil hbuf).1, List.append_nil, hrange]

lemma Inv.read (h : Inv O s) (hO : O.Regular) (len : Option Nat) : Inv O (s.read O len) := by
  rw [ReadStream.read]
  generalize (if s.readableEOF = true then s.readableLength else len.getD s.readableLength) = n
  split
  · exact h
  · obtain ⟨p, hp⟩ := h.shape
    have hdata := h.data.read n
    exact ⟨hdata.considerRead, live_considerRead hO hdata.flowing h.live.ended, p,
      at_considerRead.mpr (by cases p <;> exact hp)⟩

/-! ### The end of a stream -/

lemma Quiet.at (h : s.Quiet) {p : Phase} (hp : s.At O p) : ∀ size pos, p ≠ .reading size pos := by
  rintro size pos rfl
  exact h.1 size pos hp.2.2.1

lemma Data.destroy (h : Data O s) :
    Data O { s with destroyed := true, readableEOF := true, finished := true } where
  refused := h.refused
  got := h.got
  account := h.account
  whole := nofun
  flowing := h.flowing
  eof _ := Or.inl rfl
  ends := h.ends.imp id fun hone => ⟨hone.1, rfl, hone.2.2⟩
  finished _ := ⟨rfl, Or.inl rfl⟩
  destroyed _ := ⟨rfl, rfl⟩

/-- The descriptor is closed where nothing is under way for it. -/
lemma Data.close_free (h : Data O s) (hlive : s.Live) (hopening : s.opening = false)
    (hfd : ∃ n, s.fd = some (n + 1)) (hnative : s.native = none) (hcloses : s.closes = 0)
    (heof : s.readableEOF = true) (callback : Bool) : Inv O (s.close callback) := by
  obtain ⟨n, hfd⟩ := hfd
  have hclose : s.close callback = { s with
      waitsClose := s.waitsClose || callback, closed := true, native := some .close, fd := none } := by
    simp [ReadStream.close, hfd, nativeClose, hnative]
  rw [hclose]
  exact ⟨{ h with }, hlive, .closing, hopening, rfl, rfl, hcloses, heof⟩

lemma Data.close_none (h : Data O s) (hlive : s.Live) (hfd : s.fd = none) (callback : Bool) {p : Phase}
    (hp : At O { s with waitsClose := s.waitsClose || callback, closed := true } p) :
    Inv O (s.close callback) := by
  have hclose : s.close callback = { s with waitsClose := s.waitsClose || callback, closed := true } := by
    simp [ReadStream.close, hfd]
  rw [hclose]
  exact ⟨{ h with }, hlive, p, hp⟩

lemma Data.destroy_inv (h : Data O s) (hshape : ∃ p, s.At O p) (hquiet : O.autoClose = true → s.Quiet) :
    Inv O (s.destroy O) := by
  rw [ReadStream.destroy]
  by_cases hdestroyed : s.destroyed = true
  · rw [if_pos hdestroyed]
    exact ⟨h, fun _ hnot => absurd (hnot.symm.trans hdestroyed) Bool.false_ne_true, hshape⟩
  rw [if_neg hdestroyed]
  rw [Bool.not_eq_true] at hdestroyed
  have hdata := h.destroy
  obtain ⟨p, hp⟩ := hshape
  by_cases hauto : O.autoClose = true
  · simp only [hauto, if_true]
    have hreading := (hquiet hauto).at hp
    cases p with
    | opening =>
      obtain ⟨hopening, hfd, hnative, hclosed, hcloses, -⟩ := hp
      exact hdata.close_none nofun hfd true (p := .closesLater)
        ⟨hopening, hfd, hnative, rfl, hcloses, (hquiet hauto).2, rfl, rfl⟩
    | closesLater => exact absurd (hdestroyed.symm.trans hp.2.2.2.2.2.2.2) Bool.false_ne_true
    | free =>
      obtain ⟨hopening, hfd, hnative, hclosed, hcloses, -⟩ := hp
      exact hdata.close_free nofun hopening hfd hnative hcloses rfl true
    | reading size pos => exact absurd rfl (hreading size pos)
    | closing =>
      obtain ⟨hopening, hfd, hnative, hcloses, heof⟩ := hp
      exact hdata.close_none nofun hfd true (p := .closing) ⟨hopening, hfd, hnative, hcloses, rfl⟩
    | done =>
      obtain ⟨hopening, hfd, hnative, hcloses, hevents, heof⟩ := hp
      exact hdata.close_none nofun hfd true (p := .done) ⟨hopening, hfd, hnative, hcloses, hevents, rfl⟩
  · simp only [hauto, if_false, Bool.false_eq_true]
    rw [Bool.not_eq_true] at hauto
    refine ⟨{ hdata with }, nofun, p, ?_⟩
    cases p with
    | opening =>
      obtain ⟨hopening, hfd, hnative, hclosed, hcloses, hsize, hread, heof, hplace⟩ := hp
      exact ⟨hopening, hfd, hnative, hclosed, hcloses, hsize, nofun, fun _ => ⟨rfl, hauto⟩, hplace⟩
    | closesLater => exact absurd (hdestroyed.symm.trans hp.2.2.2.2.2.2.2) Bool.false_ne_true
    | free =>
      obtain ⟨hopening, hfd, hnative, hclosed, hcloses, hsize, hread, heof, hplace⟩ := hp
      exact ⟨hopening, hfd, hnative, hclosed, hcloses, hsize, nofun, fun _ => hauto, hplace⟩
    | reading size pos =>
      obtain ⟨hopening, hfd, hnative, hclosed, hcloses, hsize, hread, heof, hplace⟩ := hp
      exact ⟨hopening, hfd, hnative, hclosed, hcloses, hsize, nofun, fun _ => ⟨rfl, hauto⟩, hplace⟩
    | closing =>
      obtain ⟨hopening, hfd, hnative, hcloses, heof⟩ := hp
      exact ⟨hopening, hfd, hnative, hcloses, rfl⟩
    | done =>
      obtain ⟨hopening, hfd, hnative, hcloses, hevents, heof⟩ := hp
      exact ⟨hopening, hfd, hnative, hcloses, hevents.trans (Nat.le_succ _), rfl⟩

lemma Data.finished_of_eof (h : Data O s) (heof : s.readableEOF = false) : s.finished = false := by
  by_contra hfinished
  exact Bool.false_ne_true (heof.symm.trans (h.finished (by simpa using hfinished)).1)

/-- A stream that is not finished is not destroyed, and has not ended. -/
lemma Data.unfinished (h : Data O s) (hfinished : s.finished = false) : s.destroyed = false ∧ s.ends = 0 := by
  constructor
  · by_contra hdestroyed
    exact Bool.false_ne_true (hfinished.symm.trans (h.destroyed (by simpa using hdestroyed)).2)
  · obtain hzero | hone := h.ends
    · exact hzero
    · exact absurd (hfinished.symm.trans hone.2.1) Bool.false_ne_true

/-- What a flowing stream has delivered is all that it has got. -/
lemma Data.delivered (h : Data O s) (hflow : s.readableFlowing = some true) (hdestroyed : s.destroyed = false) :
    s.delivered = s.got := by
  have hwhole := h.whole hdestroyed
  rw [h.flowing hflow, List.flatten_nil, List.append_nil] at hwhole
  exact hwhole

/-- All of the range has come. -/
lemma Data.push_none (h : Data O s) (hrange : s.got = O.range) : Data O (s.push O none) := by
  rw [ReadStream.push]
  by_cases heof : s.readableEOF = true
  · rw [if_pos heof]
    exact { h with }
  · rw [if_neg heof]
    obtain ⟨hdestroyed, hzero⟩ := h.unfinished (h.finished_of_eof (Bool.eq_false_iff.mpr heof))
    dsimp only
    split
    case isTrue hflow =>
      exact { h with
        eof := fun _ => Or.inr hrange
        ends := Or.inr ⟨by rw [hzero], rfl, h.flowing hflow, (h.delivered hflow hdestroyed).trans hrange⟩
        finished := fun _ => ⟨rfl, Or.inr (by rw [hzero])⟩
        destroyed := fun htrue => absurd (hdestroyed.symm.trans htrue) Bool.false_ne_true }
    case isFalse =>
      exact { h with
        eof := fun _ => Or.inr hrange
        finished := fun hfinished => absurd (h.finished hfinished).1 heof
        destroyed := fun htrue => absurd (hdestroyed.symm.trans htrue) Bool.false_ne_true }

lemma live_push_none (h : Data O s) (hlive : s.Live) : (s.push O none).Live := by
  rw [ReadStream.push]
  by_cases heof : s.readableEOF = true
  · rw [if_pos heof]
    intro hflow hdestroyed
    exact (hlive hflow hdestroyed).imp id fun hnot => absurd (hnot.1.symm.trans heof) Bool.false_ne_true
  · rw [if_neg heof]
    dsimp only
    split
    case isTrue hflow =>
      intro _ _
      obtain ⟨-, hzero⟩ := h.unfinished (h.finished_of_eof (Bool.eq_false_iff.mpr heof))
      exact Or.inl (congrArg (· + 1) hzero)
    case isFalse hflow =>
      intro hflow'
      exact absurd hflow' hflow

/-- `push` of the end leaves the descriptor alone. -/
lemma push_none_fields (s : ReadStream) : (s.push O none).opening = s.opening ∧ (s.push O none).fd = s.fd ∧
    (s.push O none).native = s.native ∧ (s.push O none).closed = s.closed ∧
    (s.push O none).closes = s.closes ∧ (s.push O none).readSize = s.readSize ∧
    (s.push O none).readableEOF = true ∧ ((s.push O none).Placed O ↔ s.Placed O) := by
  rw [ReadStream.push]
  by_cases heof : s.readableEOF = true
  · rw [if_pos heof]
    exact ⟨rfl, rfl, rfl, rfl, rfl, rfl, heof, Iff.rfl⟩
  · rw [if_neg heof]
    dsimp only
    split <;> exact ⟨rfl, rfl, rfl, rfl, rfl, rfl, rfl, Iff.rfl⟩

/-! ### Reads -/

lemma Placed.next_place (h : s.Placed O) (hO : O.Regular) :
    ((getInt (if s.posSet = true then none else s.pos)).map Int.toNat).getD s.offset =
      O.first + s.got.length := by
  obtain ⟨⟨hset, hoffset⟩ | ⟨hset, hgot, hpos, hoffset⟩, -⟩ := h
  · simp [hset, getInt, hoffset]
  · rw [hset, if_neg Bool.false_ne_true, hpos, hoffset, hgot, Options.first]
    cases hstart : O.start with
    | none => rfl
    | some start =>
      have hlt := hO.start start hstart
      show (min (start : Int) (2 ^ 31 - 1)).toNat = start + 0
      omega

/-- What is asked for lies in the range, and at its end nothing is. -/
lemma Placed.room (h : s.Placed O) (size : Nat) :
    (∀ last ∈ O.end_, O.first + s.got.length + s.room O size ≤ last + 1 ∨ s.room O size = 0) ∧
      (s.room O size = 0 → size = 0 ∨ ∃ last ∈ O.end_, last + 1 ≤ O.first + s.got.length) := by
  rw [ReadStream.room.eq_def]
  cases hend : O.end_ with
  | none => exact ⟨nofun, fun hzero => Or.inl hzero⟩
  | some last =>
    rw [h.2 last hend]
    simp only [Option.mem_def, Option.some.injEq, forall_eq', exists_eq_left']
    omega

lemma nativeRead_free (hnative : s.native = none) (size : Nat) (pos : Option Int) :
    s.nativeRead size pos = { s with native := some (.read size (getInt pos)) } := by
  rw [nativeRead]
  split
  · rename_i hbusy
    exact absurd (hnative.symm.trans hbusy) nofun
  · rfl

/-- A read for a free descriptor. -/
lemma Data.read_ (h : Data O s) (hO : O.Regular) (hopening : s.opening = false)
    (hfd : ∃ n, s.fd = some (n + 1)) (hnative : s.native = none) (hclosed : s.closed = false)
    (hcloses : s.closes = 0) (hreading : s.readableEOF = false → s.readableReading = true)
    (heof : s.readableEOF = true → s.destroyed = true ∧ O.autoClose = false) (hplaced : s.Placed O)
    (hlive : s.Live) (hroom : O.autoClose = true → s.room O 1024 ≠ 0) : Inv O (s.read_ O 1024) := by
  obtain ⟨n, hn⟩ := hfd
  have hdata : Data O { s with readSize := none } := { h with }
  have hroom' : ({ s with readSize := none } : ReadStream).room O 1024 = s.room O 1024 := rfl
  obtain ⟨hle, hzero⟩ := hplaced.room 1024
  have hread : s.read_ O 1024 = if s.room O 1024 = 0 then ({ s with readSize := none } : ReadStream).push O none
      else { s with
        readSize := none
        native := some (.read (s.room O 1024) (getInt (if s.posSet = true then none else s.pos))) } := by
    rw [ReadStream.read_.eq_def]
    split
    · rename_i hnone
      exact absurd (hn.symm.trans hnone) nofun
    · dsimp only
      rw [hroom', nativeRead_free (s := { s with readSize := none }) hnative]
  rw [hread]
  split
  case isTrue hnone =>
    have hauto : O.autoClose = false := by
      by_contra hauto
      exact hroom (by simpa using hauto) hnone
    have hrange : s.got = O.range := eq_range h.got (Or.inr ((hzero hnone).resolve_left (by decide)))
    obtain ⟨ho, hf, hn', hc, hcs, hsz, he, hpl⟩ := push_none_fields (O := O) { s with readSize := none }
    refine ⟨hdata.push_none hrange, live_push_none hdata hlive, .free, ho.trans hopening, ⟨n, hf.trans hn⟩,
      hn'.trans hnative, hc.trans hclosed, hcs.trans hcloses, hsz, fun hnot => ?_, fun _ => hauto,
      hpl.mpr hplaced⟩
    exact absurd (hnot.symm.trans he) Bool.false_ne_true
  case isFalse hsome =>
    exact ⟨{ h with }, hlive, .reading _ _, hopening, ⟨n, hn⟩, rfl, hclosed, hcloses, rfl, hreading, heof,
      hplaced, hsome, fun last hlast => (hle last hlast).resolve_right hsome, hplaced.next_place hO⟩

lemma Inv.immediate (h : Inv O s) (hO : O.Regular)
    (hcalm : O.autoClose = true → s.wantsRead O = true → s.fd ≠ none → s.room O 1024 ≠ 0) :
    Inv O (s.reconsiderRead O) := by
  have hdata : Data O { s with readableCalling := false } := { h.data with }
  have hwants' : ({ s with readableCalling := false } : ReadStream).wantsRead O = s.wantsRead O := rfl
  obtain ⟨p, hp⟩ := h.shape
  rw [ReadStream.reconsiderRead]
  dsimp only
  rw [hwants']
  by_cases hwants : s.wantsRead O = true
  · rw [if_pos hwants]
    obtain ⟨heof, hreading⟩ : s.readableEOF = false ∧ s.readableReading = false := by
      simp only [wantsRead, Bool.and_eq_true, Bool.not_eq_true'] at hwants
      exact hwants.1
    have hlive : Live { s with readableCalling := false, readableReading := true } :=
      fun _ _ => Or.inr ⟨heof, Or.inl rfl⟩
    cases p with
    | opening =>
      obtain ⟨hopening, hfd, hnative, hclosed, hcloses, hsize, hread, heof', hplace⟩ := hp
      have hparked : ({ s with readableCalling := false, readableReading := true } : ReadStream).read_ O 1024 =
          { s with readableCalling := false, readableReading := true, readSize := some 1024 } := by
        rw [ReadStream.read_.eq_def]
        simp only [hfd]
      rw [hparked]
      exact ⟨{ h.data with }, hlive, .opening, hopening, hfd, hnative, hclosed, hcloses, Or.inr rfl, fun _ => rfl,
        heof', hplace⟩
    | closesLater => exact absurd (heof.symm.trans hp.2.2.2.2.2.2.1) Bool.false_ne_true
    | free =>
      obtain ⟨hopening, hfd, hnative, hclosed, hcloses, hsize, hread, heof', hplace⟩ := hp
      have hfd' : s.fd ≠ none := by
        obtain ⟨n, hn⟩ := hfd
        rw [hn]
        exact Option.some_ne_none _
      exact Data.read_ (s := { s with readableCalling := false, readableReading := true }) { h.data with } hO
        hopening hfd hnative hclosed hcloses (fun _ => rfl)
        (fun htrue => absurd (heof.symm.trans htrue) Bool.false_ne_true) hplace hlive
        fun hauto => hcalm hauto hwants hfd'
    | reading size pos => exact absurd (hreading.symm.trans (hp.2.2.2.2.2.2.1 heof)) Bool.false_ne_true
    | closing => exact absurd (heof.symm.trans hp.2.2.2.2) Bool.false_ne_true
    | done => exact absurd (heof.symm.trans hp.2.2.2.2.2) Bool.false_ne_true
  · rw [if_neg hwants]
    refine ⟨hdata, fun hflow hdestroyed => ?_, p, by cases p <;> exact hp⟩
    refine (h.live hflow hdestroyed).imp id fun hnot => ⟨hnot.1, Or.inl ?_⟩
    have hroom : s.readableLength < O.highWaterMark := by
      rw [readableLength, h.data.flowing hflow]
      exact hO.highWaterMark
    have heof := hnot.1
    simpa [wantsRead, heof, hroom] using hwants

/-! ### The steps -/

lemma Data.setPos (h : Data O s) : Data O (s.setPos O) := by
  rw [ReadStream.setPos.eq_def]
  split
  · exact h
  · exact { h with }

lemma setPos_fields (s : ReadStream) : (s.setPos O).opening = s.opening ∧ (s.setPos O).fd = s.fd ∧
    (s.setPos O).native = s.native ∧ (s.setPos O).closed = s.closed ∧ (s.setPos O).closes = s.closes ∧
    (s.setPos O).readSize = s.readSize ∧ (s.setPos O).readableReading = s.readableReading ∧
    (s.setPos O).readableEOF = s.readableEOF ∧ (s.setPos O).destroyed = s.destroyed ∧
    (s.setPos O).got = s.got ∧ ((s.setPos O).Live ↔ s.Live) := by
  rw [ReadStream.setPos.eq_def]
  split <;> exact ⟨rfl, rfl, rfl, rfl, rfl, rfl, rfl, rfl, rfl, rfl, Iff.rfl⟩

lemma filePos_of_lt {offset : Nat} (h : offset < 2 ^ 31) : filePos offset = offset := by
  refine Int.bmod_eq_of_le ?_ ?_ <;> omega

/-- The position of a descriptor that was opened just now. -/
lemma setPos_placed (hO : O.Regular) (hset : s.posSet = false) (hgot : s.got = [])
    (hpos : s.pos = O.start.map Int.ofNat) (hoffset : s.offset = O.offset) : (s.setPos O).Placed O := by
  rw [ReadStream.setPos.eq_def]
  cases hstart : O.start with
  | some start =>
    rw [hstart] at hpos
    have hfirst : O.first = start := by rw [Options.first, hstart, Option.getD_some]
    split
    · refine ⟨Or.inr ⟨hset, hgot, by rw [hpos, hstart], hoffset⟩, fun last _ => ?_⟩
      rw [hpos, hgot, hfirst]
      rfl
    · rename_i hnone
      exact absurd (hpos.symm.trans hnone) nofun
  | none =>
    rw [hstart] at hpos
    have hfirst : O.first = O.offset := by rw [Options.first, hstart, Option.getD_none]
    split
    · rename_i hsome
      exact absurd (hpos.symm.trans hsome) nofun
    · refine ⟨Or.inl ⟨rfl, ?_⟩, fun last hlast => ?_⟩
      · show s.offset = O.first + s.got.length
        rw [hgot, hoffset, hfirst, List.length_nil, Nat.add_zero]
      · have hlt := hO.offset hstart (by rw [hlast]; exact Option.some_ne_none _)
        show (if O.end_.isSome then some (filePos s.offset) else none) = _
        rw [hlast, Option.isSome_some, if_pos rfl, hgot, hoffset, hfirst, filePos_of_lt hlt, List.length_nil,
          Nat.add_zero]

lemma closed_read_ (s : ReadStream) (size : Nat) : (s.read_ O size).closed = s.closed := by
  rw [ReadStream.read_.eq_def]
  split
  · rfl
  · dsimp only
    split
    · exact (push_none_fields _).2.2.2.1
    · rw [nativeRead]
      split <;> rfl

lemma Inv.opened (h : Inv O s) (hO : O.Regular) (hopening : s.opening = true) {fd : Nat} (hfd : fd ≠ 0) :
    Inv O (s.opened O fd) := by
  obtain ⟨n, rfl⟩ := Nat.exists_eq_succ_of_ne_zero hfd
  obtain ⟨p, hp⟩ := h.shape
  have hdata : Data O { s with opening := false, fd := some (n + 1) } := { h.data with }
  have hplaced := setPos_placed (s := { s with opening := false, fd := some (n + 1) }) hO
  obtain ⟨ho, hf, hn, hc, hcs, hsz, hr, he, hd, hg, hl⟩ :=
    setPos_fields (O := O) { s with opening := false, fd := some (n + 1) }
  have hlive := hl.mpr h.live
  have hdata' := hdata.setPos
  rw [ReadStream.opened.eq_def]
  dsimp only
  generalize ({ s with opening := false, fd := some (n + 1) } : ReadStream).setPos O = t at *
  cases p with
  | opening =>
    obtain ⟨-, -, hnative, hclosed, hcloses, hsize, hread, heof, hset, hgot, hpos, hoffset⟩ := hp
    have htplaced := hplaced hset hgot hpos hoffset
    have htclosed : t.closed = false := hc.trans hclosed
    obtain hnone | hparked := hsize
    · rw [show t.readSize = none from hsz.trans hnone]
      dsimp only
      rw [if_neg (by rw [htclosed]; exact Bool.false_ne_true)]
      refine ⟨hdata', hlive, .free, ho, ⟨n, hf⟩, hn.trans hnative, htclosed, hcs.trans hcloses, hsz.trans hnone,
        fun hnot => ?_, fun htrue => (heof (he.symm.trans htrue)).2, htplaced⟩
      have hreading := hread (he.symm.trans hnot)
      rw [hnone] at hreading
      exact hr.trans hreading
    · rw [show t.readSize = some 1024 from hsz.trans hparked]
      dsimp only
      rw [if_neg (by rw [closed_read_, htclosed]; exact Bool.false_ne_true)]
      refine hdata'.read_ hO ho ⟨n, hf⟩ (hn.trans hnative) htclosed (hcs.trans hcloses) (fun hnot => ?_)
        (fun htrue => ?_) htplaced hlive fun _ hzero => ?_
      · have hreading := hread (he.symm.trans hnot)
        rw [hparked] at hreading
        exact hr.trans hreading
      · obtain ⟨hdestroyed, hauto⟩ := heof (he.symm.trans htrue)
        exact ⟨hd.trans hdestroyed, hauto⟩
      · -- the range is not empty
        obtain hsize | ⟨last, hlast, hle⟩ := (htplaced.room 1024).2 hzero
        · exact absurd hsize (by decide)
        · have hrange := hO.range last hlast
          rw [hg.trans hgot, List.length_nil] at hle
          omega
  | closesLater =>
    obtain ⟨-, -, hnative, hclosed, hcloses, hsize, heof, hdestroyed⟩ := hp
    rw [show t.readSize = none from hsz.trans hsize]
    dsimp only
    rw [if_pos (hc.trans hclosed)]
    exact Data.close_free (s := { t with closed := false }) { hdata' with } hlive ho ⟨n, hf⟩ (hn.trans hnative)
      (hcs.trans hcloses) (he.trans heof) false
  | free => exact absurd (hp.1.symm.trans hopening) Bool.false_ne_true
  | reading size pos => exact absurd (hp.1.symm.trans hopening) Bool.false_ne_true
  | closing => exact absurd (hp.1.symm.trans hopening) Bool.false_ne_true
  | done => exact absurd (hp.1.symm.trans hopening) Bool.false_ne_true

/-- A chunk comes from the range. -/
lemma Data.push_some (h : Data O s) (hO : O.Regular) {data : Bytes} (hgot : s.got ++ data <+: O.range)
    (heof : s.readableEOF = true → s.destroyed = true) (pos : Option Int) :
    Data O (({ s with pos := pos, got := s.got ++ data } : ReadStream).push O (some data)) ∧
      (({ s with pos := pos, got := s.got ++ data } : ReadStream).push O (some data)).Live := by
  rw [ReadStream.push]
  by_cases hended : s.readableEOF = true
  · have hdestroyed := heof hended
    rw [if_pos hended]
    refine ⟨{ h with
      got := hgot
      account := h.account.trans (List.prefix_append _ _)
      whole := fun hnot => absurd (hnot.symm.trans hdestroyed) Bool.false_ne_true
      eof := fun _ => Or.inl hdestroyed }, fun _ hnot => ?_⟩
    exact absurd (hnot.symm.trans hdestroyed) Bool.false_ne_true
  rw [if_neg hended]
  rw [Bool.not_eq_true] at hended
  obtain ⟨hdestroyed, hzero⟩ := h.unfinished (h.finished_of_eof hended)
  have hwhole := h.whole hdestroyed
  dsimp only
  split
  case isTrue hflow =>
    have hbuf := h.flowing hflow
    have hwhole' : s.delivered ++ data ++ s.readableBuf.flatten = s.got ++ data := by
      rw [← hwhole, hbuf, List.flatten_nil, List.append_nil, List.append_nil]
    have hdata : Data O { s with
        pos := pos, got := s.got ++ data, readableReading := false, delivered := s.delivered ++ data } := {
      h with
      got := hgot
      account := hwhole' ▸ List.prefix_rfl
      whole := fun _ => hwhole'
      eof := fun htrue => absurd (hended.symm.trans htrue) Bool.false_ne_true
      ends := Or.inl hzero }
    exact ⟨hdata.considerRead, live_considerRead hO hdata.flowing fun _ _ => Or.inr hended⟩
  case isFalse hflow =>
    have hwhole' : s.delivered ++ (s.readableBuf ++ [data]).flatten = s.got ++ data := by
      rw [← hwhole, List.flatten_append, List.flatten_singleton, List.append_assoc]
    have hdata : Data O { s with
        pos := pos, got := s.got ++ data, readableReading := false
        readableBuf := s.readableBuf ++ [data] } := {
      h with
      got := hgot
      account := hwhole' ▸ List.prefix_rfl
      whole := fun _ => hwhole'
      flowing := fun htrue => absurd htrue hflow
      eof := fun htrue => absurd (hended.symm.trans htrue) Bool.false_ne_true
      ends := Or.inl hzero }
    exact ⟨hdata.considerRead, live_considerRead hO hdata.flowing fun _ _ => Or.inr hended⟩

/-- `push` of a chunk leaves the descriptor alone. -/
lemma push_some_fields (s : ReadStream) (data : Bytes) :
    (s.push O (some data)).readableReading = false ∧ (s.push O (some data)).readableEOF = s.readableEOF ∧
      ∀ p, At O { s with readableReading := false } p → (s.push O (some data)).At O p := by
  rw [ReadStream.push]
  split
  · exact ⟨rfl, rfl, fun p hp => hp⟩
  · dsimp only
    split
    · refine ⟨?_, ?_, fun p hp => at_considerRead.mpr ?_⟩
      · rw [ReadStream.considerRead]
        split <;> rfl
      · rw [ReadStream.considerRead]
        split <;> rfl
      · cases p <;> exact hp
    · refine ⟨?_, ?_, fun p hp => at_considerRead.mpr ?_⟩
      · rw [ReadStream.considerRead]
        split <;> rfl
      · rw [ReadStream.considerRead]
        split <;> rfl
      · cases p <;> exact hp

lemma Inv.readDone {size : Nat} {pos : Option Int} (h : Inv O s) (hp : s.At O (.reading size pos))
    (hO : O.Regular) (n : Nat) : Inv O (s.readDone O n) := by
  obtain ⟨hopening, hfd, hnative, hclosed, hcloses, hreadSize, hreading, heof, hplaced, hsize, hlast, hoffset⟩ := hp
  rw [ReadStream.readDone.eq_def]
  simp only [hnative, hoffset]
  have hdata : Data O { s with
      native := none
      offset := O.first + s.got.length +
        ((O.file.drop (O.first + s.got.length)).take (min size (n + 1))).length
      posSet := true } := { h.data with }
  have hlive : Live { s with
      native := none
      offset := O.first + s.got.length +
        ((O.file.drop (O.first + s.got.length)).take (min size (n + 1))).length
      posSet := true } := h.live
  split
  case isTrue hnone =>
    -- the end of the file
    have hfile : O.file.length ≤ O.first + s.got.length := by
      have hlength := congrArg List.length hnone
      rw [List.length_take, List.length_drop, List.length_nil] at hlength
      omega
    have hrange : s.got = O.range := eq_range h.data.got (Or.inl hfile)
    rw [hnone] at hdata hlive ⊢
    obtain ⟨ho, hf, hn, hc, hcs, hsz, he, hpl⟩ := push_none_fields (O := O) { s with
      native := none, offset := O.first + s.got.length + ([] : Bytes).length, posSet := true }
    have hpushed := hdata.push_none hrange
    have hlive' := live_push_none hdata hlive
    split
    case isTrue hauto =>
      exact hpushed.close_free hlive' (ho.trans hopening) (by rw [hf]; exact hfd) hn (hcs.trans hcloses) he false
    case isFalse hauto =>
      refine ⟨hpushed, hlive', .free, ho.trans hopening, by rw [hf]; exact hfd, hn, hc.trans hclosed,
        hcs.trans hcloses, hsz.trans hreadSize, fun hnot => absurd (hnot.symm.trans he) Bool.false_ne_true,
        fun _ => Bool.eq_false_iff.mpr hauto, hpl.mpr ⟨Or.inl ⟨rfl, rfl⟩, hplaced.2⟩⟩
  case isFalse hsome =>
    have hgot : s.got ++ (O.file.drop (O.first + s.got.length)).take (min size (n + 1)) <+: O.range := by
      refine append_range h.data.got fun last hend => ?_
      have hle := hlast last hend
      omega
    have hpushed := hdata.push_some hO hgot (fun htrue => (heof htrue).1)
      (s.pos.map (· + (((O.file.drop (O.first + s.got.length)).take (min size (n + 1))).length : Int)))
    generalize (O.file.drop (O.first + s.got.length)).take (min size (n + 1)) = data at *
    obtain ⟨hr, he, hshape⟩ := push_some_fields (O := O) { s with
      native := none, offset := O.first + s.got.length + data.length, posSet := true,
      pos := s.pos.map (· + (data.length : Int)), got := s.got ++ data } data
    refine ⟨hpushed.1, hpushed.2, .free, hshape .free ⟨hopening, hfd, rfl, hclosed, hcloses, hreadSize,
      fun _ => rfl, fun htrue => (heof htrue).2, Or.inl ⟨rfl, ?_⟩, fun last hend => ?_⟩⟩
    · rw [List.length_append, Nat.add_assoc]
    · show s.pos.map (· + (data.length : Int)) = _
      rw [hplaced.2 last hend, Option.map_some, List.length_append, ← Nat.add_assoc,
        Nat.cast_add (O.first + s.got.length)]

/-- After a read that has failed. -/
lemma Inv.readFailed {size : Nat} {pos : Option Int} (h : Inv O s) (hp : s.At O (.reading size pos)) :
    Inv O (({ s with native := none } : ReadStream).destroy O) := by
  obtain ⟨hopening, hfd, hnative, hclosed, hcloses, hreadSize, hreading, heof, hplaced, -⟩ := hp
  have hdata : Data O { s with native := none } := { h.data with }
  rw [ReadStream.destroy]
  by_cases hdestroyed : s.destroyed = true
  · rw [if_pos hdestroyed]
    have hended := (h.data.destroyed hdestroyed).1
    exact ⟨hdata, h.live, .free, hopening, hfd, rfl, hclosed, hcloses, hreadSize,
      fun hnot => absurd (hnot.symm.trans hended) Bool.false_ne_true, fun htrue => (heof htrue).2, hplaced⟩
  rw [if_neg hdestroyed]
  by_cases hauto : O.autoClose = true
  · simp only [hauto, if_true]
    exact hdata.destroy.close_free nofun hopening hfd rfl hcloses rfl true
  · simp only [hauto, if_false, Bool.false_eq_true]
    exact ⟨{ hdata.destroy with }, nofun, .free, hopening, hfd, rfl, hclosed, hcloses, hreadSize, nofun,
      fun _ => Bool.eq_false_iff.mpr hauto, hplaced⟩

lemma quiet_considerRead (h : s.Quiet) : (s.considerRead O).Quiet := by
  rw [ReadStream.considerRead]
  split <;> exact h

lemma Inv.resumeLoop (h : Inv O s) (inner : Inner)
    (hcalm : inner = .destroy → s.readableBuf ≠ [] → O.autoClose = true → s.Quiet) :
    Data O (({ s with readableFlowing := some true } : ReadStream).resumeLoop O inner) ∧
      ∃ p, (({ s with readableFlowing := some true } : ReadStream).resumeLoop O inner).At O p := by
  obtain ⟨p, hp⟩ := h.shape
  rw [ReadStream.resumeLoop]
  by_cases hbuf : s.readableBuf = []
  · rw [if_pos hbuf]
    exact ⟨{ h.data with flowing := fun _ => hbuf }, p, by cases p <;> exact hp⟩
  rw [if_neg hbuf]
  have hdata : Data O { s with
      readableFlowing := some true, delivered := s.delivered ++ s.readableBuf.flatten, readableBuf := [] } := {
    h.data with
    account := by
      rw [List.flatten_nil, List.append_nil]
      exact h.data.account
    whole := fun hdestroyed => by
      rw [List.flatten_nil, List.append_nil]
      exact h.data.whole hdestroyed
    flowing := fun _ => rfl
    ends := h.data.ends.imp id fun hone => absurd hone.2.2.1 hbuf }
  have hp' : ∃ p, At O { s with
      readableFlowing := some true, delivered := s.delivered ++ s.readableBuf.flatten, readableBuf := [] } p :=
    ⟨p, by cases p <;> exact hp⟩
  obtain ⟨p, hp'⟩ := hp'
  cases inner with
  | nothing => exact ⟨hdata.considerRead, p, at_considerRead.mpr hp'⟩
  | pause =>
    refine ⟨Data.considerRead { hdata.considerRead with flowing := nofun }, p, at_considerRead.mpr ?_⟩
    have hshape := at_considerRead.mpr hp'
    cases p <;> exact hshape
  | destroy =>
    have hinv := hdata.considerRead.destroy_inv ⟨p, at_considerRead.mpr hp'⟩
      fun hauto => quiet_considerRead (hcalm rfl hbuf hauto)
    exact ⟨hinv.data, hinv.shape⟩

lemma Inv.resume (h : Inv O s) (inner : Inner)
    (hcalm : inner = .destroy → s.readableBuf ≠ [] → O.autoClose = true → s.Quiet) :
    Inv O (s.resume O inner) := by
  obtain ⟨hdata, p, hp⟩ := h.resumeLoop inner hcalm
  rw [ReadStream.resume]
  generalize ({ s with readableFlowing := some true } : ReadStream).resumeLoop O inner = t at *
  split
  case isTrue hends =>
    obtain ⟨hflow, heof, hfinished⟩ := hends
    obtain ⟨hdestroyed, hzero⟩ := hdata.unfinished hfinished
    have hrange : t.got = O.range :=
      (hdata.eof heof).resolve_left (by rw [hdestroyed]; exact Bool.false_ne_true)
    refine ⟨{ hdata with
      ends := Or.inr
        ⟨by rw [hzero], rfl, hdata.flowing hflow, (hdata.delivered hflow hdestroyed).trans hrange⟩
      finished := fun _ => ⟨heof, Or.inr (by rw [hzero])⟩
      destroyed := fun htrue => ⟨heof, rfl⟩ }, fun _ _ => Or.inl (by rw [hzero]), p, by cases p <;> exact hp⟩
  case isFalse hends =>
    refine ⟨{ hdata with }, fun hflow hdestroyed => ?_, p, by cases p <;> exact hp⟩
    cases heof : t.readableEOF with
    | false => exact Or.inr ⟨rfl, Or.inr rfl⟩
    | true =>
      have hfinished : t.finished = true := by
        by_contra hfinished
        exact hends ⟨hflow, heof, by simpa using hfinished⟩
      exact Or.inl ((hdata.finished hfinished).2.resolve_left (by rw [hdestroyed]; exact Bool.false_ne_true))

lemma Inv.onData (h : Inv O s) (hcalm : s.readableFlowing = none → s.readableBuf = []) : Inv O (s.onData O) := by
  rw [ReadStream.onData]
  split
  case isTrue hnone =>
    have hsame : { s with readableBuf := [] } = s := by rw [← hcalm hnone]
    rw [hsame]
    exact h.resume .nothing nofun
  case isFalse => exact h

/-- The phase tells the operation that is under way. -/
lemma native_eq {p : Phase} (hp : s.At O p) {op : Native} (hop : s.native = some op) :
    (∃ size pos, op = .read size pos ∧ p = .reading size pos) ∨ (op = .close ∧ p = .closing) := by
  cases p with
  | opening => exact absurd (hp.2.2.1.symm.trans hop) nofun
  | closesLater => exact absurd (hp.2.2.1.symm.trans hop) nofun
  | free => exact absurd (hp.2.2.1.symm.trans hop) nofun
  | reading size pos => exact Or.inl ⟨size, pos, Option.some.inj (hop.symm.trans hp.2.2.1), rfl⟩
  | closing => exact Or.inr ⟨Option.some.inj (hop.symm.trans hp.2.2.1), rfl⟩
  | done => exact absurd (hp.2.2.1.symm.trans hop) nofun

lemma Inv.closeDone (h : Inv O s) (hnative : s.native = some .close) : Inv O (s.closeDone O true) := by
  obtain ⟨p, hp⟩ := h.shape
  obtain ⟨size, pos, hread, -⟩ | ⟨-, rfl⟩ := native_eq hp hnative
  · exact absurd hread nofun
  · obtain ⟨hopening, hfd, -, hcloses, heof⟩ := hp
    refine ⟨{ h.data with }, h.live, .done, hopening, hfd, rfl, ?_, ?_, heof⟩
    · show s.closes + 1 = 1
      rw [hcloses]
    · show 1 ≤ s.closeEvents + 1 + s.waitsClose.toNat
      omega

lemma Inv.at_reading (h : Inv O s) {op : Native} (hop : s.native = some op) (hne : op ≠ .close) :
    ∃ size pos, s.At O (.reading size pos) := by
  obtain ⟨p, hp⟩ := h.shape
  obtain ⟨size, pos, -, rfl⟩ | ⟨hclose, -⟩ := native_eq hp hop
  · exact ⟨size, pos, hp⟩
  · exact absurd hclose hne

/-- A calm step keeps the invariant. -/
lemma Inv.step (h : Inv O s) (hO : O.Regular) {i : Input} (hcalm : s.Calm O i) : Inv O (s.step O i) := by
  rw [ReadStream.step.eq_def]
  split
  case isFalse => exact h
  case isTrue henabled =>
    cases i with
    | onData => exact h.onData hcalm
    | resume inner =>
      refine h.resume inner fun hinner => ?_
      subst hinner
      exact hcalm
    | pause => exact h.pause hO
    | read len => exact h.read hO len
    | destroy => exact h.data.destroy_inv h.shape hcalm
    | immediate => exact h.immediate hO hcalm
    | opened fd => exact h.opened hO henabled hcalm
    | openFailed => exact hcalm.elim
    | readDone n =>
      obtain ⟨op, hop, hne⟩ := henabled
      obtain ⟨size, pos, hp⟩ := h.at_reading hop hne
      exact h.readDone hp hO n
    | readFailed =>
      obtain ⟨op, hop, hne⟩ := henabled
      obtain ⟨size, pos, hp⟩ := h.at_reading hop hne
      exact h.readFailed hp
    | refusedDone =>
      exact absurd henabled (by rw [ReadStream.Enabled, h.data.refused]; exact lt_irrefl 0)
    | closeDone ok =>
      obtain rfl : ok = true := hcalm
      exact h.closeDone henabled

lemma Inv.sound (h : Inv O s) : s.Sound O := by
  obtain ⟨hdata, hlive, p, hp⟩ := h
  have hends : s.ends ≤ 1 := by
    obtain hzero | hone := hdata.ends
    · omega
    · omega
  have hcloses : s.closes ≤ 1 ∧ (s.closes = 1 → 1 ≤ s.closeEvents) := by
    cases p with
    | opening => simp [hp.2.2.2.2.1]
    | closesLater => simp [hp.2.2.2.2.1]
    | free => simp [hp.2.2.2.2.1]
    | reading size pos => simp [hp.2.2.2.2.1]
    | closing => simp [hp.2.2.2.1]
    | done =>
      obtain ⟨-, -, -, hone, hevents, -⟩ := hp
      exact ⟨hone.le, fun _ => hevents⟩
  refine ⟨((List.prefix_append _ _).trans hdata.account).trans hdata.got, hends, fun hone => ?_, ?_, hcloses.1,
    hcloses.2, ?_⟩
  · exact (hdata.ends.resolve_left (by omega)).2.2.2
  · intro hflow hdestroyed
    obtain hone | ⟨heof, hreading | hcalling⟩ := hlive hflow hdestroyed
    · exact Or.inl hone
    · cases p with
      | opening => exact Or.inr (Or.inr (Or.inl hp.1))
      | closesLater => exact Or.inr (Or.inr (Or.inl hp.1))
      | free => exact absurd ((hp.2.2.2.2.2.2.1 heof).symm.trans hreading) Bool.false_ne_true
      | reading size pos => exact Or.inr (Or.inr (Or.inr (by rw [hp.2.2.1]; rfl)))
      | closing => exact absurd (heof.symm.trans hp.2.2.2.2) Bool.false_ne_true
      | done => exact absurd (heof.symm.trans hp.2.2.2.2.2) Bool.false_ne_true
    · exact Or.inr (Or.inl hcalling)
  · intro hauto heof
    cases p with
    | opening => exact Or.inr (Or.inl hp.1)
    | closesLater => exact Or.inr (Or.inl hp.1)
    | free => exact absurd ((hp.2.2.2.2.2.2.2.1 heof).symm.trans hauto) Bool.false_ne_true
    | reading size pos => exact absurd ((hp.2.2.2.2.2.2.2.1 heof).2.symm.trans hauto) Bool.false_ne_true
    | closing => exact Or.inr (Or.inr hp.2.2.1)
    | done => exact Or.inl hp.2.2.2.1

lemma inv_create (hO : O.Regular) : Inv O (create O) := by
  have hdata : ∀ s : ReadStream, s.refused = 0 → s.got = [] → s.delivered = [] → s.readableBuf = [] →
      s.readableEOF = false → s.ends = 0 → s.finished = false → s.destroyed = false → Data O s := by
    intro s hrefused hgot hdelivered hbuf heof hends hfinished hdestroyed
    refine ⟨hrefused, by simp [hgot], by simp [hdelivered, hbuf], fun _ => by simp [hdelivered, hbuf, hgot],
      fun _ => hbuf, by simp [heof], Or.inl hends, by simp [hfinished], by simp [hdestroyed]⟩
  rw [create]
  cases hfd : O.fd with
  | none =>
    simp only [Option.isSome_none, Option.isNone_none, Bool.false_eq_true, if_false]
    exact ⟨hdata _ rfl rfl rfl rfl rfl rfl rfl rfl, nofun, .opening, rfl, rfl, rfl, rfl, rfl, Or.inl rfl,
      fun _ => rfl, nofun, rfl, rfl, rfl, rfl⟩
  | some fd =>
    have hne : fd ≠ 0 := by
      rintro rfl
      exact hO.fd hfd
    obtain ⟨n, rfl⟩ := Nat.exists_eq_succ_of_ne_zero hne
    simp only [Option.isSome_some, Option.isNone_some, if_true]
    obtain ⟨ho, hf, hn, hc, hcs, hsz, hr, he, hd, hg, hl⟩ := setPos_fields (O := O) {
      fd := some (n + 1), opening := false, pos := O.start.map Int.ofNat, posSet := false, readSize := none
      closed := false, readableFlowing := none, readableBuf := [], readableReading := false
      readableCalling := false, readableEOF := false, finished := false, destroyed := false, native := none
      refused := 0, waitsClose := false, offset := O.offset, got := [], delivered := [], ends := 0, closes := 0
      closeEvents := 0 }
    exact ⟨(hdata _ rfl rfl rfl rfl rfl rfl rfl rfl).setPos, hl.mpr nofun, .free, ho, ⟨n, hf⟩, hn, hc, hcs, hsz,
      fun _ => hr, fun htrue => absurd (he.symm.trans htrue) Bool.false_ne_true, setPos_placed hO rfl rfl rfl rfl⟩

end ReadStream

/-! ### Runs -/

/-- A file of five bytes, which is opened. -/
def fiveBytes (start end_ : Option Nat) : Options where
  autoClose := true
  start := start
  end_ := end_
  highWaterMark := 65536
  fd := none
  file := [10, 20, 30, 40, 50]
  offset := 0

/-- A read in front of `open`, short reads, a pause, and the end of the file. -/
def parkedRun : List Input :=
  [.onData, .immediate, .opened 3, .readDone 1, .pause, .immediate, .readDone 0, .resume .nothing, .immediate,
    .readDone 7, .immediate, .readDone 0, .closeDone true]

example : ((machine (fiveBytes (some 1) none)).run (create (fiveBytes (some 1) none)) parkedRun).delivered =
    [20, 30, 40, 50] := by decide +kernel

/-- A range within the file: it is delivered, but the descriptor stays open. -/
def rangeRun : List Input := [.onData, .opened 3, .immediate, .readDone 7, .immediate]

end LowJs.ReadStreams
