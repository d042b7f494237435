import LowJs.Core.Prefixes
import LowJs.Stream.ReadOrder

/-!
# The length of the buffer

What `readableLength` counts, and what `read` makes of its argument. When the source has ended, `read` takes
all of the length: in object mode it shifts one object for it, and of bytes it returns more than it was asked
for.
-/

namespace LowJs.Stream

namespace Readable

variable {β : Type*} (O : Options β)

/-- The bytes of the chunks, or their number in object mode. -/
def buffered (buf : List (List β)) : Int := (buf.map (size O)).sum

/-- The loop of `read` shifts a chunk from an empty buffer. -/
def shiftsEmpty : Nat → List (List β) → Bool
  | 0, _ => false
  | _, [] => true
  | len, chunk :: rest => if len < chunk.length then false else shiftsEmpty (len - chunk.length) rest

/-- The argument of the `read` that a step calls: that of the user, or that of the loop of `resume`. -/
def reads (s : Readable β) (i : Input β) : Option (Option Nat) :=
  if s.userRuns then
    match i with
    | .read len => some len
    | _ => none
  else
    match i, s.control with
    | .advance, .resumeLoop :: _ =>
      if s.readableFlowing = some true ∧ s.readableBuf ≠ [] then some none else none
    | _, _ => none

/-- `read` returns the next object, or as many bytes as it is asked for, or `null` where there are fewer and
more may come. -/
def Next (s : Readable β) (len : Option Nat) (data : List β) : Prop :=
  if O.objectMode then data = s.readableBuf.headD []
  else
    match len with
    | none => data = s.readableBuf.flatten
    | some n =>
      data = if s.readableEOF = false ∧ s.readableBuf.flatten.length < n then []
        else s.readableBuf.flatten.take n

/-- A step leaves the length right, and what it reads is what was asked for. -/
structure Sound (s : Readable β) (i : Input β) : Prop where
  counts : (s.step O i).readableLength = buffered O (s.step O i).readableBuf
  nonneg : 0 ≤ (s.step O i).readableLength
  next : ∀ len, s.reads i = some len → Next O s len (s.read O len).1
  loop : ∀ len n, s.reads i = some len → O.objectMode = false → s.readLength O len = some n →
    shiftsEmpty n.toNat s.readableBuf = false

/-- When the source has ended, not more than one object is left, or not more bytes than are asked for. -/
def ReadCalm (s : Readable β) (len : Option Nat) : Prop :=
  s.readableEOF = true →
    if O.objectMode then s.readableBuf.length ≤ 1
    else ∀ n, len = some n → s.readableBuf.flatten.length ≤ n

/-- So it is where the step reads. -/
def Calm (s : Readable β) (i : Input β) : Prop := ∀ len, s.reads i = some len → ReadCalm O s len

/-- The length is right. -/
def Counts (s : Readable β) : Prop := s.readableLength = buffered O s.readableBuf

variable {O} {s t : Readable β}

lemma buffered_objects (h : O.objectMode = true) (buf : List (List β)) :
    buffered O buf = buf.length := by
  rw [buffered]
  induction buf with
  | nil => rfl
  | cons chunk rest ih =>
    rw [List.map_cons, List.sum_cons, ih, size, if_pos h, List.length_cons]
    omega

lemma buffered_bytes (h : O.objectMode = false) (buf : List (List β)) :
    buffered O buf = buf.flatten.length := by
  rw [buffered]
  induction buf with
  | nil => rfl
  | cons chunk rest ih =>
    rw [List.map_cons, List.sum_cons, ih, size, if_neg (by rw [h]; exact Bool.false_ne_true),
      List.flatten_cons, List.length_append]
    omega

lemma Counts.objects (h : Counts O s) (hmode : O.objectMode = true) :
    s.readableLength = s.readableBuf.length := h.trans (buffered_objects hmode _)

lemma Counts.bytes (h : Counts O s) (hmode : O.objectMode = false) :
    s.readableLength = s.readableBuf.flatten.length := h.trans (buffered_bytes hmode _)

lemma buffered_nonneg (buf : List (List β)) : 0 ≤ buffered O buf := by
  cases h : O.objectMode with
  | true => rw [buffered_objects h]; omega
  | false => rw [buffered_bytes h]; omega

lemma buffered_cons (chunk : List β) (buf : List (List β)) :
    buffered O (chunk :: buf) = size O chunk + buffered O buf := rfl

lemma buffered_concat (buf : List (List β)) (chunk : List β) :
    buffered O (buf ++ [chunk]) = buffered O buf + size O chunk := by
  rw [buffered, List.map_append, List.sum_append]
  exact congrArg _ (List.sum_singleton)

/-! ### Reading -/

/-- The loop takes what it is asked for as long as it is there. -/
lemma takeBytes_eq_take {len : Nat} {buf : List (List β)} (h : len ≤ buf.flatten.length) :
    (takeBytes len buf).1 = buf.flatten.take len ∧ shiftsEmpty len buf = false := by
  induction buf generalizing len with
  | nil =>
    obtain rfl : len = 0 := Nat.le_zero.mp h
    exact ⟨rfl, rfl⟩
  | cons chunk rest ih =>
    cases len with
    | zero => exact ⟨rfl, rfl⟩
    | succ len =>
      rw [List.flatten_cons, List.length_append] at h
      rw [takeBytes.eq_3 _ _ _ (Nat.succ_ne_zero len), shiftsEmpty.eq_3 _ _ _ (Nat.succ_ne_zero len),
        List.flatten_cons]
      split
      · next hlt => exact ⟨(List.take_append_of_le_length (Nat.le_of_lt hlt)).symm, rfl⟩
      · next hle =>
        have hrest : len + 1 - chunk.length ≤ rest.flatten.length := by omega
        obtain ⟨hdata, hloop⟩ := ih hrest
        refine ⟨?_, hloop⟩
        rw [List.take_append, List.take_of_length_le (by omega)]
        exact congrArg (chunk ++ ·) hdata

@[simp] lemma considerRead_readableLength (s : Readable β) :
    (s.considerRead O).readableLength = s.readableLength := by
  rw [considerRead]
  split <;> rfl

@[simp] lemma considerRead_readableBuf (s : Readable β) :
    (s.considerRead O).readableBuf = s.readableBuf := by
  rw [considerRead]
  split <;> rfl

lemma read_of_none {len : Option Nat} (h : s.readLength O len = none) : s.read O len = ([], s) := by
  rw [read, h]

lemma read_of_some {len : Option Nat} {n : Int} (h : s.readLength O len = some n) :
    s.read O len =
      ((if O.objectMode then (s.readableBuf.headD [], s.readableBuf.tail)
        else takeBytes n.toNat s.readableBuf).1,
      considerRead O { s with
        readableLength := s.readableLength - n
        readableBuf := (if O.objectMode then (s.readableBuf.headD [], s.readableBuf.tail)
          else takeBytes n.toNat s.readableBuf).2 }) := by
  rw [read, h]

/-- A read leaves the length right, and returns what it is asked for. -/
structure ReadSound (O : Options β) (s : Readable β) (len : Option Nat) : Prop where
  counts : Counts O (s.read O len).2
  next : Next O s len (s.read O len).1
  loop : ∀ n, O.objectMode = false → s.readLength O len = some n →
    shiftsEmpty n.toNat s.readableBuf = false

lemma readSound_object_iff (hmode : O.objectMode = true) (h : Counts O s) (len : Option Nat) :
    ReadSound O s len ↔ ReadCalm O s len := by
  have hlength := h.objects hmode
  have hloop : ∀ n, O.objectMode = false → s.readLength O len = some n →
      shiftsEmpty n.toNat s.readableBuf = false := by
    intro n hbytes
    exact absurd (hmode.symm.trans hbytes) nofun
  have hnext : ∀ n, s.readLength O len = some n → Next O s len (s.read O len).1 := by
    intro n hn
    rw [read_of_some hn, Next.eq_def, if_pos hmode, if_pos hmode]
  have hcounts : ∀ n, s.readLength O len = some n →
      (Counts O (s.read O len).2 ↔ s.readableLength - n = (s.readableBuf.length - 1 : Nat)) := by
    intro n hn
    rw [read_of_some hn, Counts, considerRead_readableLength, considerRead_readableBuf, if_pos hmode,
      buffered_objects hmode, List.length_tail]
  cases heof : s.readableEOF with
  | true =>
    have hn : s.readLength O len = some s.readableLength := by
      rw [readLength, if_pos hmode]
      exact if_pos heof
    constructor
    · intro hs _
      have hleft := (hcounts _ hn).mp hs.counts
      rw [if_pos hmode]
      omega
    · intro hcalm
      have hone := hcalm heof
      rw [if_pos hmode] at hone
      exact ⟨(hcounts _ hn).mpr (by omega), hnext _ hn, hloop⟩
  | false =>
    refine iff_of_true ?_ fun htrue => absurd (heof.symm.trans htrue) nofun
    by_cases hempty : s.readableBuf = []
    · have hn : s.readLength O len = none := by
        rw [readLength, if_pos hmode, heof, hlength, hempty]
        rfl
      refine ⟨?_, ?_, hloop⟩
      · rw [read_of_none hn]
        exact h
      · rw [read_of_none hn, Next.eq_def, if_pos hmode, hempty]
        rfl
    · have hpos := List.length_pos_iff.mpr hempty
      have hn : s.readLength O len = some 1 := by
        rw [readLength, if_pos hmode, heof]
        exact (if_neg Bool.false_ne_true).trans (if_neg (by omega))
      exact ⟨(hcounts _ hn).mpr (by omega), hnext _ hn, hloop⟩

/-- What a read of `n` bytes that are there does. -/
lemma readBytes (hmode : O.objectMode = false) (h : Counts O s) {len : Option Nat} {n : Nat}
    (hn : s.readLength O len = some n) (hle : n ≤ s.readableBuf.flatten.length) :
    Counts O (s.read O len).2 ∧ (s.read O len).1 = s.readableBuf.flatten.take n ∧
      shiftsEmpty n s.readableBuf = false := by
  obtain ⟨htake, hloop⟩ := takeBytes_eq_take hle
  have hfalse : ¬O.objectMode = true := by rw [hmode]; exact Bool.false_ne_true
  have hsplit := congrArg List.length (takeBytes_append n s.readableBuf)
  rw [htake, List.length_append, List.length_take, Nat.min_eq_left hle] at hsplit
  have hlength := h.bytes hmode
  refine ⟨?_, ?_, hloop⟩
  · rw [read_of_some hn, Counts, considerRead_readableLength, considerRead_readableBuf, if_neg hfalse,
      buffered_bytes hmode, Int.toNat_natCast]
    dsimp only
    omega
  · rw [read_of_some hn, if_neg hfalse, Int.toNat_natCast]
    exact htake

lemma readSound_bytes_iff (hmode : O.objectMode = false) (h : Counts O s) (len : Option Nat) :
    ReadSound O s len ↔ ReadCalm O s len := by
  have hfalse : ¬O.objectMode = true := by rw [hmode]; exact Bool.false_ne_true
  have hlength := h.bytes hmode
  have hread : ∀ n : Nat, s.readLength O len = some n → n ≤ s.readableBuf.flatten.length →
      (ReadSound O s len ↔ Next O s len (s.readableBuf.flatten.take n)) := by
    intro n hn hle
    obtain ⟨hcounts, hdata, hloop⟩ := readBytes hmode h hn hle
    rw [← hdata]
    refine ⟨fun hs => hs.next, fun hnext => ⟨hcounts, hnext, fun m _ hm => ?_⟩⟩
    obtain rfl := Option.some.inj (hn.symm.trans hm)
    exact hloop
  have hall : s.readLength O len = some s.readableLength →
      (ReadSound O s len ↔ Next O s len s.readableBuf.flatten) := by
    intro hn
    rw [hlength] at hn
    rw [hread _ hn (Nat.le_refl _), List.take_length]
  cases len with
  | none =>
    rw [hall (by rw [readLength, if_neg hfalse]), Next, if_neg hfalse]
    refine iff_of_true rfl fun _ => ?_
    rw [if_neg hfalse]
    exact fun n hn => absurd hn nofun
  | some n =>
    cases heof : s.readableEOF with
    | true =>
      rw [hall (by rw [readLength, if_neg hfalse]; exact if_pos heof), Next, if_neg hfalse]
      rw [if_neg (by rw [heof]; exact fun hmore => absurd hmore.1 nofun), ReadCalm, if_neg hfalse]
      constructor
      · rintro hdata - m hm
        obtain rfl := Option.some.inj hm
        rw [hdata]
        exact List.length_take_le _ _
      · intro hcalm
        exact (List.take_of_length_le (hcalm heof n rfl)).symm
    | false =>
      refine iff_of_true ?_ fun htrue => absurd (heof.symm.trans htrue) nofun
      by_cases hmore : s.readableBuf.flatten.length < n
      · have hn : s.readLength O (some n) = none := by
          rw [readLength, if_neg hfalse]
          dsimp only
          rw [heof, if_neg Bool.false_ne_true, if_pos (by omega)]
        refine ⟨?_, ?_, fun m _ hm => absurd (hn.symm.trans hm) nofun⟩
        · rw [read_of_none hn]
          exact h
        · rw [read_of_none hn, Next, if_neg hfalse]
          exact (if_pos ⟨heof, hmore⟩).symm
      · have hn : s.readLength O (some n) = some (n : Int) := by
          rw [readLength, if_neg hfalse]
          dsimp only
          rw [heof, if_neg Bool.false_ne_true, if_neg (by omega)]
        rw [hread n hn (Nat.le_of_not_lt hmore), Next, if_neg hfalse]
        exact (if_neg fun hless => hmore hless.2).symm

/-- When a read is sound. -/
lemma readSound_iff (h : Counts O s) (len : Option Nat) : ReadSound O s len ↔ ReadCalm O s len := by
  cases hmode : O.objectMode with
  | true => exact readSound_object_iff hmode h len
  | false => exact readSound_bytes_iff hmode h len

/-! ### The steps -/

lemma Counts.congr (h : Counts O s) (hlength : t.readableLength = s.readableLength)
    (hbuf : t.readableBuf = s.readableBuf) : Counts O t := by
  rw [Counts, hlength, hbuf]
  exact h

lemma Counts.unshift (h : Counts O s) (chunk : List β) : Counts O (s.unshift O chunk) := by
  rw [Readable.unshift]
  split
  · exact h
  · rw [Counts, emit, buffered_cons, h]
    exact add_comm _ _

lemma Counts.onData (h : Counts O s) : Counts O s.onData := by
  rw [Readable.onData]
  split <;> exact h

lemma Counts.reconsiderRead (h : Counts O s) : Counts O (s.reconsiderRead O) := by
  rw [Readable.reconsiderRead]
  dsimp only
  split <;> exact h

lemma Counts.considerRead (h : Counts O s) : Counts O (s.considerRead O) :=
  h.congr (considerRead_readableLength s) (considerRead_readableBuf s)

lemma Counts.pushBody (h : Counts O s) (chunk : Option (List β)) : Counts O (s.pushBody O chunk) := by
  rw [Readable.pushBody.eq_def]
  cases chunk with
  | none =>
    dsimp only
    split <;> exact h
  | some data =>
    dsimp only
    split
    · split
      · exact h
      · exact (congrArg (· + size O (O.convert data)) h).trans (buffered_concat _ _).symm
    · exact h

/-- A read does not depend on the calls that wait. -/
lemma read_control (s : Readable β) (control : List (Frame β)) (len : Option Nat) :
    (read O { s with control := control } len).2.readableLength = (s.read O len).2.readableLength ∧
      (read O { s with control := control } len).2.readableBuf = (s.read O len).2.readableBuf := by
  cases hn : s.readLength O len with
  | none =>
    rw [read_of_none hn, read_of_none (s := { s with control := control }) hn]
    exact ⟨rfl, rfl⟩
  | some n =>
    rw [read_of_some hn, read_of_some (s := { s with control := control }) hn]
    exact ⟨by rw [considerRead_readableLength, considerRead_readableLength],
      by rw [considerRead_readableBuf, considerRead_readableBuf]⟩

/-- A step that reads changes the buffer as the read does. -/
lemma step_of_reads {i : Input β} {len : Option Nat} (h : s.reads i = some len) :
    (s.step O i).readableLength = (s.read O len).2.readableLength ∧
      (s.step O i).readableBuf = (s.read O len).2.readableBuf := by
  unfold reads at h
  split at h
  · next hruns =>
    rw [step.eq_def, if_pos hruns]
    cases i with
    | read l =>
      obtain rfl := Option.some.inj h
      exact ⟨rfl, rfl⟩
    | _ => cases h
  · next hruns =>
    split at h
    · next control hctl =>
      split at h
      · next hgo =>
        obtain rfl := Option.some.inj h
        rw [step.eq_def, if_neg hruns]
        rw [advance, hctl]
        dsimp only
        rw [resumeLoop, if_pos hgo]
        exact read_control s control none
      · cases h
    · cases h

/-- A step that does not read leaves the length right. -/
lemma Counts.step_of_not_reads (h : Counts O s) {i : Input β} (hnone : s.reads i = none) :
    Counts O (s.step O i) := by
  unfold reads at hnone
  rw [step.eq_def]
  split
  · next hruns =>
    rw [if_pos hruns] at hnone
    cases i with
    | push chunk =>
      rw [userStep, Readable.push]
      split <;> exact h
    | unshift chunk => exact h.unshift chunk
    | read len => cases hnone
    | onData => exact h.onData
    | pipe first => exact Counts.onData (s := { s with control := .pipeEmit first :: s.control }) h
    | immediate =>
      rw [userStep]
      split
      · split
        · exact h.reconsiderRead
        · exact h
      · exact h
    | _ => exact h
  · next hruns =>
    rw [if_neg hruns] at hnone
    cases i with
    | advance =>
      change Counts O (s.advance O)
      unfold advance
      split
      · next chunk control hctl => exact Counts.pushBody (s := { s with control := control }) h chunk
      · next control hctl =>
        exact Counts.considerRead (s := { s with control := control, readableReading := false }) h
      · exact h
      · next control hctl =>
        rw [hctl] at hnone
        dsimp only at hnone
        rw [resumeLoop]
        split
        · next hgo =>
          rw [if_pos hgo] at hnone
          cases hnone
        · split <;> exact h
      · exact h
      · next control hctl =>
        exact Counts.considerRead (s := { s with control := control, readableFlowing := some false }) h
      · exact h
      · split <;> exact h
      · exact h
    | _ => exact h

/-- When a step is sound. -/
lemma Counts.sound_iff (h : Counts O s) (i : Input β) : Sound O s i ↔ Calm O s i := by
  constructor
  · intro hs len hlen
    obtain ⟨hlength, hbuf⟩ := step_of_reads (O := O) hlen
    have hcounts := hs.counts
    rw [hlength, hbuf] at hcounts
    exact (readSound_iff h len).mp ⟨hcounts, hs.next len hlen, fun n => hs.loop len n hlen⟩
  · intro hcalm
    have hread : ∀ len, s.reads i = some len → ReadSound O s len :=
      fun len hlen => (readSound_iff h len).mpr (hcalm len hlen)
    have hcounts : Counts O (s.step O i) := by
      cases hreads : s.reads i with
      | none => exact h.step_of_not_reads hreads
      | some len =>
        obtain ⟨hlength, hbuf⟩ := step_of_reads (O := O) hreads
        exact Counts.congr (hread len hreads).counts hlength hbuf
    refine ⟨hcounts, ?_, fun len hlen => (hread len hlen).next,
      fun len n hlen => (hread len hlen).loop n⟩
    rw [hcounts]
    exact buffered_nonneg _

/-- The steps of a run are sound exactly if none reads past the end of the source more than one object, or
fewer bytes than are left. -/
theorem guarded_sound_iff (O : Options β) (is : List (Input β)) :
    (machine O).Guarded (Sound O) init is ↔ (machine O).Guarded (Calm O) init is := by
  have hinit : Counts O (init : Readable β) := rfl
  refine Machine.guarded_iff_guarded ?_ ?_ hinit is
  · intro s i h
    exact h.sound_iff i
  · intro s i _ hsound
    exact hsound.counts

/-- Two objects are pushed, and the source ends. -/
def twoObjects : List (Input Nat) :=
  [.push (some [1]), .ret, .advance, .ret, .advance, .push (some [2]), .ret, .advance, .ret, .advance,
    .push none, .ret, .advance, .ret, .advance]

/-- The length is 0 when one of two objects is read, and a read of one byte returns two. -/
theorem read_pastEnd : ¬(machine ⟨true, 16, id⟩).Guarded (Sound ⟨true, 16, id⟩) init
      (twoObjects ++ [.read none]) ∧
    ¬(machine bytes).Guarded (Sound bytes) init (twoObjects ++ [.read (some 1)]) := by
  constructor
  · intro h
    have hlast := (((machine ⟨true, 16, id⟩).guarded_append init twoObjects _).mp h).2.1
    exact absurd hlast.counts (by decide +kernel)
  · intro h
    have hlast := (((machine bytes).guarded_append init twoObjects _).mp h).2.1
    have hnext := hlast.next (some 1) rfl
    rw [Next, if_neg (by decide)] at hnext
    exact absurd hnext (by decide +kernel)

end Readable

end LowJs.Stream
