import Mathlib

/-!
# Reading and writing whole files

`readFile`, `writeFile` and their variants of `fs.js` open a file, do one `read` or one `write`, and close
it. A call is modelled by the list of what it does to the descriptor and to its caller, for given results of
the system calls.
-/

namespace LowJs.WholeFiles

abbrev Bytes := List UInt8

/-- An error of a system call, one that `readSync` and `writeSync` make of it, and the error for a name that
is not in scope. -/
inductive Error
  | errno (n : Nat)
  | wrapped (n : Nat)
  | reference
  deriving DecidableEq, Repr

/-- What a call does: it closes the descriptor, and it reports, through its callback or as a function. -/
inductive Event (α : Type)
  | close
  | report (result : Except Error α)

/-! ### Reading -/

/-- The results of the system calls: the errors, the size of `fstat`, what the file holds at the `read`, and
up to how much `read` gets. -/
structure Reading where
  openError : Option Nat
  statError : Option Nat
  size : Nat
  content : Bytes
  readError : Option Nat
  limit : Nat
  closeError : Option Nat
  deriving DecidableEq, Repr

/-- What a caller gets: the buffer, or a text. -/
inductive Delivered
  | buffer (data : Bytes)
  | text (s : String)
  deriving DecidableEq, Repr

namespace Reading

/-- The length that `read` returns. -/
def bytesRead (w : Reading) : Nat := min w.limit (min w.size w.content.length)

/-- The buffer behind `read`; a new buffer holds zeros. -/
def buf (w : Reading) : Bytes := w.content.take w.bytesRead ++ List.replicate (w.size - w.bytesRead) 0

end Reading

section

variable (toString : String → Bytes → String)

/-- The end of `readFile` and `readFileSync`: an empty encoding is none. -/
def deliver (encoding : Option String) (data : Bytes) : Delivered :=
  match encoding with
  | none => .buffer data
  | some encoding => if encoding = "" then .buffer data else .text (toString encoding data)

/-- `readFile`. -/
def readFile (encoding : Option String) (w : Reading) : List (Event Delivered) :=
  match w.openError with
  | some n => [.report (.error (.errno n))]
  | none =>
    match w.statError with
    | some n => [.close, .report (.error (.errno n))]
    | none =>
      match w.readError with
      | some n => [.close, .report (.error (.errno n))]
      | none =>
        match w.closeError with
        | some n => [.close, .report (.error (.errno n))]
        | none => [.close, .report (.ok (deliver toString encoding w.buf))]

/-- `closeSync` behind an exception, which its own may replace. -/
def closeThrowing (w : Reading) (error : Error) : List (Event Delivered) :=
  match w.closeError with
  | some n => [.close, .report (.error (.errno n))]
  | none => [.close, .report (.error error)]

/-- `readFileSync`. `buf` is declared inside the `try` and used behind it: in a language where `let` is
scoped to its block, as `blockScoped` says, this is a `ReferenceError`. The build translates to ES5, where it is
not. -/
def readFileSync (blockScoped : Bool) (encoding : Option String) (w : Reading) : List (Event Delivered) :=
  match w.openError with
  | some n => [.report (.error (.errno n))]
  | none =>
    match w.statError with
    | some n => closeThrowing w (.wrapped n)
    | none =>
      match w.readError with
      | some n => closeThrowing w (.wrapped n)
      | none =>
        match w.closeError with
        | some n => [.close, .report (.error (.errno n))]
        | none =>
          if blockScoped then [.close, .report (.error .reference)]
          else [.close, .report (.ok (deliver toString encoding w.buf))]

/-- The result is an error, or what the file holds. -/
def Exact (encoding : Option String) (w : Reading) (result : Except Error Delivered) : Prop :=
  ∀ d, result = .ok d → d = deliver toString encoding w.content

/-- Two results are the same data, or both are errors. -/
def Agree (r r' : Except Error Delivered) : Prop := ∀ d, r = .ok d ↔ r' = .ok d

/-- One report, which is right, and the descriptor closed once where the file was opened, before the
report. -/
def Sound (encoding : Option String) (w : Reading) (es : List (Event Delivered)) : Prop :=
  ∃ result, Exact toString encoding w result ∧
    es = (if w.openError.isSome then [] else [.close]) ++ [.report result]

/-- What both functions should do. -/
def ReadsExactly (blockScoped : Bool) (encoding : Option String) (w : Reading) : Prop :=
  Sound toString encoding w (readFile toString encoding w) ∧
    Sound toString encoding w (readFileSync toString blockScoped encoding w) ∧
    ∀ r r', .report r ∈ readFile toString encoding w →
      .report r' ∈ readFileSync toString blockScoped encoding w → Agree r r'

namespace Reading

/-- A system call fails. -/
def Fails (w : Reading) : Prop :=
  w.openError.isSome = true ∨ w.statError.isSome = true ∨ w.readError.isSome = true ∨
    w.closeError.isSome = true

instance (w : Reading) : Decidable w.Fails := inferInstanceAs (Decidable (_ ∨ _))

/-- The file has the size of `fstat`, and what one `read` leaves of it is zeros. -/
def Whole (w : Reading) : Prop := w.size = w.content.length ∧ ∀ b ∈ w.content.drop w.bytesRead, b = 0

end Reading

/-- The file is read whole, or its text does not show what is missing. -/
def Fits (encoding : Option String) (w : Reading) : Prop :=
  w.Whole ∨ ∃ e, encoding = some e ∧ e ≠ "" ∧ toString e w.buf = toString e w.content

lemma buf_eq_iff (w : Reading) : w.buf = w.content ↔ w.Whole := by
  have hle : w.bytesRead ≤ min w.size w.content.length := Nat.min_le_right ..
  constructor
  · intro h
    have hlen : w.size = w.content.length := by
      have := congrArg List.length h
      simp only [Reading.buf, List.length_append, List.length_take, List.length_replicate] at this
      omega
    refine ⟨hlen, fun b hb => ?_⟩
    have hdrop : w.content.drop w.bytesRead = List.replicate (w.size - w.bytesRead) 0 := by
      conv_lhs => rw [← h, Reading.buf]
      rw [List.drop_left' (by rw [List.length_take]; omega)]
    rw [hdrop] at hb
    exact List.eq_of_mem_replicate hb
  · rintro ⟨hlen, hzero⟩
    have hdrop : w.content.drop w.bytesRead = List.replicate (w.size - w.bytesRead) 0 := by
      apply List.eq_replicate_iff.mpr
      refine ⟨?_, hzero⟩
      rw [List.length_drop, hlen]
    rw [Reading.buf, ← hdrop, List.take_append_drop]

lemma deliver_eq_iff (encoding : Option String) (w : Reading) :
    deliver toString encoding w.buf = deliver toString encoding w.content ↔
      Fits toString encoding w := by
  rw [Fits, ← buf_eq_iff]
  match encoding with
  | none => simp [deliver]
  | some e =>
    by_cases he : e = ""
    · simp [deliver, he]
    · simp only [deliver, if_neg he, Delivered.text.injEq, Option.some.injEq]
      constructor
      · intro h
        exact .inr ⟨e, rfl, he, h⟩
      · rintro (h | ⟨e', rfl, -, h⟩)
        · rw [h]
        · exact h

lemma sound_error {encoding : Option String} {w : Reading} {error : Error} (hopen : w.openError = none) :
    Sound toString encoding w [.close, .report (.error error)] := by
  refine ⟨.error error, fun d hd => ?_, ?_⟩
  · exact absurd hd (by simp)
  · rw [hopen]
    rfl

/-- Where a system call fails, both functions report an error and close what they have opened. -/
lemma Reading.Fails.reads {encoding : Option String} {w : Reading} (h : w.Fails) (blockScoped : Bool) :
    ReadsExactly toString blockScoped encoding w := by
  have hagree : ∀ e e' : Error, Agree (.error e) (.error e') := fun e e' d => by simp
  rw [ReadsExactly, readFile, readFileSync]
  rcases hopen : w.openError with _ | n
  swap
  · have hsound : Sound toString encoding w [.report (.error (.errno n))] :=
      ⟨.error (.errno n), fun d hd => absurd hd (by simp), by rw [hopen]; rfl⟩
    refine ⟨hsound, hsound, ?_⟩
    simp only [List.mem_singleton, Event.report.injEq]
    rintro r r' rfl rfl
    exact hagree _ _
  have hpair : ∀ e e' : Error, Sound toString encoding w [.close, .report (.error e)] ∧
      Sound toString encoding w [.close, .report (.error e')] ∧
      ∀ r r', Event.report r ∈ [Event.close, Event.report (.error e)] →
        Event.report r' ∈ [Event.close, Event.report (.error e')] → Agree r r' := by
    intro e e'
    refine ⟨sound_error toString hopen, sound_error toString hopen, ?_⟩
    simp only [List.mem_cons, List.not_mem_nil, or_false, reduceCtorEq, Event.report.injEq, false_or]
    rintro r r' rfl rfl
    exact hagree _ _
  have hthrow : ∀ error, ∃ error', closeThrowing w error = [.close, .report (.error error')] := by
    intro error
    rw [closeThrowing]
    cases w.closeError with
    | none => exact ⟨error, rfl⟩
    | some n => exact ⟨.errno n, rfl⟩
  dsimp only
  rcases hstat : w.statError with _ | n
  swap
  · obtain ⟨error', herror⟩ := hthrow (.wrapped n)
    dsimp only
    rw [herror]
    exact hpair _ _
  dsimp only
  rcases hread : w.readError with _ | n
  swap
  · obtain ⟨error', herror⟩ := hthrow (.wrapped n)
    dsimp only
    rw [herror]
    exact hpair _ _
  dsimp only
  rcases hclose : w.closeError with _ | n
  · simp [Fails, hopen, hstat, hread, hclose] at h
  · exact hpair _ _

/-- Where no system call fails, `readFile` delivers the buffer. -/
lemma readFile_ok {encoding : Option String} {w : Reading} (h : ¬w.Fails) :
    readFile toString encoding w = [.close, .report (.ok (deliver toString encoding w.buf))] := by
  simp only [Reading.Fails, not_or, Option.not_isSome_iff_eq_none] at h
  obtain ⟨hopen, hstat, hread, hclose⟩ := h
  simp only [readFile, hopen, hstat, hread, hclose]

lemma readFileSync_ok {encoding : Option String} {w : Reading} (h : ¬w.Fails) (blockScoped : Bool) :
    readFileSync toString blockScoped encoding w =
      if blockScoped then [.close, .report (.error .reference)]
      else [.close, .report (.ok (deliver toString encoding w.buf))] := by
  simp only [Reading.Fails, not_or, Option.not_isSome_iff_eq_none] at h
  obtain ⟨hopen, hstat, hread, hclose⟩ := h
  simp only [readFileSync, hopen, hstat, hread, hclose]

/-- Both functions do what they should exactly if a system call fails, or the file fits and the name of the
buffer is in scope. -/
theorem reads_exactly_iff (blockScoped : Bool) (encoding : Option String) (w : Reading) :
    ReadsExactly toString blockScoped encoding w ↔
      w.Fails ∨ (blockScoped = false ∧ Fits toString encoding w) := by
  by_cases hfails : w.Fails
  · exact ⟨fun _ => .inl hfails, fun _ => hfails.reads toString blockScoped⟩
  have hopen : w.openError = none := by
    rw [← Option.not_isSome_iff_eq_none]
    exact fun h => hfails (.inl h)
  rw [or_iff_right hfails, ReadsExactly, readFile_ok toString hfails, readFileSync_ok toString hfails,
    ← deliver_eq_iff]
  cases blockScoped with
  | true =>
    simp only [if_true, Bool.true_eq_false, false_and, iff_false]
    rintro ⟨-, -, hagree⟩
    have := hagree (.ok (deliver toString encoding w.buf)) (.error .reference) (by simp) (by simp)
    exact absurd ((this _).mp rfl) (by simp)
  | false =>
    simp only [Bool.false_eq_true, if_false, true_and]
    constructor
    · rintro ⟨⟨result, hexact, heq⟩, -⟩
      rw [hopen] at heq
      apply hexact
      simpa using heq.symm
    · intro h
      have hsound : Sound toString encoding w [.close, .report (.ok (deliver toString encoding w.buf))] := by
        refine ⟨.ok (deliver toString encoding w.buf), fun d hd => ?_, ?_⟩
        · rw [← h]
          exact (Except.ok.inj hd).symm
        · rw [hopen]
          rfl
      refine ⟨hsound, hsound, ?_⟩
      simp only [List.mem_cons, List.not_mem_nil, or_false, reduceCtorEq, Event.report.injEq, false_or]
      rintro r r' rfl rfl d
      exact Iff.rfl

end

/-- One `read` gets one of two bytes: the caller gets a zero for the other. -/
theorem short_read :
    ¬ReadsExactly (fun _ _ => "") false none ⟨none, none, 2, [1, 2], none, 1, none⟩ := by
  rintro ⟨⟨result, hexact, heq⟩, -⟩
  have hresult : result = .ok (.buffer [1, 0]) := by
    simpa [readFile, deliver, Reading.buf, Reading.bytesRead] using heq.symm
  exact absurd (hexact _ hresult) (by decide)

/-! ### Writing -/

/-- The flags with which a file is opened to be written: `w`, `a`, and `r+`, which keeps the content. -/
inductive Flag
  | w
  | a
  | rPlus
  deriving DecidableEq, Repr

/-- The `options`: none, the text that stands for an encoding, or an object. -/
inductive Options
  | omitted
  | encoding (encoding : String)
  | object (flag : Option Flag) (encoding : Option String)
  deriving DecidableEq, Repr

inductive Data
  | text (s : String)
  | buffer (data : Bytes)
  deriving DecidableEq, Repr

/-- The results of the system calls: the errors, what the file holds before, up to how much `write` takes,
and whether a data thread has closed the file when a function returns that does not wait for it. -/
structure Writing where
  openError : Option Nat
  before : Bytes
  writeError : Option Nat
  limit : Nat
  closeError : Option Nat
  closedInTime : Bool
  deriving DecidableEq, Repr

namespace Options

/-- `options.flag`, or `w`. -/
def flag : Options → Flag
  | .object (some flag) _ => flag
  | _ => .w

/-- `options.encoding`, or `utf8`; an empty encoding is none. -/
def encodingName : Options → String
  | .encoding e | .object _ (some e) => if e = "" then "utf8" else e
  | _ => "utf8"

/-- What `appendFile` and `appendFileSync` make of the options. -/
def append : Options → Options
  | .omitted => .object (some .a) none
  | .encoding e => .object (some .a) (some e)
  | .object none e => .object (some .a) e
  | .object (some flag) e => .object (some flag) e

end Options

section

variable (encode : String → String → Bytes)

/-- The data as bytes. -/
def Data.bytes (options : Options) : Data → Bytes
  | .text s => encode s options.encodingName
  | .buffer data => data

/-- `writeFile`, which looks at the error of `write` only. -/
def writeFile (w : Writing) : List (Event Unit) :=
  match w.openError with
  | some n => [.report (.error (.errno n))]
  | none =>
    match w.writeError with
    | some n => [.close, .report (.error (.errno n))]
    | none =>
      match w.closeError with
      | some n => [.close, .report (.error (.errno n))]
      | none => [.close, .report (.ok ())]

/-- `close` without a callback, in front of the return of the function. -/
def closeBehind (w : Writing) (result : Except Error Unit) : List (Event Unit) :=
  if w.closedInTime then [.close, .report result] else [.report result, .close]

/-- `writeFileSync`. -/
def writeFileSync (w : Writing) : List (Event Unit) :=
  match w.openError with
  | some n => [.report (.error (.errno n))]
  | none =>
    match w.writeError with
    | some n => closeBehind w (.error (.wrapped n))
    | none => closeBehind w (.ok ())

/-- What the file holds behind the `write`. -/
def Writing.file (w : Writing) (flag : Flag) (data : Bytes) : Bytes :=
  let bytesWritten := min w.limit data.length
  match flag with
  | .w => data.take bytesWritten
  | .a => w.before ++ data.take bytesWritten
  | .rPlus => data.take bytesWritten ++ w.before.drop bytesWritten

/-- The four functions. -/
inductive Function
  | writeFile
  | writeFileSync
  | appendFile
  | appendFileSync
  deriving DecidableEq, Repr

namespace Function

def sync : Function → Bool
  | .writeFile | .appendFile => false
  | .writeFileSync | .appendFileSync => true

/-- The options that a function hands on. -/
def options (f : Function) (options : Options) : Options :=
  match f with
  | .writeFile | .writeFileSync => options
  | .appendFile | .appendFileSync => options.append

/-- What a function does. -/
def call (f : Function) (w : Writing) : List (Event Unit) :=
  if f.sync then WholeFiles.writeFileSync w else WholeFiles.writeFile w

/-- What the file holds then. -/
def file (f : Function) (options : Options) (data : Data) (w : Writing) : Bytes :=
  w.file (f.options options).flag (data.bytes encode (f.options options))

end Function

/-- The file holds all of the data: it is the data, behind what was there where the flag is `a`, or from the
start on where the flag keeps the content. -/
def Holds (flag : Flag) (before data file : Bytes) : Prop :=
  match flag with
  | .w => file = data
  | .a => file = before ++ data
  | .rPlus => data <+: file

/-- What the functions should do: one report; the descriptor is closed once if the file was opened, and
before a report of success; then the file holds all of the data. -/
def WritesAll (f : Function) (options : Options) (data : Data) (w : Writing) : Prop :=
  (∃ result, if w.openError.isSome then f.call w = [.report result]
    else f.call w = [.close, .report result] ∨ f.call w = [.report result, .close]) ∧
  (.report (.ok ()) ∈ f.call w → f.call w = [.close, .report (.ok ())] ∧
    Holds (f.options options).flag w.before (data.bytes encode (f.options options))
      (f.file encode options data w))

/-- The `write` takes all of the data, or what it leaves stands in the file already. -/
def Writing.Takes (w : Writing) (flag : Flag) (data : Bytes) : Prop :=
  match flag with
  | .w | .a => data.length ≤ w.limit
  | .rPlus => data.drop w.limit <+: w.before.drop w.limit

/-- A system call fails whose error the function looks at. -/
def Writing.Fails (w : Writing) (sync : Bool) : Prop :=
  w.openError.isSome = true ∨ w.writeError.isSome = true ∨ (sync = false ∧ w.closeError.isSome = true)

lemma take_eq_self_iff {data : Bytes} {n : Nat} : data.take (min n data.length) = data ↔ data.length ≤ n := by
  rw [List.take_eq_self_iff]
  omega

/-- The file holds the data exactly where the `write` takes it. -/
lemma holds_iff_takes (w : Writing) (flag : Flag) (data : Bytes) :
    Holds flag w.before data (w.file flag data) ↔ w.Takes flag data := by
  cases flag with
  | w => exact take_eq_self_iff
  | a =>
    rw [Holds, Writing.file, Writing.Takes]
    simp only [List.append_cancel_left_eq]
    exact take_eq_self_iff
  | rPlus =>
    rw [Holds, Writing.file, Writing.Takes]
    rcases Nat.le_total data.length w.limit with hle | hlt
    · rw [Nat.min_eq_right hle, List.take_length, List.drop_eq_nil_of_le hle]
      exact ⟨fun _ => List.nil_prefix, fun _ => List.prefix_append ..⟩
    · rw [Nat.min_eq_left hlt]
      conv_lhs =>
        lhs
        rw [← List.take_append_drop w.limit data]
      rw [List.prefix_append_right_inj]

/-- What is reported, and when the file is closed. -/
lemma call_shape (f : Function) (w : Writing) :
    ∃ result, if w.openError.isSome then f.call w = [.report result]
      else f.call w = [.close, .report result] ∨ f.call w = [.report result, .close] := by
  rw [Function.call, writeFile, writeFileSync]
  rcases hopen : w.openError with _ | n
  · dsimp only
    rcases hwrite : w.writeError with _ | n
    · cases f.sync with
      | true =>
        refine ⟨.ok (), ?_⟩
        simp only [if_true, closeBehind, Option.isSome_none, Bool.false_eq_true, if_false]
        split
        · exact .inl rfl
        · exact .inr rfl
      | false =>
        rcases w.closeError with _ | n
        · exact ⟨.ok (), .inl rfl⟩
        · exact ⟨.error (.errno n), .inl rfl⟩
    · cases f.sync with
      | true =>
        refine ⟨.error (.wrapped n), ?_⟩
        simp only [if_true, closeBehind, Option.isSome_none, Bool.false_eq_true, if_false]
        split
        · exact .inl rfl
        · exact .inr rfl
      | false => exact ⟨.error (.errno n), .inl rfl⟩
  · refine ⟨.error (.errno n), ?_⟩
    cases f.sync <;> rfl

/-- Success is reported where no error is seen, and behind the closing if the function waits for it. -/
lemma success_iff (f : Function) (w : Writing) :
    Event.report (.ok ()) ∈ f.call w ↔ ¬w.Fails f.sync := by
  rw [Function.call, writeFile, writeFileSync, Writing.Fails]
  rcases hopen : w.openError with _ | n
  · rcases hwrite : w.writeError with _ | n
    · cases f.sync with
      | true => cases hclosed : w.closedInTime <;> simp [closeBehind, hclosed]
      | false => rcases hclose : w.closeError with _ | n <;> simp
    · cases f.sync with
      | true => cases hclosed : w.closedInTime <;> simp [closeBehind, hclosed]
      | false => simp
  · cases f.sync <;> simp

lemma closed_before_iff (f : Function) {w : Writing} (h : ¬w.Fails f.sync) :
    f.call w = [.close, .report (.ok ())] ↔ (f.sync = true → w.closedInTime = true) := by
  simp only [Writing.Fails, not_or, Option.not_isSome_iff_eq_none, not_and] at h
  obtain ⟨hopen, hwrite, hclose⟩ := h
  rw [Function.call, writeFile, writeFileSync, hopen, hwrite]
  cases hsync : f.sync with
  | true => cases hclosed : w.closedInTime <;> simp [closeBehind, hclosed]
  | false =>
    rw [hclose hsync]
    simp

/-- A function does what it should exactly if it sees an error, or `write` takes all of the data and the
file is closed when the function returns. -/
theorem writes_all_iff (f : Function) (options : Options) (data : Data) (w : Writing) :
    WritesAll encode f options data w ↔ w.Fails f.sync ∨ ((f.sync = true → w.closedInTime = true) ∧
      w.Takes (f.options options).flag (data.bytes encode (f.options options))) := by
  rw [WritesAll, and_iff_right (call_shape f w), success_iff]
  by_cases hfails : w.Fails f.sync
  · exact ⟨fun _ => .inl hfails, fun _ h => absurd hfails h⟩
  · rw [or_iff_right hfails, closed_before_iff f hfails, Function.file, holds_iff_takes]
    exact ⟨fun h => h hfails, fun h _ => h⟩

end

/-- `write` takes one of two bytes, and success is reported. -/
theorem short_write :
    ¬WritesAll (fun _ _ => []) .writeFile .omitted (.buffer [1, 2]) ⟨none, [], none, 1, none, true⟩ := by
  rintro ⟨-, h⟩
  have hsuccess : Event.report (.ok ()) ∈ Function.writeFile.call ⟨none, [], none, 1, none, true⟩ :=
    List.mem_cons_of_mem _ List.mem_cons_self
  have hholds := (h hsuccess).2
  exact absurd (congrArg List.length hholds) (by decide)

end LowJs.WholeFiles
