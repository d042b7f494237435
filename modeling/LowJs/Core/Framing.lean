import LowJs.Core.Bytes

/-!
# The framing of a message body

What an announced length, the chunked coding, or the end of the connection says about the bytes
that follow the head of a message: which of them are the body, and whether they are all there.
Numbers are unbounded here. The chunk decoder is a state machine on single bytes; a line ends with
CR, with LF, or with both.
-/

namespace LowJs

/-- The number that a chunk size line announces. -/
def chunkSize (line : List UInt8) : Option Int := hexValue (line.takeWhile (· ≠ 0))

namespace Chunked

/-- Where the decoder is: in a size line, in the data of a chunk, in the trailer section (`blank`
while the line holds no character but blanks), behind the message, or behind a line that announces
no chunk. -/
inductive Phase
  | size (line : List UInt8)
  | data (left : Int)
  | trailer (blank : Bool)
  | complete
  | bad
  deriving DecidableEq, Repr

/-- `skipLF`: the previous byte was a CR, with which an LF makes up one line end. -/
structure Decoder where
  phase : Phase
  skipLF : Bool
  body : List UInt8
  deriving DecidableEq, Repr

def start : Decoder := ⟨.size [], false, []⟩

/-- A size line is complete. -/
def sizeLine (line : List UInt8) : Phase :=
  if line = [] then .size []
  else
    match chunkSize line with
    | none => .bad
    | some n => if n < 0 then .bad else if n = 0 then .trailer true else .data n

def Decoder.step (d : Decoder) (c : UInt8) : Decoder :=
  if d.skipLF ∧ c = LF then { d with skipLF := false }
  else
    match d.phase with
    | .data left =>
      { phase := if left = 1 then .size [] else .data (left - 1)
        skipLF := false
        body := d.body ++ [c] }
    | .size line =>
      { d with
        phase := if c = CR ∨ c = LF then sizeLine line else .size (line ++ [c])
        skipLF := decide (c = CR) }
    | .trailer blank =>
      { d with
        phase :=
          if c = CR ∨ c = LF then if blank then .complete else .trailer true
          else .trailer (blank && isBlank c)
        skipLF := decide (c = CR) }
    | .complete => { d with skipLF := decide (c = CR) }
    | .bad => { d with skipLF := decide (c = CR) }

def decode (bs : List UInt8) : Decoder := bs.foldl Decoder.step start

@[simp] lemma decode_nil : decode [] = start := rfl

lemma decode_append (bs cs : List UInt8) : decode (bs ++ cs) = cs.foldl Decoder.step (decode bs) :=
  List.foldl_append

lemma decode_concat (bs : List UInt8) (c : UInt8) : decode (bs ++ [c]) = (decode bs).step c := by
  rw [decode_append]
  rfl

/-- Bytes that follow the data do not change it. -/
lemma step_body_of_ended {d : Decoder} (hd : d.phase = .complete ∨ ∃ blank, d.phase = .trailer blank)
    (c : UInt8) :
    (d.step c).body = d.body ∧
      ((d.step c).phase = .complete ∨ ∃ blank, (d.step c).phase = .trailer blank) := by
  rcases hd with hd | ⟨blank, hd⟩
  · by_cases hc : d.skipLF ∧ c = LF
    · simp [Decoder.step, hc, hd]
    · simp [Decoder.step, hc, hd]
  · by_cases hc : d.skipLF ∧ c = LF
    · simp [Decoder.step, hc, hd]
    · by_cases hend : c = CR ∨ c = LF
      · cases blank <;> simp [Decoder.step, hc, hd, hend]
      · simp [Decoder.step, hc, hd, hend]

end Chunked

/-- How the end of a body is found. -/
inductive Framing
  | length (n : Int)
  | chunked
  | untilClose
  deriving DecidableEq, Repr

/-- The part of the body that lies in `tail`, the bytes after the head. -/
def Framing.body (tail : List UInt8) : Framing → List UInt8
  | .length n => tail.take n.toNat
  | .chunked => (Chunked.decode tail).body
  | .untilClose => tail

/-- The message is complete with `tail`, on a connection that is `closed` or not. -/
def Framing.Complete (tail : List UInt8) (closed : Bool) : Framing → Prop
  | .length n => n ≤ tail.length
  | .chunked => (Chunked.decode tail).phase = .complete
  | .untilClose => closed = true

end LowJs
