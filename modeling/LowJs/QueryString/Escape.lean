import LowJs.Core.CodeUnits

/-!
# `escape` and `unescape` of `querystring`

`qsEscape` goes over the code units and writes bytes of UTF-8 as `%XX`. `qsUnescape` leaves the decoding to
`decodeURIComponent` of the language, and where this throws, to `unescapeBuffer` and the method `toString` of
buffers, which is a parameter here.
-/

namespace LowJs.QueryString

open JSString

def hexDigit (n : Nat) : UInt16 := if n < 10 then UInt16.ofNat (48 + n) else UInt16.ofNat (55 + n)

/-- An entry of the table. -/
def hexTable (i : Nat) : JSString := [37, hexDigit (i / 16), hexDigit (i % 16)]

def noEscape : List Nat := [
  0, 0, 0, 0, 0, 0, 0, 0, 0, 0, 0, 0, 0, 0, 0, 0,
  0, 0, 0, 0, 0, 0, 0, 0, 0, 0, 0, 0, 0, 0, 0, 0,
  0, 1, 0, 0, 0, 0, 0, 1, 1, 1, 1, 0, 0, 1, 1, 0,
  1, 1, 1, 1, 1, 1, 1, 1, 1, 1, 0, 0, 0, 0, 0, 0,
  0, 1, 1, 1, 1, 1, 1, 1, 1, 1, 1, 1, 1, 1, 1, 1,
  1, 1, 1, 1, 1, 1, 1, 1, 1, 1, 1, 0, 0, 0, 0, 1,
  0, 1, 1, 1, 1, 1, 1, 1, 1, 1, 1, 1, 1, 1, 1, 1,
  1, 1, 1, 1, 1, 1, 1, 1, 1, 1, 1, 0, 0, 0, 1, 0]

/-- The loop of `qsEscape`: `lastPos` and `out`, or the throw of `ERR_INVALID_URI`. -/
def escapeLoop (str : JSString) (i lastPos : Nat) (out : JSString) : Option (Nat × JSString) :=
  if h : i < str.length then
    let c := str[i].toNat
    if c < 0x80 then
      if noEscape[c]? = some 1 then escapeLoop str (i + 1) lastPos out
      else
        let out := if lastPos < i then out ++ str.slice lastPos i else out
        escapeLoop str (i + 1) (i + 1) (out ++ hexTable c)
    else
      let out := if lastPos < i then out ++ str.slice lastPos i else out
      if c < 0x800 then
        escapeLoop str (i + 1) (i + 1)
          (out ++ (hexTable (0xC0 ||| (c >>> 6)) ++ hexTable (0x80 ||| (c &&& 0x3F))))
      else if c < 0xD800 ∨ c ≥ 0xE000 then
        escapeLoop str (i + 1) (i + 1)
          (out ++ (hexTable (0xE0 ||| (c >>> 12)) ++ (hexTable (0x80 ||| ((c >>> 6) &&& 0x3F)) ++
            hexTable (0x80 ||| (c &&& 0x3F)))))
      else if h : i + 1 < str.length then
        let c2 := str[i + 1].toNat &&& 0x3FF
        let c := 0x10000 + (((c &&& 0x3FF) <<< 10) ||| c2)
        escapeLoop str (i + 2) (i + 2)
          (out ++ (hexTable (0xF0 ||| (c >>> 18)) ++ (hexTable (0x80 ||| ((c >>> 12) &&& 0x3F)) ++
            (hexTable (0x80 ||| ((c >>> 6) &&& 0x3F)) ++ hexTable (0x80 ||| (c &&& 0x3F))))))
      else none
  else some (lastPos, out)
termination_by str.length - i

/-- `qsEscape`; `none` is the throw of `ERR_INVALID_URI`. -/
def qsEscape (str : JSString) : Option JSString :=
  (escapeLoop str 0 0 []).map fun (lastPos, out) =>
    if lastPos = 0 then str
    else if lastPos < str.length then out ++ str.slice lastPos str.length
    else out

/-- The value of a hexadecimal digit; the table `unhexTable` has -1 for the others. -/
def unhex (c : UInt16) : Option Nat :=
  if 48 ≤ c ∧ c ≤ 57 then some (c.toNat - 48)
  else if 65 ≤ c ∧ c ≤ 70 then some (c.toNat - 55)
  else if 97 ≤ c ∧ c ≤ 102 then some (c.toNat - 87)
  else none

/-- The loop of `unescapeBuffer`: the bytes that it writes, and `hasHex`. -/
def unescapeLoop (decodeSpaces : Bool) : JSString → List UInt8 × Bool
  | [] => ([], false)
  | 37 :: high :: low :: s =>
    match unhex high with
    | none =>
      let r := unescapeLoop decodeSpaces (low :: s)
      (37 :: high.toUInt8 :: r.1, r.2)
    | some hexHigh =>
      let r := unescapeLoop decodeSpaces s
      match unhex low with
      | none => (37 :: high.toUInt8 :: low.toUInt8 :: r.1, r.2)
      | some hexLow => (UInt8.ofNat (hexHigh * 16 + hexLow) :: r.1, true)
  | currentChar :: s =>
    let r := unescapeLoop decodeSpaces s
    (if currentChar = 43 && decodeSpaces then (32 :: r.1, r.2) else (currentChar.toUInt8 :: r.1, r.2))

/-- `unescapeBuffer`. Where no hexadecimal code was read it gives the whole of `out`, of the length of the
string; the loop has then written all of it. -/
def unescapeBuffer (s : JSString) (decodeSpaces : Bool) : List UInt8 := (unescapeLoop decodeSpaces s).1

/-! ### `decodeURIComponent` -/

/-- A character of which bytes are missing: how many, the value so far, and the least value that needs as many
bytes. -/
structure Pending where
  missing : Nat
  value : Nat
  least : Nat
  deriving DecidableEq, Repr

/-- The first byte of a character of more than one byte. -/
def leadByte (b : Nat) : Option Pending :=
  if b < 0xC0 then none
  else if b < 0xE0 then some ⟨1, b % 32, 0x80⟩
  else if b < 0xF0 then some ⟨2, b % 16, 0x800⟩
  else if b < 0xF8 then some ⟨3, b % 8, 0x10000⟩
  else none

/-- The code units of a code point. -/
def units (v : Nat) : JSString :=
  if v < 0x10000 then [UInt16.ofNat v]
  else [UInt16.ofNat (0xD800 + (v - 0x10000) / 0x400), UInt16.ofNat (0xDC00 + (v - 0x10000) % 0x400)]

/-- The part of `decodeURIComponent` behind the characters that are read; `none` is the throw of `URIError`. -/
def decodeFrom : Option Pending → JSString → Option JSString
  | none, [] => some []
  | some _, [] => none
  | pending, 37 :: high :: low :: s =>
    match unhex high, unhex low with
    | some h, some l =>
      let b := 16 * h + l
      match pending with
      | none =>
        if b < 0x80 then (decodeFrom none s).map fun t => UInt16.ofNat b :: t
        else
          match leadByte b with
          | none => none
          | some p => decodeFrom (some p) s
      | some p =>
        if b / 64 = 2 then
          let value := p.value * 64 + b % 64
          if p.missing = 1 then
            if p.least ≤ value ∧ value.isValidChar then (decodeFrom none s).map fun t => units value ++ t
            else none
          else decodeFrom (some ⟨p.missing - 1, value, p.least⟩) s
        else none
    | _, _ => none
  | none, c :: s => if c = 37 then none else (decodeFrom none s).map fun t => c :: t
  | some _, _ :: _ => none

lemma decode_plain {c : UInt16} (hc : c ≠ 37) (s : JSString) :
    decodeFrom none (c :: s) = (decodeFrom none s).map fun t => c :: t := by
  rw [decodeFrom.eq_def]
  split <;> simp_all

def decodeURIComponent (s : JSString) : Option JSString := decodeFrom none s

/-- `qsUnescape`, where `toText` is what `toString` makes of the bytes. -/
def qsUnescape (toText : List UInt8 → JSString) (s : JSString) (decodeSpaces : Bool) : JSString :=
  (decodeURIComponent s).getD (toText (unescapeBuffer s decodeSpaces))

end LowJs.QueryString
