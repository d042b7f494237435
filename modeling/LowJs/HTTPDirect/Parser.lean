import LowJs.Core.Framing

/-!
# The HTTP parser: state and steps on one byte

The fields of `LowHTTPDirect` that only the byte loop of `SocketData` and the two list walks
read, with the functions that loop is made of. Header and trailer entries are collected in
parameter blocks, each entry behind a byte that holds its length; the blocks form a linked
list, and a zero length ends the entries of a block.
-/

namespace LowJs.HTTPDirect

/-- `LowHTTPDirect_Phase`. -/
inductive Phase
  | firstLine1
  | firstLine2
  | firstLine3
  | headerKey
  | headerValue
  | chunkHeader
  | body
  | sendingResponse
  deriving DecidableEq, Repr, Inhabited

/-- `LowHTTPDirect_ParamDataType`. -/
inductive ParamDataType
  | header
  | trailer
  deriving DecidableEq, Repr, Inhabited

/-- `LowHTTPDirect_ParamData`. A block is named by the number of the allocation it came from. -/
structure ParamData where
  next : Option Nat
  type : ParamDataType
  data : Int → UInt8
  deriving Inhabited

/-- What the parser takes from outside: the size of a block's `data` array, and for each call of
`low_alloc` the memory it returns, whose contents are arbitrary, or `none` for `NULL`. -/
structure Env where
  sizeofData : Int
  lowAlloc : Nat → Option (Int → UInt8)

/-- Blocks of 10240 bytes, and memory that `low_alloc` always finds. -/
def deviceEnv : Env := ⟨10240, fun _ => some fun _ => 0⟩

/-- The numbers that a message announces, before they are forced into an `int`. -/
structure Announcement where
  contentLength : Option Int
  chunkSizes : List Int
  deriving DecidableEq, Repr, Inhabited

/-- What has been seen of the messages of a connection; the code keeps none of it. `past` are the
framings of the messages before the present one, with the sizes of their chunks, `now` is what it
announces itself. Where its head has ended, `framing` is the framing the head selects, and `tail` are
the bytes taken since then. -/
structure History where
  past : List (Framing × List Int)
  now : Announcement
  framing : Option Framing
  tail : List UInt8
  deriving DecidableEq, Repr, Inhabited

def History.start : History := ⟨[], ⟨none, []⟩, none, []⟩

/-- The next message begins. -/
def History.next (h : History) : History :=
  { History.start with past := h.past ++ (h.framing.map fun f => (f, h.now.chunkSizes)).toList }

/-- Bytes are taken. -/
def History.take (h : History) (bs : List UInt8) : History :=
  if h.framing.isSome then { h with tail := h.tail ++ bs } else h

/-- A LF is skipped. Where it completes the line end of the head, the tail has not begun. -/
def History.skip (h : History) : History := if h.tail = [] then h else h.take [LF]

/-- The parser fields of `LowHTTPDirect`, with the heap its blocks live in. Of
`mChunkedHeaderLine` the first `mChunkedParamStart` bytes are kept. -/
structure Parser where
  mPhase : Phase
  mEraseNextN : Bool
  mAtTrailer : Bool
  mNoBodyDefault : Bool
  mChunkedEncoding : Bool
  mContentLen : Int
  mDataLen : Int
  heap : Nat → ParamData
  allocs : Nat
  mParamFirst : Option Nat
  mParamLast : Option Nat
  mParamStart : Int
  mParamPos : Int
  mParamPosNonSpace : Int
  mChunkedHeaderLine : List UInt8
  mIsContentLengthHeader : Bool
  mIsTransferEncodingHeader : Bool
  history : History
  deriving Inhabited

namespace Parser

/-- `param->data[i]`. -/
def read (p : Parser) (b : Nat) (i : Int) : UInt8 := (p.heap b).data i

/-- `param->data[i] = v`. -/
def write (p : Parser) (b : Nat) (i : Int) (v : UInt8) : Parser :=
  let block := { p.heap b with data := Function.update (p.heap b).data i v }
  { p with heap := Function.update p.heap b block }

/-- An `int` stored in a `char`. -/
def lowByte (n : Int) : UInt8 := UInt8.ofNat (n % 256).toNat

/-- The parser part of `LowHTTPDirect::Init`. -/
def init (p : Parser) : Parser :=
  { p with
    mPhase := .firstLine1
    mAtTrailer := false
    mContentLen := -1
    mDataLen := 0
    mChunkedEncoding := false
    mNoBodyDefault := false
    mParamFirst := none
    mParamLast := none
    history := p.history.next }

/-! ### Parameter blocks -/

/-- How the allocation step of the byte loop ends. -/
inductive AllocExit
  | param (b : Nat)
  | linked (b : Nat) (p : Parser)
  | null (p : Parser)
  | err (p : Parser)

/-- The new block of a full list: the unfinished entry moves to its start. `mParamLast` is left
as it is. -/
def spill (p : Parser) (new : Nat) (type : ParamDataType) (mem : Int → UInt8) (b : Nat) :
    Parser :=
  let len := p.mParamPos - p.mParamStart
  let moved : Int → UInt8 := fun i =>
    if 1 ≤ i ∧ i < 1 + len then p.read b (p.mParamStart + (i - 1)) else mem i
  let heap := Function.update p.heap new ⟨none, type, moved⟩
  let p := { p with
    allocs := p.allocs + 1
    heap := Function.update heap b { heap b with next := some new } }
  { p.write b (p.mParamStart - 1) 0 with
    mParamPos := p.mParamPos - (p.mParamStart - 1)
    mParamPosNonSpace := p.mParamPosNonSpace - (p.mParamStart - 1)
    mParamStart := 1 }

/-- Lines 685 to 725, outside the body and chunk header phases: the block to write to, and a
new block if there is none or if the current one is full. -/
def allocParam (E : Env) (p : Parser) : AllocExit :=
  let alloc (link : Nat → ParamDataType → (Int → UInt8) → AllocExit) : AllocExit :=
    match E.lowAlloc p.allocs with
    | none => .null { p with allocs := p.allocs + 1 }
    | some mem => link p.allocs (if p.mAtTrailer then .trailer else .header) mem
  match p.mParamLast with
  | none =>
    alloc fun new type mem =>
      .linked new { p with
        allocs := p.allocs + 1
        heap := Function.update p.heap new ⟨none, type, mem⟩
        mParamFirst := some new
        mParamLast := some new
        mParamPos := 1
        mParamPosNonSpace := 1
        mParamStart := 1 }
  | some b =>
    if E.sizeofData ≤ p.mParamPos + 2 then
      alloc fun new type mem =>
        if p.mParamStart = 1 then .err { p with allocs := p.allocs + 1 }
        else .linked new (p.spill new type mem b)
    else .param b

/-! ### Chunk size lines -/

/-- The history of a chunk size line that has been read. -/
def announceChunk (p : Parser) : Parser :=
  match chunkSize p.mChunkedHeaderLine with
  | none => p
  | some n => { p with history.now.chunkSizes := p.history.now.chunkSizes ++ [n] }

/-- Lines 728 to 756; `none` is the jump to `err`. -/
def chunkByte (p : Parser) (c : UInt8) : Option Parser :=
  if p.mChunkedHeaderLine.length = 10 then none
  else if c = CR ∨ c = LF then
    if p.mChunkedHeaderLine = [] then some p
    else
      match sscanfX (p.mChunkedHeaderLine.takeWhile (· ≠ 0)) with
      | none => none
      | some i =>
        let p := p.announceChunk
        if i = 0 then some { p with mPhase := .headerKey }
        else some { p with mContentLen := int32 (p.mContentLen + i), mPhase := .body }
  else some { p with mChunkedHeaderLine := p.mChunkedHeaderLine ++ [c] }

/-! ### First line, headers and trailers -/

/-- Lines 955 to 962: the entry is complete, and its length goes in front of it. -/
def storeEntry (p : Parser) (b : Nat) : Parser :=
  let nonSpace :=
    if p.mParamPosNonSpace - p.mParamStart > 255 then p.mParamStart + 255
    else p.mParamPosNonSpace
  { p.write b (p.mParamStart - 1) (lowByte (nonSpace - p.mParamStart)) with
    mParamPos := nonSpace + 1
    mParamStart := nonSpace + 1
    mParamPosNonSpace := nonSpace + 1 }

/-- Lines 816 to 830 and 858 to 872: of `HTTP/1.0` the entry keeps `1.0`. -/
def storeVersion (p : Parser) (b : Nat) : Option Parser :=
  let start := p.mParamStart
  let nonSpace := p.mParamPosNonSpace
  if nonSpace - start < 5 ∨ p.read b (nonSpace - 4) ≠ 47 ∨ p.read b (nonSpace - 2) ≠ 46 then none
  else
    let p := p.write b (start - 1) 3
    let p := p.write b start (p.read b (nonSpace - 3))
    let p := p.write b (start + 1) 46
    let p := p.write b (start + 2) (p.read b (nonSpace - 1))
    some { p with
      mParamPos := start + 4
      mParamStart := start + 4
      mParamPosNonSpace := start + 4 }

/-- The string the unfinished entry holds once a NUL stands behind its last non-space byte. -/
def entryString (E : Env) (p : Parser) (b : Nat) : List UInt8 :=
  cString (p.heap b).data p.mParamStart (E.sizeofData - p.mParamStart).toNat

/-- The request methods without a body unless a header announces one. -/
def noBodyMethods : List (List UInt8) :=
  [bytes "OPTIONS", bytes "GET", bytes "HEAD", bytes "UNLOCK", bytes "MKCOL", bytes "COPY",
    bytes "MOVE", bytes "DELETE", bytes "CONNECT"]

/-- The history of a `Content-Length` header; in the trailers it announces nothing. -/
def announceLength (p : Parser) (value : List UInt8) : Parser :=
  if p.mAtTrailer then p
  else { p with history.now.contentLength := some (decimalValue value) }

/-- The framing that a complete head selects. -/
def selectFraming (p : Parser) : Framing :=
  if p.mChunkedEncoding then .chunked
  else
    match p.history.now.contentLength with
    | some n => .length n
    | none => if p.mNoBodyDefault then .length 0 else .untilClose

/-- Lines 877 to 893: a header value ends, and the two framing headers take effect. -/
def storeValue (E : Env) (p : Parser) (b : Nat) : Parser :=
  let p :=
    if p.mIsContentLengthHeader then
      let p := p.write b p.mParamPosNonSpace 0
      let value := p.entryString E b
      { p.announceLength value with mContentLen := atoi value }
    else if p.mIsTransferEncodingHeader then
      let p := p.write b p.mParamPosNonSpace 0
      { p with mChunkedEncoding := containsIgnoreCase (p.entryString E b) (bytes "chunked") }
    else p
  storeEntry { p with mPhase := .headerKey } b

/-- Lines 894 to 905: a header name ends. -/
def storeKey (E : Env) (p : Parser) (b : Nat) : Parser :=
  let p := p.write b p.mParamPosNonSpace 0
  let key := p.entryString E b
  storeEntry { p with
    mIsContentLengthHeader := key == bytes "content-length"
    mIsTransferEncodingHeader :=
      !(key == bytes "content-length") && key == bytes "transfer-encoding"
    mPhase := .headerValue } b

/-- Lines 947 to 951: a header line without a colon gets an empty value. -/
def storeKeyOnly (p : Parser) (b : Nat) : Parser :=
  let nonSpace := p.mParamPosNonSpace
  let p := p.write b (p.mParamStart - 1) (lowByte (nonSpace - p.mParamStart))
  { p.write b nonSpace 0 with mParamPos := nonSpace + 2, mParamStart := nonSpace + 2 }

/-- Lines 929 to 931: a request of a method without a body has none unless it announces one. -/
def bodyLen (p : Parser) : Int :=
  if p.mContentLen = -1 ∧ !p.mChunkedEncoding ∧ p.mNoBodyDefault then 0 else p.mContentLen

/-- Lines 910 to 942: the blank line ends the head, which selects the framing of the body, or
the trailers, which end the message. -/
def endSection (p : Parser) (b : Nat) : Parser :=
  let p := p.write b (p.mParamStart - 1) 0
  if p.mAtTrailer then { p with mPhase := .sendingResponse }
  else
    let p := { p with
      history.framing := some p.selectFraming
      mAtTrailer := true
      mContentLen := p.bodyLen }
    if p.mChunkedEncoding then
      { p with mPhase := .chunkHeader, mChunkedHeaderLine := [], mContentLen := 0 }
    else if p.mContentLen ≠ 0 then { p with mPhase := .body }
    else { p with mPhase := .sendingResponse }

/-- Lines 965 to 971: header names become lower case, a method and a version upper case. -/
def storedChar (isServer : Bool) (phase : Phase) (c : UInt8) : UInt8 :=
  match phase with
  | .headerKey => toLower c
  | .firstLine1 => toUpper c
  | .firstLine3 => if isServer then toUpper c else c
  | _ => c

/-- Lines 965 to 974: a byte of the entry itself. -/
def storeChar (isServer : Bool) (p : Parser) (b : Nat) (c : UInt8) (isSpace : Bool) : Parser :=
  let pos := p.mParamPos + 1
  { p.write b p.mParamPos (storedChar isServer p.mPhase c) with
    mParamPos := pos
    mParamPosNonSpace := if isSpace then p.mParamPosNonSpace else pos }

/-- How a byte of the head or of the trailers leaves the loop body. -/
inductive ParamExit
  | next
  | err
  | ended
  deriving DecidableEq, Repr

/-- Lines 801 to 976: a byte outside the body and the chunk headers. -/
def paramByte (E : Env) (isServer : Bool) (p : Parser) (b : Nat) (c : UInt8) :
    ParamExit × Parser :=
  let isSpace := isBlank c
  if p.mParamStart = p.mParamPos ∧
      (isSpace ∨ ((c = CR ∨ c = LF) ∧ p.mPhase = .firstLine1)) then (.next, p)
  else
    let c := if p.mEraseNextN then LF else c
    match p.mPhase with
    | .firstLine1 =>
      if isSpace then
        let p := { p with mPhase := .firstLine2 }
        if isServer then
          let p := p.write b p.mParamPosNonSpace 0
          (.next, storeEntry { p with
            mNoBodyDefault := noBodyMethods.contains (p.entryString E b) } b)
        else
          match p.storeVersion b with
          | none => (.err, p)
          | some p => (.next, p)
      else (.next, p.storeChar isServer b c isSpace)
    | .firstLine2 =>
      if isSpace then (.next, storeEntry { p with mPhase := .firstLine3 } b)
      else (.next, p.storeChar isServer b c isSpace)
    | .firstLine3 =>
      if c = LF then
        let p := { p with mPhase := .headerKey }
        if isServer then
          match p.storeVersion b with
          | none => (.err, p)
          | some p => (.next, p)
        else (.next, p.storeEntry b)
      else (.next, p.storeChar isServer b c isSpace)
    | .headerValue =>
      if c = LF then (.next, p.storeValue E b)
      else (.next, p.storeChar isServer b c isSpace)
    | .headerKey =>
      if c = 58 then (.next, p.storeKey E b)
      else if c = LF then
        if p.mParamStart = p.mParamPos then (.ended, p.endSection b)
        else (.next, p.storeKeyOnly b)
      else (.next, p.storeChar isServer b c isSpace)
    | _ => (.next, p.storeChar isServer b c isSpace)

/-! ### The walks over the blocks -/

/-- The walk over the entries of one block, from `pos` on. Each entry is passed on as a C string,
for which a NUL is put behind it for a moment. `none`: the walk leaves the block, or does not
end; more than `sizeofData` steps mean that a position has been met twice. -/
def paramStrings (size : Int) (charLen : UInt8 → Int) (data : Int → UInt8) :
    Nat → Int → Option (List (List UInt8))
  | 0, _ => none
  | fuel + 1, pos =>
    if pos < 0 ∨ size ≤ pos then none
    else if data pos = 0 then some []
    else
      let stop := pos + 1 + charLen (data pos)
      if stop < 0 ∨ size ≤ stop then none
      else
        let next := data stop
        let cut := Function.update data stop 0
        let string := cString cut (pos + 1) (size - (pos + 1)).toNat
        (paramStrings size charLen (Function.update cut stop next) fuel stop).map (string :: ·)

/-- The strings of one block. -/
def blockStrings (E : Env) (charLen : UInt8 → Int) (data : Int → UInt8) :
    Option (List (List UInt8)) :=
  paramStrings E.sizeofData charLen data (E.sizeofData.toNat + 1) 0

/-- The loops that hand the blocks to JavaScript and free them, up to the first block whose type
fails `while_`. `none`: one of the walks does not end inside its block, or the list has more blocks
than have been allocated. -/
def takeParams (E : Env) (charLen : UInt8 → Int) (while_ : ParamDataType → Bool) :
    Nat → Parser → Option (List (List UInt8)) × Parser
  | 0, p => (none, p)
  | fuel + 1, p =>
    match p.mParamFirst with
    | none => (some [], p)
    | some b =>
      if while_ (p.heap b).type then
        let next := (p.heap b).next
        let p := { p with
          mParamFirst := next
          mParamLast := if next = none then none else p.mParamLast }
        match blockStrings E charLen (p.heap b).data with
        | none => (none, p)
        | some strings =>
          let (rest, p) := takeParams E charLen while_ fuel p
          (rest.map (strings ++ ·), p)
      else (some [], p)

/-- Lines 466 to 491: the header list, in which a length is an `unsigned char`. -/
def takeHeaders (E : Env) (p : Parser) : Option (List (List UInt8)) × Parser :=
  takeParams E (fun b => b.toNat) (· = .header) (p.allocs + 2) p

/-- Lines 212 to 236 and 571 to 597: the trailer list, in which a length is a `char`. -/
def takeTrailers (E : Env) (p : Parser) : Option (List (List UInt8)) × Parser :=
  takeParams E signedChar (fun _ => true) (p.allocs + 2) p

end Parser

end LowJs.HTTPDirect
