import LowJs.QueryString.Escape

/-!
# `parse` of `querystring`

One pass over the code units finds the pairs and the strings of each. The strings are decoded only when an
encoded byte was met. `QueryString.unescape` is not replaced, and no decoder is given in the options.
-/

namespace LowJs.QueryString

open JSString

/-- A property of the object: a string, or the array of several. -/
inductive Value
  | one (value : JSString)
  | many (values : List JSString)
  deriving DecidableEq, Repr

/-- The object, as its properties in the order in which they were made. -/
abbrev Obj := List (JSString × Value)

def Obj.put (obj : Obj) (key : JSString) (value : Value) : Obj :=
  obj.map fun p => if p.1 = key then (key, value) else p

/-- A value is added to a key. -/
def Obj.assign (obj : Obj) (key value : JSString) : Obj :=
  match obj.lookup key with
  | none => obj ++ [(key, .one value)]
  | some (.many curValue) => obj.put key (.many (curValue ++ [value]))
  | some (.one curValue) => obj.put key (.many [curValue, value])

/-- The table `isHexTable` has 1 where `unhexTable` has a value. -/
def isHex (code : UInt16) : Bool := (unhex code).isSome

/-- The variables of the loop. -/
structure State where
  lastPos : Nat
  sepIdx : Nat
  eqIdx : Nat
  key : JSString
  value : JSString
  keyEncoded : Bool
  valEncoded : Bool
  encodeCheck : Nat
  pairs : Int
  obj : Obj
  deriving DecidableEq, Repr

/-- `decodeStr` with the decoder `qsUnescape`, which throws nothing. -/
def decodeStr (toText : List UInt8 → JSString) (s : JSString) : JSString := qsUnescape toText s false

section
variable (toText : List UInt8 → JSString) (qs sepCodes eqCodes : JSString)

/-- The pair is decoded and put into the object. -/
def addPair (s : State) : Obj :=
  let key := if s.key.length > 0 && s.keyEncoded then decodeStr toText s.key else s.key
  let value := if s.value.length > 0 && s.valEncoded then decodeStr toText s.value else s.value
  s.obj.assign key value

/-- Behind a pair: `obj` is returned, or the loop goes on with the next pair. -/
def nextPair (i : Nat) (s : State) : Obj ⊕ State :=
  let obj := addPair toText s
  if s.pairs - 1 = 0 then .inl obj
  else .inr ⟨i + 1, 0, 0, [], [], false, false, 0, s.pairs - 1, obj⟩

/-- The last code of the separator is met. -/
def atSeparator (i : Nat) (s : State) : Obj ⊕ State :=
  let end_ := i + 1 - s.sepIdx
  if s.eqIdx < eqCodes.length then
    if s.lastPos < end_ then nextPair toText i { s with key := s.key ++ qs.slice s.lastPos end_ }
    else if s.key.length = 0 then
      if s.pairs - 1 = 0 then .inl s.obj
      else .inr { s with pairs := s.pairs - 1, lastPos := i + 1, sepIdx := 0, eqIdx := 0 }
    else nextPair toText i s
  else if s.lastPos < end_ then nextPair toText i { s with value := s.value ++ qs.slice s.lastPos end_ }
  else nextPair toText i s

/-- The search for an encoded byte in the key, and whether the turn ends there. -/
def checkKey (code : UInt16) (s : State) : Bool × State :=
  if s.keyEncoded then (false, s)
  else if code = 37 then (true, { s with encodeCheck := 1 })
  else if s.encodeCheck > 0 then
    if isHex code then
      (true, { s with encodeCheck := s.encodeCheck + 1, keyEncoded := s.encodeCheck + 1 == 3 })
    else (false, { s with encodeCheck := 0 })
  else (false, s)

/-- The end of a turn, which is also reached in a key. -/
def valueTurn (i : Nat) (code : UInt16) (s : State) : State :=
  if code = 43 then
    { s with
      value := (if s.lastPos < i then s.value ++ qs.slice s.lastPos i else s.value) ++ [32]
      lastPos := i + 1 }
  else if s.valEncoded then s
  else if code = 37 then { s with encodeCheck := 1 }
  else if s.encodeCheck > 0 then
    if isHex code then { s with encodeCheck := s.encodeCheck + 1, valEncoded := s.encodeCheck + 1 == 3 }
    else { s with encodeCheck := 0 }
  else s

/-- A turn in front of the end of the key. -/
def keyTurn (i : Nat) (code : UInt16) (s : State) : State :=
  if eqCodes[s.eqIdx]? = some code then
    let s := { s with eqIdx := s.eqIdx + 1 }
    if s.eqIdx = eqCodes.length then
      let end_ := i + 1 - s.eqIdx
      { s with
        key := if s.lastPos < end_ then s.key ++ qs.slice s.lastPos end_ else s.key
        encodeCheck := 0
        lastPos := i + 1 }
    else s
  else
    let (continued, s) := checkKey code { s with eqIdx := 0 }
    if continued then s
    else if code = 43 then
      { s with
        key := (if s.lastPos < i then s.key ++ qs.slice s.lastPos i else s.key) ++ [32]
        lastPos := i + 1 }
    else valueTurn qs i code s

def turn (i : Nat) (code : UInt16) (s : State) : Obj ⊕ State :=
  if sepCodes[s.sepIdx]? = some code then
    let s := { s with sepIdx := s.sepIdx + 1 }
    if s.sepIdx = sepCodes.length then atSeparator toText qs eqCodes i s else .inr s
  else
    let s := { s with sepIdx := 0 }
    .inr (if s.eqIdx < eqCodes.length then keyTurn qs eqCodes i code s else valueTurn qs i code s)

/-- The loop over the code units from the index `i` on: what it returns, or its variables at the end. -/
def parseLoop : Nat → JSString → State → Obj ⊕ State
  | _, [], s => .inr s
  | i, code :: rest, s =>
    match turn toText qs sepCodes eqCodes i code s with
    | .inl obj => .inl obj
    | .inr s => parseLoop (i + 1) rest s

/-- What is left over behind the loop. -/
def leftover (s : State) : Obj :=
  if s.lastPos < qs.length then
    addPair toText <|
      if s.eqIdx < eqCodes.length then { s with key := s.key ++ qs.slice s.lastPos qs.length }
      else if s.sepIdx < sepCodes.length then { s with value := s.value ++ qs.slice s.lastPos qs.length }
      else s
  else if s.eqIdx = 0 && s.key.length = 0 then s.obj
  else addPair toText s

end

/-- The bound on the pairs; -1 is none. -/
def pairsOf : Option Int → Int
  | none => 1000
  | some maxKeys => if maxKeys > 0 then maxKeys else -1

/-- `parse`; an argument that is left out is the empty string, or no bound. -/
def parse (toText : List UInt8 → JSString) (qs sep eq : JSString) (maxKeys : Option Int) : Obj :=
  if qs.length = 0 then []
  else
    let sepCodes := if sep.length = 0 then [38] else sep
    let eqCodes := if eq.length = 0 then [61] else eq
    match parseLoop toText qs sepCodes eqCodes 0 qs ⟨0, 0, 0, [], [], false, false, 0, pairsOf maxKeys, []⟩ with
    | .inl obj => obj
    | .inr s => leftover toText qs sepCodes eqCodes s

end LowJs.QueryString
