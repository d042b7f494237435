import LowJs.Core.CodeUnits

/-!
# `path`

The functions of the module for POSIX, and `normalizeString`, which those for Windows use as well. The
arguments are strings: what `assertPath` refuses is not modelled. `end`, `from` and `to` of the source are
`end_`, `from_` and `to_`.
-/

namespace LowJs.Path

open JSString

def CHAR_DOT : UInt16 := 46

def CHAR_FORWARD_SLASH : UInt16 := 47

def CHAR_BACKWARD_SLASH : UInt16 := 92

def isPathSeparator (code : UInt16) : Bool := code == CHAR_FORWARD_SLASH || code == CHAR_BACKWARD_SLASH

def isPosixPathSeparator (code : UInt16) : Bool := code == CHAR_FORWARD_SLASH

/-! ### `normalizeString` -/

/-- The variables of the loop. -/
structure Scan where
  res : JSString
  lastSegmentLength : Int
  lastSlash : Int
  dots : Int
  code : Option UInt16
  deriving DecidableEq, Repr

/-- The code of the turn `i`; there is none at the `break`. -/
def nextCode (path : JSString) (isPathSeparator : UInt16 → Bool) (s : Scan) (i : Nat) : Option UInt16 :=
  if i < path.length then path[i]?
  else if s.code.any isPathSeparator then none
  else some CHAR_FORWARD_SLASH

/-- The part of the turn for `..` that takes a segment back and goes on. -/
def goUp (separator : UInt16) (s : Scan) : Option Scan :=
  if s.res.length < 2 || s.lastSegmentLength != 2 ||
      s.res[s.res.length - 1]? != some CHAR_DOT || s.res[s.res.length - 2]? != some CHAR_DOT then
    if s.res.length > 2 then
      let lastSlashIndex := s.res.lastIndexOf separator
      if lastSlashIndex != (s.res.length : Int) - 1 then
        if lastSlashIndex == -1 then some { s with res := [], lastSegmentLength := 0 }
        else
          let res := s.res.slice 0 lastSlashIndex.toNat
          some { s with res, lastSegmentLength := (res.length : Int) - 1 - res.lastIndexOf separator }
      else none
    else if s.res.length == 2 || s.res.length == 1 then some { s with res := [], lastSegmentLength := 0 }
    else none
  else none

/-- A separator is met. -/
def atSeparator (path : JSString) (allowAboveRoot : Bool) (separator : UInt16) (s : Scan) (i : Nat) : Scan :=
  if s.lastSlash == (i : Int) - 1 || s.dots == 1 then s
  else if s.lastSlash != (i : Int) - 1 && s.dots == 2 then
    match goUp separator s with
    | some s => s
    | none =>
      if allowAboveRoot then
        { s with
          res := if s.res.length > 0 then s.res ++ [separator, CHAR_DOT, CHAR_DOT] else [CHAR_DOT, CHAR_DOT]
          lastSegmentLength := 2 }
      else s
  else
    { s with
      res :=
        if s.res.length > 0 then s.res ++ separator :: path.slice (s.lastSlash + 1).toNat i
        else path.slice (s.lastSlash + 1).toNat i
      lastSegmentLength := (i : Int) - s.lastSlash - 1 }

/-- A turn of the loop. Behind the `break` there is no turn. -/
def turn (path : JSString) (allowAboveRoot : Bool) (separator : UInt16) (isPathSeparator : UInt16 → Bool)
    (s : Scan) (i : Nat) : Scan :=
  match nextCode path isPathSeparator s i with
  | none => s
  | some code =>
    let s := { s with code := some code }
    if isPathSeparator code then
      { atSeparator path allowAboveRoot separator s i with lastSlash := i, dots := 0 }
    else if code == CHAR_DOT && s.dots != -1 then { s with dots := s.dots + 1 }
    else { s with dots := -1 }

def normalizeString (path : JSString) (allowAboveRoot : Bool) (separator : UInt16)
    (isPathSeparator : UInt16 → Bool) : JSString :=
  ((List.range (path.length + 1)).foldl (turn path allowAboveRoot separator isPathSeparator)
    ⟨[], 0, -1, 0, none⟩).res

/-! ### The functions of `posix` -/

/-- The loop of `resolve` over the arguments from the last one on, with `process.cwd()` behind the first one. -/
def resolveLoop : List JSString → JSString → Bool → JSString × Bool
  | [], resolvedPath, resolvedAbsolute => (resolvedPath, resolvedAbsolute)
  | path :: paths, resolvedPath, resolvedAbsolute =>
    if resolvedAbsolute then (resolvedPath, resolvedAbsolute)
    else if path.length = 0 then resolveLoop paths resolvedPath resolvedAbsolute
    else resolveLoop paths (path ++ CHAR_FORWARD_SLASH :: resolvedPath) (path[0]? == some CHAR_FORWARD_SLASH)

def resolve (cwd : JSString) (args : List JSString) : JSString :=
  let (resolvedPath, resolvedAbsolute) := resolveLoop (args.reverse ++ [cwd]) [] false
  let resolvedPath := normalizeString resolvedPath (!resolvedAbsolute) CHAR_FORWARD_SLASH isPosixPathSeparator
  if resolvedAbsolute then
    if resolvedPath.length > 0 then CHAR_FORWARD_SLASH :: resolvedPath else [CHAR_FORWARD_SLASH]
  else if resolvedPath.length > 0 then resolvedPath
  else [CHAR_DOT]

def isAbsolute (path : JSString) : Bool := path.length > 0 && path[0]? == some CHAR_FORWARD_SLASH

def normalize (path : JSString) : JSString :=
  if path.length = 0 then [CHAR_DOT]
  else
    let isAbsolute := path[0]? == some CHAR_FORWARD_SLASH
    let trailingSeparator := path[path.length - 1]? == some CHAR_FORWARD_SLASH
    let path := normalizeString path (!isAbsolute) CHAR_FORWARD_SLASH isPosixPathSeparator
    let path := if path.length = 0 && !isAbsolute then [CHAR_DOT] else path
    let path := if path.length > 0 && trailingSeparator then path ++ [CHAR_FORWARD_SLASH] else path
    if isAbsolute then CHAR_FORWARD_SLASH :: path else path

/-- The loop of `join`; `none` is `undefined`. -/
def joinLoop : List JSString → Option JSString → Option JSString
  | [], joined => joined
  | arg :: args, joined =>
    if arg.length > 0 then
      joinLoop args (some (joined.elim arg fun joined => joined ++ CHAR_FORWARD_SLASH :: arg))
    else joinLoop args joined

def join (args : List JSString) : JSString :=
  if args.length = 0 then [CHAR_DOT]
  else
    match joinLoop args none with
    | none => [CHAR_DOT]
    | some joined => normalize joined

/-- The index of the first code unit from `i` on that is no `/`. -/
def skipSlashes (s : JSString) (i : Nat) : Nat := i + ((s.drop i).takeWhile (· == CHAR_FORWARD_SLASH)).length

/-- The loop of `relative` that looks for the common path, with `n` turns in front of `length`: the result of
the function, or `lastCommonSep`. -/
def compare (from_ to_ : JSString) (fromStart toStart : Nat) : Nat → Nat → Int → JSString ⊕ Int
  | 0, i, lastCommonSep =>
    let length := i
    if to_.length - toStart > length then
      if to_[toStart + i]? = some CHAR_FORWARD_SLASH then .inl (to_.slice (toStart + i + 1) to_.length)
      else if i = 0 then .inl (to_.slice (toStart + i) to_.length)
      else .inr lastCommonSep
    else if from_.length - fromStart > length then
      if from_[fromStart + i]? = some CHAR_FORWARD_SLASH then .inr i
      else if i = 0 then .inr 0
      else .inr lastCommonSep
    else .inr lastCommonSep
  | n + 1, i, lastCommonSep =>
    if from_[fromStart + i]? ≠ to_[toStart + i]? then .inr lastCommonSep
    else
      compare from_ to_ fromStart toStart n (i + 1)
        (if from_[fromStart + i]? = some CHAR_FORWARD_SLASH then i else lastCommonSep)

/-- The `..` of `relative`, for the indices from `start` to `fromEnd`. -/
def ups (from_ : JSString) (start fromEnd : Nat) : JSString :=
  (List.range' start (fromEnd + 1 - start)).foldl (fun out i =>
    if i = fromEnd ∨ from_[i]? = some CHAR_FORWARD_SLASH then
      if out.length = 0 then out ++ [CHAR_DOT, CHAR_DOT]
      else out ++ [CHAR_FORWARD_SLASH, CHAR_DOT, CHAR_DOT]
    else out) []

/-- What `relative` returns behind that loop. -/
def behindLoop (from_ to_ : JSString) (fromStart toStart : Nat) : JSString ⊕ Int → JSString
  | .inl result => result
  | .inr lastCommonSep =>
    let out := ups from_ (fromStart + lastCommonSep + 1).toNat from_.length
    if out.length > 0 then out ++ to_.slice (toStart + lastCommonSep).toNat to_.length
    else
      let toStart := (toStart + lastCommonSep).toNat
      let toStart := if to_[toStart]? = some CHAR_FORWARD_SLASH then toStart + 1 else toStart
      to_.slice toStart to_.length

def relative (cwd from_ to_ : JSString) : JSString :=
  if from_ = to_ then []
  else
    let from_ := resolve cwd [from_]
    let to_ := resolve cwd [to_]
    if from_ = to_ then []
    else
      let fromStart := skipSlashes from_ 1
      let toStart := skipSlashes to_ 1
      let length := min (from_.length - fromStart) (to_.length - toStart)
      behindLoop from_ to_ fromStart toStart (compare from_ to_ fromStart toStart length 0 (-1))

/-! ### The parts of a path -/

/-- The loop of `dirname`, from the index below `n` down to `1`. -/
def dirLoop (path : JSString) : Nat → Bool → Int
  | 0, _ => -1
  | i + 1, matchedSlash =>
    if i < 1 then -1
    else if path[i]? = some CHAR_FORWARD_SLASH then if !matchedSlash then i else dirLoop path i matchedSlash
    else dirLoop path i false

def dirname (path : JSString) : JSString :=
  if path.length = 0 then [CHAR_DOT]
  else
    let hasRoot := path[0]? == some CHAR_FORWARD_SLASH
    let end_ := dirLoop path path.length true
    if end_ = -1 then if hasRoot then [CHAR_FORWARD_SLASH] else [CHAR_DOT]
    else if hasRoot && end_ = 1 then [CHAR_FORWARD_SLASH, CHAR_FORWARD_SLASH]
    else path.slice 0 end_.toNat

/-- The loop of `basename` without an extension, from the index below `n` on. -/
def baseLoop (path : JSString) : Nat → Int → Bool → Int × Int
  | 0, end_, _ => (0, end_)
  | i + 1, end_, matchedSlash =>
    if path[i]? = some CHAR_FORWARD_SLASH then
      if !matchedSlash then (i + 1, end_) else baseLoop path i end_ matchedSlash
    else if end_ = -1 then baseLoop path i (i + 1) false
    else baseLoop path i end_ matchedSlash

/-- The variables of the loop of `basename` with an extension. -/
structure ExtScan where
  start : Int
  end_ : Int
  matchedSlash : Bool
  extIdx : Int
  firstNonSlashEnd : Int
  deriving DecidableEq, Repr

/-- A turn of that loop at a code unit that is no `/`. -/
def extTurn (path ext : JSString) (i : Nat) (s : ExtScan) : ExtScan :=
  let s := if s.firstNonSlashEnd = -1 then { s with matchedSlash := false, firstNonSlashEnd := i + 1 } else s
  if s.extIdx ≥ 0 then
    if path[i]? = ext[s.extIdx.toNat]? then
      if s.extIdx - 1 = -1 then { s with extIdx := s.extIdx - 1, end_ := i }
      else { s with extIdx := s.extIdx - 1 }
    else { s with extIdx := -1, end_ := s.firstNonSlashEnd }
  else s

def extLoop (path ext : JSString) : Nat → ExtScan → ExtScan
  | 0, s => s
  | i + 1, s =>
    if path[i]? = some CHAR_FORWARD_SLASH then
      if !s.matchedSlash then { s with start := i + 1 } else extLoop path ext i s
    else extLoop path ext i (extTurn path ext i s)

/-- `basename`; a missing extension is `undefined`. -/
def basename (path : JSString) (ext : Option JSString) : JSString :=
  match ext.filter fun ext => 0 < ext.length && ext.length ≤ path.length with
  | some ext =>
    if ext.length = path.length && ext = path then []
    else
      let s := extLoop path ext path.length ⟨0, -1, true, (ext.length : Int) - 1, -1⟩
      let end_ :=
        if s.start = s.end_ then s.firstNonSlashEnd else if s.end_ = -1 then (path.length : Int) else s.end_
      path.slice s.start.toNat end_.toNat
  | none =>
    let (start, end_) := baseLoop path path.length (-1) true
    if end_ = -1 then [] else path.slice start.toNat end_.toNat

/-- The variables of the loop that `extname` and `parse` share. -/
structure DotScan where
  startDot : Int
  startPart : Int
  end_ : Int
  matchedSlash : Bool
  preDotState : Int
  deriving DecidableEq, Repr

/-- A turn of the loop at a code unit that is no `/`. -/
def dotTurn (path : JSString) (i : Nat) (s : DotScan) : DotScan :=
  let s := if s.end_ = -1 then { s with matchedSlash := false, end_ := i + 1 } else s
  if path[i]? = some CHAR_DOT then
    if s.startDot = -1 then { s with startDot := i }
    else if s.preDotState ≠ 1 then { s with preDotState := 1 }
    else s
  else if s.startDot ≠ -1 then { s with preDotState := -1 }
  else s

/-- The loop from the index below `n` down to `low`. -/
def dotLoop (path : JSString) (low : Nat) : Nat → DotScan → DotScan
  | 0, s => s
  | i + 1, s =>
    if i < low then s
    else if path[i]? = some CHAR_FORWARD_SLASH then
      if !s.matchedSlash then { s with startPart := i + 1 } else dotLoop path low i s
    else dotLoop path low i (dotTurn path i s)

/-- The test behind the loop: there is no extension. -/
def DotScan.noExtension (s : DotScan) : Bool :=
  s.startDot == -1 || s.end_ == -1 || s.preDotState == 0 ||
    (s.preDotState == 1 && s.startDot == s.end_ - 1 && s.startDot == s.startPart + 1)

def extname (path : JSString) : JSString :=
  let s := dotLoop path 0 path.length ⟨-1, 0, -1, true, 0⟩
  if s.noExtension then [] else path.slice s.startDot.toNat s.end_.toNat

structure PathObject where
  root : JSString
  dir : JSString
  base : JSString
  ext : JSString
  name : JSString
  deriving DecidableEq, Repr

/-- `base`, `name` and `ext` of `parse`. -/
def parseBase (path : JSString) (isAbsolute : Bool) (s : DotScan) (ret : PathObject) : PathObject :=
  let first : Nat := if s.startPart = 0 && isAbsolute then 1 else s.startPart.toNat
  if s.noExtension then
    if s.end_ ≠ -1 then
      { ret with base := path.slice first s.end_.toNat, name := path.slice first s.end_.toNat }
    else ret
  else
    { ret with
      name := path.slice first s.startDot.toNat
      base := path.slice first s.end_.toNat
      ext := path.slice s.startDot.toNat s.end_.toNat }

def parse (path : JSString) : PathObject :=
  let ret : PathObject := ⟨[], [], [], [], []⟩
  if path.length = 0 then ret
  else
    let isAbsolute := path[0]? == some CHAR_FORWARD_SLASH
    let ret := if isAbsolute then { ret with root := [CHAR_FORWARD_SLASH] } else ret
    let s := dotLoop path (if isAbsolute then 1 else 0) path.length ⟨-1, 0, -1, true, 0⟩
    let ret := parseBase path isAbsolute s ret
    if s.startPart > 0 then { ret with dir := path.slice 0 (s.startPart - 1).toNat }
    else if isAbsolute then { ret with dir := [CHAR_FORWARD_SLASH] }
    else ret

/-- `a || b` for strings. -/
def orElse (a b : JSString) : JSString := if a.length = 0 then b else a

/-- `_format` with the separator `sep`. -/
def format_ (sep : UInt16) (pathObject : PathObject) : JSString :=
  let dir := orElse pathObject.dir pathObject.root
  let base := orElse pathObject.base (pathObject.name ++ pathObject.ext)
  if dir.length = 0 then base
  else if dir = pathObject.root then dir ++ base
  else dir ++ sep :: base

def format (pathObject : PathObject) : JSString := format_ CHAR_FORWARD_SLASH pathObject

end LowJs.Path
