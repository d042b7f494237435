import LowJs.Core.Slots

/-!
# `createCollection`

`Map`, `Set`, `WeakMap` and `WeakSet` of the global scope are made by one function. A collection has an array
of keys, an array of values and a list of iteration pointers: an iterator of the collection holds a pointer,
which a deletion in front of it moves back, as long as the list has it.

The values are those of any type on which there is `===`.
-/

namespace LowJs.Collections

/-- What the collections use of the values: `===`, where `NaN` is what is not equal to itself; the number 0;
and whether a value is an object, `key === Object(key)`. -/
class JSValue (α : Type*) where
  strictEq : α → α → Bool
  symm : ∀ {a b}, strictEq a b → strictEq b a
  trans : ∀ {a b c}, strictEq a b → strictEq b c → strictEq a c
  zero : α
  isObject : α → Bool

variable {α : Type*} [JSValue α]

open JSValue (strictEq)

/-- `is`. -/
def is (a b : α) : Bool := strictEq a b || (!strictEq a a && !strictEq b b)

/-- The prototypes that `createCollection` is given. -/
inductive Proto
  | weakMap
  | map
  | set
  | weakSet
  deriving DecidableEq, Repr

/-- The second argument of `createCollection`. -/
def Proto.objectOnly : Proto → Bool
  | weakMap | weakSet => true
  | map | set => false

/-- Whether the collection has keys beside its values. -/
def Proto.isMap : Proto → Bool
  | weakMap | map => true
  | set | weakSet => false

/-- The arrays that `sharedIterator` is given. -/
inductive Arrays
  | keys
  | values
  | mapEntries
  | setEntries
  deriving DecidableEq, Repr

/-- An iterator that `sharedIterator` has made: `p[0]`, `done`, and the arrays it goes through. -/
structure Iter where
  p : Nat
  done : Bool
  arrays : Arrays
  deriving DecidableEq, Repr

/-- A collection with the iterators it has made, by their numbers. `itp` has the pointers of `_itp`, by the
numbers of their iterators. -/
structure Collection (α : Type*) where
  keys : List α
  values : List α
  itp : List Nat
  iters : List Iter
  deriving DecidableEq, Repr

/-- `new Collection()`. -/
def Collection.new : Collection α := ⟨[], [], [], []⟩

/-- What an iterator gives: an element, or an element of each of two arrays. -/
inductive Yield (α : Type*)
  | one (v : Option α)
  | pair (k v : Option α)
  deriving DecidableEq, Repr

/-- What the methods answer. A missing value is `undefined`. -/
inductive Answer (α : Type*)
  | typeError
  | value (v : Option α)
  | bool (b : Bool)
  | this
  | number (n : Nat)
  | iterator (j : Nat)
  | result (done : Bool) (value : Option (Yield α))
  deriving DecidableEq, Repr

/-- The loop `for (i = list.length; i-- && !is(list[i], key);){}`, from `i` on. -/
def lastIndex (list : List α) (key : α) : Nat → Option Nat
  | 0 => none
  | i + 1 => if list[i]?.any (is · key) then some i else lastIndex list key i

/-- `list.indexOf(key)`. -/
def indexOf (list : List α) (key : α) : Option Nat := list.findIdx? (strictEq · key)

/-- `has`, with the index it leaves in `i`; there is none for -1. The error is the `TypeError` of a weak
collection. -/
def has (proto : Proto) (list : List α) (key : α) : Except Unit (Option Nat) :=
  if proto.objectOnly && !JSValue.isObject key then .error ()
  else if !strictEq key key || strictEq key JSValue.zero then .ok (lastIndex list key list.length)
  else .ok (indexOf list key)

namespace Collection

/-- `setHas`, `mapHas`. -/
def protoHas (proto : Proto) (c : Collection α) (key : α) : Except Unit (Option Nat) :=
  Collections.has proto (if proto.isMap then c.keys else c.values) key

/-- `_itp.forEach(function(p) { if (i < p[0]) p[0]--; })`. -/
def moveBack (i : Nat) (itp : List Nat) (iters : List Iter) : List Iter :=
  itp.foldl (fun iters j => iters.modify j fun it => if i < it.p then { it with p := it.p - 1 } else it) iters

def sharedDelete (proto : Proto) (c : Collection α) (key : α) : Collection α × Answer α :=
  match c.protoHas proto key with
  | .error () => (c, .typeError)
  | .ok none => (c, .bool false)
  | .ok (some i) =>
    ({ c with
      keys := c.keys.eraseIdx i
      values := c.values.eraseIdx i
      iters := moveBack i c.itp c.iters }, .bool true)

def sharedGet (proto : Proto) (c : Collection α) (key : α) : Collection α × Answer α :=
  match c.protoHas proto key with
  | .error () => (c, .typeError)
  | .ok none => (c, .value none)
  | .ok (some i) => (c, .value c.values[i]?)

def sharedHas (proto : Proto) (c : Collection α) (key : α) : Collection α × Answer α :=
  match c.protoHas proto key with
  | .error () => (c, .typeError)
  | .ok i => (c, .bool i.isSome)

/-- `this._values[this._keys.push(key) - 1] = value`, which is at the end of both arrays. -/
def sharedSet (proto : Proto) (c : Collection α) (key value : α) : Collection α × Answer α :=
  match c.protoHas proto key with
  | .error () => (c, .typeError)
  | .ok (some i) => ({ c with values := c.values.set i value }, .this)
  | .ok none => ({ c with keys := c.keys ++ [key], values := c.values ++ [value] }, .this)

def sharedAdd (proto : Proto) (c : Collection α) (value : α) : Collection α × Answer α :=
  match c.protoHas proto value with
  | .error () => (c, .typeError)
  | .ok (some _) => (c, .this)
  | .ok none => ({ c with values := c.values ++ [value] }, .this)

def sharedClear (c : Collection α) : Collection α × Answer α :=
  ({ c with keys := [], values := [] }, .value none)

def sharedSize (c : Collection α) : Collection α × Answer α := (c, .number c.values.length)

def sharedIterator (c : Collection α) (arrays : Arrays) : Collection α × Answer α :=
  ({ c with itp := c.itp ++ [c.iters.length], iters := c.iters ++ [⟨0, false, arrays⟩] },
    .iterator c.iters.length)

/-- `array`. -/
def array (c : Collection α) : Arrays → List α
  | .keys | .mapEntries => c.keys
  | .values | .setEntries => c.values

/-- `array2 ? [array[k], array2[k]]: array[k]`. -/
def yield (c : Collection α) (arrays : Arrays) (k : Nat) : Yield α :=
  match arrays with
  | .keys => .one c.keys[k]?
  | .values => .one c.values[k]?
  | .mapEntries => .pair c.keys[k]? c.values[k]?
  | .setEntries => .pair c.values[k]? c.values[k]?

/-- `itp.splice(itp.indexOf(p), 1)`: without the pointer the index is -1, which is the last place. -/
def spliceItp (itp : List Nat) (j : Nat) : List Nat := if j ∈ itp then itp.erase j else itp.dropLast

/-- `next` of an iterator. -/
def next (c : Collection α) (j : Nat) : Collection α × Answer α :=
  match c.iters[j]? with
  | none => (c, .typeError)
  | some it =>
    if !it.done && decide (it.p < (c.array it.arrays).length) then
      ({ c with iters := c.iters.set j { it with p := it.p + 1 } },
        .result false (some (c.yield it.arrays it.p)))
    else
      ({ c with itp := spliceItp c.itp j, iters := c.iters.set j { it with done := true } },
        .result true none)

end Collection

/-- The calls a program makes. -/
inductive Op (α : Type*)
  | get (key : α)
  | has (key : α)
  | set (key value : α)
  | add (value : α)
  | delete (key : α)
  | clear
  | size
  | keys
  | values
  | entries
  | next (j : Nat)
  deriving DecidableEq, Repr

/-- The methods of the prototypes; `size` can be read of all, `next` is a method of the iterators. -/
def Proto.has (proto : Proto) : Op α → Bool
  | .get _ | .set .. => proto.isMap
  | .add _ => !proto.isMap
  | .keys | .values | .entries => !proto.objectOnly
  | .has _ | .delete _ | .clear | .size | .next _ => true

open Collection in
/-- A call. A method that the prototype does not have is `undefined`, and the call throws. -/
def call (proto : Proto) (c : Collection α) (op : Op α) : Collection α × Answer α :=
  if !proto.has op then (c, .typeError)
  else
    match op with
    | .get key => c.sharedGet proto key
    | .has key => c.sharedHas proto key
    | .set key value => c.sharedSet proto key value
    | .add value => c.sharedAdd proto value
    | .delete key => c.sharedDelete proto key
    | .clear => c.sharedClear
    | .size => if proto.objectOnly then (c, .value none) else c.sharedSize
    | .keys => c.sharedIterator (if proto.isMap then .keys else .values)
    | .values => c.sharedIterator .values
    | .entries => c.sharedIterator (if proto.isMap then .mapEntries else .setEntries)
    | .next j => c.next j

end LowJs.Collections
