import Mathlib

/-!
# The module loader

`low_load_module` and `low_module_require` of `low_module.cpp`: a module is put into the cache of its path
before its body runs, and its parent's list of children is extended after it. Modules are numbered.

A body is what it asks of the loader, in order: it sets `module.exports`, requires, and ends or throws,
depending on the exports it gets. A body does not write to `require.cache`.
-/

namespace LowJs.Modules

abbrev Path := List Char

/-- The value of `module.exports`: the object the module was made with, the global object or another
value. -/
inductive Exports
  | object (module : Nat)
  | global
  | value (v : Nat)
  deriving DecidableEq

/-- What the function of a module does; `require` goes on with the exports, which may be missing, or with
the exception it has thrown. -/
inductive Body
  | done
  | throw
  | setExports (exports : Exports) (next : Body)
  | require (id : List Char) (returned : Option Exports → Body) (thrown : Body)

/-- What is in a file, read as each kind of module: the value of its JSON, and the bodies it has as a native
module and as a script, where it can be loaded as such. -/
structure File where
  json : Option Nat
  native : Option Body
  script : Option Body

/-! ### Paths -/

/-- What stands behind the last dot of a path. -/
def extension (path : Path) : Option (List Char) :=
  if '.' ∈ path then some (path.reverse.takeWhile (· != '.')).reverse else none

def isLib (path : Path) : Bool := ['l', 'i', 'b', ':'].isPrefixOf path

def libInit : Path := ['l', 'i', 'b', ':', 'i', 'n', 'i', 't']

def libNative : Path := ['l', 'i', 'b', ':', 'n', 'a', 't', 'i', 'v', 'e']

def isJson (path : Path) : Bool :=
  match extension path with
  | some [j, s, o, n] => (j == 'j' || j == 'J') && (s == 's' || s == 'S') && (o == 'o' || o == 'O') &&
    (n == 'n' || n == 'N')
  | _ => false

/-- The last test of the source looks at the wrong letter for the capital one. -/
def isLow (path : Path) : Bool :=
  match extension path with
  | some [l, o, w] => (l == 'l' || l == 'L') && (o == 'o' || o == 'O') && (w == 'w' || o == 'W')
  | _ => false

def isNative (path : Path) : Bool :=
  match extension path with
  | some [s, o] => !isJson path && !isLow path && (s == 's' || s == 'S') && (o == 'o' || o == 'O')
  | _ => false

inductive CacheName
  | libModules
  | nativeModules
  | modules
  deriving DecidableEq

/-- What the loader finds: the files that can be read, the path `low_module_resolve_c` finds, with what is in
the caches, for an id in the file of the parent, and whether native modules are allowed. -/
structure Files where
  read : Path → Option File
  resolve : (CacheName → Path → Option Nat) → Path → List Char → Option Path
  disallowNative : Bool

def cacheName (path : Path) : CacheName :=
  if isLib path then .libModules else if isNative path then .nativeModules else .modules

/-! ### The loader -/

/-- The modules that have been made and the caches. The rest is history: the bodies that run and those that
have been run, what `require` has returned for which path, and whether the body of this path was running
then, and the values that `module.exports` has had. -/
structure Loader where
  made : Nat
  filename : Nat → Path
  exports : Nat → Option Exports
  loaded : Nat → Bool
  children : Nat → List Nat
  childrenMap : Nat → List Path
  cache : CacheName → Path → Option Nat
  running : List Path
  evaluated : List Path
  returned : List (Path × Option Exports × Bool)
  held : Nat → List (Option Exports)

/-- `low_module_init`: the native object is the module of `lib:native`. -/
def init : Loader where
  made := 1
  filename _ := libNative
  exports _ := some (.object 0)
  loaded _ := false
  children _ := []
  childrenMap _ := []
  cache name path := if name = .libModules ∧ path = libNative then some 0 else none
  running := []
  evaluated := []
  returned := []
  held _ := [some (.object 0)]

/-- A result that may be an exception, or `none` where the fuel runs out, and the loader after it. -/
abbrev Result (α : Type) := Option (Except Unit α × Loader)

namespace Loader

/-- The module that is in the cache of its path. -/
def cached (s : Loader) (path : Path) : Option Nat := s.cache (cacheName path) path

/-- The exports a module is made with. -/
def newExports (s : Loader) (path : Path) : Option Exports :=
  if isJson path then none else if path = libInit then some .global else some (.object s.made)

/-- A new module, which is put into the cache unless it is the one of `lib:init`. -/
def create (s : Loader) (path : Path) : Loader :=
  { s with
    made := s.made + 1
    filename := Function.update s.filename s.made path
    exports := Function.update s.exports s.made (s.newExports path)
    loaded := Function.update s.loaded s.made false
    children := Function.update s.children s.made []
    childrenMap := Function.update s.childrenMap s.made []
    cache := if path = libInit then s.cache else
      Function.update s.cache (cacheName path)
        (Function.update (s.cache (cacheName path)) path (some s.made))
    held := Function.update s.held s.made [s.newExports path] }

def setExports (s : Loader) (module : Nat) (exports : Option Exports) : Loader :=
  { s with
    exports := Function.update s.exports module exports
    held := Function.update s.held module (s.held module ++ [exports]) }

/-- The body of a path begins, and the loader goes back to the bodies that ran before. -/
def enter (s : Loader) (path : Path) : Loader :=
  { s with running := path :: s.running, evaluated := s.evaluated ++ [path] }

def leave (s : Loader) (running : List Path) : Loader := { s with running := running }

def setLoaded (s : Loader) (module : Nat) : Loader :=
  { s with loaded := Function.update s.loaded module true }

/-- A module is added to the children of its parent, unless its path is there, or the parent is one of the
library. -/
def addChild (s : Loader) (parent : Nat) (path : Path) (module : Nat) : Loader :=
  if isLib (s.filename parent) || decide (path ∈ s.childrenMap parent) then s
  else { s with
    childrenMap := Function.update s.childrenMap parent (s.childrenMap parent ++ [path])
    children := Function.update s.children parent (s.children parent ++ [module]) }

/-- `require` returns the exports of a module. -/
def return_ (s : Loader) (path : Path) (module : Nat) : Loader :=
  { s with returned := s.returned ++ [(path, s.exports module, decide (path ∈ s.running))] }

end Loader

/-- What is run for a new module; `none` where this throws before anything runs. -/
def Files.program (F : Files) (path : Path) (file : File) : Option Body :=
  if isJson path then file.json.map fun v => .setExports (.value v) .done
  else if isNative path then if F.disallowNative then none else file.native
  else file.script

/-- `low_module_require` of a module, over the loader. -/
def require (F : Files) (load : Path → Loader → Result Nat) (parent : Nat) (id : List Char) (s : Loader) :
    Result (Option Exports) :=
  match F.resolve s.cache (s.filename parent) id with
  | none => some (.error (), s)
  | some path =>
    match load path s with
    | none => none
    | some (.error _, s) => some (.error (), s)
    | some (.ok module, s) =>
      let s := s.addChild parent path module
      some (.ok (s.exports module), s.return_ path module)

/-- The body of a module runs, with its `require`. -/
def run (req : List Char → Loader → Result (Option Exports)) (module : Nat) : Body → Loader → Result Unit
  | .done, s => some (.ok (), s)
  | .throw, s => some (.error (), s)
  | .setExports exports next, s => run req module next (s.setExports module (some exports))
  | .require id returned thrown, s =>
    match req id s with
    | none => none
    | some (.error _, s) => run req module thrown s
    | some (.ok exports, s) => run req module (returned exports) s

/-- `low_load_module`. -/
def lowLoadModule (F : Files) : Nat → Path → Loader → Result Nat
  | 0, _, _ => none
  | fuel + 1, path, s =>
    match s.cached path with
    | some module => some (.ok module, s)
    | none =>
      match F.read path with
      | none => some (.error (), s)
      | some file =>
        let module := s.made
        match F.program path file with
        | none => some (.error (), s.create path)
        | some body =>
          match run (require F (lowLoadModule F fuel) module) module body ((s.create path).enter path) with
          | none => none
          | some (.error _, t) => some (.error (), t.leave s.running)
          | some (.ok _, t) => some (.ok module, (t.leave s.running).setLoaded module)

end LowJs.Modules
