import LowJs.FS.Resolve

/-!
# `low_module_resolve_c`

The file of a module is found by trying names in a buffer of 1024 bytes. A C string is the list of the bytes
in front of its terminator; the strings have no other zero byte.
-/

namespace LowJs.Modules.Resolver

open FS.Resolve

/-- What is in a `package.json`: it cannot be read, `duk_json_decode` throws, it has no `main`, or it has one. -/
inductive Package
  | unreadable
  | invalid
  | plain
  | main (str : List UInt8)
  deriving DecidableEq, Repr

/-- What is outside of the function. `stat` says whether `client_stat2` finds something and whether that is a
regular file. -/
structure World where
  lib_path : List UInt8
  lib_modules : List UInt8 → Bool
  stat : List UInt8 → Option Bool
  package : List UInt8 → Package

/-- How the function ends: it returns `true` with the string in `res_id`, or `false`, or an error leaves it; or
the end is not defined, since it writes outside of a buffer, or takes the length of what `low_fs_resolve` has
left without success. -/
inductive Result
  | found (res_id : List UInt8)
  | missing
  | thrown
  | outside
  | unresolved
  deriving DecidableEq, Repr

def World.isFile (w : World) (path : List UInt8) : Bool := w.stat path == some true

/-- What is tried behind the path: the number in the length test, the string that is copied, and the number in
the `memmove` to `res_id`. -/
structure Candidate where
  test : Nat
  suffix : List UInt8
  move : Nat
  deriving DecidableEq, Repr

def fileCandidates : List Candidate := [⟨3, bytes ".js", 4⟩, ⟨5, bytes ".json", 6⟩, ⟨3, bytes ".so", 4⟩]

def indexCandidates : List Candidate :=
  [⟨9, bytes "/index.js", 10⟩, ⟨11, bytes "/index.json", 12⟩, ⟨9, bytes "/index.so", 10⟩]

def package_json : List UInt8 := bytes "/package.json"

/-- The file is left in `res_id`. -/
def left (path : List UInt8) (c : Candidate) : Result := .found (path ++ c.suffix)

/-- The file is moved from `res_id2` to `res_id`. -/
def moved (path : List UInt8) (c : Candidate) : Result :=
  if 1024 < path.length + c.move then .outside
  else .found ((path ++ c.suffix).take (path.length + c.move - 1))

/-- The path itself is tried. There is no length test. -/
def plain (w : World) (path : List UInt8) (found : List UInt8 → Candidate → Result) : Option Result :=
  if 1024 < path.length + 1 then some .outside
  else if w.isFile path then some (found path ⟨0, [], 1⟩)
  else none

/-- Some candidates are tried one after another. -/
def candidates (w : World) (path : List UInt8) (found : List UInt8 → Candidate → Result) :
    List Candidate → Option Result
  | [] => none
  | c :: cs =>
    if 1024 ≤ path.length + c.test then some .missing
    else if 1024 < path.length + c.suffix.length + 1 then some .outside
    else if w.isFile (path ++ c.suffix) then some (found path c)
    else candidates w path found cs

def isFolder (path : List UInt8) : Bool := path.getLast? == some slash

/-- The path up to `path`, behind `if(isFolder) path--`. -/
def trimmed (path : List UInt8) : List UInt8 := if isFolder path then path.dropLast else path

/-- The `main` of a package is tried in `res_id2`. -/
def loadMain (w : World) (res_id str : List UInt8) : Option Result :=
  let r := low_fs_resolve 1024 res_id str none
  if !r.1 then some .unresolved
  else
    let path := trimmed r.2.back.reverse
    (plain w path moved).or (candidates w path moved (fileCandidates ++ indexCandidates))

def loadPackage (w : World) (path : List UInt8) : Option Result :=
  if 1024 ≤ path.length + 13 then some .missing
  else if 1024 < path.length + package_json.length + 1 then some .outside
  else if w.isFile (path ++ package_json) then
    match w.package (path ++ package_json) with
    | .unreadable => some .missing
    | .invalid => some .thrown
    | .plain => none
    | .main str => loadMain w (path ++ package_json) str
  else none

/-- `LOAD_AS_FILE`. -/
def loadFile (w : World) (path : List UInt8) : Option Result :=
  if isFolder path then none
  else (plain w path left).or (candidates w path left fileCandidates)

/-- One turn of the loop, behind the choice of the directory. `none` where the loop goes on. -/
def load (w : World) (r : Bool × Buffer) : Option Result :=
  if !r.1 then some .unresolved
  else
    let path := r.2.back.reverse
    ((loadFile w path).or (loadPackage w (trimmed path))).or
      (candidates w (trimmed path) left indexCandidates)

/-- The turns that go through `node_modules`, from `parent_end` on. -/
def goThrough (w : World) (module_id parent_id : List UInt8) : Nat → Result
  | 0 => .missing
  | k + 1 =>
    if parent_id[k]? = some slash then
      (load w (low_fs_resolve 1024 parent_id module_id (some (k + 1)))).getD (goThrough w module_id parent_id k)
    else goThrough w module_id parent_id k

/-- `is_not_absolute_path`, and `i` behind the loop. -/
def scan : List UInt8 → Bool × Nat
  | [] => (false, 0)
  | c :: id => if c = slash ∧ id.head? = some dot then (true, 0) else ((scan id).1, (scan id).2 + 1)

/-- The id may be one of a library module. -/
def isLibrary (module_id : List UInt8) : Bool :=
  module_id.head? != some dot && module_id.head? != some slash && !(scan module_id).1 &&
    decide ((scan module_id).2 < 1000) && module_id != bytes "init" && module_id != bytes "main"

def lib : List UInt8 := bytes "lib:"

def low : List UInt8 := bytes ".low"

/-- The library modules are tried. -/
def loadLibrary (w : World) (module_id : List UInt8) : Option Result :=
  if !isLibrary module_id then none
  else if 1024 < (lib ++ module_id).length + 1 then some .outside
  else if w.lib_modules (lib ++ module_id) then some (.found (lib ++ module_id))
  else if 1024 < (w.lib_path ++ module_id ++ low).length + 1 then some .outside
  else if (w.stat (w.lib_path ++ module_id ++ low)).isSome then some (.found (lib ++ module_id))
  else if 1024 < (w.lib_path ++ module_id).length + 1 then some .outside
  else if (w.stat (w.lib_path ++ module_id)).isSome then some (.found (lib ++ module_id))
  else none

/-- The id starts with `./`, `/` or `../`. -/
def isRelative (module_id : List UInt8) : Bool :=
  (bytes "./").isPrefixOf module_id || (bytes "/").isPrefixOf module_id || (bytes "../").isPrefixOf module_id

/-- The loop. -/
def loadFrom (w : World) (module_id parent_id : List UInt8) : Result :=
  let rest := goThrough w module_id parent_id parent_id.length
  if isRelative module_id then (load w (low_fs_resolve 1024 parent_id module_id none)).getD rest
  else rest

def low_module_resolve_c (w : World) (module_id : List UInt8) (parent_id : Option (List UInt8)) : Result :=
  if module_id = bytes "native" then
    if parent_id.any lib.isPrefixOf then .found (bytes "lib:native") else .missing
  else
    (loadLibrary w module_id).getD
      (match parent_id with
      | none => .missing
      | some parent_id => if lib.isPrefixOf parent_id then .missing else loadFrom w module_id parent_id)

/-! ### What is promised -/

/-- The function writes inside of its buffers and uses what `low_fs_resolve` has left where that has reported
success; a string that it returns fits. -/
def Result.Safe : Result → Prop
  | .found res_id => res_id.length < 1024
  | .missing => True
  | .thrown => True
  | .outside => False
  | .unresolved => False

/-- The path of the id does not fit into the buffer; or it is no file, and what is to be put behind it does not
fit. -/
def TooLong (w : World) (module_id parent : List UInt8) : Prop :=
  ∃ p, target parent module_id none = some p ∧
    (1024 ≤ (pathOf p).length ∨
      w.isFile (pathOf p).reverse = false ∧
        (∀ c ∈ fileCandidates, w.isFile ((pathOf p).reverse ++ c.suffix) = false) ∧
        1024 ≤ (trimmed (pathOf p).reverse).length + 13)

/-- What the function should do. -/
structure Meets (w : World) (module_id : List UInt8) (parent_id : Option (List UInt8)) : Prop where
  safe : (low_module_resolve_c w module_id parent_id).Safe
  rejects : ∀ parent, parent_id = some parent → isRelative module_id = true → TooLong w module_id parent →
    low_module_resolve_c w module_id parent_id = .missing

/-! ### The condition -/

/-- No candidate is a file, and there is room for each of them. -/
def Skips (w : World) (path : List UInt8) (cs : List Candidate) : Prop :=
  ∀ c ∈ cs, path.length + c.suffix.length < 1024 ∧ w.isFile (path ++ c.suffix) = false

/-- The path is not a module that is a file. -/
def SkipsFile (w : World) (path : List UInt8) : Prop :=
  isFolder path = false → w.isFile path = false ∧ Skips w path fileCandidates

/-- There is a package with this `main` at the path. -/
def MainAt (w : World) (path str : List UInt8) : Prop :=
  (trimmed path).length + 13 < 1024 ∧ w.isFile (trimmed path ++ package_json) = true ∧
    w.package (trimmed path ++ package_json) = .main str

/-- `low_fs_resolve` succeeds for the path, and for the `main` of the package that is there. -/
def Resolves (w : World) (r : Bool × Buffer) : Prop :=
  r.1 = true ∧ (SkipsFile w r.2.back.reverse → ∀ str, MainAt w r.2.back.reverse str →
    (low_fs_resolve 1024 (trimmed r.2.back.reverse ++ package_json) str none).1 = true)

/-- The `main` of a package is no module. -/
def SkipsMain (w : World) (res_id str : List UInt8) : Prop :=
  let path := trimmed (low_fs_resolve 1024 res_id str none).2.back.reverse
  w.isFile path = false ∧ Skips w path (fileCandidates ++ indexCandidates)

/-- The path is not a package. -/
def SkipsPackage (w : World) (path : List UInt8) : Prop :=
  path.length + 13 < 1024 ∧ (w.isFile (path ++ package_json) = true →
    w.package (path ++ package_json) = .plain ∨
      ∃ str, w.package (path ++ package_json) = .main str ∧ SkipsMain w (path ++ package_json) str)

/-- There is no module at the path. -/
def SkipsAll (w : World) (r : Bool × Buffer) : Prop :=
  SkipsFile w r.2.back.reverse ∧ SkipsPackage w (trimmed r.2.back.reverse) ∧
    Skips w (trimmed r.2.back.reverse) indexCandidates

/-- The condition on the turns through `node_modules`, down to the first one that finds a module. -/
def ResolvesFrom (w : World) (module_id parent_id : List UInt8) : Nat → Prop
  | 0 => True
  | k + 1 =>
    if parent_id[k]? = some slash then
      Resolves w (low_fs_resolve 1024 parent_id module_id (some (k + 1))) ∧
        (SkipsAll w (low_fs_resolve 1024 parent_id module_id (some (k + 1))) →
          ResolvesFrom w module_id parent_id k)
    else ResolvesFrom w module_id parent_id k

/-- The name of a library module has room in the buffer. -/
def FitsLibrary (w : World) (module_id : List UInt8) : Prop :=
  isLibrary module_id = true → w.lib_modules (lib ++ module_id) = false →
    w.lib_path.length + module_id.length + 4 < 1024

/-- The id is not one of a library module. -/
def SkipsLibrary (w : World) (module_id : List UInt8) : Prop :=
  isLibrary module_id = true → w.lib_modules (lib ++ module_id) = false ∧
    w.stat (w.lib_path ++ module_id ++ low) = none ∧ w.stat (w.lib_path ++ module_id) = none

/-- The condition. -/
def Fits (w : World) (module_id : List UInt8) (parent_id : Option (List UInt8)) : Prop :=
  module_id ≠ bytes "native" → FitsLibrary w module_id ∧
    (SkipsLibrary w module_id → ∀ parent, parent_id = some parent → lib.isPrefixOf parent = false →
      (isRelative module_id = true → Resolves w (low_fs_resolve 1024 parent module_id none)) ∧
      ((isRelative module_id = true → SkipsAll w (low_fs_resolve 1024 parent module_id none)) →
        ResolvesFrom w module_id parent parent.length))

/-! ### The tries -/

/-- An end, if there is one, is safe. -/
def Safe (r : Option Result) : Prop := ∀ a ∈ r, a.Safe

lemma safe_none : Safe none := by
  intro a ha
  exact absurd ha (Option.not_mem_none a)

@[simp] lemma safe_some {a : Result} : Safe (some a) ↔ a.Safe := by
  constructor
  · intro h
    exact h a rfl
  · rintro h _ ⟨⟩
    exact h

lemma safe_or {a b : Option Result} : Safe (a.or b) ↔ Safe a ∧ (a = none → Safe b) := by
  cases a with
  | none => exact ⟨fun h => ⟨safe_none, fun _ => h⟩, fun h => h.2 rfl⟩
  | some a => exact ⟨fun h => ⟨h, fun h' => absurd h' (Option.some_ne_none a)⟩, And.left⟩

lemma safe_getD {a : Option Result} {b : Result} : (a.getD b).Safe ↔ Safe a ∧ (a = none → b.Safe) := by
  cases a with
  | none => exact ⟨fun h => ⟨safe_none, fun _ => h⟩, fun h => h.2 rfl⟩
  | some a =>
    rw [safe_some]
    exact ⟨fun h => ⟨h, fun h' => absurd h' (Option.some_ne_none a)⟩, And.left⟩

/-- The numbers of a candidate are right. -/
def Candidate.Right (c : Candidate) : Prop := c.test = c.suffix.length ∧ c.move = c.suffix.length + 1

lemma fileCandidates_right : ∀ c ∈ fileCandidates, c.Right := by
  intro c hc
  simp only [fileCandidates, List.mem_cons, List.not_mem_nil, or_false] at hc
  rcases hc with rfl | rfl | rfl <;> exact ⟨rfl, rfl⟩

lemma indexCandidates_right : ∀ c ∈ indexCandidates, c.Right := by
  intro c hc
  simp only [indexCandidates, List.mem_cons, List.not_mem_nil, or_false] at hc
  rcases hc with rfl | rfl | rfl <;> exact ⟨rfl, rfl⟩

lemma safe_left {path : List UInt8} {c : Candidate} (h : path.length + c.suffix.length < 1024) :
    (left path c).Safe := by
  rw [left, Result.Safe, List.length_append]
  exact h

lemma safe_moved {path : List UInt8} {c : Candidate} (hright : c.Right)
    (h : path.length + c.suffix.length < 1024) : (moved path c).Safe := by
  rw [moved, if_neg (by rw [hright.2]; omega), Result.Safe, List.length_take, List.length_append]
  omega

variable {w : World} {path : List UInt8} {found : List UInt8 → Candidate → Result}

lemma safe_plain (hlt : path.length < 1024) (hfound : (found path ⟨0, [], 1⟩).Safe) :
    Safe (plain w path found) := by
  rw [plain, if_neg (by omega)]
  split
  · exact safe_some.mpr hfound
  · exact safe_none

lemma plain_eq_none (hlt : path.length < 1024) : plain w path found = none ↔ w.isFile path = false := by
  rw [plain, if_neg (by omega)]
  cases w.isFile path <;> simp

lemma safe_candidates {cs : List Candidate} (hright : ∀ c ∈ cs, c.Right)
    (hfound : ∀ c ∈ cs, path.length + c.suffix.length < 1024 → (found path c).Safe) :
    Safe (candidates w path found cs) := by
  induction cs with
  | nil => exact safe_none
  | cons c cs ih =>
    have hrest := ih (fun d hd => hright d (List.mem_cons_of_mem _ hd))
      (fun d hd => hfound d (List.mem_cons_of_mem _ hd))
    have hc := hright c List.mem_cons_self
    rw [candidates, hc.1]
    split
    · exact safe_some.mpr trivial
    · rw [if_neg (by omega)]
      split
      · exact safe_some.mpr (hfound c List.mem_cons_self (by omega))
      · exact hrest

lemma candidates_eq_none {cs : List Candidate} (hright : ∀ c ∈ cs, c.Right) :
    candidates w path found cs = none ↔ Skips w path cs := by
  induction cs with
  | nil => simp [candidates, Skips]
  | cons c cs ih =>
    have hrest := ih fun d hd => hright d (List.mem_cons_of_mem _ hd)
    have hc := hright c List.mem_cons_self
    rw [candidates, hc.1, Skips, List.forall_mem_cons, ← Skips, ← hrest]
    by_cases hroom : 1024 ≤ path.length + c.suffix.length
    · rw [if_pos hroom]
      simp [not_lt.mpr hroom]
    · rw [if_neg hroom, if_neg (by omega)]
      cases w.isFile (path ++ c.suffix) <;> simp [not_le.mp hroom]

/-! ### A turn of the loop -/

lemma length_trimmed (path : List UInt8) : (trimmed path).length ≤ path.length := by
  rw [trimmed]
  split
  · rw [List.length_dropLast]
    exact Nat.sub_le _ _
  · exact le_rfl

lemma safe_loadFile (hlt : path.length < 1024) : Safe (loadFile w path) := by
  rw [loadFile]
  split
  · exact safe_none
  · refine safe_or.mpr ⟨safe_plain hlt (safe_left hlt), fun _ => ?_⟩
    exact safe_candidates fileCandidates_right fun _ _ => safe_left

lemma loadFile_eq_none (hlt : path.length < 1024) : loadFile w path = none ↔ SkipsFile w path := by
  rw [loadFile, SkipsFile]
  cases isFolder path with
  | true => simp
  | false =>
    simp only [Bool.false_eq_true, if_false, forall_const]
    rw [Option.or_eq_none_iff, plain_eq_none hlt, candidates_eq_none fileCandidates_right]

lemma moveCandidates_right : ∀ c ∈ fileCandidates ++ indexCandidates, c.Right := by
  intro c hc
  rcases List.mem_append.mp hc with hc | hc
  · exact fileCandidates_right c hc
  · exact indexCandidates_right c hc

lemma length_main {res_id str : List UInt8} (h : (low_fs_resolve 1024 res_id str none).1 = true) :
    (trimmed (low_fs_resolve 1024 res_id str none).2.back.reverse).length < 1024 := by
  have hlength := length_lt_of_resolve (behind_none _) (by decide) h
  have htrimmed := length_trimmed (low_fs_resolve 1024 res_id str none).2.back.reverse
  rw [List.length_reverse] at htrimmed
  omega

/-- The `main` of a package is tried, if the path to it is found. -/
lemma safe_loadMain {res_id str : List UInt8} :
    Safe (loadMain w res_id str) ↔ (low_fs_resolve 1024 res_id str none).1 = true := by
  rw [loadMain]
  by_cases hr : (low_fs_resolve 1024 res_id str none).1 = true
  · have hlength := length_main hr
    simp only [hr, Bool.not_true, Bool.false_eq_true, if_false, iff_true]
    refine safe_or.mpr ⟨safe_plain hlength (safe_moved ⟨rfl, rfl⟩ hlength), fun _ => ?_⟩
    exact safe_candidates moveCandidates_right fun c hc => safe_moved (moveCandidates_right c hc)
  · simp [hr, Result.Safe]

lemma loadMain_eq_none {res_id str : List UInt8} (h : (low_fs_resolve 1024 res_id str none).1 = true) :
    loadMain w res_id str = none ↔ SkipsMain w res_id str := by
  rw [loadMain, SkipsMain]
  simp only [h, Bool.not_true, Bool.false_eq_true, if_false]
  rw [Option.or_eq_none_iff, plain_eq_none (length_main h), candidates_eq_none moveCandidates_right]

lemma length_package_json : package_json.length = 13 := by decide

lemma safe_loadPackage : Safe (loadPackage w path) ↔
    ∀ str, path.length + 13 < 1024 ∧ w.isFile (path ++ package_json) = true ∧
      w.package (path ++ package_json) = .main str →
      (low_fs_resolve 1024 (path ++ package_json) str none).1 = true := by
  rw [loadPackage, length_package_json]
  by_cases hroom : 1024 ≤ path.length + 13
  · rw [if_pos hroom, safe_some]
    exact ⟨fun _ str h => absurd h.1 (not_lt.mpr hroom), fun _ => trivial⟩
  · rw [if_neg hroom, if_neg (by omega)]
    cases hfile : w.isFile (path ++ package_json) with
    | false => simp [safe_none]
    | true =>
      cases hpackage : w.package (path ++ package_json) with
      | unreadable => simp [Result.Safe]
      | invalid => simp [Result.Safe]
      | plain => simp [safe_none]
      | main str =>
        simp only [if_true, safe_loadMain, not_le.mp hroom, true_and, Package.main.injEq]
        exact ⟨fun h str' hstr => hstr ▸ h, fun h => h str rfl⟩

lemma loadPackage_eq_none (h : Safe (loadPackage w path)) : loadPackage w path = none ↔ SkipsPackage w path := by
  rw [safe_loadPackage] at h
  rw [loadPackage, length_package_json, SkipsPackage]
  by_cases hroom : 1024 ≤ path.length + 13
  · simp [hroom]
  · rw [if_neg hroom, if_neg (by omega)]
    cases hfile : w.isFile (path ++ package_json) with
    | false => simp [not_le.mp hroom]
    | true =>
      cases hpackage : w.package (path ++ package_json) with
      | unreadable => simp
      | invalid => simp
      | plain => simp [not_le.mp hroom]
      | main str =>
        have hmain := loadMain_eq_none (w := w) (h str ⟨not_le.mp hroom, hfile, hpackage⟩)
        simp [not_le.mp hroom, hmain]

/-- What a turn needs. -/
lemma safe_load {r : Bool × Buffer} (hlength : r.1 = true → r.2.back.length < 1024) :
    Safe (load w r) ↔ Resolves w r := by
  rw [load, Resolves]
  by_cases hr : r.1 = true
  · have hlt : r.2.back.reverse.length < 1024 := by
      rw [List.length_reverse]
      exact hlength hr
    simp only [hr, Bool.not_true, Bool.false_eq_true, if_false, true_and]
    rw [safe_or, safe_or, loadFile_eq_none hlt, safe_loadPackage]
    constructor
    · rintro ⟨⟨-, h⟩, -⟩ hskips str hmain
      exact h hskips str hmain
    · intro h
      refine ⟨⟨safe_loadFile hlt, fun hskips str hmain => h hskips str hmain⟩, fun _ => ?_⟩
      exact safe_candidates indexCandidates_right fun _ _ => safe_left
  · simp [hr, Result.Safe]

lemma load_eq_none {r : Bool × Buffer} (hlength : r.1 = true → r.2.back.length < 1024) (h : Resolves w r) :
    load w r = none ↔ SkipsAll w r := by
  obtain ⟨hr, hmain⟩ := h
  have hlt : r.2.back.reverse.length < 1024 := by
    rw [List.length_reverse]
    exact hlength hr
  rw [load, SkipsAll]
  simp only [hr, Bool.not_true, Bool.false_eq_true, if_false]
  rw [Option.or_eq_none_iff, Option.or_eq_none_iff, loadFile_eq_none hlt,
    candidates_eq_none indexCandidates_right, and_assoc]
  refine and_congr_right fun hskips => and_congr_left fun _ => ?_
  exact loadPackage_eq_none (safe_loadPackage.mpr (hmain hskips))

/-! ### The whole function -/

lemma length_resolve {parent module_id : List UInt8} {k : Nat} (hk : parent[k]? = some slash)
    (h : (low_fs_resolve 1024 parent module_id (some (k + 1))).1 = true) :
    (low_fs_resolve 1024 parent module_id (some (k + 1))).2.back.length < 1024 := by
  refine length_lt_of_resolve ?_ (by decide) h
  rintro _ ⟨⟩
  obtain ⟨hlt, hget⟩ := List.getElem?_eq_some_iff.mp hk
  refine ⟨hlt, ?_⟩
  rw [List.getLast?_eq_getElem?, List.length_take, min_eq_left hlt, Nat.add_sub_cancel,
    List.getElem?_take_of_lt (Nat.lt_succ_self k), hk]

/-- The turns through `node_modules`. -/
lemma safe_goThrough {module_id parent : List UInt8} (k : Nat) :
    (goThrough w module_id parent k).Safe ↔ ResolvesFrom w module_id parent k := by
  induction k with
  | zero => exact ⟨fun _ => trivial, fun _ => trivial⟩
  | succ k ih =>
    rw [goThrough, ResolvesFrom]
    by_cases hk : parent[k]? = some slash
    · rw [if_pos hk, if_pos hk, safe_getD, safe_load (length_resolve hk), ih]
      refine and_congr_right fun hresolves => ?_
      rw [load_eq_none (length_resolve hk) hresolves]
    · rw [if_neg hk, if_neg hk, ih]

lemma safe_loadFrom {module_id parent : List UInt8} : (loadFrom w module_id parent).Safe ↔
    (isRelative module_id = true → Resolves w (low_fs_resolve 1024 parent module_id none)) ∧
      ((isRelative module_id = true → SkipsAll w (low_fs_resolve 1024 parent module_id none)) →
        ResolvesFrom w module_id parent parent.length) := by
  have hlength := @length_lt_of_resolve 1024 parent module_id none (behind_none parent) (by decide)
  rw [loadFrom]
  cases isRelative module_id with
  | false => simp [safe_goThrough]
  | true =>
    simp only [if_true, forall_const]
    rw [safe_getD, safe_load hlength, safe_goThrough]
    refine and_congr_right fun hresolves => ?_
    rw [load_eq_none hlength hresolves]

lemma scan_length {id : List UInt8} (h : (scan id).1 = false) : (scan id).2 = id.length := by
  induction id with
  | nil => rfl
  | cons c id ih =>
    rw [scan] at h ⊢
    split at h
    · exact absurd h (by decide)
    · rw [if_neg ‹_›, List.length_cons, ih h]

/-- The names of library modules are short. -/
lemma length_library {module_id : List UInt8} (h : isLibrary module_id = true) :
    (lib ++ module_id).length < 1024 := by
  simp only [isLibrary, Bool.and_eq_true, decide_eq_true_eq, Bool.not_eq_true'] at h
  have hlength : (scan module_id).2 = module_id.length := scan_length h.1.1.1.2
  have hlt : (scan module_id).2 < 1000 := h.1.1.2
  rw [List.length_append, show lib.length = 4 from by decide]
  omega

/-- The library modules are tried, if their names have room. -/
lemma safe_loadLibrary {module_id : List UInt8} :
    Safe (loadLibrary w module_id) ↔ FitsLibrary w module_id := by
  rw [loadLibrary, FitsLibrary]
  cases hlibrary : isLibrary module_id with
  | false => simp [safe_none]
  | true =>
    have hlib := length_library hlibrary
    have hfound : (Result.found (lib ++ module_id)).Safe := hlib
    have hlow : (w.lib_path ++ module_id ++ low).length = w.lib_path.length + module_id.length + 4 := by
      rw [List.length_append, List.length_append]
      rfl
    simp only [Bool.not_true, Bool.false_eq_true, if_false, forall_const]
    rw [if_neg (by omega)]
    cases w.lib_modules (lib ++ module_id) with
    | true => simp [hfound]
    | false =>
      simp only [Bool.false_eq_true, if_false, forall_const]
      rw [hlow]
      by_cases hroom : w.lib_path.length + module_id.length + 4 < 1024
      · rw [if_neg (by omega)]
        refine ⟨fun _ => hroom, fun _ => ?_⟩
        split
        · exact safe_some.mpr hfound
        · rw [if_neg (by rw [List.length_append]; omega)]
          split
          · exact safe_some.mpr hfound
          · exact safe_none
      · rw [if_pos (by omega), safe_some]
        exact ⟨False.elim, hroom⟩

lemma loadLibrary_eq_none {module_id : List UInt8} (h : FitsLibrary w module_id) :
    loadLibrary w module_id = none ↔ SkipsLibrary w module_id := by
  rw [FitsLibrary] at h
  rw [loadLibrary, SkipsLibrary]
  cases hlibrary : isLibrary module_id with
  | false => simp
  | true =>
    have hlib := length_library hlibrary
    have hlow : (w.lib_path ++ module_id ++ low).length = w.lib_path.length + module_id.length + 4 := by
      rw [List.length_append, List.length_append]
      rfl
    simp only [Bool.not_true, Bool.false_eq_true, if_false, forall_const]
    rw [if_neg (by omega)]
    cases hmodules : w.lib_modules (lib ++ module_id) with
    | true => simp
    | false =>
      have hroom := h hlibrary hmodules
      have hpath : ¬1024 < (w.lib_path ++ module_id).length + 1 := by
        rw [List.length_append]
        omega
      simp only [Bool.false_eq_true, if_false, true_and]
      rw [if_neg (by omega)]
      cases w.stat (w.lib_path ++ module_id ++ low) with
      | some b => simp
      | none =>
        simp only [Option.isSome_none, Bool.false_eq_true, if_false, true_and]
        rw [if_neg hpath]
        cases w.stat (w.lib_path ++ module_id) <;> simp

lemma resolve_c_safe {module_id : List UInt8} {parent_id : Option (List UInt8)} :
    (low_module_resolve_c w module_id parent_id).Safe ↔ Fits w module_id parent_id := by
  rw [low_module_resolve_c.eq_def, Fits]
  by_cases hnative : module_id = bytes "native"
  · rw [if_pos hnative]
    refine ⟨fun _ h => absurd hnative h, fun _ => ?_⟩
    split
    · exact (by decide : (bytes "lib:native").length < 1024)
    · trivial
  · rw [if_neg hnative, safe_getD, safe_loadLibrary]
    simp only [ne_eq, hnative, not_false_eq_true, forall_const]
    refine and_congr_right fun hfits => ?_
    rw [loadLibrary_eq_none hfits]
    refine imp_congr_right fun _ => ?_
    cases parent_id with
    | none => simp [Result.Safe]
    | some parent =>
      cases hlib : lib.isPrefixOf parent with
      | true => simp [hlib, Result.Safe]
      | false => simp [hlib, safe_loadFrom]

/-- Without files the candidates are passed over, up to the first that has no room. -/
lemma candidates_of_no_file {cs : List Candidate} (hright : ∀ c ∈ cs, c.Right)
    (hfile : ∀ c ∈ cs, w.isFile (path ++ c.suffix) = false) :
    candidates w path found cs = none ∨ candidates w path found cs = some .missing := by
  induction cs with
  | nil => exact Or.inl rfl
  | cons c cs ih =>
    have hrest := ih (fun d hd => hright d (List.mem_cons_of_mem _ hd))
      (fun d hd => hfile d (List.mem_cons_of_mem _ hd))
    rw [candidates, (hright c List.mem_cons_self).1, hfile c List.mem_cons_self]
    split
    · exact Or.inr rfl
    · rw [if_neg (by omega), if_neg Bool.false_ne_true]
      exact hrest

/-- Where there is no room behind the path, the turn ends the search. -/
lemma load_too_long {r : Bool × Buffer} (hr : r.1 = true) (hlt : r.2.back.reverse.length < 1024)
    (hpath : w.isFile r.2.back.reverse = false)
    (hfile : ∀ c ∈ fileCandidates, w.isFile (r.2.back.reverse ++ c.suffix) = false)
    (hroom : 1024 ≤ (trimmed r.2.back.reverse).length + 13) : load w r = some .missing := by
  have hpackage : loadPackage w (trimmed r.2.back.reverse) = some .missing := by
    rw [loadPackage, if_pos hroom]
  have hload : loadFile w r.2.back.reverse = none ∨ loadFile w r.2.back.reverse = some .missing := by
    rw [loadFile]
    split
    · exact Or.inl rfl
    · rw [(plain_eq_none hlt).mpr hpath, Option.none_or]
      exact candidates_of_no_file fileCandidates_right hfile
  rw [load]
  simp only [hr, Bool.not_true, Bool.false_eq_true, if_false, hpackage]
  rcases hload with h | h
  · rw [h]
    rfl
  · rw [h]
    rfl

/-- A relative id is not the one of a library module. -/
lemma not_library_of_relative {module_id : List UInt8} (h : isRelative module_id = true) :
    module_id ≠ bytes "native" ∧ isLibrary module_id = false := by
  have hhead : module_id.head? = some dot ∨ module_id.head? = some slash := by
    rw [isRelative, show bytes "./" = [dot, slash] from by decide, show bytes "/" = [slash] from by decide,
      show bytes "../" = [dot, dot, slash] from by decide] at h
    cases module_id with
    | nil => exact absurd h (by decide)
    | cons c id =>
      simp only [List.isPrefixOf, Bool.or_eq_true, Bool.and_eq_true, beq_iff_eq] at h
      rcases h with (⟨rfl, -⟩ | ⟨rfl, -⟩) | ⟨rfl, -⟩
      · exact Or.inl rfl
      · exact Or.inr rfl
      · exact Or.inl rfl
  constructor
  · rintro rfl
    revert hhead
    decide
  · rw [isLibrary]
    rcases hhead with hhead | hhead
    · simp [hhead]
    · simp [hhead]

/-- The function stays inside of its buffers, uses what it has found and rejects what is too long, exactly where
the paths and the names of library modules that it comes to have room. -/
theorem resolve_c_meets_iff (w : World) (module_id : List UInt8) (parent_id : Option (List UInt8)) :
    Meets w module_id parent_id ↔ Fits w module_id parent_id := by
  refine ⟨fun h => resolve_c_safe.mp h.safe, fun h => ⟨resolve_c_safe.mpr h, ?_⟩⟩
  rintro parent rfl hrelative ⟨p, hp, htoo⟩
  obtain ⟨hnative, hlibrary⟩ := not_library_of_relative hrelative
  have hload : loadLibrary w module_id = none := by
    rw [loadLibrary, hlibrary]
    rfl
  rw [low_module_resolve_c, if_neg hnative, hload, Option.getD_none]
  cases hlib : lib.isPrefixOf parent with
  | true => rfl
  | false =>
    have hskips : SkipsLibrary w module_id := by
      intro h'
      rw [hlibrary] at h'
      exact absurd h' Bool.false_ne_true
    have hresolves := ((h hnative).2 hskips parent rfl hlib).1 hrelative
    have hspec := @resolve_spec 1024 parent module_id none (behind_none parent) (by decide)
    obtain ⟨hback, hless⟩ := hspec.back p hp hresolves.1
    rcases htoo with htoo | ⟨hpath, hfile, hroom⟩
    · exact absurd hless (not_lt.mpr htoo)
    · rw [← hback] at hpath hfile hroom hless
      rw [if_neg Bool.false_ne_true, loadFrom, if_pos hrelative,
        load_too_long hresolves.1 (by rwa [List.length_reverse]) hpath hfile hroom]
      rfl

lemma not_meets_of_unresolved {module_id : List UInt8} {parent_id : Option (List UInt8)}
    (h : low_module_resolve_c w module_id parent_id = .unresolved) : ¬Meets w module_id parent_id := by
  intro hmeets
  have hsafe := hmeets.safe
  rwa [h] at hsafe

/-- No library modules, and no files. -/
def empty : World where
  lib_path := bytes "/usr/lib/low/"
  lib_modules _ := false
  stat _ := none
  package _ := .plain

/-- A module in the root asks for one above it. -/
theorem resolve_c_above_root : ¬Meets empty (bytes "../x") (some (bytes "/main.js")) :=
  not_meets_of_unresolved (by decide +kernel)

end LowJs.Modules.Resolver
