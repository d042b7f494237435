import Mathlib

/-!
# The command line of `low`

`main` of app/main.cpp, `low_process_info` of low_process.cpp. A command line is read as
`argv[0]` and the list `args` of the arguments after it: `args[k]` is `argv[k + 1]`, and `argc`
is `args.length + 1`. The list is the one after `handle_dist_loader`, which takes the loader's name
off the front and copies the rest.
-/

namespace LowJs.App

/-- The bytes of a C string, without the NUL that closes it. -/
abbrev Arg := List Char

/-- The first byte is `-`; the first byte of an empty string is the NUL. -/
def isOption (arg : Arg) : Bool := arg.head? == some '-'

/-- The values of `main` that the options set. -/
structure Options where
  optTranspile : Bool
  optTranspileOutput : Bool
  maxMemSize : Int
deriving DecidableEq, Repr

def noOptions : Options := ⟨false, false, 0⟩

/-- What is printed before `main` returns. -/
inductive Printed where
  | usage
  | version
deriving DecidableEq, Repr

/-- `main` returns at once, with this status. -/
structure Exit where
  success : Bool
  printed : Printed
deriving DecidableEq, Repr

def isSpace (c : Char) : Bool :=
  c == ' ' || c == '\t' || c == '\n' || c == '\x0b' || c == '\x0c' || c == '\r'

/-- The value of the digits at the start of `s`. -/
def digits (s : Arg) : Nat :=
  (s.takeWhile Char.isDigit).foldl (fun n c => 10 * n + (c.toNat - '0'.toNat)) 0

/-- `strtol` to the base 10: a value that is no `long` becomes the nearest one. -/
def strtol (s : Arg) : Int :=
  match s.dropWhile isSpace with
  | '-' :: s => max (-(2 ^ 63)) (-(digits s : Int))
  | '+' :: s => min (2 ^ 63 - 1) (digits s : Int)
  | s => min (2 ^ 63 - 1) (digits s : Int)

/-- `atoi`: the `long` cut to an `int`. -/
def atoi (s : Arg) : Int := (strtol s).bmod (2 ^ 32)

def maxOldSpaceSize : Arg := "--max-old-space-size=".toList

/-- One pass of the option loop over an argument that starts with `-`. -/
def readOption (o : Options) (arg : Arg) : Except Exit Options :=
  if arg = "--transpile".toList then .ok { o with optTranspile := true }
  else if arg = "--transpile-output".toList then
    .ok { o with optTranspile := true, optTranspileOutput := true }
  else if maxOldSpaceSize.length < arg.length ∧ maxOldSpaceSize <+: arg then
    let maxMemSize := atoi (arg.drop maxOldSpaceSize.length)
    if maxMemSize ≤ 0 then .error ⟨false, .usage⟩
    else .ok { o with maxMemSize := max maxMemSize 4 }
  else .error ⟨false, .usage⟩

/-- The option loop from the index `i` on. At an argument that does not start with `-`, `argv`
becomes `restArgv`, the program's name and what stands from there on; the loop goes on, with the
next index of the new `argv`. -/
def optionLoop (i : Nat) (args : List Arg) (restArgv : Bool) (o : Options) :
    Except Exit (List Arg × Bool × Options) :=
  if h : i < args.length then
    if isOption args[i] then
      match readOption o args[i] with
      | .error e => .error e
      | .ok o' => optionLoop (i + 1) args restArgv o'
    else optionLoop (i + 1) (args.drop i) true o
  else .ok (args, restArgv, o)
termination_by args.length - i
decreasing_by
  · omega
  · simp only [List.length_drop]
    omega

/-- What `low_process_info` asks the system: the path of the executable, and `realpath`. -/
structure System where
  execPath : Arg
  realpath : Arg → Arg

/-- A program that is started: the script `low_module_main` is given, none for the prompt, and
`process.argv`. -/
structure Launch where
  options : Options
  script : Option Arg
  processArgv : List Arg
deriving DecidableEq, Repr

/-- How `main` ends, as far as its arguments decide it. -/
inductive Outcome where
  | exit (e : Exit)
  | launch (l : Launch)
deriving DecidableEq, Repr

/-- `process.argv` of `low_process_info`: the script is named by its real path. -/
def low_process_info (sys : System) (args : List Arg) : List Arg :=
  match args with
  | [] => [sys.execPath]
  | script :: rest => sys.execPath :: sys.realpath script :: rest

/-- `main` after the option loop. -/
def start (sys : System) (o : Options) (args : List Arg) : Outcome :=
  if o.optTranspile && args.isEmpty then .exit ⟨true, .usage⟩
  else .launch ⟨o, args.head?, low_process_info sys args⟩

/-- The arguments that are understood only when they stand alone. -/
def soleArgument (args : List Arg) : Option Exit :=
  if args = ["-h".toList] ∨ args = ["--help".toList] then some ⟨true, .usage⟩
  else if args = ["-v".toList] ∨ args = ["--version".toList] then some ⟨true, .version⟩
  else none

def main (sys : System) (args : List Arg) : Outcome :=
  match soleArgument args with
  | some e => .exit e
  | none =>
    match optionLoop 0 args false noOptions with
    | .error e => .exit e
    | .ok (args', restArgv, o) => start sys o (if restArgv then args' else [])

/-! ### What the usage text promises -/

/-- The options read one after another. -/
def readOptions (o : Options) (opts : List Arg) : Except Exit Options := opts.foldlM readOption o

/-- `low [options] [script.js [arguments]]`: the options end before the first argument that does
not start with `-`, which is the script, and what stands after the script is the program's. -/
def promised (sys : System) (args : List Arg) : Outcome :=
  match soleArgument args with
  | some e => .exit e
  | none =>
    match readOptions noOptions (args.takeWhile isOption) with
    | .error e => .exit e
    | .ok o => start sys o (args.dropWhile isOption)

/-! ### The option loop -/

@[simp] lemma readOptions_nil (o : Options) : readOptions o [] = .ok o := rfl

lemma readOptions_cons_ok {o o' : Options} {arg : Arg} (h : readOption o arg = .ok o')
    (opts : List Arg) : readOptions o (arg :: opts) = readOptions o' opts := by
  simp only [readOptions, List.foldlM_cons, h]
  rfl

lemma readOptions_cons_error {o : Options} {e : Exit} {arg : Arg}
    (h : readOption o arg = .error e) (opts : List Arg) :
    readOptions o (arg :: opts) = .error e := by
  simp only [readOptions, List.foldlM_cons, h]
  rfl

/-- Only an argument that starts with `-` is understood as an option. -/
lemma readOption_isOption {o o' : Options} {arg : Arg} (h : readOption o arg = .ok o') :
    isOption arg = true := by
  simp only [readOption] at h
  split_ifs at h with h1 h2 h3
  · rw [h1]
    rfl
  · rw [h2]
    rfl
  · obtain ⟨rest, rfl⟩ := h3.2
    rfl

/-- The step of the loop at an option that is understood. -/
lemma optionLoop_option {i : Nat} {args : List Arg} {arg : Arg} {o o' : Options} (r : Bool)
    (hi : args[i]? = some arg) (ho : readOption o arg = .ok o') :
    optionLoop i args r o = optionLoop (i + 1) args r o' := by
  obtain ⟨h, rfl⟩ := List.getElem?_eq_some_iff.1 hi
  rw [optionLoop, dif_pos h, if_pos (readOption_isOption ho), ho]

/-- The step of the loop at an option that is refused. -/
lemma optionLoop_refused {i : Nat} {args : List Arg} {arg : Arg} {o : Options} {e : Exit} (r : Bool)
    (hi : args[i]? = some arg) (hd : isOption arg = true) (ho : readOption o arg = .error e) :
    optionLoop i args r o = .error e := by
  obtain ⟨h, rfl⟩ := List.getElem?_eq_some_iff.1 hi
  rw [optionLoop, dif_pos h, if_pos hd, ho]

/-- The step of the loop at an argument that is no option. -/
lemma optionLoop_script {i : Nat} {args : List Arg} {arg : Arg} (r : Bool) (o : Options)
    (hi : args[i]? = some arg) (hd : isOption arg = false) :
    optionLoop i args r o = optionLoop (i + 1) (args.drop i) true o := by
  obtain ⟨h, rfl⟩ := List.getElem?_eq_some_iff.1 hi
  rw [optionLoop, dif_pos h, hd]
  rfl

lemma optionLoop_end {i : Nat} {args : List Arg} (r : Bool) (o : Options) (hi : args.length ≤ i) :
    optionLoop i args r o = .ok (args, r, o) := by
  rw [optionLoop, dif_neg (by omega)]

/-- The loop over the options before the script reads them in order. -/
lemma optionLoop_leading (args : List Arg) (r : Bool) (opts rest : List Arg) :
    ∀ (i : Nat) (o : Options), (∀ arg ∈ opts, isOption arg = true) → args.drop i = opts ++ rest →
      optionLoop i args r o = readOptions o opts >>= optionLoop (i + opts.length) args r := by
  induction opts with
  | nil =>
    intro i o _ _
    rfl
  | cons arg opts ih =>
    intro i o hopts hdrop
    have hi : args[i]? = some arg := by
      rw [← List.head?_drop, hdrop]
      rfl
    have hnext : args.drop (i + 1) = opts ++ rest := by
      rw [← List.tail_drop, hdrop]
      rfl
    cases ho : readOption o arg with
    | error e =>
      rw [optionLoop_refused r hi (hopts arg List.mem_cons_self) ho, readOptions_cons_error ho]
      rfl
    | ok o' =>
      rw [optionLoop_option r hi ho, readOptions_cons_ok ho,
        ih (i + 1) o' (fun a ha => hopts a (List.mem_cons_of_mem _ ha)) hnext,
        List.length_cons, show i + 1 + opts.length = i + (opts.length + 1) by omega]

/-- The loop never makes `argv` longer. -/
lemma optionLoop_length {i : Nat} {args args' : List Arg} {r r' : Bool} {o o' : Options}
    (h : optionLoop i args r o = .ok (args', r', o')) : args'.length ≤ args.length := by
  induction i, args, r, o using optionLoop.induct with
  | case1 i args r o hi hd e he =>
    rw [optionLoop_refused r (List.getElem?_eq_getElem hi) hd he] at h
    cases h
  | case2 i args r o hi hd o₁ ho ih =>
    rw [optionLoop_option r (List.getElem?_eq_getElem hi) ho] at h
    exact ih h
  | case3 i args r o hi hd ih =>
    rw [optionLoop_script r o (List.getElem?_eq_getElem hi) (by simpa using hd)] at h
    have := ih h
    simp only [List.length_drop] at this
    omega
  | case4 i args r o hi =>
    rw [optionLoop_end r o (by omega)] at h
    cases h
    exact Nat.le_refl _

/-- Behind the first place, the loop leaves `argv` as it is only by reading the whole rest of it
as options: an argument that is no option would drop what stands before it. -/
lemma optionLoop_keeps {i : Nat} {args : List Arg} {r r' : Bool} {o o' : Options} (hi0 : 0 < i) :
    optionLoop i args r o = .ok (args, r', o') ↔
      r' = r ∧ readOptions o (args.drop i) = .ok o' := by
  induction i, args, r, o using optionLoop.induct with
  | case1 i args r o hi hd e he =>
    rw [optionLoop_refused r (List.getElem?_eq_getElem hi) hd he, List.drop_eq_getElem_cons hi,
      readOptions_cons_error he]
    simp
  | case2 i args r o hi hd o₁ ho ih =>
    rw [optionLoop_option r (List.getElem?_eq_getElem hi) ho, ih (Nat.succ_pos i),
      List.drop_eq_getElem_cons hi, readOptions_cons_ok ho]
  | case3 i args r o hi hd ih =>
    have hd : isOption args[i] = false := by simpa using hd
    constructor
    case mp =>
      intro h
      rw [optionLoop_script r o (List.getElem?_eq_getElem hi) hd] at h
      have := optionLoop_length h
      simp only [List.length_drop] at this
      omega
    case mpr =>
      rintro ⟨_, h⟩
      rw [List.drop_eq_getElem_cons hi] at h
      cases ho : readOption o args[i] with
      | error e =>
        rw [readOptions_cons_error ho] at h
        cases h
      | ok o₁ =>
        rw [readOption_isOption ho] at hd
        cases hd
  | case4 i args r o hi =>
    rw [optionLoop_end r o (by omega), List.drop_eq_nil_of_le (by omega)]
    simp [eq_comm]

/-! ### What reaches the program -/

/-- What follows the script, from the place on that the loop takes up: the loop goes on with the
next index while the arguments have moved to the front. -/
def swallowed (args : List Arg) : List Arg :=
  (args.dropWhile isOption).tail.drop (args.takeWhile isOption).length

/-- `main` and the usage text read the options before the script alike; where these are understood,
`main` also reads the swallowed arguments. -/
lemma optionLoop_main (args : List Arg) :
    optionLoop 0 args false noOptions =
      readOptions noOptions (args.takeWhile isOption) >>= fun o =>
        match args.dropWhile isOption with
        | [] => .ok (args, false, o)
        | script :: after =>
          optionLoop ((args.takeWhile isOption).length + 1) (script :: after) true o := by
  have hsplit : args.drop 0 = args.takeWhile isOption ++ args.dropWhile isOption := by
    rw [List.takeWhile_append_dropWhile]
    rfl
  rw [optionLoop_leading args false _ _ 0 noOptions (fun a => List.mem_takeWhile_imp) hsplit,
    Nat.zero_add]
  congr 1
  funext o
  have hdrop : args.drop (args.takeWhile isOption).length = args.dropWhile isOption := by
    have : (args.takeWhile isOption ++ args.dropWhile isOption).drop
        (args.takeWhile isOption).length = args.dropWhile isOption := List.drop_left
    rwa [List.takeWhile_append_dropWhile] at this
  cases hrest : args.dropWhile isOption with
  | nil =>
    apply optionLoop_end
    rw [hrest] at hdrop
    exact List.drop_eq_nil_iff.1 hdrop
  | cons script after =>
    rw [hrest] at hdrop
    have hi : args[(args.takeWhile isOption).length]? = some script := by
      rw [← List.head?_drop, hdrop]
      rfl
    have hd : isOption script = false := by
      have := List.head?_dropWhile_not isOption args
      simpa [hrest] using this
    rw [optionLoop_script false o hi hd, hdrop]

lemma readOptions_append (o : Options) (opts opts' : List Arg) :
    readOptions o (opts ++ opts') = readOptions o opts >>= fun o' => readOptions o' opts' :=
  List.foldlM_append

/-- Behind a single argument, nothing is left to swallow. -/
lemma soleArgument_swallowed {args : List Arg} {e : Exit} (h : soleArgument args = some e) :
    swallowed args = [] := by
  simp only [soleArgument] at h
  split_ifs at h with h1 h2
  · obtain rfl | rfl := h1 <;> rfl
  · obtain rfl | rfl := h2 <;> rfl

/-- Once `restArgv` is there, it stays. -/
lemma optionLoop_restArgv {i : Nat} {args args' : List Arg} {r' : Bool} {o o' : Options}
    (h : optionLoop i args true o = .ok (args', r', o')) : r' = true := by
  generalize hr : true = r at h
  induction i, args, r, o using optionLoop.induct with
  | case1 i args r o hi hd e he =>
    rw [optionLoop_refused r (List.getElem?_eq_getElem hi) hd he] at h
    cases h
  | case2 i args r o hi hd o₁ ho ih =>
    rw [optionLoop_option r (List.getElem?_eq_getElem hi) ho] at h
    exact ih hr h
  | case3 i args r o hi hd ih =>
    rw [optionLoop_script r o (List.getElem?_eq_getElem hi) (by simpa using hd)] at h
    exact (ih rfl h).trans hr
  | case4 i args r o hi =>
    rw [optionLoop_end r o (by omega)] at h
    cases h
    rfl

/-- A program is started with the script and all that follows it only by the same arguments and
the same settings. -/
lemma start_eq_iff (sys : System) (o o' : Options) (script : Arg) (after args : List Arg) :
    start sys o' args = start sys o (script :: after) ↔ o' = o ∧ args = script :: after := by
  constructor
  case mpr =>
    rintro ⟨rfl, rfl⟩
    rfl
  case mp =>
    intro h
    cases args with
    | nil =>
      simp only [start, low_process_info] at h
      split at h <;> simp at h
    | cons script' after' =>
      simp only [start, low_process_info, List.isEmpty_cons, Bool.and_false, List.head?_cons] at h
      simp only [Bool.false_eq_true, if_false, Outcome.launch.injEq, Launch.mk.injEq,
        Option.some.injEq, List.cons.injEq, true_and] at h
      exact ⟨h.1, by rw [h.2.1, h.2.2.2]⟩

/-- `main` does what the usage text says exactly where the arguments it goes on to read behind the
script, as options, leave the settings as the options before the script made them (a single `-h`
or `-v` has nothing behind it). -/
theorem main_promised (sys : System) (args : List Arg) :
    main sys args = promised sys args ↔
      readOptions noOptions (args.takeWhile isOption ++ swallowed args) =
        readOptions noOptions (args.takeWhile isOption) := by
  simp only [main, promised]
  cases hsole : soleArgument args with
  | some e =>
    simp only [true_iff]
    rw [soleArgument_swallowed hsole, List.append_nil]
  | none =>
    simp only [optionLoop_main, readOptions_append]
    cases hopts : readOptions noOptions (args.takeWhile isOption) with
    | error e => simp [bind, Except.bind]
    | ok o =>
      simp only [bind, Except.bind, swallowed]
      cases hrest : args.dropWhile isOption with
      | nil => simp
      | cons script after =>
        simp only [List.tail_cons]
        have hkeeps : optionLoop ((args.takeWhile isOption).length + 1) (script :: after) true o =
            .ok (script :: after, true, o) ↔ true = true ∧
              readOptions o (after.drop (args.takeWhile isOption).length) = .ok o :=
          optionLoop_keeps (Nat.succ_pos _)
        simp only [true_and] at hkeeps
        rw [← hkeeps]
        cases hloop : optionLoop ((args.takeWhile isOption).length + 1) (script :: after) true o with
        | error e => simp [start]
        | ok res =>
          obtain ⟨args', r', o'⟩ := res
          have hr : r' = true := optionLoop_restArgv hloop
          subst hr
          simp only [if_true, start_eq_iff, Except.ok.injEq, Prod.mk.injEq, true_and]
          exact and_comm

/-- With a second word behind the script, the second word becomes the script: `low a b`. -/
theorem not_main_promised :
    ¬ ∀ (sys : System) (args : List Arg), main sys args = promised sys args := by
  intro h
  have hloop : optionLoop 0 [['a'], ['b']] false noOptions = .ok ([['b']], true, noOptions) := by
    rw [optionLoop_script false noOptions rfl rfl, optionLoop_script true noOptions rfl rfl]
    exact optionLoop_end true noOptions (by decide)
  have hmain : main ⟨[], id⟩ [['a'], ['b']] = .launch ⟨noOptions, some ['b'], [[], ['b']]⟩ := by
    simp only [main, hloop]
    rfl
  have hpromised : promised ⟨[], id⟩ [['a'], ['b']] =
      .launch ⟨noOptions, some ['a'], [[], ['a'], ['b']]⟩ := rfl
  have := h ⟨[], id⟩ [['a'], ['b']]
  rw [hmain, hpromised] at this
  cases this

end LowJs.App
