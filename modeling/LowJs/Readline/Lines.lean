import LowJs.Core.CodeUnits
import LowJs.Core.Simulation

/-!
# The lines of an input that is no terminal

`_normalWrite` gets the text in chunks, as they arrive, and calls `_onLine` for each line that has its ending. A
line ends with `\n`, `\r` or `\r\n`, and the two code units of the last may come in two chunks. `scan` goes
through the text code unit by code unit, without looking at the chunks. Not modelled is a listener that calls
`write` while the lines of a chunk are given to it.
-/

namespace LowJs.Readline

def CHAR_LINE_FEED : UInt16 := 10

def CHAR_CARRIAGE_RETURN : UInt16 := 13

/-- The fields that the lines depend on. -/
structure Interface where
  crlfDelay : Nat
  _sawReturnAt : Nat
  _line_buffer : Option JSString
  /-- The lines that `_onLine` was called with. -/
  lines : List JSString
  deriving DecidableEq, Repr

def Interface.new (crlfDelay : Nat) : Interface := ⟨crlfDelay, 0, none, []⟩

def isEnding (c : UInt16) : Bool := c = CHAR_CARRIAGE_RETURN || c = CHAR_LINE_FEED

/-- `string.split(lineEnding)`; `line` is what stands in front of the string without an ending. -/
def split (line : JSString) : JSString → List JSString
  | [] => [line]
  | [c] => if isEnding c then [line, []] else [line ++ [c]]
  | c :: d :: rest =>
    if c = CHAR_CARRIAGE_RETURN ∧ d = CHAR_LINE_FEED then line :: split [] rest
    else if isEnding c then line :: split [] (d :: rest)
    else split (line ++ [c]) (d :: rest)

/-- `string.replace(/^\n/, '')`. -/
def dropLineFeed : JSString → JSString
  | [] => []
  | c :: rest => if c = CHAR_LINE_FEED then rest else c :: rest

namespace Interface

/-- `_normalWrite` behind the look at `_sawReturnAt`. -/
def splitLines (s : Interface) (now : Nat) (string : JSString) : Interface :=
  let whole := s._line_buffer.getD [] ++ string
  if string.any isEnding then
    let lines := split [] whole
    { s with
      _sawReturnAt := if whole.getLast? = some CHAR_CARRIAGE_RETURN then now else 0
      _line_buffer := some (lines.getLastD [])
      lines := s.lines ++ lines.dropLast }
  else if whole ≠ [] then { s with _line_buffer := some whole }
  else s

/-- `now` is what `Date.now()` gives, and the string is the chunk as it is decoded. -/
def _normalWrite (s : Interface) (now : Nat) (string : JSString) : Interface :=
  if s._sawReturnAt ≠ 0 ∧ now - s._sawReturnAt ≤ s.crlfDelay then
    { s with _sawReturnAt := 0 }.splitLines now (dropLineFeed string)
  else s.splitLines now string

/-- `onend`: what is left is a line, too. -/
def onend (s : Interface) : Interface :=
  match s._line_buffer with
  | some (c :: rest) => { s with lines := s.lines ++ [c :: rest] }
  | _ => s

end Interface

def input : Machine Interface (Nat × JSString) := ⟨fun s chunk => s._normalWrite chunk.1 chunk.2⟩

/-- A chunk behind a `\r` comes in time, and is not empty. -/
def Timely (s : Interface) (chunk : Nat × JSString) : Prop :=
  0 < chunk.1 ∧ (s._sawReturnAt ≠ 0 → chunk.2 ≠ [] ∧ chunk.1 - s._sawReturnAt ≤ s.crlfDelay)

instance (s : Interface) (chunk : Nat × JSString) : Decidable (Timely s chunk) := inferInstanceAs (Decidable (_ ∧ _))

/-! ### The text code unit by code unit -/

/-- The lines so far, the part of a line behind them, and whether it stands right behind a `\r`. -/
structure Scan where
  lines : List JSString
  line : JSString
  sawReturn : Bool
  deriving DecidableEq, Repr

def scan (a : Scan) (c : UInt16) : Scan :=
  if c = CHAR_LINE_FEED ∧ a.sawReturn = true then { a with sawReturn := false }
  else if isEnding c then ⟨a.lines ++ [a.line], [], c = CHAR_CARRIAGE_RETURN⟩
  else ⟨a.lines, a.line ++ [c], false⟩

variable {a : Scan} {line string : JSString} {ls : List JSString} {c d : UInt16} {s : Interface} {now : Nat}

lemma isEnding_carriageReturn : isEnding CHAR_CARRIAGE_RETURN = true := rfl

/-- That a `\r` was seen makes no difference, if there comes no `\n`. -/
lemma scan_other (hne : c ≠ CHAR_LINE_FEED) : scan a c = scan { a with sawReturn := false } c := by
  simp [scan, hne]

lemma split_ne_nil (line string : JSString) : split line string ≠ [] := by
  fun_induction split line string <;> simp_all

lemma split_other (hc : isEnding c = false) (line rest : JSString) :
    split line (c :: rest) = split (line ++ [c]) rest := by
  have hne : c ≠ CHAR_CARRIAGE_RETURN := by
    rintro rfl
    exact absurd isEnding_carriageReturn (by simp [hc])
  cases rest with
  | nil => simp [split, hc]
  | cons d rest => simp [split, hc, hne]

/-- What has no ending stands in front of the first line. -/
lemma split_append (h : line.any isEnding = false) (front string : JSString) :
    split front (line ++ string) = split (front ++ line) string := by
  induction line generalizing front with
  | nil => simp
  | cons c line ih =>
    simp only [List.any_cons, Bool.or_eq_false_iff] at h
    rw [List.cons_append, split_other h.1, ih h.2]
    simp

/-- The pieces of `split` are what is scanned. -/
lemma foldl_scan (ls : List JSString) (line string : JSString) :
    string.foldl scan ⟨ls, line, false⟩ = ⟨ls ++ (split line string).dropLast, (split line string).getLastD [],
      decide (string.getLast? = some CHAR_CARRIAGE_RETURN)⟩ := by
  induction line, string using split.induct generalizing ls with
  | case1 line => simp [split]
  | case2 line c hc => simp [split, scan, hc]
  | case3 line c hc =>
    have hne : c ≠ CHAR_CARRIAGE_RETURN := by
      rintro rfl
      exact hc isEnding_carriageReturn
    simp [split, scan, hc, hne]
  | case4 line c d rest h ih =>
    obtain ⟨rfl, rfl⟩ := h
    have hscan : [CHAR_CARRIAGE_RETURN, CHAR_LINE_FEED].foldl scan ⟨ls, line, false⟩ = ⟨ls ++ [line], [], false⟩ := rfl
    have hlast : (CHAR_LINE_FEED :: rest).getLast? = some CHAR_CARRIAGE_RETURN ↔
        rest.getLast? = some CHAR_CARRIAGE_RETURN := by
      cases rest with
      | nil => decide
      | cons c rest => simp
    obtain ⟨piece, pieces, hpieces⟩ := List.exists_cons_of_ne_nil (split_ne_nil [] rest)
    rw [show CHAR_CARRIAGE_RETURN :: CHAR_LINE_FEED :: rest = [CHAR_CARRIAGE_RETURN, CHAR_LINE_FEED] ++ rest from rfl,
      List.foldl_append, hscan, ih]
    simp [split, hpieces, hlast]
  | case5 line c d rest h hc ih =>
    have hscan : (d :: rest).foldl scan (scan ⟨ls, line, false⟩ c) = (d :: rest).foldl scan ⟨ls ++ [line], [], false⟩ := by
      by_cases hreturn : c = CHAR_CARRIAGE_RETURN
      · have hd : d ≠ CHAR_LINE_FEED := fun hd => h ⟨hreturn, hd⟩
        rw [List.foldl_cons, List.foldl_cons, scan_other hd]
        simp [scan, hc]
      · simp [scan, hc, hreturn]
    obtain ⟨piece, pieces, hpieces⟩ := List.exists_cons_of_ne_nil (split_ne_nil [] (d :: rest))
    rw [List.foldl_cons, hscan, ih]
    simp [split, h, hc, hpieces]
  | case6 line c d rest h hc ih =>
    have hscan : scan ⟨ls, line, false⟩ c = ⟨ls, line ++ [c], false⟩ := by simp [scan, hc]
    rw [List.foldl_cons, hscan, ih]
    simp [split, h, hc]

lemma foldl_scan_plain (h : string.any isEnding = false) (ls : List JSString) (line : JSString) :
    string.foldl scan ⟨ls, line, false⟩ = ⟨ls, line ++ string, false⟩ := by
  induction string generalizing line with
  | nil => simp
  | cons c string ih =>
    simp only [List.any_cons, Bool.or_eq_false_iff] at h
    rw [List.foldl_cons, show scan ⟨ls, line, false⟩ c = ⟨ls, line ++ [c], false⟩ by simp [scan, h.1], ih h.2]
    simp

/-- The part of a line has no ending. -/
lemma plain_scan (h : a.line.any isEnding = false) (string : JSString) :
    (string.foldl scan a).line.any isEnding = false := by
  induction string generalizing a with
  | nil => exact h
  | cons c string ih =>
    refine ih ?_
    unfold scan
    split_ifs with hskip hc
    · exact h
    · rfl
    · simpa [h] using hc

/-! ### The chunks are scanned -/

/-- What `_normalWrite` keeps is what has been scanned. -/
structure Follows (s : Interface) (a : Scan) : Prop where
  lines : s.lines = a.lines
  line : s._line_buffer.getD [] = a.line
  saw : a.sawReturn = decide (s._sawReturnAt ≠ 0)
  plain : a.line.any isEnding = false

namespace Follows

lemma splitLines (h : Follows s a) (hsaw : s._sawReturnAt = 0) (hnow : 0 < now) (string : JSString) :
    Follows (s.splitLines now string) (string.foldl scan a) := by
  have hplain := plain_scan h.plain string
  obtain ⟨ls, line, saw⟩ := a
  obtain rfl : saw = false := by simpa [hsaw] using h.saw
  have hline : s._line_buffer.getD [] = line := h.line
  by_cases hending : string.any isEnding
  · have hne : string ≠ [] := by
      rintro rfl
      simp at hending
    have hsplit : split [] (line ++ string) = split line string := split_append h.plain [] string
    have hlast : (line ++ string).getLast? = string.getLast? := List.getLast?_append_of_ne_nil _ hne
    rw [foldl_scan] at hplain ⊢
    simp only [Interface.splitLines, hending, if_true, hline, hsplit, hlast]
    refine ⟨congrArg (· ++ _) h.lines, rfl, ?_, hplain⟩
    by_cases hreturn : string.getLast? = some CHAR_CARRIAGE_RETURN
    · simp [hreturn, hnow.ne']
    · simp [hreturn]
  · rw [foldl_scan_plain (by simpa using hending)] at hplain ⊢
    simp only [Interface.splitLines, hending, hline]
    by_cases hwhole : line ++ string = []
    · simp only [Bool.false_eq_true, if_false, hwhole, ne_eq, not_true_eq_false]
      exact ⟨h.lines, hline.trans (List.append_eq_nil_iff.mp hwhole).1, h.saw, rfl⟩
    · simp only [Bool.false_eq_true, if_false, ne_eq, hwhole, not_false_eq_true, if_true]
      exact ⟨h.lines, rfl, h.saw, hplain⟩

lemma step (h : Follows s a) {chunk : Nat × JSString} (ht : Timely s chunk) :
    Follows (input.step s chunk) (chunk.2.foldl scan a) := by
  obtain ⟨now, string⟩ := chunk
  obtain ⟨hnow, htime⟩ := ht
  change Follows (s._normalWrite now string) (string.foldl scan a)
  by_cases hsaw : s._sawReturnAt = 0
  · rw [Interface._normalWrite, if_neg (by simp [hsaw])]
    exact h.splitLines hsaw hnow string
  · obtain ⟨hne, hdelay⟩ := htime hsaw
    rw [Interface._normalWrite, if_pos ⟨hsaw, hdelay⟩]
    have h' : Follows { s with _sawReturnAt := 0 } { a with sawReturn := false } := ⟨h.lines, h.line, by simp, h.plain⟩
    obtain ⟨c, rest, rfl⟩ := List.exists_cons_of_ne_nil hne
    have hseen : a.sawReturn = true := by simpa [hsaw] using h.saw
    have hscan : (c :: rest).foldl scan a = (dropLineFeed (c :: rest)).foldl scan { a with sawReturn := false } := by
      by_cases hc : c = CHAR_LINE_FEED
      · simp [dropLineFeed, scan, hc, hseen]
      · rw [dropLineFeed, if_neg hc, List.foldl_cons, List.foldl_cons, scan_other hc]
    rw [hscan]
    exact h'.splitLines rfl hnow _

end Follows

/-- The text in chunks, code unit by code unit. -/
def scanner : Machine Scan (Nat × JSString) := ⟨fun a chunk => chunk.2.foldl scan a⟩

lemma run_scanner (a : Scan) (chunks : List (Nat × JSString)) :
    scanner.run a chunks = (chunks.flatMap Prod.snd).foldl scan a := by
  induction chunks generalizing a with
  | nil => rfl
  | cons chunk chunks ih =>
    rw [Machine.run_cons, ih, List.flatMap_cons, List.foldl_append]
    rfl

/-- However the text is cut into chunks that come in time: `_onLine` is called for the lines of the text, and at
its end what stands behind the last ending is a line, if there is something. -/
theorem lines_chunks (crlfDelay : Nat) (chunks : List (Nat × JSString))
    (h : input.Guarded Timely (Interface.new crlfDelay) chunks) :
    let pieces := split [] (chunks.flatMap Prod.snd)
    (input.run (Interface.new crlfDelay) chunks).lines = pieces.dropLast ∧
      (input.run (Interface.new crlfDelay) chunks).onend.lines =
        if pieces.getLastD [] = [] then pieces.dropLast else pieces := by
  intro pieces
  have hstart : Follows (Interface.new crlfDelay) ⟨[], [], false⟩ := ⟨rfl, rfl, rfl, rfl⟩
  have hrun := Machine.run_related (N := scanner) (R := Follows) (fun _ _ _ hR ht => hR.step ht) hstart h
  rw [run_scanner, foldl_scan, List.nil_append] at hrun
  refine ⟨hrun.lines, ?_⟩
  have hline : (input.run (Interface.new crlfDelay) chunks)._line_buffer.getD [] = pieces.getLastD [] := hrun.line
  have hpieces : pieces.dropLast ++ [pieces.getLastD []] = pieces := by
    rw [List.getLastD_eq_getLast?, List.getLast?_eq_some_getLast (split_ne_nil _ _)]
    exact List.dropLast_append_getLast (split_ne_nil _ _)
  rw [Interface.onend]
  split
  · rename_i c rest hbuffer
    have hlast : pieces.getLastD [] = c :: rest := by rw [← hline, hbuffer]; rfl
    rw [hlast, if_neg (by simp), hrun.lines, ← hlast, hpieces]
  · rename_i hbuffer
    have hlast : pieces.getLastD [] = [] := by
      rw [← hline]
      cases hs : (input.run (Interface.new crlfDelay) chunks)._line_buffer with
      | none => rfl
      | some buffer =>
        cases buffer with
        | nil => rfl
        | cons c rest => exact absurd hs (hbuffer c rest)
    rw [hlast, if_pos rfl, hrun.lines]

/-- The two code units of an ending come in two chunks. -/
theorem lines_chunks_two :
    (input.run (Interface.new 100) [(1, [97, 13]), (2, [10, 98])]).onend.lines = [[97], [98]] :=
  (lines_chunks 100 [(1, [97, 13]), (2, [10, 98])] (by decide)).2

end LowJs.Readline
