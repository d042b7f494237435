import LowJs.App.CommandLine
import LowJs.Core.Whiles
import Mathlib.Data.List.DropRight

/-!
# The path of a sub node

`opcua_uaclient_subnode` counts the segments of a path, and fills as many elements of a browse path from it. A
segment that has a namespace and no name is counted; where another segment follows it, it is filled into no
element.
-/

namespace LowJs.OPCUA

open App (Arg)

/-- The byte that closes a string. -/
def NUL : Char := '\x00'

/-- What `duk_require_string` points to: the bytes up to the first NUL. -/
structure CString where
  chars : Arg
  closed : NUL ∉ chars

/-- The memory of the string; there is nothing behind it that the parser may read. -/
def CString.mem (s : CString) : Arg := s.chars ++ [NUL]

/-- The loop that counts the segments. -/
def countFrom (isEmpty : Bool) : Arg → Nat
  | [] => 0
  | c :: mem =>
    if c = NUL then 0
    else if c = '/' then countFrom true mem
    else if !App.isSpace c && isEmpty then countFrom false mem + 1
    else countFrom isEmpty mem

/-- `pathSize`. -/
def pathSize (mem : Arg) : Nat := countFrom true mem

/-- `UA_RelativePathElement`, as far as it is filled from the path: the namespace and the name of
`targetName`. -/
abbrev Element := UInt16 × Arg

/-- The parser: the memory of the string, the pointer into it, and the elements that are filled. -/
structure PathParser where
  mem : Arg
  path : Nat
  elements : List Element
  deriving DecidableEq, Repr

namespace PathParser

/-- The text from the pointer up to a NUL. -/
def text (mem : Arg) (path : Nat) : Arg := (mem.drop path).takeWhile (· != NUL)

/-- Where the loop over the characters of a segment stops that looks for a colon. -/
def stopsAtColon (c : Char) : Bool := c == NUL || c == '/' || c == ':'

/-- Where the loop over blanks stops. -/
def stopsAtName (c : Char) : Bool := !(c != '/' && App.isSpace c)

/-- Where the loop over the characters of a name stops. -/
def stopsAtEnd (c : Char) : Bool := c == NUL || c == '/'

/-- The namespace. The colon becomes a NUL for `atoi`, and a colon again. A loop that stops nowhere reads past
the end of the string. -/
def readNamespace (s : PathParser) : Option (Int × PathParser) :=
  match (s.mem.drop s.path).findIdx? stopsAtColon with
  | none => none
  | some i =>
    if s.mem[s.path + i]? = some ':' then
      let cut := s.mem.set (s.path + i) NUL
      some (App.atoi (text cut s.path), { s with mem := cut.set (s.path + i) ':', path := s.path + i + 1 })
    else some (0, s)

/-- The blanks in front of a name. -/
def skipBlanks (s : PathParser) : Option PathParser :=
  match (s.mem.drop s.path).findIdx? stopsAtName with
  | none => none
  | some blanks => some { s with path := s.path + blanks }

/-- The name, without the blanks behind it; what stands behind it becomes a NUL for `UA_QUALIFIEDNAME_ALLOC`. -/
def readName (namespac : Int) (s : PathParser) : Option PathParser :=
  match (s.mem.drop s.path).findIdx? stopsAtEnd with
  | none => none
  | some len =>
    let len := (((s.mem.drop s.path).take len).rdropWhile App.isSpace).length
    let c := s.mem.getD (s.path + len) NUL
    let cut := s.mem.set (s.path + len) NUL
    some {
      mem := cut.set (s.path + len) c
      path := s.path + len + 1
      elements := s.elements ++ [(UInt16.ofInt namespac, text cut s.path)] }

/-- A round of the loop over the elements. At a slash it is made again for the same element. -/
def round (s : PathParser) : Option PathParser :=
  match s.readNamespace with
  | none => none
  | some (namespac, s) =>
    match s.skipBlanks with
    | none => none
    | some s => if s.mem[s.path]? = some '/' then some { s with path := s.path + 1 } else s.readName namespac

/-- The loop; it leaves with the memory and the elements, or by reading past the end of the string. -/
def body (pathSize : Nat) (s : PathParser) : PathParser ⊕ Option (Arg × List Element) :=
  if s.elements.length < pathSize then
    match s.round with
    | none => .inr none
    | some s => .inl s
  else .inr (some (s.mem, s.elements))

end PathParser

/-! ### What the elements are to be -/

/-- The text in front of the first colon of a segment, as a number, or 0. -/
def namespaceOf (segment : Arg) : Int :=
  if ':' ∈ segment then App.atoi (segment.takeWhile (· != ':')) else 0

/-- The text behind it, or all of the segment. -/
def restOf (segment : Arg) : Arg :=
  if ':' ∈ segment then (segment.dropWhile (· != ':')).tail else segment

/-- The text without the blanks around it. -/
def trim (s : Arg) : Arg := (s.dropWhile App.isSpace).rdropWhile App.isSpace

def nameOf (segment : Arg) : Arg := trim (restOf segment)

def blank (segment : Arg) : Bool := segment.all App.isSpace

def segments (s : CString) : List Arg := s.chars.splitOn '/'

/-- The segments that are not blank, in their order. -/
def elementsOf (segments : List Arg) : List (Int × Arg) :=
  (segments.filter fun segment => !blank segment).map fun segment => (namespaceOf segment, nameOf segment)

/-- What an element says. -/
def valueOf (e : Element) : Int × Arg := (e.1.toNat, e.2)

/-- As many elements are filled as segments are counted, they are what the segments say, and the string is left
as it was; nothing past its end is read. -/
def Parsed (s : CString) : Prop :=
  ∃ elements, While.Returns (PathParser.body (pathSize s.mem)) ⟨s.mem, 0, []⟩ (some (s.mem, elements)) ∧
    elements.length = pathSize s.mem ∧
    elements.map valueOf = elementsOf (segments s)

/-- A namespace that an element can keep. -/
def IsUInt16 (namespac : Int) : Prop := 0 ≤ namespac ∧ namespac < 2 ^ 16

/-- Every segment that is not blank and that is not the last has a name, and every namespace can be kept; or the
last segment that is not blank has a slash behind it, no name, and the namespace 0. -/
def Named : List Arg → Prop
  | [] => True
  | [segment] => IsUInt16 (namespaceOf segment)
  | segment :: rest =>
    if blank segment then Named rest
    else if nameOf segment = [] then namespaceOf segment = 0 ∧ ∀ s ∈ rest, blank s = true
    else IsUInt16 (namespaceOf segment) ∧ Named rest

instance decidableIsUInt16 (namespac : Int) : Decidable (IsUInt16 namespac) :=
  inferInstanceAs (Decidable (_ ∧ _))

instance decidableNamed : ∀ segments, Decidable (Named segments)
  | [] => isTrue trivial
  | [segment] => decidableIsUInt16 (namespaceOf segment)
  | segment :: next :: rest =>
    have := decidableNamed (next :: rest)
    inferInstanceAs (Decidable (if blank segment then Named (next :: rest)
      else if nameOf segment = [] then namespaceOf segment = 0 ∧ ∀ s ∈ next :: rest, blank s = true
      else IsUInt16 (namespaceOf segment) ∧ Named (next :: rest)))

/-! ### The memory -/

variable {mem here : Arg} {path : Nat}

lemma drop_of_drop {a b : Arg} (h : mem.drop path = a ++ b) : mem.drop (path + a.length) = b := by
  rw [← List.drop_drop, h, List.drop_left]

/-- Behind a character. -/
lemma drop_succ_of_drop {a b : Arg} {c : Char} (h : mem.drop path = a ++ c :: b) :
    mem.drop (path + a.length + 1) = b := by
  rw [← List.drop_drop, drop_of_drop h]
  rfl

lemma getElem?_of_drop {a b : Arg} {c : Char} (h : mem.drop path = a ++ c :: b) :
    mem[path + a.length]? = some c := by
  rw [← List.getElem?_drop, h, List.getElem?_append_right (Nat.le_refl _), Nat.sub_self]
  rfl

/-- A character that is overwritten and put back. -/
lemma set_set_of_drop {a b : Arg} {c : Char} (h : mem.drop path = a ++ c :: b) (d : Char) :
    (mem.set (path + a.length) d).set (path + a.length) c = mem := by
  obtain ⟨hlt, hc⟩ := List.getElem?_eq_some_iff.mp (getElem?_of_drop h)
  rw [List.set_set, ← hc, List.set_getElem_self]

/-- What is read up to a NUL that has been put there. -/
lemma text_set {a b : Arg} {c : Char} (h : mem.drop path = a ++ c :: b) (ha : NUL ∉ a) :
    PathParser.text (mem.set (path + a.length) NUL) path = a := by
  have hcut : (mem.set (path + a.length) NUL).drop path = a ++ NUL :: b := by
    rw [List.drop_set, if_neg (Nat.not_lt.mpr (Nat.le_add_right _ _)), Nat.add_sub_cancel_left, h,
      List.set_append_right _ _ (Nat.le_refl _), Nat.sub_self, List.set_cons_zero]
  rw [PathParser.text, hcut, List.takeWhile_append_of_pos, List.takeWhile_cons_of_neg, List.append_nil]
  · exact fun hnul => absurd hnul (by decide)
  · intro c hc
    exact bne_iff_ne.mpr fun heq => ha (heq ▸ hc)

/-- Where a loop over characters stops. -/
lemma findIdx?_stop {stop : Char → Bool} {a b : Arg} {c : Char} (ha : ∀ x ∈ a, stop x = false)
    (hc : stop c = true) : (a ++ c :: b).findIdx? stop = some a.length := by
  rw [List.findIdx?_append, List.findIdx?_eq_none_iff.mpr ha, List.findIdx?_cons, if_pos hc]
  exact congrArg some (Nat.zero_add _)

/-! ### A round -/

/-- A segment has no slash, and no NUL. -/
structure IsSegment (segment : Arg) : Prop where
  noNUL : NUL ∉ segment
  noSlash : '/' ∉ segment

/-- What closes a segment. -/
def Closes (c : Char) : Prop := c = NUL ∨ c = '/'

lemma Closes.stopsAtEnd {c : Char} (h : Closes c) : PathParser.stopsAtEnd c = true := by
  rcases h with rfl | rfl <;> rfl

lemma Closes.stopsAtColon {c : Char} (h : Closes c) : PathParser.stopsAtColon c = true := by
  rcases h with rfl | rfl <;> rfl

lemma Closes.stopsAtName {c : Char} (h : Closes c) : PathParser.stopsAtName c = true := by
  rcases h with rfl | rfl <;> rfl

lemma Closes.ne_colon {c : Char} (h : Closes c) : c ≠ ':' := by
  rcases h with rfl | rfl <;> decide

namespace IsSegment

variable {segment : Arg}

lemma stopsAtEnd (h : IsSegment segment) : ∀ c ∈ segment, PathParser.stopsAtEnd c = false := by
  intro c hc
  have hnul : c ≠ NUL := fun heq => h.noNUL (heq ▸ hc)
  have hslash : c ≠ '/' := fun heq => h.noSlash (heq ▸ hc)
  rw [PathParser.stopsAtEnd, beq_false_of_ne hnul, beq_false_of_ne hslash]
  rfl

lemma stopsAtColon (h : IsSegment segment) (hcolon : ':' ∉ segment) :
    ∀ c ∈ segment, PathParser.stopsAtColon c = false := by
  intro c hc
  have hend := h.stopsAtEnd c hc
  have hne : c ≠ ':' := fun heq => hcolon (heq ▸ hc)
  rw [PathParser.stopsAtEnd] at hend
  rw [PathParser.stopsAtColon, hend, beq_false_of_ne hne]
  rfl

lemma of_subset (h : IsSegment segment) {part : Arg} (hpart : part ⊆ segment) : IsSegment part :=
  ⟨fun hc => h.noNUL (hpart hc), fun hc => h.noSlash (hpart hc)⟩

end IsSegment

/-- A segment with a colon is the text in front of it, the colon, and the rest. -/
lemma eq_of_colon_mem {segment : Arg} (h : ':' ∈ segment) :
    segment = segment.takeWhile (· != ':') ++ ':' :: restOf segment := by
  have hne : segment.dropWhile (· != ':') ≠ [] := by
    intro hnil
    have hall := List.dropWhile_eq_nil_iff.mp hnil ':' h
    exact absurd hall (by decide)
  have hhead : (segment.dropWhile (· != ':')).head hne = ':' := by
    have hstop := List.head_dropWhile_not (p := (· != ':')) (w := hne)
    simpa using hstop
  have hrest : ':' :: (segment.dropWhile (· != ':')).tail = segment.dropWhile (· != ':') :=
    (congrArg (· :: _) hhead.symm).trans (List.cons_head_tail hne)
  rw [restOf, if_pos h, hrest]
  exact List.takeWhile_append_dropWhile.symm

namespace PathParser

variable {s : PathParser} {segment rest : Arg} {d : Char}

lemma readNamespace_segment (hseg : IsSegment segment) (hd : Closes d)
    (h : s.mem.drop s.path = segment ++ d :: rest) :
    ∃ path, s.readNamespace = some (namespaceOf segment, { s with path := path }) ∧
      s.mem.drop path = restOf segment ++ d :: rest := by
  by_cases hcolon : ':' ∈ segment
  · obtain ⟨pfx, hpfx⟩ : ∃ pfx, pfx = segment.takeWhile (· != ':') := ⟨_, rfl⟩
    have hsplit := eq_of_colon_mem hcolon
    rw [← hpfx] at hsplit
    have hpart : IsSegment pfx := hseg.of_subset (hpfx ▸ (List.takeWhile_sublist _).subset)
    have hnone : ':' ∉ pfx := by
      intro hmem
      rw [hpfx] at hmem
      exact absurd (List.mem_takeWhile_imp hmem) (by decide)
    have hhere : s.mem.drop s.path = pfx ++ ':' :: (restOf segment ++ d :: rest) := by
      rw [h]
      conv_lhs => rw [hsplit]
      rw [List.append_assoc, List.cons_append]
    refine ⟨s.path + pfx.length + 1, ?_, ?_⟩
    · rw [readNamespace, hhere, findIdx?_stop (hpart.stopsAtColon hnone) rfl]
      dsimp only
      rw [if_pos (getElem?_of_drop hhere), text_set hhere hpart.noNUL, set_set_of_drop hhere,
        namespaceOf, if_pos hcolon, hpfx]
    · exact drop_succ_of_drop hhere
  · refine ⟨s.path, ?_, by rw [h, restOf, if_neg hcolon]⟩
    rw [readNamespace, h, findIdx?_stop (hseg.stopsAtColon hcolon) hd.stopsAtColon]
    dsimp only
    rw [getElem?_of_drop h, if_neg (fun heq => hd.ne_colon (Option.some.inj heq)), namespaceOf,
      if_neg hcolon]

lemma skipBlanks_segment (hseg : IsSegment segment) (hd : Closes d)
    (h : s.mem.drop s.path = segment ++ d :: rest) :
    ∃ path, s.skipBlanks = some { s with path := path } ∧
      s.mem.drop path = segment.dropWhile App.isSpace ++ d :: rest := by
  have hblank : ∀ c ∈ segment.takeWhile App.isSpace, stopsAtName c = false := by
    intro c hc
    have hspace := List.mem_takeWhile_imp hc
    have hslash : c ≠ '/' := fun heq => hseg.noSlash (heq ▸ (List.takeWhile_sublist _).subset hc)
    rw [stopsAtName, hspace, bne_iff_ne.mpr hslash]
    rfl
  have hhere : s.mem.drop s.path =
      segment.takeWhile App.isSpace ++ (segment.dropWhile App.isSpace ++ d :: rest) := by
    rw [h, ← List.append_assoc, List.takeWhile_append_dropWhile]
  refine ⟨s.path + (segment.takeWhile App.isSpace).length, ?_, drop_of_drop hhere⟩
  cases hname : segment.dropWhile App.isSpace with
  | nil =>
    rw [hname, List.nil_append] at hhere
    rw [skipBlanks, hhere, findIdx?_stop hblank hd.stopsAtName]
  | cons c name =>
    have hne : segment.dropWhile App.isSpace ≠ [] := by rw [hname]; exact List.cons_ne_nil _ _
    have hc : App.isSpace c = false := by
      have hstop := List.head_dropWhile_not (p := App.isSpace) (w := hne)
      simpa [hname] using hstop
    rw [hname, List.cons_append] at hhere
    rw [skipBlanks, hhere, findIdx?_stop hblank (by rw [stopsAtName, hc, Bool.and_false]; rfl)]

lemma readName_segment (hseg : IsSegment segment) (hd : Closes d)
    (h : s.mem.drop s.path = segment ++ d :: rest) (namespac : Int) :
    ∃ path, s.readName namespac = some { s with
        path := path
        elements := s.elements ++ [(UInt16.ofInt namespac, segment.rdropWhile App.isSpace)] } ∧
      s.mem.drop path = (segment.rtakeWhile App.isSpace ++ d :: rest).tail := by
  obtain ⟨name, hname⟩ : ∃ name, name = segment.rdropWhile App.isSpace := ⟨_, rfl⟩
  obtain ⟨c, tail, htail⟩ : ∃ c tail, segment.rtakeWhile App.isSpace ++ d :: rest = c :: tail := by
    cases segment.rtakeWhile App.isSpace with
    | nil => exact ⟨d, rest, rfl⟩
    | cons c trail => exact ⟨c, trail ++ d :: rest, rfl⟩
  have hhere : s.mem.drop s.path = name ++ c :: tail := by
    rw [h, ← htail, ← List.append_assoc, hname, List.rdropWhile_append_rtakeWhile]
  have hpart : IsSegment name := hseg.of_subset (hname ▸ (List.rdropWhile_prefix _ _).subset)
  refine ⟨s.path + name.length + 1, ?_, ?_⟩
  · rw [readName, h, findIdx?_stop hseg.stopsAtEnd hd.stopsAtEnd, ← h]
    dsimp only
    rw [h, List.take_left, ← hname, List.getD_eq_getElem?_getD, getElem?_of_drop hhere, Option.getD_some,
      set_set_of_drop hhere, text_set hhere hpart.noNUL]
  · rw [drop_succ_of_drop hhere, htail, List.tail_cons]

/-- What stands behind a name that is filled in, up to the end of its segment. -/
def trailOf (segment : Arg) : Arg := ((restOf segment).dropWhile App.isSpace).rtakeWhile App.isSpace

/-- The element that a segment is filled into. -/
def elementOf (segment : Arg) : Element := (UInt16.ofInt (namespaceOf segment), nameOf segment)

lemma restOf_subset (segment : Arg) : restOf segment ⊆ segment := by
  rw [restOf]
  split
  · exact ((List.tail_sublist _).trans (List.dropWhile_sublist _)).subset
  · exact List.Subset.refl _

lemma isSegment_restOf (h : IsSegment segment) : IsSegment (restOf segment) :=
  h.of_subset (restOf_subset segment)

/-- Where a name starts: at a character that is no blank. -/
lemma dropWhile_of_nameOf_nil (h : nameOf segment = []) : (restOf segment).dropWhile App.isSpace = [] := by
  by_contra hne
  have hstop := List.head_dropWhile_not (p := App.isSpace) (w := hne)
  have hall := (List.rdropWhile_eq_nil_iff (p := App.isSpace)).mp h _ (List.head_mem hne)
  exact absurd (hall.symm.trans hstop) nofun

/-- A segment that has a slash behind it and no name is stepped over. -/
lemma round_slash (hseg : IsSegment segment) (hname : nameOf segment = [])
    (h : s.mem.drop s.path = segment ++ '/' :: rest) :
    ∃ path, s.round = some { s with path := path } ∧ s.mem.drop path = rest := by
  obtain ⟨path, hns, hpath⟩ := readNamespace_segment hseg (.inr rfl) h
  obtain ⟨path', hblank, hpath'⟩ := skipBlanks_segment (s := { s with path := path })
    (isSegment_restOf hseg) (.inr rfl) hpath
  rw [dropWhile_of_nameOf_nil hname] at hpath'
  refine ⟨path' + 1, ?_, drop_succ_of_drop (a := []) hpath'⟩
  rw [round, hns]
  dsimp only
  rw [hblank]
  dsimp only
  exact if_pos (getElem?_of_drop (a := []) hpath')

/-- Every other segment is filled into an element. -/
lemma round_name (hseg : IsSegment segment) (hd : Closes d) (hname : d = '/' → nameOf segment ≠ [])
    (h : s.mem.drop s.path = segment ++ d :: rest) :
    ∃ path, s.round = some { s with path := path, elements := s.elements ++ [elementOf segment] } ∧
      s.mem.drop path = (trailOf segment ++ d :: rest).tail := by
  obtain ⟨path, hns, hpath⟩ := readNamespace_segment hseg hd h
  obtain ⟨path', hblank, hpath'⟩ := skipBlanks_segment (s := { s with path := path })
    (isSegment_restOf hseg) hd hpath
  have hpart : IsSegment ((restOf segment).dropWhile App.isSpace) :=
    (isSegment_restOf hseg).of_subset (List.dropWhile_sublist _).subset
  obtain ⟨path'', hread, hpath''⟩ := readName_segment (s := { s with path := path' }) hpart hd hpath'
    (namespaceOf segment)
  refine ⟨path'', ?_, hpath''⟩
  have hslash : s.mem[path']? ≠ some '/' := by
    cases hfirst : (restOf segment).dropWhile App.isSpace with
    | nil =>
      rw [hfirst] at hpath'
      have hat : s.mem[path']? = some d := getElem?_of_drop (a := []) hpath'
      rw [hat]
      intro heq
      refine hname (Option.some.inj heq) ?_
      rw [nameOf, trim, hfirst, List.rdropWhile_nil]
    | cons c name =>
      rw [hfirst] at hpath'
      have hat : s.mem[path']? = some c := getElem?_of_drop (a := []) hpath'
      rw [hat]
      intro heq
      refine hpart.noSlash ?_
      rw [hfirst, Option.some.inj heq]
      exact List.mem_cons_self
  rw [round, hns]
  dsimp only
  rw [hblank]
  dsimp only
  rw [if_neg hslash]
  exact hread

/-! ### The loop -/

/-- The segments as they stand in memory; nothing stands behind the last one and its NUL. -/
def joined : List Arg → Arg
  | [] => []
  | [segment] => segment ++ [NUL]
  | segment :: rest => segment ++ '/' :: joined rest

/-- What the loop makes of no segments: it reads past the end if an element is not filled. -/
def fillNone (n : Nat) (elements : List Element) : Option (List Element) :=
  if elements.length < n then none else some elements

/-- What the loop makes of segments. The blanks behind the last name may become an element without a name. -/
def fill (n : Nat) : List Arg → List Element → Option (List Element)
  | [], elements => fillNone n elements
  | [segment], elements =>
    if elements.length < n then
      if trailOf segment = [] then fillNone n (elements ++ [elementOf segment])
      else if elements.length + 1 < n then fillNone n (elements ++ [elementOf segment] ++ [(0, [])])
      else some (elements ++ [elementOf segment])
    else some elements
  | segment :: rest, elements =>
    if elements.length < n then
      if nameOf segment = [] then fill n rest elements else fill n rest (elements ++ [elementOf segment])
    else some elements

lemma fill_of_le {n : Nat} {elements : List Element} (h : n ≤ elements.length) :
    ∀ segments, fill n segments elements = some elements
  | [] => if_neg (Nat.not_lt.mpr h)
  | [_] => if_neg (Nat.not_lt.mpr h)
  | _ :: _ :: _ => if_neg (Nat.not_lt.mpr h)

lemma body_of_le {n : Nat} (h : n ≤ s.elements.length) : body n s = .inr (some (s.mem, s.elements)) :=
  if_neg (Nat.not_lt.mpr h)

lemma body_of_round {n : Nat} (h : s.elements.length < n) {t : PathParser} (hround : s.round = some t) :
    body n s = .inl t := by
  rw [body, if_pos h, hround]

/-- The loop returns what `fill` says, and leaves the memory as it is. -/
def Fills (n : Nat) (s : PathParser) (segments : List Arg) : Prop :=
  While.Returns (body n) s ((fill n segments s.elements).map fun elements => (s.mem, elements))

lemma fills_of_le {n : Nat} (h : n ≤ s.elements.length) (segments : List Arg) : Fills n s segments := by
  rw [Fills, fill_of_le h, While.returns_inr (body_of_le h)]
  rfl

lemma fills_nil {n : Nat} (h : s.mem.drop s.path = []) : Fills n s [] := by
  by_cases hlt : s.elements.length < n
  · have hround : s.round = none := by rw [round, readNamespace, h]; rfl
    have hbody : body n s = .inr none := by rw [body, if_pos hlt, hround]
    rw [Fills, fill, fillNone, if_pos hlt, While.returns_inr hbody]
    rfl
  · exact fills_of_le (Nat.le_of_not_lt hlt) _

/-- A round of the loop. -/
lemma Fills.of_round {n : Nat} {elements : List Element} {path : Nat} {segments segments' : List Arg}
    (hlt : s.elements.length < n)
    (hround : s.round = some { s with path := path, elements := elements })
    (hfill : fill n segments s.elements = fill n segments' elements)
    (h : Fills n { s with path := path, elements := elements } segments') : Fills n s segments := by
  rw [Fills, While.returns_inl (body_of_round hlt hround), hfill]
  exact h

lemma colon_notMem_of_blank (h : blank segment = true) : ':' ∉ segment := by
  intro hcolon
  exact absurd (List.all_eq_true.mp h _ hcolon) (by decide)

lemma namespaceOf_of_blank (h : blank segment = true) : namespaceOf segment = 0 :=
  if_neg (colon_notMem_of_blank h)

lemma dropWhile_of_blank (h : blank segment = true) : (restOf segment).dropWhile App.isSpace = [] := by
  rw [restOf, if_neg (colon_notMem_of_blank h)]
  exact List.dropWhile_eq_nil_iff.mpr (List.all_eq_true.mp h)

lemma nameOf_of_blank (h : blank segment = true) : nameOf segment = [] := by
  rw [nameOf, trim, dropWhile_of_blank h, List.rdropWhile_nil]

lemma elementOf_of_blank (h : blank segment = true) : elementOf segment = (0, []) := by
  rw [elementOf, namespaceOf_of_blank h, nameOf_of_blank h]
  rfl

lemma trailOf_of_nameOf_nil (h : nameOf segment = []) : trailOf segment = [] := by
  rw [trailOf, dropWhile_of_nameOf_nil h, List.rtakeWhile_nil]

lemma fill_last_of_nameOf_nil {n : Nat} {elements : List Element} (hlt : elements.length < n)
    (h : nameOf segment = []) :
    fill n [segment] elements = fillNone n (elements ++ [elementOf segment]) :=
  (if_pos hlt).trans (if_pos (trailOf_of_nameOf_nil h))

/-- The blanks behind a name are what is left of its segment. -/
lemma trail_of_trailOf (hseg : IsSegment segment) {c : Char} {trail : Arg}
    (h : trailOf segment = c :: trail) : IsSegment trail ∧ blank trail = true := by
  have hmem : ∀ x ∈ trail, x ∈ trailOf segment := by
    intro x hx
    rw [h]
    exact List.mem_cons_of_mem _ hx
  have hsub : trailOf segment ⊆ segment := by
    refine List.Subset.trans (List.rtakeWhile_suffix _ _).subset ?_
    exact List.Subset.trans (List.dropWhile_sublist _).subset (restOf_subset segment)
  exact ⟨hseg.of_subset fun x hx => hsub (hmem x hx),
    List.all_eq_true.mpr fun x hx => List.mem_rtakeWhile_imp (hmem x hx)⟩

/-- The last segment. -/
lemma fills_last {n : Nat} (hseg : IsSegment segment) (h : s.mem.drop s.path = segment ++ [NUL]) :
    Fills n s [segment] := by
  by_cases hlt : s.elements.length < n
  swap
  · exact fills_of_le (Nat.le_of_not_lt hlt) _
  obtain ⟨path, hround, hpath⟩ := round_name hseg (.inl rfl) (fun heq => absurd heq (by decide)) h
  cases htrail : trailOf segment with
  | nil =>
    rw [htrail] at hpath
    refine Fills.of_round hlt hround ?_ (fills_nil hpath)
    exact (if_pos hlt).trans (if_pos htrail)
  | cons c trail =>
    rw [htrail] at hpath
    have hne : trailOf segment ≠ [] := by rw [htrail]; exact List.cons_ne_nil _ _
    obtain ⟨htrailSeg, hblank⟩ := trail_of_trailOf hseg htrail
    refine Fills.of_round hlt hround ?_ (?_ : Fills n _ [trail])
    · refine ((if_pos hlt).trans (if_neg hne)).trans ?_
      by_cases hmore : s.elements.length + 1 < n
      · rw [if_pos hmore, fill_last_of_nameOf_nil (by rw [List.length_append]; exact hmore)
          (nameOf_of_blank hblank), elementOf_of_blank hblank]
      · rw [if_neg hmore, fill_of_le]
        rw [List.length_append]
        exact Nat.le_of_not_lt hmore
    · by_cases hmore : (s.elements ++ [elementOf segment]).length < n
      swap
      · exact fills_of_le (Nat.le_of_not_lt hmore) _
      obtain ⟨path', hround', hpath'⟩ := round_name
        (s := { s with path := path, elements := s.elements ++ [elementOf segment] }) htrailSeg (.inl rfl)
        (fun heq => absurd heq (by decide)) hpath
      rw [trailOf_of_nameOf_nil (nameOf_of_blank hblank)] at hpath'
      refine Fills.of_round hmore hround' ?_ (fills_nil hpath')
      exact fill_last_of_nameOf_nil hmore (nameOf_of_blank hblank)

/-- The loop fills the elements from the segments. -/
lemma fills_joined (n : Nat) : ∀ (segments : List Arg) (s : PathParser),
    (∀ segment ∈ segments, IsSegment segment) → s.mem.drop s.path = joined segments → Fills n s segments
  | [], _, _, h => fills_nil h
  | [segment], _, hseg, h => fills_last (hseg segment List.mem_cons_self) h
  | segment :: next :: rest, s, hseg, h => by
    have ih := fills_joined n (next :: rest)
    have hrest : ∀ x ∈ next :: rest, IsSegment x := fun x hx => hseg x (List.mem_cons_of_mem _ hx)
    replace hseg := hseg segment List.mem_cons_self
    by_cases hlt : s.elements.length < n
    swap
    · exact fills_of_le (Nat.le_of_not_lt hlt) _
    by_cases hname : nameOf segment = []
    · obtain ⟨path, hround, hpath⟩ := round_slash hseg hname h
      exact Fills.of_round hlt hround ((if_pos hlt).trans (if_pos hname))
        (ih _ hrest hpath)
    · obtain ⟨path, hround, hpath⟩ := round_name hseg (.inr rfl) (fun _ => hname) h
      have hfill : fill n (segment :: next :: rest) s.elements =
          fill n (next :: rest) (s.elements ++ [elementOf segment]) :=
        (if_pos hlt).trans (if_neg hname)
      cases htrail : trailOf segment with
      | nil =>
        rw [htrail] at hpath
        exact Fills.of_round hlt hround hfill (ih _ hrest hpath)
      | cons c trail =>
        rw [htrail] at hpath
        obtain ⟨htrailSeg, hblank⟩ := trail_of_trailOf hseg htrail
        refine Fills.of_round hlt hround hfill ?_
        by_cases hmore : (s.elements ++ [elementOf segment]).length < n
        swap
        · exact fills_of_le (Nat.le_of_not_lt hmore) _
        -- the blanks behind the name are stepped over
        obtain ⟨path', hround', hpath'⟩ := round_slash
          (s := { s with path := path, elements := s.elements ++ [elementOf segment] }) htrailSeg
          (nameOf_of_blank hblank) hpath
        exact Fills.of_round hmore hround' rfl (ih _ hrest hpath')

/-! ### The segments of a string -/

lemma isSegment_splitOn (chars : Arg) (h : NUL ∉ chars) :
    ∀ segment ∈ chars.splitOn '/', IsSegment segment := by
  induction chars with
  | nil =>
    intro segment hmem
    rw [List.splitOn_nil, List.mem_singleton] at hmem
    subst hmem
    exact ⟨List.not_mem_nil, List.not_mem_nil⟩
  | cons c chars ih =>
    replace ih := ih fun hmem => h (List.mem_cons_of_mem _ hmem)
    intro segment hmem
    rw [List.splitOn_cons_eq_if_modifyHead] at hmem
    split at hmem
    · rcases List.mem_cons.mp hmem with rfl | hmem
      · exact ⟨List.not_mem_nil, List.not_mem_nil⟩
      · exact ih segment hmem
    · next hslash =>
      obtain ⟨first, rest, hsplit⟩ := List.exists_cons_of_ne_nil (List.splitOn_ne_nil '/' chars)
      rw [hsplit, List.modifyHead_cons] at hmem
      rw [hsplit] at ih
      rcases List.mem_cons.mp hmem with rfl | hmem
      · have hfirst := ih first List.mem_cons_self
        refine ⟨fun hnul => ?_, fun heq => ?_⟩
        · rcases List.mem_cons.mp hnul with rfl | hnul
          · exact h List.mem_cons_self
          · exact hfirst.noNUL hnul
        · rcases List.mem_cons.mp heq with rfl | heq
          · exact hslash (beq_self_eq_true _)
          · exact hfirst.noSlash heq
      · exact ih segment (List.mem_cons_of_mem _ hmem)

lemma joined_cons_cons (c : Char) (segment : Arg) (rest : List Arg) :
    joined ((c :: segment) :: rest) = c :: joined (segment :: rest) := by
  cases rest <;> rfl

lemma joined_splitOn (chars : Arg) : joined (chars.splitOn '/') = chars ++ [NUL] := by
  induction chars with
  | nil => rfl
  | cons c chars ih =>
    obtain ⟨first, rest, hsplit⟩ := List.exists_cons_of_ne_nil (List.splitOn_ne_nil '/' chars)
    rw [List.splitOn_cons_eq_if_modifyHead]
    rw [hsplit] at ih ⊢
    split
    · next hslash =>
      rw [beq_iff_eq.mp hslash, List.cons_append, ← ih]
      rfl
    · rw [List.modifyHead_cons, joined_cons_cons, ih, List.cons_append]

/-- Counting goes through a segment, and on behind the slash. -/
lemma countFrom_segment (hseg : IsSegment segment) (isEmpty : Bool) (hd : Closes d) :
    countFrom isEmpty (segment ++ d :: rest) =
      (if isEmpty && !blank segment then 1 else 0) + if d = NUL then 0 else countFrom true rest := by
  induction segment generalizing isEmpty with
  | nil =>
    have hblank : blank [] = true := rfl
    rw [List.nil_append, countFrom, hblank, Bool.not_true, Bool.and_false, if_neg Bool.false_ne_true,
      Nat.zero_add]
    split
    · rfl
    · next hnul => exact if_pos (hd.resolve_left hnul)
  | cons c segment ih =>
    have hnul : c ≠ NUL := fun heq => hseg.noNUL (heq ▸ List.mem_cons_self)
    have hslash : c ≠ '/' := fun heq => hseg.noSlash (heq ▸ List.mem_cons_self)
    replace ih := ih (hseg.of_subset fun x hx => List.mem_cons_of_mem _ hx)
    rw [List.cons_append, countFrom, if_neg hnul, if_neg hslash, ih, ih]
    have hblank : blank (c :: segment) = (App.isSpace c && blank segment) := List.all_cons
    rw [hblank]
    cases App.isSpace c <;> cases isEmpty <;> cases blank segment <;> simp <;> omega

lemma pathSize_joined : ∀ segments : List Arg, segments ≠ [] →
    (∀ segment ∈ segments, IsSegment segment) → pathSize (joined segments) = (elementsOf segments).length
  | [], hne, _ => absurd rfl hne
  | [segment], _, hseg => by
    have hcount : countFrom true (segment ++ [NUL]) = _ :=
      countFrom_segment (hseg segment List.mem_cons_self) true (.inl rfl)
    rw [pathSize, joined, hcount, elementsOf, List.length_map]
    cases hblank : blank segment <;> simp [hblank]
  | segment :: next :: rest, _, hseg => by
    have ih := pathSize_joined (next :: rest) (List.cons_ne_nil _ _)
      fun x hx => hseg x (List.mem_cons_of_mem _ hx)
    rw [pathSize, elementsOf, List.length_map] at ih
    have hcount : countFrom true (segment ++ '/' :: joined (next :: rest)) = _ :=
      countFrom_segment (hseg segment List.mem_cons_self) true (.inr rfl)
    have hslash : '/' ≠ NUL := by decide
    rw [if_neg hslash, ih] at hcount
    have hjoined : joined (segment :: next :: rest) = segment ++ '/' :: joined (next :: rest) := rfl
    rw [pathSize, hjoined, hcount, elementsOf, List.length_map, List.filter_cons (x := segment)]
    cases blank segment with
    | true => exact Nat.zero_add _
    | false => exact Nat.add_comm _ _

/-! ### When the elements are right -/

lemma valueOf_elementOf_iff (segment : Arg) :
    valueOf (elementOf segment) = (namespaceOf segment, nameOf segment) ↔ IsUInt16 (namespaceOf segment) := by
  rw [valueOf, elementOf, Prod.mk.injEq, and_iff_left rfl, UInt16.ofInt, UInt16.toNat_ofNat', IsUInt16]
  omega

lemma elementsOf_cons_of_blank (h : blank segment = true) (segments : List Arg) :
    elementsOf (segment :: segments) = elementsOf segments := by
  rw [elementsOf, List.filter_cons_of_neg (by rw [h]; exact Bool.false_ne_true), elementsOf]

lemma elementsOf_cons_of_not_blank (h : blank segment = false) (segments : List Arg) :
    elementsOf (segment :: segments) = (namespaceOf segment, nameOf segment) :: elementsOf segments := by
  rw [elementsOf, List.filter_cons_of_pos (by rw [h]; rfl), List.map_cons, elementsOf]

lemma elementsOf_eq_nil_iff (segments : List Arg) :
    elementsOf segments = [] ↔ ∀ s ∈ segments, blank s = true := by
  rw [elementsOf, List.map_eq_nil_iff, List.filter_eq_nil_iff]
  refine forall₂_congr fun s _ => ?_
  cases blank s <;> decide

lemma eq_of_fillNone {n : Nat} {elements filled : List Element} (h : fillNone n elements = some filled) :
    elements = filled := by
  rw [fillNone] at h
  split at h
  · exact absurd h nofun
  · exact Option.some.inj h

/-- The elements that are filled stay. -/
lemma isPrefix_of_fill {n : Nat} : ∀ {segments : List Arg} {elements filled : List Element},
    fill n segments elements = some filled → elements <+: filled
  | [], _, _, h => eq_of_fillNone h ▸ List.prefix_refl _
  | [segment], elements, filled, h => by
    rw [fill] at h
    split at h
    · split at h
      · exact eq_of_fillNone h ▸ List.prefix_append _ _
      · split at h
        · rw [List.append_assoc] at h
          exact eq_of_fillNone h ▸ List.prefix_append _ _
        · exact Option.some.inj h ▸ List.prefix_append _ _
    · exact Option.some.inj h ▸ List.prefix_refl _
  | segment :: next :: rest, elements, filled, h => by
    unfold fill at h
    split at h
    · split at h
      · exact isPrefix_of_fill h
      · exact (List.prefix_append _ _).trans (isPrefix_of_fill h)
    · exact Option.some.inj h ▸ List.prefix_refl _

/-- An element without a name is filled from the last segment, and no other one behind it. -/
lemma fill_nameless {n : Nat} {e : Element} (he : e.2 = []) : ∀ {segments : List Arg}
    {elements more : List Element}, fill n segments elements = some (elements ++ e :: more) →
      more = [] ∧ ∃ last ∈ segments, e = elementOf last
  | [], elements, more, h => absurd (List.self_eq_append_right.mp (eq_of_fillNone h)) (List.cons_ne_nil _ _)
  | [segment], elements, more, h => by
    have hfirst : ∀ more', elements ++ elementOf segment :: more' = elements ++ e :: more →
        e = elementOf segment ∧ more = more' := by
      intro more' heq
      obtain ⟨hhead, htail⟩ := List.cons.inj (List.append_cancel_left heq)
      exact ⟨hhead.symm, htail.symm⟩
    rw [fill] at h
    split at h
    · split at h
      · obtain ⟨hhead, hmore⟩ := hfirst [] (eq_of_fillNone h)
        exact ⟨hmore, segment, List.mem_cons_self, hhead⟩
      · next htrail =>
        -- what has blanks behind it has a name
        have hname : e ≠ elementOf segment := by
          rintro rfl
          exact htrail (trailOf_of_nameOf_nil he)
        split at h
        · rw [List.append_assoc] at h
          exact absurd (hfirst [(0, [])] (eq_of_fillNone h)).1 hname
        · exact absurd (hfirst [] (Option.some.inj h)).1 hname
    · exact absurd (List.self_eq_append_right.mp (Option.some.inj h)) (List.cons_ne_nil _ _)
  | segment :: next :: rest, elements, more, h => by
    unfold fill at h
    split at h
    · split at h
      · obtain ⟨hmore, last, hlast, heq⟩ := fill_nameless he h
        exact ⟨hmore, last, List.mem_cons_of_mem _ hlast, heq⟩
      · next hname =>
        have hpre := isPrefix_of_fill h
        rw [List.prefix_append_right_inj] at hpre
        obtain ⟨heq, -⟩ := List.cons_prefix_cons.mp hpre
        subst heq
        exact absurd he hname
    · exact absurd (List.self_eq_append_right.mp (Option.some.inj h)) (List.cons_ne_nil _ _)

/-- Where all segments are blank, one element more is filled than there is to be. -/
lemma fill_of_blank : ∀ {segments : List Arg} (elements : List Element), segments ≠ [] →
    (∀ s ∈ segments, blank s = true) →
      fill (elements.length + 1) segments elements = some (elements ++ [(0, [])])
  | [], _, hne, _ => absurd rfl hne
  | [segment], elements, _, hblank => by
    have hsegment := hblank segment List.mem_cons_self
    rw [fill_last_of_nameOf_nil (Nat.lt_succ_self _) (nameOf_of_blank hsegment), fillNone,
      elementOf_of_blank hsegment, if_neg]
    rw [List.length_append]
    exact Nat.lt_irrefl _
  | segment :: next :: rest, elements, _, hblank => by
    have ih := fill_of_blank elements (List.cons_ne_nil next rest)
      fun x hx => hblank x (List.mem_cons_of_mem _ hx)
    have hname := nameOf_of_blank (hblank segment List.mem_cons_self)
    exact ((if_pos (Nat.lt_succ_self _)).trans (if_pos hname)).trans ih

/-- The first element that is filled, and the others. -/
lemma fill_first_iff {n : Nat} (segment : Arg) (segments : List Arg) (elements : List Element)
    (expected : List (Int × Arg)) :
    (fill n segments (elements ++ [elementOf segment])).map (List.map valueOf) =
        some (elements.map valueOf ++ (namespaceOf segment, nameOf segment) :: expected) ↔
      IsUInt16 (namespaceOf segment) ∧
        (fill n segments (elements ++ [elementOf segment])).map (List.map valueOf) =
          some ((elements ++ [elementOf segment]).map valueOf ++ expected) := by
  rw [List.map_append, List.append_assoc, ← valueOf_elementOf_iff]
  constructor
  · intro h
    obtain ⟨filled, hfilled, hvalue⟩ := Option.map_eq_some_iff.mp h
    obtain ⟨more, rfl⟩ := isPrefix_of_fill hfilled
    rw [List.map_append, List.map_append, List.append_assoc] at hvalue
    obtain ⟨hhead, -⟩ := List.cons.inj (List.append_cancel_left hvalue)
    refine ⟨hhead, ?_⟩
    rw [h, ← hhead]
    rfl
  · rintro ⟨hhead, h⟩
    rw [h, ← hhead]
    rfl

/-- Behind a segment without a name that has a slash behind it. -/
lemma fill_nameless_iff {next : Arg} {rest : List Arg} (hname : nameOf segment = [])
    (elements : List Element) :
    (fill (elements.length + (elementsOf (next :: rest)).length + 1) (next :: rest) elements).map
        (List.map valueOf) =
      some (elements.map valueOf ++ (namespaceOf segment, nameOf segment) :: elementsOf (next :: rest)) ↔
      namespaceOf segment = 0 ∧ ∀ s ∈ next :: rest, blank s = true := by
  constructor
  · intro h
    obtain ⟨filled, hfilled, hvalue⟩ := Option.map_eq_some_iff.mp h
    obtain ⟨more, rfl⟩ := isPrefix_of_fill hfilled
    rw [List.map_append] at hvalue
    replace hvalue := List.append_cancel_left hvalue
    cases more with
    | nil => exact absurd hvalue nofun
    | cons e more =>
      obtain ⟨hhead, htail⟩ := List.cons.inj hvalue
      have he : e.2 = [] := (congrArg Prod.snd hhead).trans hname
      obtain ⟨rfl, last, hlast, rfl⟩ := fill_nameless he hfilled
      have hblank := (elementsOf_eq_nil_iff (next :: rest)).mp htail.symm
      refine ⟨?_, hblank⟩
      rw [elementOf_of_blank (hblank last hlast)] at hhead
      exact (congrArg Prod.fst hhead).symm
  · rintro ⟨hns, hblank⟩
    have hnone := (elementsOf_eq_nil_iff (next :: rest)).mpr hblank
    rw [hnone, List.length_nil, Nat.add_zero, fill_of_blank elements (List.cons_ne_nil _ _) hblank, hns,
      hname, Option.map_some, List.map_append]
    rfl

lemma named_cons (segment next : Arg) (rest : List Arg) : Named (segment :: next :: rest) =
    if blank segment then Named (next :: rest)
    else if nameOf segment = [] then namespaceOf segment = 0 ∧ ∀ s ∈ next :: rest, blank s = true
    else IsUInt16 (namespaceOf segment) ∧ Named (next :: rest) := rfl

/-- When the elements are what the segments say. -/
lemma fill_iff : ∀ (segments : List Arg) (elements : List Element),
    (fill (elements.length + (elementsOf segments).length) segments elements).map (List.map valueOf) =
      some (elements.map valueOf ++ elementsOf segments) ↔ Named segments
  | [], elements => by
    refine iff_of_true ?_ trivial
    have hnone : elementsOf [] = [] := rfl
    rw [hnone, List.append_nil, List.length_nil, Nat.add_zero, fill_of_le (Nat.le_refl _),
      Option.map_some]
  | [segment], elements => by
    cases hblank : blank segment with
    | true =>
      have hnone : elementsOf [segment] = [] := elementsOf_cons_of_blank hblank []
      rw [hnone, List.append_nil, List.length_nil, Nat.add_zero, fill_of_le (Nat.le_refl _),
        Option.map_some, Named, namespaceOf_of_blank hblank]
      exact iff_of_true rfl ⟨by decide, by decide⟩
    | false =>
      have hfill : fill (elements.length + 1) [segment] elements = some (elements ++ [elementOf segment]) := by
        have hlen : ¬(elements ++ [elementOf segment]).length < elements.length + 1 := by
          rw [List.length_append]
          exact Nat.lt_irrefl _
        rw [fill, if_pos (Nat.lt_succ_self _), fillNone, if_neg hlen, if_neg (Nat.lt_irrefl _), ite_self]
      rw [elementsOf_cons_of_not_blank hblank]
      change (fill (elements.length + 1) [segment] elements).map (List.map valueOf) = _ ↔ _
      rw [hfill, Option.map_some, Option.some_inj, List.map_append, List.append_cancel_left_eq, Named,
        ← valueOf_elementOf_iff]
      exact List.cons_eq_cons.trans (and_iff_left rfl)
  | segment :: next :: rest, elements => by
    have hlt : elements.length < elements.length + (elementsOf (next :: rest)).length + 1 := by omega
    cases hblank : blank segment with
    | true =>
      have hfill (n : Nat) : fill n (segment :: next :: rest) elements = fill n (next :: rest) elements := by
        by_cases hlt : elements.length < n
        · exact (if_pos hlt).trans (if_pos (nameOf_of_blank hblank))
        · rw [fill_of_le (Nat.le_of_not_lt hlt), fill_of_le (Nat.le_of_not_lt hlt)]
      rw [elementsOf_cons_of_blank hblank, hfill, named_cons, if_pos hblank]
      exact fill_iff (next :: rest) elements
    | false =>
      have hcount : (elementsOf (segment :: next :: rest)).length = (elementsOf (next :: rest)).length + 1 := by
        rw [elementsOf_cons_of_not_blank hblank, List.length_cons]
      rw [hcount, elementsOf_cons_of_not_blank hblank, ← Nat.add_assoc]
      by_cases hname : nameOf segment = []
      · have hfill : fill (elements.length + (elementsOf (next :: rest)).length + 1)
            (segment :: next :: rest) elements = fill (elements.length + (elementsOf (next :: rest)).length + 1)
              (next :: rest) elements := (if_pos hlt).trans (if_pos hname)
        rw [hfill, named_cons, hblank, if_neg Bool.false_ne_true, if_pos hname]
        exact fill_nameless_iff hname elements
      · have hfill : fill (elements.length + (elementsOf (next :: rest)).length + 1)
            (segment :: next :: rest) elements = fill (elements.length + (elementsOf (next :: rest)).length + 1)
              (next :: rest) (elements ++ [elementOf segment]) := (if_pos hlt).trans (if_neg hname)
        rw [hfill, named_cons, hblank, if_neg Bool.false_ne_true, if_neg hname]
        have ih := fill_iff (next :: rest) (elements ++ [elementOf segment])
        have hn : (elements ++ [elementOf segment]).length + (elementsOf (next :: rest)).length =
            elements.length + (elementsOf (next :: rest)).length + 1 := by
          rw [List.length_append, List.length_singleton]
          omega
        rw [hn] at ih
        rw [fill_first_iff, ih]

/-- When the parser does what it is to do. -/
lemma parsed_iff_named (s : CString) : Parsed s ↔ Named (segments s) := by
  have hseg := isSegment_splitOn s.chars s.closed
  have hmem : s.mem = joined (segments s) := (joined_splitOn s.chars).symm
  have hsize : pathSize s.mem = (elementsOf (segments s)).length := by
    rw [hmem]
    exact pathSize_joined _ (List.splitOn_ne_nil _ _) hseg
  have hfills := fills_joined (pathSize s.mem) (segments s) ⟨s.mem, 0, []⟩ hseg hmem
  have hfill := fill_iff (segments s) []
  rw [List.length_nil, Nat.zero_add, List.map_nil, List.nil_append, ← hsize] at hfill
  rw [← hfill]
  constructor
  · rintro ⟨elements, hreturns, -, hvalue⟩
    have heq := hreturns.unique hfills
    obtain ⟨filled, hfilled, hpair⟩ := Option.map_eq_some_iff.mp heq.symm
    obtain rfl := (Prod.mk.inj hpair).2
    rw [hfilled, Option.map_some, hvalue]
  · intro h
    obtain ⟨elements, helements, hvalue⟩ := Option.map_eq_some_iff.mp h
    rw [Fills, helements] at hfills
    refine ⟨elements, hfills, ?_, hvalue⟩
    rw [hsize, ← hvalue, List.length_map]

end PathParser

/-- The parser fills the elements from the segments, and reads nothing behind them, exactly if they are
named. -/
theorem parsed_iff (s : CString) : Parsed s ↔ Named (segments s) := PathParser.parsed_iff_named s

/-- `5:/a` has two segments, and the parser reads past its end. -/
theorem not_parsed : ¬Parsed ⟨['5', ':', '/', 'a'], by decide⟩ := by
  rw [PathParser.parsed_iff_named]
  decide +kernel

end LowJs.OPCUA
