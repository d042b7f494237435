import LowJs.Core.Entries
import LowJs.HTTPDirect.Sections

/-!
# Collecting entries in one block

While a block has room, the parser appends entries to it: `Collecting` says what the block and the
three positions hold when `done` are the complete entries and `cur` the bytes of the unfinished
one. The walk over the block reads the entries back, up to the first empty one.
-/

namespace LowJs.HTTPDirect

namespace Parser

/-! ### Reading entries back -/

lemma paramStrings_of_entries {size : Int} {charLen : UInt8 → Int} {data : Int → UInt8}
    {es : List (List UInt8)} {pos : Int} (hpos : 0 ≤ pos) (hes : Entries data pos es)
    (hend : data (pos + span es) = 0) (hsize : pos + span es < size)
    (hnul : ∀ e ∈ es, ∀ c ∈ e, c ≠ 0) (hshort : ∀ e ∈ es, e.length < 256)
    (hlen : ∀ e ∈ es, charLen (UInt8.ofNat e.length) = e.length) {fuel : Nat}
    (hfuel : es.length < fuel) :
    paramStrings size charLen data fuel pos = some (es.takeWhile (· ≠ [])) := by
  induction es generalizing pos fuel with
  | nil =>
    simp only [span_nil, Nat.cast_zero, add_zero] at hend hsize
    cases fuel with
    | zero => simp at hfuel
    | succ fuel =>
      rw [paramStrings, if_neg (by omega), if_pos hend]
      rfl
  | cons e es ih =>
    obtain ⟨hhead, hstored, hrest⟩ := hes
    simp only [span_cons, Nat.cast_add, Nat.cast_one] at hend hsize
    cases fuel with
    | zero => simp at hfuel
    | succ fuel =>
      rw [paramStrings, if_neg (by omega)]
      by_cases hempty : e = []
      · subst hempty
        rw [if_pos (by simpa using hhead)]
        rfl
      · have hlt := hshort e (by simp)
        have hne : data pos ≠ 0 := by
          rw [hhead]
          intro h0
          have := congrArg UInt8.toNat h0
          rw [UInt8.toNat_ofNat', Nat.mod_eq_of_lt (by omega)] at this
          exact hempty (List.length_eq_zero_iff.mp this)
        have hstop : pos + 1 + charLen (data pos) = pos + 1 + e.length := by
          rw [hhead, hlen e (by simp)]
        rw [if_neg hne]
        dsimp only
        rw [hstop, if_neg (by omega)]
        have hcut : cString (Function.update data (pos + 1 + e.length) 0) (pos + 1)
            (size - (pos + 1)).toNat = e := by
          refine cString_of_stored (hstored.update (.inr (by omega))) (hnul e (by simp))
            (Function.update_self ..) (by omega)
        have hback : Function.update (Function.update data (pos + 1 + e.length) 0)
            (pos + 1 + e.length) (data (pos + 1 + e.length)) = data := by
          rw [Function.update_idem, Function.update_eq_self]
        rw [hcut, hback]
        have hspan : pos + 1 + e.length + (span es : Int) = pos + (e.length + 1 + span es) := by
          omega
        rw [ih (by omega) hrest (by rw [hspan]; exact hend) (by omega)
          (fun e' h => hnul e' (by simp [h])) (fun e' h => hshort e' (by simp [h]))
          (fun e' h => hlen e' (by simp [h])) (by simpa using hfuel)]
        simp [hempty]

/-- The strings of a block that holds the entries `es` and is terminated behind them. -/
lemma blockStrings_of_entries {E : Env} {charLen : UInt8 → Int} {data : Int → UInt8}
    {es : List (List UInt8)} (hes : Entries data 0 es) (hend : data (span es) = 0)
    (hsize : span es < E.sizeofData) (hnul : ∀ e ∈ es, ∀ c ∈ e, c ≠ 0)
    (hshort : ∀ e ∈ es, e.length < 256)
    (hlen : ∀ e ∈ es, charLen (UInt8.ofNat e.length) = e.length) :
    blockStrings E charLen data = some (es.takeWhile (· ≠ [])) := by
  have hle := length_le_span es
  exact paramStrings_of_entries (le_refl 0) hes (by simpa using hend) (by omega) hnul hshort hlen
    (by omega)

/-! ### The unfinished entry -/

/-- A text without the blanks at its end. -/
def rtrim (cs : List UInt8) : List UInt8 := cs.rdropWhile isBlank

lemma rtrim_concat_blank {cs : List UInt8} {c : UInt8} (h : isBlank c) :
    rtrim (cs ++ [c]) = rtrim cs := List.rdropWhile_concat_pos _ _ _ h

lemma rtrim_concat_char {cs : List UInt8} {c : UInt8} (h : ¬isBlank c) :
    rtrim (cs ++ [c]) = cs ++ [c] := List.rdropWhile_concat_neg _ _ _ h

lemma rtrim_isPrefix (cs : List UInt8) : rtrim cs <+: cs := List.rdropWhile_prefix _ _

/-- The block `b`, the only one of its list, holds the entries `done` and the bytes `cur` of the
next one. -/
structure Collecting (p : Parser) (b : Nat) (ty : ParamDataType) (done : List (List UInt8))
    (cur : List UInt8) : Prop where
  first : p.mParamFirst = some b
  last : p.mParamLast = some b
  next : (p.heap b).next = none
  type : (p.heap b).type = ty
  entries : Entries (p.heap b).data 0 done
  stored : Stored (p.heap b).data (1 + span done) cur
  start : p.mParamStart = 1 + span done
  pos : p.mParamPos = p.mParamStart + cur.length
  nonSpace : p.mParamPosNonSpace = p.mParamStart + (rtrim cur).length

/-- The unfinished entry is about to be completed as `e`. -/
structure Ending (p : Parser) (b : Nat) (ty : ParamDataType) (done : List (List UInt8))
    (e : List UInt8) : Prop where
  first : p.mParamFirst = some b
  last : p.mParamLast = some b
  next : (p.heap b).next = none
  type : (p.heap b).type = ty
  entries : Entries (p.heap b).data 0 done
  stored : Stored (p.heap b).data (1 + span done) e
  start : p.mParamStart = 1 + span done
  nonSpace : p.mParamPosNonSpace = p.mParamStart + e.length

variable {p : Parser} {b : Nat} {ty : ParamDataType} {done : List (List UInt8)} {cur e : List UInt8}

@[simp] lemma write_data (i : Int) (v : UInt8) :
    ((p.write b i v).heap b).data = Function.update (p.heap b).data i v := by
  simp [write]

@[simp] lemma write_next (i : Int) (v : UInt8) :
    ((p.write b i v).heap b).next = (p.heap b).next := by
  simp [write]

@[simp] lemma write_type (i : Int) (v : UInt8) :
    ((p.write b i v).heap b).type = (p.heap b).type := by
  simp [write]

lemma read_write_of_ne {i j : Int} (p : Parser) (v : UInt8) (h : j ≠ i) :
    (p.write b i v).read b j = p.read b j := by
  rw [Parser.read, write_data, Function.update_of_ne h, Parser.read]

lemma Collecting.ending (h : Collecting p b ty done cur) : Ending p b ty done (rtrim cur) :=
  ⟨h.first, h.last, h.next, h.type, h.entries, h.stored.of_prefix (rtrim_isPrefix cur), h.start,
    h.nonSpace⟩

lemma Collecting.congr {p' : Parser} (h : Collecting p b ty done cur)
    (hfirst : p'.mParamFirst = p.mParamFirst) (hlast : p'.mParamLast = p.mParamLast)
    (hheap : p'.heap b = p.heap b) (hstart : p'.mParamStart = p.mParamStart)
    (hpos : p'.mParamPos = p.mParamPos) (hns : p'.mParamPosNonSpace = p.mParamPosNonSpace) :
    Collecting p' b ty done cur where
  first := hfirst.trans h.first
  last := hlast.trans h.last
  next := by
    rw [hheap]
    exact h.next
  type := by
    rw [hheap]
    exact h.type
  entries := by
    rw [hheap]
    exact h.entries
  stored := by
    rw [hheap]
    exact h.stored
  start := hstart.trans h.start
  pos := by
    rw [hpos, hstart]
    exact h.pos
  nonSpace := by
    rw [hns, hstart]
    exact h.nonSpace

lemma Ending.congr {p' : Parser} (h : Ending p b ty done e)
    (hfirst : p'.mParamFirst = p.mParamFirst) (hlast : p'.mParamLast = p.mParamLast)
    (hheap : p'.heap b = p.heap b) (hstart : p'.mParamStart = p.mParamStart)
    (hns : p'.mParamPosNonSpace = p.mParamPosNonSpace) : Ending p' b ty done e where
  first := hfirst.trans h.first
  last := hlast.trans h.last
  next := by
    rw [hheap]
    exact h.next
  type := by
    rw [hheap]
    exact h.type
  entries := by
    rw [hheap]
    exact h.entries
  stored := by
    rw [hheap]
    exact h.stored
  start := hstart.trans h.start
  nonSpace := by
    rw [hns, hstart]
    exact h.nonSpace

/-- The NUL behind the entry does not touch it. -/
lemma Ending.terminate (h : Ending p b ty done e) :
    Ending (p.write b p.mParamPosNonSpace 0) b ty done e where
  first := h.first
  last := h.last
  next := by
    rw [write_next]
    exact h.next
  type := by
    rw [write_type]
    exact h.type
  entries := by
    have h1 := h.start
    have h2 := h.nonSpace
    rw [write_data]
    exact h.entries.update (.inr (by omega))
  stored := by
    have h1 := h.start
    have h2 := h.nonSpace
    rw [write_data]
    exact h.stored.update (.inr (by omega))
  start := h.start
  nonSpace := h.nonSpace

/-- The entry as the string that the comparisons see. -/
lemma Ending.entryString {E : Env} (h : Ending p b ty done e) (hnul : ∀ c ∈ e, c ≠ 0)
    (hfit : p.mParamPosNonSpace < E.sizeofData) :
    (p.write b p.mParamPosNonSpace 0).entryString E b = e := by
  have h1 := h.terminate
  have h2 := h.start
  have h3 := h.nonSpace
  have hstart : (p.write b p.mParamPosNonSpace 0).mParamStart = 1 + span done := h.start
  refine cString_of_stored (by rw [hstart]; exact h1.stored) hnul ?_ ?_
  · rw [write_data, hstart]
    have : (1 + span done + e.length : Int) = p.mParamPosNonSpace := by omega
    rw [this]
    exact Function.update_self ..
  · rw [hstart]
    omega

/-- An entry is completed, cut off behind 255 bytes. -/
lemma Ending.storeEntry (h : Ending p b ty done e) :
    Collecting (p.storeEntry b) b ty (done ++ [e.take 255]) [] := by
  have hstart := h.start
  have hns := h.nonSpace
  obtain ⟨ns, hns'⟩ : ∃ ns, ns = if p.mParamPosNonSpace - p.mParamStart > 255
      then p.mParamStart + 255 else p.mParamPosNonSpace := ⟨_, rfl⟩
  have hlen : ns = p.mParamStart + (e.take 255).length := by
    rw [hns', List.length_take]
    split <;> omega
  have hbyte : lowByte (ns - p.mParamStart) = UInt8.ofNat (e.take 255).length := by
    have h1 : ns - p.mParamStart = (e.take 255).length := by omega
    have h2 : (e.take 255).length ≤ 255 := List.length_take_le _ _
    rw [lowByte, h1]
    congr 1
    omega
  have heq : p.storeEntry b =
      { p.write b (p.mParamStart - 1) (UInt8.ofNat (e.take 255).length) with
        mParamPos := ns + 1
        mParamStart := ns + 1
        mParamPosNonSpace := ns + 1 } := by
    rw [← hbyte, hns']
    rfl
  have hslot : p.mParamStart - 1 = 0 + (span done : Int) := by omega
  have hspan : (span (done ++ [e.take 255]) : Int) = span done + ((e.take 255).length + 1) := by
    simp
  rw [heq]
  refine ⟨h.first, h.last, ?_, ?_, ?_, trivial, ?_, ?_, ?_⟩
  · exact (write_next _ _).trans h.next
  · exact (write_type _ _).trans h.type
  · show Entries ((p.write b (p.mParamStart - 1) _).heap b).data 0 _
    rw [write_data, hslot]
    refine h.entries.concat ?_
    have hs := h.stored.of_prefix (List.take_prefix 255 e)
    rwa [show (0 + (span done : Int) + 1) = 1 + span done by omega]
  · rw [hspan]
    show ns + 1 = _
    omega
  · simp
  · simp [rtrim]

lemma isBlank_storedChar (S : Bool) (ph : Phase) (c : UInt8) :
    isBlank (storedChar S ph c) = isBlank c := by
  have hlower : isBlank (toLower c) = isBlank c := by
    unfold isBlank toLower
    grind
  have hupper : isBlank (toUpper c) = isBlank c := by
    unfold isBlank toUpper
    grind
  unfold storedChar
  split
  · exact hlower
  · exact hupper
  · split
    · exact hupper
    · rfl
  · rfl

lemma storedChar_ne_zero (S : Bool) (ph : Phase) {c : UInt8} (hc : c ≠ 0) :
    storedChar S ph c ≠ 0 := by
  have hlower : toLower c ≠ 0 := by
    unfold toLower
    grind
  have hupper : toUpper c ≠ 0 := by
    unfold toUpper
    grind
  unfold storedChar
  split
  · exact hlower
  · exact hupper
  · split
    · exact hupper
    · exact hc
  · exact hc

/-- A header value is completed like any other entry. -/
lemma Ending.storeValue {E : Env} (h : Ending p b ty done e) :
    Collecting (p.storeValue E b) b ty (done ++ [e.take 255]) [] := by
  unfold Parser.storeValue
  refine Ending.storeEntry ?_
  by_cases hl : p.mIsContentLengthHeader
  · rw [if_pos hl]
    obtain ⟨hist, hann⟩ := announceLength_eq (p.write b p.mParamPosNonSpace 0)
      ((p.write b p.mParamPosNonSpace 0).entryString E b)
    dsimp only
    rw [hann]
    exact h.terminate.congr rfl rfl rfl rfl rfl
  · rw [if_neg hl]
    by_cases ht : p.mIsTransferEncodingHeader
    · rw [if_pos ht]
      exact h.terminate.congr rfl rfl rfl rfl rfl
    · rw [if_neg ht]
      exact h.congr rfl rfl rfl rfl rfl

/-- A byte joins the unfinished entry. -/
lemma Collecting.storeChar {S : Bool} {c : UInt8} (h : Collecting p b ty done cur) :
    Collecting (p.storeChar S b c (isBlank c)) b ty done (cur ++ [storedChar S p.mPhase c]) := by
  have hstart := h.start
  have hpos := h.pos
  have hdata : ((p.storeChar S b c (isBlank c)).heap b).data =
      Function.update (p.heap b).data p.mParamPos (storedChar S p.mPhase c) := write_data _ _
  refine ⟨h.first, h.last, (write_next _ _).trans h.next, (write_type _ _).trans h.type, ?_, ?_,
    h.start, ?_, ?_⟩
  · rw [hdata]
    exact h.entries.update (.inr (by omega))
  · rw [hdata, show p.mParamPos = 1 + span done + cur.length by omega]
    exact h.stored.concat _
  · show p.mParamPos + 1 = p.mParamStart + _
    rw [List.length_append, List.length_singleton]
    omega
  · show (if isBlank c then p.mParamPosNonSpace else p.mParamPos + 1) = p.mParamStart + _
    split
    · next hc =>
      rw [← isBlank_storedChar S p.mPhase] at hc
      rw [rtrim_concat_blank hc]
      exact h.nonSpace
    · next hc =>
      rw [← isBlank_storedChar S p.mPhase] at hc
      rw [rtrim_concat_char hc, List.length_append, List.length_singleton]
      omega

/-- Of a version text the entry keeps the two digits and the point. -/
lemma Ending.storeVersion {pre : List UInt8} {x y : UInt8}
    (h : Ending p b ty done (pre ++ [47, x, 46, y])) (hpre : pre ≠ []) :
    ∃ p', p.storeVersion b = some p' ∧ Collecting p' b ty (done ++ [[x, 46, y]]) [] ∧
      Steady p p' ∧ p'.mPhase = p.mPhase := by
  have hstart := h.start
  have hns := h.nonSpace
  have hlen : 0 < pre.length := List.length_pos_iff.mpr hpre
  simp only [List.length_append, List.length_cons, List.length_nil, Nat.cast_add, Nat.cast_one,
    Nat.cast_zero] at hns
  obtain ⟨-, h47, hx, h46, hy, -⟩ := stored_append.mp h.stored
  have h1 : p.read b (p.mParamPosNonSpace - 4) = 47 := by
    rw [← h47, Parser.read]
    congr 1
    omega
  have h2 : p.read b (p.mParamPosNonSpace - 3) = x := by
    rw [← hx, Parser.read]
    congr 1
    omega
  have h3 : p.read b (p.mParamPosNonSpace - 2) = 46 := by
    rw [← h46, Parser.read]
    congr 1
    omega
  have h4 : p.read b (p.mParamPosNonSpace - 1) = y := by
    rw [← hy, Parser.read]
    congr 1
    omega
  obtain ⟨w, hw⟩ : ∃ w, w = (((p.write b (p.mParamStart - 1) 3).write b p.mParamStart x).write b
      (p.mParamStart + 1) 46).write b (p.mParamStart + 2) y := ⟨_, rfl⟩
  have heq : p.storeVersion b = some { w with
      mParamPos := p.mParamStart + 4
      mParamStart := p.mParamStart + 4
      mParamPosNonSpace := p.mParamStart + 4 } := by
    have hnot : ¬(p.mParamPosNonSpace - p.mParamStart < 5 ∨
        p.read b (p.mParamPosNonSpace - 4) ≠ 47 ∨ p.read b (p.mParamPosNonSpace - 2) ≠ 46) := by
      rw [h1, h3]
      simp only [ne_eq, not_true_eq_false, or_false]
      omega
    rw [Parser.storeVersion, if_neg hnot, hw]
    dsimp only
    rw [read_write_of_ne _ _ (by omega), h2, read_write_of_ne _ _ (by omega),
      read_write_of_ne _ _ (by omega), read_write_of_ne _ _ (by omega), h4]
  have hdata : (w.heap b).data = Function.update (Function.update (Function.update
      (Function.update (p.heap b).data (p.mParamStart - 1) 3) p.mParamStart x)
      (p.mParamStart + 1) 46) (p.mParamStart + 2) y := by
    rw [hw]
    simp only [write_data]
  refine ⟨_, heq, ⟨?_, ?_, ?_, ?_, ?_, trivial, ?_, ?_, ?_⟩, ?_, ?_⟩
  · rw [hw]
    exact h.first
  · rw [hw]
    exact h.last
  · show (w.heap b).next = none
    rw [hw]
    simp only [write_next, h.next]
  · show (w.heap b).type = ty
    rw [hw]
    simp only [write_type, h.type]
  · show Entries (w.heap b).data 0 (done ++ [[x, 46, y]])
    refine entries_append.mpr ⟨?_, ?_, ⟨?_, ?_, ?_, trivial⟩, trivial⟩
    · refine h.entries.congr fun j h0 hj => ?_
      rw [hdata, Function.update_of_ne (by omega), Function.update_of_ne (by omega),
        Function.update_of_ne (by omega), Function.update_of_ne (by omega)]
    · rw [hdata, Function.update_of_ne (by omega), Function.update_of_ne (by omega),
        Function.update_of_ne (by omega), show 0 + (span done : Int) = p.mParamStart - 1 by omega,
        Function.update_self]
      rfl
    · rw [hdata, Function.update_of_ne (by omega), Function.update_of_ne (by omega),
        show 0 + (span done : Int) + 1 = p.mParamStart by omega, Function.update_self]
    · rw [hdata, Function.update_of_ne (by omega),
        show 0 + (span done : Int) + 1 + 1 = p.mParamStart + 1 by omega, Function.update_self]
    · rw [hdata, show 0 + (span done : Int) + 1 + 1 + 1 = p.mParamStart + 2 by omega,
        Function.update_self]
  · show p.mParamStart + 4 = _
    simp only [span_append, span_cons, span_nil, List.length_cons, List.length_nil]
    omega
  · simp
  · simp [rtrim]
  · rw [hw]
    constructor <;> rfl
  · rw [hw]
    rfl

end Parser

end LowJs.HTTPDirect
