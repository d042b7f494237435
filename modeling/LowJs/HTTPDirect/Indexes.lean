import LowJs.HTTPDirect.Callbacks
import LowJs.HTTPDirect.MessageEnds

/-!
# The indexes of the byte loop

For each byte of the head and of the trailers, the indexes at which `param->data` is read or written and the
lengths stored in front of the entries, in the order of the source. They keep within the block as long as
the three positions are in order, which a header line without a colon upsets: it moves `mParamStart` and
`mParamPos` behind the entry, but not `mParamPosNonSpace`.
-/

open LowJs.HTTPDirect.Parser

namespace LowJs.HTTPDirect

/-- The indexes of `param->data` that are used, and the lengths that are stored. -/
structure Touched where
  indexes : List Int
  lengths : List Int

/-- Other indexes are used before. -/
def Touched.behind (indexes : List Int) (t : Touched) : Touched := { t with indexes := indexes ++ t.indexes }

/-- All indexes lie in a block of `size` bytes, and each length fits into a byte. -/
structure Touched.Fits (size : Int) (t : Touched) : Prop where
  indexes : ∀ i ∈ t.indexes, 0 ≤ i ∧ i < size
  lengths : ∀ n ∈ t.lengths, 0 ≤ n ∧ n ≤ 255

lemma Touched.Fits.behind {size : Int} {t : Touched} (h : t.Fits size) {is : List Int}
    (his : ∀ i ∈ is, 0 ≤ i ∧ i < size) : (t.behind is).Fits size where
  indexes := fun i hi => by
    rcases List.mem_append.mp hi with hi | hi
    · exact his i hi
    · exact h.indexes i hi
  lengths := h.lengths

namespace Parser

/-! ### What is used -/

/-- The string functions on `param->data + mParamStart`, once a NUL is put behind the entry. -/
def stringTouched (E : Env) (p : Parser) (b : Nat) : List Int :=
  p.mParamPosNonSpace ::
    (List.range (((p.write b p.mParamPosNonSpace 0).entryString E b).length + 1)).map
      fun k : Nat => p.mParamStart + k

/-- Lines 955 to 962. -/
def entryTouched (p : Parser) : Touched where
  indexes := [p.mParamStart - 1]
  lengths := [if p.mParamPosNonSpace - p.mParamStart > 255 then 255 else p.mParamPosNonSpace - p.mParamStart]

/-- Lines 816 to 830 and 858 to 872. -/
def versionTouched (p : Parser) (b : Nat) : Touched :=
  let start := p.mParamStart
  let nonSpace := p.mParamPosNonSpace
  if nonSpace - start < 5 then ⟨[], []⟩
  else if p.read b (nonSpace - 4) ≠ 47 then ⟨[nonSpace - 4], []⟩
  else if p.read b (nonSpace - 2) ≠ 46 then ⟨[nonSpace - 4, nonSpace - 2], []⟩
  else
    ⟨[nonSpace - 4, nonSpace - 2, start - 1, start, nonSpace - 3, start + 1, start + 2, nonSpace - 1], [3]⟩

/-- Lines 965 to 971. -/
def charTouched (p : Parser) : Touched := ⟨[p.mParamPos], []⟩

/-- Lines 801 to 976. -/
def byteTouched (E : Env) (isServer : Bool) (p : Parser) (b : Nat) (c : UInt8) : Touched :=
  let isSpace := isBlank c
  if p.mParamStart = p.mParamPos ∧
      (isSpace ∨ ((c = CR ∨ c = LF) ∧ p.mPhase = .firstLine1)) then ⟨[], []⟩
  else
    let c := if p.mEraseNextN then LF else c
    match p.mPhase with
    | .firstLine1 =>
      if isSpace then
        if isServer then p.entryTouched.behind (p.stringTouched E b) else p.versionTouched b
      else p.charTouched
    | .firstLine2 => if isSpace then p.entryTouched else p.charTouched
    | .firstLine3 =>
      if c = LF then if isServer then p.versionTouched b else p.entryTouched
      else p.charTouched
    | .headerValue =>
      if c = LF then
        if p.mIsContentLengthHeader ∨ p.mIsTransferEncodingHeader then
          p.entryTouched.behind (p.stringTouched E b)
        else p.entryTouched
      else p.charTouched
    | .headerKey =>
      if c = 58 then p.entryTouched.behind (p.stringTouched E b)
      else if c = LF then
        if p.mParamStart = p.mParamPos then ⟨[p.mParamStart - 1], []⟩
        else ⟨[p.mParamStart - 1, p.mParamPosNonSpace], [p.mParamPosNonSpace - p.mParamStart]⟩
      else p.charTouched
    | _ => p.charTouched

/-- Lines 703 to 719: the unfinished entry is copied to the start of the new block. -/
def spillTouched (p : Parser) : List Int :=
  let len := (p.mParamPos - p.mParamStart).toNat
  ((List.range len).map fun k : Nat => p.mParamStart + k) ++ ((List.range len).map fun k : Nat => 1 + (k : Int)) ++
    [p.mParamStart - 1]

/-- Lines 673 to 976 on a byte. -/
def touched (E : Env) (isServer : Bool) (p : Parser) (c : UInt8) : Touched :=
  if p.mEraseNextN ∧ c = LF ∨ ¬p.InSection then ⟨[], []⟩
  else
    let p := p.marked c
    match p.allocParam E with
    | .param b => p.byteTouched E isServer b c
    | .linked b q => (q.byteTouched E isServer b c).behind (if p.mParamLast = none then [] else p.spillTouched)
    | _ => ⟨[], []⟩

/-- Lines 728 to 756: the indexes of `mChunkedHeaderLine` that are written. -/
def lineTouched (p : Parser) (c : UInt8) : List Nat :=
  if p.mEraseNextN ∧ c = LF ∨ p.mPhase ≠ .chunkHeader ∨ p.mChunkedHeaderLine.length = 10 then []
  else if (c = CR ∨ c = LF) ∧ p.mChunkedHeaderLine = [] then []
  else [p.mChunkedHeaderLine.length]

/-- The positions in the block that is in use are in order, and a chunk size line keeps within its
buffer. -/
structure Indexed (E : Env) (p : Parser) : Prop where
  start : p.mParamLast ≠ none → 1 ≤ p.mParamStart
  nonSpace : p.mParamLast ≠ none → p.mParamStart ≤ p.mParamPosNonSpace
  pos : p.mParamLast ≠ none → p.mParamPosNonSpace ≤ p.mParamPos
  size : p.mParamLast ≠ none → p.mParamPos < E.sizeofData
  line : p.mPhase = .chunkHeader → p.mChunkedHeaderLine.length ≤ 10

/-- The byte ends a line of the header or of the trailers in which no colon has come. -/
def EndsKey (p : Parser) (c : UInt8) : Prop :=
  p.mPhase = .headerKey ∧ (if p.mEraseNextN then LF else c) = LF ∧ p.mParamStart ≠ p.mParamPos

/-- A line without a colon is stored: it ends, and there is a block for it. -/
def Colonless (E : Env) (p : Parser) (c : UInt8) : Prop :=
  ¬(p.mEraseNextN ∧ c = LF) ∧ (p.marked c).EndsKey c ∧ p.mParamLast ≠ none ∧
    (p.mParamPos + 2 < E.sizeofData ∨ p.mParamStart ≠ 1 ∧ (E.lowAlloc p.allocs).isSome)

variable {E : Env} {S : Bool} {p q : Parser} {b : Nat} {c : UInt8}

/-! ### One byte -/

/-- The positions in a block that has room for another byte. -/
structure Room (E : Env) (p : Parser) : Prop where
  start : 1 ≤ p.mParamStart
  nonSpace : p.mParamStart ≤ p.mParamPosNonSpace
  pos : p.mParamPosNonSpace ≤ p.mParamPos
  size : p.mParamPos + 1 < E.sizeofData

lemma Room.congr (h : Room E p) (hstart : q.mParamStart = p.mParamStart)
    (hns : q.mParamPosNonSpace = p.mParamPosNonSpace) (hpos : q.mParamPos = p.mParamPos) : Room E q := by
  obtain ⟨h1, h2, h3, h4⟩ := h
  exact ⟨by rwa [hstart], by rwa [hstart, hns], by rwa [hns, hpos], by rwa [hpos]⟩

lemma cString_length_le {data : Int → UInt8} {pos : Int} {k : Nat} (h0 : data (pos + k) = 0) (n : Nat) :
    (cString data pos n).length ≤ k := by
  induction k generalizing pos n with
  | zero =>
    rw [Nat.cast_zero, add_zero] at h0
    cases n with
    | zero => exact le_rfl
    | succ n => simp [cString, h0]
  | succ k ih =>
    cases n with
    | zero => exact Nat.zero_le _
    | succ n =>
      rw [cString]
      split
      · exact Nat.zero_le _
      · have hrest : data (pos + 1 + k) = 0 := by
          rw [← h0]
          congr 1
          push_cast
          omega
        exact Nat.succ_le_succ (ih hrest n)

lemma Room.string (h : Room E p) : ∀ i ∈ p.stringTouched E b, 0 ≤ i ∧ i < E.sizeofData := by
  obtain ⟨h1, h2, h3, h4⟩ := h
  have hlen : ((p.write b p.mParamPosNonSpace 0).entryString E b).length ≤
      (p.mParamPosNonSpace - p.mParamStart).toNat := by
    apply cString_length_le
    have hat : p.mParamStart + ((p.mParamPosNonSpace - p.mParamStart).toNat : Int) = p.mParamPosNonSpace := by
      omega
    show (Function.update p.heap b _ b).data _ = 0
    rw [Function.update_self]
    show Function.update _ _ _ (p.mParamStart + _) = 0
    rw [hat, Function.update_self]
  intro i hi
  rcases List.mem_cons.mp hi with rfl | hi
  · omega
  · obtain ⟨k, hk, rfl⟩ := List.mem_map.mp hi
    have hk := List.mem_range.mp hk
    omega

lemma Room.entry (h : Room E p) : p.entryTouched.Fits E.sizeofData := by
  obtain ⟨h1, h2, h3, h4⟩ := h
  constructor
  · intro i hi
    have hi := List.mem_singleton.mp hi
    omega
  · intro n hn
    have hn := List.mem_singleton.mp hn
    split at hn <;> omega

lemma Room.version (h : Room E p) : (p.versionTouched b).Fits E.sizeofData := by
  obtain ⟨h1, h2, h3, h4⟩ := h
  unfold versionTouched
  dsimp only
  split
  · exact ⟨(fun i hi => by cases hi), fun n hn => by cases hn⟩
  · split
    · refine ⟨fun i hi => ?_, fun n hn => by cases hn⟩
      have hi := List.mem_singleton.mp hi
      omega
    · split
      · refine ⟨fun i hi => ?_, fun n hn => by cases hn⟩
        simp only [List.mem_cons, List.not_mem_nil, or_false] at hi
        omega
      · refine ⟨fun i hi => ?_, fun n hn => ?_⟩
        · simp only [List.mem_cons, List.not_mem_nil, or_false] at hi
          omega
        · have hn := List.mem_singleton.mp hn
          omega

lemma Room.char (h : Room E p) : p.charTouched.Fits E.sizeofData := by
  obtain ⟨h1, h2, h3, h4⟩ := h
  refine ⟨fun i hi => ?_, fun n hn => by cases hn⟩
  have hi := List.mem_singleton.mp hi
  omega

/-- The byte keeps within the block. -/
lemma Room.byte (h : Room E p) (hcolon : ¬p.EndsKey c) :
    (p.byteTouched E S b c).Fits E.sizeofData := by
  have hnone : (⟨[], []⟩ : Touched).Fits E.sizeofData :=
    ⟨(fun i hi => by cases hi), fun n hn => by cases hn⟩
  have hstart : (⟨[p.mParamStart - 1], []⟩ : Touched).Fits E.sizeofData := by
    obtain ⟨h1, h2, h3, h4⟩ := h
    refine ⟨fun i hi => ?_, fun n hn => by cases hn⟩
    have hi := List.mem_singleton.mp hi
    omega
  rw [byteTouched]
  dsimp only
  unfold EndsKey at hcolon
  generalize (if p.mEraseNextN = true then LF else c) = c' at hcolon ⊢
  split
  · exact hnone
  · split
    · split
      · split
        · exact h.entry.behind h.string
        · exact h.version
      · exact h.char
    · split
      · exact h.entry
      · exact h.char
    · split
      · split
        · exact h.version
        · exact h.entry
      · exact h.char
    · split
      · split
        · exact h.entry.behind h.string
        · exact h.entry
      · exact h.char
    · next hkey =>
      split
      · exact h.entry.behind h.string
      · split
        · next hlf =>
          split
          · exact hstart
          · next hne => exact absurd ⟨hkey, hlf, hne⟩ hcolon
        · exact h.char
    · exact h.char

lemma indexed_of (h1 : 1 ≤ p.mParamStart) (h2 : p.mParamStart ≤ p.mParamPosNonSpace)
    (h3 : p.mParamPosNonSpace ≤ p.mParamPos) (h4 : p.mParamPos < E.sizeofData)
    (hline : p.mPhase = .chunkHeader → p.mChunkedHeaderLine.length ≤ 10) : Indexed E p :=
  ⟨fun _ => h1, fun _ => h2, fun _ => h3, fun _ => h4, hline⟩

lemma Room.indexed (h : Room E p) (hline : p.mPhase = .chunkHeader → p.mChunkedHeaderLine.length ≤ 10) :
    Indexed E p := by
  obtain ⟨h1, h2, h3, h4⟩ := h
  exact indexed_of h1 h2 h3 (by omega) hline

lemma Room.storeEntry (h : Room E p) (hp : p.mPhase ≠ .chunkHeader) : Indexed E (p.storeEntry b) := by
  obtain ⟨h1, h2, h3, h4⟩ := h
  unfold Parser.storeEntry
  dsimp only
  split
  · exact indexed_of (by dsimp only; omega) le_rfl le_rfl (by dsimp only; omega) fun h => absurd h hp
  · exact indexed_of (by dsimp only; omega) le_rfl le_rfl (by dsimp only; omega) fun h => absurd h hp

lemma Room.storeVersion (h : Room E p) (hp : p.mPhase ≠ .chunkHeader) (hq : p.storeVersion b = some q) :
    Indexed E q := by
  obtain ⟨h1, h2, h3, h4⟩ := h
  unfold Parser.storeVersion at hq
  dsimp only at hq
  split at hq
  · cases hq
  · next hlen =>
    have hlen := not_or.mp hlen
    cases hq
    exact indexed_of (by dsimp only; omega) le_rfl le_rfl (by dsimp only; omega) fun h => absurd h hp

lemma Room.storeChar (h : Room E p) (hp : p.mPhase ≠ .chunkHeader) (isSpace : Bool) :
    Indexed E (p.storeChar S b c isSpace) := by
  obtain ⟨h1, h2, h3, h4⟩ := h
  unfold Parser.storeChar
  dsimp only
  refine indexed_of h1 ?_ ?_ (by dsimp only; omega) fun h => absurd h hp
  · show p.mParamStart ≤ if isSpace = true then p.mParamPosNonSpace else p.mParamPos + 1
    split <;> omega
  · show (if isSpace = true then p.mParamPosNonSpace else p.mParamPos + 1) ≤ p.mParamPos + 1
    split <;> omega

lemma Room.storeValue (h : Room E p) : Indexed E (p.storeValue E b) := by
  rw [Parser.storeValue]
  split
  · refine Room.storeEntry (h.congr ?_ ?_ ?_) (by simp)
    all_goals
      dsimp only [announceLength]
      split <;> rfl
  · split
    · exact Room.storeEntry (h.congr rfl rfl rfl) (by simp)
    · exact Room.storeEntry (h.congr rfl rfl rfl) (by simp)

lemma Room.endSection (h : Room E p) : Indexed E (p.endSection b) := by
  have hroom : ∀ q : Parser, q.mParamStart = p.mParamStart → q.mParamPosNonSpace = p.mParamPosNonSpace →
      q.mParamPos = p.mParamPos → (q.mPhase = .chunkHeader → q.mChunkedHeaderLine = []) → Indexed E q := by
    intro q h1 h2 h3 hline
    refine (h.congr h1 h2 h3).indexed fun hq => ?_
    rw [hline hq]
    exact Nat.zero_le _
  rw [Parser.endSection]
  dsimp only
  split
  · exact hroom _ rfl rfl rfl fun h => by cases h
  · split
    · exact hroom _ rfl rfl rfl fun _ => rfl
    · split
      · exact hroom _ rfl rfl rfl fun h => by cases h
      · exact hroom _ rfl rfl rfl fun h => by cases h

/-- The byte leaves the positions in order. -/
lemma Room.paramByte (h : Room E p) (hp : p.mPhase ≠ .chunkHeader) (hcolon : ¬p.EndsKey c) :
    Indexed E (p.paramByte E S b c).2 := by
  have hversion (q : Parser) (hroom : Room E q) (hphase : q.mPhase ≠ .chunkHeader) :
      Indexed E (q.versionExit b).2 := by
    rw [versionExit]
    cases hv : q.storeVersion b with
    | none => exact hroom.indexed fun hq => absurd hq hphase
    | some q' => exact hroom.storeVersion hphase hv
  simp only [Parser.paramByte]
  unfold EndsKey at hcolon
  generalize (if p.mEraseNextN = true then LF else c) = c' at hcolon ⊢
  split
  · exact h.indexed fun hq => absurd hq hp
  · split
    · split
      · split
        · exact Room.storeEntry (h.congr rfl rfl rfl) (by simp)
        · exact hversion { p with mPhase := .firstLine2 } (h.congr rfl rfl rfl) (by simp)
      · exact h.storeChar hp _
    · split
      · exact Room.storeEntry (h.congr rfl rfl rfl) (by simp)
      · exact h.storeChar hp _
    · split
      · split
        · exact hversion { p with mPhase := .headerKey } (h.congr rfl rfl rfl) (by simp)
        · exact Room.storeEntry (h.congr rfl rfl rfl) (by simp)
      · exact h.storeChar hp _
    · split
      · exact h.storeValue
      · exact h.storeChar hp _
    · next hkey =>
      split
      · exact Room.storeEntry (h.congr rfl rfl rfl) (by simp)
      · split
        · next hlf =>
          split
          · exact h.endSection
          · next hne => exact absurd ⟨hkey, hlf, hne⟩ hcolon
        · exact h.storeChar hp _
    · exact h.storeChar hp _

/-! ### What is written is among what is used -/

lemma data_write {i j : Int} (hij : i ≠ j) (v : UInt8) (b' : Nat) :
    ((p.write b j v).heap b').data i = (p.heap b').data i := by
  rw [Parser.write]
  dsimp only
  by_cases hb : b' = b
  · subst hb
    rw [Function.update_self]
    exact Function.update_of_ne hij _ _
  · rw [Function.update_of_ne hb]

lemma data_storeEntry {i : Int} (hi : i ∉ p.entryTouched.indexes) (b' : Nat) :
    ((p.storeEntry b).heap b').data i = (p.heap b').data i :=
  data_write (fun h => hi (List.mem_singleton.mpr h)) _ b'

lemma data_storeVersion {i : Int} (hi : i ∉ (p.versionTouched b).indexes) (hq : p.storeVersion b = some q)
    (b' : Nat) : (q.heap b').data i = (p.heap b').data i := by
  unfold Parser.storeVersion at hq
  dsimp only at hq
  split at hq
  · cases hq
  · next hlen =>
    obtain ⟨hlen, h4, h2⟩ := by simpa only [not_or] using hlen
    unfold Parser.versionTouched at hi
    dsimp only at hi
    rw [if_neg hlen, if_neg h4, if_neg h2] at hi
    simp only [List.mem_cons, List.not_mem_nil, or_false, not_or] at hi
    obtain ⟨-, -, h1, hstart, -, h3, h5, -⟩ := hi
    cases hq
    exact (data_write h5 _ b').trans ((data_write h3 _ b').trans
      ((data_write hstart _ b').trans (data_write h1 _ b')))

lemma data_storeChar {i : Int} (hi : i ∉ p.charTouched.indexes) (isSpace : Bool) (b' : Nat) :
    ((p.storeChar S b c isSpace).heap b').data i = (p.heap b').data i :=
  data_write (fun h => hi (List.mem_singleton.mpr h)) _ b'

/-- An entry behind which a NUL has been put is stored. -/
lemma data_string {i : Int} (hi : i ∉ (p.entryTouched.behind (p.stringTouched E b)).indexes)
    (hq : q.heap = (p.write b p.mParamPosNonSpace 0).heap) (hstart : q.mParamStart = p.mParamStart) (b' : Nat) :
    ((q.storeEntry b).heap b').data i = (p.heap b').data i := by
  obtain ⟨hs, he⟩ := not_or.mp (mt List.mem_append.mpr hi)
  have he : i ∉ q.entryTouched.indexes := by
    show i ∉ [q.mParamStart - 1]
    rwa [hstart]
  rw [data_storeEntry he, hq]
  exact data_write (fun h => hs (List.mem_cons.mpr (.inl h))) _ b'

lemma data_storeValue {i : Int}
    (hi : i ∉ (if p.mIsContentLengthHeader ∨ p.mIsTransferEncodingHeader then
      p.entryTouched.behind (p.stringTouched E b) else p.entryTouched).indexes) (b' : Nat) :
    ((p.storeValue E b).heap b').data i = (p.heap b').data i := by
  rw [Parser.storeValue]
  split
  · next hlen =>
    rw [if_pos (.inl hlen)] at hi
    dsimp only [announceLength]
    split
    · exact data_string hi rfl rfl b'
    · exact data_string hi rfl rfl b'
  · next hlen =>
    split
    · next hte =>
      rw [if_pos (.inr hte)] at hi
      exact data_string hi rfl rfl b'
    · next hte =>
      rw [if_neg (not_or.mpr ⟨hlen, hte⟩)] at hi
      exact data_storeEntry (p := { p with mPhase := .headerKey }) hi b'

lemma data_endSection {i : Int} (hi : i ∉ [p.mParamStart - 1]) (b' : Nat) :
    ((p.endSection b).heap b').data i = (p.heap b').data i := by
  have hw : ((p.write b (p.mParamStart - 1) 0).heap b').data i = (p.heap b').data i :=
    data_write (fun h => hi (List.mem_singleton.mpr h)) _ b'
  rw [Parser.endSection]
  dsimp only
  split
  · exact hw
  · split
    · exact hw
    · split
      · exact hw
      · exact hw

/-- A byte changes the blocks at the indexes listed for it only. -/
lemma data_paramByte {i : Int} (hi : i ∉ (p.byteTouched E S b c).indexes) (b' : Nat) :
    ((p.paramByte E S b c).2.heap b').data i = (p.heap b').data i := by
  have hversion {q : Parser} (hq : q.heap = p.heap)
      (hv : i ∉ (q.versionTouched b).indexes) :
      ((q.versionExit b).2.heap b').data i = (p.heap b').data i := by
    rw [← hq, versionExit]
    cases hstore : q.storeVersion b with
    | none => rfl
    | some q' => exact data_storeVersion hv hstore b'
  unfold byteTouched at hi
  rw [Parser.paramByte]
  dsimp only at hi ⊢
  generalize (if p.mEraseNextN = true then LF else c) = c' at hi ⊢
  split
  · rfl
  · next hblank =>
    rw [if_neg hblank] at hi
    cases hphase : p.mPhase with
    | firstLine1 =>
      rw [hphase] at hi
      dsimp only at hi ⊢
      split
      · next hspace =>
        rw [if_pos hspace] at hi
        split
        · next hserver =>
          rw [if_pos hserver] at hi
          exact data_string hi rfl rfl b'
        · next hserver =>
          rw [if_neg hserver] at hi
          exact hversion (q := { p with mPhase := .firstLine2 }) rfl hi
      · next hspace =>
        rw [if_neg hspace] at hi
        exact data_storeChar hi _ b'
    | firstLine2 =>
      rw [hphase] at hi
      dsimp only at hi ⊢
      split
      · next hspace =>
        rw [if_pos hspace] at hi
        exact data_storeEntry (p := { p with mPhase := .firstLine3 }) hi b'
      · next hspace =>
        rw [if_neg hspace] at hi
        exact data_storeChar hi _ b'
    | firstLine3 =>
      rw [hphase] at hi
      dsimp only at hi ⊢
      split
      · next hlf =>
        rw [if_pos hlf] at hi
        split
        · next hserver =>
          rw [if_pos hserver] at hi
          exact hversion (q := { p with mPhase := .headerKey }) rfl hi
        · next hserver =>
          rw [if_neg hserver] at hi
          exact data_storeEntry (p := { p with mPhase := .headerKey }) hi b'
      · next hlf =>
        rw [if_neg hlf] at hi
        exact data_storeChar hi _ b'
    | headerValue =>
      rw [hphase] at hi
      dsimp only at hi ⊢
      split
      · next hlf =>
        rw [if_pos hlf] at hi
        exact data_storeValue hi b'
      · next hlf =>
        rw [if_neg hlf] at hi
        exact data_storeChar hi _ b'
    | headerKey =>
      rw [hphase] at hi
      dsimp only at hi ⊢
      split
      · next hcolon =>
        rw [if_pos hcolon] at hi
        exact data_string hi rfl rfl b'
      · next hcolon =>
        rw [if_neg hcolon] at hi
        split
        · next hlf =>
          rw [if_pos hlf] at hi
          split
          · next hempty =>
            rw [if_pos hempty] at hi
            exact data_endSection hi b'
          · next hempty =>
            rw [if_neg hempty] at hi
            simp only [List.mem_cons, List.not_mem_nil, or_false, not_or] at hi
            exact (data_write hi.2 _ b').trans (data_write hi.1 _ b')
        · next hlf =>
          rw [if_neg hlf] at hi
          exact data_storeChar hi _ b'
    | chunkHeader | body | sendingResponse =>
      rw [hphase] at hi
      exact data_storeChar hi _ b'

/-! ### The block of a byte -/

lemma Indexed.congr (h : Indexed E p) (hlast : q.mParamLast = p.mParamLast ∨ q.mParamLast = none)
    (hpos : q.mParamStart = p.mParamStart ∧ q.mParamPosNonSpace = p.mParamPosNonSpace ∧
      q.mParamPos = p.mParamPos)
    (hline : q.mPhase = .chunkHeader → q.mChunkedHeaderLine.length ≤ 10) : Indexed E q := by
  obtain ⟨hstart, hns, hpos⟩ := hpos
  have hold (hq : q.mParamLast ≠ none) : p.mParamLast ≠ none := by
    rcases hlast with hlast | hlast
    · rwa [hlast] at hq
    · exact absurd hlast hq
  refine ⟨fun hq => ?_, fun hq => ?_, fun hq => ?_, fun hq => ?_, hline⟩
  · rw [hstart]
    exact h.start (hold hq)
  · rw [hstart, hns]
    exact h.nonSpace (hold hq)
  · rw [hns, hpos]
    exact h.pos (hold hq)
  · rw [hpos]
    exact h.size (hold hq)

lemma indexed_init (p : Parser) : Indexed E p.init :=
  ⟨fun h => absurd rfl h, fun h => absurd rfl h, fun h => absurd rfl h, fun h => absurd rfl h, fun h => by cases h⟩

lemma Indexed.room (h : Indexed E p) (hlast : p.mParamLast = some b)
    (hfit : p.mParamPos + 2 < E.sizeofData) : Room E p := by
  have hne : p.mParamLast ≠ none := by simp [hlast]
  exact ⟨h.start hne, h.nonSpace hne, h.pos hne, by omega⟩

lemma room_firstBlock (hsize : 2 < E.sizeofData) (p : Parser) (mem : Int → UInt8) :
    Room E (p.firstBlock mem) := ⟨le_rfl, le_rfl, le_rfl, hsize⟩

/-- The new block has room, as something stands before the unfinished entry in the old one. -/
lemma Indexed.spill (h : Indexed E p) (hlast : p.mParamLast = some b) (hstart : p.mParamStart ≠ 1) (new : Nat)
    (type : ParamDataType) (mem : Int → UInt8) : Room E (p.spill new type mem b) := by
  have hne : p.mParamLast ≠ none := by simp [hlast]
  have h1 := h.start hne
  have h2 := h.nonSpace hne
  have h3 := h.pos hne
  have h4 := h.size hne
  refine ⟨le_rfl, ?_, ?_, ?_⟩
  · show 1 ≤ p.mParamPosNonSpace - (p.mParamStart - 1)
    omega
  · show p.mParamPosNonSpace - (p.mParamStart - 1) ≤ p.mParamPos - (p.mParamStart - 1)
    omega
  · show p.mParamPos - (p.mParamStart - 1) + 1 < E.sizeofData
    omega

lemma Indexed.spillTouched (h : Indexed E p) (hlast : p.mParamLast = some b) :
    ∀ i ∈ p.spillTouched, 0 ≤ i ∧ i < E.sizeofData := by
  have hne : p.mParamLast ≠ none := by simp [hlast]
  have h1 := h.start hne
  have h2 := h.nonSpace hne
  have h3 := h.pos hne
  have h4 := h.size hne
  intro i hi
  unfold Parser.spillTouched at hi
  simp only [List.mem_append, List.mem_map, List.mem_range, List.mem_singleton] at hi
  rcases hi with (⟨k, hk, rfl⟩ | ⟨k, hk, rfl⟩) | rfl
  · omega
  · omega
  · omega

/-- Lines 685 to 725: the block that the byte goes to has room. -/
lemma Indexed.alloc (h : Indexed E p) (hsize : 2 < E.sizeofData)
    (hcolon : p.mParamLast ≠ none → p.mParamPos + 2 < E.sizeofData ∨
      p.mParamStart ≠ 1 ∧ (E.lowAlloc p.allocs).isSome → ¬p.EndsKey c) :
    match p.allocParam E with
    | .param _ => Room E p ∧ ¬p.EndsKey c
    | .linked _ q => Room E q ∧ ¬q.EndsKey c ∧
        ∀ i ∈ (if p.mParamLast = none then [] else p.spillTouched), 0 ≤ i ∧ i < E.sizeofData
    | .null q => Indexed E q
    | .err q => Indexed E q := by
  have hstep := allocParam_step E p
  generalize p.allocParam E = r at hstep
  cases hstep with
  | param b hlast hfit => exact ⟨h.room hlast hfit, hcolon (by simp [hlast]) (.inl hfit)⟩
  | first mem hlast hmem =>
    refine ⟨room_firstBlock hsize p mem, fun hends => hends.2.2 rfl, fun i hi => ?_⟩
    rw [if_pos hlast] at hi
    cases hi
  | spill b mem hlast hfull hmem hstart =>
    refine ⟨h.spill hlast hstart _ _ _, fun hends => ?_, fun i hi => ?_⟩
    · refine hcolon (by simp [hlast]) (.inr ⟨hstart, by simp [hmem]⟩) ⟨hends.1, hends.2.1, ?_⟩
      have hne : (1 : Int) ≠ p.mParamPos - (p.mParamStart - 1) := hends.2.2
      omega
    · rw [if_neg (by simp [hlast])] at hi
      exact h.spillTouched hlast i hi
  | null hmem => exact h.congr (.inl rfl) ⟨rfl, rfl, rfl⟩ h.line
  | err b hlast hfull hmem hstart => exact h.congr (.inl rfl) ⟨rfl, rfl, rfl⟩ h.line

lemma Indexed.marked (h : Indexed E p) : Indexed E (p.marked c) :=
  h.congr (.inl rfl) ⟨rfl, rfl, rfl⟩ h.line

/-- What is used for a byte keeps within the block. -/
lemma Indexed.touched (h : Indexed E p) (hsize : 2 < E.sizeofData) (hcolon : ¬p.Colonless E c) :
    (p.touched E S c).Fits E.sizeofData := by
  have hnone : (⟨[], []⟩ : Touched).Fits E.sizeofData :=
    ⟨(fun i hi => by cases hi), fun n hn => by cases hn⟩
  rw [Parser.touched]
  split
  · exact hnone
  · next hskip =>
    have halloc := h.marked.alloc (c := c) hsize
      fun hlast hroom hends => hcolon ⟨(not_or.mp hskip).1, hends, hlast, hroom⟩
    dsimp only
    generalize (p.marked c).allocParam E = r at halloc
    cases r with
    | param b => exact halloc.1.byte halloc.2
    | linked b q => exact (halloc.1.byte halloc.2.1).behind halloc.2.2
    | null q => exact hnone
    | err q => exact hnone

lemma Indexed.lineTouched (h : Indexed E p) : ∀ k ∈ p.lineTouched c, k < 10 := by
  intro k hk
  unfold Parser.lineTouched at hk
  split at hk
  · cases hk
  · next hline =>
    simp only [not_or, not_not] at hline
    have hle := h.line hline.2.1
    split at hk
    · cases hk
    · have hk := List.mem_singleton.mp hk
      omega

end Parser

namespace LowHTTPDirect

variable {E : Env} {s t : LowHTTPDirect} {c : UInt8} {rest : List UInt8}

/-- Before and after the byte the positions are in order, and all indexes used for it and all lengths stored
for it fit. -/
def InBounds (E : Env) (s : LowHTTPDirect) : List UInt8 → Prop
  | [] => True
  | c :: rest =>
    s.parser.Indexed E ∧ (s.parser.touched E s.mIsServer c).Fits E.sizeofData ∧
      (∀ k ∈ s.parser.lineTouched c, k < 10) ∧ (s.socketByte E c rest).2.1.parser.Indexed E

/-- The byte stores a line without a colon. -/
def Keyed (E : Env) (s : LowHTTPDirect) : List UInt8 → Prop
  | [] => False
  | c :: _ => s.parser.Colonless E c

lemma indexed_sectionEnded (h : s.parser.Indexed E) : s.sectionEnded.parser.Indexed E := by
  rw [sectionEnded]
  dsimp only
  split
  · show (if _ then _ else _ : LowHTTPDirect).parser.Indexed E
    split
    · exact indexed_init _
    · exact h
  · exact h

lemma indexed_bodyRead (h : s.parser.Indexed E) :
    s.bodyRead.parser.Indexed E := by
  rw [bodyRead]
  split
  · split
    · exact h.congr (.inl rfl) ⟨rfl, rfl, rfl⟩ fun _ => Nat.zero_le _
    · dsimp only
      split
      · exact indexed_init _
      · exact h.congr (.inl rfl) ⟨rfl, rfl, rfl⟩ fun hc => by cases hc
  · exact h

lemma indexed_bodyBytes (h : s.parser.Indexed E) (hbody : s.parser.mPhase = .body) (data : List UInt8) :
    (s.bodyBytes data).2.1.parser.Indexed E := by
  rw [bodyBytes]
  dsimp only
  split
  · exact h
  · split
    · exact h
    · split
      · exact h
      · refine indexed_bodyRead (h.congr (.inl rfl) ⟨rfl, rfl, rfl⟩ fun hc => ?_)
        have hc : s.parser.mPhase = .chunkHeader := hc
        rw [hbody] at hc
        cases hc

lemma indexed_paramBytes (h : s.parser.Indexed E) (hsize : 2 < E.sizeofData)
    (hsec : s.parser.mPhase ≠ .chunkHeader)
    (hcolon : s.parser.mParamLast ≠ none → s.parser.mParamPos + 2 < E.sizeofData ∨
      s.parser.mParamStart ≠ 1 ∧ (E.lowAlloc s.parser.allocs).isSome → ¬s.parser.EndsKey c) :
    (s.paramBytes E c).2.parser.Indexed E := by
  have hstore (t : LowHTTPDirect) (b : Nat) (hroom : Room E t.parser) (hp : t.parser.mPhase ≠ .chunkHeader)
      (hends : ¬t.parser.EndsKey c) :
      (t.afterParam (t.parser.paramByte E t.mIsServer b c)).2.parser.Indexed E := by
    have hbyte := hroom.paramByte (S := t.mIsServer) (b := b) hp hends
    generalize t.parser.paramByte E t.mIsServer b c = r at hbyte
    obtain ⟨e, p⟩ := r
    cases e with
    | next => exact hbyte
    | err => exact hbyte
    | ended => exact indexed_sectionEnded (s := { t with parser := p }) hbyte
  have halloc := h.alloc hsize hcolon
  have hphase {b : Nat} {q : Parser} (hq : s.parser.allocParam E = .linked b q) : q.mPhase ≠ .chunkHeader := by
    rw [(allocParam_linked E _ hq).2]
    exact hsec
  rw [paramBytes_def]
  cases hr : s.parser.allocParam E with
  | param b =>
    rw [hr] at halloc
    exact hstore { s with parser.history := s.parser.history.take [c] } b (halloc.1.congr rfl rfl rfl) hsec halloc.2
  | linked b q =>
    rw [hr] at halloc
    have hchunk := hphase hr
    exact hstore (unlock { s.lock with parser := { q with history := q.history.take [c] } }) b
      (halloc.1.congr rfl rfl rfl) hchunk halloc.2.1
  | null q =>
    rw [hr] at halloc
    exact halloc
  | err q =>
    rw [hr] at halloc
    exact halloc

lemma indexed_socketByte (h : s.parser.Indexed E) (hsize : 2 < E.sizeofData) (hcolon : ¬s.parser.Colonless E c) :
    (s.socketByte E c rest).2.1.parser.Indexed E := by
  by_cases hskip : s.parser.mEraseNextN ∧ c = LF
  · have heq : s.socketByte E c rest = (.next, { s with
        parser.mEraseNextN := false, parser.history := s.parser.history.skip }, rest) := if_pos hskip
    rw [heq]
    exact h.congr (.inl rfl) ⟨rfl, rfl, rfl⟩ h.line
  by_cases hbody : s.parser.mPhase = .body
  · rw [socketByte_body hskip hbody]
    exact indexed_bodyBytes (s := { s with parser := s.parser.marked c }) h.marked hbody _
  by_cases hsend : s.parser.mPhase = .sendingResponse
  · rw [socketByte_sendingResponse hskip hsend]
    exact h.marked
  by_cases hchunk : s.parser.mPhase = .chunkHeader
  · rw [socketByte_chunkHeader hskip hchunk]
    have hlen := h.line hchunk
    have hstep := chunkByte_step { s.parser.marked c with history := s.parser.history.take [c] } c hlen
    generalize chunkByte { s.parser.marked c with history := s.parser.history.take [c] } c = r at hstep
    cases hstep with
    | blank hc hline => exact h.congr (.inl rfl) ⟨rfl, rfl, rfl⟩ h.line
    | char hc hlt =>
      refine h.congr (.inl rfl) ⟨rfl, rfl, rfl⟩ fun _ => ?_
      show (s.parser.mChunkedHeaderLine ++ [c]).length ≤ 10
      rw [List.length_append]
      exact Nat.succ_le_of_lt hlt
    | last hc hline n hn h0 => exact h.congr (.inl rfl) ⟨rfl, rfl, rfl⟩ fun hp => by cases hp
    | chunk hc hline n hn h0 => exact h.congr (.inl rfl) ⟨rfl, rfl, rfl⟩ fun hp => by cases hp
    | tooLong hlen => exact h.congr (.inl rfl) ⟨rfl, rfl, rfl⟩ h.line
    | unreadable hc hline hn => exact h.congr (.inl rfl) ⟨rfl, rfl, rfl⟩ h.line
  · rw [socketByte_section hskip ⟨hbody, hchunk, hsend⟩]
    exact indexed_paramBytes (s := { s with parser := s.parser.marked c }) h.marked hsize hchunk
      fun hlast hroom hends => hcolon ⟨hskip, hends, hlast, hroom⟩

lemma inBounds_of_indexed (h : s.parser.Indexed E) (hsize : 2 < E.sizeofData) {data : List UInt8}
    (hkeyed : ¬s.Keyed E data) : s.InBounds E data := by
  cases data with
  | nil => trivial
  | cons c rest =>
    exact ⟨h, h.touched hsize hkeyed, h.lineTouched, indexed_socketByte h hsize hkeyed⟩

/-! ### A line without a colon -/

lemma paramByte_endsKey {p : Parser} {S : Bool} {b : Nat} (h : p.EndsKey c) :
    p.paramByte E S b c = (.next, p.storeKeyOnly b) := by
  obtain ⟨hkey, hlf, hne⟩ := h
  simp only [Parser.paramByte]
  rw [if_neg fun hn => hne hn.1, hlf, hkey]
  dsimp only
  rw [if_neg (by decide), if_pos rfl, if_neg hne]

/-- A line without a colon leaves `mParamPosNonSpace` behind. -/
lemma not_inBounds_of_keyed {data : List UInt8} (h : s.Keyed E data) : ¬s.InBounds E data := by
  cases data with
  | nil => exact h.elim
  | cons c rest =>
    obtain ⟨hskip, hends, hlast, hroom⟩ := h
    have hkey : s.parser.mPhase = .headerKey := hends.1
    have hsec : s.parser.InSection := by simp [InSection, hkey]
    -- the entry is stored in the block that is there, or in a new one behind it
    have hafter (t : LowHTTPDirect) (b : Nat) (ht : t.parser.EndsKey c) (hl : t.parser.mParamLast ≠ none) :
        ¬(t.afterParam (t.parser.paramByte E t.mIsServer b c)).2.parser.Indexed E := by
      rw [paramByte_endsKey ht]
      intro hindexed
      have hle := hindexed.nonSpace hl
      have hle : t.parser.mParamPosNonSpace + 2 ≤ t.parser.mParamPosNonSpace := hle
      omega
    rintro ⟨-, -, -, hbyte⟩
    rw [socketByte_section hskip hsec] at hbyte
    obtain ⟨b, hb⟩ := Option.ne_none_iff_exists'.mp hlast
    rw [paramBytes_def] at hbyte
    dsimp only at hbyte
    by_cases hfit : s.parser.mParamPos + 2 < E.sizeofData
    · have heq : (s.parser.marked c).allocParam E = .param b := by
        simp [allocParam, Parser.marked, hb, hfit]
      rw [heq] at hbyte
      exact hafter { s with
        parser := { s.parser.marked c with history := (s.parser.marked c).history.take [c] } } b hends hlast hbyte
    · obtain ⟨hstart, hmem⟩ := hroom.resolve_left hfit
      obtain ⟨mem, hmem⟩ := Option.isSome_iff_exists.mp hmem
      let q := (s.parser.marked c).spill s.parser.allocs (s.parser.marked c).blockType mem b
      have heq : (s.parser.marked c).allocParam E = .linked s.parser.allocs q := by
        simp [q, allocParam, Parser.marked, blockType, hb, hmem, hstart, not_lt.mp hfit]
      have hends' : EndsKey { q with history := q.history.take [c] } c := by
        refine ⟨hends.1, hends.2.1, ?_⟩
        have hne : s.parser.mParamStart ≠ s.parser.mParamPos := hends.2.2
        show (1 : Int) ≠ s.parser.mParamPos - (s.parser.mParamStart - 1)
        omega
      rw [heq] at hbyte
      exact hafter (unlock { lock { s with parser := s.parser.marked c } with
        parser := { q with history := q.history.take [c] } }) s.parser.allocs hends' hlast hbyte

/-! ### Runs -/

lemma met_mono {ok ok' : LowHTTPDirect → List UInt8 → Prop} (h : ∀ s data, ok s data → ok' s data)
    {fuel : Nat} {data : List UInt8} (hmet : Met E ok fuel s data) : Met E ok' fuel s data := by
  induction fuel generalizing s data with
  | zero => cases data <;> trivial
  | succ fuel ih =>
    cases data with
    | nil => trivial
    | cons c rest =>
      obtain ⟨hok, hmet⟩ := hmet
      refine ⟨h _ _ hok, ?_⟩
      generalize s.socketByte E c rest = r at hmet
      obtain ⟨exit, t, rest'⟩ := r
      cases exit with
      | next => exact ih hmet
      | brk | err | done | undef => trivial

lemma loopMeets_mono {ok ok' : LowHTTPDirect → List UInt8 → Prop} (h : ∀ s data, ok s data → ok' s data)
    {i : Input} (hmet : LoopMeets E ok s i) : LoopMeets E ok' s i :=
  fun t d ht => met_mono h (hmet t d ht)

/-- All iterations keep within bounds where no line without a colon is stored. -/
lemma met_inBounds (h : s.parser.Indexed E) (hsize : 2 < E.sizeofData) {fuel : Nat} {data : List UInt8}
    (hmet : Met E (fun s data => ¬s.Keyed E data) fuel s data) : Met E (InBounds E) fuel s data := by
  induction fuel generalizing s data with
  | zero => cases data <;> trivial
  | succ fuel ih =>
    cases data with
    | nil => trivial
    | cons c rest =>
      obtain ⟨hkeyed, hmet⟩ := hmet
      have hbounds := inBounds_of_indexed h hsize hkeyed
      refine ⟨hbounds, ?_⟩
      have hafter := hbounds.2.2.2
      generalize s.socketByte E c rest = r at hmet hafter
      obtain ⟨exit, t, rest'⟩ := r
      cases exit with
      | next => exact ih hafter hmet
      | brk | err | done | undef => trivial

lemma indexed_runLoop (h : s.parser.Indexed E) (hsize : 2 < E.sizeofData) {data : List UInt8}
    (hmet : Met E (fun s data => ¬s.Keyed E data) data.length s data) (inLoop : Bool) :
    (continued (s.runLoop E data inLoop)).parser.Indexed E := by
  have hloop : (s.socketLoop E data.length data).2.1.parser.Indexed E :=
    socketLoop_rule (P := fun t _ => t.parser.Indexed E) (Q := fun _ t _ => t.parser.Indexed E)
      (fun t d ht => ht)
      (fun t c rest ht hkeyed => ⟨fun _ => indexed_socketByte ht hsize hkeyed,
        fun _ => indexed_socketByte ht hsize hkeyed⟩) h hmet
  have hcontinued (r : Bool × LowHTTPDirect) (hr : r.2.parser.Indexed E) :
      (continued r).parser.Indexed E := by
    unfold continued
    split
    · exact hr
    · exact hr
  apply hcontinued
  unfold runLoop
  dsimp only
  generalize s.socketLoop E data.length data = r at hloop
  obtain ⟨exit, t, rest⟩ := r
  cases exit with
  | next =>
    rw [loopExit, loopDone_eq]
    exact hloop
  | brk =>
    rw [loopExit, loopDone_eq]
    exact hloop
  | err => exact hloop
  | done => exact hloop
  | undef => exact hloop

lemma indexed_takeParams {p : Parser} (h : p.Indexed E) (charLen : UInt8 → Int)
    (while_ : ParamDataType → Bool) (fuel : Nat) : (takeParams E charLen while_ fuel p).2.Indexed E := by
  induction fuel generalizing p with
  | zero => exact h
  | succ fuel ih =>
    rw [takeParams]
    split
    · exact h
    · next b _ =>
      split
      · have hnext : Indexed E { p with
            mParamFirst := (p.heap b).next
            mParamLast := if (p.heap b).next = none then none else p.mParamLast } := by
          refine h.congr ?_ ⟨rfl, rfl, rfl⟩ h.line
          dsimp only
          split
          · exact .inr rfl
          · exact .inl rfl
        dsimp only
        split
        · exact hnext
        · exact ih hnext
      · exact h

lemma Aside.indexed (h : s.parser.Indexed E) (ha : Aside s t) : t.parser.Indexed E := by
  rw [ha.parser]
  exact h

lemma indexed_reported (h : s.parser.Indexed E) (hr : Reported E s t) : t.parser.Indexed E := by
  have htake := indexed_takeParams h signedChar (fun _ => true) (s.parser.allocs + 2)
  cases hr with
  | data hpos ha =>
    exact ha.indexed (s := { s with reader.mReadData := none, reader.mBytesRead := 0 }) h
  | undefined hpos hp ha hu =>
    have hp : takeParams E signedChar (fun _ => true) (s.parser.allocs + 2) s.parser = _ := hp
    rw [hp] at htake
    exact ha.indexed htake
  | ended hpos hp ha =>
    have hp : takeParams E signedChar (fun _ => true) (s.parser.allocs + 2) s.parser = _ := hp
    rw [hp] at htake
    exact ha.indexed htake

lemma indexed_outcome (h : s.parser.Indexed E) (ho : Outcome E s t) : t.parser.Indexed E := by
  cases ho with
  | undefined hu => exact h
  | report hu hend => exact indexed_reported h (reportRead_reported s _)
  | error hpos hc herr ha => exact ha.indexed (s := s.clearErrors) h
  | accepted ha => exact ha.indexed h

lemma indexed_looped (h : s.parser.Indexed E) (hl : Looped E s t) : t.parser.Indexed E := by
  have htake := indexed_takeParams h (fun b => b.toNat) (· = .header) (s.parser.allocs + 2)
  cases hl with
  | aside ha => exact ha.indexed h
  | undefined hp ha hu =>
    have hp : takeParams E (fun b => b.toNat) (· = .header) (s.parser.allocs + 2) s.parser = _ := hp
    rw [hp] at htake
    exact ha.indexed htake
  | request hreq hfirst htype ht hp ha =>
    have hp : takeParams E (fun b => b.toNat) (· = .header) (s.parser.allocs + 2) s.parser = _ := hp
    rw [hp] at htake
    exact ha.indexed htake
  | requestError hreq ha => exact ha.indexed (s := s.clearErrors) h
  | error hreq hid herr ha => exact ha.indexed (s := s.clearErrors) h
  | report hreq hid herr hend ha => exact indexed_reported (ha.indexed h) (reportRead_reported _ _)

lemma indexed_written (h : s.parser.Indexed E) (hw : Written s t) : t.parser.Indexed E := by
  cases hw with
  | aside ha => exact ha.indexed h
  | @init u _ ha hserver hphase hi => exact hi.indexed (s := u.init) (indexed_init u.parser)

/-- What each step keeps. -/
lemma indexed_step (h : s.parser.Indexed E) (hsize : 2 < E.sizeofData) {i : Input}
    (hmet : LoopMeets E (fun s data => ¬s.Keyed E data) s i) : (step E s i).parser.Indexed E := by
  by_cases halive : s.rt.deleted ∨ s.rt.undefined
  · have heq : step E s i = s := if_pos halive
    rwa [heq]
  simp only [not_or, Bool.not_eq_true] at halive
  obtain ⟨hdel, hund⟩ := halive
  cases i with
  | read len =>
    rw [step_alive hdel hund]
    rcases Read_cases (E := E) s len with ⟨-, ha⟩ | ⟨hreq, hdata, hsock, ho⟩
    · exact ha.indexed h
    · refine indexed_outcome ?_ ho
      have hrem := readRemaining_remaining (E := E) (s.takeBuffer len)
      generalize (s.takeBuffer len).lock.readRemaining E = u at hrem
      cases hrem with
      | kept hkept ha => exact ha.indexed (s := s.takeBuffer len) h
      | empty hrem ha => exact ha.indexed (s := { (s.takeBuffer len).shut with reader.mRemainingRead := none }) h
      | @loop data hrem hne hc ha =>
        have hrem : s.reader.mRemainingRead = some data := hrem
        have hc : s.mClosed = false := hc
        have hlooped : s.looped (.read len) = some ((s.takeBuffer len).reread, data) := by
          simp [looped, hdel, hund, hreq, hdata, hsock, hc, hrem]
        exact ha.indexed (indexed_runLoop (s := (s.takeBuffer len).reread) h hsize (hmet _ _ hlooped) true)
  | socketRead input =>
    rw [step_alive hdel hund]
    have hreceived := onEventsRead_received (E := E) hdel hund input
    show (s.onEventsRead E input).parser.Indexed E
    generalize s.onEventsRead E input = u at hreceived
    cases hreceived with
    | ignored => exact h
    | @closed _ _ r hstop e he hr ha =>
      exact ha.indexed (s := { s.shut with mReadError := e, rt.received := r, rt.mDirectReadEnabled := false }) h
    | @data t d hne hc hl =>
      have hparser : t.parser = s.parser := by
        obtain ⟨-, -, -, -, ⟨len, hi, -⟩ | ⟨-, -, -, rfl⟩⟩ := looped_cases hl
        · cases hi
        · rfl
      exact indexed_runLoop (hparser ▸ h) hsize (hmet _ _ hl) false
  | onLoop =>
    rw [step_alive hdel hund]
    exact indexed_looped h (OnLoop_looped s)
  | setRequestCallID => exact indexed_written h (step_written s trivial)
  | writeHeaders txt len isChunked results => exact indexed_written h (step_written s trivial)
  | write data results => exact indexed_written h (step_written s trivial)
  | detach => exact indexed_written h (step_written s trivial)
  | socketWrite results => exact indexed_written h (step_written s trivial)

lemma loopMeets_inBounds (h : s.parser.Indexed E) (hsize : 2 < E.sizeofData) {i : Input}
    (hmet : LoopMeets E (fun s data => ¬s.Keyed E data) s i) : LoopMeets E (InBounds E) s i := by
  intro t d hl
  have hparser : t.parser = s.parser := by
    obtain ⟨-, -, -, -, ⟨len, -, -, -, -, rfl⟩ | ⟨-, -, -, rfl⟩⟩ := looped_cases hl
    · rfl
    · rfl
  exact met_inBounds (hparser ▸ h) hsize (hmet t d hl)

/-- In every run, each byte that is parsed keeps within its block and its buffer exactly if no line without a
colon is stored. -/
theorem inBounds_run_iff (lowAlloc : Nat → Option (Int → UInt8)) (isServer : Bool) (u : LowHTTPDirect)
    (is : List Input) :
    let E : Env := ⟨10240, lowAlloc⟩
    (machine E).Guarded (LoopMeets E (InBounds E)) (start isServer u) is ↔
      (machine E).Guarded (LoopMeets E fun s data => ¬s.Keyed E data) (start isServer u) is := by
  intro E
  have hsize : (2 : Int) < 10240 := by decide
  have hstart : (start isServer u).parser.Indexed E := indexed_init _
  generalize start isServer u = s at hstart
  constructor
  · intro h
    clear hstart
    induction is generalizing s with
    | nil => trivial
    | cons i is ih =>
      refine ⟨loopMeets_mono (fun t data hok hkeyed => ?_) h.1, ih _ h.2⟩
      exact not_inBounds_of_keyed hkeyed hok
  · intro h
    induction is generalizing s with
    | nil => trivial
    | cons i is ih =>
      exact ⟨loopMeets_inBounds hstart hsize h.1, ih _ (indexed_step hstart hsize h.1) h.2⟩

instance (p : Parser) (c : UInt8) : Decidable (p.EndsKey c) := inferInstanceAs (Decidable (_ ∧ _ ∧ _))

instance (s : LowHTTPDirect) : ∀ data, Decidable (s.Keyed E data)
  | [] => isFalse id
  | _ :: _ => inferInstanceAs (Decidable (_ ∧ _ ∧ _ ∧ _))

/-- A request with a header line that has no colon. -/
def colonlessRequest : List UInt8 := bytes "GET / HTTP/1.1\r\nab\r\n\r\n"

theorem not_inBounds_colonless : ¬(machine deviceEnv).Guarded (LoopMeets deviceEnv (InBounds deviceEnv))
    (start true default) [.socketRead (.data colonlessRequest)] := by
  rintro ⟨h, -⟩
  have hmet := h _ _ rfl
  have hkeyed : ¬Met deviceEnv (fun s data => ¬s.Keyed deviceEnv data) colonlessRequest.length
      { start true default with
        setCallback := false
        rt.mDirectReadEnabled := false
        rt.received := colonlessRequest } colonlessRequest := by decide +kernel
  exact hkeyed (met_mono (fun t data hok hk => not_inBounds_of_keyed hk hok) hmet)

end LowHTTPDirect

end LowJs.HTTPDirect
