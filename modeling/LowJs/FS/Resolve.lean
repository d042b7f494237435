import LowJs.Core.Bytes

/-!
# `low_fs_resolve`

Two loops copy a base path and what is added to it into one buffer, where they remove the segments that
`..` takes back. A C string is the list of the bytes in front of its terminator.
-/

namespace LowJs.FS.Resolve

/-- `/`. -/
def slash : UInt8 := 47

/-- `.`. -/
def dot : UInt8 := 46

/-- The buffer: `path[-1]` and the bytes in front of it back to `res[0]`, and whether a byte has been written
outside of the buffer. -/
structure Buffer where
  back : List UInt8
  outside : Bool
  deriving DecidableEq, Repr

/-- `*path++ = c`. -/
def Buffer.put (b : Buffer) (res_len : Nat) (c : UInt8) : Buffer :=
  ⟨c :: b.back, b.outside || decide (res_len ≤ b.back.length)⟩

/-- `path--` until `path` is behind a `/` or at the start. -/
def cut (back : List UInt8) : List UInt8 := back.dropWhile (· ≠ slash)

/-- The string is at its end or at a `/`. -/
def ends : List UInt8 → Bool
  | [] => true
  | c :: _ => c == slash

/-- The segment in front of `path[-1]` is `..`. -/
def behindUp : List UInt8 → Bool
  | _ :: a :: b :: rest => a == dot && b == dot && ends rest
  | _ => false

/-- A loop over a string. It stops where `stop` bytes are left. -/
def copy (res_len : Nat) (stop : Option Nat) : List UInt8 → Buffer → Bool × Buffer
  | [], b => (true, b)
  | c :: str, b =>
    if stop = some (str.length + 1) then (true, b)
    else if b.back.head? = some slash ∧ c = slash then copy res_len stop str b
    else if b.back.head? = some slash ∧ c = dot ∧ ends str then
      match str with
      | [] => (true, b)
      | _ :: str => copy res_len stop str b
    else if b.back.head? = some slash ∧ c = dot ∧ str.head? = some dot ∧ ends str.tail ∧
        !behindUp b.back then
      let b := { b with back := cut b.back.tail }
      if b.back = [] then (false, b)
      else
        match str with
        | _ :: _ :: str => if b.back.length = res_len then (false, b) else copy res_len stop str b
        | _ => (true, b)
    else
      let b := b.put res_len c
      if b.back.length = res_len then (false, b) else copy res_len stop str b

def node_modules : List UInt8 := bytes "node_modules"

/-- The base is copied, up to the place for `node_modules/`, and its last segment is cut off. -/
def copyBase (res_len : Nat) (base add : List UInt8) (add_node_modules_at : Option Nat) (b : Buffer) :
    Bool × Buffer :=
  if add.head? = some slash then (true, b)
  else
    let r := copy res_len (add_node_modules_at.map (base.length - ·)) base b
    if r.1 then
      let b : Buffer := { r.2 with back := cut r.2.back }
      (decide (b.back ≠ []), b)
    else r

/-- `low_fs_resolve`: what it returns, and the buffer without the terminator. -/
def low_fs_resolve (res_len : Nat) (base add : List UInt8) (add_node_modules_at : Option Nat) :
    Bool × Buffer :=
  let r := copyBase res_len base add add_node_modules_at ⟨[slash], decide (res_len ≤ 0)⟩
  if !r.1 then r
  else if add_node_modules_at.isSome ∧ res_len ≤ r.2.back.length + 13 then (false, r.2)
  else
    let b :=
      if add_node_modules_at.isSome then
        (node_modules ++ [slash]).foldl (fun b c => b.put res_len c) r.2
      else r.2
    let r := copy res_len none add b
    if r.1 then (true, { r.2 with outside := r.2.outside || decide (res_len ≤ r.2.back.length) })
    else r

/-! ### What is promised -/

/-- The segments of a path. -/
def segments : List UInt8 → List (List UInt8)
  | [] => [[]]
  | c :: path =>
    if c = slash then [] :: segments path
    else
      match segments path with
      | [] => [[c]]
      | s :: ss => (c :: s) :: ss

/-- A segment that stands for the directory it is in. -/
def isHere (s : List UInt8) : Bool := s == [] || s == [dot]

/-- A segment that stands for the directory above. -/
def isUp (s : List UInt8) : Bool := s == [dot, dot]

/-- The directory that a path leads to, the innermost name first, with the name behind the last `/`. There
is none where the path climbs above the root. -/
def normal (dir : List (List UInt8)) : List (List UInt8) → Option (List (List UInt8) × List UInt8)
  | [] => some (dir, [])
  | s :: ss =>
    if isHere s then normal dir ss
    else if isUp s then
      match dir with
      | [] => none
      | _ :: dir => normal dir ss
    else if ss = [] then some (dir, s)
    else normal (s :: dir) ss

/-- The bytes of a directory, the last one first. -/
def backOf : List (List UInt8) → List UInt8
  | [] => [slash]
  | s :: dir => slash :: (s.reverse ++ backOf dir)

/-- The bytes of a path, the last one first. -/
def pathOf (p : List (List UInt8) × List UInt8) : List UInt8 := p.2.reverse ++ backOf p.1

/-- The base in front of the place for `node_modules/`. -/
def front (base : List UInt8) (add_node_modules_at : Option Nat) : List UInt8 :=
  match add_node_modules_at with
  | none => base
  | some k => base.take k

/-- The directory of the base. What is behind its last `/` is the name of a file, unless it stands for a
directory. -/
def directory (base add : List UInt8) (add_node_modules_at : Option Nat) : Option (List (List UInt8)) :=
  if add.head? = some slash then some []
  else (normal [] (segments (front base add_node_modules_at))).map Prod.fst

/-- The directory to which the path is added. -/
def inside (dir : List (List UInt8)) (add_node_modules_at : Option Nat) : List (List UInt8) :=
  if add_node_modules_at.isSome then node_modules :: dir else dir

/-- The path to find. -/
def target (base add : List UInt8) (add_node_modules_at : Option Nat) :
    Option (List (List UInt8) × List UInt8) :=
  (directory base add add_node_modules_at).bind fun dir =>
    normal (inside dir add_node_modules_at) (segments add)

/-- A segment of a normalised path. -/
def Named (s : List UInt8) : Prop := s ≠ [] ∧ s ≠ [dot] ∧ s ≠ [dot, dot] ∧ slash ∉ s

/-- The buffer holds the path with a terminator after each segment, until the path climbs above the root. -/
def Holds (res_len : Nat) (dir : List (List UInt8)) : List (List UInt8) → Prop
  | [] => True
  | s :: ss =>
    if isHere s then Holds res_len dir ss
    else if isUp s then
      match dir with
      | [] => True
      | _ :: dir => Holds res_len dir ss
    else if ss = [] then (pathOf (dir, s)).length < res_len
    else (backOf (s :: dir)).length < res_len ∧ Holds res_len (s :: dir) ss

/-- The buffer holds all that is copied. -/
def HoldsAll (res_len : Nat) (base add : List UInt8) (add_node_modules_at : Option Nat) : Prop :=
  (add.head? ≠ some slash → Holds res_len [] (segments (front base add_node_modules_at))) ∧
    ∀ dir, directory base add add_node_modules_at = some dir →
      (add_node_modules_at.isSome → (backOf (node_modules :: dir)).length < res_len) ∧
        Holds res_len (inside dir add_node_modules_at) (segments add)

/-- The buffer holds the path that is found. -/
def Fits (res_len : Nat) (base add : List UInt8) (add_node_modules_at : Option Nat) : Prop :=
  ∀ p, target base add add_node_modules_at = some p → (pathOf p).length < res_len

/-- What the function does, where `fits` says that there is room. It writes into the buffer only; it returns
whether there is a path and room; the path is then in the buffer with its terminator, it is normalised, and
the function finds it again. -/
structure Meets (fits : Prop) (res_len : Nat) (base add : List UInt8) (add_node_modules_at : Option Nat) :
    Prop where
  within : (low_fs_resolve res_len base add add_node_modules_at).2.outside = false
  returns : (low_fs_resolve res_len base add add_node_modules_at).1 = true ↔
    fits ∧ (target base add add_node_modules_at).isSome
  found : (low_fs_resolve res_len base add add_node_modules_at).1 = true →
    ∃ p, target base add add_node_modules_at = some p ∧
      (low_fs_resolve res_len base add add_node_modules_at).2.back = pathOf p ∧
      (pathOf p).length < res_len ∧ (∀ s ∈ p.1, Named s) ∧ (p.2 = [] ∨ Named p.2)
  again : (low_fs_resolve res_len base add add_node_modules_at).1 = true →
    ∀ base', low_fs_resolve res_len base'
        (low_fs_resolve res_len base add add_node_modules_at).2.back.reverse none =
      low_fs_resolve res_len base add add_node_modules_at

/-- The place for `node_modules/` is behind a `/` of the base. -/
def Behind (base : List UInt8) (add_node_modules_at : Option Nat) : Prop :=
  ∀ k, add_node_modules_at = some k → k ≤ base.length ∧ (base.take k).getLast? = some slash

/-! ### Segments -/

/-- The path with some segments. -/
def join : List (List UInt8) → List UInt8
  | [] => []
  | [s] => s
  | s :: t :: ss => s ++ slash :: join (t :: ss)

lemma segments_ne_nil (path : List UInt8) : segments path ≠ [] := by
  cases path with
  | nil => exact List.cons_ne_nil _ _
  | cons c path =>
    rw [segments]
    split
    · exact List.cons_ne_nil _ _
    · split
      · exact List.cons_ne_nil _ _
      · exact List.cons_ne_nil _ _

lemma join_cons (s : List UInt8) {ss : List (List UInt8)} (h : ss ≠ []) :
    join (s :: ss) = s ++ slash :: join ss := by
  cases ss with
  | nil => exact absurd rfl h
  | cons t ss => rfl

lemma join_segments (path : List UInt8) : join (segments path) = path := by
  induction path with
  | nil => rfl
  | cons c path ih =>
    rw [segments]
    split
    case isTrue hc =>
      rw [join_cons _ (segments_ne_nil path), ih, hc]
      rfl
    case isFalse =>
      cases hsegments : segments path with
      | nil => exact absurd hsegments (segments_ne_nil path)
      | cons s ss =>
        rw [hsegments] at ih
        cases ss with
        | nil =>
          rw [← ih]
          rfl
        | cons t ss =>
          rw [← ih]
          rfl

lemma slash_notMem_segments (path : List UInt8) : ∀ s ∈ segments path, slash ∉ s := by
  induction path with
  | nil => simp [segments]
  | cons c path ih =>
    rw [segments]
    split
    case isTrue =>
      intro s hs
      rcases List.mem_cons.mp hs with rfl | hs
      · exact List.not_mem_nil
      · exact ih s hs
    case isFalse hc =>
      cases hsegments : segments path with
      | nil => exact absurd hsegments (segments_ne_nil path)
      | cons s ss =>
        rw [hsegments] at ih
        intro t ht
        rcases List.mem_cons.mp ht with rfl | ht
        · rw [List.mem_cons, not_or]
          exact ⟨fun h => hc h.symm, ih s List.mem_cons_self⟩
        · exact ih t (List.mem_cons_of_mem _ ht)

/-- A segment without `/` is one that is copied, or it is taken back. -/
lemma named_of (s : List UInt8) (hslash : slash ∉ s) (hhere : isHere s = false) (hup : isUp s = false) :
    Named s := by
  simp only [isHere, isUp, Bool.or_eq_false_iff, beq_eq_false_iff_ne] at hhere hup
  exact ⟨hhere.1, hhere.2, hup, hslash⟩

/-! ### The buffer -/

lemma backOf_head (dir : List (List UInt8)) : ∃ rest, backOf dir = slash :: rest := by
  cases dir with
  | nil => exact ⟨[], rfl⟩
  | cons s dir => exact ⟨_, rfl⟩

lemma length_backOf_cons (s : List UInt8) (dir : List (List UInt8)) :
    (backOf (s :: dir)).length = (backOf dir).length + s.length + 1 := by
  simp only [backOf, List.length_cons, List.length_append, List.length_reverse]
  omega

/-- The name behind the last `/` is cut off. -/
lemma cut_pathOf {s : List UInt8} (hs : slash ∉ s) (dir : List (List UInt8)) :
    cut (s.reverse ++ backOf dir) = backOf dir := by
  obtain ⟨rest, hrest⟩ := backOf_head dir
  have hall : ∀ c ∈ s.reverse, decide (c ≠ slash) = true := by
    intro c hc
    apply decide_eq_true
    rintro rfl
    exact hs (List.mem_reverse.mp hc)
  rw [cut, List.dropWhile_append_of_pos hall, hrest]
  exact List.dropWhile_cons_of_neg (by simp)

/-- No directory is called `..`. -/
lemma behindUp_backOf {dir : List (List UInt8)} (hdir : ∀ s ∈ dir, Named s) : behindUp (backOf dir) = false := by
  cases dir with
  | nil => rfl
  | cons s dir =>
    obtain ⟨hnil, hdot, hup, hslash⟩ := hdir s List.mem_cons_self
    obtain ⟨rest, hrest⟩ := backOf_head dir
    rw [backOf, hrest]
    match hrev : s.reverse with
    | [] => exact absurd (List.reverse_eq_nil_iff.mp hrev) hnil
    | [a] => simp [behindUp, slash, dot]
    | [a, b] =>
      simp only [List.cons_append, List.nil_append, behindUp, ends, beq_self_eq_true, Bool.and_true]
      rw [Bool.and_eq_false_iff, beq_eq_false_iff_ne, beq_eq_false_iff_ne, ← not_and_or]
      rintro ⟨rfl, rfl⟩
      exact hup (by simpa using congrArg List.reverse hrev)
    | a :: b :: c :: cs =>
      have hc : c ≠ slash := by
        rintro rfl
        exact hslash (List.mem_reverse.mp (by rw [hrev]; simp))
      simp [behindUp, ends, hc]

/-! ### The loop -/

variable {res_len : Nat} {b : Buffer} {o : Bool}

/-- A byte that is copied. -/
lemma copy_put {c : UInt8} {str : List UInt8}
    (h : b.back.head? = some slash → c ≠ slash ∧ ¬(c = dot ∧ ends str) ∧
      ¬(c = dot ∧ str.head? = some dot ∧ ends str.tail)) :
    copy res_len none (c :: str) b =
      if (b.put res_len c).back.length = res_len then (false, b.put res_len c)
      else copy res_len none str (b.put res_len c) := by
  rw [copy.eq_def]
  simp only [reduceCtorEq, if_false]
  rw [if_neg fun hc => (h hc.1).1 hc.2, if_neg fun hc => (h hc.1).2.1 hc.2,
    if_neg fun hc => (h hc.1).2.2 ⟨hc.2.1, hc.2.2.1, hc.2.2.2.1⟩]

/-- A `/` behind a `/` is skipped. -/
lemma copy_slash (h : b.back.head? = some slash) (str : List UInt8) :
    copy res_len none (slash :: str) b = copy res_len none str b := by
  rw [copy.eq_def]
  dsimp only
  rw [if_neg (Option.some_ne_none _).symm]
  exact if_pos ⟨h, rfl⟩

/-- The bytes of a name behind its first one. -/
lemma copy_chars {cs : List UInt8} (hcs : slash ∉ cs) (hhead : b.back.head? ≠ some slash)
    (hlt : b.back.length < res_len) (str : List UInt8) :
    (b.back.length + cs.length < res_len →
      copy res_len none (cs ++ str) b = copy res_len none str ⟨cs.reverse ++ b.back, b.outside⟩) ∧
    (res_len ≤ b.back.length + cs.length →
      (copy res_len none (cs ++ str) b).1 = false ∧
        (copy res_len none (cs ++ str) b).2.outside = b.outside) := by
  induction cs generalizing b with
  | nil =>
    refine ⟨fun _ => rfl, ?_⟩
    intro hle
    exact absurd hle (not_le.mpr hlt)
  | cons c cs ih =>
    have hc : c ≠ slash := fun h => hcs (h ▸ List.mem_cons_self)
    have hput : b.put res_len c = ⟨c :: b.back, b.outside⟩ := by
      rw [Buffer.put, decide_eq_false (not_le.mpr hlt), Bool.or_false]
    rw [List.cons_append, copy_put (fun h => absurd h hhead), hput]
    simp only [List.length_cons]
    split
    case isTrue hfull =>
      refine ⟨?_, fun _ => ⟨rfl, rfl⟩⟩
      intro hroom
      omega
    case isFalse hfull =>
      have hrest := ih (b := ⟨c :: b.back, b.outside⟩) (fun h => hcs (List.mem_cons_of_mem _ h))
        (by simpa using hc) (by simp only [List.length_cons]; omega)
      simp only [List.length_cons] at hrest
      constructor
      · intro hroom
        rw [hrest.1 (by omega), List.reverse_cons, List.append_assoc]
        rfl
      · intro hle
        exact hrest.2 (by omega)

/-- A name is copied, if there is room for it. -/
lemma copy_name {s : List UInt8} (hs : Named s) {dir : List (List UInt8)}
    (hlt : (backOf dir).length < res_len) (str : List UInt8) :
    ((backOf dir).length + s.length < res_len →
      copy res_len none (s ++ str) ⟨backOf dir, o⟩ =
        copy res_len none str ⟨s.reverse ++ backOf dir, o⟩) ∧
    (res_len ≤ (backOf dir).length + s.length →
      (copy res_len none (s ++ str) ⟨backOf dir, o⟩).1 = false ∧
        (copy res_len none (s ++ str) ⟨backOf dir, o⟩).2.outside = o) := by
  obtain ⟨hnil, hdot, hup, hslash⟩ := hs
  cases s with
  | nil => exact absurd rfl hnil
  | cons c cs =>
    have hcs : slash ∉ cs := fun h => hslash (List.mem_cons_of_mem _ h)
    have hc : c ≠ slash := fun h => hslash (h ▸ List.mem_cons_self)
    have hplain : c ≠ slash ∧ ¬(c = dot ∧ ends (cs ++ str)) ∧
        ¬(c = dot ∧ (cs ++ str).head? = some dot ∧ ends (cs ++ str).tail) := by
      refine ⟨hc, ?_, ?_⟩
      · rintro ⟨rfl, hends⟩
        cases cs with
        | nil => exact hdot rfl
        | cons d ds =>
          have hd : d = slash := by simpa [ends] using hends
          exact hcs (hd ▸ List.mem_cons_self)
      · rintro ⟨rfl, hhead, hends⟩
        cases cs with
        | nil => exact hdot rfl
        | cons d ds =>
          obtain rfl : d = dot := by simpa using hhead
          cases ds with
          | nil => exact hup rfl
          | cons e es =>
            have he : e = slash := by simpa [ends] using hends
            exact hcs (he ▸ List.mem_cons_of_mem _ List.mem_cons_self)
    have hput : Buffer.put ⟨backOf dir, o⟩ res_len c = ⟨c :: backOf dir, o⟩ := by
      rw [Buffer.put, decide_eq_false (not_le.mpr hlt), Bool.or_false]
    rw [List.cons_append, copy_put (fun _ => hplain), hput]
    simp only [List.length_cons]
    split
    case isTrue hfull =>
      refine ⟨?_, fun _ => ⟨rfl, rfl⟩⟩
      intro hroom
      omega
    case isFalse hfull =>
      have hless : (⟨c :: backOf dir, o⟩ : Buffer).back.length < res_len := by
        simp only [List.length_cons]
        omega
      have hrest := copy_chars (b := ⟨c :: backOf dir, o⟩) hcs (by simpa using hc) hless str
      simp only [List.length_cons] at hrest
      constructor
      · intro hroom
        rw [hrest.1 (by omega), List.reverse_cons, List.append_assoc]
        rfl
      · intro hle
        exact hrest.2 (by omega)

/-- What a loop over some segments leaves, where the buffer holds a directory. -/
structure Copied (res_len : Nat) (o : Bool) (holds : Prop) (path : Option (List (List UInt8) × List UInt8))
    (r : Bool × Buffer) : Prop where
  outside : r.2.outside = o
  returns : r.1 = true ↔ holds ∧ path.isSome
  back : ∀ p, path = some p → r.1 = true → r.2.back = pathOf p ∧ (pathOf p).length < res_len

/-- The loop stops. -/
lemma copied_false {holds : Prop} {path : Option (List (List UInt8) × List UInt8)} {r : Bool × Buffer}
    (hreturns : r.1 = false) (houtside : r.2.outside = o) (hnot : ¬(holds ∧ path.isSome)) :
    Copied res_len o holds path r where
  outside := houtside
  returns := by
    rw [hreturns]
    exact ⟨fun h => absurd h Bool.false_ne_true, fun h => absurd h hnot⟩
  back := by
    intro p _ h
    rw [hreturns] at h
    exact absurd h Bool.false_ne_true

/-- The loop is at the end of the string. -/
lemma copied_end {holds : Prop} {p : List (List UInt8) × List UInt8} (hholds : holds)
    (hlt : (pathOf p).length < res_len) : Copied res_len o holds (some p) (true, ⟨pathOf p, o⟩) where
  outside := rfl
  returns := ⟨fun _ => ⟨hholds, rfl⟩, fun _ => rfl⟩
  back := by
    rintro _ ⟨⟩ _
    exact ⟨rfl, hlt⟩

/-- The loop follows the segments. -/
lemma copy_join {segs : List (List UInt8)} (hne : segs ≠ []) (hslash : ∀ s ∈ segs, slash ∉ s)
    (dir : List (List UInt8)) (hdir : ∀ s ∈ dir, Named s) (hlt : (backOf dir).length < res_len) :
    Copied res_len o (Holds res_len dir segs) (normal dir segs)
      (copy res_len none (join segs) ⟨backOf dir, o⟩) := by
  induction segs generalizing dir with
  | nil => exact absurd rfl hne
  | cons s ss ih =>
    obtain ⟨rest, hrest⟩ := backOf_head dir
    have hhead : (backOf dir).head? = some slash := by rw [hrest]; rfl
    have hss : ∀ s ∈ ss, slash ∉ s := fun t ht => hslash t (List.mem_cons_of_mem _ ht)
    rw [Holds.eq_def, normal.eq_def]
    dsimp only
    by_cases hhere : isHere s = true
    · rw [if_pos hhere, if_pos hhere]
      have hs : s = [] ∨ s = [dot] := by simpa [isHere] using hhere
      by_cases hnil : ss = []
      · subst hnil
        have hcopy : copy res_len none (join [s]) ⟨backOf dir, o⟩ = (true, ⟨pathOf (dir, []), o⟩) := by
          rcases hs with rfl | rfl
          · rfl
          · simp [join, copy, hhead, ends, dot, slash, pathOf]
        rw [hcopy]
        exact copied_end trivial hlt
      · have hcopy : copy res_len none (join (s :: ss)) ⟨backOf dir, o⟩ =
            copy res_len none (join ss) ⟨backOf dir, o⟩ := by
          rw [join_cons _ hnil]
          rcases hs with rfl | rfl
          · exact copy_slash hhead _
          · simp [copy, hhead, ends, dot, slash]
        rw [hcopy]
        exact ih hnil hss dir hdir hlt
    · rw [if_neg hhere, if_neg hhere]
      by_cases hup : isUp s = true
      · rw [if_pos hup, if_pos hup]
        obtain rfl : s = [dot, dot] := by simpa [isUp] using hup
        have hbehind := behindUp_backOf hdir
        cases dir with
        | nil =>
          refine copied_false ?_ ?_ (by simp)
          · by_cases hnil : ss = []
            · subst hnil
              rfl
            · rw [join_cons _ hnil]
              rfl
          · by_cases hnil : ss = []
            · subst hnil
              rfl
            · rw [join_cons _ hnil]
              rfl
        | cons t dir =>
          have ht := hdir t List.mem_cons_self
          have hcut : cut (backOf (t :: dir)).tail = backOf dir := cut_pathOf ht.2.2.2 dir
          have hless : (backOf dir).length < res_len := by
            rw [length_backOf_cons] at hlt
            omega
          obtain ⟨rest', hrest'⟩ := backOf_head dir
          have hback : backOf dir ≠ [] := by rw [hrest']; exact List.cons_ne_nil _ _
          have hdir' : ∀ s ∈ dir, Named s := fun u hu => hdir u (List.mem_cons_of_mem _ hu)
          by_cases hnil : ss = []
          · subst hnil
            have hcopy : copy res_len none (join [[dot, dot]]) ⟨backOf (t :: dir), o⟩ =
                (true, ⟨pathOf (dir, []), o⟩) := by
              simp [join, copy, hhead, ends, hbehind, hcut, hback, pathOf, dot, slash]
            rw [hcopy]
            exact copied_end trivial hless
          · have hcopy : copy res_len none (join ([dot, dot] :: ss)) ⟨backOf (t :: dir), o⟩ =
                copy res_len none (join ss) ⟨backOf dir, o⟩ := by
              rw [join_cons _ hnil]
              simp [copy, hhead, ends, hbehind, hcut, hback, hless.ne, dot, slash]
            rw [hcopy]
            exact ih hnil hss dir hdir' hless
      · rw [if_neg hup, if_neg hup]
        have hs := named_of s (hslash s List.mem_cons_self) (by simpa using hhere) (by simpa using hup)
        by_cases hnil : ss = []
        · subst hnil
          rw [if_pos rfl, if_pos rfl]
          have hlength : (pathOf (dir, s)).length = (backOf dir).length + s.length := by
            simp only [pathOf, List.length_append, List.length_reverse]
            omega
          have hcopy := copy_name (o := o) hs hlt []
          rw [List.append_nil] at hcopy
          by_cases hroom : (backOf dir).length + s.length < res_len
          · rw [join, hcopy.1 hroom]
            exact copied_end (hlength ▸ hroom) (hlength ▸ hroom)
          · have hfull := hcopy.2 (not_lt.mp hroom)
            rw [join]
            refine copied_false hfull.1 hfull.2 ?_
            rw [hlength]
            exact fun h => hroom h.1
        · rw [if_neg hnil, if_neg hnil, join_cons _ hnil, length_backOf_cons]
          have hcopy := copy_name (o := o) hs hlt (slash :: join ss)
          by_cases hroom : (backOf dir).length + s.length < res_len
          · have hput : Buffer.put ⟨s.reverse ++ backOf dir, o⟩ res_len slash = ⟨backOf (s :: dir), o⟩ := by
              rw [Buffer.put, decide_eq_false, Bool.or_false]
              · rfl
              · simp only [List.length_append, List.length_reverse]
                omega
            have hplain : (s.reverse ++ backOf dir).head? ≠ some slash := by
              intro h
              have : s.reverse ≠ [] := fun h' => hs.1 (List.reverse_eq_nil_iff.mp h')
              obtain ⟨c, cs, hrev⟩ := List.exists_cons_of_ne_nil this
              rw [hrev] at h
              obtain rfl : c = slash := by simpa using h
              exact hs.2.2.2 (List.mem_reverse.mp (by rw [hrev]; exact List.mem_cons_self))
            rw [hcopy.1 hroom, copy_put (fun h => absurd h hplain), hput]
            simp only [length_backOf_cons]
            split
            case isTrue hfull =>
              refine copied_false rfl rfl ?_
              rintro ⟨⟨h, -⟩, -⟩
              omega
            case isFalse hfull =>
              have hless : (backOf (s :: dir)).length < res_len := by
                rw [length_backOf_cons]
                omega
              have hdir' : ∀ t ∈ s :: dir, Named t := by
                intro t ht
                rcases List.mem_cons.mp ht with rfl | ht
                · exact hs
                · exact hdir t ht
              have hrest := ih hnil hss (s :: dir) hdir' hless
              rw [length_backOf_cons] at hless
              simpa only [hless, true_and] using hrest
          · have hfull := hcopy.2 (not_lt.mp hroom)
            refine copied_false hfull.1 hfull.2 ?_
            rintro ⟨⟨h, -⟩, -⟩
            omega

lemma copy_nil_stop (rest : List UInt8) (b : Buffer) : copy res_len (some rest.length) rest b = (true, b) := by
  cases rest with
  | nil => rfl
  | cons c rest =>
    rw [copy.eq_def]
    exact if_pos rfl

/-- The string is cut at the place for `node_modules/`, behind a `/`. -/
lemma copy_stop {front : List UInt8} (hfront : ∀ c, front.getLast? = some c → c = slash)
    (rest : List UInt8) (b : Buffer) :
    copy res_len (some rest.length) (front ++ rest) b = copy res_len none front b := by
  induction hlength : front.length using Nat.strong_induction_on generalizing front b with
  | _ n ih =>
    cases front with
    | nil => exact copy_nil_stop rest b
    | cons c front =>
      have hstop : ¬(some rest.length = some ((front ++ rest).length + 1)) := by
        simp only [List.length_append, Option.some.injEq]
        omega
      have hlast : ∀ d, front.getLast? = some d → d = slash := by
        intro d hd
        cases front with
        | nil => simp at hd
        | cons e front => exact hfront d (by rw [List.getLast?_cons_cons]; exact hd)
      have hnext := fun b => ih front.length (by simp only [List.length_cons] at hlength; omega) hlast b rfl
      rw [List.cons_append, copy.eq_def, copy.eq_def res_len none]
      dsimp only
      rw [if_neg hstop, if_neg (Option.some_ne_none _).symm]
      by_cases hc : c = dot
      · subst hc
        -- A dot is not the last byte in front of the place.
        cases front with
        | nil => exact absurd (hfront dot rfl) (by decide)
        | cons d front =>
          by_cases hd : d = dot
          · subst hd
            cases front with
            | nil => exact absurd (hlast dot rfl) (by decide)
            | cons e front =>
              have hlast' : ∀ d, front.getLast? = some d → d = slash := by
                intro d hd
                cases front with
                | nil => simp at hd
                | cons f front => exact hlast d (by rw [List.getLast?_cons_cons, List.getLast?_cons_cons]; exact hd)
              have hnext' := fun b => ih front.length (by simp only [List.length_cons] at hlength; omega)
                hlast' b rfl
              simp only [List.cons_append] at hnext
              have hne : (dot == slash) = false := rfl
              simp only [List.cons_append, List.head?_cons, List.tail_cons, ends, hne, Bool.false_eq_true, and_false,
                if_false, hnext, hnext']
          · have hlast' : ∀ d, front.getLast? = some d → d = slash := by
              intro d hd
              cases front with
              | nil => simp at hd
              | cons f front => exact hlast d (by rw [List.getLast?_cons_cons]; exact hd)
            have hnext' := fun b => ih front.length (by simp only [List.length_cons] at hlength; omega)
              hlast' b rfl
            have hsome : some d ≠ some dot := fun h => hd (Option.some.inj h)
            simp only [List.cons_append] at hnext
            simp only [List.cons_append, List.head?_cons, ends, hnext, hnext', hsome, false_and, and_false, if_false]
      · simp only [hc, false_and, and_false, if_false, hnext]

/-! ### The two loops -/

/-- What is found is normalised. -/
lemma normal_named {segs : List (List UInt8)} (hslash : ∀ s ∈ segs, slash ∉ s) {dir : List (List UInt8)}
    (hdir : ∀ s ∈ dir, Named s) {p : List (List UInt8) × List UInt8} (h : normal dir segs = some p) :
    (∀ s ∈ p.1, Named s) ∧ (p.2 = [] ∨ Named p.2) := by
  induction segs generalizing dir with
  | nil =>
    obtain rfl : (dir, []) = p := by simpa [normal] using h
    exact ⟨hdir, Or.inl rfl⟩
  | cons s ss ih =>
    have hss : ∀ s ∈ ss, slash ∉ s := fun t ht => hslash t (List.mem_cons_of_mem _ ht)
    rw [normal.eq_def] at h
    dsimp only at h
    by_cases hhere : isHere s = true
    · rw [if_pos hhere] at h
      exact ih hss hdir h
    · rw [if_neg hhere] at h
      by_cases hup : isUp s = true
      · rw [if_pos hup] at h
        cases dir with
        | nil => exact absurd h (Option.some_ne_none _).symm
        | cons t dir => exact ih hss (fun u hu => hdir u (List.mem_cons_of_mem _ hu)) h
      · rw [if_neg hup] at h
        have hs := named_of s (hslash s List.mem_cons_self) (by simpa using hhere) (by simpa using hup)
        by_cases hnil : ss = []
        · rw [if_pos hnil] at h
          obtain rfl : (dir, s) = p := by simpa using h
          exact ⟨hdir, Or.inr hs⟩
        · rw [if_neg hnil] at h
          refine ih hss ?_ h
          intro t ht
          rcases List.mem_cons.mp ht with rfl | ht
          · exact hs
          · exact hdir t ht

/-- The second loop follows a whole string. -/
lemma copy_segments (path : List UInt8) (dir : List (List UInt8)) (hdir : ∀ s ∈ dir, Named s)
    (hlt : (backOf dir).length < res_len) :
    Copied res_len o (Holds res_len dir (segments path)) (normal dir (segments path))
      (copy res_len none path ⟨backOf dir, o⟩) := by
  have h := copy_join (o := o) (segments_ne_nil path) (slash_notMem_segments path) dir hdir hlt
  rwa [join_segments] at h

lemma behind_none (base : List UInt8) : Behind base none := by
  intro k hk
  exact absurd hk (Option.some_ne_none k).symm

/-- The first loop follows the base in front of the place. -/
lemma copy_front {base : List UInt8} {add_node_modules_at : Option Nat}
    (hbehind : Behind base add_node_modules_at) (b : Buffer) :
    copy res_len (add_node_modules_at.map (base.length - ·)) base b =
      copy res_len none (front base add_node_modules_at) b := by
  cases add_node_modules_at with
  | none => rfl
  | some k =>
    obtain ⟨hk, hlast⟩ := hbehind k rfl
    have hstop := @copy_stop res_len (base.take k)
      (fun c hc => Option.some.inj (hc.symm.trans hlast)) (base.drop k) b
    rwa [List.take_append_drop, List.length_drop] at hstop

/-- The directory of the base is in the buffer. -/
lemma copyBase_spec {base : List UInt8} (add : List UInt8) {add_node_modules_at : Option Nat}
    (hbehind : Behind base add_node_modules_at) (hlt : 1 < res_len) :
    (copyBase res_len base add add_node_modules_at ⟨[slash], o⟩).2.outside = o ∧
    ((copyBase res_len base add add_node_modules_at ⟨[slash], o⟩).1 = true ↔
      (add.head? ≠ some slash → Holds res_len [] (segments (front base add_node_modules_at))) ∧
        (directory base add add_node_modules_at).isSome) ∧
    ∀ dir, directory base add add_node_modules_at = some dir →
      (copyBase res_len base add add_node_modules_at ⟨[slash], o⟩).1 = true →
      (copyBase res_len base add add_node_modules_at ⟨[slash], o⟩).2.back = backOf dir ∧
        (backOf dir).length < res_len ∧ ∀ s ∈ dir, Named s := by
  rw [copyBase, directory, copy_front hbehind]
  by_cases hadd : add.head? = some slash
  · rw [if_pos hadd, if_pos hadd]
    refine ⟨rfl, ⟨fun _ => ⟨fun h => absurd hadd h, rfl⟩, fun _ => rfl⟩, ?_⟩
    rintro _ ⟨⟩ _
    exact ⟨rfl, hlt, by simp⟩
  · rw [if_neg hadd, if_neg hadd]
    have hcopied := copy_segments (o := o) (front base add_node_modules_at) [] (by simp) hlt
    rw [show backOf [] = [slash] from rfl] at hcopied
    generalize copy res_len none (front base add_node_modules_at) ⟨[slash], o⟩ = r at hcopied ⊢
    cases hnormal : normal [] (segments (front base add_node_modules_at)) with
    | none =>
      have hfalse : r.1 = false := by
        rw [Bool.eq_false_iff, ne_eq, hcopied.returns, hnormal]
        simp
      simp [hfalse, hcopied.outside]
    | some p =>
      have hnamed := normal_named (slash_notMem_segments _) (by simp) hnormal
      obtain ⟨rest, hrest⟩ := backOf_head p.1
      have hslash : slash ∉ p.2 := by
        rcases hnamed.2 with h | h
        · simp [h]
        · exact h.2.2.2
      by_cases hr : r.1 = true
      · obtain ⟨hback, hless⟩ := hcopied.back p hnormal hr
        have hholds := (hcopied.returns.mp hr).1
        have hcut : cut r.2.back = backOf p.1 := by rw [hback, pathOf, cut_pathOf hslash]
        have hdir : (backOf p.1).length < res_len := by
          simp only [pathOf, List.length_append] at hless
          omega
        simp only [hr, if_true, hcut, hcopied.outside, true_and, Option.map_some, Option.isSome_some, and_true]
        refine ⟨⟨fun _ _ => hholds, fun _ => ?_⟩, ?_⟩
        · rw [hrest]
          rfl
        · rintro _ ⟨⟩ _
          exact ⟨rfl, hdir, hnamed.1⟩
      · have hholds : ¬Holds res_len [] (segments (front base add_node_modules_at)) := by
          intro h
          exact hr (hcopied.returns.mpr ⟨h, by rw [hnormal]; rfl⟩)
        simp [hr, hcopied.outside, hholds, hadd]

lemma foldl_put (str : List UInt8) (h : b.back.length + str.length ≤ res_len) :
    str.foldl (fun b c => b.put res_len c) b = ⟨str.reverse ++ b.back, b.outside⟩ := by
  induction str generalizing b with
  | nil => rfl
  | cons c str ih =>
    rw [List.length_cons] at h
    have hput : b.put res_len c = ⟨c :: b.back, b.outside⟩ := by
      rw [Buffer.put, decide_eq_false (by omega), Bool.or_false]
    rw [List.foldl_cons, hput, ih (by simp only [List.length_cons]; omega), List.reverse_cons, List.append_assoc]
    rfl

lemma named_node_modules : Named node_modules :=
  ⟨by decide, by decide, by decide, by decide⟩

lemma inside_named {dir : List (List UInt8)} (hdir : ∀ s ∈ dir, Named s) (add_node_modules_at : Option Nat) :
    ∀ s ∈ inside dir add_node_modules_at, Named s := by
  cases add_node_modules_at with
  | none => exact hdir
  | some k =>
    intro s hs
    rcases List.mem_cons.mp hs with rfl | hs
    · exact named_node_modules
    · exact hdir s hs

/-- The terminator is written behind the path. -/
lemma copied_terminated {holds : Prop} {path : Option (List (List UInt8) × List UInt8)} {r : Bool × Buffer}
    (h : Copied res_len false holds path r) :
    Copied res_len false holds path
      (if r.1 then (true, { r.2 with outside := r.2.outside || decide (res_len ≤ r.2.back.length) }) else r) := by
  cases hr : r.1 with
  | false =>
    rw [if_neg Bool.false_ne_true]
    exact h
  | true =>
    rw [if_pos rfl]
    obtain ⟨hholds, hsome⟩ := h.returns.mp hr
    obtain ⟨p, hp⟩ := Option.isSome_iff_exists.mp hsome
    obtain ⟨hback, hlt⟩ := h.back p hp hr
    have hbuffer : r.2 = ⟨pathOf p, false⟩ := by rw [← h.outside, ← hback]
    rw [hbuffer, decide_eq_false (not_le.mpr hlt), hp]
    exact copied_end hholds hlt

lemma Copied.of_iff {holds holds' : Prop} {path : Option (List (List UInt8) × List UInt8)} {r : Bool × Buffer}
    (h : Copied res_len o holds path r) (hiff : holds ↔ holds') : Copied res_len o holds' path r where
  outside := h.outside
  returns := by rw [← hiff, h.returns]
  back := h.back

/-- The function finds the path where the buffer holds all that is copied, and only there. -/
lemma resolve_spec {base : List UInt8} (add : List UInt8) {add_node_modules_at : Option Nat}
    (hbehind : Behind base add_node_modules_at) (hlt : 1 < res_len) :
    Copied res_len false (HoldsAll res_len base add add_node_modules_at)
      (target base add add_node_modules_at) (low_fs_resolve res_len base add add_node_modules_at) := by
  obtain ⟨houtside, hreturns, hback⟩ :=
    copyBase_spec (o := decide (res_len ≤ 0)) add hbehind hlt
  rw [decide_eq_false (by omega)] at houtside hreturns hback
  rw [low_fs_resolve, decide_eq_false (show ¬res_len ≤ 0 by omega), HoldsAll, target]
  generalize copyBase res_len base add add_node_modules_at ⟨[slash], false⟩ = r at houtside hreturns hback ⊢
  by_cases hr : r.1 = true
  case neg =>
    simp only [hr, Bool.not_false, if_true]
    refine copied_false (by simpa using hr) houtside ?_
    rintro ⟨⟨hbase, -⟩, hsome⟩
    refine hr (hreturns.mpr ⟨hbase, ?_⟩)
    cases hdirectory : directory base add add_node_modules_at with
    | none => simp [hdirectory] at hsome
    | some dir => rfl
  case pos =>
    obtain ⟨hbase, hsome⟩ := hreturns.mp hr
    obtain ⟨dir, hdirectory⟩ := Option.isSome_iff_exists.mp hsome
    obtain ⟨hdirback, hless, hnamed⟩ := hback dir hdirectory hr
    obtain rfl : r = (true, ⟨backOf dir, false⟩) := by
      rw [← hr, ← houtside, ← hdirback]
    have hinside := inside_named hnamed add_node_modules_at
    rw [hdirectory, Option.bind_some]
    simp only [Bool.not_true, Bool.false_eq_true, if_false]
    cases add_node_modules_at with
    | none =>
      simp only [Option.isSome_none, Bool.false_eq_true, false_and, if_false]
      refine (copied_terminated (copy_segments add dir hnamed hless)).of_iff ⟨?_, ?_⟩
      · rintro hholds
        refine ⟨hbase, ?_⟩
        rintro _ ⟨⟩
        exact ⟨False.elim, hholds⟩
      · exact fun h => (h.2 dir rfl).2
    | some k =>
      have hlength : (backOf (node_modules :: dir)).length = (backOf dir).length + 13 := by
        rw [length_backOf_cons]
        rfl
      simp only [Option.isSome_some, true_and, if_true]
      by_cases hroom : res_len ≤ (backOf dir).length + 13
      · rw [if_pos hroom]
        refine copied_false rfl rfl ?_
        rintro ⟨⟨-, h⟩, -⟩
        have hfits := (h dir rfl).1 trivial
        omega
      · have hput : (node_modules ++ [slash]).foldl (fun b c => Buffer.put b res_len c) ⟨backOf dir, false⟩ =
            ⟨backOf (inside dir (some k)), false⟩ := by
          rw [foldl_put]
          · rfl
          · rw [show (node_modules ++ [slash]).length = 13 from rfl]
            exact not_lt.mp fun h => hroom h.le
        have hfits : (backOf (inside dir (some k))).length < res_len := by
          rw [inside, Option.isSome_some, if_pos rfl, hlength]
          exact not_le.mp hroom
        rw [if_neg hroom, hput]
        refine (copied_terminated (copy_segments add _ hinside hfits)).of_iff ⟨?_, ?_⟩
        · rintro hholds
          refine ⟨hbase, ?_⟩
          rintro _ ⟨⟩
          exact ⟨fun _ => hfits, hholds⟩
        · exact fun h => (h.2 dir rfl).2

/-- What is found has room for a terminator. -/
lemma length_lt_of_resolve {base add : List UInt8} {add_node_modules_at : Option Nat}
    (hbehind : Behind base add_node_modules_at) (hlt : 1 < res_len)
    (h : (low_fs_resolve res_len base add add_node_modules_at).1 = true) :
    (low_fs_resolve res_len base add add_node_modules_at).2.back.length < res_len := by
  have hspec := resolve_spec add hbehind hlt
  obtain ⟨p, hp⟩ := Option.isSome_iff_exists.mp (hspec.returns.mp h).2
  obtain ⟨hback, hless⟩ := hspec.back p hp h
  rwa [hback]

/-- A normalised path, read forward. -/
lemma reverse_pathOf (l dir : List (List UInt8)) (name : List UInt8) :
    (pathOf (l.reverse ++ dir, name)).reverse = (backOf dir).reverse ++ join (l ++ [name]) := by
  induction l generalizing dir with
  | nil => simp [pathOf, join]
  | cons s l ih =>
    rw [List.reverse_cons, List.append_assoc, List.singleton_append, ih, List.cons_append,
      join_cons _ (by simp), backOf]
    simp

/-- A normalised path leads to itself. -/
lemma normal_append {l : List (List UInt8)} (dir : List (List UInt8)) (hl : ∀ s ∈ l, Named s) {name : List UInt8}
    (hname : name = [] ∨ Named name) : normal dir (l ++ [name]) = some (l.reverse ++ dir, name) := by
  induction l generalizing dir with
  | nil =>
    rcases hname with rfl | ⟨hnil, hdot, hup, -⟩
    · rfl
    · simp [normal, isHere, isUp, hnil, hdot, hup]
  | cons s l ih =>
    obtain ⟨hnil, hdot, hup, -⟩ := hl s List.mem_cons_self
    have hrest := ih (s :: dir) (fun t ht => hl t (List.mem_cons_of_mem _ ht))
    rw [List.cons_append, normal.eq_def]
    simp [isHere, isUp, hnil, hdot, hup, hrest]

lemma length_backOf_append (l dir : List (List UInt8)) :
    (backOf dir).length ≤ (backOf (l ++ dir)).length := by
  induction l with
  | nil => exact le_rfl
  | cons s l ih =>
    rw [List.cons_append, length_backOf_cons]
    omega

/-- A normalised path has room while it is copied. -/
lemma holds_append {l : List (List UInt8)} (dir : List (List UInt8)) (hl : ∀ s ∈ l, Named s) {name : List UInt8}
    (hname : name = [] ∨ Named name) (hlt : (pathOf (l.reverse ++ dir, name)).length < res_len) :
    Holds res_len dir (l ++ [name]) := by
  induction l generalizing dir with
  | nil =>
    rcases hname with rfl | ⟨hnil, hdot, hup, -⟩
    · trivial
    · rw [List.nil_append, Holds.eq_def]
      simpa [isHere, isUp, hnil, hdot, hup] using hlt
  | cons s l ih =>
    obtain ⟨hnil, hdot, hup, -⟩ := hl s List.mem_cons_self
    rw [List.reverse_cons, List.append_assoc, List.singleton_append] at hlt
    have hrest := ih (s :: dir) (fun t ht => hl t (List.mem_cons_of_mem _ ht)) hlt
    have hdir := length_backOf_append l.reverse (s :: dir)
    have hfits : (backOf (s :: dir)).length < res_len := by
      rw [pathOf, List.length_append] at hlt
      dsimp only at hlt
      omega
    rw [List.cons_append, Holds.eq_def]
    simp [isHere, isUp, hnil, hdot, hup, hrest, hfits]

/-- A path that has been found is found again. -/
lemma resolve_again {p : List (List UInt8) × List UInt8} (hdir : ∀ s ∈ p.1, Named s)
    (hname : p.2 = [] ∨ Named p.2) (hlt : (pathOf p).length < res_len) (base : List UInt8) :
    low_fs_resolve res_len base (pathOf p).reverse none = (true, ⟨pathOf p, false⟩) := by
  have hrev : ∀ s ∈ p.1.reverse, Named s := fun s hs => hdir s (List.mem_reverse.mp hs)
  have hpath : (p.1.reverse.reverse ++ [], p.2) = p := by rw [List.reverse_reverse, List.append_nil]
  have hout : (pathOf p).reverse = slash :: join (p.1.reverse ++ [p.2]) := by
    have h := reverse_pathOf p.1.reverse [] p.2
    rwa [hpath] at h
  have hnormal := normal_append [] hrev hname
  have hholds : Holds res_len [] (p.1.reverse ++ [p.2]) := holds_append [] hrev hname (by rwa [hpath])
  have hslash : ∀ s ∈ p.1.reverse ++ [p.2], slash ∉ s := by
    intro s hs
    rcases List.mem_append.mp hs with hs | hs
    · exact (hrev s hs).2.2.2
    · rw [List.mem_singleton.mp hs]
      rcases hname with h | h
      · simp [h]
      · exact h.2.2.2
  have hroot : (backOf []).length < res_len := by
    have := length_backOf_append p.1 []
    rw [List.append_nil] at this
    rw [pathOf, List.length_append] at hlt
    omega
  have hcopied := copy_join (o := false) (by simp) hslash [] (by simp) hroot
  rw [hnormal, hpath] at hcopied
  have hreturns := hcopied.returns.mpr ⟨hholds, rfl⟩
  obtain ⟨hback, -⟩ := hcopied.back p rfl hreturns
  have hcopy : copy res_len none (slash :: join (p.1.reverse ++ [p.2])) ⟨[slash], false⟩ =
      (true, ⟨pathOf p, false⟩) := by
    rw [copy_slash rfl]
    change copy res_len none (join (p.1.reverse ++ [p.2])) ⟨backOf [], false⟩ = _
    have houtside := hcopied.outside
    generalize copy res_len none (join (p.1.reverse ++ [p.2])) ⟨backOf [], false⟩ = r at *
    rw [← hback, ← hreturns, ← houtside]
  have hzero : ¬res_len ≤ 0 := by
    intro h
    omega
  rw [hout, low_fs_resolve, decide_eq_false hzero, copyBase, List.head?_cons, if_pos rfl]
  simp only [Bool.not_true, Bool.false_eq_true, if_false, Option.isSome_none, false_and, hcopy, if_true,
    Bool.false_or]
  rw [decide_eq_false (not_le.mpr hlt)]

/-- What is found is normalised. -/
lemma target_named {base add : List UInt8} {add_node_modules_at : Option Nat}
    {p : List (List UInt8) × List UInt8} (h : target base add add_node_modules_at = some p) :
    (∀ s ∈ p.1, Named s) ∧ (p.2 = [] ∨ Named p.2) := by
  obtain ⟨dir, hdirectory, hnormal⟩ := Option.bind_eq_some_iff.mp h
  refine normal_named (slash_notMem_segments add) (inside_named ?_ add_node_modules_at) hnormal
  rw [directory] at hdirectory
  split at hdirectory
  · obtain rfl : [] = dir := Option.some.inj hdirectory
    simp
  · obtain ⟨q, hq, rfl⟩ := Option.map_eq_some_iff.mp hdirectory
    exact (normal_named (slash_notMem_segments _) (by simp) hq).1

/-- A path is found where the buffer holds all that is copied; it is the normalised one. -/
theorem resolve_meets {base add : List UInt8} {add_node_modules_at : Option Nat}
    (hbehind : Behind base add_node_modules_at) (hlt : 1 < res_len) :
    Meets (HoldsAll res_len base add add_node_modules_at) res_len base add add_node_modules_at := by
  have hspec := resolve_spec add hbehind hlt
  refine ⟨hspec.outside, hspec.returns, ?_, ?_⟩
  · intro hr
    obtain ⟨p, hp⟩ := Option.isSome_iff_exists.mp (hspec.returns.mp hr).2
    obtain ⟨hback, hless⟩ := hspec.back p hp hr
    exact ⟨p, hp, hback, hless, target_named hp⟩
  · intro hr base'
    obtain ⟨p, hp⟩ := Option.isSome_iff_exists.mp (hspec.returns.mp hr).2
    obtain ⟨hback, hless⟩ := hspec.back p hp hr
    obtain ⟨hdir, hname⟩ := target_named hp
    have houtside := hspec.outside
    generalize low_fs_resolve res_len base add add_node_modules_at = r at *
    rw [hback, resolve_again hdir hname hless, ← hr, ← hback, ← houtside]

/-- A package next to a module in a directory. -/
theorem resolve_meets_package :
    low_fs_resolve 1024 (bytes "/a/./b/main.js") (bytes "p/../q//x") (some 7) =
        (true, ⟨(bytes "/a/b/node_modules/q/x").reverse, false⟩) ∧
      Meets (HoldsAll 1024 (bytes "/a/./b/main.js") (bytes "p/../q//x") (some 7)) 1024
        (bytes "/a/./b/main.js") (bytes "p/../q//x") (some 7) := by
  refine ⟨by decide +kernel, resolve_meets ?_ (by decide)⟩
  rintro _ ⟨⟩
  decide +kernel

/-- `/x` fits, but a directory on the way to it does not; and a buffer of one byte has no room for the
terminator of the root. -/
theorem resolve_gives_up :
    ¬Meets (Fits 4 (bytes "/") (bytes "/abc/../x") none) 4 (bytes "/") (bytes "/abc/../x") none ∧
      ¬Meets (Fits 1 (bytes "/") (bytes "/") none) 1 (bytes "/") (bytes "/") none := by
  constructor
  · intro h
    have hfits : Fits 4 (bytes "/") (bytes "/abc/../x") none := by
      intro p hp
      obtain rfl : ([], bytes "x") = p := by
        rw [← Option.some.injEq, ← hp]
        decide +kernel
      decide
    have hreturns := h.returns.mpr ⟨hfits, by decide +kernel⟩
    revert hreturns
    decide +kernel
  · intro h
    exact absurd h.within (by decide)

end LowJs.FS.Resolve
