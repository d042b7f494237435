import LowJs.Core.Machine

/-!
# The heap of JavaScript

Each block has its size in front of it, in four bytes. `heap_size` counts both. Where a call would pass
the limit it collects garbage first: the collection calls the three functions itself, and when it is over
the call goes on with what it has read before. A run is therefore a list of calls, some of which stand in
a collection, and of the ends of the collections.
-/

namespace LowJs.DukHeap

/-- A block. Its number stands for its address: a block that is reallocated gets another one. -/
structure Block where
  id : Nat
  size : Nat
  deriving DecidableEq, Repr

/-- A call that waits for the collection it has triggered. `old_size` was read before. -/
inductive Pending
  | alloc (size : Nat)
  | realloc (data old_size size : Nat)
  deriving DecidableEq, Repr

/-- The fields of `low_t`, the call that collects, and the live blocks. The rest is history: whether the
process has been left, whether a block was handed out outside a collection that brought `heap_size` above
the limit, and whether `low_realloc` got a block that is not live. -/
structure Low where
  heap_size : Nat
  max_heap_size : Nat
  in_gc : Bool
  pending : Option Pending
  blocks : List Block
  count : Nat
  exited : Bool
  exceeded : Bool
  undefined : Bool
  deriving DecidableEq, Repr

/-- The calls. `memory` is whether `low_alloc` or `low_realloc` finds memory, if the call gets there at
once; behind a collection `collected` says so. -/
inductive Input
  | alloc (size : Nat) (memory : Bool)
  | realloc (data : Option Nat) (size : Nat) (memory : Bool)
  | free (data : Option Nat)
  | collected (memory : Bool)
  deriving DecidableEq, Repr

/-- What a step returns to the caller. -/
inductive Return
  | nothing
  | null
  | block (id : Nat)
  deriving DecidableEq, Repr

/-- An `unsigned int`. -/
def uint (n : Int) : Nat := (n % 2 ^ 32).toNat

/-- A `size_t`. -/
def size_t (n : Int) : Nat := (n % 2 ^ 64).toNat

namespace Low

/-- The live block with the number. -/
def find (s : Low) (data : Nat) : Option Block := s.blocks.find? (·.id = data)

/-- The end of `low_duk_alloc`: the memory is taken. -/
def take (s : Low) (size : Nat) (memory : Bool) : Low × Return :=
  if memory then
    let heap_size := uint (s.heap_size + (size + 4))
    ({ s with
      heap_size := heap_size
      blocks := s.blocks ++ [⟨s.count, size⟩]
      count := s.count + 1
      exceeded := s.exceeded || (!s.in_gc && decide (s.max_heap_size < heap_size)) }, .block s.count)
  else (s, .null)

/-- The end of `low_duk_realloc`: the memory is taken, and the old block is gone. -/
def retake (s : Low) (data old_size size : Nat) (memory : Bool) : Low × Return :=
  match s.find data with
  | none => ({ s with undefined := true }, .nothing)
  | some b =>
    if memory then
      let heap_size := uint (s.heap_size + (size - old_size : Int))
      ({ s with
        heap_size := heap_size
        blocks := s.blocks.erase b ++ [⟨s.count, size⟩]
        count := s.count + 1
        exceeded := s.exceeded || (!s.in_gc && decide (s.max_heap_size < heap_size)) }, .block s.count)
    else (s, .null)

/-- The garbage collection of a call begins. -/
def collect (s : Low) (pending : Pending) : Low := { s with in_gc := true, pending := some pending }

def low_duk_alloc (s : Low) (size : Nat) (memory : Bool) : Low × Return :=
  if uint (0xFFFFFFF0 - s.heap_size) < size then (s, .null)
  else if !s.in_gc && decide (s.max_heap_size < s.heap_size + size) then
    (s.collect (.alloc size), .nothing)
  else s.take size memory

def low_duk_realloc (s : Low) (data : Option Nat) (size : Nat) (memory : Bool) : Low × Return :=
  match data with
  | none => s.low_duk_alloc size memory
  | some data =>
    match s.find data with
    | none => (s, .nothing)
    | some b =>
      let old_size := uint b.size
      let rest := size_t (s.heap_size - old_size)
      if size_t (0xFFFFFFF0 - rest) < size then (s, .null)
      else if !s.in_gc && decide (s.max_heap_size < size_t (rest + size)) then
        (s.collect (.realloc data old_size size), .nothing)
      else s.retake data old_size size memory

def low_duk_free (s : Low) (data : Option Nat) : Low × Return :=
  match data.bind s.find with
  | none => (s, .nothing)
  | some b =>
    ({ s with
      heap_size := uint (s.heap_size - (uint b.size + 4))
      blocks := s.blocks.erase b }, .nothing)

/-- The collection is over: the call tests the limit again, and goes on. -/
def collected (s : Low) (memory : Bool) : Low × Return :=
  let t := { s with in_gc := false, pending := none }
  match s.pending with
  | none => (s, .nothing)
  | some (.alloc size) =>
    if s.max_heap_size < s.heap_size + size + 4 then ({ t with exited := true }, .nothing)
    else t.take size memory
  | some (.realloc data old_size size) =>
    if s.max_heap_size < size_t (size_t (s.heap_size - old_size) + size) then
      ({ t with exited := true }, .nothing)
    else t.retake data old_size size memory

/-- A step, with what it returns. A call names `NULL` or a live block; any other number is ignored. -/
def call (s : Low) (i : Input) : Low × Return :=
  if s.exited ∨ s.undefined then (s, .nothing)
  else
    match i with
    | .alloc size memory => s.low_duk_alloc size memory
    | .realloc data size memory => s.low_duk_realloc data size memory
    | .free data => s.low_duk_free data
    | .collected memory => s.collected memory

def step (s : Low) (i : Input) : Low := (s.call i).1

/-- The heap before the first call, with a limit. -/
def start (max_heap_size : Nat) : Low :=
  ⟨0, max_heap_size, false, none, [], 0, false, false, false⟩

/-- The bytes of the live blocks with their headers. -/
def total (s : Low) : Nat := (s.blocks.map fun b => b.size + 4).sum

/-- `heap_size` is the number of the bytes of the live blocks, no block that was handed out outside a
collection has brought it above the limit, a call that returns `NULL` leaves it as it is, and no block is
used that is not live. -/
structure Sound (s : Low) : Prop where
  accounted : s.heap_size = s.total
  fits : s.heap_size < 2 ^ 32
  within : s.exceeded = false
  null : ∀ i, (s.call i).2 = .null → (s.step i).heap_size = s.heap_size
  defined : s.undefined = false

end Low

def machine : Machine Low Input := ⟨Low.step⟩

namespace Low

/-- The condition on a block that is handed out at once. Outside a collection the four bytes of the header
do not bring `heap_size` above the limit, and where `heap_size` has passed the constant of the first test,
so that the test itself wraps, the block fits all the same. -/
def Spares (s : Low) (size : Nat) : Prop :=
  (s.in_gc = false → s.heap_size + size ≤ s.max_heap_size → s.heap_size + size + 4 ≤ s.max_heap_size) ∧
    (0xFFFFFFF0 < s.heap_size → s.heap_size + size + 4 < 2 ^ 32)

/-- A call leaves the block alone that `low_duk_realloc` was called with while it collects. -/
def Leaves (s : Low) (data : Nat) : Prop :=
  ∀ old_size size, s.pending ≠ some (.realloc data old_size size)

/-- The condition under which a step keeps the account. -/
def Admits (s : Low) : Input → Prop
  | .alloc size memory => memory = true → s.Spares size
  | .realloc none size memory => memory = true → s.Spares size
  | .realloc (some data) size memory =>
    s.Leaves data ∧ (memory = true ∨ s.in_gc = false → ∀ b, s.find data = some b →
      0xFFFFFFF0 < s.heap_size - b.size → s.heap_size - b.size + size < 2 ^ 32)
  | .free data => ∀ id, data = some id → s.Leaves id
  | .collected _ => True

/-! ### The invariant -/

def bytes (blocks : List Block) : Nat := (blocks.map fun b => b.size + 4).sum

lemma bytes_concat (blocks : List Block) (b : Block) :
    bytes (blocks ++ [b]) = bytes blocks + (b.size + 4) := by
  simp [bytes]

lemma bytes_erase {blocks : List Block} {b : Block} (hb : b ∈ blocks) :
    b.size + 4 + bytes (blocks.erase b) = bytes blocks :=
  List.sum_map_erase (fun b => b.size + 4) hb

lemma uint_natCast {n : Nat} (h : n < 2 ^ 32) : uint n = n := by
  rw [uint, Int.emod_eq_of_lt (by omega) (by omega), Int.toNat_natCast]

lemma size_t_natCast {n : Nat} (h : n < 2 ^ 64) : size_t n = n := by
  rw [size_t, Int.emod_eq_of_lt (by omega) (by omega), Int.toNat_natCast]

/-- What the account rests on. The block of a `low_duk_realloc` that waits is live, with the size read. -/
structure Inv (s : Low) : Prop where
  accounted : s.heap_size = bytes s.blocks
  fits : s.heap_size < 2 ^ 32
  limit : s.max_heap_size < 2 ^ 32
  ids : (s.blocks.map Block.id).Nodup
  fresh : ∀ b ∈ s.blocks, b.id < s.count
  waits : s.in_gc = s.pending.isSome
  old : ∀ data old_size size, s.pending = some (.realloc data old_size size) →
    ∃ b ∈ s.blocks, b.id = data ∧ b.size = old_size ∧ size < 2 ^ 32
  within : s.exceeded = false
  defined : s.undefined = false

namespace Inv

variable {s : Low}

/-- Two live blocks with one number are one block. -/
lemma eq_of_id (h : s.Inv) {b c : Block} (hb : b ∈ s.blocks) (hc : c ∈ s.blocks) (hid : b.id = c.id) :
    b = c :=
  List.inj_on_of_nodup_map h.ids hb hc hid

lemma find_eq (h : s.Inv) {b : Block} (hb : b ∈ s.blocks) : s.find b.id = some b := by
  cases hfind : s.find b.id with
  | none =>
    have := List.find?_eq_none.mp hfind b hb
    simp at this
  | some c =>
    have hid : c.id = b.id := by simpa using List.find?_some hfind
    rw [h.eq_of_id (List.mem_of_find?_eq_some hfind) hb hid]

lemma size_le (h : s.Inv) {b : Block} (hb : b ∈ s.blocks) : b.size + 4 ≤ s.heap_size := by
  have := bytes_erase hb
  rw [h.accounted]
  omega

lemma uint_size (h : s.Inv) {b : Block} (hb : b ∈ s.blocks) : uint b.size = b.size := by
  have := h.size_le hb
  have := h.fits
  exact uint_natCast (by omega)

lemma size_t_rest (h : s.Inv) {b : Block} (hb : b ∈ s.blocks) :
    size_t (s.heap_size - b.size) = s.heap_size - b.size := by
  have := h.size_le hb
  have := h.fits
  rw [← size_t_natCast (n := s.heap_size - b.size) (by omega), Nat.cast_sub (by omega)]

/-- The memory is taken for a block that fits. -/
lemma take (h : s.Inv) {size : Nat} {memory : Bool}
    (hfits : memory = true → s.heap_size + size + 4 < 2 ^ 32)
    (hwithin : memory = true → s.in_gc = false → s.heap_size + size + 4 ≤ s.max_heap_size) :
    (s.take size memory).1.Inv := by
  cases memory with
  | false => exact h
  | true =>
    have huint : uint (s.heap_size + (size + 4)) = s.heap_size + size + 4 := by
      have := uint_natCast (hfits rfl)
      push_cast at this
      rw [← this]
      congr 1
    simp only [Low.take, if_true, huint]
    constructor
    case accounted =>
      rw [bytes_concat, ← h.accounted]
      rfl
    case fits => exact hfits rfl
    case limit => exact h.limit
    case ids =>
      rw [List.map_append, List.nodup_append]
      refine ⟨h.ids, List.nodup_singleton _, ?_⟩
      intro id hid id' hid'
      obtain ⟨b, hb, rfl⟩ := List.mem_map.mp hid
      rw [List.mem_singleton.mp hid']
      exact (h.fresh b hb).ne
    case fresh =>
      intro b hb
      rcases List.mem_append.mp hb with hb | hb
      · exact Nat.lt_succ_of_lt (h.fresh b hb)
      · rw [List.mem_singleton.mp hb]
        exact Nat.lt_succ_self _
    case waits => exact h.waits
    case old =>
      intro data old_size size' hpending
      obtain ⟨b, hb, hold⟩ := h.old data old_size size' hpending
      exact ⟨b, List.mem_append_left _ hb, hold⟩
    case within =>
      dsimp only
      rw [h.within, Bool.false_or]
      cases hgc : s.in_gc with
      | true => rfl
      | false =>
        have := hwithin rfl hgc
        simpa using this
    case defined => exact h.defined

/-- A block goes that no call waits for. -/
lemma erase (h : s.Inv) {b : Block} (hb : b ∈ s.blocks) (hleaves : s.Leaves b.id) :
    Inv { s with heap_size := s.heap_size - (b.size + 4), blocks := s.blocks.erase b } := by
  constructor
  case accounted =>
    have := bytes_erase hb
    dsimp only
    rw [h.accounted]
    omega
  case fits => exact lt_of_le_of_lt (Nat.sub_le _ _) h.fits
  case limit => exact h.limit
  case ids => exact h.ids.sublist (List.erase_sublist.map _)
  case fresh =>
    intro c hc
    exact h.fresh c (List.mem_of_mem_erase hc)
  case waits => exact h.waits
  case old =>
    intro data old_size size hpending
    obtain ⟨c, hc, hid, hsize⟩ := h.old data old_size size hpending
    refine ⟨c, ?_, hid, hsize⟩
    apply (List.mem_erase_of_ne ?_).mpr hc
    rintro rfl
    exact hleaves old_size size (hid ▸ hpending)
  case within => exact h.within
  case defined => exact h.defined

/-- A reallocation frees the old block and takes the new one. -/
lemma retake_eq (h : s.Inv) {b : Block} (hb : b ∈ s.blocks) (size : Nat) (memory : Bool) :
    s.retake b.id b.size size memory =
      if memory then
        Low.take { s with heap_size := s.heap_size - (b.size + 4), blocks := s.blocks.erase b } size true
      else (s, .null) := by
  have := h.size_le hb
  have heq : (s.heap_size : Int) + (size - b.size) =
      ((s.heap_size - (b.size + 4) : Nat) : Int) + (size + 4) := by omega
  simp only [Low.retake, h.find_eq hb, heq]
  rfl

lemma retake (h : s.Inv) {b : Block} (hb : b ∈ s.blocks) (hleaves : s.Leaves b.id) {size : Nat}
    {memory : Bool} (hfits : memory = true → s.heap_size - b.size + size < 2 ^ 32)
    (hwithin : memory = true → s.in_gc = false → s.heap_size - b.size + size ≤ s.max_heap_size) :
    (s.retake b.id b.size size memory).1.Inv := by
  have hle := h.size_le hb
  rw [h.retake_eq hb]
  cases memory with
  | false => exact h
  | true =>
    have hsum : s.heap_size - (b.size + 4) + size + 4 = s.heap_size - b.size + size := by omega
    rw [if_pos rfl]
    apply (h.erase hb hleaves).take
    · intro _
      exact hsum ▸ hfits rfl
    · intro _ hgc
      exact hsum ▸ hwithin rfl hgc

/-- A call waits for the collection. -/
lemma collect (h : s.Inv) {pending : Pending}
    (hold : ∀ data old_size size, pending = .realloc data old_size size →
      ∃ b ∈ s.blocks, b.id = data ∧ b.size = old_size ∧ size < 2 ^ 32) : (s.collect pending).Inv := by
  refine ⟨h.accounted, h.fits, h.limit, h.ids, h.fresh, rfl, ?_, h.within, h.defined⟩
  intro data old_size size hpending
  exact hold data old_size size (Option.some.inj hpending)

/-- The collection is over. -/
lemma resume (h : s.Inv) : Inv { s with in_gc := false, pending := none } := by
  refine ⟨h.accounted, h.fits, h.limit, h.ids, h.fresh, rfl, ?_, h.within, h.defined⟩
  intro data old_size size hpending
  cases hpending

lemma exit (h : s.Inv) : Inv { s with exited := true } :=
  ⟨h.accounted, h.fits, h.limit, h.ids, h.fresh, h.waits, h.old, h.within, h.defined⟩

/-! ### The calls -/

lemma low_duk_alloc (h : s.Inv) {size : Nat} {memory : Bool} (hspares : memory = true → s.Spares size) :
    (s.low_duk_alloc size memory).1.Inv := by
  rw [Low.low_duk_alloc]
  split
  case isTrue => exact h
  case isFalse htest =>
    split
    case isTrue =>
      apply h.collect
      intro data old_size size' hpending
      cases hpending
    case isFalse hlimit =>
      apply h.take
      case hfits =>
        intro hmemory
        by_cases hlarge : 0xFFFFFFF0 < s.heap_size
        · exact (hspares hmemory).2 hlarge
        · have hle : s.heap_size ≤ 0xFFFFFFF0 := not_lt.mp hlarge
          have huint : uint (0xFFFFFFF0 - s.heap_size) = 0xFFFFFFF0 - s.heap_size := by
            rw [← uint_natCast (n := 0xFFFFFFF0 - s.heap_size) (by omega), Nat.cast_sub hle]
            rfl
          rw [huint] at htest
          omega
      case hwithin =>
        intro hmemory hgc
        have hle : s.heap_size + size ≤ s.max_heap_size := by simpa [hgc] using hlimit
        exact (hspares hmemory).1 hgc hle

lemma low_duk_realloc (h : s.Inv) {data : Option Nat} {size : Nat} {memory : Bool}
    (hok : s.Admits (.realloc data size memory)) : (s.low_duk_realloc data size memory).1.Inv := by
  rw [Low.low_duk_realloc.eq_def]
  cases data with
  | none => exact h.low_duk_alloc hok
  | some data =>
    obtain ⟨hleaves, hok⟩ := hok
    cases hfind : s.find data with
    | none =>
      simp only [hfind]
      exact h
    | some b =>
      have hb : b ∈ s.blocks := List.mem_of_find?_eq_some hfind
      obtain rfl : b.id = data := by simpa using List.find?_some hfind
      have hle := h.size_le hb
      have hlt := h.fits
      simp only [hfind, h.uint_size hb, h.size_t_rest hb]
      split
      case isTrue => exact h
      case isFalse htest =>
        have hfits : memory = true ∨ s.in_gc = false → s.heap_size - b.size + size < 2 ^ 32 := by
          intro hmemory
          by_cases hlarge : 0xFFFFFFF0 < s.heap_size - b.size
          · exact hok hmemory b hfind hlarge
          · have hsize : size_t (0xFFFFFFF0 - (s.heap_size - b.size : Nat)) =
                0xFFFFFFF0 - (s.heap_size - b.size) := by
              rw [← size_t_natCast (n := 0xFFFFFFF0 - (s.heap_size - b.size)) (by omega),
                Nat.cast_sub (not_lt.mp hlarge)]
              rfl
            rw [hsize] at htest
            omega
        split
        case isTrue hlimit =>
          apply h.collect
          intro data old_size size' hpending
          cases hpending
          have hgc : s.in_gc = false := by
            rw [Bool.and_eq_true, Bool.not_eq_true'] at hlimit
            exact hlimit.1
          exact ⟨b, hb, rfl, rfl, lt_of_le_of_lt (Nat.le_add_left _ _) (hfits (.inr hgc))⟩
        case isFalse hlimit =>
          apply h.retake hb hleaves
          · intro hmemory
            exact hfits (.inl hmemory)
          · intro hmemory hgc
            have hsum := hfits (.inl hmemory)
            rw [← Nat.cast_add, size_t_natCast (by omega)] at hlimit
            simpa [hgc] using hlimit

lemma low_duk_free (h : s.Inv) {data : Option Nat} (hok : s.Admits (.free data)) :
    (s.low_duk_free data).1.Inv := by
  rw [Low.low_duk_free]
  cases data with
  | none => exact h
  | some data =>
    rw [Option.bind_some]
    cases hfind : s.find data with
    | none => exact h
    | some b =>
      have hb : b ∈ s.blocks := List.mem_of_find?_eq_some hfind
      obtain rfl : b.id = data := by simpa using List.find?_some hfind
      have hle := h.size_le hb
      have huint : uint (s.heap_size - (uint b.size + 4)) = s.heap_size - (b.size + 4) := by
        have := h.fits
        rw [h.uint_size hb, ← uint_natCast (n := s.heap_size - (b.size + 4)) (by omega), Nat.cast_sub hle]
        rfl
      simp only [huint]
      exact h.erase hb (hok b.id rfl)

/-- Behind the collection the limit is tested with the header. -/
lemma collected (h : s.Inv) (memory : Bool) : (s.collected memory).1.Inv := by
  rw [Low.collected.eq_def]
  cases hpending : s.pending with
  | none => exact h
  | some pending =>
    cases pending with
    | alloc size =>
      dsimp only
      split
      case isTrue => exact h.resume.exit
      case isFalse hlimit =>
        have := h.limit
        apply h.resume.take
        · intro _
          dsimp only
          omega
        · intro _ _
          exact not_lt.mp hlimit
    | realloc data old_size size =>
      obtain ⟨b, hb, rfl, rfl, hsize⟩ := h.old data old_size size hpending
      have hle := h.size_le hb
      have hlt := h.fits
      have hmax := h.limit
      have hsum : size_t ((s.heap_size - b.size : Nat) + size) = s.heap_size - b.size + size := by
        rw [← Nat.cast_add, size_t_natCast (by omega)]
      simp only [h.size_t_rest hb, hsum]
      split
      case isTrue => exact h.resume.exit
      case isFalse hlimit =>
        apply h.resume.retake hb
        · intro old_size size' hpending'
          cases hpending'
        · intro _
          dsimp only
          omega
        · intro _ _
          exact not_lt.mp hlimit

lemma step (h : s.Inv) {i : Input} (hok : s.Admits i) : (s.step i).Inv := by
  rw [Low.step, Low.call.eq_def]
  split
  case isTrue => exact h
  case isFalse =>
    cases i with
    | alloc size memory => exact h.low_duk_alloc hok
    | realloc data size memory => exact h.low_duk_realloc hok
    | free data => exact h.low_duk_free hok
    | collected memory => exact h.collected memory

lemma start {max_heap_size : Nat} (hmax : max_heap_size < 2 ^ 32) : (start max_heap_size).Inv := by
  refine ⟨rfl, by norm_num [Low.start], hmax, List.nodup_nil, ?_, rfl, ?_, rfl, rfl⟩
  · intro b hb
    cases hb
  · intro data old_size size hpending
    cases hpending

end Inv

/-! ### A call that returns `NULL` -/

variable {s : Low}

lemma take_null {size : Nat} {memory : Bool} (h : (s.take size memory).2 = .null) :
    (s.take size memory).1 = s := by
  cases memory with
  | false => rfl
  | true => cases h

lemma retake_null {data old_size size : Nat} {memory : Bool}
    (h : (s.retake data old_size size memory).2 = .null) :
    (s.retake data old_size size memory).1 = s := by
  rw [retake] at h ⊢
  cases hfind : s.find data with
  | none =>
    rw [hfind] at h
    cases h
  | some b =>
    rw [hfind] at h
    cases memory with
    | false => rfl
    | true => cases h

lemma alloc_null {size : Nat} {memory : Bool} (h : (s.low_duk_alloc size memory).2 = .null) :
    (s.low_duk_alloc size memory).1 = s := by
  rw [low_duk_alloc] at h ⊢
  split_ifs at h ⊢ with htest hlimit
  · rfl
  · exact take_null h

lemma realloc_null {data : Option Nat} {size : Nat} {memory : Bool}
    (h : (s.low_duk_realloc data size memory).2 = .null) :
    (s.low_duk_realloc data size memory).1 = s := by
  rw [low_duk_realloc.eq_def] at h ⊢
  cases data with
  | none => exact alloc_null h
  | some data =>
    cases hfind : s.find data with
    | none => simp only [hfind]
    | some b =>
      simp only [hfind] at h ⊢
      split_ifs at h ⊢ with htest hlimit
      · rfl
      · exact retake_null h

lemma free_ne_null (s : Low) (data : Option Nat) : (s.low_duk_free data).2 ≠ .null := by
  rw [low_duk_free]
  cases data.bind s.find with
  | none => exact Return.noConfusion
  | some b => exact Return.noConfusion

lemma collected_null {memory : Bool} (h : (s.collected memory).2 = .null) :
    (s.collected memory).1.heap_size = s.heap_size := by
  rw [collected.eq_def] at h ⊢
  cases hpending : s.pending with
  | none => rfl
  | some pending =>
    rw [hpending] at h
    cases pending with
    | alloc size =>
      dsimp only at h ⊢
      split_ifs at h ⊢ with hlimit
      rw [take_null h]
    | realloc data old_size size =>
      dsimp only at h ⊢
      split_ifs at h ⊢ with hlimit
      rw [retake_null h]

lemma call_null {i : Input} (h : (s.call i).2 = .null) : (s.step i).heap_size = s.heap_size := by
  rw [step]
  rw [call.eq_def] at h ⊢
  split_ifs at h ⊢ with hover
  cases i with
  | alloc size memory => rw [alloc_null h]
  | realloc data size memory => rw [realloc_null h]
  | free data => exact absurd h (s.free_ne_null data)
  | collected memory => exact collected_null h

lemma Inv.sound (h : s.Inv) : s.Sound :=
  ⟨h.accounted, h.fits, h.within, fun _ => call_null, h.defined⟩

end Low

/-- Every run keeps the account whose calls meet the condition. -/
theorem run_sound {max_heap_size : Nat} (hmax : max_heap_size < 2 ^ 32) {is : List Input}
    (hok : machine.Guarded Low.Admits (Low.start max_heap_size) is) :
    (machine.run (Low.start max_heap_size) is).Sound := by
  have hinv : (machine.run (Low.start max_heap_size) is).Inv := by
    apply machine.run_invariant ?_ (Low.Inv.start hmax) hok
    intro s i h hi
    exact h.step hi
  exact hinv.sound

/-- An allocation that collects, while the block goes that has been reallocated before. -/
theorem run_sound_collection :
    (machine.run (Low.start 100) [.alloc 10 true, .realloc (some 0) 20 true, .alloc 90 true,
      .free (some 1), .collected true]).Sound ∧
      (machine.run (Low.start 100) [.alloc 10 true, .realloc (some 0) 20 true, .alloc 90 true,
        .free (some 1), .collected true]).blocks = [⟨2, 90⟩] := by
  refine ⟨run_sound (by decide) ⟨?_, ?_, ?_, ?_, trivial, trivial⟩, by decide⟩
  · exact fun _ => ⟨by decide, by decide⟩
  · refine ⟨?_, ?_⟩
    · intro old_size size hpending
      cases hpending
    · intro _ b hb hlarge
      obtain rfl : b = ⟨0, 10⟩ := (Option.some.inj hb).symm
      revert hlarge
      decide
  · exact fun _ => ⟨by decide, by decide⟩
  · intro id hid old_size size hpending
    cases hpending

/-- Two bytes below the limit there is no room for the header of a block: it is handed out. -/
theorem alloc_exceeds :
    ¬ ∀ max_heap_size < 2 ^ 32, ∀ is : List Input,
      (machine.run (Low.start max_heap_size) is).Sound := by
  intro h
  have hwithin := (h 536870912 (by decide) [.alloc 536870910 true]).within
  revert hwithin
  decide

end LowJs.DukHeap
