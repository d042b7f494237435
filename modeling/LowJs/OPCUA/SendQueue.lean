import LowJs.Core.Prefixes

/-!
# The send queue of an OPC UA client

What `send` does not take stays in a chain of blocks. `mWriteBufferRead` counts the bytes of the first
block that are sent, `mWriteBufferLastLen` those that are in the last, which may be the same block.
`OnSend` sends itself where the chain is empty; `OnEvents` sends the blocks, each from its first byte on.
-/

namespace LowJs.SendQueue

abbrev Bytes := List UInt8

def LOW_OPCUA_WRITEBUFFER_SIZE : Nat := 1024

/-- The results of `send`: a length, one of `EAGAIN`, `EWOULDBLOCK` and `EINTR`, or another error. -/
inductive Sent
  | size (n : Nat)
  | again
  | error
  deriving DecidableEq, Repr

/-- The chain from `mWriteBuffer` to `mWriteBufferLast`, without the pointers in front of the bytes. The
rest is history: the bytes that the socket has accepted, and those that `OnSend` was given. -/
structure LowOPCUA where
  blocks : List Bytes
  mWriteBufferRead : Nat
  mWriteBufferLastLen : Nat
  mDisabledState : Bool
  accepted : Bytes
  given : Bytes

def start : LowOPCUA := ⟨[], 0, 0, false, [], []⟩

/-- `memcpy` to a place in a block. -/
def memcpy (block : Bytes) (offset : Nat) (data : Bytes) : Bytes :=
  block.take offset ++ data ++ block.drop (offset + data.length)

namespace LowOPCUA

/-- The loop of `OnSend`. `fails` is the number of blocks after which `low_alloc` has no memory. -/
def store : Nat → LowOPCUA → Bytes → Option Nat → LowOPCUA
  | 0, s, _, _ => s
  | fuel + 1, s, buf, fails =>
    if buf = [] then s
    else if s.blocks ≠ [] ∧ s.mWriteBufferLastLen ≠ LOW_OPCUA_WRITEBUFFER_SIZE then
      let size := min (LOW_OPCUA_WRITEBUFFER_SIZE - s.mWriteBufferLastLen) buf.length
      let last := s.blocks.getLast?.map (memcpy · s.mWriteBufferLastLen (buf.take size))
      store fuel
        { s with
          blocks := s.blocks.dropLast ++ last.toList
          mWriteBufferLastLen := s.mWriteBufferLastLen + size }
        (buf.drop size) fails
    else if fails = some 0 then s
    else
      let size := min LOW_OPCUA_WRITEBUFFER_SIZE buf.length
      let buffer := memcpy (List.replicate LOW_OPCUA_WRITEBUFFER_SIZE 0) 0 (buf.take size)
      store fuel
        { s with
          blocks := s.blocks ++ [buffer]
          mWriteBufferRead := if s.blocks = [] then 0 else s.mWriteBufferRead
          mWriteBufferLastLen := size }
        (buf.drop size) (fails.map Nat.pred)

/-- `OnSend`; `sent` is the result of `send`, where it is called. -/
def OnSend (s : LowOPCUA) (buf : Bytes) (sent : Sent) (fails : Option Nat) : LowOPCUA :=
  let s := { s with given := s.given ++ buf }
  if s.blocks = [] then
    match sent with
    | .error => s
    | .again => store buf.length s buf fails
    | .size n =>
      store buf.length { s with accepted := s.accepted ++ buf.take n } (buf.drop n) fails
  else store buf.length s buf fails

/-- The bytes of the first block, sent or not. -/
def firstLen (s : LowOPCUA) : Nat :=
  if s.blocks.length = 1 then s.mWriteBufferLastLen else LOW_OPCUA_WRITEBUFFER_SIZE

/-- The loop of `OnEvents`, with the results of `send` in turn; behind them stands `EAGAIN`. -/
def flush : List Sent → LowOPCUA → LowOPCUA
  | [], s => s
  | sent :: results, s =>
    match s.blocks with
    | [] => s
    | block :: blocks =>
      let len := s.firstLen - s.mWriteBufferRead
      match sent with
      | .again => s
      | .error => { s with mDisabledState := true }
      | .size n =>
        let size := min n len
        let s := { s with accepted := s.accepted ++ block.take size }
        if size ≠ len then { s with mWriteBufferRead := s.mWriteBufferRead + size }
        else flush results { s with blocks := blocks, mWriteBufferRead := 0 }

/-- `OnEvents`, up to `UA_Client_run_iterate`; what that sends comes as calls of `OnSend`. -/
def OnEvents (s : LowOPCUA) (results : List Sent) : LowOPCUA :=
  if s.mDisabledState then s else flush results s

end LowOPCUA

/-- The calls; `disable` is the rest of the code that sets `mDisabledState`. -/
inductive Input
  | onSend (buf : Bytes) (sent : Sent) (fails : Option Nat)
  | onEvents (results : List Sent)
  | disable
  deriving DecidableEq

def LowOPCUA.step (s : LowOPCUA) : Input → LowOPCUA
  | .onSend buf sent fails => s.OnSend buf sent fails
  | .onEvents results => s.OnEvents results
  | .disable => { s with mDisabledState := true }

def machine : Machine LowOPCUA Input := ⟨LowOPCUA.step⟩

/-- Nothing is lost, duplicated or reordered, and all is sent once the chain is empty. -/
def LowOPCUA.Exact (s : LowOPCUA) : Prop :=
  s.accepted <+: s.given ∧ (s.blocks = [] → s.accepted = s.given)

instance (s : LowOPCUA) : Decidable s.Exact := inferInstanceAs (Decidable (_ ∧ _))

namespace LowOPCUA

/-! ### The bytes of the chain -/

/-- The bytes in a chain whose last block holds `lastLen`. -/
def content (lastLen : Nat) : List Bytes → Bytes
  | [] => []
  | [block] => block.take lastLen
  | block :: next :: blocks => block ++ content lastLen (next :: blocks)

/-- What is still to be sent. -/
def pending (s : LowOPCUA) : Bytes := (content s.mWriteBufferLastLen s.blocks).drop s.mWriteBufferRead

lemma content_concat (n : Nat) (blocks : List Bytes) (block : Bytes) :
    content n (blocks ++ [block]) = blocks.flatten ++ block.take n := by
  induction blocks with
  | nil => simp [content]
  | cons b blocks ih =>
    cases blocks with
    | nil => simp [content]
    | cons c blocks =>
      rw [List.cons_append, List.cons_append, content, ← List.cons_append, ih]
      simp only [List.flatten_cons, List.append_assoc]

/-- The bounds of the chain. -/
structure Bounds (s : LowOPCUA) : Prop where
  full : ∀ block ∈ s.blocks, block.length = LOW_OPCUA_WRITEBUFFER_SIZE
  lastLen : s.blocks ≠ [] → 0 < s.mWriteBufferLastLen ∧ s.mWriteBufferLastLen ≤ LOW_OPCUA_WRITEBUFFER_SIZE
  read : s.blocks ≠ [] → s.mWriteBufferRead < s.firstLen

lemma bounds_start : start.Bounds :=
  ⟨fun _ h => absurd h List.not_mem_nil, fun h => absurd rfl h, fun h => absurd rfl h⟩

lemma length_memcpy (block : Bytes) (offset : Nat) (data : Bytes) (h : offset + data.length ≤ block.length) :
    (memcpy block offset data).length = block.length := by
  simp only [memcpy, List.length_append, List.length_take, List.length_drop]
  omega

lemma take_memcpy (block : Bytes) (offset : Nat) (data : Bytes) (h : offset ≤ block.length) :
    (memcpy block offset data).take (offset + data.length) = block.take offset ++ data := by
  rw [memcpy]
  apply List.take_left'
  simp only [List.length_append, List.length_take]
  omega

lemma length_content {s : LowOPCUA} (h : s.Bounds) (hne : s.blocks ≠ []) :
    s.mWriteBufferRead ≤ (content s.mWriteBufferLastLen s.blocks).length := by
  have hread := h.read hne
  have hlast := h.lastLen hne
  have hfull := h.full
  unfold firstLen at hread
  match hb : s.blocks with
  | [] => exact absurd hb hne
  | [block] =>
    have := hfull block (by rw [hb]; exact List.mem_cons_self)
    rw [hb] at hread
    simp only [List.length_singleton, if_true] at hread
    simp only [content, List.length_take]
    omega
  | block :: next :: blocks =>
    have := hfull block (by rw [hb]; exact List.mem_cons_self)
    rw [hb] at hread
    simp only [List.length_cons, Nat.add_eq_right, Nat.add_eq_zero_iff, one_ne_zero, and_false, if_false] at hread
    simp only [content, List.length_append]
    omega

/-! ### What `OnSend` stores -/

/-- What the loop of `OnSend` leaves alone. -/
lemma store_frame (fuel : Nat) (s : LowOPCUA) (buf : Bytes) (fails : Option Nat) :
    (store fuel s buf fails).accepted = s.accepted ∧ (store fuel s buf fails).given = s.given ∧
      (store fuel s buf fails).mDisabledState = s.mDisabledState := by
  induction fuel generalizing s buf fails with
  | zero => exact ⟨rfl, rfl, rfl⟩
  | succ fuel ih =>
    rw [store]
    split
    · exact ⟨rfl, rfl, rfl⟩
    split
    · exact ih ..
    split
    · exact ⟨rfl, rfl, rfl⟩
    · exact ih ..

/-- A block with room takes the next bytes. -/
lemma fill_last {s : LowOPCUA} (h : s.Bounds) {blocks : List Bytes} {last : Bytes}
    (hb : s.blocks = blocks ++ [last]) (data : Bytes)
    (hroom : s.mWriteBufferLastLen + data.length ≤ LOW_OPCUA_WRITEBUFFER_SIZE) :
    let t := { s with
      blocks := blocks ++ [memcpy last s.mWriteBufferLastLen data]
      mWriteBufferLastLen := s.mWriteBufferLastLen + data.length }
    t.Bounds ∧ t.pending = s.pending ++ data := by
  have hne : s.blocks ≠ [] := by rw [hb]; simp
  have hlast : last.length = LOW_OPCUA_WRITEBUFFER_SIZE := h.full last (by rw [hb]; simp)
  have hlen := length_memcpy last s.mWriteBufferLastLen data (by rw [hlast]; exact hroom)
  constructor
  · constructor
    · intro block hblock
      rcases List.mem_append.mp hblock with hin | hin
      · exact h.full block (by rw [hb]; exact List.mem_append_left _ hin)
      · rw [List.mem_singleton.mp hin, hlen, hlast]
    · intro _
      have := h.lastLen hne
      exact ⟨by simp only; omega, hroom⟩
    · intro _
      have hread := h.read hne
      simp only [firstLen, hb, List.length_append, List.length_singleton] at hread ⊢
      split at hread <;> rename_i hone
      · rw [if_pos hone]; omega
      · rw [if_neg hone]; exact hread
  · have hle := length_content h hne
    simp only [pending, hb, content_concat] at hle ⊢
    rw [take_memcpy _ _ _ (by rw [hlast]; omega), ← List.append_assoc, List.drop_append_of_le_length hle]

/-- A new block takes the next bytes where the last one is full. -/
lemma new_block {s : LowOPCUA} (h : s.Bounds)
    (hfull : s.blocks ≠ [] → s.mWriteBufferLastLen = LOW_OPCUA_WRITEBUFFER_SIZE) (data : Bytes)
    (hpos : 0 < data.length) (hroom : data.length ≤ LOW_OPCUA_WRITEBUFFER_SIZE) :
    let t := { s with
      blocks := s.blocks ++ [memcpy (List.replicate LOW_OPCUA_WRITEBUFFER_SIZE 0) 0 data]
      mWriteBufferRead := if s.blocks = [] then 0 else s.mWriteBufferRead
      mWriteBufferLastLen := data.length }
    t.Bounds ∧ t.pending = s.pending ++ data := by
  have hzero : (List.replicate LOW_OPCUA_WRITEBUFFER_SIZE (0 : UInt8)).length = LOW_OPCUA_WRITEBUFFER_SIZE :=
    List.length_replicate ..
  have hlen := length_memcpy (List.replicate LOW_OPCUA_WRITEBUFFER_SIZE 0) 0 data (by rw [hzero]; omega)
  have htake := take_memcpy (List.replicate LOW_OPCUA_WRITEBUFFER_SIZE 0) 0 data (Nat.zero_le _)
  rw [Nat.zero_add, List.take_zero, List.nil_append] at htake
  have hbounds : ∀ block ∈ s.blocks ++ [memcpy (List.replicate LOW_OPCUA_WRITEBUFFER_SIZE 0) 0 data],
      block.length = LOW_OPCUA_WRITEBUFFER_SIZE := by
    intro block hblock
    rcases List.mem_append.mp hblock with hin | hin
    · exact h.full block hin
    · rw [List.mem_singleton.mp hin, hlen, hzero]
  by_cases hnil : s.blocks = []
  · refine ⟨⟨hbounds, fun _ => ⟨hpos, hroom⟩, fun _ => ?_⟩, ?_⟩
    · simpa [firstLen, hnil] using hpos
    · simp [pending, hnil, content, htake]
  · have hread := h.read hnil
    have hle := length_content h hnil
    have hsize := hfull hnil
    refine ⟨⟨hbounds, fun _ => ⟨hpos, hroom⟩, fun _ => ?_⟩, ?_⟩
    · have : s.mWriteBufferRead < LOW_OPCUA_WRITEBUFFER_SIZE := by
        rw [firstLen, hsize, ite_self] at hread
        exact hread
      simpa [firstLen, hnil] using this
    · obtain ⟨blocks, last, hb⟩ := (List.eq_nil_or_concat s.blocks).resolve_left hnil
      have hlast : last.length = LOW_OPCUA_WRITEBUFFER_SIZE := h.full last (by rw [hb]; simp)
      have hcontent : content s.mWriteBufferLastLen s.blocks = s.blocks.flatten := by
        rw [hb, List.concat_eq_append, content_concat, hsize, ← hlast, List.take_length]
        simp
      rw [hcontent] at hle
      simp only [pending, content_concat, if_neg hnil, htake, hcontent]
      rw [List.drop_append_of_le_length hle]

/-- The loop of `OnSend` stores all of the buffer. -/
lemma store_pending {fuel : Nat} {s : LowOPCUA} {buf : Bytes} (h : s.Bounds) (hfuel : buf.length ≤ fuel) :
    (store fuel s buf none).Bounds ∧ (store fuel s buf none).pending = s.pending ++ buf := by
  induction fuel generalizing s buf with
  | zero =>
    have : buf = [] := List.length_eq_zero_iff.mp (Nat.le_zero.mp hfuel)
    rw [store, this, List.append_nil]
    exact ⟨h, rfl⟩
  | succ fuel ih =>
    rw [store]
    split
    · rename_i hnil
      rw [hnil, List.append_nil]
      exact ⟨h, rfl⟩
    rename_i hnil
    have hpos : 0 < buf.length := List.length_pos_iff.mpr hnil
    split
    · rename_i hroom
      obtain ⟨hne, hroom⟩ := hroom
      obtain ⟨blocks, last, hb⟩ := (List.eq_nil_or_concat s.blocks).resolve_left hne
      rw [List.concat_eq_append] at hb
      have hlast := h.lastLen hne
      have hsize : 0 < min (LOW_OPCUA_WRITEBUFFER_SIZE - s.mWriteBufferLastLen) buf.length := by omega
      have hlen : (buf.take (min (LOW_OPCUA_WRITEBUFFER_SIZE - s.mWriteBufferLastLen) buf.length)).length =
          min (LOW_OPCUA_WRITEBUFFER_SIZE - s.mWriteBufferLastLen) buf.length := by
        rw [List.length_take]; omega
      have hfill := fill_last h hb (buf.take _) (by rw [hlen]; omega)
      simp only [hlen] at hfill
      obtain ⟨hbounds, hpending⟩ := hfill
      simp only [hb, List.dropLast_concat, List.getLast?_append, List.getLast?_singleton, Option.some_or,
        Option.map_some, Option.toList_some]
      have hdrop : (buf.drop (min (LOW_OPCUA_WRITEBUFFER_SIZE - s.mWriteBufferLastLen) buf.length)).length ≤
          fuel := by
        rw [List.length_drop]; omega
      obtain ⟨hb', hp'⟩ := ih hbounds hdrop
      refine ⟨hb', ?_⟩
      rw [hp', hpending, List.append_assoc, List.take_append_drop]
    · rename_i hroom
      rw [if_neg (by simp)]
      have hlen : (buf.take (min LOW_OPCUA_WRITEBUFFER_SIZE buf.length)).length =
          min LOW_OPCUA_WRITEBUFFER_SIZE buf.length := by
        rw [List.length_take]; omega
      have hsize : 0 < min LOW_OPCUA_WRITEBUFFER_SIZE buf.length := by
        rw [LOW_OPCUA_WRITEBUFFER_SIZE]; omega
      have hnew := new_block h (fun hne => not_not.mp fun hlast => hroom ⟨hne, hlast⟩)
        (buf.take _) (by rw [hlen]; exact hsize) (by rw [hlen]; exact Nat.min_le_left ..)
      simp only [hlen] at hnew
      obtain ⟨hbounds, hpending⟩ := hnew
      have hdrop : (buf.drop (min LOW_OPCUA_WRITEBUFFER_SIZE buf.length)).length ≤ fuel := by
        rw [List.length_drop]; omega
      obtain ⟨hb', hp'⟩ := ih hbounds hdrop
      refine ⟨hb', ?_⟩
      rw [Option.map_none, hp', hpending, List.append_assoc, List.take_append_drop]

/-! ### What `OnEvents` sends -/

/-- The bounds of the first block. -/
lemma Bounds.first {s : LowOPCUA} (h : s.Bounds) {block : Bytes} {blocks : List Bytes}
    (hb : s.blocks = block :: blocks) : s.mWriteBufferRead < s.firstLen ∧ s.firstLen ≤ block.length := by
  have hne : s.blocks ≠ [] := by rw [hb]; exact List.cons_ne_nil _ _
  refine ⟨h.read hne, ?_⟩
  rw [firstLen, h.full block (by rw [hb]; exact List.mem_cons_self)]
  have := (h.lastLen hne).2
  split <;> omega

/-- The bytes that are due are those of the first block behind `mWriteBufferRead`, and then the others. -/
lemma pending_cons {s : LowOPCUA} (h : s.Bounds) {block : Bytes} {blocks : List Bytes}
    (hb : s.blocks = block :: blocks) :
    s.pending = (block.take s.firstLen).drop s.mWriteBufferRead ++ content s.mWriteBufferLastLen blocks := by
  have hlen := h.full block (by rw [hb]; exact List.mem_cons_self)
  have hread := h.read (by rw [hb]; exact List.cons_ne_nil _ _)
  cases blocks with
  | nil => simp [pending, firstLen, hb, content]
  | cons next blocks =>
    have hfirst : s.firstLen = block.length := by simp [firstLen, hb, hlen]
    rw [pending, hb, content, hfirst, List.take_length, List.drop_append_of_le_length]
    omega

/-- The invariant: what is accepted and what is still to be sent make up what was given. -/
structure Inv (s : LowOPCUA) : Prop where
  bounds : s.Bounds
  account : s.accepted ++ s.pending = s.given

lemma Inv.exact {s : LowOPCUA} (h : s.Inv) : s.Exact := by
  refine ⟨⟨s.pending, h.account⟩, fun hnil => ?_⟩
  rw [← h.account, pending, hnil, content, List.drop_nil, List.append_nil]

/-- The bytes that a first `send` of `size` bytes takes are those that are due. -/
def Takes (s : LowOPCUA) (n : Nat) (block : Bytes) : Prop :=
  block.take (min n (s.firstLen - s.mWriteBufferRead)) =
    (block.drop s.mWriteBufferRead).take (min n (s.firstLen - s.mWriteBufferRead))

lemma Inv.flush {results : List Sent} {s : LowOPCUA} (h : s.Inv) (herror : Sent.error ∉ results)
    (htakes : ∀ block ∈ s.blocks.head?, ∀ n, results.head? = some (.size n) → s.Takes n block) :
    (flush results s).Inv := by
  induction results generalizing s with
  | nil => exact h
  | cons sent results ih =>
    rw [LowOPCUA.flush]
    split
    · exact h
    rename_i block blocks hb
    obtain ⟨hread, hfirst⟩ := h.bounds.first hb
    have hpending := pending_cons h.bounds hb
    have haccount := h.account
    cases sent with
    | again => exact h
    | error => exact absurd List.mem_cons_self herror
    | size n =>
      have htake := htakes block (by rw [hb]; rfl) n rfl
      unfold Takes at htake
      -- what is due of the first block, cut where `send` stops
      have hcut : (block.take s.firstLen).drop s.mWriteBufferRead =
          block.take (min n (s.firstLen - s.mWriteBufferRead)) ++
            (block.take s.firstLen).drop
              (s.mWriteBufferRead + min n (s.firstLen - s.mWriteBufferRead)) := by
        rw [htake, List.drop_take, List.drop_take, ← List.drop_drop]
        conv_lhs => rw [← List.take_append_drop (min n (s.firstLen - s.mWriteBufferRead))
          ((block.drop s.mWriteBufferRead).take _)]
        rw [List.take_take, Nat.min_eq_left (Nat.min_le_right ..), List.drop_take]
        congr 2
        omega
      simp only
      split
      · rename_i hpart
        have hbounds : Bounds { s with
            accepted := s.accepted ++ block.take (min n (s.firstLen - s.mWriteBufferRead))
            mWriteBufferRead := s.mWriteBufferRead + min n (s.firstLen - s.mWriteBufferRead) } := by
          refine ⟨h.bounds.full, h.bounds.lastLen, fun _ => ?_⟩
          change s.mWriteBufferRead + min n (s.firstLen - s.mWriteBufferRead) < s.firstLen
          omega
        refine ⟨hbounds, ?_⟩
        rw [pending_cons hbounds hb, ← haccount, hpending, hcut, List.append_assoc, List.append_assoc]
        rfl
      · rename_i hall
        rw [not_not] at hall
        apply ih
        · constructor
          · constructor
            · intro b hin
              exact h.bounds.full b (by rw [hb]; exact List.mem_cons_of_mem block hin)
            · intro _
              exact h.bounds.lastLen (by rw [hb]; exact List.cons_ne_nil _ _)
            · intro _
              have := h.bounds.lastLen (by rw [hb]; exact List.cons_ne_nil _ _)
              simp only [firstLen]
              split
              · exact this.1
              · rw [LOW_OPCUA_WRITEBUFFER_SIZE]; omega
          · rw [pending]
            simp only [List.drop_zero]
            rw [← haccount, hpending, hcut, List.append_assoc]
            congr 1
            rw [hall, Nat.add_sub_cancel' hread.le, List.drop_eq_nil_of_le (by rw [List.length_take]; omega),
              List.append_nil]
        · exact fun hin => herror (List.mem_cons_of_mem _ hin)
        · intro b _ m _
          simp only [Takes, List.drop_zero]

/-- What the flush leaves alone, and what it adds to. -/
lemma flush_frame (results : List Sent) (s : LowOPCUA) :
    (flush results s).given = s.given ∧ s.accepted <+: (flush results s).accepted := by
  induction results generalizing s with
  | nil => exact ⟨rfl, List.prefix_rfl⟩
  | cons sent results ih =>
    rw [LowOPCUA.flush]
    split
    · exact ⟨rfl, List.prefix_rfl⟩
    cases sent with
    | again => exact ⟨rfl, List.prefix_rfl⟩
    | error => exact ⟨rfl, List.prefix_rfl⟩
    | size n =>
      simp only
      split
      · exact ⟨rfl, List.prefix_append ..⟩
      · obtain ⟨hgiven, hpre⟩ := ih { s with
          accepted := s.accepted ++ List.take (min n (s.firstLen - s.mWriteBufferRead)) _
          blocks := _, mWriteBufferRead := 0 }
        exact ⟨hgiven, (List.prefix_append ..).trans hpre⟩

lemma take_eq_take {a b c : Bytes} {k m : Nat} (ha : k ≤ a.length) (hb : k ≤ b.length) (hm : k ≤ m)
    (h : a.take k <+: b.take m ++ c) : a.take k = b.take k := by
  have htake := List.prefix_iff_eq_take.mp h
  have hk : (a.take k).length = k := by rw [List.length_take]; omega
  rw [hk, List.take_append_of_le_length (by rw [List.length_take]; omega), List.take_take,
    Nat.min_eq_left hm] at htake
  exact htake

/-- A first `send` that takes other bytes than those that are due spoils the stream. -/
lemma Inv.spoiled {results : List Sent} {s : LowOPCUA} (h : s.Inv) {block : Bytes} {n : Nat}
    (hblock : block ∈ s.blocks.head?) (hsent : results.head? = some (.size n)) (htakes : ¬s.Takes n block) :
    ¬(LowOPCUA.flush results s).Exact := by
  intro hexact
  apply htakes
  obtain ⟨blocks, hb⟩ := List.head?_eq_some_iff.mp hblock
  obtain ⟨results, rfl⟩ := List.head?_eq_some_iff.mp hsent
  obtain ⟨hread, hfirst⟩ := h.bounds.first hb
  have hmono : s.accepted ++ block.take (min n (s.firstLen - s.mWriteBufferRead)) <+:
      (LowOPCUA.flush (.size n :: results) s).accepted := by
    rw [LowOPCUA.flush]
    simp only [hb]
    split
    · exact List.prefix_rfl
    · refine List.IsPrefix.trans ?_ (flush_frame results _).2
      exact List.prefix_rfl
  have hpre := hmono.trans hexact.1
  rw [(flush_frame (.size n :: results) s).1, ← h.account, List.prefix_append_right_inj, pending_cons h.bounds hb,
    List.drop_take] at hpre
  have hsize : min n (s.firstLen - s.mWriteBufferRead) ≤ s.firstLen - s.mWriteBufferRead :=
    Nat.min_le_right ..
  exact take_eq_take (by omega) (by rw [List.length_drop]; omega) hsize hpre

end LowOPCUA

/-! ### Runs -/

/-- The results of `send` are lengths or `EAGAIN`, `EWOULDBLOCK` and `EINTR`, and no block lacks memory. -/
def Input.Regular : Input → Prop
  | .onSend _ sent fails => sent ≠ .error ∧ fails = none
  | .onEvents results => Sent.error ∉ results
  | .disable => True

/-- A flush that finds a part of the first block sent either sends nothing first or finds the same bytes at
the start of the block as behind `mWriteBufferRead`. -/
def LowOPCUA.Due (s : LowOPCUA) : Input → Prop
  | .onEvents results => s.mDisabledState = false → ∀ block ∈ s.blocks.head?, ∀ n,
      results.head? = some (.size n) → s.Takes n block
  | _ => True

namespace LowOPCUA

lemma Inv.onSend {s : LowOPCUA} (h : s.Inv) (buf : Bytes) {sent : Sent} (hsent : sent ≠ .error) :
    (s.OnSend buf sent none).Inv := by
  have hstore : ∀ (t : LowOPCUA) (rest : Bytes) (_ : t.Bounds) (_ : rest.length ≤ buf.length)
      (_ : t.accepted ++ t.pending ++ rest = t.given), (store buf.length t rest none).Inv := by
    intro t rest hbounds hlen haccount
    obtain ⟨hb, hp⟩ := store_pending hbounds hlen
    obtain ⟨ha, hg, -⟩ := store_frame buf.length t rest none
    refine ⟨hb, ?_⟩
    rw [ha, hg, hp, ← List.append_assoc, haccount]
  have hbounds : Bounds { s with given := s.given ++ buf } := ⟨h.bounds.full, h.bounds.lastLen, h.bounds.read⟩
  rw [OnSend.eq_def]
  dsimp only
  split
  · rename_i hnil
    have hpending : s.pending = [] := by rw [pending, hnil, content, List.drop_nil]
    have haccount := h.account
    rw [hpending, List.append_nil] at haccount
    cases sent with
    | error => exact absurd rfl hsent
    | again =>
      apply hstore _ _ hbounds le_rfl
      change s.accepted ++ s.pending ++ buf = s.given ++ buf
      rw [h.account]
    | size n =>
      apply hstore { s with accepted := s.accepted ++ buf.take n, given := s.given ++ buf } (buf.drop n)
        ⟨h.bounds.full, h.bounds.lastLen, h.bounds.read⟩ (by rw [List.length_drop]; omega)
      change s.accepted ++ buf.take n ++ s.pending ++ buf.drop n = s.given ++ buf
      rw [hpending, List.append_nil, List.append_assoc, List.take_append_drop, haccount]
  · apply hstore _ _ hbounds le_rfl
    change s.accepted ++ s.pending ++ buf = s.given ++ buf
    rw [h.account]

lemma Inv.step {s : LowOPCUA} (h : s.Inv) {i : Input} (hi : i.Regular) (hdue : s.Due i) : (s.step i).Inv := by
  cases i with
  | onSend buf sent fails =>
    obtain ⟨hsent, rfl⟩ := hi
    exact h.onSend buf hsent
  | onEvents results =>
    rw [LowOPCUA.step, OnEvents]
    split
    · exact h
    · rename_i hdisabled
      exact h.flush hi (hdue (Bool.eq_false_of_not_eq_true hdisabled))
  | disable => exact ⟨⟨h.bounds.full, h.bounds.lastLen, h.bounds.read⟩, h.account⟩

lemma Inv.not_due {s : LowOPCUA} (h : s.Inv) {i : Input} (hdue : ¬s.Due i) : ¬(s.step i).Exact := by
  cases i with
  | onSend buf sent fails => exact absurd trivial hdue
  | disable => exact absurd trivial hdue
  | onEvents results =>
    simp only [Due, not_forall] at hdue
    obtain ⟨hdisabled, block, hblock, n, hn, htakes⟩ := hdue
    rw [LowOPCUA.step, OnEvents, if_neg (by rw [hdisabled]; exact Bool.false_ne_true)]
    exact h.spoiled hblock hn htakes

end LowOPCUA

lemma inv_start : start.Inv := ⟨LowOPCUA.bounds_start, rfl⟩

/-- The socket accepts a prefix of what `OnSend` was given, and all of it once the chain is empty, in every
state of a run exactly if every flush takes the bytes that are due. -/
theorem exact_iff_due (is : List Input) (hregular : ∀ i ∈ is, i.Regular) :
    (∀ js, js <+: is → (machine.run start js).Exact) ↔ machine.Guarded LowOPCUA.Due start is := by
  apply Machine.forall_prefix_iff_guarded (fun s hs => hs.exact) _ _ inv_start hregular
  · intro s i hs hi hdue
    exact hs.step hi hdue
  · intro s i hs _ hdue
    exact hs.not_due hdue

theorem exact_iff_due_two :
    (∀ js, js <+: [Input.onSend [1, 2] .again none, .onEvents [.size 2]] →
      (machine.run start js).Exact) ↔
      machine.Guarded LowOPCUA.Due start [.onSend [1, 2] .again none, .onEvents [.size 2]] :=
  exact_iff_due _ (by simp [Input.Regular])

/-- A block of which one byte was sent is sent again from its first byte on. -/
theorem sent_again :
    ¬(machine.run start [.onSend [1, 2, 3] .again none, .onEvents [.size 1], .onEvents [.size 2]]).Exact := by
  decide +kernel

end LowJs.SendQueue
