import LowJs.Core.Bytes

/-!
# SOA records

`LowDNSResolver_Query::OnLoop` goes through the answers of a reply itself to find an SOA record, as
`ares_parse_soa_reply` wants a reply with one record. It looks at a reply from its header on, advances by
the lengths that it finds, and leaves what it has found on the stack of the JavaScript engine, above the
callback that it calls at the end. The blocks for the other types of records stand for themselves.
-/

namespace LowJs.StartOfAuthority

/-- The errors of c-ares; a status is `none` for `ARES_SUCCESS`. -/
inductive AresError
  | ARES_EBADNAME
  | ARES_EBADRESP
  | ARES_ENOMEM
  deriving DecidableEq, Repr

/-- The two types of queries for which SOA records are decoded. -/
inductive DNSType
  | soa
  | any
  deriving DecidableEq, Repr

/-- An SOA record; the numbers are `serial`, `refresh`, `retry`, `expire` and `minttl`. -/
structure Soa where
  nsname : String
  hostmaster : String
  numbers : List Int
  deriving DecidableEq, Repr

/-- A value on the stack; an entry of an array is an SOA record or a record of another type. -/
inductive Value
  | callback
  | null
  | error
  | soa (record : Soa)
  | array (entries : List (Option Soa))
  | other
  deriving DecidableEq, Repr

/-- A query with its reply: whether it failed before, the bytes, and `ares_expand_name` at each place. For
a query of type ANY, `before` and `after` are the entries that the blocks in front of the one for SOA and
behind it push, or `none` where their parsers fail; `depth` values are on the stack already. -/
structure Query where
  mDNSType : DNSType
  mError : Bool
  mData : List UInt8
  ares_expand_name : Nat → Except AresError (String × Nat)
  before : Option (List (Option Soa))
  after : Option (List (Option Soa))
  depth : Nat

def NS_HFIXEDSZ : Nat := 12
def NS_QFIXEDSZ : Nat := 4
def NS_RRFIXEDSZ : Nat := 10
def ns_t_soa : Nat := 6

namespace Query

def mLen (m : Query) : Nat := m.mData.length

def byte (m : Query) (p : Nat) : Nat := (m.mData.getD p 0).toNat

def cares_get_16bit (m : Query) (p : Nat) : Nat := m.byte p * 2 ^ 8 + m.byte (p + 1)

def cares_get_32bit (m : Query) (p : Nat) : Nat :=
  m.byte p * 2 ^ 24 + m.byte (p + 1) * 2 ^ 16 + m.byte (p + 2) * 2 ^ 8 + m.byte (p + 3)

end Query

/-- What the decoder has come to: the places it has read, the status, the values that it pushes for the
record, and whether `low_free` got a pointer that nothing was assigned to. -/
structure Decoded where
  reads : List Nat
  status : Option AresError
  record : Option Soa
  freedGarbage : Bool
  deriving DecidableEq, Repr

def Decoded.stop (status : Option AresError) : Decoded := ⟨[], status, none, false⟩

def Decoded.reading (d : Decoded) (p n : Nat) : Decoded :=
  { d with reads := (List.range n).map (p + ·) ++ d.reads }

namespace Query

/-- The record of type SOA whose data begins at `ptr`; `duk_push_int` takes an `int`. -/
def decodeSoa (m : Query) (ptr : Nat) : Decoded :=
  match m.ares_expand_name ptr with
  | .error status => .stop (some status)
  | .ok (nsname, temp_len) =>
    let ptr := ptr + temp_len
    match m.ares_expand_name ptr with
    | .error status => .stop (some status)
    | .ok (hostmaster, temp_len) =>
      let ptr := ptr + temp_len
      if ptr + 5 * 4 > m.mLen then .stop (some .ARES_EBADRESP)
      else
        let numbers := (List.range 5).map fun i => int32 (m.cares_get_32bit (ptr + i * 4))
        Decoded.reading ⟨[], none, some ⟨nsname, hostmaster, numbers⟩, false⟩ ptr 20

/-- The loop over the answers. -/
def decodeAnswers (m : Query) : Nat → Nat → Decoded
  | 0, _ => .stop none
  | ancount + 1, ptr =>
    match m.ares_expand_name ptr with
    | .error status => .stop (some status)
    | .ok (_, temp_len) =>
      let ptr := ptr + temp_len
      if ptr + NS_RRFIXEDSZ > m.mLen then .stop (some .ARES_EBADRESP)
      else
        let rr_type := m.cares_get_16bit ptr
        let rr_len := m.cares_get_16bit (ptr + 8)
        let data := ptr + NS_RRFIXEDSZ
        let rest := if rr_type = ns_t_soa then m.decodeSoa data else m.decodeAnswers ancount (data + rr_len)
        (rest.reading (ptr + 8) 2).reading ptr 2

/-- The block for SOA records. `junk` is what `temp_len` holds before anything is assigned to it. -/
def decode (m : Query) (junk : Int) : Decoded :=
  let ancount := m.cares_get_16bit 6
  let ptr := NS_HFIXEDSZ
  let rest : Decoded :=
    match m.ares_expand_name ptr with
    | .error status =>
      let status := if status = .ARES_EBADNAME then .ARES_EBADRESP else status
      if (ptr + NS_QFIXEDSZ : Int) + junk > m.mLen then ⟨[], some .ARES_EBADRESP, none, true⟩ else .stop (some status)
    | .ok (_, temp_len) =>
      if ptr + temp_len + NS_QFIXEDSZ > m.mLen then .stop (some .ARES_EBADRESP)
      else m.decodeAnswers ancount (ptr + temp_len + NS_QFIXEDSZ)
  rest.reading 6 2

/-- `duk_call`, the top of the stack being first: the function below the arguments is called, or there is
none, which is an exception. -/
def duk_call (stack : List Value) (nargs : Nat) : Option (Value × List Value) :=
  stack[nargs]?.map fun function => (function, (stack.take nargs).reverse)

/-- An error is reported to the callback, which is pushed once more. -/
def fail (stack : List Value) : Option (Value × List Value) :=
  duk_call (.error :: .callback :: stack) 1

/-- What `OnLoop` reads, whether it frees garbage, and what it calls. -/
structure Outcome where
  reads : List Nat
  freedGarbage : Bool
  called : Option (Value × List Value)
  deriving DecidableEq, Repr

/-- `LowDNSResolver_Query::OnLoop`. -/
def OnLoop (m : Query) (junk : Int) : Outcome :=
  let base := List.replicate m.depth Value.other
  if m.mError then ⟨[], false, fail base⟩
  else
    let stack := Value.null :: .callback :: base
    let d := m.decode junk
    match m.mDNSType with
    | .soa =>
      if d.status ≠ none then ⟨d.reads, d.freedGarbage, fail stack⟩
      else
        match d.record with
        | some record => ⟨d.reads, d.freedGarbage, duk_call (.soa record :: stack) 2⟩
        | none => ⟨d.reads, d.freedGarbage, duk_call stack 2⟩
    | .any =>
      match m.before with
      | none => ⟨[], false, fail (.array [] :: stack)⟩
      | some before =>
        let entries := before ++ (d.record.map some).toList
        if d.status ≠ none then ⟨d.reads, d.freedGarbage, fail (.array entries :: stack)⟩
        else
          match m.after with
          | none => ⟨d.reads, d.freedGarbage, fail (.array entries :: stack)⟩
          | some after => ⟨d.reads, d.freedGarbage, duk_call (.array (entries ++ after) :: stack) 2⟩

/-! ### What a reply says -/

/-- The header of the record at `ptr`: its type, where its data begins, and the length of that. -/
def header (m : Query) (ptr : Nat) : Option (Nat × Nat × Nat) :=
  match m.ares_expand_name ptr with
  | .error _ => none
  | .ok (_, len) =>
    if ptr + len + NS_RRFIXEDSZ ≤ m.mLen then
      some (m.cares_get_16bit (ptr + len), ptr + len + NS_RRFIXEDSZ, m.cares_get_16bit (ptr + len + 8))
    else none

/-- The data of an SOA record: two names and five unsigned numbers. -/
def soaData (m : Query) (ptr : Nat) : Option Soa :=
  match m.ares_expand_name ptr with
  | .error _ => none
  | .ok (nsname, len) =>
    match m.ares_expand_name (ptr + len) with
    | .error _ => none
    | .ok (hostmaster, len') =>
      if ptr + len + len' + 20 ≤ m.mLen then
        some ⟨nsname, hostmaster, (List.range 5).map fun i => (m.cares_get_32bit (ptr + len + len' + i * 4) : Int)⟩
      else none

/-- The answers from `ptr` on end at a place, without an SOA record among them. -/
inductive Ends (m : Query) : Nat → Nat → Nat → Prop
  | done (ptr : Nat) : Ends m 0 ptr ptr
  | skip {n ptr type data len e : Nat} : m.header ptr = some (type, data, len) → type ≠ ns_t_soa →
      Ends m n (data + len) e → Ends m (n + 1) ptr e

/-- The first SOA record among the answers from `ptr` on. -/
inductive First (m : Query) : Nat → Nat → Soa → Prop
  | here {n ptr data len : Nat} {r : Soa} : m.header ptr = some (ns_t_soa, data, len) →
      m.soaData data = some r → First m (n + 1) ptr r
  | skip {n ptr type data len : Nat} {r : Soa} : m.header ptr = some (type, data, len) → type ≠ ns_t_soa →
      First m n (data + len) r → First m (n + 1) ptr r

/-- Where the answers begin: behind the header and the question. -/
def answers (m : Query) : Option Nat :=
  match m.ares_expand_name NS_HFIXEDSZ with
  | .error _ => none
  | .ok (_, len) =>
    if NS_HFIXEDSZ + len + NS_QFIXEDSZ ≤ m.mLen then some (NS_HFIXEDSZ + len + NS_QFIXEDSZ) else none

/-- The reply has no SOA record, and its answers end at `e`. -/
def EndsAt (m : Query) (e : Nat) : Prop := ∃ ptr ∈ m.answers, m.Ends (m.cares_get_16bit 6) ptr e

/-- The first SOA record of the reply. -/
def HasSoa (m : Query) (r : Soa) : Prop := ∃ ptr ∈ m.answers, m.First (m.cares_get_16bit 6) ptr r

/-- The reply is well formed up to its first SOA record, or to the end of its answers. -/
def WellFormed (m : Query) : Prop := (∃ r, m.HasSoa r) ∨ ∃ e ≤ m.mLen, m.EndsAt e

/-- What the callback should get. -/
inductive Expected (m : Query) : List Value → Prop
  | failed : m.mError = true → Expected m [.error]
  | other : m.mDNSType = .any → m.before = none ∨ m.after = none → Expected m [.error]
  | malformed : ¬m.WellFormed → Expected m [.error]
  | missing : m.mDNSType = .soa → (¬∃ r, m.HasSoa r) → Expected m [.error]
  | soa {r : Soa} : m.mDNSType = .soa → m.HasSoa r → Expected m [.null, .soa r]
  | any {r : Soa} {before after : List (Option Soa)} : m.mDNSType = .any → m.before = some before →
      m.after = some after → m.HasSoa r → Expected m [.null, .array (before ++ [some r] ++ after)]
  | none {e : Nat} {before after : List (Option Soa)} : m.mDNSType = .any → m.before = some before →
      m.after = some after → e ≤ m.mLen → m.EndsAt e → Expected m [.null, .array (before ++ after)]

/-- The decoder reads inside the reply, frees what it has, and calls the callback, whatever stands in
variables without a value. -/
def Correct (m : Query) : Prop :=
  ∀ junk : Int, (∀ p ∈ (m.OnLoop junk).reads, p < m.mLen) ∧ (m.OnLoop junk).freedGarbage = false ∧
    ∃ args, (m.OnLoop junk).called = some (.callback, args) ∧ m.Expected args

/-- The SOA records are not decoded, or the reply has the first eight bytes and a question, its numbers
are below 2^31, and an SOA record is found where one is asked for; for a query of type ANY the answers end
inside the reply. -/
def Regular (m : Query) : Prop :=
  m.mError = true ∨ (m.mDNSType = .any ∧ m.before = none) ∨
    (8 ≤ m.mLen ∧ (∃ name, m.ares_expand_name NS_HFIXEDSZ = .ok name) ∧
      (∀ r, m.HasSoa r → (m.mDNSType = .any ∧ m.after = none) ∨ ∀ x ∈ r.numbers, x < 2 ^ 31) ∧
      ∀ e, m.EndsAt e → m.mDNSType = .any ∧ (m.after = none ∨ e ≤ m.mLen))

end Query

/-! ### The decoder and what the reply says -/

/-- The record as its numbers come out. -/
def Soa.pushed (r : Soa) : Soa := { r with numbers := r.numbers.map int32 }

lemma Soa.pushed_eq {r : Soa} (h : ∀ x ∈ r.numbers, 0 ≤ x ∧ x < 2 ^ 31) : r.pushed = r := by
  have hmap : r.numbers.map int32 = r.numbers := by
    conv_rhs => rw [← List.map_id r.numbers]
    apply List.map_congr_left
    intro x hx
    have hle : (-2 : Int) ^ 31 ≤ 0 := by norm_num
    exact int32_eq ⟨by have := (h x hx).1; norm_num at *; omega, (h x hx).2⟩
  rw [pushed, hmap]

lemma Soa.small_of_pushed {r : Soa} (h : r.pushed = r) : ∀ x ∈ r.numbers, x < 2 ^ 31 := by
  have hmap : r.numbers.map int32 = r.numbers := congrArg Soa.numbers h
  intro x hx
  have hmem : int32 x = x := by
    have := List.map_eq_map_iff.mp (hmap.trans (List.map_id r.numbers).symm) x hx
    exact this
  rw [← hmem]
  exact (isInt32_int32 x).2

namespace Query

variable {m : Query}

lemma soaData_nonneg {ptr : Nat} {r : Soa} (h : m.soaData ptr = some r) : ∀ x ∈ r.numbers, 0 ≤ x := by
  rw [soaData] at h
  split at h
  · exact absurd h.symm (Option.some_ne_none _)
  split at h
  · exact absurd h.symm (Option.some_ne_none _)
  split at h
  · intro x hx
    rw [← Option.some.inj h] at hx
    obtain ⟨i, -, rfl⟩ := List.mem_map.mp hx
    exact Int.natCast_nonneg _
  · exact absurd h.symm (Option.some_ne_none _)

@[simp] lemma reading_status (d : Decoded) (p n : Nat) : (d.reading p n).status = d.status := rfl

@[simp] lemma reading_record (d : Decoded) (p n : Nat) : (d.reading p n).record = d.record := rfl

@[simp] lemma reading_freedGarbage (d : Decoded) (p n : Nat) :
    (d.reading p n).freedGarbage = d.freedGarbage := rfl

/-- The places read are inside the reply, and nothing without a value is freed. -/
def Inside (m : Query) (d : Decoded) : Prop := (∀ p ∈ d.reads, p < m.mLen) ∧ d.freedGarbage = false

lemma inside_stop (status : Option AresError) : m.Inside (.stop status) :=
  ⟨fun _ h => absurd h List.not_mem_nil, rfl⟩

lemma Inside.reading {d : Decoded} (h : m.Inside d) {p n : Nat} (hp : p + n ≤ m.mLen) :
    m.Inside (d.reading p n) := by
  refine ⟨fun q hq => ?_, h.2⟩
  rcases List.mem_append.mp hq with hq | hq
  · obtain ⟨i, hi, rfl⟩ := List.mem_map.mp hq
    have := List.mem_range.mp hi
    omega
  · exact h.1 q hq

lemma decodeSoa_inside (ptr : Nat) : m.Inside (m.decodeSoa ptr) := by
  rw [decodeSoa]
  split
  · exact inside_stop _
  dsimp only
  split
  · exact inside_stop _
  split
  · exact inside_stop _
  · exact Inside.reading ⟨fun _ h => absurd h List.not_mem_nil, rfl⟩ (by omega)

lemma decodeSoa_some {ptr : Nat} {r : Soa} (h : m.soaData ptr = some r) :
    (m.decodeSoa ptr).status = none ∧ (m.decodeSoa ptr).record = some r.pushed := by
  rw [soaData] at h
  rw [decodeSoa]
  split at h
  · exact absurd h.symm (Option.some_ne_none _)
  rename_i nsname len hname
  dsimp only
  split at h
  · exact absurd h.symm (Option.some_ne_none _)
  rename_i hostmaster len' hmaster
  split at h
  · rename_i hle
    rw [if_neg (by omega), ← Option.some.inj h]
    simp only [reading_status, reading_record, Soa.pushed, List.map_map, Function.comp_def, and_self]
  · exact absurd h.symm (Option.some_ne_none _)

lemma decodeSoa_none {ptr : Nat} (h : m.soaData ptr = none) : (m.decodeSoa ptr).status ≠ none := by
  rw [soaData] at h
  rw [decodeSoa]
  split at h
  · rename_i hname
    exact Option.some_ne_none _
  rename_i nsname len hname
  dsimp only
  split at h
  · rename_i hmaster
    exact Option.some_ne_none _
  rename_i hostmaster len' hmaster
  split at h
  · exact absurd h (Option.some_ne_none _)
  · rename_i hlt
    rw [if_pos (by omega)]
    exact Option.some_ne_none _

/-- An answer whose header is cut off stops the loop. -/
lemma decodeAnswers_none {n ptr : Nat} (h : m.header ptr = none) :
    (m.decodeAnswers (n + 1) ptr).status ≠ none := by
  rw [header] at h
  rw [decodeAnswers]
  split at h
  · rename_i hname
    exact Option.some_ne_none _
  rename_i name len hname
  dsimp only
  split at h
  · exact absurd h (Option.some_ne_none _)
  · rename_i hlt
    rw [if_pos (by omega)]
    exact Option.some_ne_none _

/-- An answer with a header: an SOA record is decoded, another one is passed. -/
lemma decodeAnswers_some {n ptr type data len : Nat} (h : m.header ptr = some (type, data, len)) :
    ∃ p, p + 10 ≤ m.mLen ∧ m.decodeAnswers (n + 1) ptr =
      ((if type = ns_t_soa then m.decodeSoa data else m.decodeAnswers n (data + len)).reading (p + 8) 2).reading
        p 2 := by
  rw [header] at h
  rw [decodeAnswers]
  split at h
  · exact absurd h.symm (Option.some_ne_none _)
  rename_i name temp_len hname
  dsimp only
  split at h
  · rename_i hle
    simp only [Option.some.injEq, Prod.mk.injEq] at h
    obtain ⟨rfl, rfl, rfl⟩ := h
    rw [if_neg (by omega)]
    exact ⟨ptr + temp_len, hle, rfl⟩
  · exact absurd h.symm (Option.some_ne_none _)

lemma decodeAnswers_inside (n ptr : Nat) : m.Inside (m.decodeAnswers n ptr) := by
  induction n generalizing ptr with
  | zero => exact inside_stop _
  | succ n ih =>
    cases hheader : m.header ptr with
    | none =>
      rw [header] at hheader
      rw [decodeAnswers]
      split at hheader
      · rename_i hname
        exact inside_stop _
      rename_i name temp_len hname
      dsimp only
      split at hheader
      · exact absurd hheader (Option.some_ne_none _)
      · rename_i hlt
        rw [if_pos (by omega)]
        exact inside_stop _
    | some h =>
      obtain ⟨type, data, len⟩ := h
      obtain ⟨p, hp, heq⟩ := decodeAnswers_some (n := n) hheader
      rw [heq]
      refine Inside.reading (Inside.reading ?_ (by omega)) (by omega)
      split
      · exact decodeSoa_inside _
      · exact ih _

lemma Ends.decoded {n ptr e : Nat} (h : m.Ends n ptr e) :
    (m.decodeAnswers n ptr).status = none ∧ (m.decodeAnswers n ptr).record = none := by
  induction h with
  | done ptr => exact ⟨rfl, rfl⟩
  | @skip n ptr type data len e hheader htype _ ih =>
    obtain ⟨p, -, heq⟩ := decodeAnswers_some (n := n) hheader
    rw [heq, if_neg htype]
    exact ih

lemma First.decoded {n ptr : Nat} {r : Soa} (h : m.First n ptr r) :
    (m.decodeAnswers n ptr).status = none ∧ (m.decodeAnswers n ptr).record = some r.pushed := by
  induction h with
  | @here n ptr data len r hheader hdata =>
    obtain ⟨p, -, heq⟩ := decodeAnswers_some (n := n) hheader
    rw [heq, if_pos rfl]
    exact decodeSoa_some hdata
  | @skip n ptr type data len r hheader htype _ ih =>
    obtain ⟨p, -, heq⟩ := decodeAnswers_some (n := n) hheader
    rw [heq, if_neg htype]
    exact ih

lemma decodeAnswers_cases {n ptr : Nat} (h : (m.decodeAnswers n ptr).status = none) :
    (∃ e, m.Ends n ptr e) ∨ ∃ r, m.First n ptr r := by
  induction n generalizing ptr with
  | zero => exact .inl ⟨ptr, .done ptr⟩
  | succ n ih =>
    cases hheader : m.header ptr with
    | none => exact absurd h (decodeAnswers_none hheader)
    | some header =>
      obtain ⟨type, data, len⟩ := header
      obtain ⟨p, -, heq⟩ := decodeAnswers_some (n := n) hheader
      rw [heq] at h
      by_cases htype : type = ns_t_soa
      · subst htype
        rw [if_pos rfl] at h
        cases hdata : m.soaData data with
        | none => exact absurd h (decodeSoa_none hdata)
        | some r => exact .inr ⟨r, .here hheader hdata⟩
      · rw [if_neg htype] at h
        rcases ih h with ⟨e, he⟩ | ⟨r, hr⟩
        · exact .inl ⟨e, .skip hheader htype he⟩
        · exact .inr ⟨r, .skip hheader htype hr⟩

lemma Ends.unique {n ptr e e' : Nat} (h : m.Ends n ptr e) (h' : m.Ends n ptr e') : e = e' := by
  induction h with
  | done ptr =>
    cases h'
    rfl
  | @skip n ptr type data len e hheader htype _ ih =>
    cases h' with
    | @skip _ _ type' data' len' _ hheader' _ hends =>
      rw [hheader] at hheader'
      simp only [Option.some.injEq, Prod.mk.injEq] at hheader'
      obtain ⟨-, rfl, rfl⟩ := hheader'
      exact ih hends

lemma First.unique {n ptr : Nat} {r r' : Soa} (h : m.First n ptr r) (h' : m.First n ptr r') : r = r' := by
  induction h with
  | @here n ptr data len r hheader hdata =>
    cases h' with
    | @here _ _ data' len' _ hheader' hdata' =>
      rw [hheader] at hheader'
      simp only [Option.some.injEq, Prod.mk.injEq] at hheader'
      obtain ⟨-, rfl, rfl⟩ := hheader'
      exact Option.some.inj (hdata.symm.trans hdata')
    | @skip _ _ type' data' len' _ hheader' htype' _ =>
      rw [hheader] at hheader'
      simp only [Option.some.injEq, Prod.mk.injEq] at hheader'
      exact absurd hheader'.1.symm htype'
  | @skip n ptr type data len r hheader htype _ ih =>
    cases h' with
    | @here _ _ data' len' _ hheader' hdata' =>
      rw [hheader] at hheader'
      simp only [Option.some.injEq, Prod.mk.injEq] at hheader'
      exact absurd hheader'.1 htype
    | @skip _ _ type' data' len' _ hheader' _ hfirst =>
      rw [hheader] at hheader'
      simp only [Option.some.injEq, Prod.mk.injEq] at hheader'
      obtain ⟨-, rfl, rfl⟩ := hheader'
      exact ih hfirst

lemma First.nonneg {n ptr : Nat} {r : Soa} (h : m.First n ptr r) : ∀ x ∈ r.numbers, 0 ≤ x := by
  induction h with
  | here _ hdata => exact soaData_nonneg hdata
  | skip _ _ _ ih => exact ih

lemma EndsAt.unique {e e' : Nat} (h : m.EndsAt e) (h' : m.EndsAt e') : e = e' := by
  obtain ⟨ptr, hptr, hends⟩ := h
  obtain ⟨ptr', hptr', hends'⟩ := h'
  rw [Option.mem_unique hptr' hptr] at hends'
  exact hends.unique hends'

lemma HasSoa.unique {r r' : Soa} (h : m.HasSoa r) (h' : m.HasSoa r') : r = r' := by
  obtain ⟨ptr, hptr, hfirst⟩ := h
  obtain ⟨ptr', hptr', hfirst'⟩ := h'
  rw [Option.mem_unique hptr' hptr] at hfirst'
  exact hfirst.unique hfirst'

/-- A reply with an SOA record has no place where its answers end without one. -/
lemma HasSoa.not_ends {r : Soa} (h : m.HasSoa r) (e : Nat) : ¬m.EndsAt e := by
  rintro ⟨ptr', hptr', hends⟩
  obtain ⟨ptr, hptr, hfirst⟩ := h
  rw [Option.mem_unique hptr' hptr] at hends
  exact Option.some_ne_none _ (hfirst.decoded.2.symm.trans hends.decoded.2)

/-! ### The block for SOA records -/

lemma decode_answers {ptr : Nat} (h : ptr ∈ m.answers) (junk : Int) :
    m.decode junk = (m.decodeAnswers (m.cares_get_16bit 6) ptr).reading 6 2 := by
  rw [Option.mem_def, answers] at h
  rw [decode]
  split at h
  · exact absurd h.symm (Option.some_ne_none _)
  rename_i name len hname
  split at h
  · rename_i hle
    rw [if_neg (by omega), Option.some.inj h]
  · exact absurd h.symm (Option.some_ne_none _)

/-- Without a question the block stops, and frees garbage where the length without a value says so. -/
lemma decode_none (h : m.answers = none) (junk : Int) : (m.decode junk).status ≠ none := by
  rw [answers] at h
  rw [decode]
  split at h
  · rename_i hname
    rw [reading_status]
    split <;> dsimp only <;> split <;> exact Option.some_ne_none _
  rename_i name len hname
  split at h
  · exact absurd h (Option.some_ne_none _)
  · rename_i hlt
    rw [if_pos (by omega)]
    exact Option.some_ne_none _

lemma decode_inside (hlen : 8 ≤ m.mLen) (hname : ∃ name, m.ares_expand_name NS_HFIXEDSZ = .ok name)
    (junk : Int) : m.Inside (m.decode junk) := by
  obtain ⟨⟨name, len⟩, hname⟩ := hname
  rw [decode]
  simp only [hname]
  apply Inside.reading _ hlen
  split
  · exact inside_stop _
  · exact decodeAnswers_inside _ _

lemma decode_ends {e : Nat} (h : m.EndsAt e) (junk : Int) :
    (m.decode junk).status = none ∧ (m.decode junk).record = none := by
  obtain ⟨ptr, hptr, hends⟩ := h
  rw [decode_answers hptr]
  exact hends.decoded

lemma decode_soa {r : Soa} (h : m.HasSoa r) (junk : Int) :
    (m.decode junk).status = none ∧ (m.decode junk).record = some r.pushed := by
  obtain ⟨ptr, hptr, hfirst⟩ := h
  rw [decode_answers hptr]
  exact hfirst.decoded

lemma decode_cases {junk : Int} (h : (m.decode junk).status = none) :
    (∃ e, m.EndsAt e) ∨ ∃ r, m.HasSoa r := by
  cases hptr : m.answers with
  | none => exact absurd h (decode_none hptr junk)
  | some ptr =>
    rw [decode_answers hptr] at h
    rcases decodeAnswers_cases h with ⟨e, he⟩ | ⟨r, hr⟩
    · exact .inl ⟨e, ptr, hptr, he⟩
    · exact .inr ⟨r, ptr, hptr, hr⟩

/-- A reply that stops the decoder is malformed. -/
lemma not_wellFormed {junk : Int} (h : (m.decode junk).status ≠ none) : ¬m.WellFormed := by
  rintro (⟨r, hr⟩ | ⟨e, -, he⟩)
  · exact h (decode_soa hr junk).1
  · exact h (decode_ends he junk).1

/-! ### What the callback gets -/

/-- The outcome has no defect that the contents of the reply do not show. -/
def Good (m : Query) (o : Outcome) : Prop :=
  (∀ p ∈ o.reads, p < m.mLen) ∧ o.freedGarbage = false ∧
    ∃ args, o.called = some (.callback, args) ∧ m.Expected args

lemma Inside.good {d : Decoded} (h : m.Inside d) {args : List Value} (hargs : m.Expected args) :
    m.Good ⟨d.reads, d.freedGarbage, some (.callback, args)⟩ :=
  ⟨h.1, h.2, args, rfl, hargs⟩

/-- Without a record, a query of type SOA calls what stands below the callback, or throws. -/
lemma called_missing (k : Nat) (args : List Value) :
    duk_call (.null :: .callback :: List.replicate k .other) 2 ≠ some (.callback, args) := by
  cases k with
  | zero => exact (Option.some_ne_none _).symm
  | succ k =>
    intro h
    have := congrArg (Option.map Prod.fst) h
    simp [duk_call, List.replicate_succ] at this

lemma onLoop_soa (herror : m.mError = false) (htype : m.mDNSType = .soa) (junk : Int) :
    m.OnLoop junk = ⟨(m.decode junk).reads, (m.decode junk).freedGarbage,
      if (m.decode junk).status ≠ none then some (.callback, [.error])
      else
        match (m.decode junk).record with
        | some record => some (.callback, [.null, .soa record])
        | none => duk_call (.null :: .callback :: List.replicate m.depth .other) 2⟩ := by
  rw [OnLoop]
  simp only [herror, htype, Bool.false_eq_true, if_false]
  split
  · rfl
  · split <;> rfl

lemma onLoop_any (herror : m.mError = false) (htype : m.mDNSType = .any) {before : List (Option Soa)}
    (hbefore : m.before = some before) (junk : Int) :
    m.OnLoop junk = ⟨(m.decode junk).reads, (m.decode junk).freedGarbage,
      if (m.decode junk).status ≠ none then some (.callback, [.error])
      else
        match m.after with
        | some after => some (.callback,
            [.null, .array (before ++ ((m.decode junk).record.map some).toList ++ after)])
        | none => some (.callback, [.error])⟩ := by
  rw [OnLoop]
  simp only [herror, htype, hbefore, Bool.false_eq_true, if_false]
  split
  · rfl
  · split <;> rename_i hafter <;> rw [hafter] <;> rfl

lemma Regular.correct (h : m.Regular) : m.Correct := by
  intro junk
  change m.Good (m.OnLoop junk)
  by_cases herror : m.mError = true
  · rw [OnLoop, if_pos herror]
    exact ⟨fun _ hp => absurd hp List.not_mem_nil, rfl, _, rfl, .failed herror⟩
  rw [Bool.not_eq_true] at herror
  rcases h.resolve_left (by rw [herror]; exact Bool.false_ne_true) with
    ⟨htype, hbefore⟩ | ⟨hlen, hname, hsmall, hends⟩
  · rw [OnLoop]
    simp only [herror, htype, hbefore, Bool.false_eq_true, if_false]
    exact ⟨fun _ hp => absurd hp List.not_mem_nil, rfl, _, rfl, .other htype (.inl hbefore)⟩
  have hinside := decode_inside hlen hname junk
  have hr : ∀ r, m.HasSoa r → (∀ x ∈ r.numbers, x < 2 ^ 31) → r.pushed = r := by
    rintro r ⟨ptr, -, hfirst⟩ hlt
    exact Soa.pushed_eq fun x hx => ⟨hfirst.nonneg x hx, hlt x hx⟩
  cases htype : m.mDNSType with
  | soa =>
    rw [onLoop_soa herror htype]
    split
    · rename_i hstatus
      exact hinside.good (.malformed (not_wellFormed hstatus))
    · rename_i hstatus
      rcases decode_cases (not_not.mp hstatus) with ⟨e, he⟩ | ⟨r, hsoa⟩
      · exact absurd ((hends e he).1.symm.trans htype) (by decide)
      · rw [(decode_soa hsoa junk).2]
        rcases hsmall r hsoa with ⟨hany, -⟩ | hlt
        · exact absurd (hany.symm.trans htype) (by decide)
        · rw [hr r hsoa hlt]
          exact hinside.good (.soa htype hsoa)
  | any =>
    cases hbefore : m.before with
    | none =>
      rw [OnLoop]
      simp only [herror, htype, hbefore, Bool.false_eq_true, if_false]
      exact ⟨fun _ hp => absurd hp List.not_mem_nil, rfl, _, rfl, .other htype (.inl hbefore)⟩
    | some before =>
      rw [onLoop_any herror htype hbefore]
      split
      · rename_i hstatus
        exact hinside.good (.malformed (not_wellFormed hstatus))
      rename_i hstatus
      cases hafter : m.after with
      | none => exact hinside.good (.other htype (.inr hafter))
      | some after =>
        rcases decode_cases (not_not.mp hstatus) with ⟨e, he⟩ | ⟨r, hsoa⟩
        · rw [(decode_ends he junk).2]
          rcases (hends e he).2 with hnone | hle
          · exact absurd (hnone.symm.trans hafter) (Option.some_ne_none _).symm
          · simp only [Option.map_none, Option.toList_none, List.append_nil]
            exact hinside.good (.none htype hbefore hafter hle he)
        · rw [(decode_soa hsoa junk).2]
          rcases hsmall r hsoa with ⟨-, hnone⟩ | hlt
          · exact absurd (hnone.symm.trans hafter) (Option.some_ne_none _).symm
          · rw [hr r hsoa hlt]
            exact hinside.good (.any htype hbefore hafter hsoa)

/-- A value that is not an error is what was found. -/
lemma Expected.soa_of {x : Soa} (h : m.Expected [.null, .soa x]) : m.HasSoa x := by
  cases h with
  | soa _ hsoa => exact hsoa

lemma Expected.array_of {before after entries : List (Option Soa)} (hbefore : m.before = some before)
    (hafter : m.after = some after) (h : m.Expected [.null, .array (before ++ entries ++ after)]) :
    (∃ r, m.HasSoa r ∧ entries = [some r]) ∨ ∃ e ≤ m.mLen, m.EndsAt e ∧ entries = [] := by
  have hcut : ∀ (bs as xs : List (Option Soa)) (_ : m.before = some bs) (_ : m.after = some as)
      (_ : before ++ entries ++ after = bs ++ xs ++ as), entries = xs := by
    intro bs as xs hbs has heq
    rw [← Option.some.inj (hbefore.symm.trans hbs), ← Option.some.inj (hafter.symm.trans has)] at heq
    exact List.append_cancel_left (List.append_cancel_right heq)
  generalize hargs : [Value.null, Value.array (before ++ entries ++ after)] = args at h
  cases h with
  | failed | other | malformed | missing => simp at hargs
  | soa => simp at hargs
  | @any r bs as _ hbs has hsoa =>
    simp only [List.cons.injEq, Value.array.injEq, true_and, and_true] at hargs
    exact .inl ⟨r, hsoa, hcut bs as _ hbs has hargs⟩
  | @none e bs as _ hbs has hle he =>
    simp only [List.cons.injEq, Value.array.injEq, true_and, and_true] at hargs
    refine .inr ⟨e, hle, he, hcut bs as [] hbs has ?_⟩
    rw [hargs, List.append_nil]

lemma Correct.regular (h : m.Correct) : m.Regular := by
  by_cases herror : m.mError = true
  · exact .inl herror
  rw [Bool.not_eq_true] at herror
  by_cases hskip : m.mDNSType = .any ∧ m.before = none
  · exact .inr (.inl hskip)
  -- the block for SOA is reached, and its reads and frees are those of the whole
  have hreach : ∀ junk, (m.OnLoop junk).reads = (m.decode junk).reads ∧
      (m.OnLoop junk).freedGarbage = (m.decode junk).freedGarbage := by
    intro junk
    cases htype : m.mDNSType with
    | soa =>
      rw [onLoop_soa herror htype]
      exact ⟨rfl, rfl⟩
    | any =>
      obtain ⟨before, hbefore⟩ := Option.ne_none_iff_exists'.mp fun hnone => hskip ⟨htype, hnone⟩
      rw [onLoop_any herror htype hbefore]
      exact ⟨rfl, rfl⟩
  refine .inr (.inr ⟨?_, ?_, fun r hsoa => ?_, fun e he => ?_⟩)
  · have hread := (h 0).1 7
    rw [(hreach 0).1] at hread
    exact hread (List.mem_append_left _ (by decide))
  · cases hname : m.ares_expand_name NS_HFIXEDSZ with
    | ok name => exact ⟨name, rfl⟩
    | error status =>
      have hfree := (h m.mLen).2.1
      rw [(hreach _).2, decode, reading_freedGarbage] at hfree
      simp only [hname] at hfree
      rw [if_pos (by rw [NS_HFIXEDSZ, NS_QFIXEDSZ]; omega)] at hfree
      exact absurd hfree Bool.true_eq_false.mp
  · obtain ⟨-, -, args, hcalled, hexpected⟩ := h 0
    obtain ⟨hstatus, hrecord⟩ := decode_soa hsoa 0
    cases htype : m.mDNSType with
    | soa =>
      rw [onLoop_soa herror htype, hstatus, hrecord, if_neg (not_not.mpr rfl)] at hcalled
      rw [← (Prod.mk.inj (Option.some.inj hcalled)).2] at hexpected
      exact .inr (Soa.small_of_pushed (hexpected.soa_of.unique hsoa))
    | any =>
      obtain ⟨before, hbefore⟩ := Option.ne_none_iff_exists'.mp fun hnone => hskip ⟨htype, hnone⟩
      cases hafter : m.after with
      | none => exact .inl ⟨rfl, rfl⟩
      | some after =>
        rw [onLoop_any herror htype hbefore, hstatus, hrecord, hafter, if_neg (not_not.mpr rfl)] at hcalled
        rw [← (Prod.mk.inj (Option.some.inj hcalled)).2] at hexpected
        rcases hexpected.array_of hbefore hafter with ⟨r', hsoa', heq⟩ | ⟨e, -, he, -⟩
        · have hpushed : r.pushed = r' := by simpa using heq
          exact .inr (Soa.small_of_pushed (hpushed.trans (hsoa'.unique hsoa)))
        · exact absurd he (hsoa.not_ends e)
  · obtain ⟨-, -, args, hcalled, hexpected⟩ := h 0
    obtain ⟨hstatus, hrecord⟩ := decode_ends he 0
    cases htype : m.mDNSType with
    | soa =>
      rw [onLoop_soa herror htype, hstatus, hrecord, if_neg (not_not.mpr rfl)] at hcalled
      exact absurd hcalled (called_missing m.depth args)
    | any =>
      refine ⟨rfl, ?_⟩
      obtain ⟨before, hbefore⟩ := Option.ne_none_iff_exists'.mp fun hnone => hskip ⟨htype, hnone⟩
      cases hafter : m.after with
      | none => exact .inl rfl
      | some after =>
        rw [onLoop_any herror htype hbefore, hstatus, hrecord, hafter, if_neg (not_not.mpr rfl)] at hcalled
        rw [← (Prod.mk.inj (Option.some.inj hcalled)).2] at hexpected
        rcases hexpected.array_of hbefore hafter with ⟨r', hsoa', -⟩ | ⟨e', hle, he', -⟩
        · exact absurd he (hsoa'.not_ends e)
        · exact .inr ((he.unique he').trans_le hle)

/-- A reply with one SOA record, the names of which are empty, and the serial number 2^31. -/
def largeSerial : Query where
  mDNSType := .soa
  mError := false
  mData := [0, 1, 129, 128, 0, 1, 0, 1, 0, 0, 0, 0] ++ [0, 0, 6, 0, 1] ++
    [0, 0, 6, 0, 1, 0, 0, 0, 60, 0, 22] ++ [0, 0] ++
    [128, 0, 0, 0, 0, 0, 0, 1, 0, 0, 0, 1, 0, 0, 0, 1, 0, 0, 0, 1]
  ares_expand_name ptr := if ptr < 50 then .ok ("", 1) else .error .ARES_EBADNAME
  before := none
  after := none
  depth := 0

end Query

end LowJs.StartOfAuthority
