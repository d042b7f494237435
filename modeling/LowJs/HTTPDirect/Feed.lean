import LowJs.HTTPDirect.Connection
import LowJs.HTTPDirect.Sections

/-!
# The parser on its own

`feed` is what one byte does to the parser when a read buffer has room for it and no response has
been finished: the message as the byte stream alone determines it. `socketLoop_spec` says that the
byte loop feeds the parser with what it takes, however the body is cut into copies.
-/

namespace LowJs.HTTPDirect

namespace Parser

/-- What becomes of a byte: the parser goes on, or the connection ends with a parse error or for
want of memory, or `memcpy` gets a negative size. -/
inductive Fed
  | next (p : Parser)
  | err (p : Parser)
  | noMemory (p : Parser)
  | undef

/-- Body bytes are taken, at most as many as are announced. -/
def copied (p : Parser) (bs : List UInt8) : Parser :=
  let p := { p with
    mDataLen := int32 (p.mDataLen + bs.length)
    history := p.history.take bs }
  if 0 ≤ p.mContentLen ∧ p.mDataLen = p.mContentLen then
    if p.mChunkedEncoding then { p with mPhase := .chunkHeader, mChunkedHeaderLine := [] }
    else { p with mPhase := .sendingResponse }
  else p

/-- A byte of the head or of the trailers. -/
def sectionByte (E : Env) (isServer : Bool) (p : Parser) (c : UInt8) : Fed :=
  let store (p : Parser) (b : Nat) : Fed :=
    match paramByte E isServer { p with history := p.history.take [c] } b c with
    | (.err, p) => .err p
    | (_, p) => .next p
  match p.allocParam E with
  | .param b => store p b
  | .linked b p => store p b
  | .null p => .noMemory p
  | .err p => .err p

/-- The end of `store` in `sectionByte`: what follows from the outcome of the byte. -/
def Fed.ofParam : ParamExit × Parser → Fed
  | (.err, p) => .err p
  | (_, p) => .next p

def feed (E : Env) (isServer : Bool) (p : Parser) (c : UInt8) : Fed :=
  if p.mEraseNextN ∧ c = LF then
    .next { p with mEraseNextN := false, history := p.history.skip }
  else
    let p := { p with mEraseNextN := decide (p.mPhase ≠ Phase.body ∧ c = CR) }
    match p.mPhase with
    | .sendingResponse => .err p
    | .body =>
      if 0 ≤ p.mContentLen ∧ p.mContentLen ≤ p.mDataLen then .undef else .next (p.copied [c])
    | .chunkHeader =>
      let p := { p with history := p.history.take [c] }
      match p.chunkByte c with
      | none => .err p
      | some p => .next p
    | _ => p.sectionByte E isServer c

/-- `feed` on the bytes of a list, up to the first one that ends the connection. -/
def feeds (E : Env) (isServer : Bool) : Parser → List UInt8 → Fed
  | p, [] => .next p
  | p, c :: cs =>
    match feed E isServer p c with
    | .next p => feeds E isServer p cs
    | r => r

/-- The byte as a part of the body, if it is one. -/
def bodyPart (p : Parser) (c : UInt8) : List UInt8 :=
  if p.mPhase = .body ∧ ¬(p.mEraseNextN ∧ c = LF) then [c] else []

/-- The body bytes among the bytes of a list. -/
def bodyOf (E : Env) (isServer : Bool) : Parser → List UInt8 → List UInt8
  | _, [] => []
  | p, c :: cs =>
    match feed E isServer p c with
    | .next p' => p.bodyPart c ++ bodyOf E isServer p' cs
    | _ => p.bodyPart c

variable {E : Env} {S : Bool}

@[simp] lemma feeds_nil (p : Parser) : feeds E S p [] = .next p := rfl

@[simp] lemma bodyOf_nil (p : Parser) : bodyOf E S p [] = [] := rfl

lemma feeds_cons {p p' : Parser} {c : UInt8} (h : feed E S p c = .next p') (cs : List UInt8) :
    feeds E S p (c :: cs) = feeds E S p' cs := by
  simp [feeds, h]

lemma bodyOf_cons {p p' : Parser} {c : UInt8} (h : feed E S p c = .next p')
    (cs : List UInt8) : bodyOf E S p (c :: cs) = p.bodyPart c ++ bodyOf E S p' cs := by
  simp [bodyOf, h]

/-- A list that is fed without an end is fed byte by byte. -/
lemma feeds_next_induction {P : Parser → List UInt8 → Prop} {p' : Parser} (hnil : P p' [])
    (hcons : ∀ p q c cs, feed E S p c = .next q → feeds E S q cs = .next p' → P q cs →
      P p (c :: cs))
    {p : Parser} {bs : List UInt8} (h : feeds E S p bs = .next p') : P p bs := by
  induction bs generalizing p with
  | nil =>
    cases h
    exact hnil
  | cons c bs ih =>
    cases hc : feed E S p c with
    | next q =>
      rw [feeds_cons hc] at h
      exact hcons p q c bs hc h (ih h)
    | err q => simp [feeds, hc] at h
    | noMemory q => simp [feeds, hc] at h
    | undef => simp [feeds, hc] at h

lemma feeds_append {p p' : Parser} {bs : List UInt8} (h : feeds E S p bs = .next p')
    (cs : List UInt8) : feeds E S p (bs ++ cs) = feeds E S p' cs := by
  refine feeds_next_induction (P := fun p bs => feeds E S p (bs ++ cs) = feeds E S p' cs)
    rfl ?_ h
  intro p q c bs hc _ ih
  rw [List.cons_append, feeds_cons hc, ih]

lemma bodyOf_append {p p' : Parser} {bs : List UInt8} (h : feeds E S p bs = .next p')
    (cs : List UInt8) : bodyOf E S p (bs ++ cs) = bodyOf E S p bs ++ bodyOf E S p' cs := by
  refine feeds_next_induction (P := fun p bs =>
    bodyOf E S p (bs ++ cs) = bodyOf E S p bs ++ bodyOf E S p' cs) rfl ?_ h
  intro p q c bs hc _ ih
  rw [List.cons_append, bodyOf_cons hc, bodyOf_cons hc, ih, List.append_assoc]

/-- The bytes `bs`, with the bytes `body` of the body among them, bring the parser to `p'`. -/
structure Parses (E : Env) (S : Bool) (p : Parser) (bs body : List UInt8) (p' : Parser) : Prop where
  feeds : feeds E S p bs = .next p'
  bodyOf : bodyOf E S p bs = body

lemma Parses.nil (p : Parser) : Parses E S p [] [] p := ⟨rfl, rfl⟩

lemma Parses.of_feed {p p' : Parser} {c : UInt8} (h : feed E S p c = .next p') :
    Parses E S p [c] (p.bodyPart c) p' :=
  ⟨feeds_cons h [], (bodyOf_cons h []).trans (List.append_nil _)⟩

lemma Parses.trans {p q r : Parser} {bs body bs' body' : List UInt8}
    (h : Parses E S p bs body q) (h' : Parses E S q bs' body' r) :
    Parses E S p (bs ++ bs') (body ++ body') r := by
  refine ⟨(feeds_append h.feeds bs').trans h'.feeds, ?_⟩
  rw [bodyOf_append h.feeds, h.bodyOf, h'.bodyOf]

/-- A list that is parsed can be cut anywhere. -/
lemma Parses.split {p r : Parser} {bs cs body : List UInt8} (h : Parses E S p (bs ++ cs) body r) :
    ∃ q body₁ body₂, body = body₁ ++ body₂ ∧ Parses E S p bs body₁ q ∧ Parses E S q cs body₂ r := by
  induction bs generalizing p body with
  | nil => exact ⟨p, [], body, rfl, .nil p, h⟩
  | cons c bs ih =>
    obtain ⟨hfeeds, hbody⟩ := h
    rw [List.cons_append] at hfeeds hbody
    cases hc : feed E S p c with
    | next p₁ =>
      rw [feeds_cons hc] at hfeeds
      rw [bodyOf_cons hc] at hbody
      obtain ⟨q, body₁, body₂, hsplit, h₁, h₂⟩ := ih ⟨hfeeds, rfl⟩
      refine ⟨q, p.bodyPart c ++ body₁, body₂, ?_, (Parses.of_feed hc).trans h₁, h₂⟩
      rw [← hbody, hsplit, List.append_assoc]
    | err q => simp [LowJs.HTTPDirect.Parser.feeds, hc] at hfeeds
    | noMemory q => simp [LowJs.HTTPDirect.Parser.feeds, hc] at hfeeds
    | undef => simp [LowJs.HTTPDirect.Parser.feeds, hc] at hfeeds

/-- Bytes that have been parsed do not end the connection; the next one does. -/
lemma Parses.feeds_stop {p q : Parser} {bs body : List UInt8} (h : Parses E S p bs body q)
    {c : UInt8} (hc : ∀ p', feed E S q c ≠ .next p') (cs : List UInt8) :
    LowJs.HTTPDirect.Parser.feeds E S p (bs ++ c :: cs) = feed E S q c := by
  rw [feeds_append h.feeds, LowJs.HTTPDirect.Parser.feeds]
  cases hf : feed E S q c with
  | next p' => exact absurd hf (hc p')
  | err p' => rfl
  | noMemory p' => rfl
  | undef => rfl

/-- The parser as it meets a byte that is not skipped. -/
def marked (p : Parser) (c : UInt8) : Parser :=
  { p with mEraseNextN := decide (p.mPhase ≠ Phase.body ∧ c = CR) }

lemma feed_skip {p : Parser} {c : UInt8} (h : p.mEraseNextN ∧ c = LF) :
    feed E S p c = .next { p with mEraseNextN := false, history := p.history.skip } := if_pos h

lemma feed_section {p : Parser} {c : UInt8} (h : ¬(p.mEraseNextN ∧ c = LF)) (hsec : p.InSection) :
    feed E S p c = (p.marked c).sectionByte E S c := by
  obtain ⟨hbody, hchunk, hsend⟩ := hsec
  refine (if_neg h).trans ?_
  dsimp only
  split
  · next hp => exact absurd hp hsend
  · next hp => exact absurd hp hbody
  · next hp => exact absurd hp hchunk
  · rfl

lemma feed_chunkHeader {p : Parser} {c : UInt8} (h : ¬(p.mEraseNextN ∧ c = LF))
    (hp : p.mPhase = .chunkHeader) :
    feed E S p c =
      match chunkByte { p.marked c with history := p.history.take [c] } c with
      | none => .err { p.marked c with history := p.history.take [c] }
      | some p => .next p := by
  refine (if_neg h).trans ?_
  dsimp only
  split
  · next hp' => exact absurd (hp.symm.trans hp') (by simp)
  · next hp' => exact absurd (hp.symm.trans hp') (by simp)
  · rfl
  · next hp' => exact absurd hp hp'

lemma feed_sendingResponse {p : Parser} {c : UInt8} (h : ¬(p.mEraseNextN ∧ c = LF))
    (hp : p.mPhase = .sendingResponse) : feed E S p c = .err (p.marked c) := by
  refine (if_neg h).trans ?_
  dsimp only
  rw [hp]
  simp [marked, hp]

/-! ### Copies of the body -/

lemma History.take_append (h : History) (bs cs : List UInt8) :
    h.take (bs ++ cs) = (h.take bs).take cs := by
  by_cases hf : h.framing.isSome <;> simp [History.take, hf]

/-- The lengths are numbers that an `int` holds, what has been taken of an announced length is
counted without overflow, and there are bytes left of it in the body. -/
structure LenOk (p : Parser) : Prop where
  contentLen : IsInt32 p.mContentLen
  dataLen : 0 ≤ p.mContentLen ∨ p.mPhase ≠ .body → 0 ≤ p.mDataLen ∧ p.mDataLen < 2 ^ 31
  trailer : ¬p.InSection → p.mAtTrailer
  head : ¬p.mAtTrailer → p.mDataLen = 0
  chunk : p.mPhase = .chunkHeader →
    p.mContentLen = p.mDataLen ∧ p.mChunkedHeaderLine.length ≤ 10
  body : p.mPhase = .body → 0 ≤ p.mContentLen → p.mContentLen ≠ p.mDataLen

/-- A copy that does not reach the announced length. -/
lemma copied_open {p : Parser} {bs : List UInt8}
    (h : ¬(0 ≤ p.mContentLen ∧ int32 (p.mDataLen + bs.length) = p.mContentLen)) :
    p.copied bs = { p with
      mDataLen := int32 (p.mDataLen + bs.length)
      history := p.history.take bs } := if_neg h

/-- A copy that reaches the end of a chunk. -/
lemma copied_chunk {p : Parser} {bs : List UInt8}
    (h : 0 ≤ p.mContentLen ∧ int32 (p.mDataLen + bs.length) = p.mContentLen)
    (hc : p.mChunkedEncoding = true) :
    p.copied bs = { p with
      mDataLen := int32 (p.mDataLen + bs.length)
      history := p.history.take bs
      mPhase := .chunkHeader
      mChunkedHeaderLine := [] } := (if_pos h).trans (if_pos hc)

/-- A copy that reaches the announced length. -/
lemma copied_last {p : Parser} {bs : List UInt8}
    (h : 0 ≤ p.mContentLen ∧ int32 (p.mDataLen + bs.length) = p.mContentLen)
    (hc : p.mChunkedEncoding = false) :
    p.copied bs = { p with
      mDataLen := int32 (p.mDataLen + bs.length)
      history := p.history.take bs
      mPhase := .sendingResponse } :=
  (if_pos h).trans (if_neg (ne_of_eq_of_ne hc Bool.false_ne_true))

/-- A copy that leaves some of the announced bytes. -/
lemma copied_of_lt {p : Parser} {bs : List UInt8} (hok : p.LenOk) (hbody : p.mPhase = .body)
    (hlt : 0 ≤ p.mContentLen → p.mDataLen + bs.length < p.mContentLen) :
    p.copied bs = { p with
        mDataLen := int32 (p.mDataLen + bs.length)
        history := p.history.take bs } ∧ (p.copied bs).LenOk := by
  have hcl := hok.contentLen
  unfold IsInt32 at hcl
  have hdl : 0 ≤ p.mContentLen → int32 (p.mDataLen + bs.length) = p.mDataLen + bs.length := by
    intro h0
    have := hok.dataLen (.inl h0)
    have := hlt h0
    exact int32_eq ⟨by omega, by omega⟩
  have heq : p.copied bs = { p with
      mDataLen := int32 (p.mDataLen + bs.length)
      history := p.history.take bs } := by
    refine copied_open ?_
    rintro ⟨h0, h1⟩
    have h2 := hlt h0
    rw [← h1, hdl h0] at h2
    exact absurd h2 (lt_irrefl _)
  refine ⟨heq, ?_⟩
  rw [heq]
  have ht : p.mAtTrailer := hok.trailer fun h => h.1 hbody
  refine ⟨hok.contentLen, ?_, fun _ => ht, fun h => absurd ht h, ?_, fun _ h0 => ?_⟩
  · rintro (h0 | h0)
    · have := hok.dataLen (.inl h0)
      have := hlt h0
      simp only at h0 ⊢
      rw [hdl h0]
      omega
    · exact absurd hbody h0
  · simp [hbody]
  · have := hlt h0
    simp only at h0 ⊢
    rw [hdl h0]
    omega

lemma copied_append {p : Parser} {bs : List UInt8} (hok : p.LenOk) (hbody : p.mPhase = .body)
    (hlt : 0 ≤ p.mContentLen → p.mDataLen + bs.length < p.mContentLen) (cs : List UInt8) :
    (p.copied bs).copied cs = p.copied (bs ++ cs) := by
  rw [(copied_of_lt hok hbody hlt).1]
  simp only [copied, int32_add, List.length_append, Nat.cast_add, History.take_append, add_assoc]

lemma feed_body {p : Parser} (hbody : p.mPhase = .body) (herase : p.mEraseNextN = false)
    (hlt : 0 ≤ p.mContentLen → p.mDataLen < p.mContentLen) (c : UInt8) :
    feed E S p c = .next (p.copied [c]) ∧ p.bodyPart c = [c] := by
  have hnot : ¬(0 ≤ p.mContentLen ∧ p.mContentLen ≤ p.mDataLen) := by omega
  constructor
  · cases p
    simp only at hbody herase hnot
    subst hbody herase
    simp only [feed, Bool.false_eq_true, false_and, if_false, if_neg hnot, ne_eq,
      not_true_eq_false, decide_false]
  · simp [bodyPart, hbody, herase]

/-- A copy does what its bytes do one by one. -/
lemma feeds_copied {p : Parser} {bs : List UInt8} (hok : p.LenOk) (hbody : p.mPhase = .body)
    (herase : p.mEraseNextN = false) (hne : bs ≠ [])
    (hle : 0 ≤ p.mContentLen → p.mDataLen + bs.length ≤ p.mContentLen) :
    feeds E S p bs = .next (p.copied bs) ∧ bodyOf E S p bs = bs := by
  induction bs generalizing p with
  | nil => exact absurd rfl hne
  | cons c bs ih =>
    simp only [List.length_cons, Nat.cast_add, Nat.cast_one] at hle
    obtain ⟨hfeed, hpart⟩ := feed_body (E := E) (S := S) hbody herase (by omega) c
    rw [feeds_cons hfeed, bodyOf_cons hfeed, hpart]
    cases hbs : bs with
    | nil => simp
    | cons c' bs' =>
      rw [← hbs]
      have hlt : 0 ≤ p.mContentLen → p.mDataLen + ([c].length : Int) < p.mContentLen := by
        intro h0
        have := hle h0
        simp only [hbs, List.length_cons, List.length_nil, Nat.cast_add, Nat.cast_one] at this ⊢
        omega
      obtain ⟨heq, hok'⟩ := copied_of_lt hok hbody hlt
      have hle' : 0 ≤ (p.copied [c]).mContentLen →
          (p.copied [c]).mDataLen + bs.length ≤ (p.copied [c]).mContentLen := by
        rw [heq]
        intro h0
        have h1 := hok.dataLen (.inl h0)
        have h2 := hok.contentLen
        unfold IsInt32 at h2
        have h3 := hle h0
        simp only [List.length_cons, List.length_nil, Nat.cast_add, Nat.cast_one, Nat.cast_zero] at h0 h3 ⊢
        rw [int32_eq ⟨by omega, by omega⟩]
        omega
      obtain ⟨h1, h2⟩ := ih hok' (by rw [heq]; exact hbody) (by rw [heq]; exact herase)
        (by rw [hbs]; simp) hle'
      rw [h1, h2, copied_append hok hbody hlt]
      simp

/-! ### The lengths stay in range -/

lemma isInt32_zero : IsInt32 0 := by decide

lemma LenOk.congr {p p' : Parser} (h : p.LenOk) (hcl : p'.mContentLen = p.mContentLen)
    (hdl : p'.mDataLen = p.mDataLen) (hp : p'.mPhase = p.mPhase)
    (ht : p'.mAtTrailer = p.mAtTrailer) (hline : p'.mChunkedHeaderLine = p.mChunkedHeaderLine) :
    p'.LenOk := by
  have hsec : p'.InSection ↔ p.InSection := by simp [InSection, hp]
  constructor
  · rw [hcl]
    exact h.contentLen
  · rw [hcl, hdl, hp]
    exact h.dataLen
  · rw [ht, hsec]
    exact h.trailer
  · rw [ht, hdl]
    exact h.head
  · rw [hp, hcl, hdl, hline]
    exact h.chunk
  · rw [hp, hcl, hdl]
    exact h.body

/-- In a section only the data length matters. -/
lemma LenOk.of_section {p p' : Parser} (h : p.LenOk) (hp : p.InSection) (hp' : p'.InSection)
    (hcl : IsInt32 p'.mContentLen) (hdl : p'.mDataLen = p.mDataLen)
    (ht : p'.mAtTrailer = p.mAtTrailer) : p'.LenOk where
  contentLen := hcl
  dataLen := fun _ => by
    rw [hdl]
    exact h.dataLen (.inr hp.1)
  trailer := fun hn => absurd hp' hn
  head := by
    rw [ht, hdl]
    exact h.head
  chunk := fun hc => absurd hc hp'.2.1
  body := fun hb => absurd hb hp'.1

lemma LenOk.copied {p : Parser} (h : p.LenOk) (hbody : p.mPhase = .body) {bs : List UInt8}
    (hle : 0 ≤ p.mContentLen → p.mDataLen + bs.length ≤ p.mContentLen) : (p.copied bs).LenOk := by
  by_cases hlt : 0 ≤ p.mContentLen → p.mDataLen + bs.length < p.mContentLen
  · exact (copied_of_lt h hbody hlt).2
  · push Not at hlt
    obtain ⟨h0, hge⟩ := hlt
    have h1 := hle h0
    have hcl := h.contentLen
    have ht : p.mAtTrailer := h.trailer fun hs => hs.1 hbody
    unfold IsInt32 at hcl
    have heq : p.mDataLen + bs.length = p.mContentLen := by omega
    have hint : int32 (p.mDataLen + bs.length) = p.mContentLen := by
      rw [heq, int32_eq h.contentLen]
    simp only [Parser.copied, hint, h0, and_self, if_true]
    split
    · exact ⟨h.contentLen, fun _ => ⟨h0, hcl.2⟩, fun _ => ht, fun hn => absurd ht hn,
        fun _ => ⟨rfl, by simp⟩, by simp⟩
    · exact ⟨h.contentLen, fun _ => ⟨h0, hcl.2⟩, fun _ => ht, fun hn => absurd ht hn,
        by simp, by simp⟩

/-- A chunk that is not empty leaves something to read. -/
lemma int32_add_ne {a n : Int} (hn : int32 n ≠ 0) : int32 (a + int32 n) ≠ a := by
  have hi := isInt32_int32 n
  unfold IsInt32 at hi
  generalize int32 n = i at hn hi
  rw [int32, Int.bmod_def]
  split <;> omega

lemma LenOk.chunkByte {p p' : Parser} (h : p.LenOk) (hchunk : p.mPhase = .chunkHeader) {c : UInt8}
    (hc : p.chunkByte c = some p') : p'.LenOk := by
  obtain ⟨heq, hlen⟩ := h.chunk hchunk
  have hdl := h.dataLen (.inr (by simp [hchunk]))
  have ht : p.mAtTrailer := h.trailer fun hs => hs.2.1 hchunk
  have hstep := chunkByte_step p c hlen
  rw [hc] at hstep
  cases hstep with
  | blank _ _ => exact h
  | char _ h10 =>
    exact ⟨h.contentLen, fun _ => hdl, fun _ => ht, h.head,
      fun _ => ⟨heq, by simp only [List.length_append, List.length_singleton]; omega⟩,
      fun hb => absurd (hchunk.symm.trans hb) (by simp)⟩
  | last _ _ n _ _ =>
    exact ⟨h.contentLen, fun _ => hdl, fun _ => ht, h.head, by simp, by simp⟩
  | chunk _ _ n _ hn =>
    refine ⟨isInt32_int32 _, fun _ => hdl, fun _ => ht, h.head, by simp, fun _ _ => ?_⟩
    change int32 (p.mContentLen + int32 n) ≠ p.mDataLen
    rw [← heq]
    exact int32_add_ne hn

lemma LenOk.endSection {p : Parser} (h : p.LenOk) (hsec : p.InSection) (b : Nat) :
    (p.endSection b).LenOk := by
  have hdl := h.dataLen (.inr hsec.1)
  have hbl : IsInt32 p.bodyLen := by
    unfold bodyLen
    split
    · exact isInt32_zero
    · exact h.contentLen
  rcases endSection_cases p b with ⟨ht, hphase, hs⟩ | ⟨ht, contentLen, phase, line, hs, hphase, hcl⟩
  · refine ⟨?_, fun _ => ?_, fun _ => ?_, fun hn => ?_, by simp [hphase], by simp [hphase]⟩
    · rw [hs.contentLen]
      exact h.contentLen
    · rw [hs.dataLen]
      exact hdl
    · exact hs.atTrailer.trans ht
    · exact absurd (hs.atTrailer.trans ht) hn
  · have h0 : (p.endSection b).mDataLen = 0 := hs.dataLen.trans (h.head ht)
    refine ⟨?_, fun _ => by simp [h0], fun _ => hs.atTrailer, fun _ => h0, ?_, ?_⟩
    · rw [hs.contentLen]
      rcases hcl with ⟨-, rfl, -⟩ | ⟨-, rfl, -⟩ | ⟨-, rfl, -⟩
      · exact isInt32_zero
      · exact hbl
      · exact hbl
    · rw [hphase, hs.contentLen, hs.chunkedHeaderLine, h0]
      rcases hcl with ⟨-, rfl, -, rfl⟩ | ⟨-, -, -, rfl, -⟩ | ⟨-, -, -, rfl, -⟩ <;> simp
    · rw [hphase, hs.contentLen, h0]
      rcases hcl with ⟨-, -, rfl, -⟩ | ⟨-, -, hne, rfl, -⟩ | ⟨-, -, -, rfl, -⟩
      · simp
      · exact fun _ _ => hne
      · simp

lemma LenOk.paramByte {p p' : Parser} (h : p.LenOk) (hsec : p.InSection) {b : Nat}
    {c : UInt8} {e : ParamExit} (hstep : ParamStep E p b c e p') (he : e ≠ .err) : p'.LenOk := by
  cases hstep with
  | next hs hp =>
    refine h.of_section hsec (hp hsec) ?_ hs.dataLen hs.atTrailer
    rw [hs.contentLen]
    exact h.contentLen
  | err hs hp => exact absurd rfl he
  | ended hk _ _ => exact h.endSection hsec b
  | value hv =>
    obtain ⟨hphase, ⟨-, value, hs⟩ | ⟨chunked, hs⟩⟩ := storeValue_cases E p b
    · obtain ⟨hist, hann⟩ := announceLength_eq p value
      rw [hann] at hs
      refine h.of_section hsec (by simp [InSection, hphase]) ?_ hs.dataLen hs.atTrailer
      rw [hs.contentLen]
      exact isInt32_int32 _
    · refine h.of_section hsec (by simp [InSection, hphase]) ?_ hs.dataLen hs.atTrailer
      rw [hs.contentLen]
      exact h.contentLen

lemma LenOk.sectionByte {p p' : Parser} (h : p.LenOk) (hsec : p.InSection) {c : UInt8}
    (hf : p.sectionByte E S c = .next p') : p'.LenOk := by
  have hstore (q : Parser) (b : Nat) (hq : q.LenOk) (hqp : q.InSection)
      (hqf : (match Parser.paramByte E S { q with history := q.history.take [c] } b c with
        | (.err, p) => Fed.err p
        | (_, p) => Fed.next p) = .next p') : p'.LenOk := by
    have hok : LenOk { q with history := q.history.take [c] } := hq.congr rfl rfl rfl rfl rfl
    have hstep := paramByte_step E S { q with history := q.history.take [c] } b c
    have hok' := hok.paramByte hqp hstep
    generalize Parser.paramByte E S { q with history := q.history.take [c] } b c = r at hqf hok'
    obtain ⟨e, p''⟩ := r
    cases e with
    | next =>
      cases hqf
      exact hok' (by simp)
    | ended =>
      cases hqf
      exact hok' (by simp)
    | err => cases hqf
  unfold Parser.sectionByte at hf
  cases ha : p.allocParam E with
  | param b =>
    rw [ha] at hf
    exact hstore p b h hsec hf
  | linked b q =>
    rw [ha] at hf
    obtain ⟨hs, hp⟩ := allocParam_linked E p ha
    exact hstore q b (h.congr hs.contentLen hs.dataLen hp hs.atTrailer hs.chunkedHeaderLine)
      (by simpa [InSection, hp] using hsec) hf
  | null q =>
    rw [ha] at hf
    cases hf
  | err q =>
    rw [ha] at hf
    cases hf

lemma LenOk.feed {p p' : Parser} (h : p.LenOk) {c : UInt8} (hf : feed E S p c = .next p') :
    p'.LenOk := by
  unfold Parser.feed at hf
  split at hf
  · cases hf
    exact h.congr rfl rfl rfl rfl rfl
  · have hok : LenOk { p with mEraseNextN := decide (p.mPhase ≠ Phase.body ∧ c = CR) } :=
      h.congr rfl rfl rfl rfl rfl
    dsimp only at hf
    split at hf
    · cases hf
    · next hbody =>
      split at hf
      · cases hf
      · next hlt =>
        cases hf
        refine hok.copied hbody ?_
        simp only [List.length_cons, List.length_nil]
        omega
    · next hchunk =>
      split at hf
      · cases hf
      · next hc =>
        cases hf
        have hok' : LenOk { p with
            mEraseNextN := decide (p.mPhase ≠ Phase.body ∧ c = CR)
            history := p.history.take [c] } := hok.congr rfl rfl rfl rfl rfl
        exact hok'.chunkByte hchunk hc
    · next hsend hbody hchunk => exact hok.sectionByte ⟨hbody, hchunk, hsend⟩ hf

end Parser

end LowJs.HTTPDirect
