import LowJs.HTTPDirect.Head

/-!
# The header list of a well-formed head

The head may arrive in any pieces. The list that `OnLoop` hands to the request callback holds the
stored entries up to the first empty one: a zero length is also what ends a block.
-/

open LowJs.HTTPDirect.Parser

namespace LowJs.HTTPDirect

/-- The header list that the request callback has got first. -/
def requestData (log : List Event) : Option (List (List UInt8)) :=
  log.findSome? fun
    | .request data _ => some data
    | _ => none

namespace LowHTTPDirect

variable {E : Env} {s : LowHTTPDirect}

/-- A head arrives in pieces, and `OnLoop` runs. -/
def headRun (chunks : List (List UInt8)) : List Input :=
  .setRequestCallID :: chunks.map (fun d => .socketRead (.data d)) ++ [.onLoop]

/-- The connection receives a message whose head has not been handed over. -/
structure Receiving (s : LowHTTPDirect) : Prop where
  loop : s.LoopOk
  requestCallID : s.mRequestCallID ≠ 0
  isRequest : s.mIsRequest = false
  notClosed : s.mClosed = false
  remaining : s.reader.mRemainingRead = none
  socket : s.mSocket = true
  enabled : s.rt.mDirectReadEnabled = true
  notShut : s.rt.closed = false
  inLoop : s.rt.inLoop = none
  deleted : s.rt.deleted = false
  undefined : s.rt.undefined = false
  log : s.rt.log = []
  queued : s.parser.mAtTrailer = true → s.rt.loopQueued = true

/-- Bytes without a part of the body are taken to their end. -/
lemma Receiving.receive (h : s.Receiving) {d : List UInt8} (hd : d ≠ []) {p' : Parser}
    (hf : Feeds E s.mIsServer s.parser d p') :
    let s' := s.step E (.socketRead (.data d))
    s'.Receiving ∧ s'.parser = p' ∧ s'.mIsServer = s.mIsServer := by
  have hok₀ : LoopOk { s with
      rt.mDirectReadEnabled := false
      rt.received := s.rt.received ++ d } :=
    ⟨h.loop.held, h.loop.done, h.loop.reader, h.loop.lens⟩
  obtain ⟨copied, exit, s₁, rest, htaken, hnil, hdata⟩ :=
    SocketData_taken (E := E) hok₀ h.notClosed hd false
  have hstep : s.step E (.socketRead (.data d)) =
      let r := SocketData E { s with
        rt.mDirectReadEnabled := false
        rt.received := s.rt.received ++ d } (.data d) false
      if r.1 then { r.2 with rt.mDirectReadEnabled := true } else r.2 := by
    refine (if_neg (by simp [h.deleted, h.undefined])).trans ?_
    refine (if_pos ⟨h.socket, h.enabled, by simp [h.notShut]⟩).trans ?_
    cases d with
    | nil => exact absurd rfl hd
    | cons c d => rfl
  have hfed := htaken.fed
  have hcb := htaken.callback
  have hrd := htaken.readData
  have hrp := htaken.readPos
  obtain ⟨p, cb, m, rd, pos, rem, cs, errno, rfl⟩ := htaken.exists_frame
  dsimp only at hfed hcb hrd hrp
  cases exit with
  | next =>
    obtain ⟨hok₁, hrem, bs, hbs, hparses⟩ := hfed
    obtain rfl := hnil rfl
    obtain rfl : d = bs := by simpa using hbs
    obtain rfl : p = p' := by
      have := hparses.feeds.symm.trans hf.fed
      cases this
      rfl
    have hcopied : copied = [] := hparses.bodyOf.symm.trans hf.noBody
    rw [hstep, hdata]
    have hrem' : rem = none := hrem.trans h.remaining
    have hqueued : p.mAtTrailer = true → cb = true ∨ s.rt.loopQueued = true := by
      intro ht
      rcases hcb (.inl rfl) with hcb | ⟨-, -, hpt, -⟩
      · exact .inl hcb
      · exact .inr (h.queued (hpt ▸ ht))
    have hpos : pos = s.reader.mReadPos := by simpa [hcopied] using hrp
    have hreader : Reader.Ok { s.reader with mReadData := rd, mReadPos := pos } := by
      rw [hpos, hrd, hcopied]
      simpa using h.loop.reader
    simp only [loopExit, loopDone_eq, hrem', Option.isNone_none, if_true]
    refine ⟨⟨⟨hok₁.held, hok₁.done, hreader, hok₁.lens⟩, h.requestCallID, h.isRequest, h.notClosed,
      rfl, h.socket, rfl, h.notShut, h.inLoop, h.deleted, h.undefined, h.log, fun ht => ?_⟩,
      trivial, trivial⟩
    rcases hqueued ht with hcb | hq
    · simp [hcb, h.requestCallID]
    · simp [hq]
  | brk =>
    obtain ⟨-, -, -, bs, c, tl, q, rfl, rfl, hparses, hbody, herase, -⟩ := hfed
    have hnone := hf.noBody
    have hpart : q.bodyPart c = [c] := if_pos ⟨hbody, herase⟩
    rw [bodyOf_append hparses.feeds] at hnone
    cases hc : feed E s.mIsServer q c <;> simp [bodyOf, hc, hpart] at hnone
  | err =>
    obtain ⟨-, bs, c, q, rfl, hparses, hfeed⟩ := hfed
    have hstop := hparses.feeds_stop (c := c) (by simp [hfeed]) rest
    rw [hf.fed, hfeed] at hstop
    cases hstop
  | done =>
    obtain ⟨-, bs, c, q, rfl, hparses, hfeed⟩ := hfed
    have hstop := hparses.feeds_stop (c := c) (by simp [hfeed]) rest
    rw [hf.fed, hfeed] at hstop
    cases hstop
  | undef =>
    obtain ⟨bs, c, tl, q, rfl, rfl, hparses, hfeed, -⟩ := hfed
    have hstop := hparses.feeds_stop (c := c) (by simp [hfeed]) tl
    rw [hf.fed, hfeed] at hstop
    cases hstop

/-- The pieces of a head are taken one after the other. -/
lemma Receiving.run (h : s.Receiving) {chunks : List (List UInt8)} (hne : ∀ d ∈ chunks, d ≠ [])
    {p' : Parser} (hf : Feeds E s.mIsServer s.parser chunks.flatten p') :
    let s' := (machine E).run s (chunks.map fun d => .socketRead (.data d))
    s'.Receiving ∧ s'.parser = p' := by
  induction chunks generalizing s with
  | nil =>
    have := hf.fed
    cases this
    exact ⟨h, rfl⟩
  | cons d chunks ih =>
    rw [List.flatten_cons] at hf
    obtain ⟨q, hq, hrest⟩ := hf.split
    obtain ⟨h₁, hp₁, hsrv₁⟩ := h.receive (hne d (by simp)) hq
    rw [← hp₁, ← hsrv₁] at hrest
    exact ih h₁ (fun d' hd' => hne d' (by simp [hd'])) hrest

/-- A new connection with its request callback receives. -/
lemma receiving_start (isServer : Bool) (u : LowHTTPDirect) :
    let s := (start isServer u).step E .setRequestCallID
    s.Receiving ∧ s.mIsServer = isServer ∧ s.parser.mPhase = .firstLine1 ∧
      s.parser.mEraseNextN = false ∧ s.parser.mAtTrailer = false ∧
      s.parser.mParamLast = none ∧ s.parser.allocs = u.parser.allocs := by
  refine ⟨⟨⟨rfl, ?_, ?_, ?_⟩, ?_, rfl, rfl, rfl, rfl, rfl, rfl, rfl, rfl, rfl, rfl, ?_⟩,
    rfl, rfl, rfl, rfl, rfl, rfl⟩
  · simp [step, start, create, init, SetRequestCallID, responseDone, Parser.init]
  · intro buf hbuf
    cases hbuf
  · have hlt : (0 : Int) < 2 ^ 31 := by decide
    have hneg : IsInt32 (-1) := by decide
    refine ⟨hneg, fun _ => ⟨le_refl 0, hlt⟩, fun hn => ?_, fun _ => rfl, ?_, ?_⟩
    · exact absurd ⟨Phase.noConfusion, Phase.noConfusion, Phase.noConfusion⟩ hn
    · intro hp
      cases hp
    · intro hp
      cases hp
  · exact Nat.succ_ne_zero _
  · intro ht
    cases ht

/-- `OnLoop` hands over the entries of a complete head, up to the first empty one. -/
lemma Receiving.onLoop (h : s.Receiving) {b : Nat} {done : List (List UInt8)}
    (hdone : HeadDone s.parser b done) (hsize : span done < E.sizeofData)
    (hnul : ∀ e ∈ done, ∀ c ∈ e, c ≠ 0) (hshort : ∀ e ∈ done, e.length < 256) :
    requestData (s.step E .onLoop).rt.log = some (done.takeWhile (· ≠ [])) := by
  have hstrings : blockStrings E (fun b => b.toNat) (s.parser.heap b).data =
      some (done.takeWhile (· ≠ [])) := by
    refine blockStrings_of_entries hdone.entries hdone.terminated hsize hnul hshort fun e he => ?_
    rw [UInt8.toNat_ofNat', Nat.mod_eq_of_lt (hshort e he)]
  have htake : s.parser.takeHeaders E = (some (done.takeWhile (· ≠ [])),
      { s.parser with mParamFirst := none, mParamLast := none }) := by
    simp [takeHeaders, takeParams, hdone.first, hdone.type, hdone.next, hstrings]
  have hlog : (s.step E .onLoop).rt.log =
      s.rt.log ++ [.request (done.takeWhile (· ≠ [])) s.reader.mBytesRead] := by
    have hstep : s.step E .onLoop = s.OnLoop E := if_neg (by simp [h.deleted, h.undefined])
    rw [hstep]
    simp only [OnLoop, h.inLoop, h.queued hdone.trailer, if_true, onLoopRequest,
      if_neg h.requestCallID, hdone.first, h.isRequest, hdone.type, hdone.trailer, lock, unlock,
      htake, emit, Bool.not_false, and_self]
  rw [hlog, h.log]
  rfl

/-- Of a head that fits in a block, `OnLoop` hands over the stored entries up to the first empty
one, however the head arrives. -/
theorem requestData_headRun (E : Env) (u : LowHTTPDirect) (h : Head) (hfit : h.Fits E.sizeofData)
    (hmem : (E.lowAlloc u.parser.allocs).isSome) {chunks : List (List UInt8)}
    (hne : ∀ d ∈ chunks, d ≠ []) (hchunks : chunks.flatten = h.spell) :
    requestData ((machine E).run (start h.start.isServer u) (headRun chunks)).rt.log =
      some (h.stored.takeWhile (· ≠ [])) := by
  obtain ⟨mem, hmem⟩ := Option.isSome_iff_exists.mp hmem
  obtain ⟨hrec, hsrv, hphase, herase, ht, hlast, hallocs⟩ :=
    receiving_start (E := E) h.start.isServer u
  obtain ⟨s, hs⟩ : ∃ s, s = (start h.start.isServer u).step E .setRequestCallID := ⟨_, rfl⟩
  rw [← hs] at hrec hsrv hphase herase ht hlast hallocs
  have hsec : s.parser.InSection := by simp [InSection, hphase]
  obtain ⟨p', hfeeds, hdone, hspan⟩ :=
    (headAt_firstBlock mem hphase herase ht).head (E := E) h hfit
  have hsize : 3 < E.sizeofData := by
    have hpos : 1 + 2 < E.sizeofData := by
      obtain ⟨text, entry, rest, hr⟩ : ∃ text entry rest, h.texts = (text, entry) :: rest := by
        rw [Head.texts]
        cases h.start <;> exact ⟨_, _, _, rfl⟩
      rw [Head.Fits, hr] at hfit
      have := hfit.1
      omega
    exact hpos
  have hfeeds' : Feeds E s.mIsServer s.parser chunks.flatten p' := by
    obtain ⟨c, cs, hspell⟩ : ∃ c cs, h.spell = c :: cs := by
      refine List.exists_cons_of_ne_nil fun hnil => ?_
      rw [Head.spell, List.append_eq_nil_iff] at hnil
      exact absurd hnil.2 (by simp [lineEnd])
    rw [hchunks, hsrv]
    rw [hspell] at hfeeds ⊢
    exact Feeds.of_firstBlock hsec herase hlast (by rw [hallocs]; exact hmem) hsize hfeeds
  obtain ⟨hrec', hp'⟩ := hrec.run hne hfeeds'
  rw [headRun, Machine.run_append, Machine.run_cons]
  change requestData (step E ((machine E).run ((start h.start.isServer u).step E
    .setRequestCallID) _) .onLoop).rt.log = _
  rw [← hs]
  rw [← hp'] at hdone
  exact hrec'.onLoop hdone hspan (fun e he => (h.stored_spec e he).1)
    fun e he => (h.stored_spec e he).2

/-- `GET / HTTP/1.1`. -/
def getRoot : StartLine :=
  .request ⟨[71, 69, 84], by simp, by simp [IsText, CR, LF], by simp [isBlank, SP, HT]⟩
    .slash .one .one

/-- `Via: x`. -/
def viaHeader : Header :=
  ⟨[86, 105, 97], [32, 120], by simp, by simp [IsText, CR, LF], by simp, by simp, by simp [IsText, CR, LF]⟩

/-- `TE:`, a header without a value. -/
def emptyHeader : Header :=
  ⟨[84, 69], [], by simp, by simp [IsText, CR, LF], by simp, by simp, by simp [IsText, CR, LF]⟩

def viaHead : Head := ⟨getRoot, [viaHeader]⟩

example : viaHead.parts = [bytes "GET", bytes "/", bytes "1.1", bytes "via", bytes "x"] := by decide

def emptyHead : Head := ⟨getRoot, [emptyHeader, viaHeader]⟩

end LowHTTPDirect

end LowJs.HTTPDirect
