import LowJs.HTTPDirect.Readers

/-!
# The stash and the buffers that are written

A JavaScript buffer that is queued for writing is kept alive by the stash. The web thread only counts the
buffers it has sent; the ids are removed from the stash by the next `Write`, or by the destructor. What is
added and removed is recorded beside the connection, together with the ids of the buffers in the queue.
-/

namespace LowJs.HTTPDirect

/-- The ids `low_add_stash` has given for buffers, those `low_remove_stash` has been called with for
buffers, and the ids with which the buffers in the queue have joined it, 0 for a chunk size line. -/
structure Ledger where
  added : List Nat
  removed : List Nat
  queue : List Nat
  deriving DecidableEq, Repr

namespace LowHTTPDirect

/-- `WriteHeaders` does something. -/
def mayWriteHeaders (s : LowHTTPDirect) : Bool :=
  ¬((s.mIsServer ∧ !s.mIsRequest) ∨ s.writer.mWriting)

/-- `Write` does something. -/
def mayWrite (s : LowHTTPDirect) : Bool :=
  ¬((s.mIsServer ∧ !s.mIsRequest) ∨ !s.writer.mWriting ∨ s.writer.mWriteBuffers.length > 1 ∨
    s.writer.mWriteCallID ≠ 0 ∨ s.writer.mWriteDone ∨ !s.mSocket)

/-- The ids of the buffers sent and of the queued ones. -/
def held (s : LowHTTPDirect) : List Nat :=
  s.writer.mWriteBufferStashID.take
    (s.writer.mWriteBufferStashInvalidCount + s.writer.mWriteBuffers.length)

/-- The ids with which buffers join the queue in a step. -/
def joining (s : LowHTTPDirect) : Input → List Nat
  | .writeHeaders _ _ _ _ => if s.mayWriteHeaders then [s.rt.stash.last + 1] else []
  | .write data _ =>
    if s.mayWrite then
      (if s.writer.mWriteChunkedEncoding then [0] else []) ++
        if data = [] then [] else [s.rt.stash.last + 1]
    else []
  | _ => []

/-- The ids for which `low_remove_stash` is called in a step, which `Write` does for the buffers sent and
the destructor for all. -/
def releasing (s : LowHTTPDirect) (i : Input) (destroyed : Bool) : List Nat :=
  if destroyed then s.held
  else
    match i with
    | .write _ _ =>
      if s.mayWrite then s.writer.mWriteBufferStashID.take s.writer.mWriteBufferStashInvalidCount else []
    | _ => []

end LowHTTPDirect

open LowHTTPDirect LowJs.HTTPDirect.Parser

/-- The last `n` elements. -/
def lastN (n : Nat) (ids : List Nat) : List Nat := ids.drop (ids.length - n)

namespace Ledger

/-- What a step from `s` to `t` adds, where the connection is not deleted yet. The buffers leave the queue
in the order in which they have joined it. -/
def record (l : Ledger) (s t : LowHTTPDirect) (i : Input) : Ledger where
  added := l.added ++ (s.joining i).filter (· ≠ 0)
  removed := l.removed ++ (s.releasing i t.rt.deleted).filter (· ≠ 0)
  queue := lastN t.writer.mWriteBuffers.length (l.queue ++ s.joining i)

end Ledger

/-- A connection and its record. -/
def recorded (E : Env) : Machine (LowHTTPDirect × Ledger) LowHTTPDirect.Input :=
  ⟨fun s i => (step E s.1 i,
    if s.1.rt.deleted ∨ s.1.rt.undefined then s.2 else s.2.record s.1 (step E s.1 i) i)⟩

/-- The ids behind `mWriteBufferStashInvalidCount` belong, in order, to the queued buffers; each buffer of
these that has an id is in the stash, and those without one are chunk size lines; and each id that has been
added has been removed once or is still held. -/
structure StashSound (s : LowHTTPDirect) (l : Ledger) : Prop where
  order : s.rt.deleted = false →
    (s.writer.mWriteBufferStashID.drop s.writer.mWriteBufferStashInvalidCount).take
      s.writer.mWriteBuffers.length = l.queue
  lines : s.rt.deleted = false →
    s.writer.mWriteBuffers.map Iov.isChunkLine = l.queue.map (fun id => decide (id = 0))
  live : s.rt.deleted = false → ∀ id ∈ l.queue, id ≠ 0 → id ∈ s.rt.stash.live
  fresh : l.added.Nodup
  once : l.added.Perm (l.removed ++ if s.rt.deleted then [] else s.held.filter (· ≠ 0))

/-- The condition: where `WriteHeaders` does something, the ids of the buffers sent before have been
removed. -/
def Released (s : LowHTTPDirect × Ledger) : LowHTTPDirect.Input → Prop
  | .writeHeaders _ _ _ _ =>
    s.1.mayWriteHeaders = true → s.1.writer.mWriteBufferStashInvalidCount = 0
  | _ => True

instance (s : LowHTTPDirect × Ledger) : ∀ i : LowHTTPDirect.Input, Decidable (Released s i)
  | .writeHeaders _ _ _ _ => inferInstanceAs (Decidable (_ → _))
  | .setRequestCallID | .read _ | .write _ _ | .detach | .socketRead _ | .socketWrite _ | .onLoop =>
    isTrue trivial

namespace LowHTTPDirect

variable {E : Env} {s t u : LowHTTPDirect}

/-! ### What sending and reading do to the ids -/

/-- What the ids of the buffers depend on. -/
def papers (s : LowHTTPDirect) :=
  (s.writer.mWriteBuffers, s.writer.mWriteBufferStashID, s.writer.mWriteBufferStashInvalidCount,
    s.writer.mWriting, s.writer.mWriteCallID, s.reader.mReadCallID, s.rt.stash, s.rt.deleted)

/-- An id of a callback stays, or it is dropped, or it is new. -/
def Renewed (id id' last last' : Nat) : Prop := id' = id ∨ id' = 0 ∨ last < id' ∧ id' ≤ last'

/-- `k` buffers leave the queue, and the stash loses at most the callbacks that wait. -/
structure Sends (k : Nat) (s t : LowHTTPDirect) : Prop where
  le : k ≤ s.writer.mWriteBuffers.length
  buffers : t.writer.mWriteBuffers.map Iov.isChunkLine =
    (s.writer.mWriteBuffers.drop k).map Iov.isChunkLine
  ids : t.writer.mWriteBufferStashID = s.writer.mWriteBufferStashID
  invalid : t.writer.mWriteBufferStashInvalidCount = s.writer.mWriteBufferStashInvalidCount + k
  writing : t.writer.mWriting = s.writer.mWriting ∨
    t.writer.mWriting = false ∧ t.writer.mWriteBuffers = []
  last : s.rt.stash.last ≤ t.rt.stash.last
  live : ∀ id ∈ s.rt.stash.live, id ≠ 0 → id ≤ s.rt.stash.last → id ≠ s.reader.mReadCallID →
    id ≠ s.writer.mWriteCallID → id ∈ t.rt.stash.live
  readID : Renewed s.reader.mReadCallID t.reader.mReadCallID s.rt.stash.last t.rt.stash.last
  writeID : Renewed s.writer.mWriteCallID t.writer.mWriteCallID s.rt.stash.last t.rt.stash.last
  deleted : t.rt.deleted = s.rt.deleted

lemma Sends.of_papers (h : t.papers = s.papers) : Sends 0 s t := by
  simp only [papers, Prod.mk.injEq] at h
  obtain ⟨hb, hi, hn, hw, hwid, hrid, hst, hd⟩ := h
  exact ⟨Nat.zero_le _, by rw [hb]; rfl, hi, hn, .inl hw, by rw [hst], fun id hid _ _ _ _ => by rwa [hst],
    .inl hrid, .inl hwid, hd⟩

lemma Renewed.trans {a b c k l m : Nat} (h : Renewed a b k l) (h' : Renewed b c l m) (hkl : k ≤ l)
    (hlm : l ≤ m) : Renewed a c k m := by
  unfold Renewed at *
  omega

lemma Renewed.ne {id id' last last' a : Nat} (h : Renewed id id' last last') (ha : a ≠ id) (h0 : a ≠ 0)
    (hle : a ≤ last) : a ≠ id' := by
  unfold Renewed at h
  omega

@[refl] lemma Sends.refl (s : LowHTTPDirect) : Sends 0 s s := .of_papers rfl

lemma Sends.length {k : Nat} (h : Sends k s t) :
    t.writer.mWriteBuffers.length = s.writer.mWriteBuffers.length - k := by
  simpa using congrArg List.length h.buffers

lemma Sends.trans {k l : Nat} (h : Sends k s t) (h' : Sends l t u) : Sends (k + l) s u where
  le := by
    have hlen := h.length
    have hle := h'.le
    have hk := h.le
    omega
  buffers := by
    rw [h'.buffers, List.map_drop, h.buffers, ← List.map_drop, List.drop_drop]
  ids := h'.ids.trans h.ids
  invalid := by rw [h'.invalid, h.invalid, add_assoc]
  writing := by
    rcases h'.writing with hw | hw
    · rcases h.writing with hw' | ⟨hw', hb⟩
      · exact .inl (hw.trans hw')
      · refine .inr ⟨hw.trans hw', ?_⟩
        have hlen := h'.length
        rw [hb] at hlen
        exact List.length_eq_zero_iff.mp (by simpa using hlen)
    · exact .inr hw
  last := h.last.trans h'.last
  live := by
    intro id hid h0 hle hr hw
    refine h'.live id (h.live id hid h0 hle hr hw) h0 (hle.trans h.last) ?_ ?_
    · exact h.readID.ne hr h0 hle
    · exact h.writeID.ne hw h0 hle
  readID := h.readID.trans h'.readID h.last h'.last
  writeID := h.writeID.trans h'.writeID h.last h'.last
  deleted := h'.deleted.trans h.deleted

/-- Behind a step that sends nothing. -/
lemma Sends.after (h : Sends 0 s t) (h' : Sends 0 t u) : Sends 0 s u := h.trans h'

/-- In front of a step, something that the ids do not depend on. -/
lemma Sends.of_eq {k : Nat} (h : Sends k t u) (heq : t.papers = s.papers) : Sends k s u := by
  have h' := (Sends.of_papers heq).trans h
  rwa [zero_add] at h'

/-- Behind a step, something that the ids do not depend on. -/
lemma Sends.then_eq {k : Nat} (h : Sends k s t) (heq : u.papers = t.papers) : Sends k s u :=
  h.trans (.of_papers heq)

lemma Sends.init (hb : s.writer.mWriteBuffers = []) : Sends 0 s s.init where
  le := Nat.zero_le _
  buffers := rfl
  ids := rfl
  invalid := rfl
  writing := .inr ⟨rfl, hb⟩
  last := by
    rw [LowHTTPDirect.init]
    dsimp only
    split_ifs <;> exact le_rfl
  live := by
    intro id hid _ _ hr hw
    rw [LowHTTPDirect.init]
    dsimp only
    split_ifs <;> simp [Stash.remove, hid, hr, hw]
  readID := .inr (.inl rfl)
  writeID := .inr (.inl rfl)
  deleted := rfl

lemma Sends.emit (s : LowHTTPDirect) (e : Event) : Sends 0 s (s.emit e) := .of_papers rfl

lemma Sends.detach (s : LowHTTPDirect) : Sends 0 s s.detach := by
  rw [LowHTTPDirect.detach]
  split
  · exact .of_papers rfl
  · exact .refl s

lemma responseDone_empty (h : s.responseDone = true) : s.writer.mWriteBuffers = [] := by
  unfold responseDone at h
  simp only [Bool.and_eq_true, List.isEmpty_iff] at h
  exact h.2

/-! ### Reading -/

/-- A callback is told to wait. -/
lemma sends_add (s : LowHTTPDirect) (accepted : List Nat) :
    Sends 0 s { s with
      reader.mReadCallID := s.rt.stash.add.1, rt.stash := s.rt.stash.add.2, rt.accepted := accepted } ∧
    Sends 0 s { s with
      writer.mWriteCallID := s.rt.stash.add.1, rt.stash := s.rt.stash.add.2, rt.accepted := accepted } := by
  have hlive : ∀ id ∈ s.rt.stash.live, id ∈ s.rt.stash.add.2.live := fun id hid =>
    List.mem_cons_of_mem _ hid
  exact ⟨⟨Nat.zero_le _, rfl, rfl, rfl, .inl rfl, Nat.le_succ _, fun id hid _ _ _ _ => hlive id hid,
      .inr (.inr ⟨Nat.lt_succ_self _, le_rfl⟩), .inl rfl, rfl⟩,
    ⟨Nat.zero_le _, rfl, rfl, rfl, .inl rfl, Nat.le_succ _, fun id hid _ _ _ _ => hlive id hid,
      .inl rfl, .inr (.inr ⟨Nat.lt_succ_self _, le_rfl⟩), rfl⟩⟩

lemma papers_unread (h : t.unread = s.unread) : t.papers = s.papers := by
  simp only [unread, Prod.mk.injEq] at h
  obtain ⟨hwriter, -, -, hrid, hstash, hdeleted, -⟩ := h
  simp only [papers, hwriter, hrid, hstash, hdeleted]

/-- Reading sends nothing, and drops at most the callbacks that wait. -/
lemma sends_reading : Reading (Sends 0) where
  frame h := .of_papers (papers_unread h)
  trans := Sends.after
  emit s e _ := .emit s e
  init h := .init (responseDone_empty h)
  wait s accepted := (sends_add s accepted).1

lemma sends_SetRequestCallID (s : LowHTTPDirect) : Sends 0 s s.SetRequestCallID := by
  have hadd : Sends 0 s { s with mRequestCallID := s.rt.stash.add.1, rt.stash := s.rt.stash.add.2 } :=
    ⟨Nat.zero_le _, rfl, rfl, rfl, .inl rfl, Nat.le_succ _, fun id hid _ _ _ _ => List.mem_cons_of_mem _ hid,
      .inl rfl, .inl rfl, rfl⟩
  rw [SetRequestCallID]
  dsimp only
  split
  · exact hadd.then_eq rfl
  · exact hadd

/-! ### Writing -/

lemma advance_buffers (size : Nat) (bufs : List Iov) (invalid : Nat) :
    ∃ k, k ≤ bufs.length ∧ (advance size bufs invalid).2 = invalid + k ∧
      (advance size bufs invalid).1.map Iov.isChunkLine = (bufs.drop k).map Iov.isChunkLine := by
  induction bufs generalizing size invalid with
  | nil => exact ⟨0, le_rfl, rfl, rfl⟩
  | cons b bs ih =>
    simp only [advance]
    split_ifs with hle
    · obtain ⟨k, hk, hinvalid, hbufs⟩ := ih (size - b.base.length) (invalid + 1)
      exact ⟨k + 1, Nat.succ_le_succ hk, by rw [hinvalid]; omega, by rw [hbufs]; rfl⟩
    · exact ⟨0, Nat.zero_le _, rfl, rfl⟩

lemma sends_written (s : LowHTTPDirect) (size : Nat) : ∃ k, Sends k s (s.written size) := by
  obtain ⟨k, hk, hinvalid, hbufs⟩ :=
    advance_buffers size s.writer.mWriteBuffers s.writer.mWriteBufferStashInvalidCount
  exact ⟨k, hk, hbufs, rfl, hinvalid, .inl rfl, le_rfl, fun _ hid _ _ _ _ => hid, .inl rfl, .inl rfl, rfl⟩

lemma sends_responseSent (hb : s.writer.mWriteBuffers = []) : Sends 0 s s.responseSent := by
  rw [responseSent]
  split
  · split
    · split
      · exact .of_papers rfl
      · exact .refl s
    · split
      · exact .init hb
      · exact .refl s
  · exact .refl s

lemma sends_DoWrite (s : LowHTTPDirect) (results : List WritevResult) :
    ∃ k, Sends k s (s.DoWrite results) := by
  induction results generalizing s with
  | nil =>
    unfold DoWrite
    split
    · next hb => exact ⟨0, sends_responseSent hb⟩
    · split
      · exact ⟨0, .of_papers rfl⟩
      · exact ⟨0, .refl s⟩
  | cons r results ih =>
    unfold DoWrite
    split
    · next hb => exact ⟨0, sends_responseSent hb⟩
    · split
      · exact ⟨0, .of_papers rfl⟩
      · cases r with
        | size n =>
          obtain ⟨k, hk⟩ := sends_written s n
          obtain ⟨l, hl⟩ := ih (s.written n)
          exact ⟨k + l, hk.trans hl⟩
        | again => exact ⟨0, .refl s⟩
        | error errno => exact ⟨0, .of_papers rfl⟩

lemma sends_writeOutcome (s : LowHTTPDirect) : Sends 0 s s.writeOutcome := by
  rw [writeOutcome]
  split
  · exact .refl s
  · split
    · exact .of_papers rfl
    · split
      · exact .of_papers rfl
      · dsimp only
        exact (sends_add s (s.rt.accepted ++ [s.rt.stash.add.1])).2.then_eq rfl

lemma sends_onEventsWrite (s : LowHTTPDirect) (results : List WritevResult) :
    ∃ k, Sends k s (s.onEventsWrite results) := by
  have hwrite (t : LowHTTPDirect) : ∃ k, Sends k t (t.OnSocketWrite results).2 := by
    obtain ⟨k, hk⟩ := sends_DoWrite t.lock results
    refine ⟨k, Sends.of_eq (t := t.lock) ?_ rfl⟩
    rw [OnSocketWrite]
    dsimp only
    split
    · exact hk.then_eq rfl
    · exact hk.then_eq rfl
  rw [onEventsWrite]
  split
  · obtain ⟨k, hk⟩ := hwrite { s with rt.mDirectWriteEnabled := false }
    refine ⟨k, Sends.of_eq (t := { s with rt.mDirectWriteEnabled := false }) ?_ rfl⟩
    dsimp only
    split
    · exact hk.then_eq rfl
    · exact hk
  · exact ⟨0, .refl s⟩

/-! ### The main loop -/

/-- A piece of `OnLoop` sends nothing, but it may end with the destructor. -/
def Ends (s t : LowHTTPDirect) : Prop := Sends 0 s t ∨ ∃ u, Sends 0 s u ∧ t = u.destroy

lemma Ends.of_sends (h : Sends 0 s u) (h' : Ends u t) : Ends s t := by
  rcases h' with h' | ⟨v, h', heq⟩
  · exact .inl (h.after h')
  · exact .inr ⟨v, h.after h', heq⟩

lemma Ends.of_eq (h : Ends u t) (heq : u.papers = s.papers) : Ends s t := .of_sends (.of_papers heq) h

lemma ends_loopReturn (s : LowHTTPDirect) : Ends s s.loopReturn := by
  rw [loopReturn]
  dsimp only
  split
  · exact .inl (.of_papers rfl)
  · exact .inr ⟨{ s with rt.inLoop := none }, .of_papers rfl, rfl⟩

/-- A callback that has waited is called. -/
lemma sends_called (s : LowHTTPDirect) (point : LoopPoint) :
    Sends 0 s { s.removeStash s.writer.mWriteCallID with
      writer.mWriteCallID := 0, rt.inLoop := some point } ∧
    Sends 0 s { s.lock.removeStash s.reader.mReadCallID with
      reader.mReadCallID := 0, rt.inLoop := some point } := by
  constructor
  · exact ⟨Nat.zero_le _, rfl, rfl, rfl, .inl rfl, le_rfl, fun id hid _ _ _ hw => by
      simp [removeStash, Stash.remove, hid, hw], .inl rfl, .inr (.inl rfl), rfl⟩
  · exact ⟨Nat.zero_le _, rfl, rfl, rfl, .inl rfl, le_rfl, fun id hid _ _ hr _ => by
      simp [removeStash, lock, Stash.remove, hid, hr], .inr (.inl rfl), .inl rfl, rfl⟩

lemma ends_onLoopWrite (s : LowHTTPDirect) : Ends s s.onLoopWrite := by
  rw [onLoopWrite]
  split
  · left
    dsimp only
    split
    · exact (sends_called s .write).1.then_eq rfl
    · exact (sends_called s .write).1.then_eq rfl
  · exact ends_loopReturn s

lemma ends_onLoopRead (s : LowHTTPDirect) : Ends s (s.onLoopRead E) := by
  rw [onLoopRead]
  split
  · exact ends_loopReturn s
  · split
    · left
      dsimp only
      split
      · refine (sends_called s .read).2.after (Sends.after ?_ (.emit _ _))
        exact Sends.of_eq (.detach _) rfl
      · refine (sends_called s .read).2.after ?_
        exact Sends.of_eq (sends_reading.reportRead _ _) rfl
    · exact ends_onLoopWrite s

lemma ends_onLoopError (s : LowHTTPDirect) : Ends s (s.onLoopError E) := by
  rw [onLoopError]
  split
  · left
    dsimp only
    refine Sends.after ?_ (.emit _ _)
    exact Sends.of_eq (.detach _) rfl
  · exact ends_onLoopRead s

lemma ends_onLoopRequest (s : LowHTTPDirect) : Ends s (s.onLoopRequest E) := by
  rw [onLoopRequest]
  dsimp only
  split
  · split
    · exact Ends.of_eq (Ends.of_sends (Sends.detach _) (ends_loopReturn _)) rfl
    · exact Ends.of_eq (ends_loopReturn _) rfl
  · split
    · exact Ends.of_eq (ends_onLoopError _) rfl
    · split
      · split
        · exact .inl (.of_papers rfl)
        · exact .inl (.of_papers rfl)
      · exact Ends.of_eq (ends_onLoopError _) rfl

lemma ends_OnLoop (s : LowHTTPDirect) : Ends s (s.OnLoop E) := by
  rw [OnLoop]
  split
  · split
    · exact ends_onLoopRequest s
    · exact .inl (.refl s)
  · exact ends_onLoopError s
  · exact ends_onLoopRead s
  · exact ends_onLoopWrite s
  · exact ends_loopReturn s

/-! ### The account -/

/-- The invariant of a connection that is not deleted, with its record. -/
structure Inv (s : LowHTTPDirect) (l : Ledger) : Prop where
  alive : s.rt.deleted = false
  ids : s.writer.mWriteBufferStashID.length = 3
  room : s.writer.mWriteBufferStashInvalidCount + s.writer.mWriteBuffers.length ≤ 3
  idle : s.writer.mWriting = false → s.writer.mWriteBuffers = []
  order : (s.writer.mWriteBufferStashID.drop s.writer.mWriteBufferStashInvalidCount).take
    s.writer.mWriteBuffers.length = l.queue
  lines : s.writer.mWriteBuffers.map Iov.isChunkLine = l.queue.map (fun id => decide (id = 0))
  live : ∀ id ∈ s.held, id ≠ 0 → id ∈ s.rt.stash.live ∧ id ≠ s.reader.mReadCallID ∧
    id ≠ s.writer.mWriteCallID
  readID : s.reader.mReadCallID ≤ s.rt.stash.last
  writeID : s.writer.mWriteCallID ≤ s.rt.stash.last
  fresh : l.added.Nodup
  bound : ∀ id ∈ l.added, id ≤ s.rt.stash.last
  once : l.added.Perm (l.removed ++ s.held.filter (· ≠ 0))

variable {l : Ledger} {i : Input}

lemma Inv.held_added (h : Inv s l) {id : Nat} (hid : id ∈ s.held) (h0 : id ≠ 0) : id ∈ l.added :=
  h.once.mem_iff.mpr (List.mem_append_right _ (List.mem_filter.mpr ⟨hid, by simpa using h0⟩))

lemma Inv.queue_held (h : Inv s l) {id : Nat} (hid : id ∈ l.queue) : id ∈ s.held := by
  rw [held]
  rw [← h.order] at hid
  rw [List.take_add]
  exact List.mem_append_right _ hid

lemma Inv.queue_length (h : Inv s l) : l.queue.length = s.writer.mWriteBuffers.length := by
  simpa using (congrArg List.length h.lines).symm

lemma Inv.sound (h : Inv s l) : StashSound s l where
  order := fun _ => h.order
  lines := fun _ => h.lines
  live := fun _ id hid h0 => (h.live id (h.queue_held hid) h0).1
  fresh := h.fresh
  once := by
    rw [h.alive]
    exact h.once

/-- What sends buffers keeps the account. -/
lemma Inv.sends (h : Inv s l) {k : Nat} (hs : Sends k s t) :
    Inv t { l with queue := l.queue.drop k } := by
  have hlen := hs.length
  have hle := hs.le
  have hheld : t.held = s.held := by
    rw [held]
    rw [hs.ids, hs.invalid, hlen]
    congr 1
    omega
  have hlast := hs.last
  refine ⟨hs.deleted.trans h.alive, by rw [hs.ids]; exact h.ids, ?_, fun hw => ?_, ?_, ?_, ?_, ?_, ?_,
    h.fresh, fun id hid => (h.bound id hid).trans hlast, by rw [hheld]; exact h.once⟩
  · rw [hs.invalid, hlen]
    have hroom := h.room
    omega
  · rcases hs.writing with hw' | ⟨-, hb⟩
    · have hb := h.idle (hw'.symm.trans hw)
      rw [hb] at hlen
      exact List.length_eq_zero_iff.mp (by simpa using hlen)
    · exact hb
  · rw [hs.ids, hs.invalid, hlen, ← h.order, List.drop_take, List.drop_drop]
  · rw [hs.buffers, List.map_drop, h.lines, List.map_drop]
  · intro id hid h0
    rw [hheld] at hid
    obtain ⟨hlive, hr, hw⟩ := h.live id hid h0
    have hid' := h.bound id (h.held_added hid h0)
    exact ⟨hs.live id hlive h0 hid' hr hw, hs.readID.ne hr h0 hid', hs.writeID.ne hw h0 hid'⟩
  · have hr := h.readID
    have hr' := hs.readID
    unfold Renewed at hr'
    omega
  · have hw := h.writeID
    have hw' := hs.writeID
    unfold Renewed at hw'
    omega

lemma take_set {ids : List Nat} {n : Nat} (hn : n < ids.length) (id : Nat) :
    (ids.set n id).take (n + 1) = ids.take n ++ [id] := by
  rw [List.take_add_one, List.take_set_of_le le_rfl, List.getElem?_set_self hn]
  rfl

/-- A buffer joins the queue, with an id that is not held and in the stash, or with none. -/
lemma Inv.pushBuffer (h : Inv s l) (hinvalid : s.writer.mWriteBufferStashInvalidCount = 0)
    (hw : s.writer.mWriting = true) (hroom : s.writer.mWriteBuffers.length < 3) {b : Iov} {id : Nat}
    (hb : b.isChunkLine = decide (id = 0))
    (hid : id ≠ 0 → id ∈ s.rt.stash.live ∧ id ≤ s.rt.stash.last ∧ id ∉ l.added ∧
      id ≠ s.reader.mReadCallID ∧ id ≠ s.writer.mWriteCallID) :
    Inv (s.pushBuffer b id)
      { l with added := l.added ++ [id].filter (· ≠ 0), queue := l.queue ++ [id] } := by
  have hheld : (s.pushBuffer b id).held = s.held ++ [id] := by
    unfold held
    simp only [LowHTTPDirect.pushBuffer, hinvalid, zero_add, List.length_append, List.length_singleton]
    exact take_set (by rw [h.ids]; exact hroom) id
  have horder : s.held = l.queue := by
    rw [← h.order, held, hinvalid, zero_add, List.drop_zero]
  refine ⟨h.alive, ?_, ?_, fun hw' => ?_, ?_, ?_, ?_, h.readID, h.writeID, ?_, ?_, ?_⟩
  · show (s.writer.mWriteBufferStashID.set _ _).length = 3
    rw [List.length_set]
    exact h.ids
  · simp only [LowHTTPDirect.pushBuffer, hinvalid, List.length_append, List.length_singleton]
    omega
  · rw [show s.writer.mWriting = false from hw'] at hw
    cases hw
  · rw [← horder, ← hheld, held]
    simp only [LowHTTPDirect.pushBuffer, hinvalid, zero_add, List.drop_zero]
  · simp [LowHTTPDirect.pushBuffer, h.lines, hb]
  · intro z hz h0
    rw [hheld] at hz
    rcases List.mem_append.mp hz with hz | hz
    · exact h.live z hz h0
    · cases List.mem_singleton.mp hz
      obtain ⟨hlive, -, -, hr, hwid⟩ := hid h0
      exact ⟨hlive, hr, hwid⟩
  · by_cases h0 : id = 0
    · simpa [h0] using h.fresh
    · have hnew := (hid h0).2.2.1
      simp only [List.filter_cons, List.filter_nil, h0, ne_eq, not_false_eq_true, decide_true, if_true]
      exact List.Nodup.append h.fresh (List.nodup_singleton id) (by simpa using hnew)
  · intro z hz
    rcases List.mem_append.mp hz with hz | hz
    · exact h.bound z hz
    · obtain ⟨hz, h0⟩ := List.mem_filter.mp hz
      cases List.mem_singleton.mp hz
      exact (hid (by simpa using h0)).2.1
  · rw [hheld, List.filter_append, ← List.append_assoc]
    exact h.once.append_right _

/-- An id for a buffer. -/
lemma Inv.add (h : Inv s l) : Inv { s with rt.stash := s.rt.stash.add.2 } l ∧
    (s.rt.stash.last + 1 ∈ s.rt.stash.add.2.live ∧ s.rt.stash.last + 1 ∉ l.added ∧
      s.rt.stash.last + 1 ≠ s.reader.mReadCallID ∧ s.rt.stash.last + 1 ≠ s.writer.mWriteCallID) := by
  have hsends : Sends 0 s { s with rt.stash := s.rt.stash.add.2 } :=
    ⟨Nat.zero_le _, rfl, rfl, rfl, .inl rfl, Nat.le_succ _, fun id hid _ _ _ _ => List.mem_cons_of_mem _ hid,
      .inl rfl, .inl rfl, rfl⟩
  have hr := h.readID
  have hw := h.writeID
  refine ⟨h.sends hsends, List.mem_cons_self, fun hmem => ?_, by omega, by omega⟩
  exact absurd (h.bound _ hmem) (Nat.not_succ_le_self _)

lemma foldl_remove (ids : List Nat) (st : Stash) :
    (ids.foldl Stash.remove st).last = st.last ∧
      ∀ id, id ∈ (ids.foldl Stash.remove st).live ↔ id ∈ st.live ∧ id ∉ ids := by
  induction ids generalizing st with
  | nil => simp
  | cons a ids ih =>
    obtain ⟨hlast, hlive⟩ := ih (st.remove a)
    refine ⟨hlast, fun id => ?_⟩
    rw [List.foldl_cons, hlive]
    simp [Stash.remove, and_assoc]

lemma releaseSent_take (hids : s.writer.mWriteBufferStashID.length = 3) {n : Nat} (hn : n ≤ 3) :
    releaseSent n s = { s with
      rt.stash := (s.writer.mWriteBufferStashID.take n).foldl Stash.remove s.rt.stash
      writer.mWriteBufferStashID := s.writer.mWriteBufferStashID.drop n ++ List.replicate n 0
      writer.mWriteBufferStashInvalidCount := 0 } := by
  obtain ⟨a, b, c, heq⟩ := List.length_eq_three.mp hids
  interval_cases n <;> simp [releaseSent, removeStash, heq]

/-- The buffers sent are let go. -/
lemma Inv.releaseSent (h : Inv s l) :
    let n := s.writer.mWriteBufferStashInvalidCount
    Inv (releaseSent n s)
      { l with removed := l.removed ++ (s.writer.mWriteBufferStashID.take n).filter (· ≠ 0) } := by
  intro n
  have hroom : n + s.writer.mWriteBuffers.length ≤ 3 := h.room
  have hids := h.ids
  have hsplit : s.held = s.writer.mWriteBufferStashID.take n ++
      (s.writer.mWriteBufferStashID.drop n).take s.writer.mWriteBuffers.length := List.take_add
  have heq := releaseSent_take hids (show n ≤ 3 by omega)
  have hqueue : (s.writer.mWriteBufferStashID.drop n ++ List.replicate n 0).take
      s.writer.mWriteBuffers.length =
        (s.writer.mWriteBufferStashID.drop n).take s.writer.mWriteBuffers.length :=
    List.take_append_of_le_length (by rw [List.length_drop]; omega)
  rw [heq]
  obtain ⟨hlast, hlive⟩ := foldl_remove (s.writer.mWriteBufferStashID.take n) s.rt.stash
  have honce : l.added.Perm ((l.removed ++ (s.writer.mWriteBufferStashID.take n).filter (· ≠ 0)) ++
      ((s.writer.mWriteBufferStashID.drop n).take s.writer.mWriteBuffers.length).filter (· ≠ 0)) := by
    rw [List.append_assoc, ← List.filter_append, ← hsplit]
    exact h.once
  have hnodup : ((s.writer.mWriteBufferStashID.take n).filter (· ≠ 0) ++
      ((s.writer.mWriteBufferStashID.drop n).take s.writer.mWriteBuffers.length).filter (· ≠ 0)).Nodup := by
    have hall := h.once.nodup_iff.mp h.fresh
    rw [hsplit, List.filter_append] at hall
    exact (List.nodup_append.mp hall).2.1
  refine ⟨h.alive, ?_, ?_, h.idle, ?_, h.lines, fun id hid h0 => ?_, ?_, ?_, h.fresh, fun id hid => ?_, ?_⟩
  · simp only [List.length_append, List.length_drop, List.length_replicate]
    omega
  · simp only [zero_add]
    omega
  · simp only [List.drop_zero]
    rw [hqueue]
    exact h.order
  · have hid' : id ∈ (s.writer.mWriteBufferStashID.drop n).take s.writer.mWriteBuffers.length := by
      rw [← hqueue]
      simpa only [held, zero_add] using hid
    obtain ⟨hl, hr, hw⟩ := h.live id (by rw [hsplit]; exact List.mem_append_right _ hid') h0
    refine ⟨(hlive id).mpr ⟨hl, fun hsent => ?_⟩, hr, hw⟩
    exact (List.nodup_append.mp hnodup).2.2 id (List.mem_filter.mpr ⟨hsent, by simpa using h0⟩) id
      (List.mem_filter.mpr ⟨hid', by simpa using h0⟩) rfl
  · exact h.readID.trans hlast.ge
  · exact h.writeID.trans hlast.ge
  · exact (h.bound id hid).trans hlast.ge
  · simp only [held, zero_add]
    rw [hqueue]
    exact honce

lemma Inv.congr (h : Inv s l) (heq : t.papers = s.papers) : Inv t l := by
  simpa using h.sends (.of_papers heq)

/-- A chunk size line joins the queue of a chunked message. -/
def pushLine (s : LowHTTPDirect) (base : List UInt8) : LowHTTPDirect :=
  if s.writer.mWriteChunkedEncoding then s.pushBuffer ⟨base, true⟩ 0 else s

/-- The ids of the lines that `pushLine` queues. -/
def lineIds (s : LowHTTPDirect) : List Nat := if s.writer.mWriteChunkedEncoding then [0] else []

lemma queueWrite_nil (s : LowHTTPDirect) : s.queueWrite [] =
    pushLine { s with writer.mWriteDone := true } [CR, LF, 48, CR, LF, CR, LF] := rfl

lemma queueWrite_cons (s : LowHTTPDirect) {data : List UInt8} (hd : data ≠ []) :
    let t := pushLine { s with writer.mWritePos := int32 (s.writer.mWritePos + data.length) }
      ([CR, LF] ++ hexBytes data.length ++ [CR, LF])
    s.queueWrite data =
      pushBuffer { t with rt.stash := t.rt.stash.add.2 } ⟨data, false⟩ t.rt.stash.add.1 := if_neg hd

lemma Inv.pushLine (h : Inv s l) (hinvalid : s.writer.mWriteBufferStashInvalidCount = 0)
    (hw : s.writer.mWriting = true) (hlen : s.writer.mWriteBuffers.length ≤ 1) (base : List UInt8) :
    Inv (s.pushLine base) { l with queue := l.queue ++ s.lineIds } ∧
      (s.pushLine base).writer.mWriteBufferStashInvalidCount = 0 ∧
      (s.pushLine base).writer.mWriting = true ∧ (s.pushLine base).writer.mWriteBuffers.length < 3 ∧
      (s.pushLine base).rt.stash = s.rt.stash := by
  rw [LowHTTPDirect.pushLine, lineIds]
  split_ifs
  · refine ⟨?_, hinvalid, hw, ?_, rfl⟩
    · simpa using h.pushBuffer (b := ⟨base, true⟩) hinvalid hw (by omega) rfl fun h0 => absurd rfl h0
    · show (s.writer.mWriteBuffers ++ [_]).length < 3
      rw [List.length_append, List.length_singleton]
      omega
  · refine ⟨?_, hinvalid, hw, by omega, rfl⟩
    rw [List.append_nil]
    exact h

/-- `Write` queues its buffer. -/
lemma Inv.queueWrite (h : Inv s l) (hinvalid : s.writer.mWriteBufferStashInvalidCount = 0)
    (hw : s.writer.mWriting = true) (hlen : s.writer.mWriteBuffers.length ≤ 1) (data : List UInt8) :
    let ids := s.lineIds ++ if data = [] then [] else [s.rt.stash.last + 1]
    Inv (s.queueWrite data)
      { l with added := l.added ++ ids.filter (· ≠ 0), queue := l.queue ++ ids } := by
  have hline : s.lineIds.filter (· ≠ 0) = [] := by
    rw [lineIds]
    split_ifs <;> rfl
  intro ids
  by_cases hd : data = []
  · have hids : ids = s.lineIds := by simp [ids, hd]
    have hdone : Inv { s with writer.mWriteDone := true } l := h.congr rfl
    rw [hd, queueWrite_nil, hids, hline, List.append_nil]
    exact (hdone.pushLine hinvalid hw hlen _).1
  · have hids : ids = s.lineIds ++ [s.rt.stash.last + 1] := by simp [ids, hd]
    have hpos : Inv { s with writer.mWritePos := int32 (s.writer.mWritePos + data.length) } l :=
      h.congr rfl
    obtain ⟨ht, hn, hwr, hroom, hst⟩ := hpos.pushLine hinvalid hw hlen
      ([CR, LF] ++ hexBytes data.length ++ [CR, LF])
    rw [queueWrite_cons s hd, hids, List.filter_append, hline, List.nil_append]
    generalize LowHTTPDirect.pushLine { s with
      writer.mWritePos := int32 (s.writer.mWritePos + data.length) }
        ([CR, LF] ++ hexBytes data.length ++ [CR, LF]) = t at ht hn hwr hroom hst
    obtain ⟨hadd, hlive, hnew, hr, hwid⟩ := ht.add
    have hid : s.rt.stash.last + 1 = t.rt.stash.add.1 := by
      rw [hst]
      rfl
    have hpush := hadd.pushBuffer (b := ⟨data, false⟩) hn hwr hroom rfl
      fun _ => ⟨hlive, le_rfl, hnew, hr, hwid⟩
    rw [List.append_assoc] at hpush
    rw [hid]
    exact hpush

/-- Buffers have joined the queue and others have left it. -/
lemma Inv.record (h : Inv u ⟨l.added ++ (s.joining i).filter (· ≠ 0),
      l.removed ++ (s.releasing i false).filter (· ≠ 0), l.queue ++ s.joining i⟩)
    {k : Nat} (hs : Sends k u t) : Inv t (l.record s t i) := by
  have ht := h.sends hs
  have hle : k ≤ (l.queue ++ s.joining i).length := by
    rw [h.queue_length]
    exact hs.le
  have hqueue : lastN t.writer.mWriteBuffers.length (l.queue ++ s.joining i) =
      (l.queue ++ s.joining i).drop k := by
    have hlen : ((l.queue ++ s.joining i).drop k).length = t.writer.mWriteBuffers.length :=
      ht.queue_length
    rw [List.length_drop] at hlen
    rw [lastN]
    congr 1
    omega
  rw [Ledger.record]
  rw [hqueue, ht.alive]
  exact ht

/-- A step in which no buffer joins the queue and none is let go. -/
lemma Inv.record_sends (h : Inv s l) (hj : s.joining i = []) (hr : s.releasing i false = []) {k : Nat}
    (hs : Sends k s t) : Inv t (l.record s t i) := by
  refine Inv.record (u := s) ?_ hs
  rw [hj, hr]
  simpa using h

/-- What is left of the account when the connection is deleted. -/
def Closed (s : LowHTTPDirect) (l : Ledger) : Prop :=
  s.rt.deleted = true ∧ l.added.Nodup ∧ l.added.Perm l.removed

/-- `WriteHeaders` before it queues the header. -/
def opened (s : LowHTTPDirect) (len : Int) (isChunked : Bool) : LowHTTPDirect :=
  { s.lock with
    writer.mWriting := true
    writer.mWritePos := 0
    writer.mWriteLen := len
    writer.mWriteChunkedEncoding := isChunked
    rt.stash := s.rt.stash.add.2 }

lemma mayWriteHeaders_iff :
    s.mayWriteHeaders = true ↔ ¬((s.mIsServer ∧ !s.mIsRequest) ∨ s.writer.mWriting) :=
  decide_eq_true_iff

lemma WriteHeaders_eq (hm : s.mayWriteHeaders = true) (hempty : s.writer.mWriteBuffers = [])
    (txt : List UInt8) (len : Int) (isChunked : Bool) (results : List WritevResult) :
    ∃ head, s.WriteHeaders txt len isChunked results =
      unlock (((s.opened len isChunked).pushBuffer ⟨head, false⟩ (s.rt.stash.last + 1)).DoWrite
        results) := by
  rw [LowHTTPDirect.WriteHeaders]
  rw [if_neg (mayWriteHeaders_iff.mp hm)]
  refine ⟨if isChunked then (txt.takeWhile (· ≠ 0)).take ((txt.takeWhile (· ≠ 0)).length - 2)
    else txt.takeWhile (· ≠ 0), ?_⟩
  rw [LowHTTPDirect.pushBuffer]
  simp only [opened, lock, hempty, List.nil_append, List.length_nil]
  rfl

lemma Inv.opened (h : Inv s l) (len : Int) (isChunked : Bool) : Inv (s.opened len isChunked) l := by
  have hwriting : Inv { s with writer.mWriting := true } l :=
    ⟨h.alive, h.ids, h.room, (fun hw => by cases hw), h.order, h.lines, h.live, h.readID, h.writeID,
      h.fresh, h.bound, h.once⟩
  exact hwriting.add.1.congr rfl

lemma Inv.WriteHeaders (h : Inv s l) (txt : List UInt8) (len : Int) (isChunked : Bool)
    (results : List WritevResult)
    (hok : s.mayWriteHeaders = true → s.writer.mWriteBufferStashInvalidCount = 0) :
    Inv (s.WriteHeaders txt len isChunked results)
      (l.record s (s.WriteHeaders txt len isChunked results) (.writeHeaders txt len isChunked results)) := by
  by_cases hm : s.mayWriteHeaders = true
  · have hempty : s.writer.mWriteBuffers = [] := by
      refine h.idle ?_
      have hnot := mayWriteHeaders_iff.mp hm
      simpa using fun hw => hnot (.inr hw)
    obtain ⟨head, heq⟩ := WriteHeaders_eq hm hempty txt len isChunked results
    obtain ⟨-, hlive, hnew, hr, hwid⟩ := h.add
    have hpush := (h.opened len isChunked).pushBuffer (b := ⟨head, false⟩) (hok hm) rfl
      (show s.writer.mWriteBuffers.length < 3 by rw [hempty]; decide) rfl
      fun _ => ⟨hlive, le_rfl, hnew, hr, hwid⟩
    obtain ⟨k, hk⟩ := sends_DoWrite
      ((s.opened len isChunked).pushBuffer ⟨head, false⟩ (s.rt.stash.last + 1)) results
    have hjoin : s.joining (.writeHeaders txt len isChunked results) = [s.rt.stash.last + 1] := if_pos hm
    have hrelease : s.releasing (.writeHeaders txt len isChunked results) false = [] := rfl
    rw [heq]
    refine Inv.record ?_ (hk.then_eq rfl)
    rw [hjoin, hrelease, List.filter_nil, List.append_nil]
    exact hpush
  · have heq : s.WriteHeaders txt len isChunked results = s :=
      if_pos (not_not.mp (mayWriteHeaders_iff.not.mp hm))
    rw [heq]
    exact h.record_sends (if_neg hm) rfl (.refl s)

lemma mayWrite_iff : s.mayWrite = true ↔ ¬((s.mIsServer ∧ !s.mIsRequest) ∨ !s.writer.mWriting ∨
    s.writer.mWriteBuffers.length > 1 ∨ s.writer.mWriteCallID ≠ 0 ∨ s.writer.mWriteDone ∨ !s.mSocket) :=
  decide_eq_true_iff

lemma Inv.Write (h : Inv s l) (data : List UInt8) (results : List WritevResult) :
    Inv (s.Write data results) (l.record s (s.Write data results) (.write data results)) := by
  by_cases hm : s.mayWrite = true
  · have hguard := mayWrite_iff.mp hm
    simp only [not_or, Bool.not_eq_true', Bool.not_eq_false, not_lt] at hguard
    obtain ⟨-, hw, hlen, -⟩ := hguard
    have hlock : Inv s.lock l := h.congr rfl
    have hrel : Inv (LowHTTPDirect.releaseSent s.writer.mWriteBufferStashInvalidCount s.lock) { l with
        removed := l.removed ++ (s.writer.mWriteBufferStashID.take
          s.writer.mWriteBufferStashInvalidCount).filter (· ≠ 0) } := hlock.releaseSent
    have hids : s.lock.writer.mWriteBufferStashID.length = 3 := h.ids
    have hroom : s.writer.mWriteBufferStashInvalidCount ≤ 3 := by
      have hroom := h.room
      omega
    have heq := releaseSent_take hids hroom
    obtain ⟨k, hk⟩ := sends_DoWrite
      ((LowHTTPDirect.releaseSent s.writer.mWriteBufferStashInvalidCount s.lock).queueWrite data) results
    have hlast : (LowHTTPDirect.releaseSent s.writer.mWriteBufferStashInvalidCount s.lock).rt.stash.last =
        s.rt.stash.last := by
      rw [heq]
      exact (foldl_remove _ _).1
    have hline : (LowHTTPDirect.releaseSent s.writer.mWriteBufferStashInvalidCount s.lock).lineIds =
        s.lineIds := by
      rw [heq]
      rfl
    have hqueue := Inv.queueWrite hrel (by rw [heq]) (by rw [heq]; exact hw) (by rw [heq]; exact hlen) data
    have hstate : s.Write data results = writeOutcome (unlock
        (((LowHTTPDirect.releaseSent s.writer.mWriteBufferStashInvalidCount s.lock).queueWrite data).DoWrite
          results)) := if_neg (mayWrite_iff.mp hm)
    have hjoin : s.joining (.write data results) =
        s.lineIds ++ if data = [] then [] else [s.rt.stash.last + 1] := if_pos hm
    have hrelease : s.releasing (.write data results) false =
        s.writer.mWriteBufferStashID.take s.writer.mWriteBufferStashInvalidCount := if_pos hm
    rw [hstate]
    refine Inv.record ?_ (hk.trans (Sends.of_eq (sends_writeOutcome _) rfl))
    rw [hjoin, hrelease, ← hlast, ← hline]
    exact hqueue
  · have heq : s.Write data results = s.emit (.writeError .nextTick (.again "write")) :=
      if_pos (not_not.mp (mayWrite_iff.not.mp hm))
    rw [heq]
    exact h.record_sends (if_neg hm) (if_neg hm) (.emit s _)

lemma Inv.OnLoop (h : Inv s l) (ht : Ends s t) :
    Inv t (l.record s t .onLoop) ∨ Closed t (l.record s t .onLoop) := by
  rcases ht with hs | ⟨u, hs, rfl⟩
  · exact .inl (h.record_sends rfl rfl hs)
  · refine .inr ⟨rfl, ?_, ?_⟩
    · show (l.added ++ []).Nodup
      rw [List.append_nil]
      exact h.fresh
    · show (l.added ++ []).Perm (l.removed ++ s.held.filter (· ≠ 0))
      rw [List.append_nil]
      exact h.once

/-- What each step keeps. -/
lemma Inv.step (h : Inv s l) (hund : s.rt.undefined = false) (hok : Released (s, l) i) :
    Inv (LowHTTPDirect.step E s i) (l.record s (LowHTTPDirect.step E s i) i) ∨
      Closed (LowHTTPDirect.step E s i) (l.record s (LowHTTPDirect.step E s i) i) := by
  rw [step_alive h.alive hund]
  cases i with
  | setRequestCallID => exact .inl (h.record_sends rfl rfl (sends_SetRequestCallID s))
  | read len => exact .inl (h.record_sends rfl rfl (sends_reading.Read s len))
  | writeHeaders txt len isChunked results => exact .inl (h.WriteHeaders txt len isChunked results hok)
  | write data results => exact .inl (h.Write data results)
  | detach => exact .inl (h.record_sends rfl rfl ((Sends.detach s).after (.emit _ _)))
  | socketRead input => exact .inl (h.record_sends rfl rfl (sends_reading.onEventsRead s input))
  | socketWrite results =>
    obtain ⟨k, hk⟩ := sends_onEventsWrite s results
    exact .inl (h.record_sends rfl rfl hk)
  | onLoop => exact h.OnLoop (ends_OnLoop s)

lemma inv_start (isServer : Bool) (u : LowHTTPDirect) : Inv (start isServer u) ⟨[], [], []⟩ where
  alive := rfl
  ids := rfl
  room := Nat.zero_le _
  idle := fun _ => rfl
  order := rfl
  lines := rfl
  live := fun _ hid => by cases hid
  readID := Nat.zero_le _
  writeID := Nat.zero_le _
  fresh := List.nodup_nil
  bound := fun _ hid => by cases hid
  once := List.Perm.refl _

lemma Closed.sound (h : Closed s l) : StashSound s l where
  order := fun hd => by rw [h.1] at hd; cases hd
  lines := fun hd => by rw [h.1] at hd; cases hd
  live := fun hd => by rw [h.1] at hd; cases hd
  fresh := h.2.1
  once := by
    rw [if_pos h.1, List.append_nil]
    exact h.2.2

/-- The record does not change the run. -/
lemma recorded_fst (s : LowHTTPDirect) (l : Ledger) (is : List Input) :
    ((recorded E).run (s, l) is).1 = (machine E).run s is := by
  induction is generalizing s l with
  | nil => rfl
  | cons i is ih => exact ih (step E s i) _

/-- A chunked response with a buffer of two bytes, of which the socket takes a part at a time. -/
def responseInParts : List Input :=
  [.setRequestCallID, .socketRead (.data (bytes "GET / HTTP/1.1\r\n\r\n")), .onLoop, .onLoop,
    .writeHeaders (bytes "HTTP/1.1 200 OK\r\nTransfer-Encoding: chunked\r\n\r\n") (-1) true [.size 20],
    .write [1, 2] [.again], .socketWrite [.size 40], .socketWrite [.size 1000], .onLoop, .onLoop,
    .write [] [.again]]

/-- Two responses without a body on one connection; the socket takes the header of the first one late. -/
def twoResponses : List Input :=
  [.setRequestCallID, .socketRead (.data (bytes "GET / HTTP/1.1\r\n\r\n")), .onLoop, .onLoop,
    .writeHeaders (bytes "HTTP/1.1 204 No Content\r\n\r\n") 0 false [.again], .write [] [.again],
    .socketWrite [.size 1000], .socketRead (.data (bytes "GET / HTTP/1.1\r\n\r\n")), .onLoop, .onLoop,
    .writeHeaders (bytes "HTTP/1.1 204 No Content\r\n\r\n") 0 false [.again]]

end LowHTTPDirect

end LowJs.HTTPDirect
