import LowJs.Core.Prefixes
import LowJs.HTTPDirect.WriteAccounts

/-!
# The buffers of fixed size for writing

The line for the size of a chunk has ten bytes, and the arrays of the queued buffers and of their ids have
three elements each.
-/

open LowJs.HTTPDirect.Parser

namespace LowJs.HTTPDirect
namespace LowHTTPDirect

variable {E : Env} {s t u : LowHTTPDirect}

/-! ### What is promised -/

/-- The bytes that a step writes into `mWriteChunkedHeaderLine`, with the terminator. -/
def chunkLine (s : LowHTTPDirect) : Input → Nat
  | .write data _ =>
    if s.Accepts ∧ s.writer.mWriteChunkedEncoding then
      if data = [] then [CR, LF, 48, CR, LF, CR, LF].length + 1
      else ([CR, LF] ++ hexBytes data.length ++ [CR, LF]).length + 1
    else 0
  | _ => 0

/-- The elements of the arrays that are in use. -/
def inUse (s : LowHTTPDirect) : Nat :=
  s.writer.mWriteBufferStashInvalidCount + s.writer.mWriteBuffers.length

/-- A step stays within the buffers: the size line fits, and no queued buffer points to it when it is
written; the queue has room for the buffers that join it; and the ids in use fit their array. -/
structure Fits (E : Env) (s : LowHTTPDirect) (i : Input) : Prop where
  line : s.chunkLine i ≤ 10
  free : s.chunkLine i ≠ 0 → ∀ q ∈ s.writer.mWriteBuffers, q.isChunkLine = false
  count : s.writer.mWriteBuffers.length + (s.joining i).length ≤ 3
  ids : (step E s i).inUse ≤ 3

/-- The condition: a buffer that is written as a chunk has less than 2^20 bytes. -/
def Short (s : LowHTTPDirect) : Input → Prop
  | .write data _ => s.Accepts → s.writer.mWriteChunkedEncoding = true → data.length < 2 ^ 20
  | _ => True

lemma hexBytes_length_le_iff {n k : Nat} (hk : 0 < k) : (hexBytes n).length ≤ k ↔ n < 16 ^ k := by
  rw [hexBytes, List.length_map]
  exact Nat.length_toDigits_le_iff (by decide) hk

/-- The size of a chunk may have five digits. -/
lemma chunkLine_le_iff (s : LowHTTPDirect) (i : Input) : s.chunkLine i ≤ 10 ↔ s.Short i := by
  cases i with
  | write data results =>
    rw [chunkLine, Short]
    by_cases hline : s.Accepts ∧ s.writer.mWriteChunkedEncoding = true
    · have hhex := hexBytes_length_le_iff (n := data.length) (k := 5) (by decide)
      rw [if_pos hline]
      constructor
      · intro hle _ _
        split at hle
        case isTrue hdata =>
          rw [hdata]
          decide
        case isFalse =>
          apply hhex.mp
          simp only [List.length_append, List.length_cons, List.length_nil] at hle
          omega
      · intro hshort
        split
        case isTrue => decide
        case isFalse =>
          have hdigits := hhex.mpr (hshort hline.1 hline.2)
          simp only [List.length_append, List.length_cons, List.length_nil]
          omega
    · rw [if_neg hline]
      apply iff_of_true (Nat.zero_le _)
      intro haccepts hchunked
      exact absurd ⟨haccepts, hchunked⟩ hline
  | _ => exact iff_of_true (Nat.zero_le _) trivial

/-! ### What sending leaves in the queue -/

/-- What the arrays depend on. -/
def counters (s : LowHTTPDirect) :=
  (s.writer.mWriteBuffers, s.writer.mWriteBufferStashInvalidCount, s.writer.mWriting, s.writer.mWriteDone)

/-- Buffers leave the queue from its front, and `Init` runs only for an empty queue behind the end of a
message. -/
structure Sheds (s t : LowHTTPDirect) : Prop where
  inUse : t.inUse = s.inUse
  lines : ∃ k, t.writer.mWriteBuffers.map Iov.isChunkLine =
    (s.writer.mWriteBuffers.drop k).map Iov.isChunkLine
  flags : t.writer.mWriting = s.writer.mWriting ∧ t.writer.mWriteDone = s.writer.mWriteDone ∨
    s.writer.mWriteDone = true ∧ t.writer.mWriting = false ∧ t.writer.mWriteDone = false ∧
      t.writer.mWriteBuffers = []

lemma Sheds.of_counters (h : t.counters = s.counters) : Sheds s t := by
  simp only [counters, Prod.mk.injEq] at h
  obtain ⟨hbuffers, hinvalid, hwriting, hdone⟩ := h
  refine ⟨?_, ⟨0, ?_⟩, .inl ⟨hwriting, hdone⟩⟩
  · rw [LowHTTPDirect.inUse, LowHTTPDirect.inUse, hbuffers, hinvalid]
  · rw [hbuffers]
    rfl

lemma Sheds.empty (h : Sheds s t) (hempty : s.writer.mWriteBuffers = []) : t.writer.mWriteBuffers = [] := by
  obtain ⟨k, hk⟩ := h.lines
  rw [hempty, List.drop_nil, List.map_nil] at hk
  exact List.map_eq_nil_iff.mp hk

lemma Sheds.trans (h : Sheds s t) (h' : Sheds t u) : Sheds s u where
  inUse := h'.inUse.trans h.inUse
  lines := by
    obtain ⟨k, hk⟩ := h.lines
    obtain ⟨l, hl⟩ := h'.lines
    refine ⟨k + l, ?_⟩
    rw [hl, List.map_drop, hk, ← List.map_drop, List.drop_drop]
  flags := by
    rcases h.flags with ⟨hwriting, hdone⟩ | ⟨hdone, hwriting, hdone', hempty⟩
    · rcases h'.flags with ⟨hwriting', hdone'⟩ | ⟨hdone', hinit⟩
      · exact .inl ⟨hwriting'.trans hwriting, hdone'.trans hdone⟩
      · exact .inr ⟨hdone ▸ hdone', hinit⟩
    · rcases h'.flags with ⟨hwriting', hdone''⟩ | ⟨hdone'', -⟩
      · exact .inr ⟨hdone, hwriting'.trans hwriting, hdone''.trans hdone', h'.empty hempty⟩
      · rw [hdone'] at hdone''
        cases hdone''

lemma Sheds.start (h : Sheds u t) (heq : u.counters = s.counters) : Sheds s t :=
  (Sheds.of_counters heq).trans h

lemma Sheds.init (hdone : s.writer.mWriteDone = true) (hempty : s.writer.mWriteBuffers = []) :
    Sheds s s.init :=
  ⟨rfl, ⟨0, rfl⟩, .inr ⟨hdone, rfl, rfl, hempty⟩⟩

lemma counters_unread (h : t.unread = s.unread) : t.counters = s.counters := by
  simp only [unread, Prod.mk.injEq] at h
  rw [counters, counters, h.1]

lemma reporting_counters : Reporting fun s t => t.counters = s.counters where
  frame := counters_unread
  trans h h' := h'.trans h
  emit _ _ _ := rfl

lemma reading_sheds : Reading Sheds where
  frame h := .of_counters (counters_unread h)
  trans := Sheds.trans
  emit _ _ _ := .of_counters rfl
  init h := by
    simp only [responseDone, Bool.and_eq_true, List.isEmpty_iff] at h
    exact .init h.1.2 h.2
  wait _ _ := .of_counters rfl

/-! ### The main loop -/

lemma counters_loopReturn (s : LowHTTPDirect) : s.loopReturn.counters = s.counters := by
  rw [loopReturn]
  dsimp only
  split
  · rfl
  · rfl

lemma counters_onLoopWrite (s : LowHTTPDirect) : s.onLoopWrite.counters = s.counters := by
  rw [onLoopWrite]
  split
  · dsimp only
    split
    · rfl
    · rfl
  · exact counters_loopReturn s

lemma counters_onLoopRead (s : LowHTTPDirect) : (s.onLoopRead E).counters = s.counters := by
  rw [onLoopRead]
  split
  · exact counters_loopReturn s
  · split
    · dsimp only
      split
      · exact (reporting_counters.detach _).trans rfl
      · exact (reporting_counters.reportRead _ _).trans rfl
    · exact counters_onLoopWrite s

lemma counters_onLoopError (s : LowHTTPDirect) : (s.onLoopError E).counters = s.counters := by
  rw [onLoopError]
  split
  · exact (reporting_counters.detach _).trans rfl
  · exact counters_onLoopRead s

lemma counters_onLoopRequest (s : LowHTTPDirect) : (s.onLoopRequest E).counters = s.counters := by
  rw [onLoopRequest]
  dsimp only
  split
  · split
    · exact (counters_loopReturn _).trans ((reporting_counters.detach _).trans rfl)
    · exact (counters_loopReturn _).trans rfl
  · split
    · exact (counters_onLoopError _).trans rfl
    · split
      · split
        · rfl
        · rfl
      · exact (counters_onLoopError _).trans rfl

lemma counters_OnLoop (s : LowHTTPDirect) : (s.OnLoop E).counters = s.counters := by
  rw [OnLoop]
  split
  · split
    · exact counters_onLoopRequest s
    · rfl
  · exact counters_onLoopError s
  · exact counters_onLoopRead s
  · exact counters_onLoopWrite s
  · exact counters_loopReturn s

/-! ### `DoWrite` -/

lemma sheds_written (s : LowHTTPDirect) (size : Nat) : Sheds s (s.written size) := by
  obtain ⟨k, hk, hinvalid, hbufs⟩ :=
    advance_buffers size s.writer.mWriteBuffers s.writer.mWriteBufferStashInvalidCount
  have hlen : (advance size s.writer.mWriteBuffers s.writer.mWriteBufferStashInvalidCount).1.length =
      s.writer.mWriteBuffers.length - k := by
    simpa using congrArg List.length hbufs
  refine ⟨?_, ⟨k, hbufs⟩, .inl ⟨rfl, rfl⟩⟩
  change (advance size s.writer.mWriteBuffers s.writer.mWriteBufferStashInvalidCount).2 +
    (advance size s.writer.mWriteBuffers s.writer.mWriteBufferStashInvalidCount).1.length = s.inUse
  rw [hinvalid, hlen, inUse]
  omega

lemma sheds_responseSent (hempty : s.writer.mWriteBuffers = []) : Sheds s s.responseSent := by
  rw [responseSent]
  split
  case isTrue hdone =>
    split
    · split
      · exact .of_counters rfl
      · exact .of_counters rfl
    · split
      · exact .init hdone hempty
      · exact .of_counters rfl
  case isFalse => exact .of_counters rfl

lemma sheds_DoWrite (s : LowHTTPDirect) (results : List WritevResult) : Sheds s (s.DoWrite results) := by
  induction results generalizing s with
  | nil =>
    rw [DoWrite.eq_def]
    split
    case isTrue hempty => exact sheds_responseSent hempty
    case isFalse =>
      split
      · exact .of_counters rfl
      · exact .of_counters rfl
  | cons r results ih =>
    rw [DoWrite.eq_def]
    split
    case isTrue hempty => exact sheds_responseSent hempty
    case isFalse =>
      split
      · exact .of_counters rfl
      · cases r with
        | size n => exact (sheds_written s n).trans (ih _)
        | again => exact .of_counters rfl
        | error errno => exact .of_counters rfl

lemma counters_writeOutcome (s : LowHTTPDirect) : s.writeOutcome.counters = s.counters := by
  rw [writeOutcome]
  split
  · rfl
  · split
    · rfl
    · split
      · rfl
      · dsimp only [triggerWrite]
        rfl

lemma sheds_onEventsWrite (s : LowHTTPDirect) (results : List WritevResult) :
    Sheds s (s.onEventsWrite results) := by
  have hwrite (t : LowHTTPDirect) : Sheds t (t.OnSocketWrite results).2 := by
    have ht : Sheds t (t.lock.DoWrite results) := (sheds_DoWrite t.lock results).start rfl
    rw [OnSocketWrite]
    dsimp only
    split
    · exact ht.trans (.of_counters rfl)
    · exact ht.trans (.of_counters rfl)
  rw [onEventsWrite]
  split
  · have ht : Sheds s (OnSocketWrite { s with rt.mDirectWriteEnabled := false } results).2 :=
      (hwrite { s with rt.mDirectWriteEnabled := false }).start rfl
    dsimp only
    split
    · exact ht.trans (.of_counters rfl)
    · exact ht
  · exact .of_counters rfl

/-! ### The room -/

/-- The ids in use fit their array, with one to spare behind a message. A size line at the end of the queue
ends the message. -/
structure Room (s : LowHTTPDirect) : Prop where
  inUse : s.inUse ≤ 3
  spare : s.writer.mWriteDone = true ∨ s.writer.mWriting = false → s.inUse ≤ 2
  idle : s.writer.mWriting = false → s.writer.mWriteBuffers = [] ∧ s.writer.mWriteDone = false
  lines : s.writer.mWriteDone = false →
    ∀ x ∈ (s.writer.mWriteBuffers.map Iov.isChunkLine).getLast?, x = false

namespace Room

lemma sheds (h : s.Room) (hs : Sheds s t) : t.Room where
  inUse := hs.inUse ▸ h.inUse
  spare := by
    intro hdone
    rw [hs.inUse]
    rcases hs.flags with ⟨hwriting, hdone'⟩ | ⟨hdone', -⟩
    · exact h.spare (hwriting ▸ hdone' ▸ hdone)
    · exact h.spare (.inl hdone')
  idle := by
    intro hidle
    rcases hs.flags with ⟨hwriting, hdone⟩ | ⟨-, -, hdone, hempty⟩
    · obtain ⟨hempty, hnot⟩ := h.idle (hwriting ▸ hidle)
      exact ⟨hs.empty hempty, hdone.trans hnot⟩
    · exact ⟨hempty, hdone⟩
  lines := by
    intro hdone x hx
    rcases hs.flags with ⟨-, hdone'⟩ | ⟨-, -, -, hempty⟩
    · obtain ⟨k, hk⟩ := hs.lines
      rw [hk, List.map_drop, List.getLast?_drop] at hx
      split at hx
      · cases hx
      · exact h.lines (hdone' ▸ hdone) x hx
    · rw [hempty] at hx
      cases hx

/-- `WriteHeaders` takes the first element of the queue. -/
lemma WriteHeaders (h : s.Room) (txt : List UInt8) (len : Int) (isChunked : Bool)
    (results : List WritevResult) : (s.WriteHeaders txt len isChunked results).Room := by
  by_cases hmay : s.mayWriteHeaders = true
  · have hwriting : s.writer.mWriting = false := by
      have hnot := mayWriteHeaders_iff.mp hmay
      simpa using fun hw => hnot (.inr hw)
    obtain ⟨hempty, hdone⟩ := h.idle hwriting
    obtain ⟨head, heq⟩ := WriteHeaders_eq hmay hempty txt len isChunked results
    have hspare := h.spare (.inr hwriting)
    have hroom : Room ((s.opened len isChunked).pushBuffer ⟨head, false⟩ (s.rt.stash.last + 1)) := by
      constructor
      case inUse =>
        change s.writer.mWriteBufferStashInvalidCount + (s.writer.mWriteBuffers ++ [_]).length ≤ 3
        rw [LowHTTPDirect.inUse] at hspare
        rw [List.length_append, List.length_singleton]
        omega
      case spare =>
        rintro (hdone' | hwriting')
        · exact absurd (hdone'.symm.trans hdone) nofun
        · cases hwriting'
      case idle =>
        intro hwriting'
        cases hwriting'
      case lines =>
        intro _ x hx
        simpa [pushBuffer, opened, lock] using hx.symm
    rw [heq]
    exact hroom.sheds ((sheds_DoWrite _ results).trans (.of_counters rfl))
  · have heq : s.WriteHeaders txt len isChunked results = s :=
      if_pos (not_not.mp (mayWriteHeaders_iff.not.mp hmay))
    rw [heq]
    exact h

/-- The queue of `Write` is empty or has one element that is no size line. -/
lemma free (h : s.Room) (hmay : s.mayWrite = true) :
    s.writer.mWriteBuffers.length ≤ 1 ∧ ∀ q ∈ s.writer.mWriteBuffers, q.isChunkLine = false := by
  have hguard := mayWrite_iff.mp hmay
  simp only [not_or, Bool.not_eq_true, not_lt] at hguard
  obtain ⟨-, -, hlen, -, hdone, -⟩ := hguard
  refine ⟨hlen, ?_⟩
  intro q hq
  have hlast := h.lines hdone
  match hbuf : s.writer.mWriteBuffers with
  | [] => simp [hbuf] at hq
  | [q'] =>
    rw [hbuf, List.mem_singleton] at hq
    rw [hbuf] at hlast
    rw [hq]
    exact hlast _ (by simp)
  | _ :: _ :: _ =>
    rw [hbuf] at hlen
    simp at hlen

/-- The buffers of `Write` join an array without ids that are not in use. -/
lemma queueWrite (hinvalid : s.writer.mWriteBufferStashInvalidCount = 0)
    (hlen : s.writer.mWriteBuffers.length ≤ 1) (hwriting : s.writer.mWriting = true)
    (hdone : s.writer.mWriteDone = false) (data : List UInt8) : (s.queueWrite data).Room := by
  by_cases hdata : data = []
  · rw [LowHTTPDirect.queueWrite, if_pos hdata]
    dsimp only
    split
    case isTrue =>
      have hinUse : s.writer.mWriteBufferStashInvalidCount + (s.writer.mWriteBuffers ++
          [(⟨[CR, LF, 48, CR, LF, CR, LF], true⟩ : Iov)]).length ≤ 2 := by
        rw [List.length_append, List.length_singleton]
        omega
      refine ⟨Nat.le_succ_of_le hinUse, fun _ => hinUse, ?_, ?_⟩
      · intro hwriting'
        cases hwriting.symm.trans hwriting'
      · intro hdone'
        cases hdone'
    case isFalse =>
      have hinUse : s.inUse ≤ 2 := by
        rw [LowHTTPDirect.inUse]
        omega
      refine ⟨Nat.le_succ_of_le hinUse, fun _ => hinUse, ?_, ?_⟩
      · intro hwriting'
        cases hwriting.symm.trans hwriting'
      · intro hdone'
        cases hdone'
  · have hnot : ¬(s.writer.mWriteDone = true ∨ s.writer.mWriting = false) := by
      rw [hwriting, hdone]
      simp
    rw [LowHTTPDirect.queueWrite, if_neg hdata]
    dsimp only
    split
    case isTrue =>
      refine ⟨?_, fun h => absurd h hnot, fun h => absurd (.inr h) hnot, ?_⟩
      · change s.writer.mWriteBufferStashInvalidCount + (s.writer.mWriteBuffers ++ [_] ++ [_]).length ≤ 3
        rw [List.length_append, List.length_append, List.length_singleton, List.length_singleton]
        omega
      · intro _ x hx
        simpa [pushBuffer] using hx.symm
    case isFalse =>
      refine ⟨?_, fun h => absurd h hnot, fun h => absurd (.inr h) hnot, ?_⟩
      · change s.writer.mWriteBufferStashInvalidCount + (s.writer.mWriteBuffers ++ [_]).length ≤ 3
        rw [List.length_append, List.length_singleton]
        omega
      · intro _ x hx
        simpa [pushBuffer] using hx.symm

/-- `Write` puts at most two buffers behind the one that is left. -/
lemma Write (h : s.Room) (data : List UInt8) (results : List WritevResult) : (s.Write data results).Room := by
  by_cases hmay : s.mayWrite = true
  · have hguard := mayWrite_iff.mp hmay
    rw [LowHTTPDirect.Write, if_neg hguard]
    simp only [not_or, Bool.not_eq_true', Bool.not_eq_false, Bool.not_eq_true] at hguard
    obtain ⟨-, hwriting, -, -, hdone, -⟩ := hguard
    obtain ⟨st, ids, hrelease⟩ := releaseSent_eq s.writer.mWriteBufferStashInvalidCount s.lock
    have hqueue : Room (LowHTTPDirect.queueWrite
        (releaseSent s.writer.mWriteBufferStashInvalidCount s.lock) data) := by
      rw [hrelease]
      apply queueWrite
      · rfl
      · exact (h.free hmay).1
      · exact hwriting
      · exact hdone
    apply hqueue.sheds
    apply (sheds_DoWrite _ results).trans
    exact .of_counters ((counters_writeOutcome _).trans rfl)
  · rw [LowHTTPDirect.Write, if_pos (not_not.mp (mayWrite_iff.not.mp hmay))]
    exact h.sheds (.of_counters rfl)

lemma step (h : s.Room) (i : Input) : (step E s i).Room := by
  rw [LowHTTPDirect.step.eq_def]
  split
  case isTrue => exact h
  case isFalse =>
    cases i with
    | setRequestCallID =>
      dsimp only [SetRequestCallID]
      split
      · exact h.sheds (.of_counters rfl)
      · exact h.sheds (.of_counters rfl)
    | read len => exact h.sheds (reading_sheds.Read s len)
    | writeHeaders txt len isChunked results => exact h.WriteHeaders txt len isChunked results
    | write data results => exact h.Write data results
    | detach => exact h.sheds ((reading_sheds.detach s).trans (.of_counters rfl))
    | socketRead input => exact h.sheds (reading_sheds.onEventsRead s input)
    | socketWrite results => exact h.sheds (sheds_onEventsWrite s results)
    | onLoop => exact h.sheds (.of_counters (counters_OnLoop s))

lemma start (isServer : Bool) (u : LowHTTPDirect) : (start isServer u).Room := by
  refine ⟨Nat.zero_le _, fun _ => Nat.zero_le _, fun _ => ⟨rfl, rfl⟩, ?_⟩
  intro _ x hx
  cases hx

/-- In a state with room a step stays within the buffers exactly under the condition. -/
lemma fits_iff (h : s.Room) (i : Input) : Fits E s i ↔ s.Short i := by
  constructor
  · intro hfits
    exact (chunkLine_le_iff s i).mp hfits.line
  · intro hshort
    constructor
    case line => exact (chunkLine_le_iff s i).mpr hshort
    case free =>
      intro hline
      cases i with
      | write data results =>
        rw [chunkLine] at hline
        split at hline
        case isTrue haccepts => exact (h.free (mayWrite_iff.mpr haccepts.1.2)).2
        case isFalse => exact absurd rfl hline
      | _ => exact absurd rfl hline
    case count =>
      cases i with
      | writeHeaders txt len isChunked results =>
        rw [joining]
        split
        case isTrue hmay =>
          have hwriting : s.writer.mWriting = false := by
            have hnot := mayWriteHeaders_iff.mp hmay
            simpa using fun hw => hnot (.inr hw)
          rw [(h.idle hwriting).1, List.length_nil, List.length_singleton]
          decide
        case isFalse => exact Nat.le_of_add_left_le h.inUse
      | write data results =>
        rw [joining]
        split
        case isTrue hmay =>
          have hlen := (h.free hmay).1
          have hline : (if s.writer.mWriteChunkedEncoding then [0] else ([] : List Nat)).length ≤ 1 := by
            split
            · exact le_rfl
            · exact Nat.zero_le _
          have hdata : (if data = [] then [] else [s.rt.stash.last + 1]).length ≤ 1 := by
            split
            · exact Nat.zero_le _
            · exact le_rfl
          rw [List.length_append]
          omega
        case isFalse => exact Nat.le_of_add_left_le h.inUse
      | _ => exact Nat.le_of_add_left_le h.inUse
    case ids => exact (h.step i).inUse

end Room

/-- A run stays within the buffers exactly if its steps meet the condition. -/
theorem guarded_fits_iff (E : Env) (isServer : Bool) (u : LowHTTPDirect) (is : List Input) :
    (machine E).Guarded (Fits E) (start isServer u) is ↔
      (machine E).Guarded Short (start isServer u) is := by
  refine Machine.guarded_iff_guarded ?_ ?_ (Room.start isServer u) is
  · intro s i h
    exact h.fits_iff i
  · intro s i h _
    exact h.step i

/-- A chunk of 2^20 bytes: its size has six digits. -/
theorem chunkLine_overflows :
    ¬ ∀ (E : Env) (isServer : Bool) (u : LowHTTPDirect) (is : List Input),
      (machine E).Guarded (Fits E) (start isServer u) is := by
  intro h
  obtain ⟨data, hdata⟩ : ∃ data, data = List.replicate (2 ^ 20) (0 : UInt8) := ⟨_, rfl⟩
  have hlen : data.length = 2 ^ 20 := by rw [hdata, List.length_replicate]
  have hfits : Fits deviceEnv headSent (.write data []) := (h deviceEnv false default
    [.writeHeaders (chunkedHead ++ [CR, LF]) (-1) true [.size 49], .write data []]).2.1
  have hshort := (chunkLine_le_iff headSent (.write data [])).mp hfits.line headSent_ready.accepts
    headSent_ready.chunked
  omega

end LowHTTPDirect
end LowJs.HTTPDirect
