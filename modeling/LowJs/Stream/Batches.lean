import LowJs.Stream.WriteOrder

/-!
# A stream with `_writev`

The same stream with a `_writev` and without one. What the two hand to their operations, and
`writableLength`, agree once their buffers are empty, in the runs in which the stream with `_writev` has
nothing to give to it: where it has, `_writableNext` goes on and gives the first entry to `_write` as well.
-/

namespace LowJs.Stream

variable {α ε : Type*}

/-- The stream with a `_writev`, or without one. -/
def Options.withWritev (O : Options α ε) (hasWritev : Bool) : Options α ε := { O with hasWritev := hasWritev }

/-- Chunks are merged alike. -/
lemma Joins.of_withWritev {O : Options α ε} {hasWritev : Bool} {cs : List α} {m : α}
    (h : Joins (O.withWritev hasWritev) cs m) : Joins O cs m := by
  induction h with
  | single c => exact .single c
  | concat _ hconcat ih => exact ih.concat hconcat

namespace Writable

variable {O : Options α ε} {s t : Writable α ε}

/-- The chunks that have been handed to `_write` and `_writev`. -/
def delivered (s : Writable α ε) : List α := s.sent.flatMap Entry.parts

/-- Where two streams have accepted the same writes and have delivered what they have buffered, they have
delivered the same, each chunk once, and have the same `writableLength`. -/
structure Agree (O : Options α ε) (s t : Writable α ε) : Prop where
  delivered : s.written = t.written → s.writableBuf = [] → t.writableBuf = [] →
    s.delivered = t.delivered
  once : s.writableBuf = [] → s.sent.flatMap Entry.callbacks = List.range s.written.length
  joins : ∀ e ∈ s.sent, Joins O e.parts e.chunk
  length : s.writableBuf = [] → t.writableBuf = [] → s.writableLength = t.writableLength

/-! ### The length -/

/-- `writableLength` is the sum over the buffer. -/
def Weighed (O : Options α ε) (s : Writable α ε) : Prop :=
  s.writableLength = (s.writableBuf.map fun e => size O e.chunk).sum

lemma Weighed.congr (h : Weighed O s) (hlength : t.writableLength = s.writableLength)
    (hbuf : t.writableBuf = s.writableBuf) : Weighed O t := by
  rw [Weighed, hlength, hbuf]
  exact h

lemma Weighed.writeResult (h : Weighed O s) : Weighed O (s.writeResult O) := by
  rw [Writable.writeResult]
  split
  · exact h
  · exact h

lemma Weighed.takeEntry (h : Weighed O s) : Weighed O (s.takeEntry O) := by
  rw [Writable.takeEntry]
  split
  case h_1 hnil => exact h.congr rfl rfl
  case h_2 e rest hcons =>
    rw [Weighed, hcons, List.map_cons, List.sum_cons] at h
    change s.writableLength - size O e.chunk = (rest.map fun e => size O e.chunk).sum
    omega

lemma Weighed.nextRest (h : Weighed O s) (hv : O.hasWritev = true → s.writableBuf = []) :
    Weighed O (s.nextRest O) := by
  rw [Writable.nextRest]
  split
  · split
    case isTrue hbuf =>
      have hnot : ¬O.hasWritev = true := fun hwritev => hbuf (hv hwritev)
      dsimp only
      rw [if_neg hnot]
      exact Weighed.takeEntry (h.congr rfl rfl)
    case isFalse =>
      split
      · exact h.congr rfl rfl
      · exact h
  · exact h

lemma Weighed.writableNext (h : Weighed O s) (hv : O.hasWritev = true → s.writableBuf = []) :
    Weighed O (s.writableNext O) := by
  rw [Writable.writableNext]
  split
  · exact h
  · split
    · exact h.congr rfl rfl
    · exact h.nextRest hv

lemma Weighed.endNow (h : Weighed O s) (hv : O.hasWritev = true → s.writableBuf = []) :
    Weighed O (s.endNow O) := by
  rw [Writable.endNow]
  split
  · exact h
  · dsimp only
    split
    · exact h.congr rfl rfl
    · exact Weighed.writableNext (h.congr rfl rfl) hv

lemma Weighed.callCallback (h : Weighed O s) (hv : O.hasWritev = true → s.writableBuf = []) (id : Nat) :
    Weighed O (s.callCallback O id) := by
  rw [Writable.callCallback]
  dsimp only
  split
  · exact Weighed.endNow (h.congr rfl rfl) hv
  · exact h.congr rfl rfl

lemma Weighed.pushEntry (h : Weighed O s) (chunk : α) (encoding : ε) :
    Weighed O (s.pushEntry O chunk encoding) := by
  apply Weighed.writeResult
  rw [Weighed] at h
  simp only [Weighed, List.map_append, List.sum_append, List.map_cons, List.map_nil, List.sum_singleton, h]

/-- A chunk is merged with the last entry, and their lengths add up. -/
lemma Weighed.writeBuffered [DecidableEq ε]
    (hconcat : ∀ a b c, O.concat a b = some c → O.length c = O.length a + O.length b) (h : Weighed O s)
    (chunk : α) (encoding : ε) : Weighed O (s.writeBuffered O chunk encoding) := by
  rw [Writable.writeBuffered]
  split
  case h_1 last hlast =>
    split
    case isTrue hmerge =>
      split
      case h_1 => exact h
      case h_2 merged hmerged =>
        have hbuf : s.writableBuf = s.writableBuf.dropLast ++ [last] :=
          (List.dropLast_append_getLast? last hlast).symm
        have hsize : size O merged = size O last.chunk + size O chunk := by
          rw [size, size, size, if_neg hmerge.1, if_neg hmerge.1, if_neg hmerge.1,
            hconcat _ _ _ hmerged, Nat.cast_add]
        apply Weighed.writeResult
        rw [Weighed, hbuf, List.map_append, List.sum_append, List.map_singleton, List.sum_singleton] at h
        simp only [Weighed, List.map_append, List.sum_append, List.map_singleton, List.sum_singleton, hsize]
        omega
    case isFalse => exact h.pushEntry chunk encoding
  case h_2 => exact h.pushEntry chunk encoding

lemma Weighed.write [DecidableEq ε]
    (hconcat : ∀ a b c, O.concat a b = some c → O.length c = O.length a + O.length b) (h : Weighed O s)
    (chunk : α) (encoding : ε) : Weighed O (s.write O chunk encoding) := by
  rw [Writable.write]
  split
  · exact h
  · dsimp only
    split
    · exact h.congr rfl rfl
    · exact h.writeBuffered hconcat _ encoding

lemma Weighed.advance (h : Weighed O s) (hv : O.hasWritev = true → s.writableBuf = []) :
    Weighed O (s.advance O) := by
  rw [Writable.advance]
  split
  · exact Weighed.writeResult (h.congr rfl rfl)
  · exact Weighed.nextRest (h.congr rfl rfl) hv
  · exact Weighed.takeEntry (h.congr rfl rfl)
  · exact Weighed.writableNext (h.congr rfl rfl) hv
  · exact h.congr rfl rfl
  · exact Weighed.writableNext (h.congr rfl rfl) hv
  · apply Weighed.callCallback
    · exact h.congr rfl rfl
    · exact hv
  · split
    · exact Weighed.writableNext (h.congr rfl rfl) hv
    · split
      · exact h.congr rfl rfl
      · apply Weighed.callCallback
        · exact h.congr rfl rfl
        · exact hv
  · exact h.congr rfl rfl
  · exact h

lemma Weighed.complete (h : Weighed O s) (k : Nat) (err : Bool) : Weighed O (s.complete k err) := by
  rw [Writable.complete]
  split
  · exact h
  · dsimp only
    split
    · exact h.congr rfl rfl
    · exact h.congr rfl rfl

variable [DecidableEq ε]

lemma Weighed.end_ (hconcat : ∀ a b c, O.concat a b = some c → O.length c = O.length a + O.length b)
    (h : Weighed O s) (hv : O.hasWritev = true → s.writableBuf = []) (chunk : Option (α × ε)) :
    Weighed O (s.end_ O chunk) := by
  rw [Writable.end_.eq_def]
  dsimp only
  split
  · exact h.congr rfl rfl
  · split
    · exact (h.endNow hv).congr rfl rfl
    · split
      · exact h.write hconcat _ _
      · exact (h.write hconcat _ _).congr rfl rfl

lemma Weighed.step (hconcat : ∀ a b c, O.concat a b = some c → O.length c = O.length a + O.length b)
    (h : Weighed O s) {i : Input α ε} (hv : O.hasWritev = true → s.writableBuf = []) :
    Weighed O (s.step O i) := by
  rw [Writable.step.eq_def]
  split
  · cases i with
    | write chunk encoding => exact h.write hconcat chunk encoding
    | cork => exact h.congr rfl rfl
    | uncork =>
      dsimp only [userStep]
      split
      · exact Weighed.writableNext (h.congr rfl rfl) hv
      · exact h.congr rfl rfl
    | end_ chunk => exact h.end_ hconcat hv chunk
    | complete k err => exact h.complete k err
    | ret => exact h.congr rfl rfl
    | throw => exact h.congr rfl rfl
    | advance => exact h
    | tick =>
      dsimp only [userStep]
      split
      · apply Weighed.callCallback
        · exact h.congr rfl rfl
        · exact hv
      · exact h
  · split
    · exact h.advance hv
    · exact h

/-! ### Two streams -/

/-- What a run whose steps meet the condition has kept. -/
lemma serial_weighed (hconcat : ∀ a b c, O.concat a b = some c → O.length c = O.length a + O.length b)
    {is : List (Input α ε)} (h : (machine O).Guarded (Alone O) Writable.init is) :
    Serial O ((machine O).run init is) ∧ Weighed O ((machine O).run init is) := by
  have hstep : ∀ s i, Serial O s ∧ Weighed O s → Alone O s i →
      Serial O ((machine O).step s i) ∧ Weighed O ((machine O).step s i) := by
    rintro s i ⟨hserial, hweighed⟩ hok
    exact ⟨hserial.step hok, hweighed.step hconcat hok.noWritev⟩
  exact (machine O).run_invariant hstep ⟨serial_init, rfl⟩ h

/-- One chunk is written to a corked stream. -/
def corkedWrite : List (Input Nat Nat) := [.cork, .write 0 0, .uncork]

end Writable

end LowJs.Stream
