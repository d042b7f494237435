import LowJs.Core.Prefixes

/-!
# The send queue of dgram sockets

`Socket.send` of dgram.js binds a socket that is not bound, and queues calls while the socket is being bound
or a datagram is under way; the queue is advanced by the callbacks of `native.send` and `native.bind`. The
error of a lookup is dropped, and `native.send` throws for the address that is missing then; a failed bind
drops the queue.
-/

namespace LowJs.SendOrder

/-- A call of `send`, by its number; `name` says whether its address is a host name. -/
structure Send where
  id : Nat
  name : Bool
  deriving DecidableEq, Repr

/-- `fd` says whether there is a `_socketFD`; `bindLookup`, `binding`, `lookup` and `sending` stand for the
callbacks that wait. The rest is history: the number of calls, the datagrams handed to `native.send`, what
became of them, and what the callbacks of the user got. -/
structure Socket where
  fd : Bool
  tryConnect : Bool
  writing : Bool
  queue : List Send
  bindLookup : Bool
  binding : Bool
  lookup : Option Send
  sending : Option Send
  count : Nat
  handed : List Nat
  outcomes : List (Nat × Bool)
  reported : List (Nat × Bool)
  deriving DecidableEq, Repr

def start : Socket := ⟨false, false, false, [], false, false, none, none, 0, [], [], []⟩

/-- The calls of the user and the callbacks, with whether they bring success. -/
inductive Input
  | send (name : Bool)
  | bind (name : Bool)
  | bindLookedUp (ok : Bool)
  | bound (ok : Bool)
  | lookedUp (ok : Bool)
  | sent (ok : Bool)
  deriving DecidableEq, Repr

namespace Socket

/-- `_send`. -/
def send_ (s : Socket) (x : Send) : Socket := { s with handed := s.handed ++ [x.id], sending := some x }

/-- `bind`, with an address or a host name. -/
def bind (s : Socket) (name : Bool) : Socket :=
  { s with tryConnect := true, bindLookup := name, binding := !name }

/-- `send`, from the test for a descriptor on. -/
def send (s : Socket) (x : Send) : Socket :=
  let s := if s.fd = false ∧ s.tryConnect = false then s.bind false else s
  if s.tryConnect ∨ s.writing then { s with queue := s.queue ++ [x] }
  else
    let s := { s with writing := true }
    if x.name then { s with lookup := some x } else s.send_ x

/-- `onCanWrite`. -/
def onCanWrite (s : Socket) : Socket :=
  match s.queue with
  | [] => s
  | x :: queue => { s with queue := queue }.send x

/-- `onListenError`; what was to be sent is not sent. -/
def onListenError (s : Socket) : Socket :=
  { s with queue := [], outcomes := s.outcomes ++ s.queue.map fun x => (x.id, false) }

/-- The inputs that can happen. `bind` throws for a socket that is bound or being bound. -/
def Enabled (s : Socket) : Input → Prop
  | .send _ => True
  | .bind _ => s.fd = false ∧ s.tryConnect = false
  | .bindLookedUp _ => s.bindLookup = true
  | .bound _ => s.binding = true
  | .lookedUp _ => s.lookup.isSome = true
  | .sent _ => s.sending.isSome = true

instance (s : Socket) : ∀ i, Decidable (s.Enabled i)
  | .send _ => inferInstanceAs (Decidable True)
  | .bind _ => inferInstanceAs (Decidable (_ ∧ _))
  | .bindLookedUp _ | .bound _ | .lookedUp _ | .sent _ => inferInstanceAs (Decidable (_ = _))

/-- The callback of the lookup of a datagram. Where it fails, `native.send` throws. -/
def lookedUp (s : Socket) (ok : Bool) : Socket :=
  match s.lookup with
  | none => s
  | some x =>
    let s := { s with lookup := none }
    if ok then s.send_ x else { s with outcomes := s.outcomes ++ [(x.id, false)] }

/-- The callback of `native.send`. -/
def sent (s : Socket) (ok : Bool) : Socket :=
  match s.sending with
  | none => s
  | some x =>
    let s := { s with sending := none, writing := false, outcomes := s.outcomes ++ [(x.id, ok)] }.onCanWrite
    { s with reported := s.reported ++ [(x.id, ok)] }

/-- The callback of `native.bind`. -/
def bound (s : Socket) (ok : Bool) : Socket :=
  let s := { s with binding := false, tryConnect := false }
  if ok then { s with fd := true }.onCanWrite else s.onListenError

/-- The callback of the lookup of `bind`. -/
def bindLookedUp (s : Socket) (ok : Bool) : Socket :=
  let s := { s with bindLookup := false }
  if ok then { s with binding := true } else { s with tryConnect := false }.onListenError

def call (s : Socket) : Input → Socket
  | .send name => { s with count := s.count + 1 }.send ⟨s.count, name⟩
  | .bind name => s.bind name
  | .bindLookedUp ok => s.bindLookedUp ok
  | .bound ok => s.bound ok
  | .lookedUp ok => s.lookedUp ok
  | .sent ok => s.sent ok

def step (s : Socket) (i : Input) : Socket := if s.Enabled i then s.call i else s

/-- The calls that have no outcome yet: the one under way and those in the queue. -/
def waiting (s : Socket) : List Nat := (s.sending.toList ++ s.lookup.toList ++ s.queue).map Send.id

end Socket

def machine : Machine Socket Input := ⟨Socket.step⟩

/-- The datagrams are handed over in call order; each call has one outcome or waits for it; the callbacks
get the outcomes of their own calls; and what is in the queue waits for a callback that will come. -/
structure Socket.Sound (s : Socket) : Prop where
  ordered : s.handed.Pairwise (· < ·)
  once : (s.outcomes.map Prod.fst ++ s.waiting).Perm (List.range s.count)
  told : s.reported = s.outcomes
  moves : s.queue ≠ [] → s.bindLookup = true ∨ s.binding = true ∨ s.lookup.isSome = true ∨
    s.sending.isSome = true

/-- No lookup fails, and no bind while a call waits for it. -/
def Socket.Succeeds (s : Socket) : Input → Prop
  | .lookedUp ok => s.lookup.isSome = true → ok = true
  | .bindLookedUp ok => s.bindLookup = true → ok = true ∨ s.queue = []
  | .bound ok => s.binding = true → ok = true ∨ s.queue = []
  | _ => True

namespace Socket

/-! ### The invariant -/

/-- What the flags say about the callbacks that wait. -/
structure Inv (s : Socket) : Prop where
  writing : s.writing = (s.sending.isSome || s.lookup.isSome)
  one : s.sending = none ∨ s.lookup = none
  binding : s.tryConnect = (s.bindLookup || s.binding)
  unbound : s.tryConnect = true → s.fd = false
  idle : s.fd = false → s.writing = false
  moves : s.queue ≠ [] → s.tryConnect = true ∨ s.writing = true
  told : s.reported = s.outcomes
  all : s.outcomes.map Prod.fst ++ s.waiting = List.range s.count
  handed : s.handed = s.outcomes.map Prod.fst ++ s.sending.toList.map Send.id
  stage : s.bindLookup = false ∨ s.binding = false

lemma inv_start : start.Inv := by
  constructor <;> decide

variable {s : Socket}

lemma Inv.sound (h : s.Inv) : s.Sound := by
  refine ⟨?_, List.Perm.of_eq h.all, h.told, fun hqueue => ?_⟩
  · have hpre : s.handed <+: List.range s.count := by
      rw [← h.all, h.handed, waiting, List.map_append, List.map_append, List.append_assoc,
        ← List.append_assoc]
      exact List.prefix_append ..
    exact List.Pairwise.sublist hpre.sublist List.pairwise_lt_range
  · rcases h.moves hqueue with hconnect | hwriting
    · rw [h.binding, Bool.or_eq_true] at hconnect
      exact hconnect.elim .inl fun hb => .inr (.inl hb)
    · rw [h.writing, Bool.or_eq_true] at hwriting
      exact hwriting.elim (fun hs => .inr (.inr (.inr hs))) fun hl => .inr (.inr (.inl hl))

/-- A bound socket without a datagram under way sends the next one, in front of its queue. -/
lemma send_free (x : Send) (hfd : s.fd = true) (hconnect : s.tryConnect = false) (hwriting : s.writing = false) :
    s.send x = if x.name then { s with writing := true, lookup := some x }
      else { s with writing := true, handed := s.handed ++ [x.id], sending := some x } := by
  simp [send, send_, hfd, hconnect, hwriting]

/-- The queue is advanced. -/
lemma onCanWrite_inv (hfd : s.fd = true) (hconnect : s.tryConnect = false) (hbind : s.bindLookup = false)
    (hbinding : s.binding = false) (hwriting : s.writing = false) (hsending : s.sending = none)
    (hlookup : s.lookup = none) (htold : s.reported = s.outcomes)
    (hall : s.outcomes.map Prod.fst ++ s.queue.map Send.id = List.range s.count)
    (hhanded : s.handed = s.outcomes.map Prod.fst) : s.onCanWrite.Inv := by
  rw [onCanWrite]
  cases hqueue : s.queue with
  | nil =>
    constructor <;> simp_all [waiting]
  | cons x queue =>
    dsimp only
    rw [@send_free { s with queue := queue } x hfd hconnect hwriting]
    rw [hqueue] at hall
    split
    · constructor <;> simp_all [waiting]
    · constructor <;> simp_all [waiting]

lemma Inv.send (h : s.Inv) (name : Bool) :
    (({ s with count := s.count + 1 } : Socket).send ⟨s.count, name⟩).Inv := by
  have hall := h.all
  obtain ⟨hwriting, hone, hbinding, hunbound, hidle, hmoves, htold, -, hhanded, hstage⟩ := h
  have hlist : s.outcomes.map Prod.fst ++ (s.waiting ++ [s.count]) = List.range (s.count + 1) := by
    rw [← List.append_assoc, hall, List.range_succ]
  by_cases hbind : s.fd = false ∧ s.tryConnect = false
  · -- the socket is bound first
    have hsend : ({ s with count := s.count + 1 } : Socket).send ⟨s.count, name⟩ =
        { s.bind false with count := s.count + 1, queue := s.queue ++ [⟨s.count, name⟩] } := by
      simp [Socket.send, Socket.bind, hbind]
    rw [hsend]
    refine ⟨hwriting, hone, rfl, fun _ => hbind.1, hidle, fun _ => .inl rfl, htold, ?_, hhanded, .inl rfl⟩
    simpa [waiting, Socket.bind] using hlist
  by_cases hbusy : s.tryConnect = true ∨ s.writing = true
  · have hsend : ({ s with count := s.count + 1 } : Socket).send ⟨s.count, name⟩ =
        { s with count := s.count + 1, queue := s.queue ++ [⟨s.count, name⟩] } := by
      rw [Socket.send, if_neg hbind]
      exact if_pos hbusy
    rw [hsend]
    refine ⟨hwriting, hone, hbinding, hunbound, hidle, fun _ => hbusy, htold, ?_, hhanded, hstage⟩
    simpa [waiting] using hlist
  · -- nothing is under way, so the queue is empty
    rw [not_or, Bool.not_eq_true, Bool.not_eq_true] at hbusy
    have hfd : s.fd = true := by
      by_contra hfd
      exact hbind ⟨Bool.eq_false_of_not_eq_true hfd, hbusy.1⟩
    have hqueue : s.queue = [] := by
      by_contra hne
      rcases hmoves hne with hconnect | hwrite
      · exact absurd (hbusy.1.symm.trans hconnect) Bool.false_ne_true
      · exact absurd (hbusy.2.symm.trans hwrite) Bool.false_ne_true
    rw [hbusy.2, eq_comm, Bool.or_eq_false_iff, Option.isSome_eq_false_iff, Option.isSome_eq_false_iff,
      Option.isNone_iff_eq_none, Option.isNone_iff_eq_none] at hwriting
    rw [hbusy.1, eq_comm, Bool.or_eq_false_iff] at hbinding
    rw [@send_free { s with count := s.count + 1 } _ hfd hbusy.1 hbusy.2]
    split
    · constructor <;> simp_all [waiting]
    · constructor <;> simp_all [waiting]

/-- The queue and the reports do not meet. -/
lemma onCanWrite_reported (s : Socket) (rs : List (Nat × Bool)) :
    { s.onCanWrite with reported := s.onCanWrite.reported ++ rs } =
      ({ s with reported := s.reported ++ rs } : Socket).onCanWrite := by
  obtain ⟨fd, tryConnect, writing, queue, bindLookup, binding, lookup, sending, count, handed, outcomes, reported⟩ := s
  cases queue with
  | nil => rfl
  | cons x queue =>
    obtain ⟨id, name⟩ := x
    cases fd <;> cases tryConnect <;> cases writing <;> cases name <;> rfl

lemma Inv.sent (h : s.Inv) (ok : Bool) : (s.sent ok).Inv := by
  rw [Socket.sent]
  cases hsending : s.sending with
  | none => exact h
  | some x =>
    obtain ⟨hwriting, hone, hbinding, hunbound, hidle, hmoves, htold, hall, hhanded, hstage⟩ := h
    dsimp only
    rw [onCanWrite_reported]
    have hwrite : s.writing = true := by rw [hwriting, hsending]; rfl
    have hfd : s.fd = true := by
      by_contra hfd
      exact absurd ((hidle (Bool.eq_false_of_not_eq_true hfd)).symm.trans hwrite) Bool.false_ne_true
    have hconnect : s.tryConnect = false := by
      by_contra hconnect
      exact absurd ((hunbound (Bool.eq_true_of_not_eq_false hconnect)).symm.trans hfd) Bool.false_ne_true
    rw [hconnect, eq_comm, Bool.or_eq_false_iff] at hbinding
    have hlookup : s.lookup = none := hone.resolve_left (by rw [hsending]; exact Option.some_ne_none x)
    apply @onCanWrite_inv { s with
      sending := none
      writing := false
      outcomes := s.outcomes ++ [(x.id, ok)]
      reported := s.reported ++ [(x.id, ok)] } hfd hconnect hbinding.1 hbinding.2 rfl rfl hlookup
    · simp [htold]
    · rw [← hall]
      simp [waiting, hsending, hlookup]
    · rw [hhanded, hsending]
      simp

lemma Inv.lookedUp (h : s.Inv) : (s.lookedUp true).Inv := by
  rw [Socket.lookedUp]
  cases hlookup : s.lookup with
  | none => exact h
  | some x =>
    obtain ⟨hwriting, hone, hbinding, hunbound, hidle, hmoves, htold, hall, hhanded, hstage⟩ := h
    have hsending : s.sending = none := hone.resolve_right (by rw [hlookup]; exact Option.some_ne_none x)
    have hwrite : s.writing = true := by rw [hwriting, hlookup, hsending]; rfl
    simp only [if_true, send_]
    refine ⟨hwrite, .inr rfl, hbinding, hunbound, hidle, hmoves, htold, ?_, ?_, hstage⟩
    · rw [← hall]
      simp [waiting, hsending, hlookup]
    · rw [hhanded, hsending]
      simp

/-- While the socket is being bound, nothing is under way. -/
lemma Inv.bindIdle (h : s.Inv) (hconnect : s.tryConnect = true) :
    s.fd = false ∧ s.writing = false ∧ s.sending = none ∧ s.lookup = none := by
  have hfd := h.unbound hconnect
  have hwriting := h.idle hfd
  refine ⟨hfd, hwriting, ?_⟩
  have := h.writing
  rw [hwriting, eq_comm, Bool.or_eq_false_iff, Option.isSome_eq_false_iff, Option.isSome_eq_false_iff,
    Option.isNone_iff_eq_none, Option.isNone_iff_eq_none] at this
  exact this

lemma Inv.bound (h : s.Inv) {ok : Bool} (hbound : s.binding = true) (hok : ok = true ∨ s.queue = []) :
    (s.bound ok).Inv := by
  obtain ⟨hfd, hwriting, hsending, hlookup⟩ := h.bindIdle (by rw [h.binding, hbound, Bool.or_true])
  have hstage : s.bindLookup = false := h.stage.resolve_right (by rw [hbound]; exact Bool.true_eq_false.mp)
  have hall := h.all
  have hhanded := h.handed
  rw [waiting, hsending, hlookup] at hall
  rw [hsending] at hhanded
  rw [Socket.bound]
  cases ok with
  | true =>
    apply @onCanWrite_inv { s with binding := false, tryConnect := false, fd := true } rfl rfl hstage rfl
      hwriting hsending hlookup h.told
    · simpa using hall
    · simpa using hhanded
  | false =>
    have hqueue : s.queue = [] := hok.resolve_left Bool.false_ne_true
    constructor <;> simp_all [onListenError, waiting, h.told]

lemma Inv.bindLookedUp (h : s.Inv) {ok : Bool} (hbind : s.bindLookup = true)
    (hok : ok = true ∨ s.queue = []) : (s.bindLookedUp ok).Inv := by
  have hconnect : s.tryConnect = true := by rw [h.binding, hbind, Bool.true_or]
  obtain ⟨hfd, hwriting, hsending, hlookup⟩ := h.bindIdle hconnect
  have hstage : s.binding = false := h.stage.resolve_left (by rw [hbind]; exact Bool.true_eq_false.mp)
  have hall := h.all
  have hhanded := h.handed
  have htold := h.told
  rw [Socket.bindLookedUp]
  cases ok with
  | true =>
    exact ⟨h.writing, h.one, hconnect, h.unbound, h.idle, h.moves, h.told, hall, hhanded, .inl rfl⟩
  | false =>
    have hqueue : s.queue = [] := hok.resolve_left Bool.false_ne_true
    constructor <;> simp_all [onListenError, waiting]

/-! ### Steps and runs -/

lemma Inv.step (h : s.Inv) {i : Input} (hok : s.Succeeds i) : (s.step i).Inv := by
  rw [Socket.step]
  split
  swap
  · exact h
  rename_i henabled
  cases i with
  | send name => exact h.send name
  | bind name =>
    obtain ⟨hfd, hconnect⟩ := henabled
    refine ⟨h.writing, h.one, ?_, fun _ => hfd, h.idle, fun _ => .inl rfl, h.told, h.all, h.handed, ?_⟩
    · cases name <;> rfl
    · cases name
      · exact .inl rfl
      · exact .inr rfl
  | bindLookedUp ok => exact h.bindLookedUp henabled (hok henabled)
  | bound ok => exact h.bound henabled (hok henabled)
  | lookedUp ok =>
    have hok : ok = true := hok henabled
    rw [hok]
    exact h.lookedUp
  | sent ok => exact h.sent ok

/-- What is dropped has an outcome that no callback gets. -/
lemma not_sound_of_outcomes {t : Socket} (h : s.Inv) (hreported : t.reported = s.reported)
    {rs : List (Nat × Bool)} (houtcomes : t.outcomes = s.outcomes ++ rs) (hne : rs ≠ []) : ¬t.Sound := by
  intro hsound
  have htold := hsound.told
  rw [hreported, h.told, houtcomes] at htold
  exact hne (List.self_eq_append_right.mp htold)

lemma Inv.not_sound (h : s.Inv) {i : Input} (hok : ¬s.Succeeds i) : ¬(s.step i).Sound := by
  cases i with
  | send name => exact absurd trivial hok
  | bind name => exact absurd trivial hok
  | sent ok => exact absurd trivial hok
  | lookedUp ok =>
    obtain ⟨henabled, hfalse⟩ := Classical.not_imp.mp hok
    rw [Bool.not_eq_true] at hfalse
    subst hfalse
    obtain ⟨x, hlookup⟩ := Option.isSome_iff_exists.mp henabled
    rw [Socket.step, if_pos (show s.Enabled (.lookedUp false) from henabled), call, Socket.lookedUp, hlookup]
    exact not_sound_of_outcomes h rfl rfl (List.cons_ne_nil (x.id, false) [])
  | bindLookedUp ok =>
    obtain ⟨henabled, hfalse⟩ := Classical.not_imp.mp hok
    rw [not_or, Bool.not_eq_true] at hfalse
    obtain ⟨rfl, hqueue⟩ := hfalse
    rw [Socket.step, if_pos (show s.Enabled (.bindLookedUp false) from henabled), call, Socket.bindLookedUp]
    refine @not_sound_of_outcomes s _ h rfl (s.queue.map fun x => (x.id, false)) rfl ?_
    simpa using hqueue
  | bound ok =>
    obtain ⟨henabled, hfalse⟩ := Classical.not_imp.mp hok
    rw [not_or, Bool.not_eq_true] at hfalse
    obtain ⟨rfl, hqueue⟩ := hfalse
    rw [Socket.step, if_pos (show s.Enabled (.bound false) from henabled), call, Socket.bound]
    refine @not_sound_of_outcomes s _ h rfl (s.queue.map fun x => (x.id, false)) rfl ?_
    simpa using hqueue

end Socket

/-- The sends are in order and each is reported, in every state of a run exactly if no lookup fails, and no
bind while a call waits for it. -/
theorem sound_iff_succeeds (is : List Input) :
    (∀ js, js <+: is → (machine.run start js).Sound) ↔ machine.Guarded Socket.Succeeds start is := by
  apply Machine.forall_prefix_iff_guarded (fun s hs => hs.sound) _ _ Socket.inv_start
    (fun _ _ => trivial : ∀ i ∈ is, (fun _ => True) i)
  · intro s i hs _ hok
    exact hs.step hok
  · intro s i hs _ hok
    exact hs.not_sound hok

/-- The lookup of a datagram fails. -/
theorem lookup_error_dropped :
    ¬(machine.run start [.send true, .bound true, .lookedUp false, .send false]).Sound := by
  intro h
  exact absurd h.told (by decide)

end LowJs.SendOrder
