import LowJs.Promise.State

/-!
# The subscribers of a promise

What has joined the chain of a promise has been taken by a walk, waits in a walk, or is still in the
chain, in this order. Two things break it: an unhandled rejection that is thrown through a walk
with subscribers left, and a promise that is settled again from inside its own walk.
-/

namespace LowJs.Promise

/-- What a frame has left of the chain of `p`. -/
def Frame.restOf (p : Nat) : Frame → List Nat
  | .handleThens id _ _ rest _ => if id = p then rest else []
  | _ => []

/-- What the walks have left of the chain of `p`. -/
def rests (control : List Frame) (p : Nat) : List Nat := control.flatMap (Frame.restOf p)

@[simp] lemma rests_nil (p : Nat) : rests [] p = [] := rfl

@[simp] lemma rests_cons (f : Frame) (control : List Frame) (p : Nat) :
    rests (f :: control) p = f.restOf p ++ rests control p := rfl

namespace State

variable {s t u : State} {id q sub : Nat}

/-! ### Order -/

/-- Every subscriber is where the order of its registration puts it. -/
structure Ordered (s : State) : Prop where
  order : ∀ p, (s.heap p).joined = (s.heap p).ran ++ rests s.control p ++ (s.heap p).chain
  fresh : ∀ p, s.size ≤ p → (s.heap p).joined = []

/-- `t` has the chains and the calls of `s`. -/
structure SameChains (s t : State) : Prop where
  size : t.size = s.size
  control : t.control = s.control
  chain : ∀ p, (t.heap p).chain = (s.heap p).chain
  joined : ∀ p, (t.heap p).joined = (s.heap p).joined
  ran : ∀ p, (t.heap p).ran = (s.heap p).ran

lemma SameChains.refl (s : State) : SameChains s s := by
  constructor <;> intros <;> rfl

lemma SameChains.trans (h : SameChains s t) (h' : SameChains t u) : SameChains s u :=
  ⟨h'.size.trans h.size, h'.control.trans h.control, fun p => (h'.chain p).trans (h.chain p),
    fun p => (h'.joined p).trans (h.joined p), fun p => (h'.ran p).trans (h.ran p)⟩

lemma sameChains_modify (s : State) (id : Nat) {f : Object → Object}
    (hc : (f (s.heap id)).chain = (s.heap id).chain)
    (hj : (f (s.heap id)).joined = (s.heap id).joined)
    (hr : (f (s.heap id)).ran = (s.heap id).ran) : SameChains s (s.modify id f) := by
  refine ⟨rfl, rfl, ?_, ?_, ?_⟩
  all_goals
    intro p
    by_cases hp : p = id
    · subst hp
      simpa
    · simp [hp]

lemma sameChains_settle (s : State) (id : Nat) (st : Status) (v : Value) :
    SameChains s (s.settle id st v) := sameChains_modify s id rfl rfl rfl

lemma sameChains_adopt (s : State) (id q : Nat) : SameChains s (s.adopt id q) := by
  unfold adopt
  dsimp only
  split
  · exact (sameChains_settle s id _ _).trans (sameChains_modify _ q rfl rfl rfl)
  · exact sameChains_settle s id _ _

lemma sameChains_callNextTick (s : State) (id : Nat) : SameChains s (s.callNextTick id) := by
  constructor <;> intros <;> rfl

lemma sameChains_putIndex {target v : Value} {i : Nat} (h : s.putIndex target i v = some t) :
    SameChains s t := by
  cases target with
  | undefined => simp [putIndex] at h
  | plain n => simp [putIndex] at h
  | object n => exact Option.some.inj h ▸ .refl s
  | promise id => exact Option.some.inj h ▸ .refl s
  | array id => exact Option.some.inj h ▸ sameChains_modify s id rfl rfl rfl
  | typeError => exact Option.some.inj h ▸ .refl s

lemma sameChains_all_resolved (s : State) (this : Nat) (v : Value) :
    SameChains s (s.promise_all_resolved this v).2 := by
  unfold promise_all_resolved
  dsimp only
  split
  · exact .refl s
  · split
    · exact .refl s
    · next hput =>
      split
      · exact ((sameChains_putIndex hput).trans (sameChains_modify _ _ rfl rfl rfl)).trans
          (sameChains_callNextTick _ _)
      · dsimp only
        exact (sameChains_putIndex hput).trans (sameChains_modify _ _ rfl rfl rfl)

lemma sameChains_all_rejected (s : State) (this : Nat) (v : Value) :
    SameChains s (s.promise_all_rejected this v) :=
  (sameChains_settle s _ _ _).trans (sameChains_callNextTick _ _)

lemma Ordered.congr (h : Ordered s) (hst : SameChains s t) : Ordered t := by
  refine ⟨fun p => ?_, fun p hp => ?_⟩
  · rw [hst.joined, hst.ran, hst.chain, hst.control]
    exact h.order p
  · rw [hst.joined]
    exact h.fresh p (hst.size ▸ hp)

lemma Ordered.subscribe (h : Ordered s) (hq : q < s.size) : Ordered (s.subscribe q sub) := by
  refine ⟨fun p => ?_, fun p hp => ?_⟩
  · by_cases hp : p = q
    · subst hp
      simp [State.subscribe, h.order p]
    · simpa [State.subscribe, hp] using h.order p
  · have hne : p ≠ q := fun heq => absurd (heq ▸ hp) (not_le.mpr hq)
    simpa [State.subscribe, hne] using h.fresh p hp

lemma Ordered.alloc (h : Ordered s) {o : Object} (hc : o.chain = []) (hj : o.joined = [])
    (hr : o.ran = []) : Ordered (s.alloc o) := by
  refine ⟨fun p => ?_, fun p hp => ?_⟩
  · by_cases hp : p = s.size
    · have hrest : rests s.control p = [] := by
        have hord := h.order p
        rw [h.fresh p hp.ge] at hord
        simp only [List.nil_eq, List.append_eq_nil_iff] at hord
        exact hord.1.2
      simp [hp, hc, hj, hr, hp ▸ hrest]
    · simpa [hp] using h.order p
  · have hle : s.size + 1 ≤ p := hp
    have hne : p ≠ s.size := by omega
    simpa [hne] using h.fresh p (by omega)

/-- A call that has nothing left to do for a chain comes or goes. -/
lemma Ordered.frames (h : Ordered s) {control : List Frame}
    (hc : ∀ p, rests control p = rests s.control p) : Ordered { s with control := control } :=
  ⟨fun p => by rw [hc p]; exact h.order p, h.fresh⟩

/-- A walk may start where no other walk has subscribers of the same promise left. -/
lemma Ordered.promise_handle_thens (h : Ordered s)
    (hid : (s.heap id).chain = [] ∨ rests s.control id = []) :
    Ordered (s.promise_handle_thens id) := by
  refine ⟨fun p => ?_, fun p hp => ?_⟩
  · by_cases hp : p = id
    · subst hp
      rcases hid with hid | hid
      · simp [State.promise_handle_thens, Frame.restOf, h.order p, hid]
      · simp [State.promise_handle_thens, Frame.restOf, h.order p, hid]
    · have hne : ¬id = p := fun heq => hp heq.symm
      simpa [State.promise_handle_thens, Frame.restOf, hp, hne] using h.order p
  · by_cases hpid : p = id
    · subst hpid
      simpa [State.promise_handle_thens] using h.fresh p hp
    · simpa [State.promise_handle_thens, hpid] using h.fresh p hp

/-! ### Calls in the queue -/

/-- A settled promise with subscribers is in the queue; `except` may be missing there. -/
def LiveBut (s : State) (except : Option Nat) : Prop :=
  ∀ p, some p ≠ except → s.status p ≠ .pending → (s.heap p).chain ≠ [] → p ∈ s.ticks

lemma LiveBut.of_eq {e : Option Nat} (h : s.LiveBut e)
    (hst : ∀ p, some p ≠ e → t.status p = s.status p) (hc : ∀ p, (t.heap p).chain = (s.heap p).chain)
    (ht : t.ticks = s.ticks) : t.LiveBut e := by
  intro p hp hpst hpc
  rw [hst p hp] at hpst
  rw [hc p] at hpc
  rw [ht]
  exact h p hp hpst hpc

lemma LiveBut.weaken (h : s.LiveBut none) (e : Option Nat) : s.LiveBut e :=
  fun p _ => h p (by simp)

lemma LiveBut.of_nil (h : s.LiveBut (some id)) (hc : (s.heap id).chain = []) : s.LiveBut none := by
  intro p _ hst hpc
  by_cases hp : p = id
  · exact absurd (hp ▸ hc) hpc
  · exact h p (by simpa using hp) hst hpc

lemma LiveBut.modify (h : s.LiveBut (some id)) {f : Object → Object}
    (hc : (f (s.heap id)).chain = (s.heap id).chain) : (s.modify id f).LiveBut (some id) := by
  refine h.of_eq (fun p hp => ?_) (fun p => ?_) rfl
  · have hne : p ≠ id := by simpa using hp
    simp [status, hne]
  · by_cases hp : p = id
    · subst hp
      simpa
    · simp [hp]

lemma LiveBut.modify_status {e : Option Nat} (h : s.LiveBut e) {f : Object → Object}
    (hs : (f (s.heap id)).promiseStatus = (s.heap id).promiseStatus)
    (hc : (f (s.heap id)).chain = (s.heap id).chain) : (s.modify id f).LiveBut e := by
  refine h.of_eq (fun p _ => ?_) (fun p => ?_) rfl
  all_goals
    by_cases hp : p = id
    · subst hp
      simpa [status]
    · simp [status, hp]

lemma LiveBut.adopt (h : s.LiveBut none) (id q : Nat) : (s.adopt id q).LiveBut (some id) := by
  have hset : (s.settle id (s.status q) (s.heap q).value).LiveBut (some id) :=
    (h.weaken _).modify rfl
  unfold State.adopt
  dsimp only
  split
  · exact hset.modify_status rfl rfl
  · exact hset

lemma LiveBut.callNextTick (h : s.LiveBut (some id)) : (s.callNextTick id).LiveBut none := by
  intro p _ hst hc
  by_cases hp : p = id
  · simp [hp]
  · exact List.mem_cons_of_mem _ (h p (by simpa using hp) hst hc)

lemma LiveBut.handleThens (h : s.LiveBut (some id)) :
    (s.promise_handle_thens id).LiveBut none := by
  intro p _ hst hc
  by_cases hp : p = id
  · exact absurd (by simp [State.promise_handle_thens, hp]) hc
  · have hne : some p ≠ some id := by simpa using hp
    refine h p hne ?_ ?_
    · simpa [State.promise_handle_thens, status, hp] using hst
    · simpa [State.promise_handle_thens, hp] using hc

lemma LiveBut.subscribe {e : Option Nat} (h : s.LiveBut e) (hq : some q = e ∨ s.status q = .pending) :
    (s.subscribe q sub).LiveBut e := by
  intro p hp hst hc
  by_cases hpq : p = q
  · subst hpq
    rcases hq with hq | hq
    · exact absurd hq hp
    · exact absurd (by simpa [State.subscribe, status] using hq) hst
  · refine h p hp ?_ ?_
    · simpa [State.subscribe, status, hpq] using hst
    · simpa [State.subscribe, hpq] using hc

lemma LiveBut.alloc {e : Option Nat} (h : s.LiveBut e) {o : Object} (ho : o.chain = []) :
    (s.alloc o).LiveBut e := by
  intro p hp hst hc
  by_cases hps : p = s.size
  · exact absurd (by simpa [hps] using ho) hc
  · refine h p hp ?_ ?_
    · simpa [status, hps] using hst
    · simpa [hps] using hc

/-! ### The functions -/

/-- The order of the subscribers, and the calls that will take them. -/
structure Sound (s : State) : Prop where
  ordered : s.Ordered
  live : s.LiveBut none

lemma Sound.settle_tick (h : Sound s) (id : Nat) (st : Status) (v : Value) :
    Sound ((s.settle id st v).callNextTick id) :=
  ⟨(h.ordered.congr (sameChains_settle s id st v)).congr (sameChains_callNextTick _ id),
    ((h.live.weaken _).modify rfl).callNextTick⟩

lemma Sound.adopt_tick (h : Sound s) (id q : Nat) : Sound ((s.adopt id q).callNextTick id) :=
  ⟨(h.ordered.congr (sameChains_adopt s id q)).congr (sameChains_callNextTick _ id),
    (h.live.adopt id q).callNextTick⟩

/-- A change of an object that leaves its status and its subscribers alone. -/
lemma Sound.modify (h : Sound s) {f : Object → Object}
    (hs : (f (s.heap id)).promiseStatus = (s.heap id).promiseStatus)
    (hc : (f (s.heap id)).chain = (s.heap id).chain)
    (hj : (f (s.heap id)).joined = (s.heap id).joined)
    (hr : (f (s.heap id)).ran = (s.heap id).ran) : Sound (s.modify id f) :=
  ⟨h.ordered.congr (sameChains_modify s id hc hj hr), h.live.modify_status hs hc⟩

lemma Sound.subscribe (h : Sound s) (hq : q < s.size) (hst : s.status q = .pending) :
    Sound (s.subscribe q sub) := ⟨h.ordered.subscribe hq, h.live.subscribe (.inr hst)⟩

lemma Sound.param_resolve (h : Sound s) {v : Value} (hv : s.ofHeap v) :
    Sound (s.promise_param_resolve id v) := by
  unfold promise_param_resolve
  have h₁ : Sound (s.modify id fun o => { o with called := true }) := h.modify rfl rfl rfl rfl
  generalize ht : s.modify id (fun o => { o with called := true }) = t at h₁
  have hsize : t.size = s.size := ht ▸ rfl
  dsimp only
  split
  · split
    · next q =>
      split
      · exact h₁.adopt_tick id q
      · next hq =>
        refine h₁.subscribe ?_ (by simpa using hq)
        rw [hsize]
        simpa [ofHeap] using hv
    · exact h₁.settle_tick id _ _
  · exact h₁

lemma Sound.param_reject (h : Sound s) (v : Value) : Sound (s.promise_param_reject id v) := by
  unfold promise_param_reject
  have h₁ : Sound (s.modify id fun o => { o with called := true }) := h.modify rfl rfl rfl rfl
  dsimp only
  split
  · exact h₁.settle_tick id _ _
  · exact h₁

/-- Whether the walk of `id` may start: no other walk has subscribers of `id` left. -/
def MayWalk (s : State) (id : Nat) : Prop := (s.heap id).chain = [] ∨ rests s.control id = []

instance (s : State) (id : Nat) : Decidable (s.MayWalk id) := inferInstanceAs (Decidable (_ ∨ _))

lemma MayWalk.congr (h : s.MayWalk id) (hst : SameChains s t) : t.MayWalk id := by
  rw [MayWalk]
  rwa [hst.chain, hst.control]

lemma Sound.settle_walk (h : Sound s) (hid : s.MayWalk id) (st : Status) (v : Value) :
    Sound ((s.settle id st v).promise_handle_thens id) := by
  have hsame := sameChains_settle s id st v
  exact ⟨(h.ordered.congr hsame).promise_handle_thens (hid.congr hsame),
    ((h.live.weaken _).modify rfl).handleThens⟩

lemma Sound.handlerResult (h : Sound s) (hid : s.MayWalk id) {result : Except Value Value}
    (hv : ∀ v, result = .ok v → s.ofHeap v) : Sound (s.handlerResult id result) := by
  unfold State.handlerResult
  split
  · next q =>
    split
    · have hsame := sameChains_adopt s id q
      exact ⟨(h.ordered.congr hsame).promise_handle_thens (hid.congr hsame),
        (h.live.adopt id q).handleThens⟩
    · next hq =>
      have h₁ : Sound (s.modify id fun o => { o with thenHandler := none, catchHandler := none }) :=
        h.modify rfl rfl rfl rfl
      refine h₁.subscribe (by simpa [ofHeap] using hv _ rfl) ?_
      rw [not_not] at hq
      by_cases hqid : q = id
      · subst hqid
        simpa [status] using hq
      · simpa [status, hqid] using hq
  · exact h.settle_walk hid _ _
  · exact h.settle_walk hid _ _

lemma all_resolved_result (s : State) (this : Nat) (v : Value) :
    (s.promise_all_resolved this v).1 = .ok .undefined ∨
      (s.promise_all_resolved this v).1 = .error .typeError := by
  unfold promise_all_resolved
  dsimp only
  split
  · exact .inr rfl
  · split
    · exact .inr rfl
    · split
      · exact .inl rfl
      · exact .inl rfl

lemma Sound.all_resolved (h : Sound s) (this : Nat) (v : Value) :
    Sound (s.promise_all_resolved this v).2 := by
  refine ⟨h.ordered.congr (sameChains_all_resolved s this v), ?_⟩
  have hput {target : Value} {i : Nat} {t : State} (ht : s.putIndex target i v = some t) :
      t.LiveBut none := by
    cases target with
    | undefined => simp [putIndex] at ht
    | plain n => simp [putIndex] at ht
    | object n => exact Option.some.inj ht ▸ h.live
    | promise id => exact Option.some.inj ht ▸ h.live
    | array id => exact Option.some.inj ht ▸ h.live.modify_status rfl rfl
    | typeError => exact Option.some.inj ht ▸ h.live
  unfold promise_all_resolved
  dsimp only
  split
  · exact h.live
  · split
    · exact h.live
    · next hput' =>
      split
      · exact ((hput hput').weaken _).modify rfl |>.callNextTick
      · dsimp only
        exact (hput hput').modify_status rfl rfl

/-- The loop of `promise_all` leaves the chain of its own promise empty. -/
lemma Sound.allLoop (h : Sound s) (hid : (s.heap id).chain = []) (hsize : id < s.size)
    {elems : List Value} (helems : ∀ q, .promise q ∈ elems → q < id) (left : Int) (i : Nat) :
    Sound (s.allLoop id left elems i) := by
  induction elems generalizing s left i with
  | nil =>
    refine ⟨h.ordered.congr (sameChains_modify s id rfl rfl rfl), ?_⟩
    exact ((h.live.weaken _).modify rfl).of_nil (by simpa using hid)
  | cons v elems ih =>
    have hput (v : Value) : Sound ((s.modify id fun o =>
        { o with result := setAt o.result i v }).allLoop id left elems (i + 1)) :=
      ih (h.modify rfl rfl rfl rfl) (by simpa using hid) hsize
        (fun q hq => helems q (List.mem_cons_of_mem _ hq)) left (i + 1)
    unfold State.allLoop
    dsimp only
    split
    · next q =>
      have hq : q < id := helems q List.mem_cons_self
      split
      · exact hput _
      · exact h.adopt_tick id q
      · next hst =>
        have hne : q ≠ s.size := by omega
        refine ih ((?_ : Sound (s.alloc (waiter id i))).subscribe ?_ ?_) ?_ ?_ ?_ _ _
        · exact ⟨h.ordered.alloc rfl rfl rfl, h.live.alloc rfl⟩
        · rw [alloc_size]
          omega
        · simpa [status, hne] using hst
        · have hidq : id ≠ q := by omega
          have hids : id ≠ s.size := by omega
          simpa [State.subscribe, hidq, hids] using hid
        · change id < s.size + 1
          omega
        · exact fun q hq => helems q (List.mem_cons_of_mem _ hq)
    · exact hput _

lemma Sound.raceLoop (h : Sound s) (hid : (s.heap id).chain = []) (hsize : id < s.size)
    {elems : List Value} (helems : ∀ q, .promise q ∈ elems → q < id) :
    Sound (s.raceLoop id elems) := by
  induction elems generalizing s with
  | nil =>
    refine ⟨h.ordered.congr (sameChains_modify s id rfl rfl rfl), ?_⟩
    exact ((h.live.weaken _).modify rfl).of_nil (by simpa using hid)
  | cons v elems ih =>
    unfold State.raceLoop
    split
    · next q =>
      have hq : q < id := helems q List.mem_cons_self
      split
      · have hsame := sameChains_adopt s id q
        exact ⟨h.ordered.congr hsame, (h.live.adopt id q).of_nil ((hsame.chain id).trans hid)⟩
      · exact h.adopt_tick id q
      · next hst =>
        refine ih (h.subscribe (by omega) hst) ?_ hsize
          (fun q hq => helems q (List.mem_cons_of_mem _ hq))
        have hne : id ≠ q := by omega
        simpa [State.subscribe, hne] using hid
    · have hsame := sameChains_settle s id .fulfilled v
      exact ⟨h.ordered.congr hsame,
        ((h.live.weaken _).modify rfl).of_nil ((hsame.chain id).trans hid)⟩

/-- A new promise. -/
lemma Sound.alloc (h : Sound s) {o : Object} (hc : o.chain = []) (hj : o.joined = [])
    (hr : o.ran = []) : Sound (s.alloc o) := ⟨h.ordered.alloc hc hj hr, h.live.alloc hc⟩

lemma Sound.then_catch (h : Sound s) {this : Nat} (hthis : this < s.size)
    (onThen onCatch : Option Nat) : Sound (s.promise_then_catch this onThen onCatch) := by
  rw [promise_then_catch]
  dsimp only
  generalize ho : { Object.new .pending .undefined with
    thenHandler := onThen.map .user, catchHandler := onCatch.map .user } = o
  have h₁ : Sound (s.alloc o) := h.alloc (by rw [← ho]; rfl) (by rw [← ho]; rfl) (by rw [← ho]; rfl)
  have hord : Ordered ((s.alloc o).subscribe this s.size) :=
    h₁.ordered.subscribe (by rw [alloc_size]; omega)
  have hne : this ≠ s.size := by omega
  split
  · exact ⟨hord.congr (sameChains_callNextTick _ this),
      ((h₁.live.weaken _).subscribe (.inl rfl)).callNextTick⟩
  · next hst =>
    refine ⟨hord, h₁.live.subscribe (.inr ?_)⟩
    rw [not_not] at hst
    simpa [status, hne] using hst

/-! ### The steps -/

/-- The subscriber whose handler the walk runs has a handler of the user. -/
def callsUser (s : State) (st : Status) (sub : Nat) : Bool :=
  match (if st = .fulfilled then (s.heap sub).thenHandler else (s.heap sub).catchHandler) with
  | some (.user _) => true
  | _ => false

/-- The end of a walk throws an unhandled rejection. -/
def Throws (s : State) (id : Nat) (st : Status) (count : Nat) : Prop :=
  count = 0 ∧ st = .rejected ∧ (s.heap id).warnedUnhandled = false ∧ s.dukFlagStop = false

/-- An input neither starts the walk of a promise whose earlier subscribers still wait in another
walk, nor throws an unhandled rejection through a walk that has subscribers left. -/
def Keeps (s : State) : Input → Prop
  | .walk =>
    match s.control with
    | .handleThens id st value (sub :: rest) count :: frames =>
      s.callsUser st sub = true ∨
        MayWalk { s with control := .handleThens id st value rest count :: frames } sub
    | .handleThens id st _ [] count :: frames => s.Throws id st count → ∀ p, rests frames p = []
    | _ => True
  | .userReturn _ =>
    match s.control with
    | .pcall sub :: frames => MayWalk { s with control := frames } sub
    | _ => True
  | _ => True

lemma Sound.control (h : Sound s) {control : List Frame}
    (hc : ∀ p, rests control p = rests s.control p) : Sound { s with control := control } :=
  ⟨h.ordered.frames hc, h.live⟩

lemma Sound.walkNext (h : Sound s) {st : Status} (hw : s.callsUser st sub = true ∨ s.MayWalk sub)
    (v : Value) : Sound (s.walkNext st v sub) := by
  rw [State.walkNext]
  have hnot (hcall : s.callsUser st sub = false) : s.MayWalk sub :=
    hw.resolve_left (by simp [hcall])
  split
  · next hn => exact h.settle_walk (hnot (by rw [callsUser, hn])) st v
  · exact ⟨⟨h.ordered.order, h.ordered.fresh⟩, h.live⟩
  · next hn =>
    refine (h.all_resolved sub v).handlerResult
      ((hnot (by rw [callsUser, hn])).congr (sameChains_all_resolved s sub v)) ?_
    intro w hw
    rcases all_resolved_result s sub v with hok | hok
    · cases hok.symm.trans hw
      rfl
    · cases hok.symm.trans hw
  · next hn =>
    refine Sound.handlerResult (h.settle_tick _ _ _)
      ((hnot (by rw [callsUser, hn])).congr (sameChains_all_rejected s sub v)) ?_
    rintro w ⟨⟩
    rfl

/-- The walk takes the next subscriber. -/
lemma Ordered.take (h : Ordered s) {st : Status} {v : Value} {rest : List Nat} {count : Nat}
    {frames : List Frame} (hctl : s.control = .handleThens id st v (sub :: rest) count :: frames) :
    Ordered (State.modify { s with control := .handleThens id st v rest count :: frames } id
      fun o => { o with ran := o.ran ++ [sub] }) := by
  have hrests (p : Nat) : rests s.control p =
      (if id = p then [sub] else []) ++ rests (.handleThens id st v rest count :: frames) p := by
    rw [hctl]
    by_cases hp : id = p <;> simp [Frame.restOf, hp]
  refine ⟨fun p => ?_, fun p hp => ?_⟩
  · have hord := h.order p
    rw [hrests p] at hord
    by_cases hp : p = id
    · subst hp
      simpa using hord
    · have hne : ¬id = p := fun heq => hp heq.symm
      simpa [hp, hne] using hord
  · by_cases hpid : p = id
    · subst hpid
      simpa using h.fresh p hp
    · simpa [hpid] using h.fresh p hp

lemma Sound.walk (h : Sound s) (hk : s.Keeps .walk) : Sound s.walk := by
  rw [State.walk]
  simp only [Keeps] at hk
  split
  · next id st v sub rest count frames hctl =>
    rw [hctl] at hk
    dsimp only at hk ⊢
    refine Sound.walkNext ⟨h.ordered.take hctl, ?_⟩ ?_ v
    · have hl : LiveBut { s with control := .handleThens id st v rest count :: frames } none :=
        h.live
      exact hl.modify_status (f := fun o => { o with ran := o.ran ++ [sub] }) rfl rfl
    · refine hk.imp (fun hcall => ?_) fun hw => ?_
      · by_cases hid : sub = id
        · subst hid
          simpa [callsUser] using hcall
        · simpa [callsUser, hid] using hcall
      · unfold MayWalk at hw ⊢
        by_cases hid : sub = id
        · subst hid
          simpa using hw
        · simpa [hid] using hw
  · next id st v count frames hctl =>
    rw [hctl] at hk
    dsimp only at hk
    have hpop : Sound { s with control := frames } :=
      h.control fun p => by simp [hctl, Frame.restOf]
    rw [walkEnd]
    split
    · next hend =>
      split
      · exact hpop
      · next hwarned =>
        have hwarn : Sound (State.modify { s with control := frames } id
            fun o => { o with warnedUnhandled := true }) := hpop.modify rfl rfl rfl rfl
        dsimp only
        split
        · exact hwarn
        · next hstop =>
          have hnil := hk ⟨hend.1, hend.2, by simpa using hwarned, eq_false_of_ne_true hstop⟩
          have hthrow : Sound { State.modify { s with control := frames } id
              (fun o => { o with warnedUnhandled := true }) with control := [] } :=
            hwarn.control fun p => (hnil p).symm
          exact ⟨⟨hthrow.ordered.order, hthrow.ordered.fresh⟩, hthrow.live⟩
    · split
      · exact hpop.modify rfl rfl rfl rfl
      · exact hpop
  · exact h

lemma Sound.tick (h : Sound s) (hctl : s.control = []) : Sound s.tick := by
  rw [State.tick]
  split
  · exact h
  · next id ticks hticks =>
    refine ⟨Ordered.promise_handle_thens ⟨h.ordered.order, h.ordered.fresh⟩ (.inr ?_), ?_⟩
    · simp [hctl]
    · refine LiveBut.handleThens fun p hp hst hc => ?_
      have hmem := h.live p (by simp) hst hc
      rw [hticks] at hmem
      exact (List.mem_cons.mp hmem).resolve_left (by simpa using hp)

lemma Sound.userReturn (h : Sound s) {result : Except Value Value}
    (hk : s.Keeps (.userReturn result)) (hv : ∀ v, result = .ok v → s.ofHeap v) :
    Sound (s.userReturn result) := by
  rw [State.userReturn]
  simp only [Keeps] at hk
  split
  · next sub frames hctl =>
    rw [hctl] at hk
    have hpop : Sound { s with control := frames } :=
      h.control fun p => by simp [hctl, Frame.restOf]
    exact hpop.handlerResult hk hv
  · next this frames hctl =>
    have hpop : Sound { s with control := frames } :=
      h.control fun p => by simp [hctl, Frame.restOf]
    split
    · exact hpop
    · exact hpop.param_reject _
  · exact h

lemma ofHeap_all {elems : List Value} (h : elems.all s.ofHeap = true) {q : Nat}
    (hq : .promise q ∈ elems) : q < s.size := by
  simpa [ofHeap] using List.all_eq_true.mp h _ hq

/-- A step keeps the order of the subscribers. -/
theorem Sound.step (h : Sound s) {i : Input} (hk : s.Keeps i) : Sound (s.step i) := by
  unfold State.step
  split
  · next hen =>
    cases i with
    | construct =>
      have halloc := h.alloc (o := { Object.new .pending .undefined with constructed := true })
        rfl rfl rfl
      exact halloc.control fun p => rfl
    | resolve id v =>
      simp only [enabled, Bool.and_eq_true] at hen
      exact h.param_resolve hen.2
    | reject id v => exact h.param_reject v
    | thenCatch id onThen onCatch =>
      simp only [enabled, Bool.and_eq_true, decide_eq_true_eq] at hen
      exact h.then_catch hen.2 onThen onCatch
    | all elems =>
      simp only [enabled, Bool.and_eq_true] at hen
      refine (h.alloc rfl rfl rfl).allLoop (by simp [Object.new]) (Nat.lt_succ_self _)
        (fun q hq => ofHeap_all hen.2 hq) 0 0
    | race elems =>
      simp only [enabled, Bool.and_eq_true] at hen
      refine (h.alloc rfl rfl rfl).raceLoop (by simp [Object.new]) (Nat.lt_succ_self _)
        (fun q hq => ofHeap_all hen.2 hq)
    | promiseResolve v =>
      change Sound (s.promise_resolve v)
      unfold promise_resolve
      split
      · exact h
      · exact h.alloc rfl rfl rfl
    | promiseReject v =>
      have halloc := h.alloc (o := .new .rejected v) rfl rfl rfl
      exact ⟨halloc.ordered.congr (sameChains_callNextTick _ _),
        (halloc.live.weaken _).callNextTick⟩
    | userReturn result =>
      refine h.userReturn hk ?_
      rintro v rfl
      simp only [enabled, Bool.and_eq_true] at hen
      exact hen.2
    | walk => exact h.walk hk
    | tick =>
      simp only [enabled, Bool.and_eq_true, List.isEmpty_iff] at hen
      exact h.tick hen.1
    | stop => exact ⟨⟨h.ordered.order, h.ordered.fresh⟩, h.live⟩
  · exact h

lemma sound_init : Sound init :=
  ⟨⟨fun _ => rfl, fun _ _ => rfl⟩, fun _ _ hst _ => absurd rfl hst⟩

/-- The subscribers are taken in order, and all of them if nothing is left to run. -/
lemma Sound.inOrder (h : Sound s) (p : Nat) : (s.heap p).ran <+: (s.heap p).joined ∧
    (s.control = [] → s.ticks = [] → s.status p ≠ .pending → (s.heap p).ran = (s.heap p).joined) := by
  constructor
  · rw [h.ordered.order p, List.append_assoc]
    exact List.prefix_append _ _
  · intro hctl hticks hst
    have hchain : (s.heap p).chain = [] := by
      by_contra hne
      have hmem := h.live p (by simp) hst hne
      simp [hticks] at hmem
    simp [h.ordered.order p, hctl, hchain]

end State

/-- A promise with two subscribers is rejected. The first one passes the rejection on to a derived
promise without subscribers, and the second one is never called. -/
def rejectedWithTwo : List Input :=
  [.construct, .userReturn (.ok .undefined), .thenCatch 0 (some 1) none, .thenCatch 0 none (some 2),
    .reject 0 (.plain 7), .tick, .walk, .walk]

end LowJs.Promise
