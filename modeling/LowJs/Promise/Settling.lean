import LowJs.Promise.Subscribers

/-!
# Settled promises

Six functions write the status and the value of a promise. They leave a settled promise alone as
long as they meet a pending one: a promise that has been resolved with a pending promise must not
be resolved or rejected again, a walk must not meet a subscriber that has been settled from
elsewhere, and the promise of `Promise.all` must be pending when one of its elements decides it.
-/

namespace LowJs.Promise

/-- `Promise.all` has bound a handler to the object. -/
def Object.Waits (o : Object) : Prop :=
  ∃ h, (o.thenHandler = some h ∨ o.catchHandler = some h) ∧ (h = .allResolved ∨ h = .allRejected)

namespace State

variable {s t u : State} {n id q sub : Nat}

/-- The promises below `n` that are settled in `s` have the same status and value in `t`. -/
structure Kept (n : Nat) (s t : State) : Prop where
  size : s.size ≤ t.size
  status : ∀ id < n, s.status id ≠ .pending → t.status id = s.status id
  value : ∀ id < n, s.status id ≠ .pending → (t.heap id).value = (s.heap id).value

lemma Kept.refl (n : Nat) (s : State) : Kept n s s := ⟨le_rfl, fun _ _ _ => rfl, fun _ _ _ => rfl⟩

lemma Kept.trans (h : Kept n s t) (h' : Kept n t u) : Kept n s u := by
  refine ⟨h.size.trans h'.size, fun id hid hst => ?_, fun id hid hst => ?_⟩
  · have hst' : t.status id ≠ .pending := by rwa [h.status id hid hst]
    rw [h'.status id hid hst', h.status id hid hst]
  · have hst' : t.status id ≠ .pending := by rwa [h.status id hid hst]
    rw [h'.value id hid hst', h.value id hid hst]

lemma kept_of_heap (hsize : t.size = s.size) (hheap : t.heap = s.heap) : Kept n s t :=
  ⟨hsize.ge, fun id _ _ => by rw [State.status, State.status, hheap], fun id _ _ => by rw [hheap]⟩

lemma kept_modify (s : State) (id : Nat) {f : Object → Object}
    (hs : (f (s.heap id)).promiseStatus = (s.heap id).promiseStatus)
    (hv : (f (s.heap id)).value = (s.heap id).value) : Kept n s (s.modify id f) := by
  refine ⟨le_rfl, fun p _ _ => ?_, fun p _ _ => ?_⟩
  all_goals
    by_cases hp : p = id
    · subst hp
      simpa [State.status]
    · simp [State.status, hp]

/-- An object that is pending or new may change in every way. -/
lemma kept_of_open (h : s.status id = .pending ∨ n ≤ id) (f : Object → Object) :
    Kept n s (s.modify id f) := by
  have hne {p : Nat} (hp : p < n) (hst : s.status p ≠ .pending) : p ≠ id := by
    rintro rfl
    exact h.elim hst (not_le.mpr hp)
  refine ⟨le_rfl, fun p hp hst => ?_, fun p hp hst => ?_⟩
  · simp [State.status, hne hp hst]
  · simp [hne hp hst]

lemma kept_adopt (h : s.status id = .pending ∨ n ≤ id) (q : Nat) : Kept n s (s.adopt id q) := by
  have hset : Kept n s (s.settle id (s.status q) (s.heap q).value) := kept_of_open h _
  unfold adopt
  dsimp only
  split
  · exact hset.trans (kept_modify _ q rfl rfl)
  · exact hset

lemma kept_callNextTick (s : State) (id : Nat) : Kept n s (s.callNextTick id) := kept_of_heap rfl rfl

lemma kept_subscribe (s : State) (q sub : Nat) : Kept n s (s.subscribe q sub) :=
  kept_modify s q rfl rfl

lemma kept_alloc (h : n ≤ s.size) (o : Object) : Kept n s (s.alloc o) := by
  have hne {p : Nat} (hp : p < n) : p ≠ s.size := by omega
  refine ⟨Nat.le_succ _, fun p hp _ => ?_, fun p hp _ => ?_⟩
  · simp [State.status, hne hp]
  · simp [hne hp]

lemma kept_handle_thens (s : State) (id : Nat) : Kept n s (s.promise_handle_thens id) :=
  (kept_modify s id (f := fun o => { o with chain := [] }) rfl rfl).trans (kept_of_heap rfl rfl)

/-! ### The functions -/

lemma kept_param_resolve (v : Value) : Kept n s (s.promise_param_resolve id v) := by
  unfold promise_param_resolve
  have h₁ : Kept n s (s.modify id fun o => { o with called := true }) := kept_modify s id rfl rfl
  refine h₁.trans ?_
  dsimp only
  split
  · next hst =>
    split
    · split
      · exact (kept_adopt (.inl hst) _).trans (kept_callNextTick _ id)
      · exact kept_subscribe _ _ id
    · exact (kept_of_open (.inl hst) _).trans (kept_callNextTick _ id)
  · exact .refl n _

lemma kept_param_reject (v : Value) : Kept n s (s.promise_param_reject id v) := by
  unfold promise_param_reject
  have h₁ : Kept n s (s.modify id fun o => { o with called := true }) := kept_modify s id rfl rfl
  refine h₁.trans ?_
  dsimp only
  split
  · next hst => exact (kept_of_open (.inl hst) _).trans (kept_callNextTick _ id)
  · exact .refl n _

lemma kept_handlerResult (h : s.status sub = .pending) (result : Except Value Value) :
    Kept n s (s.handlerResult sub result) := by
  unfold handlerResult
  split
  · split
    · exact (kept_adopt (.inl h) _).trans (kept_handle_thens _ sub)
    · have h₁ : Kept n s (s.modify sub fun o =>
          { o with thenHandler := none, catchHandler := none }) := kept_modify s sub rfl rfl
      exact h₁.trans (kept_subscribe _ _ sub)
  · exact (kept_of_open (.inl h) _).trans (kept_handle_thens _ sub)
  · exact (kept_of_open (.inl h) _).trans (kept_handle_thens _ sub)

lemma kept_putIndex {target v : Value} {i : Nat} (h : s.putIndex target i v = some t) :
    Kept n s t ∧ t.status = s.status := by
  cases target with
  | undefined => simp [putIndex] at h
  | plain k => simp [putIndex] at h
  | object k => exact Option.some.inj h ▸ ⟨.refl n s, rfl⟩
  | promise id => exact Option.some.inj h ▸ ⟨.refl n s, rfl⟩
  | array id =>
    refine Option.some.inj h ▸ ⟨kept_modify s id rfl rfl, ?_⟩
    funext p
    by_cases hp : p = id
    · subst hp
      simp [State.status]
    · simp [State.status, hp]
  | typeError => exact Option.some.inj h ▸ ⟨.refl n s, rfl⟩

/-- The last element is fulfilled only while the promise of `Promise.all` is pending. -/
lemma kept_all_resolved (h : (s.heap (s.heap sub).promise).left = some 1 →
    s.status (s.heap sub).promise = .pending) (v : Value) :
    Kept n s (s.promise_all_resolved sub v).2 := by
  unfold promise_all_resolved
  dsimp only
  split
  · exact .refl n s
  · next left hleft =>
    split
    · exact .refl n s
    · next t hput =>
      obtain ⟨hkept, hstatus⟩ := kept_putIndex (n := n) hput
      split
      · next hlast =>
        have hone : left = 1 := by omega
        have hst : t.status (s.heap sub).promise = .pending := by
          rw [hstatus]
          exact h (by rw [hleft, hone])
        exact (hkept.trans (kept_of_open (.inl hst) _)).trans (kept_callNextTick _ _)
      · dsimp only
        exact hkept.trans (kept_modify _ _ rfl rfl)

lemma kept_allLoop (hid : n ≤ id) (hn : n ≤ s.size) (left : Int) (elems : List Value) (i : Nat) :
    Kept n s (s.allLoop id left elems i) := by
  induction elems generalizing s left i with
  | nil => exact kept_of_open (.inr hid) _
  | cons v elems ih =>
    have hput (v : Value) : Kept n s ((s.modify id fun o =>
        { o with result := setAt o.result i v }).allLoop id left elems (i + 1)) :=
      (kept_modify s id (f := fun o => { o with result := setAt o.result i v }) rfl rfl).trans
        (ih (s := s.modify id _) hn left (i + 1))
    unfold allLoop
    dsimp only
    split
    · split
      · exact hput _
      · exact (kept_adopt (.inr hid) _).trans (kept_callNextTick _ id)
      · refine ((kept_alloc hn _).trans (kept_subscribe _ _ s.size)).trans (ih ?_ _ _)
        exact hn.trans (Nat.le_succ _)
    · exact hput _

lemma kept_raceLoop (hid : n ≤ id) (elems : List Value) : Kept n s (s.raceLoop id elems) := by
  induction elems generalizing s with
  | nil => exact kept_of_open (.inr hid) _
  | cons v elems ih =>
    unfold raceLoop
    split
    · split
      · exact kept_adopt (.inr hid) _
      · exact (kept_adopt (.inr hid) _).trans (kept_callNextTick _ id)
      · exact (kept_subscribe s _ id).trans ih
    · exact kept_of_open (.inr hid) _

/-! ### The objects that wait for the elements of `Promise.all` -/

/-- An object that waits is younger than the promise that it waits for. -/
def WaitsForOlder (s : State) : Prop := ∀ p, (s.heap p).Waits → (s.heap p).promise < p

lemma WaitsForOlder.of_heap (h : s.WaitsForOlder) (heq : t.heap = s.heap) : t.WaitsForOlder := by
  intro p
  rw [heq]
  exact h p

lemma WaitsForOlder.modify (h : s.WaitsForOlder) {f : Object → Object}
    (hw : (f (s.heap id)).Waits → (s.heap id).Waits)
    (hp : (f (s.heap id)).promise = (s.heap id).promise) : (s.modify id f).WaitsForOlder := by
  intro p
  by_cases hpid : p = id
  · subst hpid
    simp only [modify_heap, if_true]
    rw [hp]
    exact fun hwaits => h p (hw hwaits)
  · simpa [hpid] using h p

lemma WaitsForOlder.callNextTick (h : s.WaitsForOlder) (id : Nat) :
    (s.callNextTick id).WaitsForOlder := h

lemma WaitsForOlder.handle_thens (h : s.WaitsForOlder) (id : Nat) :
    (s.promise_handle_thens id).WaitsForOlder :=
  have hmodify : (s.modify id fun o => { o with chain := [] }).WaitsForOlder :=
    h.modify (fun hw => hw) rfl
  hmodify.of_heap rfl

lemma WaitsForOlder.settle (h : s.WaitsForOlder) (id : Nat) (st : Status) (v : Value) :
    (s.settle id st v).WaitsForOlder := h.modify (fun hw => hw) rfl

lemma WaitsForOlder.adopt (h : s.WaitsForOlder) (id q : Nat) : (s.adopt id q).WaitsForOlder := by
  have hset : (s.settle id (s.status q) (s.heap q).value).WaitsForOlder := h.modify (fun hw => hw) rfl
  unfold State.adopt
  dsimp only
  split
  · exact hset.modify (fun hw => hw) rfl
  · exact hset

lemma WaitsForOlder.alloc (h : s.WaitsForOlder) {o : Object} (ho : o.Waits → o.promise < s.size) :
    (s.alloc o).WaitsForOlder := by
  intro p
  by_cases hp : p = s.size
  · subst hp
    simpa using ho
  · simpa [hp] using h p

lemma WaitsForOlder.handlerResult (h : s.WaitsForOlder) (sub : Nat) (result : Except Value Value) :
    (s.handlerResult sub result).WaitsForOlder := by
  unfold State.handlerResult
  split
  · split
    · exact (h.adopt sub _).handle_thens sub
    · refine WaitsForOlder.modify ?_ (fun hw => hw) rfl
      refine h.modify (fun hw => ?_) rfl
      simp [Object.Waits] at hw
  · exact (h.settle sub _ _).handle_thens sub
  · exact (h.settle sub _ _).handle_thens sub

lemma WaitsForOlder.all_resolved (h : s.WaitsForOlder) (this : Nat) (v : Value) :
    (s.promise_all_resolved this v).2.WaitsForOlder := by
  unfold promise_all_resolved
  dsimp only
  split
  · exact h
  · split
    · exact h
    · next t hput =>
      have ht : t.WaitsForOlder := by
        revert hput
        cases (s.heap (s.heap this).promise).value with
        | undefined => simp [putIndex]
        | plain k => simp [putIndex]
        | object k => exact fun hput => Option.some.inj hput ▸ h
        | promise k => exact fun hput => Option.some.inj hput ▸ h
        | array k => exact fun hput => Option.some.inj hput ▸ h.modify (fun hw => hw) rfl
        | typeError => exact fun hput => Option.some.inj hput ▸ h
      split
      · refine WaitsForOlder.callNextTick ?_ _
        exact ht.modify (fun hw => hw) rfl
      · dsimp only
        exact ht.modify (fun hw => hw) rfl

lemma WaitsForOlder.allLoop (h : s.WaitsForOlder) (hid : id < s.size) (left : Int)
    (elems : List Value) (i : Nat) : (s.allLoop id left elems i).WaitsForOlder := by
  induction elems generalizing s left i with
  | nil => exact h.modify (fun hw => hw) rfl
  | cons v elems ih =>
    have hput (v : Value) : ((s.modify id fun o =>
        { o with result := setAt o.result i v }).allLoop id left elems (i + 1)).WaitsForOlder :=
      ih (s := s.modify id _) (h.modify (fun hw => hw) rfl) hid left (i + 1)
    unfold State.allLoop
    dsimp only
    split
    · split
      · exact hput _
      · exact (h.adopt id _).callNextTick id
      · refine ih (WaitsForOlder.modify (h.alloc fun _ => hid) (fun hw => hw) rfl) ?_ _ _
        exact hid.trans (Nat.lt_succ_self _)
    · exact hput _

lemma WaitsForOlder.raceLoop (h : s.WaitsForOlder) (id : Nat) (elems : List Value) :
    (s.raceLoop id elems).WaitsForOlder := by
  induction elems generalizing s with
  | nil => exact h.modify (fun hw => hw) rfl
  | cons v elems ih =>
    unfold State.raceLoop
    split
    · split
      · exact h.adopt id _
      · exact (h.adopt id _).callNextTick id
      · exact ih (h.modify (fun hw => hw) rfl)
    · exact h.modify (fun hw => hw) rfl

/-! ### The steps -/

/-- A handler that `Promise.all` has bound to the object decides its promise only while that is
pending: by a rejection, or by the last value. -/
def DecidesPending (s : State) (st : Status) (sub : Nat) : Prop :=
  match (if st = .fulfilled then (s.heap sub).thenHandler else (s.heap sub).catchHandler) with
  | some .allResolved =>
    (s.heap (s.heap sub).promise).left = some 1 → s.status (s.heap sub).promise = .pending
  | some .allRejected => s.status (s.heap sub).promise = .pending
  | _ => True

/-- What an input settles is pending: a promise that is resolved or rejected has been neither
before, or is settled; the subscriber whose turn it is in a walk, or whose handler returns, is
pending, and so is the promise of `Promise.all` that it decides. -/
def SettlesPending (s : State) : Input → Prop
  | .resolve id _ => s.status id = .pending → (s.heap id).called = false
  | .reject id _ => s.status id = .pending → (s.heap id).called = false
  | .userReturn result =>
    match s.control with
    | .pcall sub :: _ => s.status sub = .pending
    | .executor this :: _ =>
      (∃ reason, result = .error reason) → s.status this = .pending → (s.heap this).called = false
    | _ => True
  | .walk =>
    match s.control with
    | .handleThens _ st _ (sub :: _) _ :: _ => s.status sub = .pending ∧ s.DecidesPending st sub
    | _ => True
  | _ => True

lemma WaitsForOlder.walk (h : s.WaitsForOlder) : s.walk.WaitsForOlder := by
  rw [State.walk]
  split
  · next id st v sub rest count frames hctl =>
    dsimp only
    have hpop : WaitsForOlder { s with control := .handleThens id st v rest count :: frames } := h
    have hwaits : (State.modify { s with control := .handleThens id st v rest count :: frames } id
        fun o => { o with ran := o.ran ++ [sub] }).WaitsForOlder := hpop.modify (fun hw => hw) rfl
    rw [walkNext]
    split
    · exact (hwaits.settle sub st v).handle_thens sub
    · exact hwaits.of_heap rfl
    · exact (hwaits.all_resolved sub v).handlerResult sub _
    · exact ((hwaits.settle _ _ v).callNextTick _).handlerResult sub _
  · next id st v count frames hctl =>
    have hpop : WaitsForOlder { s with control := frames } := h
    have hwarn : (State.modify { s with control := frames } id
        fun o => { o with warnedUnhandled := true }).WaitsForOlder := hpop.modify (fun hw => hw) rfl
    rw [walkEnd]
    split
    · split
      · exact hpop
      · dsimp only
        split
        · exact hwarn
        · exact hwarn.of_heap rfl
    · split
      · exact hwarn
      · exact hpop
  · exact h

lemma WaitsForOlder.param_resolve (h : s.WaitsForOlder) (id : Nat) (v : Value) :
    (s.promise_param_resolve id v).WaitsForOlder := by
  have h₁ : (s.modify id fun o => { o with called := true }).WaitsForOlder :=
    h.modify (fun hw => hw) rfl
  unfold promise_param_resolve
  dsimp only
  split
  · split
    · split
      · exact (h₁.adopt id _).callNextTick id
      · exact h₁.modify (fun hw => hw) rfl
    · exact (h₁.settle id _ _).callNextTick id
  · exact h₁

lemma WaitsForOlder.param_reject (h : s.WaitsForOlder) (id : Nat) (v : Value) :
    (s.promise_param_reject id v).WaitsForOlder := by
  have h₁ : (s.modify id fun o => { o with called := true }).WaitsForOlder :=
    h.modify (fun hw => hw) rfl
  unfold promise_param_reject
  dsimp only
  split
  · exact (h₁.settle id _ _).callNextTick id
  · exact h₁

/-- Objects wait for older promises in every reachable state. -/
theorem WaitsForOlder.step (h : s.WaitsForOlder) (i : Input) : (s.step i).WaitsForOlder := by
  unfold State.step
  split
  · cases i with
    | construct => exact (h.alloc fun hw => by simp [Object.Waits, Object.new] at hw).of_heap rfl
    | resolve id v => exact h.param_resolve id v
    | reject id v => exact h.param_reject id v
    | thenCatch id onThen onCatch =>
      have halloc : WaitsForOlder ((s.alloc { Object.new .pending .undefined with
          thenHandler := onThen.map .user
          catchHandler := onCatch.map .user }).subscribe id s.size) := by
        refine WaitsForOlder.modify (h.alloc fun hw => ?_) (fun hw => hw) rfl
        obtain ⟨h, hw, hall⟩ := hw
        rcases hall with rfl | rfl
        · simp at hw
        · simp at hw
      change (s.promise_then_catch id onThen onCatch).WaitsForOlder
      unfold promise_then_catch
      dsimp only
      split
      · exact halloc.of_heap rfl
      · exact halloc
    | all elems =>
      refine WaitsForOlder.allLoop (h.alloc fun hw => ?_) (Nat.lt_succ_self _) 0 elems 0
      simp [Object.Waits, Object.new] at hw
    | race elems =>
      refine WaitsForOlder.raceLoop (h.alloc fun hw => ?_) s.size elems
      simp [Object.Waits, Object.new] at hw
    | promiseResolve v =>
      change (s.promise_resolve v).WaitsForOlder
      unfold promise_resolve
      split
      · exact h
      · exact h.alloc fun hw => by simp [Object.Waits, Object.new] at hw
    | promiseReject v =>
      exact (h.alloc fun hw => by simp [Object.Waits, Object.new] at hw).of_heap rfl
    | userReturn result =>
      change (s.userReturn result).WaitsForOlder
      unfold State.userReturn
      split
      · next sub frames _ =>
        exact WaitsForOlder.handlerResult (s := { s with control := frames }) h sub result
      · next this frames _ =>
        split
        · exact h
        · exact WaitsForOlder.param_reject (s := { s with control := frames }) h this _
      · exact h
    | walk => exact h.walk
    | tick =>
      change s.tick.WaitsForOlder
      unfold State.tick
      split
      · exact h
      · exact WaitsForOlder.handle_thens (s := { s with ticks := _ }) h _
    | stop => exact h
  · exact h

/-- `promise_all_resolved` settles no object but its promise. -/
lemma all_resolved_status {v : Value} (hne : sub ≠ (s.heap sub).promise) :
    (s.promise_all_resolved sub v).2.status sub = s.status sub := by
  unfold promise_all_resolved
  dsimp only
  split
  · rfl
  · split
    · rfl
    · next t hput =>
      have ht : t.status sub = s.status sub := congrFun (kept_putIndex (n := 0) hput).2 sub
      split
      · simpa [status, hne] using ht
      · simpa [status, hne] using ht

lemma kept_walkNext {st : Status} (hwaits : s.WaitsForOlder) (hst : s.status sub = .pending)
    (hd : s.DecidesPending st sub) (v : Value) : Kept n s (s.walkNext st v sub) := by
  rw [walkNext]
  unfold DecidesPending at hd
  have hne {h : Handler} (hn : (if st = .fulfilled then (s.heap sub).thenHandler
      else (s.heap sub).catchHandler) = some h) (hh : h = .allResolved ∨ h = .allRejected) :
      sub ≠ (s.heap sub).promise := by
    refine (hwaits sub ⟨h, ?_, hh⟩).ne'
    split at hn
    · exact .inl hn
    · exact .inr hn
  split
  · exact (kept_of_open (.inl hst) _).trans (kept_handle_thens _ sub)
  · exact kept_of_heap rfl rfl
  · next hn =>
    rw [hn] at hd
    refine (kept_all_resolved hd v).trans (kept_handlerResult ?_ _)
    rw [all_resolved_status (hne hn (.inl rfl)), hst]
  · next hn =>
    rw [hn] at hd
    have hkept : Kept n s (s.promise_all_rejected sub v) :=
      (kept_of_open (.inl hd) _).trans (kept_callNextTick _ _)
    refine hkept.trans (kept_handlerResult ?_ _)
    have hsub := hne hn (.inr rfl)
    simp only [promise_all_rejected, settle, status, callNextTick_heap, modify_heap, if_neg hsub]
    exact hst

/-- A step under the condition leaves every settled promise alone. -/
theorem kept_step (hwaits : s.WaitsForOlder) {i : Input} (hok : s.SettlesPending i)
    (hn : n ≤ s.size) : Kept n s (s.step i) := by
  unfold State.step
  split
  · cases i with
    | construct => exact (kept_alloc hn _).trans (kept_of_heap rfl rfl)
    | resolve id v => exact kept_param_resolve v
    | reject id v => exact kept_param_reject v
    | thenCatch id onThen onCatch =>
      change Kept n s (s.promise_then_catch id onThen onCatch)
      unfold promise_then_catch
      dsimp only
      split
      · exact ((kept_alloc hn _).trans (kept_subscribe _ id s.size)).trans (kept_callNextTick _ id)
      · exact (kept_alloc hn _).trans (kept_subscribe _ id s.size)
    | all elems => exact (kept_alloc hn _).trans (kept_allLoop hn (hn.trans (Nat.le_succ _)) 0 elems 0)
    | race elems => exact (kept_alloc hn _).trans (kept_raceLoop hn elems)
    | promiseResolve v =>
      change Kept n s (s.promise_resolve v)
      unfold promise_resolve
      split
      · exact .refl n s
      · exact kept_alloc hn _
    | promiseReject v => exact (kept_alloc hn _).trans (kept_callNextTick _ _)
    | userReturn result =>
      change Kept n s (s.userReturn result)
      unfold State.userReturn
      simp only [SettlesPending] at hok
      split
      · next sub frames hctl =>
        rw [hctl] at hok
        have hpop : Kept n s { s with control := frames } := kept_of_heap rfl rfl
        exact hpop.trans (kept_handlerResult (s := { s with control := frames }) hok result)
      · next this frames hctl =>
        have hpop : Kept n s { s with control := frames } := kept_of_heap rfl rfl
        split
        · exact hpop
        · exact hpop.trans (kept_param_reject _)
      · exact .refl n s
    | walk =>
      change Kept n s s.walk
      unfold State.walk
      simp only [SettlesPending] at hok
      split
      · next id st v sub rest count frames hctl =>
        rw [hctl] at hok
        obtain ⟨hst, hd⟩ := hok
        have hpop : Kept n s { s with control := .handleThens id st v rest count :: frames } :=
          kept_of_heap rfl rfl
        have hw : WaitsForOlder { s with control := .handleThens id st v rest count :: frames } :=
          hwaits
        refine (hpop.trans (kept_modify _ id (f := fun o => { o with ran := o.ran ++ [sub] }) rfl
          rfl)).trans (kept_walkNext (hw.modify (fun hw => hw) rfl) ?_ ?_ v)
        · simpa [State.status, apply_ite] using hst
        · unfold DecidesPending at hd ⊢
          simpa [State.status, apply_ite] using hd
      · next id st v count frames hctl =>
        have hpop : Kept n s { s with control := frames } := kept_of_heap rfl rfl
        have hwarn := hpop.trans (kept_modify (n := n) { s with control := frames } id
          (f := fun o => { o with warnedUnhandled := true }) rfl rfl)
        unfold walkEnd
        split
        · split
          · exact hpop
          · dsimp only
            split
            · exact hwarn
            · exact hwarn.trans (kept_of_heap rfl rfl)
        · split
          · exact hwarn
          · exact hpop
      · exact .refl n s
    | tick =>
      change Kept n s s.tick
      unfold State.tick
      split
      · exact .refl n s
      · next id ticks _ =>
        have hpop : Kept n s { s with ticks := ticks } := kept_of_heap rfl rfl
        exact hpop.trans (kept_handle_thens _ id)
    | stop => exact kept_of_heap rfl rfl
  · exact .refl n s

/-- A call of the resolve or the reject function of a promise, by its user or because its executor
throws. -/
def Calls (s : State) (id : Nat) : Input → Prop
  | .resolve p _ => p = id
  | .reject p _ => p = id
  | .userReturn (.error _) => ∃ frames, s.control = .executor id :: frames
  | _ => False

lemma step_called {i : Input} (hcall : s.Calls id i) (hcalled : (s.heap id).called = true)
    (hok : s.SettlesPending i) : (s.step i).heap = s.heap ∧ (s.step i).ticks = s.ticks := by
  have hmod : (s.modify id fun o => { o with called := true }) = s := by
    have heq : (s.heap id) = { s.heap id with called := true } := by rw [← hcalled]
    simp only [modify]
    rw [← heq, Function.update_eq_self]
  unfold State.step
  split
  · cases i with
    | resolve p v =>
      cases hcall
      have hst : ¬s.status id = .pending := fun hst => by simp [hok hst] at hcalled
      change (s.promise_param_resolve id v).heap = _ ∧ (s.promise_param_resolve id v).ticks = _
      unfold promise_param_resolve
      dsimp only
      rw [hmod, if_neg hst]
      exact ⟨rfl, rfl⟩
    | reject p v =>
      cases hcall
      have hst : ¬s.status id = .pending := fun hst => by simp [hok hst] at hcalled
      change (s.promise_param_reject id v).heap = _ ∧ (s.promise_param_reject id v).ticks = _
      rw [promise_param_reject, hmod]
      rw [if_neg hst]
      exact ⟨rfl, rfl⟩
    | userReturn result =>
      cases result with
      | ok v => exact hcall.elim
      | error v =>
        obtain ⟨frames, hctl⟩ := hcall
        have hst : ¬s.status id = .pending := fun hst => by
          simp only [SettlesPending, hctl] at hok
          simp [hok ⟨v, rfl⟩ hst] at hcalled
        have hmod' : (modify { s with control := frames } id fun o => { o with called := true }) =
            { s with control := frames } := by
          have heq : (s.heap id) = { s.heap id with called := true } := by rw [← hcalled]
          simp only [modify]
          rw [← heq, Function.update_eq_self]
        have hst' : ¬State.status { s with control := frames } id = .pending := hst
        change (s.userReturn (.error v)).heap = _ ∧ (s.userReturn (.error v)).ticks = _
        rw [State.userReturn, hctl]
        dsimp only [promise_param_reject]
        rw [hmod', if_neg hst']
        exact ⟨rfl, rfl⟩
    | _ => exact hcall.elim
  · exact ⟨rfl, rfl⟩

end State

/-- A settled promise keeps its status and its value, and a resolve or reject function that has been
called for a promise has no effect on a later call. -/
theorem settled_final {is js : List Input}
    (h : machine.Guarded State.SettlesPending init (is ++ js)) (id : Nat) :
    (id < (machine.run init is).size → (machine.run init is).status id ≠ .pending →
      (machine.run init (is ++ js)).status id = (machine.run init is).status id ∧
        ((machine.run init (is ++ js)).heap id).value = ((machine.run init is).heap id).value) ∧
    ∀ i, js = [i] → (machine.run init is).Calls id i → ((machine.run init is).heap id).called = true →
      (machine.run init (is ++ js)).heap = (machine.run init is).heap ∧
        (machine.run init (is ++ js)).ticks = (machine.run init is).ticks := by
  rw [Machine.guarded_append] at h
  have hwaits : (machine.run init is).WaitsForOlder :=
    Machine.run_invariant_of_step (M := machine) (P := State.WaitsForOlder)
      (fun s i hs => hs.step i) (fun p hp => by
        obtain ⟨h, hh, -⟩ := hp
        simp [init, default, Object.new] at hh) is
  rw [Machine.run_append]
  generalize machine.run init is = s at h hwaits
  constructor
  · intro hid hst
    have hkept : State.Kept s.size s (machine.run s js) := by
      refine (Machine.run_invariant (M := machine)
        (P := fun t => t.WaitsForOlder ∧ State.Kept s.size s t) ?_ ⟨hwaits, .refl _ s⟩ h.2).2
      rintro t i ⟨ht, hkept⟩ hok
      exact ⟨ht.step i, hkept.trans (State.kept_step ht hok hkept.size)⟩
    exact ⟨hkept.status id hid hst, hkept.value id hid hst⟩
  · rintro i rfl hcall hcalled
    exact State.step_called hcall hcalled h.2.1

theorem settled_final_resolved :
    (machine.run init ([.construct, .resolve 0 (.plain 7)] ++ [.reject 0 (.plain 8)])).heap =
      (machine.run init [.construct, .resolve 0 (.plain 7)]).heap := by
  have hok : machine.Guarded State.SettlesPending init
      ([.construct, .resolve 0 (.plain 7)] ++ [.reject 0 (.plain 8)]) := by
    simp only [Machine.guarded_append, Machine.guarded_cons, Machine.guarded_nil,
      State.SettlesPending]
    decide +kernel
  exact ((settled_final hok 0).2 _ rfl rfl rfl).1

/-- A promise is resolved with a pending one and then rejected. -/
def resolvedThenRejected : List Input :=
  [.construct, .userReturn (.ok .undefined), .construct, .userReturn (.ok .undefined),
    .resolve 0 (.promise 1), .reject 0 (.plain 7)]

/-- The rejection takes effect, and the pending promise overwrites it when it is fulfilled. -/
theorem settled_overwritten :
    (machine.run init resolvedThenRejected).status 0 = .rejected ∧
      ((machine.run init resolvedThenRejected).heap 0).value = .plain 7 ∧
      (machine.run init (resolvedThenRejected ++ [.resolve 1 (.plain 8), .tick, .walk])).status 0 =
        .fulfilled ∧
      ((machine.run init (resolvedThenRejected ++ [.resolve 1 (.plain 8), .tick, .walk])).heap 0).value =
        .plain 8 := by
  decide +kernel

end LowJs.Promise
