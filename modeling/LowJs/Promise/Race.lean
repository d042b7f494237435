import LowJs.Promise.Settling

/-!
# `Promise.race`

The promise that `promise_race` makes stands in the chains of its pending elements, and a walk that finds it
there settles it like a derived promise. It has the outcome of the element that is settled first, and its
subscribers get this outcome, as long as no walk finds it when it has been settled.
-/

namespace LowJs.Promise

namespace State

variable {s t : State} {elems : List Value} {r id q sub : Nat}

/-! ### The call -/

/-- The outcome that is there at the call: of the first element that is settled or no promise. -/
def decided (s : State) : List Value → Option (Status × Value)
  | [] => none
  | .promise q :: elems =>
    if s.status q = .pending then s.decided elems else some (s.status q, (s.heap q).value)
  | v :: _ => some (.fulfilled, v)

/-- The element is a pending promise. -/
def pends (s : State) : Value → Bool
  | .promise p => s.status p == .pending
  | _ => false

/-- A walk that takes the race promise finds it pending, and its own promise the only element that has been
settled, with the outcome the walk works with. -/
def TakesFirst (elems : List Value) (r : Nat) (s : State) : Input → Prop
  | .walk =>
    match s.control with
    | .handleThens id st v (sub :: _) _ :: _ => sub = r →
      s.status r = .pending ∧ st ≠ .pending ∧ s.status id = st ∧ (s.heap id).value = v ∧
        ∀ e ∈ elems, e ≠ .promise id → s.pends e = true
    | _ => True
  | _ => True

/-! ### Where the race promise stands -/

/-- What a call has to do with the race promise. -/
def Apart (r : Nat) (s : State) : Frame → Prop
  | .handleThens id st v _ _ => id = r → st = s.status r ∧ v = (s.heap r).value ∧ st ≠ .pending
  | .pcall sub => sub ≠ r
  | .executor this => this ≠ r

/-- The race promise has no handlers and nobody can resolve it; it stands in the chains of its elements
only, and is settled when a walk has taken it, or when its own subscribers are walked. -/
structure Race (elems : List Value) (r : Nat) (s : State) : Prop where
  constructed : (s.heap r).constructed = false
  thenHandler : (s.heap r).thenHandler = none
  catchHandler : (s.heap r).catchHandler = none
  waits : ∀ p, (s.heap p).Waits → (s.heap p).promise ≠ r
  joined : ∀ p, r ∈ (s.heap p).joined → .promise p ∈ elems
  ran : ∀ p, r ∈ (s.heap p).ran → s.status r ≠ .pending
  ticks : r ∈ s.ticks → s.status r ≠ .pending
  control : ∀ f ∈ s.control, s.Apart r f

/-- The race promise has the same status and value. -/
def SameFor (r : Nat) (s t : State) : Prop := t.status r = s.status r ∧ (t.heap r).value = (s.heap r).value

lemma SameFor.trans {u : State} (h : SameFor r s t) (h' : SameFor r t u) : SameFor r s u :=
  ⟨h'.1.trans h.1, h'.2.trans h.2⟩

/-- What a function leaves alone. -/
structure Clear (elems : List Value) (r : Nat) (s t : State) : Prop where
  race : t.Race elems r
  size : s.size ≤ t.size
  same : SameFor r s t
  joined : ∀ p, r ∈ (t.heap p).joined ↔ r ∈ (s.heap p).joined

lemma Apart.congr {f : Frame} (h : s.Apart r f) (hst : SameFor r s t) : t.Apart r f := by
  cases f with
  | handleThens id st v rest count =>
    intro hid
    obtain ⟨h₁, h₂, h₃⟩ := h hid
    exact ⟨h₁.trans hst.1.symm, h₂.trans hst.2.symm, h₃⟩
  | pcall sub => exact h
  | executor this => exact h

lemma Race.clear (h : s.Race elems r) : Clear elems r s s := ⟨h, le_rfl, ⟨rfl, rfl⟩, fun _ => Iff.rfl⟩

lemma Clear.trans {u : State} (h : Clear elems r s t) (h' : Clear elems r t u) : Clear elems r s u :=
  ⟨h'.race, h.size.trans h'.size, h.same.trans h'.same, fun p => (h'.joined p).trans (h.joined p)⟩

/-- An object changes, the race promise in its chain only. -/
lemma Race.modify (h : s.Race elems r) {f : Object → Object}
    (hr : id = r → (f (s.heap r)).promiseStatus = (s.heap r).promiseStatus ∧
      (f (s.heap r)).value = (s.heap r).value ∧ (f (s.heap r)).constructed = false ∧
      (f (s.heap r)).thenHandler = none ∧ (f (s.heap r)).catchHandler = none)
    (hw : (f (s.heap id)).Waits → (s.heap id).Waits ∧ (f (s.heap id)).promise = (s.heap id).promise)
    (hj : r ∈ (f (s.heap id)).joined ↔ r ∈ (s.heap id).joined)
    (hran : r ∈ (f (s.heap id)).ran → r ∈ (s.heap id).ran) : Clear elems r s (s.modify id f) := by
  have hsame : SameFor r s (s.modify id f) := by
    by_cases hid : r = id
    · subst hid
      exact ⟨by simpa [status] using (hr rfl).1, by simpa using (hr rfl).2.1⟩
    · simp [SameFor, status, hid]
  have hjoined : ∀ p, r ∈ ((s.modify id f).heap p).joined ↔ r ∈ (s.heap p).joined := by
    intro p
    by_cases hp : p = id
    · subst hp
      simpa using hj
    · simp [hp]
  refine ⟨⟨?_, ?_, ?_, fun p => ?_, fun p hp => h.joined p ((hjoined p).mp hp), fun p => ?_, fun hp => ?_,
    fun g hg => ?_⟩, le_rfl, hsame, hjoined⟩
  · by_cases hid : r = id
    · simpa [hid] using hid ▸ (hr hid.symm).2.2.1
    · simpa [hid] using h.constructed
  · by_cases hid : r = id
    · simpa [hid] using hid ▸ (hr hid.symm).2.2.2.1
    · simpa [hid] using h.thenHandler
  · by_cases hid : r = id
    · simpa [hid] using hid ▸ (hr hid.symm).2.2.2.2
    · simpa [hid] using h.catchHandler
  · by_cases hp : p = id
    · subst hp
      simp only [modify_heap, if_true]
      intro hwaits
      obtain ⟨hold, hpromise⟩ := hw hwaits
      rw [hpromise]
      exact h.waits p hold
    · simpa [hp] using h.waits p
  · rw [hsame.1]
    by_cases hp : p = id
    · subst hp
      simp only [modify_heap, if_true]
      exact fun hmem => h.ran p (hran hmem)
    · simpa [hp] using h.ran p
  · rw [hsame.1]
    exact h.ticks hp
  · exact (h.control g hg).congr hsame

lemma Race.settle (h : s.Race elems r) (hid : id ≠ r) (st : Status) (v : Value) :
    Clear elems r s (s.settle id st v) :=
  h.modify (fun heq => absurd heq hid) (fun hw => ⟨hw, rfl⟩) Iff.rfl fun hran => hran

lemma Race.warn (h : s.Race elems r) (id : Nat) :
    Clear elems r s (s.modify id fun o => { o with warnedUnhandled := true }) :=
  h.modify (fun _ => ⟨rfl, rfl, h.constructed, h.thenHandler, h.catchHandler⟩) (fun hw => ⟨hw, rfl⟩)
    Iff.rfl fun hran => hran

lemma Race.adopt (h : s.Race elems r) (hid : id ≠ r) (q : Nat) : Clear elems r s (s.adopt id q) := by
  have hset := h.settle hid (s.status q) (s.heap q).value
  unfold State.adopt
  dsimp only
  split
  · exact hset.trans (hset.race.warn q)
  · exact hset

lemma Race.subscribe (h : s.Race elems r) (q : Nat) (hsub : sub ≠ r) :
    Clear elems r s (s.subscribe q sub) := by
  refine h.modify (fun _ => ⟨rfl, rfl, h.constructed, h.thenHandler, h.catchHandler⟩)
    (fun hw => ⟨hw, rfl⟩) ?_ fun hran => hran
  simp [hsub.symm]

/-- `promise_handle_thens` is put into the queue. -/
lemma Race.callNextTick (h : s.Race elems r) (hid : id = r → s.status r ≠ .pending) :
    Clear elems r s (s.callNextTick id) := by
  refine ⟨⟨h.constructed, h.thenHandler, h.catchHandler, h.waits, h.joined, h.ran, fun hr => ?_,
    h.control⟩, le_rfl, ⟨rfl, rfl⟩, fun _ => Iff.rfl⟩
  rcases List.mem_cons.mp hr with hr | hr
  · exact hid hr.symm
  · exact h.ticks hr

/-- The calls change. -/
lemma Race.calls (h : s.Race elems r) {control : List Frame} {ticks : List Nat}
    (hcontrol : ∀ f ∈ control, s.Apart r f) (hticks : r ∈ ticks → r ∈ s.ticks) :
    Race elems r { s with control := control, ticks := ticks } :=
  ⟨h.constructed, h.thenHandler, h.catchHandler, h.waits, h.joined, h.ran,
    fun hr => h.ticks (hticks hr), hcontrol⟩

lemma Race.handle_thens (h : s.Race elems r) (hid : id = r → s.status r ≠ .pending) :
    Clear elems r s (s.promise_handle_thens id) := by
  have hmod : Clear elems r s (s.modify id fun o => { o with chain := [] }) :=
    h.modify (fun _ => ⟨rfl, rfl, h.constructed, h.thenHandler, h.catchHandler⟩) (fun hw => ⟨hw, rfl⟩)
      Iff.rfl fun hran => hran
  refine ⟨hmod.race.calls (fun f hf => ?_) (fun hr => hr), le_rfl, hmod.same, hmod.joined⟩
  rcases List.mem_cons.mp hf with rfl | hf
  · intro heq
    subst heq
    exact ⟨hmod.same.1.symm, hmod.same.2.symm, hid rfl⟩
  · exact hmod.race.control f hf

lemma Race.alloc (h : s.Race elems r) (hne : r ≠ s.size) (hbelow : ∀ q, .promise q ∈ elems → q < s.size)
    {o : Object} (hw : o.Waits → o.promise ≠ r) (hj : o.joined = []) (hran : o.ran = []) :
    Clear elems r s (s.alloc o) := by
  have hnew : r ∉ (s.heap s.size).joined := fun hin => (hbelow _ (h.joined _ hin)).ne rfl
  have hsame : SameFor r s (s.alloc o) := by simp [SameFor, status, hne]
  have hjoined : ∀ p, r ∈ ((s.alloc o).heap p).joined ↔ r ∈ (s.heap p).joined := by
    intro p
    by_cases hp : p = s.size
    · simp [hp, hj, hnew]
    · simp [hp]
  refine ⟨⟨?_, ?_, ?_, fun p => ?_, fun p hp => h.joined p ((hjoined p).mp hp), fun p => ?_,
    fun hp => ?_, fun g hg => ?_⟩, Nat.le_succ _, hsame, hjoined⟩
  · simpa [hne] using h.constructed
  · simpa [hne] using h.thenHandler
  · simpa [hne] using h.catchHandler
  · by_cases hp : p = s.size
    · simpa [hp] using hw
    · simpa [hp] using h.waits p
  · rw [hsame.1]
    by_cases hp : p = s.size
    · simp [hp, hran]
    · simpa [hp] using h.ran p
  · rw [hsame.1]
    exact h.ticks hp
  · exact (h.control g hg).congr hsame

/-! ### The functions -/

/-- A change of what has nothing to do with the race promise. -/
lemma Race.touch (h : s.Race elems r) {f : Object → Object}
    (hf : ∀ o : Object, (f o).promiseStatus = o.promiseStatus ∧ (f o).value = o.value ∧
      (f o).constructed = o.constructed ∧ (f o).promise = o.promise ∧ (f o).joined = o.joined ∧
      (f o).ran = o.ran ∧ ((f o).thenHandler = o.thenHandler ∨ (f o).thenHandler = none) ∧
      ((f o).catchHandler = o.catchHandler ∨ (f o).catchHandler = none)) (id : Nat) :
    Clear elems r s (s.modify id f) := by
  refine h.modify (fun _ => ?_) (fun hw => ?_) ?_ fun hran => ?_
  · obtain ⟨h₁, h₂, h₃, -, -, -, h₄, h₅⟩ := hf (s.heap r)
    refine ⟨h₁, h₂, h₃.trans h.constructed, ?_, ?_⟩
    · exact h₄.elim (fun heq => heq.trans h.thenHandler) fun heq => heq
    · exact h₅.elim (fun heq => heq.trans h.catchHandler) fun heq => heq
  · obtain ⟨-, -, -, hpromise, -, -, h₄, h₅⟩ := hf (s.heap id)
    obtain ⟨g, hg, hall⟩ := hw
    refine ⟨⟨g, hg.imp (fun hg => ?_) (fun hg => ?_), hall⟩, hpromise⟩
    · rcases h₄ with h₄ | h₄
      · exact h₄.symm.trans hg
      · exact absurd (h₄.symm.trans hg) (by simp)
    · rcases h₅ with h₅ | h₅
      · exact h₅.symm.trans hg
      · exact absurd (h₅.symm.trans hg) (by simp)
  · rw [(hf _).2.2.2.2.1]
  · rwa [(hf _).2.2.2.2.2.1] at hran

lemma Race.param_resolve (h : s.Race elems r) (hid : id ≠ r) (v : Value) :
    Clear elems r s (s.promise_param_resolve id v) := by
  unfold promise_param_resolve
  have h₁ : Clear elems r s (s.modify id fun o => { o with called := true }) := h.touch (by simp) id
  refine h₁.trans ?_
  have htick {t : State} (ht : t.Race elems r) : Clear elems r t (t.callNextTick id) :=
    ht.callNextTick fun heq => absurd heq hid
  dsimp only
  split
  · split
    · split
      · exact (h₁.race.adopt hid _).trans (htick (h₁.race.adopt hid _).race)
      · exact h₁.race.subscribe _ hid
    · exact (h₁.race.settle hid _ _).trans (htick (h₁.race.settle hid _ _).race)
  · exact h₁.race.clear

lemma Race.param_reject (h : s.Race elems r) (hid : id ≠ r) (v : Value) :
    Clear elems r s (s.promise_param_reject id v) := by
  unfold promise_param_reject
  have h₁ : Clear elems r s (s.modify id fun o => { o with called := true }) := h.touch (by simp) id
  refine h₁.trans ?_
  dsimp only
  split
  · have hset := h₁.race.settle hid .rejected v
    exact hset.trans (hset.race.callNextTick fun heq => absurd heq hid)
  · exact h₁.race.clear

lemma Race.settle_walk (h : s.Race elems r) (hid : id ≠ r) (st : Status) (v : Value) :
    Clear elems r s ((s.settle id st v).promise_handle_thens id) := by
  have hset := h.settle hid st v
  exact hset.trans (hset.race.handle_thens fun heq => absurd heq hid)

lemma Race.handlerResult (h : s.Race elems r) (hsub : sub ≠ r) (result : Except Value Value) :
    Clear elems r s (s.handlerResult sub result) := by
  unfold State.handlerResult
  split
  · split
    · have hadopt := h.adopt hsub
      exact (hadopt _).trans ((hadopt _).race.handle_thens fun heq => absurd heq hsub)
    · have h₁ : Clear elems r s (s.modify sub fun o =>
          { o with thenHandler := none, catchHandler := none }) := h.touch (by simp) sub
      exact h₁.trans (h₁.race.subscribe _ hsub)
  · exact h.settle_walk hsub _ _
  · exact h.settle_walk hsub _ _

lemma Race.putIndex (h : s.Race elems r) {target v : Value} {i : Nat}
    (hput : s.putIndex target i v = some t) : Clear elems r s t := by
  cases target with
  | undefined => simp [State.putIndex] at hput
  | plain k => simp [State.putIndex] at hput
  | object k => exact Option.some.inj hput ▸ h.clear
  | promise id => exact Option.some.inj hput ▸ h.clear
  | array id => exact Option.some.inj hput ▸ h.touch (by simp) id
  | typeError => exact Option.some.inj hput ▸ h.clear

lemma Race.all_resolved (h : s.Race elems r) (hsub : (s.heap sub).promise ≠ r) (v : Value) :
    Clear elems r s (s.promise_all_resolved sub v).2 := by
  unfold promise_all_resolved
  dsimp only
  split
  · exact h.clear
  · next left _ =>
    split
    · exact h.clear
    · next t hput =>
      have ht := h.putIndex hput
      split
      · have hset : Clear elems r t
            (t.modify (s.heap sub).promise fun o => { o with promiseStatus := .fulfilled }) :=
          ht.race.modify (fun heq => absurd heq hsub) (fun hw => ⟨hw, rfl⟩) Iff.rfl fun hran => hran
        exact ht.trans (hset.trans (hset.race.callNextTick fun heq => absurd heq hsub))
      · have hleft : Clear elems r t
            (t.modify (s.heap sub).promise fun o => { o with left := some (left - 1) }) :=
          ht.race.touch (by simp) _
        exact ht.trans hleft

/-- The new objects of the loop have other numbers. -/
lemma Race.allLoop (h : s.Race elems r) (hid : id ≠ r) (hbelow : ∀ q, .promise q ∈ elems → q < s.size)
    {left : Int} {vs : List Value} {i : Nat} (hr : r < s.size ∨ (s.allLoop id left vs i).size ≤ r) :
    Clear elems r s (s.allLoop id left vs i) := by
  induction vs generalizing s left i with
  | nil => exact h.modify (fun heq => absurd heq hid) (fun hw => ⟨hw, rfl⟩) Iff.rfl fun hran => hran
  | cons v vs ih =>
    have hput (v : Value) (hr : r < s.size ∨ (State.allLoop (s.modify id fun o =>
        { o with result := setAt o.result i v }) id left vs (i + 1)).size ≤ r) :
        Clear elems r s ((s.modify id fun o =>
          { o with result := setAt o.result i v }).allLoop id left vs (i + 1)) := by
      have hset : Clear elems r s (s.modify id fun o => { o with result := setAt o.result i v }) :=
        h.touch (by simp) id
      exact hset.trans (ih hset.race hbelow hr)
    unfold State.allLoop at hr ⊢
    dsimp only at hr ⊢
    split at hr
    · next q =>
      split at hr
      · exact hput _ hr
      · have hadopt := h.adopt hid q
        exact hadopt.trans (hadopt.race.callNextTick fun heq => absurd heq hid)
      · have hgrow : s.size + 1 ≤ (State.allLoop ((s.alloc (waiter id i)).subscribe q s.size) id (left + 1) vs
            (i + 1)).size :=
          (kept_allLoop (n := 0) (s := (s.alloc (waiter id i)).subscribe q s.size) (Nat.zero_le _)
            (Nat.zero_le _) (left + 1) vs (i + 1)).size
        have hne : r ≠ s.size := by omega
        have halloc : Clear elems r s (s.alloc (waiter id i)) := h.alloc hne hbelow (fun _ => hid) rfl rfl
        have hsub := halloc.race.subscribe q hne.symm
        exact halloc.trans (hsub.trans (ih hsub.race (fun q hq => (hbelow q hq).trans (Nat.lt_succ_self _))
          (hr.imp_left fun hlt => hlt.trans (Nat.lt_succ_self _))))
    · exact hput _ hr

lemma Race.raceLoop (h : s.Race elems r) (hid : id ≠ r) (vs : List Value) :
    Clear elems r s (s.raceLoop id vs) := by
  induction vs generalizing s with
  | nil => exact h.modify (fun heq => absurd heq hid) (fun hw => ⟨hw, rfl⟩) Iff.rfl fun hran => hran
  | cons v vs ih =>
    unfold State.raceLoop
    split
    · next q =>
      split
      · exact h.adopt hid q
      · have hadopt := h.adopt hid q
        exact hadopt.trans (hadopt.race.callNextTick fun heq => absurd heq hid)
      · have hsub := h.subscribe q hid
        exact hsub.trans (ih hsub.race)
    · exact h.settle hid _ _

lemma Race.then_catch (h : s.Race elems r) (hne : r ≠ s.size)
    (hbelow : ∀ q, .promise q ∈ elems → q < s.size) (this : Nat) (onThen onCatch : Option Nat) :
    Clear elems r s (s.promise_then_catch this onThen onCatch) := by
  rw [promise_then_catch]
  dsimp only
  generalize ho : { Object.new .pending .undefined with
    thenHandler := onThen.map .user, catchHandler := onCatch.map .user } = o
  have halloc : Clear elems r s (s.alloc o) := by
    refine h.alloc hne hbelow (fun hw => ?_) (by rw [← ho]; rfl) (by rw [← ho]; rfl)
    obtain ⟨g, hg, hall⟩ := hw
    rw [← ho] at hg
    rcases hall with rfl | rfl <;> simp at hg
  have hsub := halloc.race.subscribe this hne.symm
  have hboth := halloc.trans hsub
  split
  · next hst =>
    refine hboth.trans (hboth.race.callNextTick fun heq => ?_)
    rw [hboth.same.1, ← heq]
    exact hst
  · exact hboth

/-! ### The steps -/

/-- The race promise is settled: none of its own subscribers have been walked. -/
lemma Race.settled (h : s.Race elems r) (hst : s.status r = .pending) (ht : t.status r ≠ .pending)
    (hheap : ∀ p, (t.heap p).thenHandler = (s.heap p).thenHandler ∧
      (t.heap p).catchHandler = (s.heap p).catchHandler ∧ (t.heap p).promise = (s.heap p).promise ∧
      (t.heap p).constructed = (s.heap p).constructed ∧ (t.heap p).joined = (s.heap p).joined)
    (hcontrol : t.control = s.control) : t.Race elems r where
  constructed := (hheap r).2.2.2.1.trans h.constructed
  thenHandler := (hheap r).1.trans h.thenHandler
  catchHandler := (hheap r).2.1.trans h.catchHandler
  waits p hw := by
    obtain ⟨hthen, hcatch, hpromise, -⟩ := hheap p
    obtain ⟨g, hg, hall⟩ := hw
    rw [hpromise]
    exact h.waits p ⟨g, hg.imp (hthen.symm.trans ·) (hcatch.symm.trans ·), hall⟩
  joined p hp := h.joined p ((hheap p).2.2.2.2 ▸ hp)
  ran _ _ := ht
  ticks _ := ht
  control f hf := by
    have hf := h.control f (hcontrol ▸ hf)
    cases f with
    | handleThens id st v rest count =>
      intro hid
      exact absurd ((hf hid).1.trans hst) (hf hid).2.2
    | pcall sub => exact hf
    | executor this => exact hf

/-- A walk takes the race promise, and settles it. -/
lemma Race.take (h : s.Race elems r) (hst : s.status r = .pending) {st : Status} (hne : st ≠ .pending)
    (v : Value) (id : Nat) :
    (((s.modify id fun o => { o with ran := o.ran ++ [r] }).settle r st v).promise_handle_thens r).Race
      elems r := by
  have hset : ((s.modify id fun o => { o with ran := o.ran ++ [r] }).settle r st v).Race elems r := by
    refine h.settled hst (by simpa [State.settle, status] using hne) (fun p => ?_) rfl
    by_cases hp : p = r <;> by_cases hid : p = id <;> simp [State.settle, hp, hid] <;> simp_all
  exact (hset.handle_thens fun _ => by simpa [State.settle, status] using hne).race

lemma Race.walkNext (h : s.Race elems r) (hsub : sub ≠ r) (st : Status) (v : Value) :
    Clear elems r s (s.walkNext st v sub) := by
  have hwaits {g : Handler} (hg : (if st = .fulfilled then (s.heap sub).thenHandler
      else (s.heap sub).catchHandler) = some g) (hall : g = .allResolved ∨ g = .allRejected) :
      (s.heap sub).promise ≠ r := by
    refine h.waits sub ⟨g, ?_, hall⟩
    split at hg
    · exact .inl hg
    · exact .inr hg
  rw [State.walkNext]
  split
  · exact h.settle_walk hsub st v
  · have hcall : Race elems r { s with control := .pcall sub :: s.control } := by
      refine h.calls (fun f hf => ?_) (fun hr => hr)
      rcases List.mem_cons.mp hf with rfl | hf
      · exact hsub
      · exact h.control f hf
    exact ⟨⟨hcall.constructed, hcall.thenHandler, hcall.catchHandler, hcall.waits, hcall.joined, hcall.ran,
      hcall.ticks, hcall.control⟩, le_rfl, ⟨rfl, rfl⟩, fun _ => Iff.rfl⟩
  · next hg =>
    have hall := h.all_resolved (hwaits hg (.inl rfl)) v
    exact hall.trans (hall.race.handlerResult hsub _)
  · next hg =>
    have hne := hwaits hg (.inr rfl)
    have hset := h.settle hne .rejected v
    have hrejected : Clear elems r s (s.promise_all_rejected sub v) :=
      hset.trans (hset.race.callNextTick fun heq => absurd heq hne)
    exact hrejected.trans (hrejected.race.handlerResult hsub _)

lemma Race.walkEnd (h : s.Race elems r) (id : Nat) (st : Status) (v : Value) (count : Nat) :
    Clear elems r s (s.walkEnd id st v count) := by
  have hwarn := h.warn id
  rw [State.walkEnd]
  split
  · split
    · exact h.clear
    · dsimp only
      split
      · exact hwarn
      · have hnone := hwarn.race.calls (List.forall_mem_nil (State.Apart r _)) (fun hr => hr)
        exact ⟨⟨hnone.constructed, hnone.thenHandler, hnone.catchHandler, hnone.waits, hnone.joined,
          hnone.ran, hnone.ticks, hnone.control⟩, le_rfl, hwarn.same, hwarn.joined⟩
  · split
    · exact hwarn
    · exact h.clear

/-- A walk has taken the race promise, which has the outcome the walk works with. -/
def Takes (r : Nat) (s t : State) : Prop :=
  ∃ id st v rest count frames, s.control = .handleThens id st v (r :: rest) count :: frames ∧
    t.status r = st ∧ (t.heap r).value = v ∧ (∀ p, p ≠ r → SameFor p s t) ∧
    ∀ p, r ∈ (t.heap p).joined ↔ r ∈ (s.heap p).joined

lemma Race.walk (h : s.Race elems r) (hok : TakesFirst elems r s .walk) :
    s.walk.Race elems r ∧ s.size ≤ s.walk.size ∧ (SameFor r s s.walk ∧ (∀ p, r ∈ (s.walk.heap p).joined ↔ r ∈ (s.heap p).joined) ∨
      Takes r s s.walk) := by
  rw [State.walk]
  split
  · next id st v sub rest count frames hctl =>
    have hpop : Race elems r { s with control := .handleThens id st v rest count :: frames } := by
      refine h.calls (fun f hf => ?_) (fun hr => hr)
      rcases List.mem_cons.mp hf with rfl | hf
      · exact h.control (.handleThens id st v (sub :: rest) count) (by simp [hctl])
      · exact h.control f (by simp [hctl, hf])
    dsimp only
    by_cases hsub : sub = r
    · subst hsub
      simp only [TakesFirst, hctl] at hok
      obtain ⟨hpending, hne, hid, hval, -⟩ := hok trivial
      have htake := hpop.take (r := sub) hpending hne v id
      have hnext : (State.modify { s with control := .handleThens id st v rest count :: frames } id
          fun o => { o with ran := o.ran ++ [sub] }).walkNext st v sub =
          ((State.modify { s with control := .handleThens id st v rest count :: frames } id
            fun o => { o with ran := o.ran ++ [sub] }).settle sub st v).promise_handle_thens sub := by
        rw [State.walkNext]
        by_cases hidsub : sub = id
        · subst hidsub
          simp [h.thenHandler, h.catchHandler]
        · simp [hidsub, h.thenHandler, h.catchHandler]
      rw [hnext]
      refine ⟨htake, le_rfl, .inr ⟨id, st, v, rest, count, frames, hctl, ?_, ?_, fun p hp => ⟨?_, ?_⟩, fun p => ?_⟩⟩
      · simp [promise_handle_thens, State.settle, status]
      · simp [promise_handle_thens, State.settle]
      · rcases eq_or_ne p id with rfl | hpid
        · simp [promise_handle_thens, State.settle, status, hp]
        · simp [promise_handle_thens, State.settle, status, hp, hpid]
      · rcases eq_or_ne p id with rfl | hpid
        · simp [promise_handle_thens, State.settle, hp]
        · simp [promise_handle_thens, State.settle, hp, hpid]
      · rcases eq_or_ne p id with rfl | hpid <;> rcases eq_or_ne p sub with rfl | hps <;>
          simp [promise_handle_thens, State.settle, *]
    · have hran : Clear elems r { s with control := .handleThens id st v rest count :: frames }
          (State.modify { s with control := .handleThens id st v rest count :: frames } id
            fun o => { o with ran := o.ran ++ [sub] }) := by
        refine hpop.modify (fun _ => ⟨rfl, rfl, h.constructed, h.thenHandler, h.catchHandler⟩)
          (fun hw => ⟨hw, rfl⟩) Iff.rfl fun hmem => ?_
        exact (List.mem_append.mp hmem).resolve_right (by simpa using Ne.symm hsub)
      have hnext := hran.trans (hran.race.walkNext hsub st v)
      exact ⟨hnext.race, hnext.size, .inl ⟨hnext.same, hnext.joined⟩⟩
  · next id st v count frames hctl =>
    have hpop : Race elems r { s with control := frames } :=
      h.calls (fun f hf => h.control f (by simp [hctl, hf])) (fun hr => hr)
    have hend := hpop.walkEnd id st v count
    exact ⟨hend.race, hend.size, .inl ⟨hend.same, hend.joined⟩⟩
  · exact ⟨h, le_rfl, .inl ⟨⟨rfl, rfl⟩, fun _ => Iff.rfl⟩⟩

lemma Race.userReturn (h : s.Race elems r) (result : Except Value Value) :
    Clear elems r s (s.userReturn result) := by
  rw [State.userReturn]
  split
  · next sub frames hctl =>
    have hpop : Race elems r { s with control := frames } :=
      h.calls (fun f hf => h.control f (by simp [hctl, hf])) (fun hr => hr)
    have hsub : sub ≠ r := h.control (.pcall sub) (by simp [hctl])
    have hresult := hpop.handlerResult hsub result
    exact ⟨hresult.race, hresult.size, hresult.same, hresult.joined⟩
  · next this frames hctl =>
    have hpop : Race elems r { s with control := frames } :=
      h.calls (fun f hf => h.control f (by simp [hctl, hf])) (fun hr => hr)
    have hthis : this ≠ r := h.control (.executor this) (by simp [hctl])
    split
    · exact ⟨hpop, le_rfl, ⟨rfl, rfl⟩, fun _ => Iff.rfl⟩
    · have hreject := hpop.param_reject hthis ‹Value›
      exact ⟨hreject.race, hreject.size, hreject.same, hreject.joined⟩
  · exact h.clear

lemma Race.tick (h : s.Race elems r) : Clear elems r s s.tick := by
  rw [State.tick]
  split
  · exact h.clear
  · next id ticks hticks =>
    have hpop : Race elems r { s with ticks := ticks } :=
      h.calls h.control fun hr => by simp [hticks, hr]
    have hthens : Clear elems r { s with ticks := ticks } (State.promise_handle_thens { s with ticks := ticks } id) :=
      hpop.handle_thens fun hid => h.ticks (by simp [hticks, hid])
    exact ⟨hthens.race, hthens.size, hthens.same, hthens.joined⟩

/-- A step that makes no promise of this number leaves the race promise alone, or is a walk that takes
it. -/
lemma Race.step (h : s.Race elems r) (hbelow : ∀ q, .promise q ∈ elems → q < s.size) {i : Input}
    (hok : TakesFirst elems r s i) (hr : r < s.size ∨ (s.step i).size ≤ r) :
    (s.step i).Race elems r ∧ s.size ≤ (s.step i).size ∧
      (SameFor r s (s.step i) ∧ (∀ p, r ∈ ((s.step i).heap p).joined ↔ r ∈ (s.heap p).joined) ∨
        i = .walk ∧ Takes r s (s.step i)) := by
  have hclear {t : State} (ht : Clear elems r s t) : t.Race elems r ∧ s.size ≤ t.size ∧
      (SameFor r s t ∧ (∀ p, r ∈ (t.heap p).joined ↔ r ∈ (s.heap p).joined) ∨ i = .walk ∧ Takes r s t) :=
    ⟨ht.race, ht.size, .inl ⟨ht.same, ht.joined⟩⟩
  have hne (hgrow : s.size + 1 ≤ (s.step i).size) : r ≠ s.size := by omega
  unfold State.step at hr hne ⊢
  split
  swap
  · exact hclear h.clear
  next hen =>
  rw [if_pos hen] at hr hne
  cases i with
  | construct =>
    have hnew : r ≠ s.size := hne (le_refl _)
    have halloc := h.alloc hnew hbelow (o := { Object.new .pending .undefined with constructed := true })
      (fun hw => by simp [Object.Waits, Object.new] at hw) rfl rfl
    refine hclear ⟨halloc.race.calls (fun f hf => ?_) (fun hr => hr), halloc.size, halloc.same, halloc.joined⟩
    rcases List.mem_cons.mp hf with rfl | hf
    · exact hnew.symm
    · exact halloc.race.control f hf
  | resolve id v =>
    have hid : id ≠ r := by
      rintro rfl
      simp [enabled, h.constructed] at hen
    exact hclear (h.param_resolve hid v)
  | reject id v =>
    have hid : id ≠ r := by
      rintro rfl
      simp [enabled, h.constructed] at hen
    exact hclear (h.param_reject hid v)
  | thenCatch id onThen onCatch =>
    refine hclear (h.then_catch (hne ?_) hbelow id onThen onCatch)
    simp only [perform, promise_then_catch]
    split <;> exact le_refl _
  | all vs =>
    have hgrow : s.size + 1 ≤ (s.perform (.all vs)).size :=
      (kept_allLoop (n := 0) (s := s.alloc (.new .fulfilled (.array s.size))) (Nat.zero_le _) (Nat.zero_le _) 0
        vs 0).size
    have halloc := h.alloc (hne hgrow) hbelow (o := .new .fulfilled (.array s.size))
      (fun hw => by simp [Object.Waits, Object.new] at hw) rfl rfl
    refine hclear (halloc.trans (halloc.race.allLoop (hne hgrow).symm
      (fun q hq => (hbelow q hq).trans (Nat.lt_succ_self _)) ?_))
    exact hr.imp_left fun hlt => hlt.trans (Nat.lt_succ_self _)
  | race vs =>
    have hgrow : s.size + 1 ≤ (s.perform (.race vs)).size :=
      (kept_raceLoop (n := 0) (s := s.alloc (.new .pending .undefined)) (Nat.zero_le _) vs).size
    have halloc := h.alloc (hne hgrow) hbelow (o := .new .pending .undefined)
      (fun hw => by simp [Object.Waits, Object.new] at hw) rfl rfl
    exact hclear (halloc.trans (halloc.race.raceLoop (hne hgrow).symm vs))
  | promiseResolve v =>
    simp only [perform, promise_resolve] at hne ⊢
    split at hne
    · exact hclear h.clear
    · exact hclear (h.alloc (hne (le_refl _)) hbelow (fun hw => by simp [Object.Waits, Object.new] at hw) rfl
        rfl)
  | promiseReject v =>
    have hnew : r ≠ s.size := hne (le_refl _)
    have halloc := h.alloc hnew hbelow (o := .new .rejected v)
      (fun hw => by simp [Object.Waits, Object.new] at hw) rfl rfl
    exact hclear (halloc.trans (halloc.race.callNextTick fun heq => absurd heq hnew.symm))
  | userReturn result => exact hclear (h.userReturn result)
  | walk =>
    obtain ⟨hrace, hsize, hend⟩ := h.walk hok
    exact ⟨hrace, hsize, hend.imp_right fun ht => ⟨rfl, ht⟩⟩
  | tick => exact hclear h.tick
  | stop =>
    exact hclear ⟨⟨h.constructed, h.thenHandler, h.catchHandler, h.waits, h.joined, h.ran, h.ticks, h.control⟩,
      le_rfl, ⟨rfl, rfl⟩, fun _ => Iff.rfl⟩

/-! ### The call -/

/-- A number that no promise has stands nowhere. -/
def Unused (s : State) : Prop := ∀ r, s.size ≤ r → s.Race [] r ∧ s.status r = .pending

lemma unused_init : Unused init := by
  intro r _
  refine ⟨⟨rfl, rfl, rfl, fun p hw => ?_, fun p hp => (by cases hp), fun p hp => (by cases hp),
    fun hp => (by cases hp), fun f hf => (by cases hf)⟩, rfl⟩
  obtain ⟨g, hg, -⟩ := hw
  simp [init, default, Object.new] at hg

/-- A walk has only subscribers left that have joined. -/
lemma Sound.walk_joined (h : Sound s) {st : Status} {v : Value} {rest : List Nat} {count : Nat}
    {frames : List Frame} (hctl : s.control = .handleThens id st v (sub :: rest) count :: frames) :
    sub ∈ (s.heap id).joined := by
  rw [h.ordered.order id, hctl]
  simp [Frame.restOf]

lemma Unused.step (h : Unused s) (hs : Sound s) (i : Input) : Unused (s.step i) := by
  have hstep : ∀ r, s.size ≤ r → (s.step i).size ≤ r →
      (s.step i).Race [] r ∧ s.size ≤ (s.step i).size ∧ (s.step i).status r = .pending := by
    intro r hr hr'
    obtain ⟨hrace, hst⟩ := h r hr
    have hok : TakesFirst [] r s i := by
      unfold TakesFirst
      split
      · split
        · next hctl =>
          rintro rfl
          have hin := hrace.joined _ (hs.walk_joined hctl)
          simp at hin
        · trivial
      · trivial
    obtain ⟨hrace', hsize, hend⟩ := hrace.step (by simp) hok (.inr hr')
    refine ⟨hrace', hsize, ?_⟩
    rcases hend with ⟨hsame, -⟩ | ⟨-, id, st, v, rest, count, frames, hctl, -⟩
    · exact hsame.1.trans hst
    · have hin := hrace.joined _ (hs.walk_joined hctl)
      simp at hin
  have hgrow := (hstep (max s.size (s.step i).size) (le_max_left ..) (le_max_right ..)).2.1
  intro r hr
  obtain ⟨hrace, -, hst⟩ := hstep r (hgrow.trans hr) hr
  exact ⟨hrace, hst⟩

/-- The race promise enters the chain of an element. -/
lemma Race.join (h : s.Race elems r) (hq : .promise q ∈ elems) (hne : q ≠ r) :
    (s.subscribe q r).Race elems r ∧ SameFor r s (s.subscribe q r) := by
  have hsame : SameFor r s (s.subscribe q r) := by
    simp [SameFor, State.subscribe, status, hne.symm]
  have hstatus : ∀ p, (s.subscribe q r).status p = s.status p := by
    intro p
    by_cases hp : p = q <;> simp [State.subscribe, status, hp]
  refine ⟨⟨?_, ?_, ?_, fun p => ?_, fun p => ?_, fun p => ?_, fun hr => ?_, fun f hf => ?_⟩, hsame⟩
  · simpa [State.subscribe, hne.symm] using h.constructed
  · simpa [State.subscribe, hne.symm] using h.thenHandler
  · simpa [State.subscribe, hne.symm] using h.catchHandler
  · rcases eq_or_ne p q with rfl | hp
    · simpa [State.subscribe, Object.Waits] using h.waits p
    · simpa [State.subscribe, hp] using h.waits p
  · rcases eq_or_ne p q with rfl | hp
    · exact fun _ => hq
    · simpa [State.subscribe, hp] using h.joined p
  · rw [hstatus]
    rcases eq_or_ne p q with rfl | hp
    · simpa [State.subscribe] using h.ran p
    · simpa [State.subscribe, hp] using h.ran p
  · rw [hstatus]
    exact h.ticks hr
  · exact (h.control f hf).congr hsame

lemma Race.settle_self (h : s.Race elems r) (hst : s.status r = .pending) {st : Status} (hne : st ≠ .pending)
    (v : Value) : (s.settle r st v).Race elems r := by
  refine h.settled hst (by simpa [State.settle, status] using hne) (fun p => ?_) rfl
  by_cases hp : p = r <;> simp [State.settle, hp]

lemma Race.adopt_self (h : s.Race elems r) (hst : s.status r = .pending) (hq : s.status q ≠ .pending) :
    (s.adopt r q).Race elems r ∧ (s.adopt r q).status r = s.status q ∧
      ((s.adopt r q).heap r).value = (s.heap q).value := by
  have hset := h.settle_self hst hq (s.heap q).value
  have hstatus : (s.settle r (s.status q) (s.heap q).value).status r = s.status q := by
    simp [State.settle, status]
  have hvalue : ((s.settle r (s.status q) (s.heap q).value).heap r).value = (s.heap q).value := by
    simp [State.settle]
  unfold State.adopt
  dsimp only
  split
  · have hwarn := hset.warn q
    exact ⟨hwarn.race, hwarn.same.1.trans hstatus, hwarn.same.2.trans hvalue⟩
  · exact ⟨hset, hstatus, hvalue⟩

lemma decided_congr {vs : List Value} (h : ∀ q, .promise q ∈ vs → SameFor q s t) : t.decided vs = s.decided vs := by
  induction vs with
  | nil => rfl
  | cons v vs ih =>
    have ih := ih fun q hq => h q (List.mem_cons_of_mem _ hq)
    cases v with
    | promise p =>
      obtain ⟨hstatus, hvalue⟩ := h p List.mem_cons_self
      simp only [decided, hstatus, hvalue, ih]
    | _ => rfl

lemma sameFor_subscribe (s : State) (q sub p : Nat) : SameFor p s (s.subscribe q sub) := by
  by_cases hp : p = q <;> simp [SameFor, State.subscribe, status, hp]

/-- The loop of `promise_race` settles its promise with the outcome that is there, or leaves it in the chains
of all elements. -/
lemma Race.call (h : s.Race elems r) {vs : List Value} (hvs : ∀ v ∈ vs, v ∈ elems)
    (hlt : ∀ q, .promise q ∈ vs → q < r) (hst : s.status r = .pending) :
    (s.raceLoop r vs).Race elems r ∧
      match s.decided vs with
      | some (st, v) => (s.raceLoop r vs).status r = st ∧ ((s.raceLoop r vs).heap r).value = v ∧ st ≠ .pending
      | none => (s.raceLoop r vs).status r = .pending ∧
        ∀ q, r ∈ (s.heap q).joined ∨ .promise q ∈ vs → r ∈ ((s.raceLoop r vs).heap q).joined := by
  induction vs generalizing s with
  | nil =>
    have hmod : Clear elems r s (s.modify r fun o => { o with promiseStatus := .pending }) :=
      h.modify (fun _ => ⟨hst.symm, rfl, h.constructed, h.thenHandler, h.catchHandler⟩)
        (fun hw => ⟨hw, rfl⟩) Iff.rfl fun hran => hran
    refine ⟨hmod.race, hmod.same.1.trans hst, fun q hq => (hmod.joined q).mpr ?_⟩
    simpa using hq
  | cons v vs ih =>
    unfold State.raceLoop
    split
    · next q =>
      have hq : q < r := hlt q List.mem_cons_self
      split
      · next hsettled =>
        have hne : s.status q ≠ .pending := by simp [hsettled]
        obtain ⟨hrace, hstatus, hvalue⟩ := h.adopt_self hst hne
        simp only [decided, if_neg hne]
        exact ⟨hrace, hstatus, hvalue, hne⟩
      · next hsettled =>
        have hne : s.status q ≠ .pending := by simp [hsettled]
        obtain ⟨hrace, hstatus, hvalue⟩ := h.adopt_self hst hne
        have htick : Clear elems r _ (State.callNextTick _ r) := hrace.callNextTick fun _ => hstatus.trans_ne hne
        simp only [decided, if_neg hne]
        exact ⟨htick.race, htick.same.1.trans hstatus, htick.same.2.trans hvalue, hne⟩
      · next hpending =>
        obtain ⟨hrace, hsame⟩ := h.join (hvs _ List.mem_cons_self) hq.ne
        have hrec := ih hrace (fun v hv => hvs v (List.mem_cons_of_mem _ hv))
          (fun p hp => hlt p (List.mem_cons_of_mem _ hp)) (hsame.1.trans hst)
        rw [decided_congr fun p _ => sameFor_subscribe s q r p] at hrec
        simp only [decided, if_pos hpending]
        refine ⟨hrec.1, ?_⟩
        revert hrec
        cases s.decided vs with
        | some o => exact fun hrec => hrec.2
        | none =>
          rintro ⟨-, hstatus, hjoined⟩
          refine ⟨hstatus, fun p hp => hjoined p ?_⟩
          rcases hp with hp | hp
          · left
            rcases eq_or_ne p q with rfl | hne
            · simp [State.subscribe]
            · simpa [State.subscribe, hne] using hp
          · rcases List.mem_cons.mp hp with heq | hp
            · cases heq
              left
              simp [State.subscribe]
            · exact .inr hp
    · next hnot =>
      have hset : (s.settle r .fulfilled v).Race elems r := h.settle_self hst (by simp) v
      refine ⟨hset, ?_⟩
      cases v with
      | promise q => exact absurd rfl (hnot q)
      | _ => simp [decided, State.settle, status]

/-! ### Runs -/

/-- The outcome of the race that was called in `s` with `js` after the call: the one that was there, or the
one of the element that was the first to be settled, when a walk took the race promise. -/
def FirstOutcome (s : State) (elems : List Value) (js : List Input) (o : Status × Value) : Prop :=
  match s.decided elems with
  | some o' => o = o'
  | none => ∃ js₁ js₂ q, js = js₁ ++ .walk :: js₂ ∧ .promise q ∈ elems ∧
    let u := machine.run (s.step (.race elems)) js₁
    u.status s.size = .pending ∧ u.status q ≠ .pending ∧ (∀ e ∈ elems, e ≠ .promise q → u.pends e = true) ∧
      o = (u.status q, (u.heap q).value)

/-- What `Promise.race` promises of its promise `r`. -/
structure Raced (s : State) (elems : List Value) (js : List Input) (r : Nat) (t : State) : Prop where
  first : t.status r ≠ .pending → s.FirstOutcome elems js (t.status r, (t.heap r).value)
  decided : s.decided elems ≠ none → t.status r ≠ .pending
  settles : t.control = [] → t.ticks = [] → (∃ q, .promise q ∈ elems ∧ t.status q ≠ .pending) →
    t.status r ≠ .pending
  walked : ∀ st v rest count, .handleThens r st v rest count ∈ t.control →
    st = t.status r ∧ v = (t.heap r).value
  inOrder : (t.heap r).ran <+: (t.heap r).joined
  complete : t.control = [] → t.ticks = [] → t.status r ≠ .pending → (t.heap r).ran = (t.heap r).joined

/-- What carries `Raced` after the call. -/
structure Racing (s : State) (elems : List Value) (js : List Input) (r : Nat) (t : State) : Prop where
  race : t.Race elems r
  below : ∀ q, .promise q ∈ elems → q < t.size
  size : r < t.size
  first : t.status r ≠ .pending → s.FirstOutcome elems js (t.status r, (t.heap r).value)
  decided : s.decided elems ≠ none → t.status r ≠ .pending
  waiting : t.status r = .pending → ∀ q, .promise q ∈ elems → r ∈ (t.heap q).joined

lemma FirstOutcome.append {js : List Input} {o : Status × Value} (h : s.FirstOutcome elems js o) (i : Input) :
    s.FirstOutcome elems (js ++ [i]) o := by
  unfold FirstOutcome at h ⊢
  split at h
  · exact h
  · obtain ⟨js₁, js₂, q, rfl, hrest⟩ := h
    exact ⟨js₁, js₂ ++ [i], q, by simp, hrest⟩

/-- The promise that `promise_race` makes has a number that stood nowhere. -/
lemma Unused.alloc (hs : Unused s) : Race elems s.size (s.alloc (.new .pending .undefined)) := by
  obtain ⟨hrace, -⟩ := hs s.size le_rfl
  refine ⟨by simp [Object.new], by simp [Object.new], by simp [Object.new], fun p => ?_, fun p => ?_,
    fun p => ?_, fun hr => ?_, fun f hf => ?_⟩
  · rcases eq_or_ne p s.size with rfl | hp
    · simp [Object.Waits, Object.new]
    · simpa [hp] using hrace.waits p
  · rcases eq_or_ne p s.size with rfl | hp
    · simp [Object.new]
    · intro hin
      have hin := hrace.joined p (by simpa [hp] using hin)
      simp at hin
  · rcases eq_or_ne p s.size with rfl | hp
    · simp [Object.new]
    · intro hin
      exact absurd (hs s.size le_rfl).2 (hrace.ran p (by simpa [hp] using hin))
  · exact absurd (hs s.size le_rfl).2 (hrace.ticks hr)
  · have hf := hrace.control f hf
    cases f with
    | handleThens id st v rest count =>
      intro hid
      exact absurd ((hf hid).1.trans (hs s.size le_rfl).2) (hf hid).2.2
    | pcall sub => exact hf
    | executor this => exact hf

lemma Racing.call (hs : Unused s) (hcall : s.enabled (.race elems) = true) :
    Racing s elems [] s.size (s.step (.race elems)) := by
  simp only [enabled, Bool.and_eq_true] at hcall
  have hlt : ∀ q, .promise q ∈ elems → q < s.size := fun q hq => ofHeap_all hcall.2 hq
  have hstep : s.step (.race elems) = (s.alloc (.new .pending .undefined)).raceLoop s.size elems := by
    simp only [State.step, enabled, hcall.1, hcall.2, Bool.and_self, if_true]
    rfl
  have hnew : Race elems s.size (s.alloc (.new .pending .undefined)) := hs.alloc
  obtain ⟨hloop, hend⟩ := hnew.call (fun v hv => hv) hlt (by simp [status, Object.new])
  have hsize : s.size + 1 ≤ ((s.alloc (.new .pending .undefined)).raceLoop s.size elems).size :=
    (kept_raceLoop (n := 0) (s := s.alloc (.new .pending .undefined)) (Nat.zero_le _) elems).size
  have hdecided : (s.alloc (.new .pending .undefined)).decided elems = s.decided elems := by
    apply decided_congr
    intro q hq
    have hne := (hlt q hq).ne
    simp [SameFor, status, hne]
  rw [hdecided] at hend
  rw [hstep]
  refine ⟨hloop, fun q hq => (hlt q hq).trans (by omega), by omega, fun hst => ?_, fun hne => ?_,
    fun hst q hq => ?_⟩
  · rw [FirstOutcome]
    split at hend
    · next hsome =>
      rw [hsome]
      exact Prod.ext hend.1 hend.2.1
    · exact absurd hend.1 hst
  · split at hend
    · rw [hend.1]
      exact hend.2.2
    · next hnone => exact absurd hnone hne
  · split at hend
    · exact absurd (hend.1.symm.trans hst) hend.2.2
    · exact hend.2 q (.inr hq)

lemma Racing.step {js : List Input} {i : Input} (h : Racing s elems js s.size t)
    (hrun : t = machine.run (s.step (.race elems)) js) (hs : Sound t)
    (hok : TakesFirst elems s.size t i) : Racing s elems (js ++ [i]) s.size (t.step i) := by
  obtain ⟨hrace, hsize, hend⟩ := h.race.step h.below hok (.inl h.size)
  refine ⟨hrace, fun q hq => (h.below q hq).trans_le hsize, h.size.trans_le hsize, fun hst => ?_,
    fun hne => ?_, fun hst q hq => ?_⟩
  · rcases hend with ⟨hsame, -⟩ | ⟨rfl, id, st, v, rest, count, frames, hctl, hstatus, hvalue, -, -⟩
    · rw [hsame.1, hsame.2]
      exact (h.first (hsame.1 ▸ hst)).append i
    · simp only [TakesFirst, hctl] at hok
      obtain ⟨hpending, hne, hid, hval, hothers⟩ := hok trivial
      have hnone : s.decided elems = none := by
        by_contra hdec
        exact h.decided hdec hpending
      rw [FirstOutcome]
      rw [hnone]
      refine ⟨js, [], id, rfl, h.race.joined _ (hs.walk_joined hctl), ?_⟩
      dsimp only
      rw [← hrun]
      exact ⟨hpending, by rwa [hid], hothers, by rw [hstatus, hvalue, hid, hval]⟩
  · rcases hend with ⟨hsame, -⟩ | ⟨rfl, id, st, v, rest, count, frames, hctl, hstatus, -⟩
    · rw [hsame.1]
      exact h.decided hne
    · simp only [TakesFirst, hctl] at hok
      rw [hstatus]
      exact (hok trivial).2.1
  · rcases hend with ⟨hsame, hjoined⟩ | ⟨rfl, id, st, v, rest, count, frames, hctl, hstatus, -, -, hjoined⟩
    · exact (hjoined q).mpr (h.waiting (hsame.1 ▸ hst) q hq)
    · simp only [TakesFirst, hctl] at hok
      exact (hjoined q).mpr (h.waiting (hok trivial).1 q hq)

lemma Racing.raced {js : List Input} (h : Racing s elems js r t) (hs : Sound t) : Raced s elems js r t where
  first := h.first
  decided := h.decided
  settles hctl hticks := by
    rintro ⟨q, hq, hst⟩ hpending
    have hchain : (t.heap q).chain = [] := by
      by_contra hne
      have hmem := hs.live q (by simp) hst hne
      simp [hticks] at hmem
    have hran : (t.heap q).ran = (t.heap q).joined := by simp [hs.ordered.order q, hctl, hchain]
    have hin := h.waiting hpending q hq
    rw [← hran] at hin
    exact h.race.ran q hin hpending
  walked st v rest count hmem := by
    obtain ⟨hstatus, hvalue, -⟩ := h.race.control _ hmem rfl
    exact ⟨hstatus, hvalue⟩
  inOrder := by
    rw [hs.ordered.order r, List.append_assoc]
    exact List.prefix_append _ _
  complete hctl hticks hst := by
    have hchain : (t.heap r).chain = [] := by
      by_contra hne
      have hmem := hs.live r (by simp) hst hne
      simp [hticks] at hmem
    simp [hs.ordered.order r, hctl, hchain]

end State

/-- A promise and its executor, which returns. -/
def pendingPromise : List Input := [.construct, .userReturn (.ok .undefined)]

/-- Two pending promises, of which the first one and then the second one is fulfilled. -/
def fulfilledBoth : List Input :=
  [.resolve 0 (.plain 5), .tick, .walk, .walk, .walk, .resolve 1 (.plain 6), .tick, .walk]

end LowJs.Promise
