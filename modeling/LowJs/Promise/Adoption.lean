import LowJs.Promise.Unhandled

/-!
# Adoption

A promise that is resolved with a promise, or whose handler returns one, takes over its outcome: at once where
that one is settled, and otherwise as one of its subscribers, without handlers of its own.
-/

namespace LowJs.Promise

def Value.isPromise : Value → Bool
  | .promise _ => true
  | _ => false

/-- The object has a handler, and nobody can resolve it. -/
def Object.Derived (o : Object) : Prop :=
  o.constructed = false ∧ (o.thenHandler ≠ none ∨ o.catchHandler ≠ none)

lemma Object.not_waits {o : Object} (hthen : o.thenHandler = none) (hcatch : o.catchHandler = none) :
    ¬o.Waits := by
  rintro ⟨g, hg, -⟩
  rw [hthen, hcatch] at hg
  rcases hg with hg | hg <;> cases hg

namespace State

variable {A : Prop} {p q id sub : Nat} {s t : State} {st : Status} {v : Value}

/-! ### What is promised -/

/-- The input makes `p` adopt `q`. -/
def Adopts (s : State) (p q : Nat) : Input → Prop
  | .resolve id value =>
    s.enabled (.resolve id value) = true ∧ s.status p = .pending ∧ id = p ∧ value = .promise q
  | .userReturn result =>
    s.enabled (.userReturn result) = true ∧ result = .ok (.promise q) ∧ ∃ frames, s.control = .pcall p :: frames
  | _ => False

/-- The next input runs a handler of `p`. -/
def RunsHandler (s : State) (p : Nat) : Input → Prop
  | .walk => ∃ id st v rest count frames, s.control = .handleThens id st v (p :: rest) count :: frames ∧
      s.callsUser st p = true
  | _ => False

/-- What holds when `p` has adopted `q`: `p` is settled with the outcome of `q` only, and has it when nothing is
left to run; the value of `p` is no promise; the subscribers of `p` are taken in order, once, with its outcome. -/
structure Follows (p q : Nat) (s : State) : Prop where
  outcome : s.status p ≠ .pending → s.status p = s.status q ∧ (s.heap p).value = (s.heap q).value
  done : s.control = [] → s.ticks = [] → s.status q ≠ .pending → s.status p ≠ .pending
  plain : (s.heap p).value.isPromise = false
  inOrder : (s.heap p).ran <+: (s.heap p).joined
  all : s.control = [] → s.ticks = [] → s.status p ≠ .pending → (s.heap p).ran = (s.heap p).joined
  walked : ∀ st v rest count, .handleThens p st v rest count ∈ s.control →
    st = s.status p ∧ v = (s.heap p).value

/-! ### The condition -/

/-- Nothing is rejected with a promise as the reason. -/
def RejectsPlain : Input → Prop
  | .reject _ reason => reason.isPromise = false
  | .promiseReject reason => reason.isPromise = false
  | .userReturn (.error reason) => reason.isPromise = false
  | _ => True

/-- The condition: no subscriber is lost, what is settled is pending, and the reasons are no promises. -/
def Admits (s : State) (i : Input) : Prop := s.Keeps i ∧ s.SettlesPending i ∧ RejectsPlain i

/-! ### The state -/

/-- A derived promise and a promise that is not resolved yet stand in one chain, or in none. -/
structure Homes (s : State) : Prop where
  members : ∀ r, ∀ x ∈ (s.heap r).joined, x < s.size
  executors : ∀ x, .executor x ∈ s.control → x < s.size ∧ (s.heap x).constructed = true
  derived : ∀ x, .pcall x ∈ s.control → x < s.size ∧ (s.heap x).Derived ∧ ∃ r, x ∈ (s.heap r).ran
  once : ∀ x, s.control.count (.pcall x) ≤ 1
  free : ∀ x, (s.heap x).constructed = true → (s.heap x).called = false → ∀ r, x ∉ (s.heap r).joined
  waiters : ∀ x, (s.heap x).Waits → (s.heap x).promise < s.size ∧
    (s.heap (s.heap x).promise).constructed = false ∧ ¬(s.heap (s.heap x).promise).Derived
  single : ∀ x, (s.heap x).Derived → ∀ r, (s.heap r).joined.count x ≤ 1 ∧
    ∀ r', x ∈ (s.heap r).joined → x ∈ (s.heap r').joined → r' = r

/-- `p` has no handlers left and waits for `q`, which alone can settle it. -/
structure Waiting (p q : Nat) (s : State) : Prop where
  size : p < s.size ∧ q < s.size
  handlers : (s.heap p).thenHandler = none ∧ (s.heap p).catchHandler = none
  joined : p ∈ (s.heap q).joined
  ran : p ∉ (s.heap q).ran
  pending : s.status p = .pending
  called : (s.heap p).constructed = true → (s.heap p).called = true
  others : ∀ r, p ∈ rests s.control r ++ (s.heap r).chain → r = q
  decided : ∀ x, (s.heap x).Waits → (s.heap x).promise ≠ p

/-- A walk works with the outcome of its promise. -/
def Right (s : State) : Frame → Prop
  | .handleThens id st v _ _ => st = s.status id ∧ v = (s.heap id).value ∧ st ≠ .pending
  | _ => True

/-- What is walked or will be walked is settled; no value is a promise; what the user can resolve has no
handlers. `A` says that `p` waits for `q`. -/
structure Steady (A : Prop) (p q : Nat) (s : State) : Prop where
  ticks : ∀ id ∈ s.ticks, s.status id ≠ .pending
  control : ∀ f ∈ s.control, s.Right f
  ran : ∀ id, (s.heap id).ran ≠ [] → s.status id ≠ .pending
  flat : ∀ id, (s.heap id).value.isPromise = false
  constructed : ∀ id, (s.heap id).constructed = true →
    (s.heap id).thenHandler = none ∧ (s.heap id).catchHandler = none
  homes : Homes s
  waits : A → Waiting p q s

lemma Steady.weaken (h : Steady A p q s) : Steady False p q s :=
  ⟨h.ticks, h.control, h.ran, h.flat, h.constructed, h.homes, False.elim⟩

/-- Nothing depends on the outcome of the object. -/
structure Bare (s : State) (id : Nat) : Prop where
  ticks : id ∉ s.ticks
  control : ∀ st v rest count, .handleThens id st v rest count ∉ s.control
  ran : (s.heap id).ran = []

lemma Steady.bare (h : Steady A p q s) (hst : s.status id = .pending) : Bare s id where
  ticks hid := h.ticks id hid hst
  control st v rest count hf := by
    obtain ⟨hst', -, hne⟩ := h.control _ hf
    exact hne (hst'.trans hst)
  ran := by
    by_contra hran
    exact h.ran id hran hst

/-! ### Where the subscribers are -/

/-- What a change of an object leaves alone, if it is no subscription. -/
structure Mild (o o' : Object) : Prop where
  ran : ∀ x ∈ o.ran, x ∈ o'.ran
  joined : o'.joined = o.joined
  chain : ∀ x ∈ o'.chain, x ∈ o.chain
  constructed : o'.constructed = o.constructed
  called : o.called = true → o'.called = true
  thenHandler : o'.thenHandler = o.thenHandler
  catchHandler : o'.catchHandler = o.catchHandler
  promise : o'.promise = o.promise

/-- The outcome, and what only `Promise.all` and the reports look at, may change. -/
lemma Mild.of_same {o o' : Object} (h : { o with
    promiseStatus := o'.promiseStatus
    value := o'.value
    warnedUnhandled := o'.warnedUnhandled
    left := o'.left
    result := o'.result } = o') : Mild o o' := by
  rw [← h]
  exact ⟨fun _ hx => hx, rfl, fun _ hx => hx, rfl, fun hc => hc, rfl, rfl, rfl⟩

lemma Mild.derived {o o' : Object} (h : Mild o o') : o'.Derived ↔ o.Derived := by
  rw [Object.Derived, Object.Derived, h.constructed, h.thenHandler, h.catchHandler]

lemma Mild.waits {o o' : Object} (h : Mild o o') : o'.Waits ↔ o.Waits := by
  rw [Object.Waits, Object.Waits, h.thenHandler, h.catchHandler]

lemma Homes.modify (h : Homes s) {f : Object → Object} (hf : Mild (s.heap id) (f (s.heap id))) :
    Homes (s.modify id f) := by
  have hfield : ∀ r, ((s.modify id f).heap r).joined = (s.heap r).joined ∧
      ((s.modify id f).heap r).constructed = (s.heap r).constructed ∧
      (((s.modify id f).heap r).Derived ↔ (s.heap r).Derived) ∧
      (((s.modify id f).heap r).Waits ↔ (s.heap r).Waits) ∧
      ((s.modify id f).heap r).promise = (s.heap r).promise ∧
      ((s.heap r).called = true → ((s.modify id f).heap r).called = true) ∧
      ∀ x ∈ (s.heap r).ran, x ∈ ((s.modify id f).heap r).ran := by
    intro r
    by_cases hr : r = id
    · subst hr
      rw [modify_heap, if_pos rfl]
      exact ⟨hf.joined, hf.constructed, hf.derived, hf.waits, hf.promise, hf.called, hf.ran⟩
    · rw [modify_heap, if_neg hr]
      exact ⟨rfl, rfl, Iff.rfl, Iff.rfl, rfl, fun hc => hc, fun x hx => hx⟩
  constructor
  case members =>
    intro r x hx
    rw [(hfield r).1] at hx
    exact h.members r x hx
  case executors =>
    intro x hx
    rw [(hfield x).2.1]
    exact h.executors x hx
  case derived =>
    intro x hx
    obtain ⟨hlt, hderived, r, hr⟩ := h.derived x hx
    exact ⟨hlt, (hfield x).2.2.1.mpr hderived, r, (hfield r).2.2.2.2.2.2 x hr⟩
  case once => exact h.once
  case free =>
    intro x hconstructed hcalled r
    rw [(hfield x).2.1] at hconstructed
    rw [(hfield r).1]
    refine h.free x hconstructed ?_ r
    by_contra hc
    rw [Bool.not_eq_false] at hc
    rw [(hfield x).2.2.2.2.2.1 hc] at hcalled
    cases hcalled
  case waiters =>
    intro x hx
    obtain ⟨hlt, hconstructed, hderived⟩ := h.waiters x ((hfield x).2.2.2.1.mp hx)
    rw [(hfield x).2.2.2.2.1, (hfield _).2.1, (hfield _).2.2.1]
    exact ⟨hlt, hconstructed, hderived⟩
  case single =>
    intro x hx r
    obtain ⟨hcount, honly⟩ := h.single x ((hfield x).2.2.1.mp hx) r
    rw [(hfield r).1]
    refine ⟨hcount, fun r' hr hr' => ?_⟩
    rw [(hfield r').1] at hr'
    exact honly r' hr hr'

/-- A handler has returned a promise. -/
lemma Homes.dropHandlers (h : Homes s) (hpcall : .pcall id ∉ s.control) :
    Homes (s.modify id fun o => { o with thenHandler := none, catchHandler := none }) := by
  have hfield : ∀ r, ((s.modify id fun o => { o with thenHandler := none, catchHandler := none }).heap r) =
      if r = id then { s.heap r with thenHandler := none, catchHandler := none } else s.heap r :=
    fun r => modify_heap s id _ r
  have hderived : ∀ r, ((s.modify id fun o => { o with thenHandler := none, catchHandler := none }).heap r).Derived →
      r ≠ id ∧ (s.heap r).Derived := by
    intro r hr
    rw [hfield] at hr
    split at hr
    · rcases hr.2 with hr | hr <;> exact absurd rfl hr
    · exact ⟨‹_›, hr⟩
  have hwaits : ∀ r, ((s.modify id fun o => { o with thenHandler := none, catchHandler := none }).heap r).Waits →
      r ≠ id ∧ (s.heap r).Waits := by
    intro r hr
    rw [hfield] at hr
    split at hr
    · exact absurd hr (Object.not_waits rfl rfl)
    · exact ⟨‹_›, hr⟩
  have hsame : ∀ r, ((s.modify id fun o => { o with thenHandler := none, catchHandler := none }).heap r).joined =
      (s.heap r).joined ∧ ((s.modify id fun o => { o with thenHandler := none, catchHandler := none }).heap r).ran =
      (s.heap r).ran ∧
      ((s.modify id fun o => { o with thenHandler := none, catchHandler := none }).heap r).constructed =
        (s.heap r).constructed ∧
      ((s.modify id fun o => { o with thenHandler := none, catchHandler := none }).heap r).called =
        (s.heap r).called ∧
      ((s.modify id fun o => { o with thenHandler := none, catchHandler := none }).heap r).promise =
        (s.heap r).promise := by
    intro r
    rw [hfield]
    split <;> exact ⟨rfl, rfl, rfl, rfl, rfl⟩
  constructor
  case members =>
    intro r x hx
    rw [(hsame r).1] at hx
    exact h.members r x hx
  case executors =>
    intro x hx
    rw [(hsame x).2.2.1]
    exact h.executors x hx
  case derived =>
    intro x hx
    have hne : x ≠ id := by
      rintro rfl
      exact hpcall hx
    obtain ⟨hlt, hx', r, hr⟩ := h.derived x hx
    refine ⟨hlt, ?_, r, ?_⟩
    · rwa [hfield, if_neg hne]
    · rwa [(hsame r).2.1]
  case once => exact h.once
  case free =>
    intro x hconstructed hcalled r
    rw [(hsame x).2.2.1] at hconstructed
    rw [(hsame x).2.2.2.1] at hcalled
    rw [(hsame r).1]
    exact h.free x hconstructed hcalled r
  case waiters =>
    intro x hx
    obtain ⟨hlt, hconstructed, hnot⟩ := h.waiters x (hwaits x hx).2
    rw [(hsame x).2.2.2.2, (hsame _).2.2.1]
    exact ⟨hlt, hconstructed, fun hd => hnot (hderived _ hd).2⟩
  case single =>
    intro x hx r
    obtain ⟨hcount, honly⟩ := h.single x (hderived x hx).2 r
    rw [(hsame r).1]
    refine ⟨hcount, fun r' hr hr' => ?_⟩
    rw [(hsame r').1] at hr'
    exact honly r' hr hr'

lemma Homes.subscribe (h : Homes s) (r : Nat) (hlt : sub < s.size)
    (hcalled : (s.heap sub).constructed = true → (s.heap sub).called = true)
    (hderived : (s.heap sub).Derived → ∀ r', sub ∉ (s.heap r').joined) : Homes (s.subscribe r sub) := by
  have hfield : ∀ x, ((s.subscribe r sub).heap x).constructed = (s.heap x).constructed ∧
      ((s.subscribe r sub).heap x).called = (s.heap x).called ∧
      (((s.subscribe r sub).heap x).Derived ↔ (s.heap x).Derived) ∧
      (((s.subscribe r sub).heap x).Waits ↔ (s.heap x).Waits) ∧
      ((s.subscribe r sub).heap x).promise = (s.heap x).promise ∧
      ((s.subscribe r sub).heap x).ran = (s.heap x).ran := by
    intro x
    by_cases hx : x = r <;> simp [State.subscribe, hx, Object.Derived, Object.Waits]
  have hjoined : ∀ x, ((s.subscribe r sub).heap x).joined =
      if x = r then (s.heap x).joined ++ [sub] else (s.heap x).joined := by
    intro x
    by_cases hx : x = r <;> simp [State.subscribe, hx]
  have hmem : ∀ x y, y ∈ ((s.subscribe r sub).heap x).joined → y ∈ (s.heap x).joined ∨ x = r ∧ y = sub := by
    intro x y hy
    rw [hjoined] at hy
    split at hy
    · rcases List.mem_append.mp hy with hy | hy
      · exact .inl hy
      · exact .inr ⟨‹_›, List.mem_singleton.mp hy⟩
    · exact .inl hy
  constructor
  case members =>
    intro x y hy
    rcases hmem x y hy with hy | ⟨-, rfl⟩
    · exact h.members x y hy
    · exact hlt
  case executors =>
    intro x hx
    rw [(hfield x).1]
    exact h.executors x hx
  case derived =>
    intro x hx
    obtain ⟨hx₁, hx₂, r', hr'⟩ := h.derived x hx
    exact ⟨hx₁, (hfield x).2.2.1.mpr hx₂, r', (hfield r').2.2.2.2.2 ▸ hr'⟩
  case once => exact h.once
  case free =>
    intro x hconstructed hc r' hr'
    rw [(hfield x).1] at hconstructed
    rw [(hfield x).2.1] at hc
    rcases hmem r' x hr' with hr' | ⟨-, rfl⟩
    · exact h.free x hconstructed hc r' hr'
    · rw [hcalled hconstructed] at hc
      cases hc
  case waiters =>
    intro x hx
    obtain ⟨hlt', hconstructed, hnot⟩ := h.waiters x ((hfield x).2.2.2.1.mp hx)
    rw [(hfield x).2.2.2.2.1, (hfield _).1, (hfield _).2.2.1]
    exact ⟨hlt', hconstructed, hnot⟩
  case single =>
    intro x hx r'
    rw [(hfield x).2.2.1] at hx
    obtain ⟨hcount, honly⟩ := h.single x hx r'
    by_cases hsub : x = sub
    · subst hsub
      have hnone := hderived hx
      constructor
      · rw [hjoined]
        split
        · rw [List.count_append, List.count_eq_zero_of_not_mem (hnone r')]
          simp
        · exact hcount
      · intro r'' hr' hr''
        rcases hmem r' x hr' with hr' | ⟨rfl, -⟩
        · exact absurd hr' (hnone r')
        · rcases hmem r'' x hr'' with hr'' | ⟨rfl, -⟩
          · exact absurd hr'' (hnone r'')
          · rfl
    · constructor
      · rw [hjoined]
        split
        · rw [List.count_append, List.count_singleton, if_neg (by simpa using Ne.symm hsub), Nat.add_zero]
          exact hcount
        · exact hcount
      · intro r'' hr' hr''
        refine honly r'' ((hmem r' x hr').resolve_right fun hx => hsub hx.2)
          ((hmem r'' x hr'').resolve_right fun hx => hsub hx.2)

lemma Homes.alloc (h : Homes s) {o : Object} (hjoined : o.joined = []) (hran : (s.heap s.size).ran = [])
    (hwaits : o.Waits → o.promise < s.size ∧ (s.heap o.promise).constructed = false ∧
      ¬(s.heap o.promise).Derived) : Homes (s.alloc o) := by
  have hne : ∀ r, r ≠ s.size → (s.alloc o).heap r = s.heap r := fun r hr => by simp [hr]
  have heq : (s.alloc o).heap s.size = o := by simp
  have hmem : ∀ x y, y ∈ ((s.alloc o).heap x).joined → y ∈ (s.heap x).joined := by
    intro x y hy
    by_cases hx : x = s.size
    · subst hx
      rw [heq, hjoined] at hy
      cases hy
    · rwa [hne x hx] at hy
  constructor
  case members =>
    intro r x hx
    exact (h.members r x (hmem r x hx)).trans (Nat.lt_succ_self _)
  case executors =>
    intro x hx
    obtain ⟨hlt, hc⟩ := h.executors x hx
    rw [hne x hlt.ne]
    exact ⟨hlt.trans (Nat.lt_succ_self _), hc⟩
  case derived =>
    intro x hx
    obtain ⟨hlt, hd, r, hr⟩ := h.derived x hx
    rw [hne x hlt.ne]
    have hr' : r ≠ s.size := by
      rintro rfl
      rw [hran] at hr
      cases hr
    exact ⟨hlt.trans (Nat.lt_succ_self _), hd, r, by rwa [hne r hr']⟩
  case once => exact h.once
  case free =>
    intro x hconstructed hcalled r hr
    have hin := hmem r x hr
    have hlt := h.members r x hin
    rw [hne x hlt.ne] at hconstructed hcalled
    exact h.free x hconstructed hcalled r hin
  case waiters =>
    intro x hx
    by_cases hxs : x = s.size
    · subst hxs
      rw [heq] at hx ⊢
      obtain ⟨hlt, h₁, h₂⟩ := hwaits hx
      rw [hne _ hlt.ne]
      exact ⟨hlt.trans (Nat.lt_succ_self _), h₁, h₂⟩
    · rw [hne x hxs] at hx ⊢
      obtain ⟨hlt, h₁, h₂⟩ := h.waiters x hx
      rw [hne _ hlt.ne]
      exact ⟨hlt.trans (Nat.lt_succ_self _), h₁, h₂⟩
  case single =>
    intro x hx r
    by_cases hxs : x = s.size
    · subst hxs
      have hnot : ∀ r, s.size ∉ ((s.alloc o).heap r).joined := by
        intro r hr
        exact (h.members r _ (hmem r _ hr)).false
      exact ⟨(List.count_eq_zero_of_not_mem (hnot r)).trans_le (Nat.zero_le _), fun r' hr _ => absurd hr (hnot r)⟩
    · rw [hne x hxs] at hx
      obtain ⟨hcount, honly⟩ := h.single x hx r
      refine ⟨?_, fun r' hr hr' => honly r' (hmem r x hr) (hmem r' x hr')⟩
      by_cases hr : r = s.size
      · subst hr
        rw [heq, hjoined]
        exact Nat.zero_le _
      · rwa [hne r hr]

lemma Homes.calls (h : Homes s) {frames : List Frame} (hexecutor : ∀ x, .executor x ∈ frames → .executor x ∈ s.control)
    (hpcall : ∀ x, frames.count (.pcall x) ≤ s.control.count (.pcall x)) : Homes { s with control := frames } where
  members := h.members
  executors x hx := h.executors x (hexecutor x hx)
  derived x hx := h.derived x (List.count_pos_iff.mp ((List.count_pos_iff.mpr hx).trans_le (hpcall x)))
  once x := (hpcall x).trans (h.once x)
  free := h.free
  waiters := h.waiters
  single := h.single

/-! ### Small operations -/

lemma Homes.congr (h : Homes s) (hheap : t.heap = s.heap) (hsize : t.size = s.size)
    (hctl : t.control = s.control) : Homes t := by
  cases s
  cases t
  dsimp only at hheap hsize hctl
  subst hheap hsize hctl
  exact ⟨h.members, h.executors, h.derived, h.once, h.free, h.waiters, h.single⟩

lemma Waiting.congr (h : Waiting p q s) (hheap : t.heap = s.heap) (hsize : t.size = s.size)
    (hctl : ∀ r, p ∈ rests t.control r → p ∈ rests s.control r) : Waiting p q t := by
  obtain ⟨h₁, h₂, h₃, h₄, h₅, h₆, h₇, h₈⟩ := h
  rw [← hheap] at h₂ h₃ h₄ h₆ h₈
  rw [← hsize] at h₁
  rw [status, ← hheap] at h₅
  refine ⟨h₁, h₂, h₃, h₄, h₅, h₆, fun r hr => ?_, h₈⟩
  rcases List.mem_append.mp hr with hr | hr
  · exact h₇ r (List.mem_append_left _ (hctl r hr))
  · rw [hheap] at hr
    exact h₇ r (List.mem_append_right _ hr)

/-- What changes no object and no call. -/
lemma Steady.congr (h : Steady A p q s) (hheap : t.heap = s.heap) (hsize : t.size = s.size)
    (hctl : t.control = s.control) (hticks : ∀ r ∈ t.ticks, s.status r ≠ .pending) : Steady A p q t := by
  have hstatus : t.status = s.status := by
    funext r
    rw [status, status, hheap]
  refine ⟨?_, ?_, ?_, ?_, ?_, h.homes.congr hheap hsize hctl, fun hA => ?_⟩
  · rw [hstatus]
    exact hticks
  · intro f hf
    rw [hctl] at hf
    cases f with
    | handleThens r st v rest count =>
      rw [Right, hstatus, hheap]
      exact h.control _ hf
    | _ => trivial
  · rw [hstatus, hheap]
    exact h.ran
  · rw [hheap]
    exact h.flat
  · rw [hheap]
    exact h.constructed
  · exact (h.waits hA).congr hheap hsize (fun r hr => hctl ▸ hr)

lemma Waiting.modify (h : Waiting p q s) {f : Object → Object}
    (hthen : (s.heap id).thenHandler = none → (f (s.heap id)).thenHandler = none)
    (hcatch : (s.heap id).catchHandler = none → (f (s.heap id)).catchHandler = none)
    (hjoined : ∀ x ∈ (s.heap id).joined, x ∈ (f (s.heap id)).joined)
    (hran : id = q → p ∈ (f (s.heap id)).ran → p ∈ (s.heap id).ran)
    (hstatus : id = p → (f (s.heap id)).promiseStatus = (s.heap id).promiseStatus)
    (hconstructed : (f (s.heap id)).constructed = (s.heap id).constructed)
    (hcalled : (s.heap id).called = true → (f (s.heap id)).called = true)
    (hchain : p ∈ (f (s.heap id)).chain → p ∈ (s.heap id).chain ∨ id = q)
    (hwaits : (f (s.heap id)).Waits → (s.heap id).Waits)
    (hpromise : (f (s.heap id)).promise = (s.heap id).promise) : Waiting p q (s.modify id f) := by
  obtain ⟨hsize, ⟨h₁, h₂⟩, h₃, h₄, h₅, h₆, h₇, h₈⟩ := h
  have hne : ∀ r, r ≠ id → (s.modify id f).heap r = s.heap r := fun r hr => by simp [hr]
  have heq : (s.modify id f).heap id = f (s.heap id) := by simp
  refine ⟨hsize, ?_, ?_, ?_, ?_, ?_, ?_, ?_⟩
  · by_cases hid : p = id
    · subst hid
      rw [heq]
      exact ⟨hthen h₁, hcatch h₂⟩
    · rw [hne p hid]
      exact ⟨h₁, h₂⟩
  · by_cases hid : q = id
    · subst hid
      rw [heq]
      exact hjoined p h₃
    · rwa [hne q hid]
  · by_cases hid : q = id
    · subst hid
      rw [heq]
      exact fun hp => h₄ (hran rfl hp)
    · rwa [hne q hid]
  · by_cases hid : p = id
    · subst hid
      rw [status, heq, hstatus rfl]
      exact h₅
    · rw [status, hne p hid]
      exact h₅
  · by_cases hid : p = id
    · subst hid
      rw [heq, hconstructed]
      exact fun hc => hcalled (h₆ hc)
    · rw [hne p hid]
      exact h₆
  · intro r hr
    by_cases hid : r = id
    · subst hid
      rw [heq] at hr
      rcases List.mem_append.mp hr with hr | hr
      · exact h₇ r (List.mem_append_left _ hr)
      · rcases hchain hr with hr | hr
        · exact h₇ r (List.mem_append_right _ hr)
        · exact hr
    · rw [hne r hid] at hr
      exact h₇ r hr
  · intro x hx
    by_cases hid : x = id
    · subst hid
      rw [heq] at hx ⊢
      rw [hpromise]
      exact h₈ x (hwaits hx)
    · rw [hne x hid] at hx ⊢
      exact h₈ x hx

/-- An object may change its outcome where nothing depends on it. -/
lemma Steady.change (h : Steady A p q s) {f : Object → Object}
    (hout : ((f (s.heap id)).promiseStatus = (s.heap id).promiseStatus ∧
      (f (s.heap id)).value = (s.heap id).value) ∨ Bare s id ∧ (f (s.heap id)).value.isPromise = false)
    (hran : (f (s.heap id)).ran = (s.heap id).ran)
    (hconstructed : (f (s.heap id)).constructed = (s.heap id).constructed)
    (hthen : (s.heap id).thenHandler = none → (f (s.heap id)).thenHandler = none)
    (hcatch : (s.heap id).catchHandler = none → (f (s.heap id)).catchHandler = none)
    (hhomes : Homes (s.modify id f)) (hwaits : A → Waiting p q (s.modify id f)) :
    Steady A p q (s.modify id f) := by
  have hne : ∀ r, r ≠ id → (s.modify id f).heap r = s.heap r := fun r hr => by simp [hr]
  have heq : (s.modify id f).heap id = f (s.heap id) := by simp
  refine ⟨?_, ?_, ?_, ?_, ?_, hhomes, hwaits⟩
  case refine_1 =>
    intro r hr
    by_cases hid : r = id
    · subst hid
      rcases hout with hout | hout
      · rw [status, heq, hout.1]
        exact h.ticks r hr
      · exact absurd hr hout.1.ticks
    · rw [status, hne r hid]
      exact h.ticks r hr
  case refine_2 =>
    intro g hg
    cases g with
    | handleThens r st v rest count =>
      by_cases hid : r = id
      · subst hid
        rcases hout with hout | hout
        · rw [Right, status, heq, hout.1, hout.2]
          exact h.control _ hg
        · exact absurd hg (hout.1.control st v rest count)
      · rw [Right, status, hne r hid]
        exact h.control _ hg
    | _ => trivial
  case refine_3 =>
    intro r hr
    by_cases hid : r = id
    · subst hid
      rw [heq, hran] at hr
      rcases hout with hout | hout
      · rw [status, heq, hout.1]
        exact h.ran r hr
      · exact absurd hout.1.ran hr
    · rw [hne r hid] at hr
      rw [status, hne r hid]
      exact h.ran r hr
  case refine_4 =>
    intro r
    by_cases hid : r = id
    · subst hid
      rw [heq]
      rcases hout with hout | hout
      · rw [hout.2]
        exact h.flat r
      · exact hout.2
    · rw [hne r hid]
      exact h.flat r
  case refine_5 =>
    intro r hr
    by_cases hid : r = id
    · subst hid
      rw [heq] at hr ⊢
      rw [hconstructed] at hr
      obtain ⟨h₁, h₂⟩ := h.constructed r hr
      exact ⟨hthen h₁, hcatch h₂⟩
    · rw [hne r hid] at hr ⊢
      exact h.constructed r hr

/-- A change that is no subscription; the outcome of `p` is left alone. -/
lemma Steady.modify (h : Steady A p q s) {f : Object → Object}
    (hout : ((f (s.heap id)).promiseStatus = (s.heap id).promiseStatus ∧
      (f (s.heap id)).value = (s.heap id).value) ∨
      (Bare s id ∧ (f (s.heap id)).value.isPromise = false) ∧ (A → id ≠ p))
    (hran : (f (s.heap id)).ran = (s.heap id).ran) (hf : Mild (s.heap id) (f (s.heap id))) :
    Steady A p q (s.modify id f) := by
  refine h.change (hout.imp_right And.left) hran hf.constructed (fun hn => hf.thenHandler.trans hn)
    (fun hn => hf.catchHandler.trans hn) (h.homes.modify hf) (fun hA => ?_)
  refine (h.waits hA).modify (fun hn => hf.thenHandler.trans hn) (fun hn => hf.catchHandler.trans hn)
    (fun x hx => hf.joined ▸ hx) (fun _ hp => hran ▸ hp) (fun hid => ?_) hf.constructed hf.called
    (fun hp => .inl (hf.chain p hp)) hf.waits.mp hf.promise
  rcases hout with hout | hout
  · exact hout.1
  · exact absurd hid (hout.2 hA)

/-- A change that leaves the outcome and the subscribers alone. -/
lemma Steady.touch (h : Steady A p q s) {f : Object → Object}
    (hout : ∀ o : Object, (f o).promiseStatus = o.promiseStatus ∧ (f o).value = o.value ∧ (f o).ran = o.ran)
    (hf : ∀ o : Object, Mild o (f o)) : Steady A p q (s.modify id f) :=
  h.modify (.inl ⟨(hout _).1, (hout _).2.1⟩) (hout _).2.2 (hf _)

lemma Steady.settle (h : Steady A p q s) (hb : Bare s id) (hv : v.isPromise = false) (hid : A → id ≠ p) :
    Steady A p q (s.settle id st v) :=
  h.modify (.inr ⟨⟨hb, hv⟩, hid⟩) rfl (.of_same rfl)

lemma status_settle : (s.settle id st v).status id = st := by simp [State.settle, status]

lemma Steady.adopt (h : Steady A p q s) (hb : Bare s id) (hid : A → id ≠ p) (r : Nat) :
    Steady A p q (s.adopt id r) := by
  have hset : Steady A p q (s.settle id (s.status r) (s.heap r).value) := h.settle hb (h.flat r) hid
  rw [State.adopt]
  split
  · exact hset.touch (fun _ => ⟨rfl, rfl, rfl⟩)
      fun _ => .of_same rfl
  · exact hset

lemma status_adopt (r : Nat) : (s.adopt id r).status id = s.status r := by
  rw [State.adopt]
  split
  · by_cases hid : id = r <;> simp [State.settle, status, hid]
  · exact status_settle

lemma value_adopt (r : Nat) : ((s.adopt id r).heap id).value = (s.heap r).value := by
  rw [State.adopt]
  split
  · by_cases hid : id = r <;> simp [State.settle, hid]
  · simp [State.settle]

lemma Steady.callNextTick (h : Steady A p q s) (hst : s.status id ≠ .pending) :
    Steady A p q (s.callNextTick id) := by
  refine h.congr rfl rfl rfl ?_
  intro r hr
  rcases List.mem_cons.mp hr with rfl | hr
  · exact hst
  · exact h.ticks r hr

/-- The calls may change to others that are right. -/
lemma Steady.calls (h : Steady A p q s) {frames : List Frame} (hf : ∀ f ∈ frames, s.Right f)
    (hexecutor : ∀ x, .executor x ∈ frames → .executor x ∈ s.control)
    (hpcall : ∀ x, frames.count (.pcall x) ≤ s.control.count (.pcall x))
    (hrests : ∀ r, ∀ x ∈ rests frames r, x ∈ rests s.control r) : Steady A p q { s with control := frames } :=
  ⟨h.ticks, hf, h.ran, h.flat, h.constructed, h.homes.calls hexecutor hpcall,
    fun hA => (h.waits hA).congr rfl rfl fun r => hrests r p⟩

/-- A call returns. -/
lemma Steady.pop (h : Steady A p q s) {f : Frame} {frames : List Frame} (hctl : s.control = f :: frames) :
    Steady A p q { s with control := frames } := by
  refine h.calls (fun g hg => h.control g ?_) (fun x hx => ?_) (fun x => ?_) (fun r x hx => ?_)
  · rw [hctl]
    exact List.mem_cons_of_mem _ hg
  · rw [hctl]
    exact List.mem_cons_of_mem _ hx
  · rw [hctl]
    exact List.count_le_count_cons
  · rw [hctl, rests_cons]
    exact List.mem_append_right _ hx

lemma Steady.handleThens (h : Steady A p q s) (hst : s.status id ≠ .pending) :
    Steady A p q (s.promise_handle_thens id) := by
  have hmod : Steady A p q (s.modify id fun o => { o with chain := [] }) :=
    h.touch (fun _ => ⟨rfl, rfl, rfl⟩)
      fun _ => ⟨fun _ hx => hx, rfl, fun _ hx => absurd hx List.not_mem_nil, rfl, fun hc => hc, rfl, rfl, rfl⟩
  refine ⟨hmod.ticks, ?_, hmod.ran, hmod.flat, hmod.constructed, ?_, fun hA => ?_⟩
  · intro f hf
    rcases List.mem_cons.mp hf with rfl | hf
    · refine ⟨?_, ?_, hst⟩
      · simp [status, promise_handle_thens]
      · simp [promise_handle_thens]
    · exact hmod.control f hf
  · refine hmod.homes.calls (fun x hx => ?_) (fun x => ?_)
    · rcases List.mem_cons.mp hx with hx | hx
      · cases hx
      · exact hx
    · rw [List.count_cons_of_ne (by simp)]
      exact le_rfl
  · obtain ⟨h₁, h₂, h₃, h₄, h₅, h₆, h₇, h₈⟩ := hmod.waits hA
    refine ⟨h₁, h₂, h₃, h₄, h₅, h₆, fun r hr => ?_, h₈⟩
    rcases List.mem_append.mp hr with hr | hr
    · rw [promise_handle_thens, rests_cons] at hr
      rcases List.mem_append.mp hr with hr | hr
      · rw [Frame.restOf] at hr
        split at hr
        · next hid => exact (h.waits hA).others r (List.mem_append_right _ (hid ▸ hr))
        · cases hr
      · exact h₇ r (List.mem_append_left _ hr)
    · exact h₇ r (List.mem_append_right _ hr)

lemma Steady.subscribe (h : Steady A p q s) (r : Nat) (hlt : sub < s.size)
    (hcalled : (s.heap sub).constructed = true → (s.heap sub).called = true)
    (hderived : (s.heap sub).Derived → ∀ r', sub ∉ (s.heap r').joined) (hsub : A → sub ≠ p) :
    Steady A p q (s.subscribe r sub) := by
  refine h.change (.inl ⟨rfl, rfl⟩) rfl rfl (fun hn => hn) (fun hn => hn) (h.homes.subscribe r hlt hcalled hderived)
    (fun hA => ?_)
  refine (h.waits hA).modify (fun hn => hn) (fun hn => hn) (fun _ hx => List.mem_append_left _ hx) (fun _ hp => hp)
    (fun _ => rfl) rfl (fun hc => hc) (fun hp => ?_) (fun hw => hw) rfl
  rcases List.mem_append.mp hp with hp | hp
  · exact .inl hp
  · exact absurd (List.mem_singleton.mp hp).symm (hsub hA)

lemma status_subscribe (r : Nat) : (s.subscribe r sub).status id = s.status id := by
  by_cases hid : id = r <;> simp [State.subscribe, status, hid]

lemma Steady.dropHandlers (h : Steady A p q s) (hpcall : .pcall id ∉ s.control) :
    Steady A p q (s.modify id fun o => { o with thenHandler := none, catchHandler := none }) := by
  refine h.change (.inl ⟨rfl, rfl⟩) rfl rfl (fun _ => rfl) (fun _ => rfl) (h.homes.dropHandlers hpcall) (fun hA => ?_)
  refine (h.waits hA).modify (fun _ => rfl) (fun _ => rfl) (fun _ hx => hx) (fun _ hp => hp) (fun _ => rfl) rfl
    (fun hc => hc) .inl (fun hw => absurd hw (Object.not_waits rfl rfl)) rfl

lemma Steady.alloc (h : Steady A p q s) (hnew : s.status s.size = .pending) {o : Object}
    (hvalue : o.value.isPromise = false) (hran : o.ran = []) (hjoined : o.joined = []) (hchain : o.chain = [])
    (hconstructed : o.constructed = true → o.thenHandler = none ∧ o.catchHandler = none)
    (hwaits : o.Waits → (o.promise < s.size ∧ (s.heap o.promise).constructed = false ∧
      ¬(s.heap o.promise).Derived) ∧ (A → o.promise ≠ p)) :
    Steady A p q (s.alloc o) := by
  have hb := h.bare hnew
  have hne : ∀ r, r ≠ s.size → (s.alloc o).heap r = s.heap r := fun r hr => by simp [hr]
  have heq : (s.alloc o).heap s.size = o := by simp
  constructor
  case ticks =>
    intro r hr
    have hid : r ≠ s.size := by
      rintro rfl
      exact hb.ticks hr
    rw [status, hne r hid]
    exact h.ticks r hr
  case control =>
    intro g hg
    cases g with
    | handleThens r st v rest count =>
      have hid : r ≠ s.size := by
        rintro rfl
        exact hb.control st v rest count hg
      rw [Right, status, hne r hid]
      exact h.control _ hg
    | _ => trivial
  case ran =>
    intro r hr
    by_cases hid : r = s.size
    · subst hid
      rw [heq] at hr
      exact absurd hran hr
    · rw [hne r hid] at hr
      rw [status, hne r hid]
      exact h.ran r hr
  case flat =>
    intro r
    by_cases hid : r = s.size
    · subst hid
      rwa [heq]
    · rw [hne r hid]
      exact h.flat r
  case constructed =>
    intro r hr
    by_cases hid : r = s.size
    · subst hid
      rw [heq] at hr ⊢
      exact hconstructed hr
    · rw [hne r hid] at hr ⊢
      exact h.constructed r hr
  case homes => exact h.homes.alloc hjoined hb.ran fun hw => (hwaits hw).1
  case waits =>
    intro hA
    obtain ⟨⟨hp, hq⟩, h₂, h₃, h₄, h₅, h₆, h₇, h₈⟩ := h.waits hA
    refine ⟨⟨hp.trans (Nat.lt_succ_self _), hq.trans (Nat.lt_succ_self _)⟩, ?_, ?_, ?_, ?_, ?_, ?_, ?_⟩
    · rwa [hne p hp.ne]
    · rwa [hne q hq.ne]
    · rwa [hne q hq.ne]
    · rw [status, hne p hp.ne]
      exact h₅
    · rwa [hne p hp.ne]
    · intro r hr
      by_cases hid : r = s.size
      · subst hid
        rw [heq, hchain, List.append_nil] at hr
        exact h₇ _ (List.mem_append_left _ hr)
      · rw [hne r hid] at hr
        exact h₇ r hr
    · intro x hx
      by_cases hid : x = s.size
      · subst hid
        rw [heq] at hx ⊢
        exact (hwaits hx).2 hA
      · rw [hne x hid] at hx ⊢
        exact h₈ x hx

lemma Homes.new_notMem (h : Homes s) {o : Object} (hjoined : o.joined = []) (r : Nat) :
    s.size ∉ ((s.alloc o).heap r).joined := by
  rw [alloc_heap]
  split
  · rw [hjoined]
    exact List.not_mem_nil
  · exact fun hr => (h.members r _ hr).false

/-- A call is made that is no walk. -/
lemma Steady.push (h : Steady A p q s) {f : Frame} (hright : s.Right f) (hrest : ∀ r, f.restOf r = [])
    (hhomes : Homes { s with control := f :: s.control }) :
    Steady A p q { s with control := f :: s.control } := by
  refine ⟨h.ticks, ?_, h.ran, h.flat, h.constructed, hhomes, fun hA => (h.waits hA).congr rfl rfl fun r hr => ?_⟩
  · intro g hg
    rcases List.mem_cons.mp hg with rfl | hg
    · exact hright
    · exact h.control g hg
  · rwa [rests_cons, hrest r, List.nil_append] at hr

lemma Homes.pushExecutor (h : Homes s) (hlt : id < s.size) (hconstructed : (s.heap id).constructed = true) :
    Homes { s with control := .executor id :: s.control } where
  members := h.members
  executors x hx := by
    rcases List.mem_cons.mp hx with hx | hx
    · obtain rfl : x = id := by simpa using hx
      exact ⟨hlt, hconstructed⟩
    · exact h.executors x hx
  derived x hx := h.derived x (by simpa using hx)
  once x := by
    rw [List.count_cons_of_ne (by simp)]
    exact h.once x
  free := h.free
  waiters := h.waiters
  single := h.single

lemma Homes.pushPcall (h : Homes s) (hlt : sub < s.size) (hderived : (s.heap sub).Derived)
    (hran : ∃ r, sub ∈ (s.heap r).ran) (hpcall : .pcall sub ∉ s.control) :
    Homes { s with control := .pcall sub :: s.control } where
  members := h.members
  executors x hx := h.executors x (by simpa using hx)
  derived x hx := by
    rcases List.mem_cons.mp hx with hx | hx
    · obtain rfl : x = sub := by simpa using hx
      exact ⟨hlt, hderived, hran⟩
    · exact h.derived x hx
  once x := by
    by_cases hx : x = sub
    · subst hx
      rw [List.count_cons_self, List.count_eq_zero_of_not_mem hpcall]
    · rw [List.count_cons_of_ne (by simpa using Ne.symm hx)]
      exact h.once x
  free := h.free
  waiters := h.waiters
  single := h.single

/-! ### The functions -/

lemma Steady.called (h : Steady A p q s) : Steady A p q (s.modify id fun o => { o with called := true }) :=
  h.touch (fun _ => ⟨rfl, rfl, rfl⟩) fun _ => ⟨fun _ hx => hx, rfl, fun _ hx => hx, rfl, fun _ => rfl, rfl, rfl, rfl⟩

lemma Steady.param_resolve (h : Steady A p q s) (hlt : id < s.size) (hconstructed : (s.heap id).constructed = true)
    (hid : A → id ≠ p) (value : Value) : Steady A p q (s.promise_param_resolve id value) := by
  rw [promise_param_resolve.eq_def]
  have h₁ : Steady A p q (s.modify id fun o => { o with called := true }) := h.called
  have hcalled : ((s.modify id fun o => { o with called := true }).heap id).called = true := by simp
  have hconstructed' : ((s.modify id fun o => { o with called := true }).heap id).constructed = true := by
    simpa using hconstructed
  have hlt' : id < (s.modify id fun o => { o with called := true }).size := hlt
  generalize s.modify id (fun o => { o with called := true }) = t at h₁ hcalled hconstructed' hlt'
  dsimp only
  split
  case isFalse => exact h₁
  case isTrue hst =>
    have hb := h₁.bare hst
    cases value with
    | promise r =>
      dsimp only
      split
      · next hr => exact (h₁.adopt hb hid r).callNextTick (by rwa [status_adopt])
      · refine h₁.subscribe r hlt' (fun _ => hcalled) (fun hd => ?_) hid
        rw [hd.1] at hconstructed'
        cases hconstructed'
    | _ => exact (h₁.settle hb rfl hid).callNextTick (by rw [status_settle]; decide)

lemma Steady.param_reject (h : Steady A p q s) (hid : A → id ≠ p) (hv : v.isPromise = false) :
    Steady A p q (s.promise_param_reject id v) := by
  rw [promise_param_reject]
  have h₁ : Steady A p q (s.modify id fun o => { o with called := true }) := h.called
  generalize s.modify id (fun o => { o with called := true }) = t at h₁
  split
  case isFalse => exact h₁
  case isTrue hst => exact (h₁.settle (h₁.bare hst) hv hid).callNextTick (by rw [status_settle]; decide)

lemma Steady.settle_walk (h : Steady A p q s) (hb : Bare s id) (hst : st ≠ .pending) (hv : v.isPromise = false)
    (hid : A → id ≠ p) : Steady A p q ((s.settle id st v).promise_handle_thens id) :=
  (h.settle hb hv hid).handleThens (by rwa [status_settle])

lemma Steady.handlerResult (h : Steady A p q s) (hst : s.status sub = .pending) (hsub : A → sub ≠ p)
    {result : Except Value Value} (hresult : ∀ v, result = .error v → v.isPromise = false)
    (hdrop : ∀ r, result = .ok (.promise r) →
      sub < s.size ∧ (s.heap sub).constructed = false ∧ .pcall sub ∉ s.control) :
    Steady A p q (s.handlerResult sub result) := by
  have hb := h.bare hst
  rw [State.handlerResult.eq_def]
  cases result with
  | error v => exact h.settle_walk hb (by decide) (hresult v rfl) hsub
  | ok v =>
    cases v with
    | promise r =>
      dsimp only
      split
      · next hr => exact (h.adopt hb hsub r).handleThens (by rwa [status_adopt])
      · obtain ⟨hlt, hconstructed, hpcall⟩ := hdrop r rfl
        refine (h.dropHandlers hpcall).subscribe r hlt (fun hc => ?_) (fun hd => ?_) hsub
        · simp [hconstructed] at hc
        · simp [Object.Derived] at hd
    | _ => exact h.settle_walk hb (by decide) rfl hsub

lemma Steady.putIndex (h : Steady A p q s) {target : Value} {i : Nat} (hput : s.putIndex target i v = some t) :
    Steady A p q t := by
  cases target with
  | undefined => simp [State.putIndex] at hput
  | plain k => simp [State.putIndex] at hput
  | array r =>
    obtain rfl := Option.some.inj hput
    exact h.touch (fun _ => ⟨rfl, rfl, rfl⟩) fun _ => .of_same rfl
  | _ =>
    obtain rfl := Option.some.inj hput
    exact h

lemma Steady.all_resolved (h : Steady A p q s)
    (hd : (s.heap (s.heap sub).promise).left = some 1 → s.status (s.heap sub).promise = .pending)
    (hid : A → (s.heap sub).promise ≠ p) :
    Steady A p q (s.promise_all_resolved sub v).2 ∧
      (∀ e, (s.promise_all_resolved sub v).1 = .error e → e.isPromise = false) ∧
      ∀ r, (s.promise_all_resolved sub v).1 ≠ .ok (.promise r) := by
  rw [promise_all_resolved]
  split
  · refine ⟨h, ?_, fun r hr => by cases hr⟩
    rintro _ ⟨⟩
    rfl
  · next left hleft =>
    split
    · refine ⟨h, ?_, fun r hr => by cases hr⟩
      rintro _ ⟨⟩
      rfl
    · next t hput =>
      have ht := h.putIndex hput
      have hstatus := (kept_putIndex (n := 0) hput).2
      split
      · next hone =>
        refine ⟨?_, (fun e he => by cases he), fun r hr => by cases hr⟩
        have hpending : t.status (s.heap sub).promise = .pending := by
          rw [hstatus]
          refine hd (hleft.trans ?_)
          rw [sub_eq_zero.mp hone]
        have hmod : Steady A p q (t.modify (s.heap sub).promise fun o => { o with promiseStatus := .fulfilled }) :=
          ht.modify (.inr ⟨⟨ht.bare hpending, ht.flat _⟩, hid⟩) rfl
            (.of_same rfl)
        refine hmod.callNextTick ?_
        simp [status]
      · have hless : Steady A p q (t.modify (s.heap sub).promise fun o => { o with left := some (left - 1) }) :=
          ht.touch (fun _ => ⟨rfl, rfl, rfl⟩)
            fun _ => .of_same rfl
        exact ⟨hless, (fun e he => by cases he), fun r hr => by cases hr⟩

lemma Steady.all_rejected (h : Steady A p q s) (hd : s.status (s.heap sub).promise = .pending)
    (hid : A → (s.heap sub).promise ≠ p) (hv : v.isPromise = false) :
    Steady A p q (s.promise_all_rejected sub v) :=
  (h.settle (h.bare hd) hv hid).callNextTick (by rw [status_settle]; decide)

lemma Bare.touch (h : Bare s id) {r : Nat} {f : Object → Object} (hf : ∀ o : Object, (f o).ran = o.ran) :
    Bare (s.modify r f) id := by
  refine ⟨h.ticks, h.control, ?_⟩
  by_cases hid : id = r
  · subst hid
    simpa [hf] using h.ran
  · simpa [hid] using h.ran

lemma Bare.alloc (h : Bare s id) (hid : id ≠ s.size) (o : Object) : Bare (s.alloc o) id := by
  refine ⟨h.ticks, h.control, ?_⟩
  simpa [hid] using h.ran

lemma Steady.allLoop (h : Steady A p q s) (hb : Bare s id) (hid : id < s.size) (hne : A → id ≠ p)
    (hlone : (s.heap id).constructed = false ∧ ¬(s.heap id).Derived)
    (hnew : ∀ r, s.size ≤ r → s.status r = .pending) (left : Int) (elems : List Value) (i : Nat) :
    Steady A p q (s.allLoop id left elems i) := by
  induction elems generalizing s left i with
  | nil =>
    exact h.modify (.inr ⟨⟨hb, h.flat id⟩, hne⟩) rfl
      (.of_same rfl)
  | cons v elems ih =>
    have hput : ∀ v, Steady A p q
        ((s.modify id fun o => { o with result := setAt o.result i v }).allLoop id left elems (i + 1)) := by
      intro v
      have hmod : Steady A p q (s.modify id fun o => { o with result := setAt o.result i v }) :=
        h.touch (fun _ => ⟨rfl, rfl, rfl⟩)
          fun _ => .of_same rfl
      have hb' : Bare (s.modify id fun o => { o with result := setAt o.result i v }) id := hb.touch fun o => rfl
      refine ih hmod hb' hid ?_ ?_ left (i + 1)
      · simpa [Object.Derived] using hlone
      · intro r hr
        have hr' : r ≠ id := (hid.trans_le hr).ne'
        simpa [status, hr'] using hnew r hr
    rw [State.allLoop.eq_def]
    cases v with
    | promise r =>
      dsimp only
      split
      · exact hput _
      · next hr => exact (h.adopt hb hne r).callNextTick (by rw [status_adopt, hr]; decide)
      · have halloc : Steady A p q (s.alloc (waiter id i)) :=
          h.alloc (hnew _ le_rfl) rfl rfl rfl rfl (fun hc => by cases hc) fun _ => ⟨⟨hid, hlone⟩, hne⟩
        have hjoin : Steady A p q ((s.alloc (waiter id i)).subscribe r s.size) := by
          refine halloc.subscribe r (Nat.lt_succ_self _) (fun hc => ?_)
            (fun _ r' => h.homes.new_notMem rfl r') (fun hA => ?_)
          · simp [waiter, Object.new] at hc
          · exact ((h.waits hA).size.1).ne'
        refine ih hjoin ((hb.alloc hid.ne _).touch fun o => rfl) (hid.trans (Nat.lt_succ_self _)) ?_ ?_ _ _
        · by_cases hr : id = r
          · subst hr
            simpa [State.subscribe, hid.ne, Object.Derived] using hlone
          · simpa [State.subscribe, hid.ne, hr, Object.Derived] using hlone
        · intro r' hr'
          have hlt : s.size < r' := hr'
          rw [status_subscribe, status, alloc_heap, if_neg hlt.ne']
          exact hnew r' hlt.le
    | _ => exact hput _

lemma Steady.raceLoop (h : Steady A p q s) (hb : Bare s id) (hid : id < s.size) (hne : A → id ≠ p)
    (hlone : (s.heap id).constructed = false ∧ ¬(s.heap id).Derived) (elems : List Value) :
    Steady A p q (s.raceLoop id elems) := by
  induction elems generalizing s with
  | nil =>
    exact h.modify (.inr ⟨⟨hb, h.flat id⟩, hne⟩) rfl
      (.of_same rfl)
  | cons v elems ih =>
    rw [State.raceLoop.eq_def]
    cases v with
    | promise r =>
      dsimp only
      split
      · exact h.adopt hb hne r
      · next hr => exact (h.adopt hb hne r).callNextTick (by rw [status_adopt, hr]; decide)
      · have hjoin : Steady A p q (s.subscribe r id) := by
          refine h.subscribe r hid (fun hc => ?_) (fun hd => absurd hd hlone.2) hne
          rw [hlone.1] at hc
          cases hc
        refine ih hjoin (hb.touch fun o => rfl) hid ?_
        by_cases hr : id = r
        · subst hr
          simpa [State.subscribe, Object.Derived] using hlone
        · simpa [State.subscribe, hr, Object.Derived] using hlone
    | _ => exact h.settle hb rfl hne

lemma not_waits_user {onThen onCatch : Option Nat} : ¬({ Object.new .pending .undefined with
    thenHandler := onThen.map .user
    catchHandler := onCatch.map .user } : Object).Waits := by
  rintro ⟨g, hg, hg'⟩
  rcases hg with hg | hg
  · obtain ⟨f, -, rfl⟩ := Option.map_eq_some_iff.mp hg
    rcases hg' with hg' | hg' <;> cases hg'
  · obtain ⟨f, -, rfl⟩ := Option.map_eq_some_iff.mp hg
    rcases hg' with hg' | hg' <;> cases hg'

lemma Steady.then_catch (h : Steady A p q s) (hnew : s.status s.size = .pending) (hid : id < s.size)
    (onThen onCatch : Option Nat) : Steady A p q (s.promise_then_catch id onThen onCatch) := by
  have halloc : Steady A p q (s.alloc { Object.new .pending .undefined with
      thenHandler := onThen.map .user
      catchHandler := onCatch.map .user }) :=
    h.alloc hnew rfl rfl rfl rfl (fun hc => by cases hc) fun hw => absurd hw not_waits_user
  have hjoin : Steady A p q ((s.alloc { Object.new .pending .undefined with
      thenHandler := onThen.map .user
      catchHandler := onCatch.map .user }).subscribe id s.size) := by
    refine halloc.subscribe id (Nat.lt_succ_self _) (fun hc => ?_) (fun _ r' => h.homes.new_notMem rfl r')
      (fun hA => ((h.waits hA).size.1).ne')
    simp [Object.new] at hc
  rw [promise_then_catch]
  dsimp only
  split
  · next hst =>
    refine hjoin.callNextTick ?_
    rwa [status_subscribe, status, alloc_heap, if_neg hid.ne]
  · exact hjoin

/-! ### The walk -/

lemma Steady.walkNext (h : Steady A p q s) (hst : st ≠ .pending) (hv : v.isPromise = false)
    (hpending : s.status sub = .pending) (hsub : A → sub ≠ p) (hlt : sub < s.size)
    (hpcall : .pcall sub ∉ s.control) (hran : ∃ r, sub ∈ (s.heap r).ran) (hwaits : s.WaitsForOlder)
    (hd : s.DecidesPending st sub) : Steady A p q (s.walkNext st v sub) := by
  rw [State.walkNext]
  rw [DecidesPending] at hd
  have hhandler {g : Handler} (hn : (if st = .fulfilled then (s.heap sub).thenHandler
      else (s.heap sub).catchHandler) = some g) :
      (s.heap sub).thenHandler = some g ∨ (s.heap sub).catchHandler = some g := by
    split at hn
    · exact .inl hn
    · exact .inr hn
  split
  · exact h.settle_walk (h.bare hpending) hst hv hsub
  · next f hn =>
    have hderived : (s.heap sub).Derived := by
      have hsome : (s.heap sub).thenHandler ≠ none ∨ (s.heap sub).catchHandler ≠ none := by
        rcases hhandler hn with hn | hn
        · exact .inl (by simp [hn])
        · exact .inr (by simp [hn])
      refine ⟨?_, hsome⟩
      by_contra hc
      rw [Bool.not_eq_false] at hc
      obtain ⟨h₁, h₂⟩ := h.constructed sub hc
      exact hsome.elim (fun hs => hs h₁) fun hs => hs h₂
    have hpush := h.push (f := .pcall sub) trivial (fun r => rfl) (h.homes.pushPcall hlt hderived hran hpcall)
    exact hpush.congr rfl rfl rfl h.ticks
  · next hn =>
    rw [hn] at hd
    have hw : (s.heap sub).Waits := ⟨_, hhandler hn, .inl rfl⟩
    obtain ⟨hall, hresult, hplain⟩ := h.all_resolved (v := v) hd fun hA => (h.waits hA).decided sub hw
    refine hall.handlerResult ?_ hsub hresult fun r hr => absurd hr (hplain r)
    rw [all_resolved_status (hwaits sub hw).ne', hpending]
  · next hn =>
    rw [hn] at hd
    have hw : (s.heap sub).Waits := ⟨_, hhandler hn, .inr rfl⟩
    refine (h.all_rejected hd (fun hA => (h.waits hA).decided sub hw) hv).handlerResult ?_ hsub
      (fun e he => by cases he) (fun r hr => by cases hr)
    have hne := (hwaits sub hw).ne'
    simpa only [promise_all_rejected, State.settle, status, callNextTick_heap, modify_heap, if_neg hne] using hpending

/-- A subscriber is taken that is not `p`. -/
lemma Steady.take (h : Steady A p q s) (hst : s.status id ≠ .pending) (hsub : A → sub ≠ p) :
    Steady A p q (s.modify id fun o => { o with ran := o.ran ++ [sub] }) := by
  have hfield : ∀ r, ((s.modify id fun o => { o with ran := o.ran ++ [sub] }).status r = s.status r) ∧
      ((s.modify id fun o => { o with ran := o.ran ++ [sub] }).heap r).value = (s.heap r).value ∧
      ((s.modify id fun o => { o with ran := o.ran ++ [sub] }).heap r).constructed = (s.heap r).constructed ∧
      ((s.modify id fun o => { o with ran := o.ran ++ [sub] }).heap r).thenHandler = (s.heap r).thenHandler ∧
      ((s.modify id fun o => { o with ran := o.ran ++ [sub] }).heap r).catchHandler = (s.heap r).catchHandler := by
    intro r
    by_cases hid : r = id <;> simp [status, hid]
  constructor
  case ticks =>
    intro r hr
    rw [(hfield r).1]
    exact h.ticks r hr
  case control =>
    intro f hf
    cases f with
    | handleThens r st v rest count =>
      rw [Right, (hfield r).1, (hfield r).2.1]
      exact h.control _ hf
    | _ => trivial
  case ran =>
    intro r hr
    rw [(hfield r).1]
    by_cases hid : r = id
    · rwa [hid]
    · exact h.ran r (by simpa [hid] using hr)
  case flat =>
    intro r
    rw [(hfield r).2.1]
    exact h.flat r
  case constructed =>
    intro r hr
    rw [(hfield r).2.2.1] at hr
    rw [(hfield r).2.2.2.1, (hfield r).2.2.2.2]
    exact h.constructed r hr
  case homes =>
    exact h.homes.modify ⟨fun _ hx => List.mem_append_left _ hx, rfl, fun _ hx => hx, rfl, fun hc => hc, rfl, rfl, rfl⟩
  case waits =>
    intro hA
    refine (h.waits hA).modify (fun hn => hn) (fun hn => hn) (fun _ hx => hx) (fun _ hp => ?_) (fun _ => rfl) rfl
      (fun hc => hc) .inl (fun hw => hw) rfl
    rcases List.mem_append.mp hp with hp | hp
    · exact hp
    · exact absurd (List.mem_singleton.mp hp).symm (hsub hA)

/-- The handler of a subscriber that is still to be taken does not run. -/
lemma Homes.not_running (h : Homes s) (hs : s.Sound) {rest : List Nat} {count : Nat} {frames : List Frame}
    (hctl : s.control = .handleThens id st v (sub :: rest) count :: frames) : .pcall sub ∉ s.control := by
  intro hpcall
  obtain ⟨-, hderived, r, hr⟩ := h.derived sub hpcall
  have hjoined : sub ∈ (s.heap id).joined := hs.walk_joined hctl
  have hjoined' : sub ∈ (s.heap r).joined := by
    rw [hs.ordered.order r, List.append_assoc]
    exact List.mem_append_left _ hr
  obtain rfl := (h.single sub hderived id).2 r hjoined hjoined'
  have hcount := (h.single sub hderived r).1
  have hran : 1 ≤ (s.heap r).ran.count sub := List.count_pos_iff.mpr hr
  rw [hs.ordered.order r, hctl, rests_cons, Frame.restOf, if_pos rfl] at hcount
  simp only [List.count_append, List.cons_append, List.count_cons_self] at hcount
  omega

lemma Steady.walk (h : Steady A p q s) (hs : s.Sound) (hok : s.SettlesPending .walk) (hwaits : s.WaitsForOlder)
    (hnot : A → ∀ st v rest count frames, s.control ≠ .handleThens q st v (p :: rest) count :: frames) :
    Steady A p q s.walk := by
  rw [SettlesPending] at hok
  rw [State.walk]
  split
  · next id st v sub rest count frames hctl =>
    rw [hctl] at hok
    dsimp only at hok ⊢
    obtain ⟨hpending, hd⟩ := hok
    have hright : s.Right (.handleThens id st v (sub :: rest) count) := h.control _ (by simp [hctl])
    have hjoined : sub ∈ (s.heap id).joined := hs.walk_joined hctl
    have hpcall := h.homes.not_running hs hctl
    have hsub : A → sub ≠ p := by
      rintro hA rfl
      have hin : sub ∈ rests s.control id ++ (s.heap id).chain := by
        rw [hctl, rests_cons, Frame.restOf, if_pos rfl]
        simp
      obtain rfl := (h.waits hA).others id hin
      exact hnot hA st v rest count frames hctl
    have hpop : Steady A p q { s with control := .handleThens id st v rest count :: frames } := by
      refine h.calls (fun f hf => ?_) (fun x hx => ?_) (fun x => ?_) (fun r x hx => ?_)
      · rcases List.mem_cons.mp hf with rfl | hf
        · exact hright
        · exact h.control f (by simp [hctl, hf])
      · simpa [hctl] using hx
      · rw [hctl, List.count_cons_of_ne (by simp), List.count_cons_of_ne (by simp)]
      · rw [rests_cons] at hx
        rw [hctl, rests_cons]
        rcases List.mem_append.mp hx with hx | hx
        · refine List.mem_append_left _ ?_
          rw [Frame.restOf] at hx ⊢
          split at hx
          · rw [if_pos ‹_›]
            exact List.mem_cons_of_mem _ hx
          · cases hx
        · exact List.mem_append_right _ hx
    have hst : State.status { s with control := .handleThens id st v rest count :: frames } id ≠ .pending :=
      fun hst => hright.2.2 (hright.1.trans hst)
    have hw : WaitsForOlder { s with control := .handleThens id st v rest count :: frames } := hwaits
    refine (hpop.take hst hsub).walkNext hright.2.2 ?_ ?_ hsub (h.homes.members id sub hjoined) ?_ ⟨id, ?_⟩
      (hw.modify (fun hw => hw) rfl) ?_
    · rw [hright.2.1]
      exact h.flat id
    · simpa [status, apply_ite] using hpending
    · rw [hctl] at hpcall
      simpa using hpcall
    · simp
    · rw [DecidesPending] at hd ⊢
      simpa [status, apply_ite] using hd
  · next id st v count frames hctl =>
    have hpop := h.pop hctl
    have hwarn : Steady A p q (State.modify { s with control := frames } id
        fun o => { o with warnedUnhandled := true }) :=
      hpop.touch (fun _ => ⟨rfl, rfl, rfl⟩)
        fun _ => .of_same rfl
    rw [walkEnd]
    split
    · split
      · exact hpop
      · dsimp only
        split
        · exact hwarn
        · have hempty := hwarn.calls (fun f (hf : f ∈ ([] : List Frame)) => by cases hf) (fun x hx => by cases hx)
            (fun x => Nat.zero_le _) (fun r x hx => by cases hx)
          exact hempty.congr rfl rfl rfl hempty.ticks
    · split
      · exact hwarn
      · exact hpop
  · exact h

/-- A step keeps the state steady, unless it takes `p` out of the chain of `q`. -/
lemma Steady.step (h : Steady A p q s) (hs : s.Sound) (hu : s.Unused) (hwaits : s.WaitsForOlder) {i : Input}
    (hok : s.SettlesPending i) (hplain : RejectsPlain i)
    (hnot : A → i = .walk →
      ∀ st v rest count frames, s.control ≠ .handleThens q st v (p :: rest) count :: frames) :
    Steady A p q (s.step i) := by
  have hnew : ∀ r, s.size ≤ r → s.status r = .pending := fun r hr => (hu r hr).2
  have huncalled : ∀ r, (s.heap r).constructed = true → (s.status r = .pending → (s.heap r).called = false) →
      A → r ≠ p := by
    rintro r hconstructed hcalled hA rfl
    have hw := h.waits hA
    have hc := hw.called hconstructed
    rw [hcalled hw.pending] at hc
    cases hc
  rw [State.step]
  split
  case isFalse => exact h
  case isTrue hen =>
    cases i with
    | construct =>
      have halloc : Steady A p q (s.alloc { Object.new .pending .undefined with constructed := true }) :=
        h.alloc (hnew _ le_rfl) rfl rfl rfl rfl (fun _ => ⟨rfl, rfl⟩) fun hw => absurd hw (Object.not_waits rfl rfl)
      exact halloc.push (f := .executor s.size) trivial (fun r => rfl)
        (halloc.homes.pushExecutor (Nat.lt_succ_self _) (by simp))
    | resolve r value =>
      simp only [enabled, Bool.and_eq_true, decide_eq_true_eq] at hen
      exact h.param_resolve hen.1.1.2 hen.1.2 (huncalled r hen.1.2 hok) value
    | reject r reason =>
      simp only [enabled, Bool.and_eq_true, decide_eq_true_eq] at hen
      exact h.param_reject (huncalled r hen.1.2 hok) hplain
    | thenCatch r onThen onCatch =>
      simp only [enabled, Bool.and_eq_true, decide_eq_true_eq] at hen
      exact h.then_catch (hnew _ le_rfl) hen.2 onThen onCatch
    | all elems =>
      have halloc : Steady A p q (s.alloc (.new .fulfilled (.array s.size))) :=
        h.alloc (hnew _ le_rfl) rfl rfl rfl rfl (fun hc => by cases hc) fun hw => absurd hw (Object.not_waits rfl rfl)
      have hb := h.bare (hnew _ le_rfl)
      refine halloc.allLoop ⟨hb.ticks, hb.control, by simp [Object.new]⟩ (Nat.lt_succ_self _)
        (fun hA => ((h.waits hA).size.1).ne') (by simp [Object.new, Object.Derived]) ?_ 0 elems 0
      intro r hr
      have hlt : s.size < r := hr
      rw [status, alloc_heap, if_neg hlt.ne']
      exact hnew r hlt.le
    | race elems =>
      have halloc : Steady A p q (s.alloc (.new .pending .undefined)) :=
        h.alloc (hnew _ le_rfl) rfl rfl rfl rfl (fun hc => by cases hc) fun hw => absurd hw (Object.not_waits rfl rfl)
      have hb := h.bare (hnew _ le_rfl)
      exact halloc.raceLoop ⟨hb.ticks, hb.control, by simp [Object.new]⟩ (Nat.lt_succ_self _)
        (fun hA => ((h.waits hA).size.1).ne') (by simp [Object.new, Object.Derived]) elems
    | promiseResolve value =>
      rw [perform, promise_resolve.eq_def]
      cases value with
      | promise r => exact h
      | _ =>
        exact h.alloc (hnew _ le_rfl) rfl rfl rfl rfl (fun hc => by cases hc) fun hw => absurd hw (Object.not_waits rfl rfl)
    | promiseReject reason =>
      have halloc : Steady A p q (s.alloc (.new .rejected reason)) :=
        h.alloc (hnew _ le_rfl) hplain rfl rfl rfl (fun hc => by cases hc) fun hw => absurd hw (Object.not_waits rfl rfl)
      refine halloc.callNextTick ?_
      simp [status, Object.new]
    | userReturn result =>
      rw [perform, State.userReturn.eq_def]
      rw [SettlesPending.eq_def] at hok
      dsimp only at hok
      split
      · next sub frames hctl =>
        rw [hctl] at hok
        have hpcall : .pcall sub ∈ s.control := by simp [hctl]
        obtain ⟨hlt, hderived, r, hr⟩ := h.homes.derived sub hpcall
        have honce := h.homes.once sub
        rw [hctl, List.count_cons_self] at honce
        have hrest : .pcall sub ∉ frames := List.count_eq_zero.mp (by omega)
        refine (h.pop hctl).handlerResult hok ?_ ?_ fun r _ => ⟨hlt, hderived.1, hrest⟩
        · rintro hA rfl
          obtain ⟨h₁, h₂⟩ := (h.waits hA).handlers
          exact hderived.2.elim (fun hn => hn h₁) fun hn => hn h₂
        · rintro reason rfl
          exact hplain
      · next this frames hctl =>
        rw [hctl] at hok
        have hthis := h.homes.executors this (by simp [hctl])
        cases result with
        | ok value => exact h.pop hctl
        | error reason =>
          exact (h.pop hctl).param_reject (huncalled this hthis.2 (hok ⟨reason, rfl⟩)) hplain
      · exact h
    | walk => exact h.walk hs hok hwaits fun hA => hnot hA rfl
    | tick =>
      rw [perform, State.tick]
      split
      · exact h
      · next r ticks hticks =>
        have hpop : Steady A p q { s with ticks := ticks } :=
          h.congr rfl rfl rfl fun x hx => h.ticks x (by simp [hticks, hx])
        exact hpop.handleThens (h.ticks r (by simp [hticks]))
    | stop => exact h.congr rfl rfl rfl h.ticks

/-! ### Adoption -/

/-- `p` is settled with the outcome of `q`. -/
structure Agrees (p q : Nat) (s : State) : Prop where
  settled : s.status q ≠ .pending
  status : s.status p = s.status q
  value : (s.heap p).value = (s.heap q).value

lemma agrees_adopt (hp : s.status p = .pending) (hq : s.status q ≠ .pending) : Agrees p q (s.adopt p q) := by
  have hne : q ≠ p := by
    rintro rfl
    exact hq hp
  have hstatus : (s.adopt p q).status q = s.status q := by
    rw [State.adopt]
    split <;> simp [State.settle, State.status, hne]
  have hvalue : ((s.adopt p q).heap q).value = (s.heap q).value := by
    rw [State.adopt]
    split <;> simp [State.settle, hne]
  refine ⟨?_, ?_, ?_⟩
  · rwa [hstatus]
  · rw [status_adopt, hstatus]
  · rw [value_adopt, hvalue]

lemma Agrees.handleThens (h : Agrees p q s) (id : Nat) : Agrees p q (s.promise_handle_thens id) := by
  have hfield : ∀ r, (s.promise_handle_thens id).status r = s.status r ∧
      ((s.promise_handle_thens id).heap r).value = (s.heap r).value := by
    intro r
    by_cases hr : r = id <;> simp [promise_handle_thens, State.status, hr]
  refine ⟨?_, ?_, ?_⟩
  · rw [(hfield q).1]
    exact h.settled
  · rw [(hfield p).1, (hfield q).1]
    exact h.status
  · rw [(hfield p).2, (hfield q).2]
    exact h.value

lemma notMem_of_joined (hs : s.Sound) {r : Nat} (h : p ∉ (s.heap r).joined) :
    p ∉ rests s.control r ++ (s.heap r).chain := by
  rw [hs.ordered.order r, List.append_assoc] at h
  exact fun hp => h (List.mem_append_right _ hp)

/-- A derived promise whose handler runs stands in no chain. -/
lemma Homes.lone (h : Homes s) (hs : s.Sound) (hpcall : .pcall p ∈ s.control) (r : Nat) :
    p ∉ rests s.control r ++ (s.heap r).chain := by
  obtain ⟨-, hderived, r', hr'⟩ := h.derived p hpcall
  have hjoined : p ∈ (s.heap r').joined := by
    rw [hs.ordered.order r', List.append_assoc]
    exact List.mem_append_left _ hr'
  by_cases hr : r = r'
  · subst hr
    have hcount := (h.single p hderived r).1
    have hran : 1 ≤ (s.heap r).ran.count p := List.count_pos_iff.mpr hr'
    rw [hs.ordered.order r, List.append_assoc, List.count_append] at hcount
    exact List.count_eq_zero.mp (by omega)
  · exact notMem_of_joined hs fun hin => hr ((h.single p hderived r').2 r hjoined hin)

/-- `p` joins the chain of `q`. -/
lemma waiting_subscribe (hsize : p < s.size ∧ q < s.size)
    (hhandlers : (s.heap p).thenHandler = none ∧ (s.heap p).catchHandler = none) (hran : (s.heap q).ran = [])
    (hp : s.status p = .pending) (hcalled : (s.heap p).constructed = true → (s.heap p).called = true)
    (hlone : ∀ r, p ∉ rests s.control r ++ (s.heap r).chain)
    (hdecided : ∀ x, (s.heap x).Waits → (s.heap x).promise ≠ p) : Waiting p q (s.subscribe q p) := by
  have hheap : ∀ x, (s.subscribe q p).heap x =
      if x = q then { s.heap x with chain := (s.heap x).chain ++ [p], joined := (s.heap x).joined ++ [p] }
      else s.heap x := fun x => modify_heap s q _ x
  refine ⟨hsize, ?_, ?_, ?_, ?_, ?_, fun r hr => ?_, fun x hx => ?_⟩
  · rw [hheap]
    split <;> exact hhandlers
  · rw [hheap, if_pos rfl]
    simp
  · rw [hheap, if_pos rfl]
    dsimp only
    rw [hran]
    exact List.not_mem_nil
  · rwa [status_subscribe]
  · rw [hheap]
    split <;> exact hcalled
  · by_contra hne
    rw [hheap, if_neg hne] at hr
    exact hlone r hr
  · rw [hheap] at hx ⊢
    split at hx
    · rw [if_pos ‹_›]
      exact hdecided x hx
    · rw [if_neg ‹_›]
      exact hdecided x hx

/-- A promise is resolved with a promise that is pending. -/
lemma waiting_resolve (h : Steady False p q s) (hs : s.Sound) (hlt : p < s.size) (hq : q < s.size)
    (hconstructed : (s.heap p).constructed = true) (hcalled : (s.heap p).called = false)
    (hp : s.status p = .pending) (hpending : s.status q = .pending) :
    Waiting p q ((s.modify p fun o => { o with called := true }).subscribe q p) := by
  have hheap : ∀ x, (s.modify p fun o => { o with called := true }).heap x =
      if x = p then { s.heap x with called := true } else s.heap x := fun x => modify_heap s p _ x
  refine waiting_subscribe ⟨hlt, hq⟩ ?_ ?_ ?_ ?_ (fun r => ?_) (fun x hx => ?_)
  · rw [hheap, if_pos rfl]
    exact h.constructed p hconstructed
  · rw [hheap]
    split <;> exact (h.bare hpending).ran
  · rw [State.status, hheap, if_pos rfl]
    exact hp
  · rw [hheap, if_pos rfl]
    exact fun _ => rfl
  · rw [hheap]
    split <;> exact notMem_of_joined hs (h.homes.free p hconstructed hcalled r)
  · have hw : (s.heap x).Waits ∧ ((s.modify p fun o => { o with called := true }).heap x).promise =
        (s.heap x).promise := by
      rw [hheap] at hx ⊢
      split at hx
      · rw [if_pos ‹_›]
        exact ⟨hx, rfl⟩
      · rw [if_neg ‹_›]
        exact ⟨hx, rfl⟩
    rw [hw.2]
    intro hxp
    have hnot := (h.homes.waiters x hw.1).2.1
    rw [hxp, hconstructed] at hnot
    cases hnot

/-- A handler returns a promise that is pending. -/
lemma waiting_return (h : Steady False p q s) (hs : s.Sound) {frames : List Frame}
    (hctl : s.control = .pcall p :: frames) (hq : q < s.size) (hp : s.status p = .pending)
    (hpending : s.status q = .pending) :
    Waiting p q ((State.modify { s with control := frames } p
      fun o => { o with thenHandler := none, catchHandler := none }).subscribe q p) := by
  have hpcall : .pcall p ∈ s.control := by simp [hctl]
  obtain ⟨hlt, hderived, -⟩ := h.homes.derived p hpcall
  have hheap : ∀ x, (State.modify { s with control := frames } p
      fun o => { o with thenHandler := none, catchHandler := none }).heap x =
      if x = p then { s.heap x with thenHandler := none, catchHandler := none } else s.heap x :=
    fun x => modify_heap { s with control := frames } p _ x
  refine waiting_subscribe ⟨hlt, hq⟩ ?_ ?_ ?_ ?_ (fun r => ?_) (fun x hx => ?_)
  · rw [hheap, if_pos rfl]
    exact ⟨rfl, rfl⟩
  · rw [hheap]
    split <;> exact (h.bare hpending).ran
  · rw [State.status, hheap, if_pos rfl]
    exact hp
  · rw [hheap, if_pos rfl]
    intro hc
    rw [hderived.1] at hc
    cases hc
  · have hlone := h.homes.lone hs hpcall r
    rw [hctl, rests_cons, show Frame.restOf r (.pcall p) = [] from rfl, List.nil_append] at hlone
    rw [hheap]
    split <;> exact hlone
  · rw [hheap] at hx ⊢
    split at hx
    · exact absurd hx (Object.not_waits rfl rfl)
    · rw [if_neg ‹_›]
      intro hxp
      have hnot := (h.homes.waiters x hx).2.2
      rw [hxp] at hnot
      exact hnot hderived

/-- `p` has the outcome of `q`, or waits for it. -/
def Linked (p q : Nat) (s : State) : Prop := Steady False p q s ∧ (Agrees p q s ∨ Waiting p q s)

/-- What is known of every state. -/
structure Regular (s : State) : Prop where
  sound : s.Sound
  unused : s.Unused
  waitsForOlder : s.WaitsForOlder

lemma Regular.step (h : Regular s) {i : Input} (hk : s.Keeps i) : Regular (s.step i) :=
  ⟨h.sound.step hk, h.unused.step h.sound i, h.waitsForOlder.step i⟩

/-- The input by which `p` adopts `q` links it. -/
lemma linked_adopts (h : Steady False p q s) (hreg : Regular s) {i : Input} (hok : s.Admits i)
    (hadopts : s.Adopts p q i) : Linked p q (s.step i) := by
  refine ⟨h.step hreg.sound hreg.unused hreg.waitsForOlder hok.2.1 hok.2.2 False.elim, ?_⟩
  cases i with
  | resolve id value =>
    obtain ⟨hen, hp, rfl, rfl⟩ := hadopts
    rw [State.step, if_pos hen, perform, promise_param_resolve.eq_def]
    simp only [enabled, Bool.and_eq_true, decide_eq_true_eq, ofHeap] at hen
    have hcalled := hok.2.1 hp
    have hstatus : ∀ r, (s.modify id fun o => { o with called := true }).status r = s.status r := by
      intro r
      by_cases hr : r = id <;> simp [State.status, hr]
    dsimp only
    rw [hstatus, if_pos hp, hstatus]
    by_cases hq : s.status q = .pending
    · rw [if_neg (by simp [hq])]
      exact .inr (waiting_resolve h hreg.sound hen.1.1.2 hen.2 hen.1.2 hcalled hp hq)
    · rw [if_pos hq]
      have hagrees := @agrees_adopt id q (s.modify id fun o => { o with called := true })
        ((hstatus id).trans hp) (by rwa [hstatus])
      exact .inl ⟨hagrees.settled, hagrees.status, hagrees.value⟩
  | userReturn result =>
    obtain ⟨hen, rfl, frames, hctl⟩ := hadopts
    have hp : s.status p = .pending := by
      have hsettles := hok.2.1
      rw [SettlesPending.eq_def] at hsettles
      simpa only [hctl] using hsettles
    rw [State.step, if_pos hen, perform, State.userReturn.eq_def, hctl]
    simp only [enabled, Bool.and_eq_true, decide_eq_true_eq, ofHeap] at hen
    dsimp only
    rw [State.handlerResult.eq_def]
    dsimp only
    by_cases hq : s.status q = .pending
    · rw [if_neg (by simpa [State.status] using hq)]
      exact .inr (waiting_return h hreg.sound hctl hen.2 hp hq)
    · rw [if_pos (by simpa [State.status] using hq)]
      exact .inl ((@agrees_adopt p q { s with control := frames } hp hq).handleThens p)
  | _ => exact hadopts.elim

/-- The walk of `q` takes `p`. -/
lemma agrees_walk (h : Steady False p q s) (hw : Waiting p q s) {rest : List Nat} {count : Nat}
    {frames : List Frame} (hctl : s.control = .handleThens q st v (p :: rest) count :: frames)
    (hkept : Kept s.size s (s.step .walk)) : Agrees p q (s.step .walk) := by
  have hright : s.Right (.handleThens q st v (p :: rest) count) := h.control _ (by simp [hctl])
  have hq : s.status q ≠ .pending := fun hq => hright.2.2 (hright.1.trans hq)
  have hqstatus := hkept.status q hw.size.2 hq
  have hqvalue := hkept.value q hw.size.2 hq
  have hen : s.enabled .walk = true := by simp [enabled, userRuns, hctl]
  have hwalk : (s.step .walk).status p = st ∧ ((s.step .walk).heap p).value = v := by
    rw [State.step, if_pos hen, perform, State.walk, hctl]
    dsimp only
    have hnone : (if st = .fulfilled then
        ((State.modify { s with control := .handleThens q st v rest count :: frames } q
          fun o => { o with ran := o.ran ++ [p] }).heap p).thenHandler
        else ((State.modify { s with control := .handleThens q st v rest count :: frames } q
          fun o => { o with ran := o.ran ++ [p] }).heap p).catchHandler) = none := by
      by_cases hpq : p = q
      · have hhandlers := hw.handlers
        subst hpq
        simp [hhandlers.1, hhandlers.2]
      · simp [hpq, hw.handlers.1, hw.handlers.2]
    rw [State.walkNext, hnone]
    simp [promise_handle_thens, State.settle, State.status]
  refine ⟨?_, ?_, ?_⟩
  · rwa [hqstatus]
  · rw [hwalk.1, hqstatus, hright.1]
  · rw [hwalk.2, hqvalue, hright.2.1]

lemma Linked.step (h : Linked p q s) (hreg : Regular s) {i : Input} (hok : s.Admits i) : Linked p q (s.step i) := by
  obtain ⟨hsteady, hlink⟩ := h
  have hkept : Kept s.size s (s.step i) := kept_step hreg.waitsForOlder hok.2.1 le_rfl
  have hstep := hsteady.step hreg.sound hreg.unused hreg.waitsForOlder hok.2.1 hok.2.2 False.elim
  refine ⟨hstep, ?_⟩
  rcases hlink with hagrees | hw
  · have hlt : ∀ r, s.status r ≠ .pending → r < s.size := by
      intro r hr
      by_contra hlt
      exact hr (hreg.unused r (not_lt.mp hlt)).2
    have hp : s.status p ≠ .pending := by
      rw [hagrees.status]
      exact hagrees.settled
    refine .inl ⟨?_, ?_, ?_⟩
    · rw [hkept.status q (hlt q hagrees.settled) hagrees.settled]
      exact hagrees.settled
    · rw [hkept.status p (hlt p hp) hp, hkept.status q (hlt q hagrees.settled) hagrees.settled]
      exact hagrees.status
    · rw [hkept.value p (hlt p hp) hp, hkept.value q (hlt q hagrees.settled) hagrees.settled]
      exact hagrees.value
  · by_cases htakes : i = .walk ∧ ∃ st v rest count frames,
        s.control = .handleThens q st v (p :: rest) count :: frames
    · obtain ⟨rfl, st, v, rest, count, frames, hctl⟩ := htakes
      exact .inl (agrees_walk hsteady hw hctl hkept)
    · have hwaits : Steady True p q s :=
        ⟨hsteady.ticks, hsteady.control, hsteady.ran, hsteady.flat, hsteady.constructed, hsteady.homes, fun _ => hw⟩
      refine .inr ((hwaits.step hreg.sound hreg.unused hreg.waitsForOlder hok.2.1 hok.2.2 ?_).waits trivial)
      rintro - hi st v rest count frames hctl
      exact htakes ⟨hi, st, v, rest, count, frames, hctl⟩

/-- What a link says. -/
lemma Linked.follows (h : Linked p q s) (hs : s.Sound) : Follows p q s := by
  obtain ⟨hsteady, hlink⟩ := h
  refine ⟨?_, ?_, hsteady.flat p, (hs.inOrder p).1, (hs.inOrder p).2, ?_⟩
  · intro hp
    rcases hlink with hagrees | hw
    · exact ⟨hagrees.status, hagrees.value⟩
    · exact absurd hw.pending hp
  · intro hctl hticks hq
    rcases hlink with hagrees | hw
    · rw [hagrees.status]
      exact hq
    · have hran := (hs.inOrder q).2 hctl hticks hq
      exact absurd (hran ▸ hw.joined) hw.ran
  · intro st v rest count hf
    obtain ⟨hst, hv, -⟩ := hsteady.control _ hf
    exact ⟨hst, hv⟩

lemma Linked.not_runsHandler (h : Linked p q s) {i : Input} (hok : s.Admits i) : ¬s.RunsHandler p i := by
  cases i with
  | walk =>
    rintro ⟨id, st, v, rest, count, frames, hctl, hcalls⟩
    rcases h.2 with hagrees | hw
    · have hsettles := hok.2.1
      rw [SettlesPending.eq_def] at hsettles
      simp only [hctl] at hsettles
      exact hagrees.settled (hagrees.status ▸ hsettles.1)
    · simp [callsUser, hw.handlers.1, hw.handlers.2] at hcalls
  | _ => exact id

lemma steady_init : Steady False p q init where
  ticks := by
    intro r hr
    cases hr
  control := by
    intro f hf
    cases hf
  ran r hr := absurd rfl hr
  flat _ := rfl
  constructed r hr := by cases hr
  homes := by
    refine ⟨fun r x hx => ?_, fun x hx => ?_, fun x hx => ?_, fun x => Nat.zero_le _, fun x hx => ?_, fun x hx => ?_,
      fun x hx => ?_⟩
    · cases hx
    · cases hx
    · cases hx
    · cases hx
    · exact absurd hx (Object.not_waits rfl rfl)
    · rcases hx.2 with hx | hx <;> exact absurd rfl hx
  waits := False.elim

lemma regular_init : Regular init := by
  refine ⟨sound_init, unused_init, fun p hp => ?_⟩
  exact absurd hp (Object.not_waits rfl rfl)

end State

/-- Two pending promises. -/
def twoPending : List Input :=
  [.construct, .userReturn (.ok .undefined), .construct, .userReturn (.ok .undefined)]

/-- The first one gets a subscriber and is rejected before the second one is fulfilled. -/
def rejectedInBetween : List Input :=
  [.thenCatch 0 (some 5) (some 6), .reject 0 (.plain 7), .tick, .walk, .userReturn (.ok .undefined), .walk, .walk,
    .resolve 1 (.plain 8), .tick, .walk, .walk, .walk]

end LowJs.Promise
