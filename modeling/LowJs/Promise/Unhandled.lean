import LowJs.Promise.Race

/-!
# Unhandled rejections

The end of a walk throws the reason of a rejected promise, unless somebody has taken it over. Whether that is
so is read off `_warnedUnhandled` and the length of the chain, and the flag is set at the end of a walk: a
report that is thrown through the walk of another promise leaves that one unmarked, and its next walk reports
it as well.
-/

namespace LowJs.Promise

/-- The walk of a rejected promise that has taken subscribers. -/
def Frame.walks (p : Nat) : Frame → Bool
  | .handleThens id st _ _ count => id == p && st == .rejected && count != 0
  | _ => false

/-- A walk that has taken subscribers, or a call of the user. -/
def Frame.busy : Frame → Bool
  | .handleThens _ _ _ _ count => count != 0
  | _ => true

namespace State

variable {s t : State} {A B e : Prop} {p q id sub : Nat} {st : Status} {v : Value}

/-! ### What is promised -/

/-- No walk has taken a subscriber of the promise since the last one joined, or its rejection is marked. -/
def Fresh (s : State) (p : Nat) : Prop :=
  (s.heap p).joined = [] ∨ (s.heap p).chain ≠ [] ∨ (s.heap p).warnedUnhandled = true

instance (s : State) (p : Nat) : Decidable (s.Fresh p) := inferInstanceAs (Decidable (_ ∨ _ ∨ _))

/-- The value is a rejected promise. -/
def rejects (s : State) : Value → Bool
  | .promise q => s.status q == .rejected
  | _ => false

/-- The result of a handler rejects the derived promise. -/
def handlerRejects (s : State) : Except Value Value → Bool
  | .ok v => s.rejects v
  | .error _ => true

/-- The rejection of `q`, which is settled, is the outcome that the input gives another promise. -/
def Passes (s : State) (q : Nat) : Input → Prop
  | .resolve id v => s.status id = .pending ∧ v = .promise q ∧ s.rejects v
  | .userReturn (.ok v) => (∃ sub frames, s.control = .pcall sub :: frames) ∧ v = .promise q ∧ s.rejects v
  | .all elems => elems.find? s.rejects = some (.promise q)
  | .race elems => elems.find? (!s.pends ·) = some (.promise q) ∧ s.rejects (.promise q)
  | _ => False

/-- The input passes the rejection of `q` on to another promise. -/
def PassesOn (s : State) (q : Nat) (i : Input) : Prop := s.enabled i = true ∧ s.Passes q i

/-- The input throws the reason of `q` as unhandled. -/
def Reports (s : State) (q : Nat) (i : Input) : Prop :=
  (∃ st v rest count frames, s.control = .handleThens q st v rest count :: frames) ∧
    (s.step i).unhandled ≠ s.unhandled

/-- A run has had an input of this kind. -/
def Happened (P : State → Input → Prop) (is : List Input) : Prop :=
  ∃ js₁ i js₂, is = js₁ ++ i :: js₂ ∧ P (machine.run init js₁) i

open Classical in
/-- What is promised of rejections after a run. -/
structure Reported (is : List Input) (s : State) : Prop where
  raised : ∀ id v count frames, s.control = .handleThens id .rejected v [] count :: frames →
    s.dukFlagStop = false →
    if (s.heap id).joined = [] ∧ ¬Happened (·.PassesOn id ·) is ∧ ¬Happened (·.Reports id ·) is
    then (s.step .walk).unhandled = s.unhandled ++ [v]
    else (s.step .walk).unhandled = s.unhandled
  complete : s.control = [] → s.ticks = [] → s.dukFlagStop = false → ∀ p, s.status p = .rejected →
    (s.heap p).joined ≠ [] ∨ Happened (·.PassesOn p ·) is ∨ Happened (·.Reports p ·) is

/-- What the walk rejects when it takes `sub` has no subscribers that a walk has taken, unless it is marked. -/
def TakesMarked (s : State) (st : Status) (sub : Nat) : Prop :=
  match (if st = .fulfilled then (s.heap sub).thenHandler else (s.heap sub).catchHandler) with
  | none => st = .rejected → s.Fresh sub
  | some (.user _) => True
  | some .allResolved => s.Fresh sub
  | some .allRejected => s.Fresh (s.heap sub).promise

/-- What gets rejected has no subscribers that a walk has taken, unless it is marked; and a report that is
thrown through the walk of a rejected promise finds it marked, or in no call of the next-tick queue. -/
def Marks (s : State) : Input → Prop
  | .userReturn result =>
    match s.control with
    | .pcall sub :: _ => s.handlerRejects result = true → s.Fresh sub
    | _ => True
  | .walk =>
    match s.control with
    | .handleThens _ st _ (sub :: _) _ :: _ => s.TakesMarked st sub
    | .handleThens id st _ [] count :: frames => s.Throws id st count →
      ∀ p ∈ s.ticks, frames.any (Frame.walks p) = true → s.Fresh p
    | _ => True
  | _ => True

/-! ### One promise -/

/-- The walk of the rejected promise is about to end, and had nothing to take. -/
def Ends (s : State) (p : Nat) : Prop :=
  ∃ v rest frames, s.control = .handleThens p .rejected v rest 0 :: frames

/-- No walk is about to end without having taken something. -/
def Busy (s : State) : Prop := s.control.all Frame.busy = true

/-- Only the innermost walk can be about to end without having taken something, and the promise is walked
when it is settled. -/
def Stack (p : Nat) (s : State) : Prop :=
  s.control.tail.all Frame.busy = true ∧
    (∀ id st v rest frames, s.control = .handleThens id st v rest 0 :: frames → rest = []) ∧
    ∀ st v rest count, .handleThens p st v rest count ∈ s.control → st ≠ .pending

/-- What is known of the promise `p`; `A` says that it has been passed on or reported, `e` that it is about
to be walked. -/
structure Watch (p : Nat) (A e : Prop) (s : State) : Prop where
  pending : s.status p = .pending → s.Fresh p
  ticks : p ∈ s.ticks → s.status p ≠ .pending
  walked : s.status p = .rejected → s.Fresh p ∨ p ∉ s.ticks ∨ s.control.any (Frame.walks p) = true
  noticed : s.status p = .rejected →
    (s.heap p).joined ≠ [] ∨ p ∈ s.ticks ∨ (s.heap p).warnedUnhandled = true ∨ s.Ends p ∨ e
  ends : s.Ends p → (s.heap p).joined = [] ∨ (s.heap p).warnedUnhandled = true
  marked : A → (s.heap p).warnedUnhandled = true
  known : s.dukFlagStop = false → (s.heap p).warnedUnhandled = true → A ∨ (s.heap p).joined ≠ []
  counted : s.control.any (Frame.walks p) = true → (s.heap p).joined ≠ []
  unused : s.size ≤ p → ¬A ∧ p ∉ s.ticks ∧ s.control.any (Frame.walks p) = false
  stack : Stack p s

/-- The promise looks the same. -/
structure SameAt (p : Nat) (s t : State) : Prop where
  status : t.status p = s.status p
  joined : (t.heap p).joined = (s.heap p).joined
  chain : (t.heap p).chain = (s.heap p).chain
  warned : (t.heap p).warnedUnhandled = (s.heap p).warnedUnhandled
  ticks : p ∈ t.ticks ↔ p ∈ s.ticks
  control : t.control = s.control
  stop : t.dukFlagStop = s.dukFlagStop
  size : s.size ≤ t.size

lemma SameAt.fresh (h : SameAt p s t) : t.Fresh p ↔ s.Fresh p := by
  unfold Fresh
  rw [h.joined, h.chain, h.warned]

lemma SameAt.ends (h : SameAt p s t) : t.Ends p ↔ s.Ends p := by
  unfold Ends
  rw [h.control]

lemma Watch.congr (h : Watch p A e s) (hst : SameAt p s t) : Watch p A e t where
  pending hp := hst.fresh.mpr (h.pending (hst.status ▸ hp))
  ticks hp := hst.status ▸ h.ticks (hst.ticks.mp hp)
  walked hp := by
    rw [hst.fresh, hst.ticks, hst.control]
    exact h.walked (hst.status ▸ hp)
  noticed hp := by
    rw [hst.joined, hst.ticks, hst.warned, hst.ends]
    exact h.noticed (hst.status ▸ hp)
  ends hp := by
    rw [hst.joined, hst.warned]
    exact h.ends (hst.ends.mp hp)
  marked hA := hst.warned ▸ h.marked hA
  known hstop hw := by
    rw [hst.joined]
    exact h.known (hst.stop ▸ hstop) (hst.warned ▸ hw)
  counted hw := hst.joined ▸ h.counted (hst.control ▸ hw)
  unused hp := by
    rw [hst.ticks, hst.control]
    exact h.unused (hst.size.trans hp)
  stack := by
    rw [Stack]
    rw [hst.control]
    exact h.stack

lemma sameAt_modify (hid : id ≠ p) (f : Object → Object) : SameAt p s (s.modify id f) := by
  have hp : (s.modify id f).heap p = s.heap p := by simp [hid.symm]
  exact ⟨congrArg _ hp, congrArg _ hp, congrArg _ hp, congrArg _ hp, Iff.rfl, rfl, rfl, le_rfl⟩

lemma sameAt_touch {f : Object → Object} (hf : ∀ o : Object, (f o).promiseStatus = o.promiseStatus ∧
    (f o).joined = o.joined ∧ (f o).chain = o.chain ∧ (f o).warnedUnhandled = o.warnedUnhandled) :
    SameAt p s (s.modify id f) := by
  by_cases hid : id = p
  · subst hid
    obtain ⟨h₁, h₂, h₃, h₄⟩ := hf (s.heap id)
    have hp : (s.modify id f).heap id = f (s.heap id) := by simp
    exact ⟨(congrArg _ hp).trans h₁, (congrArg _ hp).trans h₂, (congrArg _ hp).trans h₃,
      (congrArg _ hp).trans h₄, Iff.rfl, rfl, rfl, le_rfl⟩
  · exact sameAt_modify hid f

lemma sameAt_alloc (hp : p ≠ s.size) (o : Object) : SameAt p s (s.alloc o) := by
  have hp : (s.alloc o).heap p = s.heap p := by simp [hp]
  exact ⟨congrArg _ hp, congrArg _ hp, congrArg _ hp, congrArg _ hp, Iff.rfl, rfl, rfl, Nat.le_succ _⟩

lemma sameAt_callNextTick (hid : id ≠ p) : SameAt p s (s.callNextTick id) :=
  ⟨rfl, rfl, rfl, rfl, by simp [hid.symm], rfl, rfl, le_rfl⟩

lemma Busy.not_ends (h : s.Busy) : ¬s.Ends p := by
  rintro ⟨v, rest, frames, hctl⟩
  simp [Busy, hctl, Frame.busy] at h

/-- The promise may be walked. -/
def Ready (s : State) (id p : Nat) : Prop :=
  id = p → p < s.size ∧ s.status p ≠ .pending ∧ (s.status p = .rejected → s.Fresh p)

lemma Watch.settle (h : Watch p A e s) (hst : st ≠ .pending) (hid : id = p → p < s.size)
    (hfresh : id = p → st = .rejected → s.Fresh p) (v : Value) :
    Watch p A (e ∨ id = p) (s.settle id st v) ∧ (s.settle id st v).Ready id p := by
  by_cases heq : id = p
  · subst heq
    have hstatus : (s.settle id st v).status id = st := by simp [State.settle, status]
    have hf : (s.settle id st v).Fresh id ↔ s.Fresh id := by simp [State.settle, Fresh]
    have hjoined : ((s.settle id st v).heap id).joined = (s.heap id).joined := by simp [State.settle]
    have hwarned : ((s.settle id st v).heap id).warnedUnhandled = (s.heap id).warnedUnhandled := by
      simp [State.settle]
    have hmarked : (s.settle id st v).status id = .rejected → (s.settle id st v).Fresh id := by
      intro hp
      apply hf.mpr
      exact hfresh rfl (hstatus ▸ hp)
    refine ⟨?_, fun _ => ⟨hid rfl, hstatus.trans_ne hst, hmarked⟩⟩
    constructor
    case pending =>
      intro hp
      exact absurd (hstatus ▸ hp) hst
    case ticks =>
      intro _
      exact hstatus.trans_ne hst
    case walked =>
      intro hp
      exact .inl (hmarked hp)
    case noticed =>
      intro _
      exact .inr (.inr (.inr (.inr (.inr rfl))))
    case ends =>
      intro hends
      rw [hjoined, hwarned]
      exact h.ends hends
    case marked =>
      intro hA
      rw [hwarned]
      exact h.marked hA
    case known =>
      intro hstop hw
      rw [hjoined]
      exact h.known hstop (hwarned ▸ hw)
    case counted =>
      intro hw
      rw [hjoined]
      exact h.counted hw
    case unused => exact h.unused
    case stack => exact h.stack
  · have hsame := h.congr (sameAt_modify heq fun o => { o with promiseStatus := st, value := v })
    refine ⟨?_, fun heq' => absurd heq' heq⟩
    simp only [heq, or_false]
    exact hsame

/-- `promise_handle_thens` is put into the queue. -/
lemma Watch.callNextTick (h : Watch p A (id = p) s) (hready : s.Ready id p) :
    Watch p A False (s.callNextTick id) := by
  by_cases heq : id = p
  · subst heq
    obtain ⟨hlt, hst, hfresh⟩ := hready rfl
    constructor
    case ticks =>
      intro _
      exact hst
    case walked =>
      intro hp
      exact .inl (hfresh hp)
    case noticed =>
      intro _
      exact .inr (.inl List.mem_cons_self)
    case unused =>
      intro hp
      exact absurd hlt (not_lt.mpr hp)
    case pending => exact h.pending
    case ends => exact h.ends
    case marked => exact h.marked
    case known => exact h.known
    case counted => exact h.counted
    case stack => exact h.stack
  · simp only [heq] at h
    exact h.congr (sameAt_callNextTick heq)

/-- The innermost call is left. -/
lemma Stack.tail (h : Stack p s) {f : Frame} {frames : List Frame} (hctl : s.control = f :: frames) :
    State.Busy { s with control := frames } ∧ Stack p { s with control := frames } := by
  have hbusy : frames.all Frame.busy = true := by
    have htail := h.1
    rwa [hctl] at htail
  refine ⟨hbusy, ?_, fun id st v rest frames' heq => ?_, fun st v rest count hmem => ?_⟩
  · rw [List.all_eq_true] at hbusy ⊢
    intro g hg
    exact hbusy g (List.mem_of_mem_tail hg)
  · change frames = _ at heq
    simp [heq, Frame.busy] at hbusy
  · apply h.2.2 st v rest count
    rw [hctl]
    exact List.mem_cons_of_mem _ hmem

/-- The calls change. -/
lemma Watch.calls (h : Watch p A e s) {control : List Frame}
    (hgain : control.any (Frame.walks p) = true → s.control.any (Frame.walks p) = true)
    (hlost : s.control.any (Frame.walks p) = true →
      s.Fresh p ∨ p ∉ s.ticks ∨ control.any (Frame.walks p) = true)
    (hends : s.Ends p → (s.heap p).warnedUnhandled = true) (hends' : ¬Ends { s with control := control } p)
    (hstack : Stack p { s with control := control }) : Watch p A e { s with control := control } := by
  constructor
  case walked =>
    intro hp
    rcases h.walked hp with hw | hw | hw
    · exact .inl hw
    · exact .inr (.inl hw)
    · exact hlost hw
  case noticed =>
    intro hp
    rcases h.noticed hp with hn | hn | hn | hn | hn
    · exact .inl hn
    · exact .inr (.inl hn)
    · exact .inr (.inr (.inl hn))
    · exact .inr (.inr (.inl (hends hn)))
    · exact .inr (.inr (.inr (.inr hn)))
  case ends =>
    intro he
    exact absurd he hends'
  case counted =>
    intro hw
    exact h.counted (hgain hw)
  case unused =>
    intro hp
    obtain ⟨hA, hticks, hwalks⟩ := h.unused hp
    refine ⟨hA, hticks, Bool.eq_false_iff.mpr fun hw => ?_⟩
    simp [hgain hw] at hwalks
  case pending => exact h.pending
  case ticks => exact h.ticks
  case marked => exact h.marked
  case known => exact h.known
  case stack => exact hstack

/-- A call comes on top of the others. -/
lemma Watch.push (h : Watch p A e s) (hbusy : s.Busy) {f : Frame} (hf : f.walks p = false)
    (hother : ∀ id st v rest count, f = .handleThens id st v rest count → id ≠ p ∧ (count = 0 → rest = [])) :
    Watch p A e { s with control := f :: s.control } := by
  refine h.calls (by simp [hf]) (fun hw => .inr (.inr (by simp [hf, hw]))) (fun he => absurd he hbusy.not_ends) ?_
    ⟨hbusy, fun id st v rest frames hctl => ?_, fun st v rest count hmem => ?_⟩
  · rintro ⟨v, rest, frames, hctl⟩
    exact (hother p .rejected v rest 0 (List.cons.inj hctl).1).1 rfl
  · exact (hother id st v rest 0 (List.cons.inj hctl).1).2 rfl
  · rcases List.mem_cons.mp hmem with heq | hmem
    · exact absurd rfl (hother p st v rest count heq.symm).1
    · exact h.stack.2.2 st v rest count hmem

lemma Ordered.chain_nil (h : s.Ordered) (hj : (s.heap p).joined = []) : (s.heap p).chain = [] := by
  have hall := h.order p
  rw [hj, eq_comm, List.append_eq_nil_iff] at hall
  exact hall.2

/-- A walk that finds nothing to take. -/
lemma Fresh.of_nil (h : s.Fresh p) (hc : (s.heap p).chain = []) :
    (s.heap p).joined = [] ∨ (s.heap p).warnedUnhandled = true := by
  rcases h with h | h | h
  · exact .inl h
  · exact absurd hc h
  · exact .inr h

/-- The promise itself is walked. -/
lemma Watch.walk_self (h : Watch p A e s) (hord : s.Ordered) (hbusy : s.Busy) (hlt : p < s.size)
    (hst : s.status p ≠ .pending) (hfresh : s.status p = .rejected → s.Fresh p) :
    Watch p A False (s.promise_handle_thens p) := by
  have hobj : (s.promise_handle_thens p).heap p = { s.heap p with chain := [] } := by
    simp [State.promise_handle_thens]
  have hstatus : (s.promise_handle_thens p).status p = s.status p := by rw [status, hobj]; rfl
  have hjoined : ((s.promise_handle_thens p).heap p).joined = (s.heap p).joined := by rw [hobj]
  have hwarned : ((s.promise_handle_thens p).heap p).warnedUnhandled = (s.heap p).warnedUnhandled := by rw [hobj]
  have hcontrol : (s.promise_handle_thens p).control =
    .handleThens p (s.status p) (s.heap p).value (s.heap p).chain (s.heap p).chain.length :: s.control := rfl
  constructor
  case pending =>
    intro hp
    exact absurd (hstatus ▸ hp) hst
  case ticks =>
    intro _
    exact hstatus.trans_ne hst
  case walked =>
    intro hp
    have hp := hstatus ▸ hp
    by_cases hc : (s.heap p).chain = []
    · left
      rcases (hfresh hp).of_nil hc with hf | hf
      · exact .inl (hjoined.trans hf)
      · exact .inr (.inr (hwarned.trans hf))
    · right
      right
      simp [hcontrol, Frame.walks, hp, hc]
  case noticed =>
    intro hp
    have hp := hstatus ▸ hp
    by_cases hc : (s.heap p).chain = []
    · right; right; right; left
      exact ⟨_, _, _, by rw [hcontrol, hp, hc]; rfl⟩
    · left
      rw [hjoined]
      intro hj
      exact hc (hord.chain_nil hj)
  case ends =>
    rintro ⟨v, rest, frames, hctl⟩
    rw [hcontrol] at hctl
    simp only [List.cons.injEq, Frame.handleThens.injEq, List.length_eq_zero_iff] at hctl
    rw [hjoined, hwarned]
    exact (hfresh hctl.1.2.1).of_nil hctl.1.2.2.2.2
  case marked =>
    intro hA
    rw [hwarned]
    exact h.marked hA
  case known =>
    intro hstop hw
    rw [hjoined]
    exact h.known hstop (hwarned ▸ hw)
  case counted =>
    intro hw
    rw [hjoined]
    intro hj
    rw [hcontrol, List.any_cons, Bool.or_eq_true] at hw
    rcases hw with hw | hw
    · simp [Frame.walks, hord.chain_nil hj] at hw
    · exact h.counted hw hj
  case unused =>
    intro hp
    exact absurd hlt (not_lt.mpr hp)
  case stack =>
    refine ⟨hbusy, fun _ _ _ _ _ hctl => ?_, fun st v rest count hmem => ?_⟩
    · rw [hcontrol] at hctl
      simp only [List.cons.injEq, Frame.handleThens.injEq, List.length_eq_zero_iff] at hctl
      rw [← hctl.1.2.2.2.1, hctl.1.2.2.2.2]
    · rw [hcontrol] at hmem
      rcases List.mem_cons.mp hmem with heq | hmem
      · rw [(Frame.handleThens.inj heq).2.1]
        exact hst
      · exact h.stack.2.2 st v rest count hmem

lemma Watch.handle_thens (h : Watch p A (id = p) s) (hord : s.Ordered) (hbusy : s.Busy)
    (hready : s.Ready id p) : Watch p A False (s.promise_handle_thens id) := by
  by_cases heq : id = p
  · obtain ⟨hlt, hst, hfresh⟩ := hready heq
    rw [heq]
    exact h.walk_self hord hbusy hlt hst hfresh
  · simp only [heq] at h
    have hmod := h.congr (sameAt_modify heq fun o => { o with chain := [] })
    refine hmod.push hbusy (by simp [Frame.walks, heq]) fun id' st v rest count hf => ?_
    simp only [Frame.handleThens.injEq] at hf
    refine ⟨hf.1 ▸ heq, fun hcount => ?_⟩
    rw [← hf.2.2.2.1, ← List.length_eq_zero_iff, hf.2.2.2.2, hcount]

lemma Watch.subscribe (h : Watch p A e s) (hbusy : s.Busy) (q sub : Nat) : Watch p A e (s.subscribe q sub) := by
  by_cases hq : q = p
  · subst hq
    have hstatus : (s.subscribe q sub).status q = s.status q := by simp [State.subscribe, status]
    have hwarned : ((s.subscribe q sub).heap q).warnedUnhandled = (s.heap q).warnedUnhandled := by
      simp [State.subscribe]
    have hfresh : (s.subscribe q sub).Fresh q := .inr (.inl (by simp [State.subscribe]))
    have hjoined : ((s.subscribe q sub).heap q).joined ≠ [] := by simp [State.subscribe]
    constructor
    case pending =>
      intro _
      exact hfresh
    case ticks =>
      intro hp
      rw [hstatus]
      exact h.ticks hp
    case walked =>
      intro _
      exact .inl hfresh
    case noticed =>
      intro _
      exact .inl hjoined
    case ends =>
      intro hends
      exact absurd hends (Busy.not_ends (s := s.subscribe q sub) hbusy)
    case marked =>
      intro hA
      rw [hwarned]
      exact h.marked hA
    case known =>
      intro _ _
      exact .inr hjoined
    case counted =>
      intro _
      exact hjoined
    case unused => exact h.unused
    case stack => exact h.stack
  · exact h.congr (sameAt_modify hq _)

/-- The rejection of `q` is marked. -/
lemma Watch.warn (h : Watch p A e s) (hA : A → B) (hB : B → A ∨ q = p)
    (hq : q = p → p < s.size ∧ (s.dukFlagStop = false → B ∨ (s.heap p).joined ≠ [])) :
    Watch p B e (s.modify q fun o => { o with warnedUnhandled := true }) := by
  by_cases heq : q = p
  · subst heq
    have hwarned : ((s.modify q fun o => { o with warnedUnhandled := true }).heap q).warnedUnhandled = true := by
      simp
    have hstatus : (s.modify q fun o => { o with warnedUnhandled := true }).status q = s.status q := by
      simp [status]
    have hjoined : ((s.modify q fun o => { o with warnedUnhandled := true }).heap q).joined = (s.heap q).joined := by
      simp
    constructor
    case pending =>
      intro _
      exact .inr (.inr hwarned)
    case ticks =>
      intro hp
      rw [hstatus]
      exact h.ticks hp
    case walked =>
      intro _
      exact .inl (.inr (.inr hwarned))
    case noticed =>
      intro _
      exact .inr (.inr (.inl hwarned))
    case ends =>
      intro _
      exact .inr hwarned
    case marked =>
      intro _
      exact hwarned
    case known =>
      intro hstop _
      rw [hjoined]
      exact (hq rfl).2 hstop
    case counted =>
      intro hw
      rw [hjoined]
      exact h.counted hw
    case unused =>
      intro hp
      exact absurd (hq rfl).1 (not_lt.mpr hp)
    case stack => exact h.stack
  · have hsame := h.congr (sameAt_modify heq fun o => { o with warnedUnhandled := true })
    have hiff : A ↔ B := ⟨hA, fun hb => (hB hb).resolve_right heq⟩
    rwa [propext hiff] at hsame

lemma Watch.iff (h : Watch p A e s) (hAB : A ↔ B) : Watch p B e s := by rwa [← propext hAB]

/-- Another reason for the promise not to be in the queue. -/
lemma Watch.imp (h : Watch p A e s) {e' : Prop} (he : s.status p = .rejected → e → e') : Watch p A e' s where
  pending := h.pending
  ticks := h.ticks
  walked := h.walked
  noticed hp := by
    rcases h.noticed hp with hn | hn | hn | hn | hn
    · exact .inl hn
    · exact .inr (.inl hn)
    · exact .inr (.inr (.inl hn))
    · exact .inr (.inr (.inr (.inl hn)))
    · exact .inr (.inr (.inr (.inr (he hp hn))))
  ends := h.ends
  marked := h.marked
  known := h.known
  counted := h.counted
  unused := h.unused
  stack := h.stack

/-- A promise that is not rejected need not be walked. -/
lemma Watch.drop (h : Watch p A e s) (he : e → s.status p ≠ .rejected) : Watch p A False s :=
  h.imp fun hp hn => he hn hp

lemma Watch.except (h : Watch p A False s) (e : Prop) : Watch p A e s := h.imp fun _ hn => hn.elim

lemma Watch.adopt (h : Watch p A False s) (hq : s.status q ≠ .pending) (hqlt : q < s.size)
    (hid : id = p → p < s.size) (hfresh : id = p → s.status q = .rejected → s.Fresh p) :
    Watch p (A ∨ q = p ∧ s.status q = .rejected) (id = p) (s.adopt id q) ∧ (s.adopt id q).Ready id p := by
  obtain ⟨hset, hready⟩ := h.settle hq hid hfresh (s.heap q).value
  simp only [false_or] at hset
  unfold State.adopt
  dsimp only
  split
  · next hrejected =>
    refine ⟨?_, fun heq => ?_⟩
    · refine hset.warn .inl (fun hB => hB.imp_right And.left) fun heq => ?_
      exact ⟨heq ▸ hqlt, fun _ => .inl (.inr ⟨heq, hrejected⟩)⟩
    · obtain ⟨hlt, hst, hf⟩ := hready heq
      by_cases hqp : q = p
      · subst hqp
        exact ⟨hlt, by simpa [status] using hst, fun _ => .inr (.inr (by simp))⟩
      · have hsame := sameAt_modify (s := s.settle id (s.status q) (s.heap q).value) hqp
          fun o => { o with warnedUnhandled := true }
        exact ⟨hlt, hsame.status.trans_ne hst, fun hp => hsame.fresh.mpr (hf (hsame.status ▸ hp))⟩
  · next hrejected => exact ⟨hset.iff (by simp [hrejected]), hready⟩

/-- A new object. -/
lemma Watch.alloc (h : Watch p A False s) (hbusy : s.Busy) {o : Object} (hj : o.joined = [])
    (hw : o.warnedUnhandled = false) : Watch p A (p = s.size ∧ o.promiseStatus = .rejected) (s.alloc o) := by
  by_cases hp : p = s.size
  · obtain ⟨hA, hticks, hwalks⟩ := h.unused hp.ge
    have hnew : (s.alloc o).heap p = o := by simp [hp]
    have hfresh : (s.alloc o).Fresh p := .inl (by rw [hnew, hj])
    constructor
    case pending =>
      intro _
      exact hfresh
    case ticks =>
      intro ht
      exact absurd ht hticks
    case walked =>
      intro _
      exact .inl hfresh
    case noticed =>
      intro hst
      rw [status, hnew] at hst
      exact .inr (.inr (.inr (.inr ⟨hp, hst⟩)))
    case ends =>
      intro hends
      exact absurd hends (Busy.not_ends (s := s.alloc o) hbusy)
    case marked =>
      intro hA'
      exact absurd hA' hA
    case known =>
      intro _ hwarned
      rw [hnew, hw] at hwarned
      cases hwarned
    case counted =>
      intro hany
      exact absurd hany (by simp [hwalks])
    case unused =>
      intro hlt
      exact absurd hlt (by simp [hp])
    case stack => exact h.stack
  · exact (h.congr (sameAt_alloc hp o)).except _

/-! ### The functions -/

lemma fulfilled_ne : Status.fulfilled ≠ .pending := by simp

lemma rejected_ne : Status.rejected ≠ .pending := by simp

lemma busy_of_control (h : s.Busy) (ht : t.control = s.control) : t.Busy := by rwa [Busy, ht]

lemma Watch.param_resolve (h : Watch p A False s) (hbusy : s.Busy) (hid : id < s.size)
    (hv : s.ofHeap v = true) :
    Watch p (A ∨ s.status id = .pending ∧ v = .promise p ∧ s.rejects v = true) False
      (s.promise_param_resolve id v) := by
  have hsame : SameAt p s (s.modify id fun o => { o with called := true }) :=
    sameAt_touch fun _ => ⟨rfl, rfl, rfl, rfl⟩
  have hstatus (q : Nat) : (s.modify id fun o => { o with called := true }).status q = s.status q := by
    by_cases hq : q = id <;> simp [status, hq]
  have h₁ := h.congr hsame
  unfold promise_param_resolve
  generalize ht : s.modify id (fun o => { o with called := true }) = t at h₁ hsame hstatus
  have hsize : t.size = s.size := ht ▸ rfl
  have hb : t.Busy := busy_of_control hbusy hsame.control
  dsimp only
  split
  · next hpending =>
    have hfresh : id = p → t.Fresh p := fun heq => h₁.pending (heq ▸ hpending)
    have hlt : id = p → p < t.size := fun heq => by rw [hsize, ← heq]; exact hid
    rw [hstatus] at hpending
    split
    · next q =>
      split
      · next hq =>
        have hqlt : q < t.size := by simpa [hsize, ofHeap] using hv
        obtain ⟨hadopt, hready⟩ := h₁.adopt hq hqlt hlt fun heq _ => hfresh heq
        refine (hadopt.callNextTick hready).iff ?_
        simp [hpending, rejects, hstatus]
      · next hq =>
        refine (h₁.subscribe hb q id).iff ?_
        rw [hstatus] at hq
        simp [rejects, not_not.mp hq]
    · next hnot =>
      obtain ⟨hset, hready⟩ := h₁.settle fulfilled_ne hlt (fun heq _ => hfresh heq) v
      simp only [false_or] at hset
      refine (hset.callNextTick hready).iff ?_
      cases v with
      | promise q => exact absurd rfl (hnot q)
      | _ => simp
  · next hpending =>
    rw [hstatus] at hpending
    exact h₁.iff (by simp [hpending])

lemma Watch.param_reject (h : Watch p A False s) (hid : id < s.size) (v : Value) :
    Watch p A False (s.promise_param_reject id v) := by
  have h₁ : Watch p A False (s.modify id fun o => { o with called := true }) :=
    h.congr (sameAt_touch fun _ => ⟨rfl, rfl, rfl, rfl⟩)
  unfold promise_param_reject
  dsimp only
  split
  · next hpending =>
    obtain ⟨hset, hready⟩ := h₁.settle rejected_ne (fun heq => heq ▸ hid)
      (fun heq _ => h₁.pending (heq ▸ hpending)) v
    simp only [false_or] at hset
    exact hset.callNextTick hready
  · exact h₁

lemma Watch.settle_walk (h : Watch p A False s) (hord : s.Ordered) (hbusy : s.Busy) (hst : st ≠ .pending)
    (hid : id = p → p < s.size) (hfresh : id = p → st = .rejected → s.Fresh p) (v : Value) :
    Watch p A False ((s.settle id st v).promise_handle_thens id) := by
  obtain ⟨hset, hready⟩ := h.settle hst hid hfresh v
  simp only [false_or] at hset
  exact hset.handle_thens (hord.congr (sameChains_settle s id st v)) hbusy hready

lemma Watch.handlerResult (h : Watch p A False s) (hord : s.Ordered) (hbusy : s.Busy)
    (hsub : sub = p → p < s.size) {result : Except Value Value}
    (hv : ∀ q, result = .ok (.promise q) → q < s.size)
    (hfresh : s.handlerRejects result = true → s.Fresh sub) :
    Watch p (A ∨ result = .ok (.promise p) ∧ s.rejects (.promise p) = true) False (s.handlerResult sub result) := by
  unfold State.handlerResult
  split
  · next q =>
    split
    · next hq =>
      obtain ⟨hadopt, hready⟩ := h.adopt hq (hv q rfl) hsub fun heq hrejected =>
        heq ▸ hfresh (by simp [handlerRejects, rejects, hrejected])
      have hwalk := hadopt.handle_thens (hord.congr (sameChains_adopt s sub q))
        (busy_of_control hbusy (sameChains_adopt s sub q).control) hready
      refine hwalk.iff ?_
      constructor
      · rintro (hA | ⟨rfl, hrejected⟩)
        · exact .inl hA
        · exact .inr ⟨rfl, by simp [rejects, hrejected]⟩
      · rintro (hA | ⟨heq, hrejected⟩)
        · exact .inl hA
        · cases heq
          exact .inr ⟨rfl, by simpa [rejects] using hrejected⟩
    · next hq =>
      have h₁ : Watch p A False (s.modify sub fun o => { o with thenHandler := none, catchHandler := none }) :=
        h.congr (sameAt_touch fun _ => ⟨rfl, rfl, rfl, rfl⟩)
      refine (h₁.subscribe hbusy q sub).iff ?_
      constructor
      · exact .inl
      · rintro (hA | ⟨heq, hrejected⟩)
        · exact hA
        · cases heq
          simp [rejects, not_not.mp hq] at hrejected
  · next v hnot =>
    refine (h.settle_walk hord hbusy (by simp) hsub (fun _ hst => by cases hst) v).iff ?_
    constructor
    · exact .inl
    · rintro (hA | ⟨heq, -⟩)
      · exact hA
      · exact absurd heq fun heq => hnot p (Except.ok.inj heq)
  · next v =>
    refine (h.settle_walk hord hbusy (by simp) hsub (fun heq _ => heq ▸ hfresh rfl) v).iff ?_
    simp

lemma Watch.putIndex (h : Watch p A False s) {target v : Value} {i : Nat}
    (hput : s.putIndex target i v = some t) : Watch p A False t := by
  cases target with
  | undefined => simp [State.putIndex] at hput
  | plain k => simp [State.putIndex] at hput
  | object k => exact Option.some.inj hput ▸ h
  | promise id => exact Option.some.inj hput ▸ h
  | array id =>
    exact Option.some.inj hput ▸ h.congr (sameAt_touch fun _ => ⟨rfl, rfl, rfl, rfl⟩)
  | typeError => exact Option.some.inj hput ▸ h

lemma Watch.all_resolved (h : Watch p A False s) (hid : (s.heap sub).promise = p → p < s.size) (v : Value) :
    Watch p A False (s.promise_all_resolved sub v).2 := by
  unfold promise_all_resolved
  dsimp only
  split
  · exact h
  · split
    · exact h
    · next t hput =>
      have ht := h.putIndex hput
      split
      · obtain ⟨hset, hready⟩ := ht.settle fulfilled_ne
          (fun heq => (hid heq).trans_eq (sameChains_putIndex hput).size.symm) (fun _ hst => by cases hst)
          (t.heap (s.heap sub).promise).value
        simp only [false_or] at hset
        exact hset.callNextTick hready
      · dsimp only
        exact ht.congr (sameAt_touch fun _ => ⟨rfl, rfl, rfl, rfl⟩)

/-- A promise that has no subscribers and no call in the queue changes, and is not rejected. -/
lemma Watch.unseen (h : Watch p A False s) {f : Object → Object}
    (hf : ∀ o : Object, (f o).joined = o.joined ∧ (f o).chain = o.chain ∧
      (f o).warnedUnhandled = o.warnedUnhandled ∧ (f o).promiseStatus ≠ .rejected)
    (hnew : id = p → (s.heap p).joined = [] ∧ p ∉ s.ticks) : Watch p A False (s.modify id f) := by
  by_cases hid : id = p
  · subst hid
    obtain ⟨h₁, h₂, h₃, h₄⟩ := hf (s.heap id)
    obtain ⟨hj, hticks⟩ := hnew rfl
    have hobj : (s.modify id f).heap id = f (s.heap id) := by simp
    have hst : (s.modify id f).status id ≠ .rejected := by rwa [status, hobj]
    have hjoined : ((s.modify id f).heap id).joined = [] := by rw [hobj, h₁, hj]
    have hwarned : ((s.modify id f).heap id).warnedUnhandled = (s.heap id).warnedUnhandled := by rw [hobj, h₃]
    constructor
    case pending =>
      intro _
      exact .inl hjoined
    case ticks =>
      intro ht
      exact absurd ht hticks
    case walked =>
      intro hp
      exact absurd hp hst
    case noticed =>
      intro hp
      exact absurd hp hst
    case ends =>
      intro _
      exact .inl hjoined
    case marked =>
      intro hA
      rw [hwarned]
      exact h.marked hA
    case known =>
      intro hstop hw
      left
      exact (h.known hstop (hwarned ▸ hw)).resolve_right (by simp [hj])
    case counted =>
      intro hw
      exact absurd hj (h.counted hw)
    case unused => exact h.unused
    case stack => exact h.stack
  · exact h.congr (sameAt_modify hid f)

lemma rejects_congr (h : ∀ q, v = .promise q → t.status q = s.status q) : t.rejects v = s.rejects v := by
  cases v with
  | promise q => simp [rejects, h q rfl]
  | _ => rfl

lemma find_rejects {elems : List Value} (h : ∀ q, .promise q ∈ elems → t.status q = s.status q) :
    elems.find? t.rejects = elems.find? s.rejects := by
  apply List.find?_congr
  intro v hv
  exact rejects_congr fun q hq => h q (hq ▸ hv)

lemma Watch.allLoop (h : Watch p A False s) (hbusy : s.Busy) (hid : id < s.size)
    (hnew : id = p → (s.heap p).joined = [] ∧ p ∉ s.ticks) {elems : List Value}
    (hlt : ∀ q, .promise q ∈ elems → q < id) (left : Int) (i : Nat) :
    Watch p (A ∨ elems.find? s.rejects = some (.promise p)) False (s.allLoop id left elems i) := by
  induction elems generalizing s left i with
  | nil =>
    refine Watch.iff (A := A) (h.unseen (fun o => ⟨rfl, rfl, rfl, ?_⟩) hnew) (by simp)
    dsimp only
    split <;> simp
  | cons v vs ih =>
    have hlt' : ∀ q, .promise q ∈ vs → q < id := fun q hq => hlt q (List.mem_cons_of_mem _ hq)
    have hput (v' : Value) (hv : s.rejects v = false) :
        Watch p (A ∨ (v :: vs).find? s.rejects = some (.promise p)) False
          ((s.modify id fun o => { o with result := setAt o.result i v' }).allLoop id left vs (i + 1)) := by
      have hsame : SameAt p s (s.modify id fun o => { o with result := setAt o.result i v' }) :=
        sameAt_touch fun _ => ⟨rfl, rfl, rfl, rfl⟩
      have hrec := ih (h.congr hsame) hbusy hid
        (fun heq => by rw [hsame.joined]; exact hnew heq) hlt' left (i + 1)
      rw [find_rejects (s := s) fun q _ => by by_cases hq : q = id <;> simp [status, hq]] at hrec
      rwa [List.find?_cons, hv]
    unfold State.allLoop
    dsimp only
    split
    · next q =>
      have hq : q < id := hlt q List.mem_cons_self
      split
      · next hst => exact hput _ (by simp [rejects, hst])
      · next hst =>
        obtain ⟨hadopt, hready⟩ := h.adopt (by simp [hst]) (hq.trans hid)
          (fun heq : id = p => heq ▸ hid) fun heq _ => .inl (hnew heq).1
        refine (hadopt.callNextTick hready).iff ?_
        simp [rejects, hst]
      · next hst =>
        have halloc := (h.alloc hbusy (o := waiter id i) rfl rfl).drop fun he => by simp [waiter, Object.new] at he
        have hbusy' : (s.alloc (waiter id i)).Busy := hbusy
        have hrec := ih (s := (s.alloc (waiter id i)).subscribe q s.size)
          (halloc.subscribe hbusy' q s.size) hbusy (hid.trans (Nat.lt_succ_self _)) (fun heq => ?_) hlt'
          (left + 1) (i + 1)
        · rw [find_rejects (s := s) fun q' hq' => ?_] at hrec
          · have hv : s.rejects (.promise q) = false := by simp [rejects, hst]
            rwa [List.find?_cons, hv]
          · have hne : q' ≠ s.size := ((hlt' q' hq').trans hid).ne
            by_cases heq : q' = q
            · subst heq
              simp [State.subscribe, status, hne]
            · simp [State.subscribe, status, hne, heq]
        · subst heq
          obtain ⟨hj, hticks⟩ := hnew rfl
          exact ⟨by simpa [State.subscribe, hq.ne', hid.ne] using hj, hticks⟩
    · next hnot =>
      refine hput _ ?_
      cases v with
      | promise q => exact absurd rfl (hnot q)
      | _ => rfl

lemma pends_congr (h : ∀ q, v = .promise q → t.status q = s.status q) : t.pends v = s.pends v := by
  cases v with
  | promise q => simp [pends, h q rfl]
  | _ => rfl

lemma find_pends {elems : List Value} (h : ∀ q, .promise q ∈ elems → t.status q = s.status q) :
    elems.find? (!t.pends ·) = elems.find? (!s.pends ·) := by
  apply List.find?_congr
  intro v hv
  rw [pends_congr fun q hq => h q (hq ▸ hv)]

lemma Watch.raceLoop (h : Watch p A False s) (hbusy : s.Busy) (hid : id < s.size)
    (hnew : id = p → (s.heap p).joined = [] ∧ p ∉ s.ticks) {elems : List Value}
    (hlt : ∀ q, .promise q ∈ elems → q < id) :
    Watch p (A ∨ elems.find? (!s.pends ·) = some (.promise p) ∧ s.rejects (.promise p) = true) False
      (s.raceLoop id elems) := by
  induction elems generalizing s with
  | nil =>
    exact Watch.iff (A := A) (h.unseen (fun o => ⟨rfl, rfl, rfl, by simp⟩) hnew) (by simp)
  | cons v vs ih =>
    unfold State.raceLoop
    split
    · next q =>
      have hq : q < id := hlt q List.mem_cons_self
      split
      · next hst =>
        obtain ⟨hadopt, hready⟩ := h.adopt (by simp [hst]) (hq.trans hid)
          (fun heq : id = p => heq ▸ hid) fun heq _ => .inl (hnew heq).1
        have hobj : (s.heap q).promiseStatus = .fulfilled := hst
        have hstatus : (s.adopt id q).status id = .fulfilled := by simp [State.adopt, State.settle, status, hobj]
        refine (hadopt.drop fun heq => by rw [← heq, hstatus]; simp).iff ?_
        have hpends : s.pends (.promise q) = false := by simp [pends, hst]
        rw [List.find?_cons, hpends]
        constructor
        · exact Or.imp_right fun hq => by simp [hst] at hq
        · refine Or.imp_right fun hq => ?_
          obtain ⟨heq, hrejected⟩ := hq
          cases heq
          simp [rejects, hst] at hrejected
      · next hst =>
        obtain ⟨hadopt, hready⟩ := h.adopt (by simp [hst]) (hq.trans hid)
          (fun heq : id = p => heq ▸ hid) fun heq _ => .inl (hnew heq).1
        refine (hadopt.callNextTick hready).iff ?_
        have hpends : s.pends (.promise q) = false := by simp [pends, hst]
        simp only [List.find?_cons, hpends, Bool.not_false, Option.some.injEq, Value.promise.injEq, rejects,
          beq_iff_eq, hst, and_true]
        constructor
        · exact Or.imp_right fun heq => ⟨heq, heq ▸ hst⟩
        · exact Or.imp_right And.left
      · next hst =>
        have hstatus : ∀ q', (s.subscribe q id).status q' = s.status q' := by
          intro q'
          by_cases heq : q' = q <;> simp [State.subscribe, status, heq]
        have hrec := ih (s := s.subscribe q id) (h.subscribe hbusy q id) hbusy hid (fun heq => ?_)
          fun q' hq' => hlt q' (List.mem_cons_of_mem _ hq')
        · have hpends : s.pends (.promise q) = true := by simp [pends, hst]
          rw [find_pends (s := s) fun q' _ => hstatus q'] at hrec
          simpa [List.find?_cons, hpends, rejects, hstatus] using hrec
        · subst heq
          obtain ⟨hj, hticks⟩ := hnew rfl
          exact ⟨by simpa [State.subscribe, hq.ne'] using hj, hticks⟩
    · next hnot =>
      obtain ⟨hset, -⟩ := h.settle fulfilled_ne (fun heq : id = p => heq ▸ hid) (fun _ hst => by cases hst) v
      have hstatus : (s.settle id .fulfilled v).status id = .fulfilled := by simp [State.settle, status]
      refine (hset.drop ?_).iff ?_
      · rintro (hf | heq)
        · exact hf.elim
        · rw [← heq, hstatus]
          simp
      · cases v with
        | promise q => exact absurd rfl (hnot q)
        | _ => simp [pends]

lemma Watch.then_catch (h : Watch p A False s) (hbusy : s.Busy) (hid : id < s.size)
    (onThen onCatch : Option Nat) : Watch p A False (s.promise_then_catch id onThen onCatch) := by
  unfold promise_then_catch
  generalize ho : { Object.new .pending .undefined with
    thenHandler := onThen.map .user, catchHandler := onCatch.map .user } = o
  have hpending : o.promiseStatus = .pending := by rw [← ho]; rfl
  have halloc := (h.alloc hbusy (o := o) (by rw [← ho]; rfl) (by rw [← ho]; rfl)).drop fun he => by
    simp [hpending] at he
  have hsub := halloc.subscribe hbusy id s.size
  dsimp only
  split
  · next hst =>
    refine (hsub.except _).callNextTick fun heq => ?_
    subst heq
    have hne : id ≠ s.size := hid.ne
    refine ⟨hid.trans (Nat.lt_succ_self _), ?_, fun _ => .inr (.inl (by simp [State.subscribe]))⟩
    simpa [State.subscribe, status, hne] using hst
  · exact hsub

lemma Watch.reject (h : Watch p A False s) (hbusy : s.Busy) (v : Value) :
    Watch p A False (s.promise_reject v) := by
  have halloc := h.alloc hbusy (o := .new .rejected v) rfl rfl
  simp only [Object.new, and_true] at halloc
  have halloc' : Watch p A (s.size = p) (s.alloc (.new .rejected v)) := by
    rwa [eq_comm (a := s.size)]
  refine halloc'.callNextTick fun heq => ?_
  subst heq
  refine ⟨Nat.lt_succ_self _, by simp [status, Object.new], fun _ => .inl (by simp [Object.new])⟩

/-! ### The steps -/

/-- Where `promise_all_resolved` throws, it has changed nothing. -/
lemma all_resolved_throws {w : Value} :
    (s.promise_all_resolved sub v).1 = .error w → (s.promise_all_resolved sub v).2 = s := by
  unfold promise_all_resolved
  dsimp only
  cases (s.heap (s.heap sub).promise).left with
  | none => exact fun _ => rfl
  | some left =>
    dsimp only
    cases s.putIndex (s.heap (s.heap sub).promise).value (s.heap sub).index v with
    | none => exact fun _ => rfl
    | some t =>
      dsimp only
      split
      · exact fun h => by cases h
      · exact fun h => by cases h

lemma Watch.walkNext (h : Watch p A False s) (hord : s.Ordered) (hbusy : s.Busy) (hst : st ≠ .pending)
    (hsub : sub = p → p < s.size) (hwaits : (s.heap sub).Waits → (s.heap sub).promise = p → p < s.size)
    (hok : s.TakesMarked st sub) (v : Value) :
    Watch p A False (s.walkNext st v sub) := by
  have hwaits' {g : Handler} (hg : (if st = .fulfilled then (s.heap sub).thenHandler
      else (s.heap sub).catchHandler) = some g) (hall : g = .allResolved ∨ g = .allRejected) :
      (s.heap sub).promise = p → p < s.size := by
    refine hwaits ⟨g, ?_, hall⟩
    split at hg
    · exact .inl hg
    · exact .inr hg
  rw [State.walkNext]
  unfold TakesMarked at hok
  generalize hg : (if st = .fulfilled then (s.heap sub).thenHandler else (s.heap sub).catchHandler) = handler
    at hok ⊢
  rcases handler with - | f | - | -
  · exact h.settle_walk hord hbusy hst hsub (fun heq hrejected => heq ▸ hok hrejected) v
  · have hpush := h.push hbusy (f := .pcall sub) rfl fun _ _ _ _ _ hf => by cases hf
    exact hpush.congr ⟨rfl, rfl, rfl, rfl, Iff.rfl, rfl, rfl, le_rfl⟩
  · have hfresh : s.Fresh sub := hok
    have hsame := sameChains_all_resolved s sub v
    have hall := h.all_resolved (hwaits' hg (.inl rfl)) v
    have hresult := all_resolved_result s sub v
    have hthrows (w : Value) : (s.promise_all_resolved sub v).1 = .error w → (s.promise_all_resolved sub v).2 = s :=
      all_resolved_throws
    generalize s.promise_all_resolved sub v = r at hsame hall hresult hthrows
    obtain ⟨result, t⟩ := r
    dsimp only at hsame hall hresult hthrows ⊢
    refine (hall.handlerResult (hord.congr hsame) (busy_of_control hbusy hsame.control)
      (fun heq => hsame.size ▸ hsub heq) (fun q hq => ?_) fun hr => ?_).iff ?_
    · rcases hresult with rfl | rfl <;> cases hq
    · rcases hresult with rfl | rfl
      · simp [handlerRejects, rejects] at hr
      · exact hthrows _ rfl ▸ hfresh
    · rcases hresult with rfl | rfl <;> simp
  · have hfresh : s.Fresh (s.heap sub).promise := hok
    obtain ⟨hset, hready⟩ := h.settle rejected_ne (hwaits' hg (.inr rfl))
      (fun heq _ => heq ▸ hfresh) v
    simp only [false_or] at hset
    have hrejected : Watch p A False (s.promise_all_rejected sub v) := hset.callNextTick hready
    have hsame := sameChains_all_rejected s sub v
    refine (hrejected.handlerResult (hord.congr hsame) (busy_of_control hbusy hsame.control)
      (fun heq => hsame.size ▸ hsub heq) (fun q hq => by simp at hq) fun hr => ?_).iff (by simp)
    simp [handlerRejects, rejects] at hr

/-- What a walk is about to take exists. -/
lemma Unused.below (h : Unused s) (hs : s.Sound) {rest : List Nat} {count : Nat} {frames : List Frame}
    (hctl : s.control = .handleThens id st v (sub :: rest) count :: frames) :
    sub < s.size ∧ ((s.heap sub).Waits → (s.heap sub).promise < s.size) := by
  constructor
  · by_contra hlt
    have hin := (h sub (not_lt.mp hlt)).1.joined id (hs.walk_joined hctl)
    simp at hin
  · intro hw
    by_contra hlt
    exact (h _ (not_lt.mp hlt)).1.waits sub hw rfl

lemma Unused.walked (h : Unused s) {rest : List Nat} {count : Nat} {frames : List Frame}
    (hctl : s.control = .handleThens id st v rest count :: frames) : id < s.size := by
  by_contra hlt
  obtain ⟨hrace, hst⟩ := h id (not_lt.mp hlt)
  have happart := hrace.control (.handleThens id st v rest count) (by simp [hctl]) rfl
  exact happart.2.2 (happart.1.trans hst)

lemma Watch.walkTake (h : Watch p A False s) (hs : s.Sound) (hu : s.Unused) {rest : List Nat} {count : Nat}
    {frames : List Frame} (hctl : s.control = .handleThens id st v (sub :: rest) count :: frames)
    (hst : st ≠ .pending) (hok : s.Marks .walk) : Watch p A False s.walk := by
  obtain ⟨hsub, hwaits⟩ := hu.below hs hctl
  have hcount : count ≠ 0 := by
    rintro rfl
    exact absurd (h.stack.2.1 id st v (sub :: rest) frames hctl) (by simp)
  have hbusy : State.Busy { s with control := .handleThens id st v rest count :: frames } := by
    have htail := h.stack.1
    rw [hctl] at htail
    simpa [Busy, Frame.busy, hcount] using htail
  have hends : ¬s.Ends p := by
    rintro ⟨w, rest', frames', hctl'⟩
    rw [hctl] at hctl'
    exact hcount (Frame.handleThens.inj (List.cons.inj hctl').1).2.2.2.2
  have hpop : Watch p A False { s with control := .handleThens id st v rest count :: frames } := by
    refine h.calls (by simp [hctl, Frame.walks]) (fun hw => .inr (.inr ?_)) (fun he => absurd he hends)
      hbusy.not_ends ⟨?_, fun id' st' w rest' frames' heq => ?_,
      fun st' w rest' count' hmem => ?_⟩
    · simpa [hctl, Frame.walks] using hw
    · have htail := h.stack.1
      rwa [hctl] at htail
    · exact absurd (Frame.handleThens.inj (List.cons.inj heq).1).2.2.2.2 hcount
    · rcases List.mem_cons.mp hmem with heq | hmem
      · rw [(Frame.handleThens.inj heq).2.1]
        exact hst
      · exact h.stack.2.2 st' w rest' count' (by rw [hctl]; exact List.mem_cons_of_mem _ hmem)
  have hord := hs.ordered.take hctl
  have hran : SameAt p { s with control := .handleThens id st v rest count :: frames }
      (State.modify { s with control := .handleThens id st v rest count :: frames } id
        fun o => { o with ran := o.ran ++ [sub] }) := sameAt_touch fun _ => ⟨rfl, rfl, rfl, rfl⟩
  have hobj (q : Nat) : ((State.modify { s with control := .handleThens id st v rest count :: frames } id
      fun o => { o with ran := o.ran ++ [sub] }).heap q) =
      { s.heap q with ran := (s.heap q).ran ++ if q = id then [sub] else [] } := by
    by_cases hq : q = id <;> simp [hq]
  simp only [Marks, hctl] at hok
  rw [State.walk]
  rw [hctl]
  dsimp only
  refine (hpop.congr hran).walkNext hord hbusy hst (fun heq => heq ▸ hsub) (fun hw heq => ?_) ?_ v
  · rw [hobj] at hw heq
    exact heq ▸ hwaits hw
  · simp only [TakesMarked, Fresh, hobj] at hok ⊢
    exact hok

lemma Watch.walkEnd (h : Watch p A False s) {count : Nat} {frames : List Frame}
    (hctl : s.control = .handleThens id st v [] count :: frames) (hid : id < s.size) (hok : s.Marks .walk) :
    Watch p (A ∨ id = p ∧ s.Throws id st count) False s.walk := by
  obtain ⟨hbusy, hstack⟩ := h.stack.tail hctl
  have hnot : ¬Ends { s with control := frames } p := hbusy.not_ends
  have hgain : frames.any (Frame.walks p) = true → s.control.any (Frame.walks p) = true := by
    intro hw
    rw [hctl, List.any_cons, hw, Bool.or_true]
  simp only [Marks, hctl] at hok
  rw [State.walk]
  rw [hctl]
  dsimp only
  rw [State.walkEnd]
  split
  · next hend =>
    obtain ⟨rfl, rfl⟩ := hend
    have hwalks : Frame.walks p (.handleThens id .rejected v [] 0) = false := by simp [Frame.walks]
    have hany : s.control.any (Frame.walks p) = frames.any (Frame.walks p) := by
      rw [hctl, List.any_cons, hwalks, Bool.false_or]
    have hends : s.Ends p → id = p := by
      rintro ⟨w, rest, frames', hctl'⟩
      rw [hctl] at hctl'
      exact (Frame.handleThens.inj (List.cons.inj hctl').1).1
    split
    · next hwarned =>
      refine (h.calls hgain (fun hw => .inr (.inr (hany ▸ hw))) (fun he => hends he ▸ hwarned) hnot hstack).iff ?_
      simp [Throws, show (s.heap id).warnedUnhandled = true from hwarned]
    · next hwarned =>
      have hunmarked : (s.heap id).warnedUnhandled = false := by simpa using hwarned
      have hwarn : Watch p (A ∨ id = p ∧ s.Throws id .rejected 0) False
          (s.modify id fun o => { o with warnedUnhandled := true }) := by
        refine h.warn .inl (fun hB => hB.imp_right And.left) fun heq => ⟨heq ▸ hid, fun hstop => .inl (.inr ?_)⟩
        exact ⟨heq, rfl, rfl, hunmarked, hstop⟩
      have hmarked : Ends (s.modify id fun o => { o with warnedUnhandled := true }) p →
          ((s.modify id fun o => { o with warnedUnhandled := true }).heap p).warnedUnhandled = true := by
        intro he
        have heq : id = p := hends he
        simp [heq]
      dsimp only
      split
      · exact hwarn.calls hgain (fun hw => .inr (.inr (hany ▸ hw))) hmarked hnot hstack
      · next hstop =>
        have hthrows : s.Throws id .rejected 0 := ⟨rfl, rfl, hunmarked, Bool.eq_false_iff.mpr hstop⟩
        have hcut := hwarn.calls (fun hw : ([] : List Frame).any _ = true => by cases hw) (fun hw => ?_) hmarked
          (by rintro ⟨w, rest, frames', heq⟩; cases heq)
          ⟨rfl, fun _ _ _ _ _ heq => (by cases heq), fun _ _ _ _ hmem => (by cases hmem)⟩
        · exact hcut.congr ⟨rfl, rfl, rfl, rfl, Iff.rfl, rfl, rfl, le_rfl⟩
        · by_cases hticks : p ∈ s.ticks
          · left
            have hfresh := hok hthrows p hticks (hany ▸ hw)
            by_cases heq : p = id
            · exact .inr (.inr (by simp [heq]))
            · simpa [Fresh, heq] using hfresh
          · exact .inr (.inl hticks)
  · next hend =>
    have hthrows : ¬s.Throws id st count := fun hthrows => hend ⟨hthrows.1, hthrows.2.1⟩
    have hends : ¬s.Ends p := by
      rintro ⟨w, rest, frames', hctl'⟩
      rw [hctl] at hctl'
      obtain ⟨-, hst, -, -, hcount⟩ := Frame.handleThens.inj (List.cons.inj hctl').1
      exact hend ⟨hcount, hst⟩
    split
    · next hst =>
      have hwarn : Watch p A False (s.modify id fun o => { o with warnedUnhandled := true }) := by
        refine h.warn (fun hA => hA) .inl fun heq => ⟨heq ▸ hid, fun _ => .inr (h.counted ?_)⟩
        have hcount : count ≠ 0 := fun hcount => hend ⟨hcount, hst⟩
        simp [hctl, Frame.walks, heq, hst, hcount]
      refine (hwarn.calls hgain (fun hw => ?_) (fun he => absurd he hends) hnot hstack).iff (by simp [hthrows])
      by_cases heq : id = p
      · exact .inl (.inr (.inr (by simp [heq])))
      · right
        right
        simpa [hctl, Frame.walks, heq] using hw
    · next hst =>
      refine (h.calls hgain (fun hw => .inr (.inr ?_)) (fun he => absurd he hends) hnot hstack).iff
        (by simp [hthrows])
      simpa [hctl, Frame.walks, hst] using hw

/-- A call of the user is left. -/
lemma Watch.pop (h : Watch p A False s) {f : Frame} {frames : List Frame} (hctl : s.control = f :: frames)
    (hf : ∀ id st v rest count, f ≠ .handleThens id st v rest count) :
    State.Busy { s with control := frames } ∧ Watch p A False { s with control := frames } := by
  obtain ⟨hbusy, hstack⟩ := h.stack.tail hctl
  have hany : s.control.any (Frame.walks p) = frames.any (Frame.walks p) := by
    rw [hctl, List.any_cons]
    cases f with
    | handleThens id st v rest count => exact absurd rfl (hf id st v rest count)
    | _ => rfl
  have hends : ¬s.Ends p := by
    rintro ⟨v, rest, frames', hctl'⟩
    rw [hctl] at hctl'
    exact hf p .rejected v rest 0 (List.cons.inj hctl').1
  exact ⟨hbusy, h.calls (fun hw => hany ▸ hw) (fun hw => .inr (.inr (hany ▸ hw))) (fun he => absurd he hends)
    hbusy.not_ends hstack⟩

lemma Watch.userReturn (h : Watch p A False s) (hs : s.Sound) (hu : s.Unused) {result : Except Value Value}
    (hv : ∀ q, result = .ok (.promise q) → q < s.size) (hok : s.Marks (.userReturn result)) :
    Watch p (A ∨ s.Passes p (.userReturn result)) False (s.userReturn result) := by
  rw [State.userReturn]
  split
  · next sub frames hctl =>
    obtain ⟨hbusy, hpop⟩ := h.pop hctl fun _ _ _ _ _ hf => by cases hf
    have hsub : sub < s.size := by
      by_contra hlt
      exact (hu sub (not_lt.mp hlt)).1.control (.pcall sub) (by simp [hctl]) rfl
    have hord : Ordered { s with control := frames } := hs.ordered.frames fun p => by simp [hctl, Frame.restOf]
    simp only [Marks, hctl] at hok
    refine (hpop.handlerResult hord hbusy (fun heq => heq ▸ hsub) hv hok).iff (or_congr_right ?_)
    constructor
    · rintro ⟨rfl, hr⟩
      exact ⟨⟨sub, frames, hctl⟩, rfl, hr⟩
    · intro hp
      cases result with
      | ok v =>
        obtain ⟨-, rfl, hr⟩ := hp
        exact ⟨rfl, hr⟩
      | error v => exact hp.elim
  · next this frames hctl =>
    obtain ⟨hbusy, hpop⟩ := h.pop hctl fun _ _ _ _ _ hf => by cases hf
    have hthis : this < s.size := by
      by_contra hlt
      exact (hu this (not_lt.mp hlt)).1.control (.executor this) (by simp [hctl]) rfl
    split
    · exact hpop.iff (by simp [Passes, hctl])
    · exact (hpop.param_reject hthis _).iff (by simp [Passes])
  · next hnot _ =>
    refine h.iff ⟨.inl, fun hA => hA.elim (fun hA => hA) fun hp => ?_⟩
    cases result with
    | ok v =>
      obtain ⟨⟨sub, frames, hctl⟩, -⟩ := hp
      exact absurd hctl (hnot sub frames)
    | error v => exact hp.elim

lemma Watch.tick (h : Watch p A False s) (hs : s.Sound) (hctl : s.control = []) : Watch p A False s.tick := by
  rw [State.tick]
  split
  · exact h
  · next id ticks hticks =>
    have hbusy : State.Busy { s with ticks := ticks } := by simp [Busy, hctl]
    have hord : Ordered { s with ticks := ticks } := ⟨hs.ordered.order, hs.ordered.fresh⟩
    by_cases heq : id = p
    · subst heq
      have hmem : id ∈ s.ticks := by simp [hticks]
      have hfresh : s.status id = .rejected → s.Fresh id := by
        intro hst
        rcases h.walked hst with hf | hf | hf
        · exact hf
        · exact absurd hmem hf
        · simp [hctl] at hf
      have hlt : id < s.size := by
        by_contra hlt
        exact (h.unused (not_lt.mp hlt)).2.1 hmem
      have hpop : Watch id A (id = id) { s with ticks := ticks } := by
        constructor
        case ticks =>
          intro _
          exact h.ticks hmem
        case walked =>
          intro hp
          exact .inl (hfresh hp)
        case noticed =>
          intro _
          exact .inr (.inr (.inr (.inr rfl)))
        case unused =>
          intro hp
          exact absurd hlt (not_lt.mpr hp)
        case pending => exact h.pending
        case ends => exact h.ends
        case marked => exact h.marked
        case known => exact h.known
        case counted => exact h.counted
        case stack => exact h.stack
      exact hpop.handle_thens hord hbusy fun _ => ⟨hlt, h.ticks hmem, hfresh⟩
    · have hpop : Watch p A False { s with ticks := ticks } :=
        h.congr ⟨rfl, rfl, rfl, rfl, by simp [hticks, Ne.symm heq], rfl, rfl, le_rfl⟩
      exact (hpop.except _).handle_thens hord hbusy fun heq' => absurd heq' heq

/-! ### What is thrown -/

lemma putIndex_unhandled {target w : Value} {i : Nat} (hput : s.putIndex target i w = some t) :
    t.unhandled = s.unhandled := by
  cases target with
  | undefined => simp [State.putIndex] at hput
  | plain k => simp [State.putIndex] at hput
  | array id => exact Option.some.inj hput ▸ rfl
  | _ => exact Option.some.inj hput ▸ rfl

lemma all_resolved_unhandled : (s.promise_all_resolved sub v).2.unhandled = s.unhandled := by
  unfold promise_all_resolved
  dsimp only
  split
  · rfl
  · split
    · rfl
    · next t hput =>
      have ht : t.unhandled = s.unhandled := putIndex_unhandled hput
      split
      · exact ht
      · exact ht

lemma adopt_unhandled : (s.adopt id q).unhandled = s.unhandled := by
  unfold State.adopt
  dsimp only
  split <;> rfl

lemma handlerResult_unhandled {result : Except Value Value} :
    (s.handlerResult sub result).unhandled = s.unhandled := by
  unfold State.handlerResult
  split
  · split
    · exact adopt_unhandled
    · rfl
  · rfl
  · rfl

lemma walkNext_unhandled : (s.walkNext st v sub).unhandled = s.unhandled := by
  rw [State.walkNext]
  split
  · rfl
  · rfl
  · exact handlerResult_unhandled.trans all_resolved_unhandled
  · exact handlerResult_unhandled

/-- A walk that ends throws under `Throws`, and nothing else does. -/
lemma walkEnd_unhandled {count : Nat} {frames : List Frame}
    (hctl : s.control = .handleThens id st v [] count :: frames) :
    (s.Throws id st count → (s.step .walk).unhandled = s.unhandled ++ [v]) ∧
      (¬s.Throws id st count → (s.step .walk).unhandled = s.unhandled) := by
  have hstep : s.step .walk = State.walkEnd { s with control := frames } id st v count := by
    simp [State.step, enabled, userRuns, perform, State.walk, hctl]
  rw [hstep]
  rw [State.walkEnd]
  constructor
  · rintro ⟨hcount, hst, hwarned, hstop⟩
    rw [if_pos ⟨hcount, hst⟩, if_neg (by simp [hwarned])]
    dsimp only
    rw [if_neg (by simpa [State.modify] using hstop)]
    rfl
  · intro hnot
    split
    · next hend =>
      split
      · rfl
      · next hwarned =>
        dsimp only
        split
        · rfl
        · next hstop =>
          exact absurd ⟨hend.1, hend.2, Bool.eq_false_iff.mpr hwarned, Bool.eq_false_iff.mpr hstop⟩ hnot
    · split <;> rfl

lemma Reports.throws {i : Input} (h : s.Reports q i) :
    i = .walk ∧ ∃ st v count frames, s.control = .handleThens q st v [] count :: frames ∧ s.Throws q st count := by
  obtain ⟨⟨st, v, rest, count, frames, hctl⟩, hne⟩ := h
  have hwalk : i = .walk := by
    by_contra hi
    have hdis : s.enabled i = false := by
      cases i with
      | walk => exact absurd rfl hi
      | userReturn result => cases result <;> simp [enabled, userRuns, hctl]
      | _ => simp [enabled, userRuns, hctl]
    exact hne (by simp [State.step, hdis])
  subst hwalk
  refine ⟨rfl, ?_⟩
  cases rest with
  | nil =>
    refine ⟨st, v, count, frames, hctl, ?_⟩
    by_contra hnot
    exact hne ((walkEnd_unhandled hctl).2 hnot)
  | cons sub rest =>
    refine absurd ?_ hne
    have hstep : s.step .walk = s.walk := by simp [State.step, enabled, userRuns, perform, hctl]
    rw [hstep]
    rw [State.walk]
    rw [hctl]
    exact walkNext_unhandled

lemma Watch.walk (h : Watch p A False s) (hs : s.Sound) (hu : s.Unused) (hok : s.Marks .walk)
    (hsettled : ∀ id st v rest count frames, s.control = .handleThens id st v rest count :: frames →
      st ≠ .pending) :
    Watch p (A ∨ ∃ st v count frames, s.control = .handleThens p st v [] count :: frames ∧ s.Throws p st count)
      False s.walk := by
  cases hctl : s.control with
  | nil => simpa [State.walk, hctl] using h
  | cons f frames =>
    cases f with
    | handleThens id st v rest count =>
      cases rest with
      | nil =>
        refine (h.walkEnd hctl (hu.walked hctl) hok).iff (or_congr_right ⟨?_, ?_⟩)
        · rintro ⟨rfl, hthrows⟩
          exact ⟨st, v, count, frames, rfl, hthrows⟩
        · rintro ⟨st', v', count', frames', heq, hthrows⟩
          simp only [List.cons.injEq, Frame.handleThens.injEq] at heq
          obtain ⟨⟨rfl, rfl, -, -, rfl⟩, -⟩ := heq
          exact ⟨rfl, hthrows⟩
      | cons sub rest =>
        refine (h.walkTake hs hu hctl (hsettled _ _ _ _ _ _ hctl) hok).iff ?_
        simp
    | pcall sub => simpa [State.walk, hctl] using h
    | executor this => simpa [State.walk, hctl] using h

lemma Watch.step (h : Watch p A False s) (hs : s.Sound) (hu : s.Unused) {i : Input} (hok : s.Marks i)
    (hsettled : ∀ id st v rest count frames, s.control = .handleThens id st v rest count :: frames →
      st ≠ .pending) :
    Watch p (A ∨ s.PassesOn p i ∨ s.Reports p i) False (s.step i) := by
  have hreports : i ≠ .walk → ¬s.Reports p i := fun hi hr => hi hr.throws.1
  have hbusy (hrun : s.userRuns = true) : s.Busy := by
    have htail := h.stack.1
    unfold userRuns at hrun
    unfold Busy
    cases hctl : s.control with
    | nil => rfl
    | cons f frames =>
      rw [hctl] at htail hrun
      cases f with
      | handleThens id st v rest count => simp at hrun
      | _ => exact htail
  cases hen : s.enabled i with
  | false =>
    have hstep : s.step i = s := by simp [State.step, hen]
    rw [hstep]
    exact h.iff (by simp [PassesOn, hen, Reports, hstep])
  | true =>
    have hstep : s.step i = s.perform i := by simp [State.step, hen]
    rw [hstep]
    cases i with
    | construct =>
      have hb := hbusy hen
      have halloc := (h.alloc hb (o := { Object.new .pending .undefined with constructed := true }) rfl rfl).drop
        fun he => by simp [Object.new] at he
      have hpush := halloc.push hb (f := .executor s.size) rfl fun _ _ _ _ _ hf => by cases hf
      exact (hpush.congr ⟨rfl, rfl, rfl, rfl, Iff.rfl, rfl, rfl, le_rfl⟩).iff
        (by simp [PassesOn, Passes, hreports])
    | resolve id v =>
      have hen' := hen
      simp only [enabled, Bool.and_eq_true, decide_eq_true_eq] at hen'
      refine (h.param_resolve (hbusy hen'.1.1.1) hen'.1.1.2 hen'.2).iff ?_
      simp [PassesOn, hen, Passes, hreports]
    | reject id v =>
      have hen' := hen
      simp only [enabled, Bool.and_eq_true, decide_eq_true_eq] at hen'
      exact (h.param_reject hen'.1.1.2 v).iff (by simp [PassesOn, Passes, hreports])
    | thenCatch id onThen onCatch =>
      have hen' := hen
      simp only [enabled, Bool.and_eq_true, decide_eq_true_eq] at hen'
      exact (h.then_catch (hbusy hen'.1) hen'.2 onThen onCatch).iff (by simp [PassesOn, Passes, hreports])
    | all elems =>
      have hen' := hen
      simp only [enabled, Bool.and_eq_true] at hen'
      have hb := hbusy hen'.1
      have hlt : ∀ q, .promise q ∈ elems → q < s.size := fun q hq => ofHeap_all hen'.2 hq
      have halloc := (h.alloc hb (o := .new .fulfilled (.array s.size)) rfl rfl).drop
        fun he => by simp [Object.new] at he
      have hloop := halloc.allLoop hb (Nat.lt_succ_self s.size) (fun heq => ?_) hlt 0 0
      · rw [find_rejects (s := s) fun q hq => by simp [status, (hlt q hq).ne]] at hloop
        exact hloop.iff (by simp [PassesOn, hen, Passes, hreports])
      · exact ⟨by simp [← heq, Object.new], (h.unused heq.le).2.1⟩
    | race elems =>
      have hen' := hen
      simp only [enabled, Bool.and_eq_true] at hen'
      have hb := hbusy hen'.1
      have hlt : ∀ q, .promise q ∈ elems → q < s.size := fun q hq => ofHeap_all hen'.2 hq
      have halloc := (h.alloc hb (o := .new .pending .undefined) rfl rfl).drop
        fun he => by simp [Object.new] at he
      have hloop := halloc.raceLoop hb (Nat.lt_succ_self s.size) (fun heq => ?_) hlt
      · rw [find_pends (s := s) fun q hq => by simp [status, (hlt q hq).ne]] at hloop
        refine hloop.iff (or_congr_right ?_)
        simp only [PassesOn, hen, Passes, hreports, true_and, ne_eq, reduceCtorEq, not_false_eq_true, or_false]
        refine and_congr_right fun hfind => ?_
        have hne : p ≠ s.size := (hlt p (List.mem_of_find?_eq_some hfind)).ne
        simp [rejects, status, hne]
      · exact ⟨by simp [← heq, Object.new], (h.unused heq.le).2.1⟩
    | promiseResolve v =>
      have hen' := hen
      simp only [enabled, Bool.and_eq_true] at hen'
      have hres : Watch p A False (s.promise_resolve v) := by
        unfold promise_resolve
        split
        · exact h
        · exact (h.alloc (hbusy hen'.1) rfl rfl).drop fun he => by simp [Object.new] at he
      exact hres.iff (by simp [PassesOn, Passes, hreports])
    | promiseReject v =>
      have hen' := hen
      simp only [enabled, Bool.and_eq_true] at hen'
      exact (h.reject (hbusy hen'.1) v).iff (by simp [PassesOn, Passes, hreports])
    | userReturn result =>
      refine (h.userReturn hs hu (fun q hq => ?_) hok).iff (by simp [PassesOn, hen, hreports])
      subst hq
      have hen' := hen
      simp only [enabled, Bool.and_eq_true] at hen'
      simpa [ofHeap] using hen'.2
    | walk =>
      refine (h.walk hs hu hok hsettled).iff (or_congr_right ?_)
      simp only [PassesOn, Passes, and_false, false_or]
      constructor
      · rintro ⟨st, v, count, frames, hctl, hthrows⟩
        refine ⟨⟨st, v, [], count, frames, hctl⟩, ?_⟩
        rw [(walkEnd_unhandled hctl).1 hthrows]
        simp
      · exact fun hr => hr.throws.2
    | tick =>
      have hctl : s.control = [] := by
        simp only [enabled, Bool.and_eq_true, List.isEmpty_iff] at hen
        exact hen.1
      exact (h.tick hs hctl).iff (by simp [PassesOn, Passes, hreports])
    | stop =>
      have hstop : Watch p A False { s with dukFlagStop := true } :=
        ⟨h.pending, h.ticks, h.walked, h.noticed, h.ends, h.marked, fun hf => (by cases hf), h.counted, h.unused,
          h.stack⟩
      exact hstop.iff (by simp [PassesOn, Passes, hreports])

/-! ### Runs -/

lemma happened_concat {P : State → Input → Prop} {is : List Input} {i : Input} :
    Happened P (is ++ [i]) ↔ Happened P is ∨ P (machine.run init is) i := by
  constructor
  · rintro ⟨js₁, j, js₂, heq, hP⟩
    rcases List.eq_nil_or_concat js₂ with rfl | ⟨js₂, k, rfl⟩
    · obtain ⟨rfl, hj⟩ := List.append_inj' heq rfl
      cases hj
      exact .inr hP
    · left
      refine ⟨js₁, j, js₂, ?_, hP⟩
      rw [List.concat_eq_append, ← List.cons_append, ← List.append_assoc] at heq
      exact (List.append_inj' heq rfl).1
  · rintro (⟨js₁, j, js₂, rfl, hP⟩ | hP)
    · exact ⟨js₁, j, js₂ ++ [i], by simp, hP⟩
    · exact ⟨is, i, [], by simp, hP⟩

lemma watch_init (p : Nat) : Watch p False False init where
  pending _ := .inl rfl
  ticks hp := by cases hp
  walked hp := by cases hp
  noticed hp := by cases hp
  ends _ := .inl rfl
  marked hA := hA.elim
  known _ hw := by cases hw
  counted hw := by cases hw
  unused _ := by simp [init]
  stack := ⟨rfl, fun _ _ _ _ _ hctl => (by cases hctl), fun _ _ _ _ hmem => (by cases hmem)⟩

/-- What is known of all promises after a run. -/
structure Watched (is : List Input) (s : State) : Prop where
  sound : s.Sound
  unused : s.Unused
  watch : ∀ p, Watch p (Happened (·.PassesOn p ·) is ∨ Happened (·.Reports p ·) is) False s

lemma watched_init : Watched [] init := by
  have hnever (P : State → Input → Prop) : ¬Happened P [] := by
    rintro ⟨js₁, i, js₂, heq, -⟩
    simp at heq
  exact ⟨sound_init, unused_init, fun p => (watch_init p).iff (by simp [hnever])⟩

lemma Watched.step {is : List Input} {i : Input} (h : Watched is s) (hrun : s = machine.run init is)
    (hkeeps : s.Keeps i) (hmarks : s.Marks i) : Watched (is ++ [i]) (s.step i) := by
  refine ⟨h.sound.step hkeeps, h.unused.step h.sound i, fun p => ?_⟩
  refine ((h.watch p).step h.sound h.unused hmarks fun id st v rest count frames hctl => ?_).iff ?_
  · exact (h.watch id).stack.2.2 st v rest count (by simp [hctl])
  · rw [happened_concat, happened_concat, ← hrun]
    tauto

lemma Watched.reported {is : List Input} (h : Watched is s) : Reported is s where
  raised id v count frames hctl hstop := by
    have hw := h.watch id
    have hthrows : s.Throws id .rejected count ↔ (s.heap id).joined = [] ∧ ¬Happened (·.PassesOn id ·) is ∧
        ¬Happened (·.Reports id ·) is := by
      constructor
      · rintro ⟨rfl, -, hwarned, -⟩
        have hjoined := (hw.ends ⟨v, [], frames, hctl⟩).resolve_right (by simp [hwarned])
        refine ⟨hjoined, fun hA => ?_, fun hA => ?_⟩
        · simp [hw.marked (.inl hA)] at hwarned
        · simp [hw.marked (.inr hA)] at hwarned
      · rintro ⟨hjoined, hpassed, hreported⟩
        refine ⟨?_, rfl, ?_, hstop⟩
        · by_contra hcount
          exact hw.counted (by simp [hctl, Frame.walks, hcount]) hjoined
        · refine Bool.eq_false_iff.mpr fun hwarned => ?_
          rcases hw.known hstop hwarned with (hA | hA) | hA
          · exact hpassed hA
          · exact hreported hA
          · exact hA hjoined
    split
    · next hcond => exact (walkEnd_unhandled hctl).1 (hthrows.mpr hcond)
    · next hcond => exact (walkEnd_unhandled hctl).2 fun ht => hcond (hthrows.mp ht)
  complete hctl hticks hstop p hst := by
    have hw := h.watch p
    have hends : ¬s.Ends p := by
      rintro ⟨v, rest, frames, heq⟩
      rw [hctl] at heq
      cases heq
    rcases hw.noticed hst with hn | hn | hn | hn | hn
    · exact .inl hn
    · simp [hticks] at hn
    · rcases hw.known hstop hn with hA | hA
      · exact .inr hA
      · exact .inl hA
    · exact absurd hn hends
    · exact hn.elim

end State

/-- In every run in which no walk loses its subscribers, what gets rejected has no subscribers that a walk has
taken unless it is marked, and no report is thrown through the walk of an unmarked promise that will be walked
again, the rejections are reported that nobody has taken over, each once. -/
theorem rejection_reported {is : List Input}
    (hok : machine.Guarded (fun s i => s.Keeps i ∧ s.Marks i) init is) :
    State.Reported is (machine.run init is) := by
  suffices h : State.Watched is (machine.run init is) from h.reported
  induction is using List.reverseRecOn with
  | nil => exact State.watched_init
  | append_singleton is i ih =>
    rw [Machine.guarded_append] at hok
    rw [Machine.run_concat]
    exact (ih hok.1).step rfl hok.2.1.1 hok.2.1.2

/-- A promise with a derived promise is rejected; the derived promise is reported. -/
theorem rejection_reported_derived :
    State.Reported (pendingPromise ++ [.thenCatch 0 (some 0) none, .reject 0 (.plain 1), .tick, .walk, .walk])
      (machine.run init
        (pendingPromise ++ [.thenCatch 0 (some 0) none, .reject 0 (.plain 1), .tick, .walk, .walk])) := by
  refine rejection_reported ⟨⟨trivial, trivial⟩, ⟨trivial, trivial⟩, ⟨trivial, trivial⟩, ⟨trivial, trivial⟩,
    ⟨trivial, trivial⟩, ⟨.inr (.inr ?_), fun _ => ?_⟩, ⟨fun _ p => ?_, fun _ p hp => ?_⟩, trivial⟩
  · decide
  · decide
  · change rests [.handleThens 0 .rejected (.plain 1) [] 1] p = []
    simp [Frame.restOf]
  · exact absurd (show p ∈ ([] : List Nat) from hp) List.not_mem_nil

/-- `Promise.reject(1).then(f)`. -/
def rejectedThen : List Input :=
  [.promiseReject (.plain 1), .thenCatch 0 (some 0) none, .tick, .walk, .walk, .tick]

/-- The second call from the queue is about to report a promise that has a derived promise. -/
theorem reported_twice : ¬State.Reported rejectedThen (machine.run init rejectedThen) := by
  intro h
  have hraised := h.raised 0 (.plain 1) 0 [] (by decide) (by decide)
  rw [if_neg fun hcond => absurd hcond.1 (by decide)] at hraised
  exact absurd hraised (by decide)

end LowJs.Promise
