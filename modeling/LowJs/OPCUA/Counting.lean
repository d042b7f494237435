import LowJs.OPCUA.Client

/-!
# The items of a subscription

The hidden property `itemCount` of a subscription against the items that are monitored for it and the
requests for items that are in flight.
-/

namespace LowJs.OPCUA
namespace Client

variable {s : Client}

/-! ### What is promised -/

def Task.adds (sub : Nat) (task : Task) : Bool :=
  match task.type with
  | .add sub' _ => sub' == sub
  | _ => false

/-- The requests for items of the subscription that are in flight. -/
def inFlight (s : Client) (sub : Nat) : Nat := s.mTasks.countP (Task.adds sub)

/-- The items monitored for the subscription. -/
def monitored (s : Client) (sub : Nat) : Nat := s.items.countP (·.1 == sub)

/-- The client may be asked for something. -/
def Ready (s : Client) : Prop :=
  s.cell = true ∧ s.alive = true ∧ s.mConnectState = 2 ∧ s.mDisabledState ≠ 2

/-- The count is the number of items and of requests for items in flight; and so `destroy` of the
subscription sends nothing exactly while there are some. -/
structure Counted (s : Client) (sub : Nat) : Prop where
  count : s.itemCount sub = s.monitored sub + s.inFlight sub
  destroy : s.Ready → s.subId sub = true →
    (s.request (.destroySubscription sub) true true true = s ↔ 0 < s.monitored sub + s.inFlight sub)

/-- The condition: what `add` is given is no monitored node and has its properties, and the request is sent;
no `add` times out; and the server removes only items it has. -/
def Settles (s : Client) : Input → Prop
  | .request (.add sub node) args _ sent => s.Ready → s.subId sub = true →
      s.monitoredItemID node = none ∧ args = true ∧ sent = true
  | .timeout id => ∀ task, s.find id = some task → task.result = none → s.mDisabledState = 0 →
      ∀ sub, Task.adds sub task = false
  | .task id => ∀ task, s.find id = some task → ∀ sub node item i,
      task.type = .remove sub node item → task.result = some (.done i) → (sub, item) ∈ s.items
  | _ => True

/-! ### The count -/

def Balanced (s : Client) : Prop := ∀ sub, s.itemCount sub = s.monitored sub + s.inFlight sub

/-- A subscription that has not been created counts nothing. -/
def Fresh (s : Client) : Prop := ∀ sub, s.subs ≤ sub → s.itemCount sub = 0 ∧ s.subId sub = false

/-- What the count rests on. -/
def countPart (s : Client) :=
  (s.alive, s.mTasks, s.subs, s.subId, s.itemCount, s.items)

structure Inv (s : Client) : Prop where
  balanced : s.alive = true → s.Balanced
  fresh : s.alive = true → s.Fresh

lemma Inv.congr {t : Client} (h : s.Inv) (hst : t.countPart = s.countPart) : t.Inv := by
  simp only [countPart, Prod.mk.injEq] at hst
  obtain ⟨halive, htasks, hsubs, hid, hcount, hitems⟩ := hst
  constructor
  case balanced =>
    intro ht sub
    have := h.balanced (halive ▸ ht) sub
    simpa only [monitored, inFlight, htasks, hcount, hitems] using this
  case fresh =>
    intro ht sub hsub
    rw [hcount, hid]
    exact h.fresh (halive ▸ ht) sub (hsubs ▸ hsub)

/-- The object is deleted. -/
lemma Inv.dead (h : s.alive = false) : s.Inv := by
  constructor
  case balanced =>
    intro halive
    rw [h] at halive
    cases halive
  case fresh =>
    intro halive
    rw [h] at halive
    cases halive

lemma inFlight_append (s : Client) (task : Task) (sub : Nat) (requests : Nat) :
    inFlight { s with mTasks := s.mTasks ++ [task], requests := requests } sub =
      s.inFlight sub + if Task.adds sub task then 1 else 0 := by
  simp only [inFlight, List.countP_append, List.countP_singleton]

/-- A request that asks for no item is sent, or not. -/
lemma Inv.send (h : s.Inv) {type : TaskType} (htype : ∀ sub node, type ≠ .add sub node)
    (callback sent : Bool) : (s.send type callback sent).Inv := by
  simp only [Client.send]
  split
  case isTrue =>
    constructor
    case balanced =>
      intro halive sub
      have hadds : Task.adds sub ⟨s.requests, type, callback, none⟩ = false := by
        cases type with
        | add sub' node => exact absurd rfl (htype sub' node)
        | _ => rfl
      rw [inFlight_append, hadds]
      exact h.balanced halive sub
    case fresh => exact h.fresh
  case isFalse => exact h.congr rfl

/-- A request for an item is sent. -/
lemma Inv.add (h : s.Inv) (halive : s.alive = true) {sub node : Nat} {args callback sent : Bool}
    (hok : s.subId sub = true → s.monitoredItemID node = none ∧ args = true ∧ sent = true) :
    (s.add sub node args callback sent).Inv := by
  simp only [Client.add]
  split
  case isFalse => exact h
  case isTrue hid =>
    obtain ⟨hnode, rfl, rfl⟩ := hok hid
    have hnode' : (s.addItemCount sub 1).monitoredItemID node = none := hnode
    simp only [hnode', Option.isSome_none, Bool.not_true, Bool.or_self, Bool.false_eq_true, if_false,
      Client.send, if_true]
    have hlt : ¬s.subs ≤ sub := by
      intro hle
      rw [(h.fresh halive sub hle).2] at hid
      cases hid
    constructor
    case balanced =>
      intro _ sub'
      have hb := h.balanced halive sub'
      rw [inFlight_append]
      change Function.update s.itemCount sub (s.itemCount sub + 1) sub' =
        (s.monitored sub' : Int) + ((s.inFlight sub' + if (sub == sub') = true then 1 else 0 : Nat) : Int)
      by_cases hsub : sub = sub'
      · subst hsub
        rw [Function.update_self, hb]
        simp only [beq_self_eq_true, if_true]
        omega
      · have hne : (sub == sub') = false := by simpa using hsub
        rw [Function.update_of_ne (fun h => hsub h.symm), hb, hne]
        simp
    case fresh =>
      intro _ sub' hle
      have hne : sub' ≠ sub := by
        rintro rfl
        exact hlt hle
      refine ⟨?_, (h.fresh halive sub' hle).2⟩
      exact (Function.update_of_ne hne _ _).trans (h.fresh halive sub' hle).1

lemma Inv.request (h : s.Inv) {r : Request} {args callback sent : Bool}
    (hok : s.Settles (.request r args callback sent)) : (s.request r args callback sent).Inv := by
  simp only [Client.request]
  split
  case isTrue => exact h
  case isFalse hcell =>
    split
    case isTrue => exact h.congr rfl
    case isFalse halive =>
      split
      case isTrue => exact h
      case isFalse hstate =>
        have hready : s.Ready := by
          simp only [Bool.not_eq_true', Bool.not_eq_false] at hcell halive
          exact ⟨hcell, halive, by tauto, by tauto⟩
        cases r with
        | createSubscription =>
          dsimp only
          split
          · exact h.send (by simp) callback sent
          · exact h
        | destroySubscription sub =>
          simp only [Client.destroySubscription]
          split
          · exact h.send (by simp) callback sent
          · exact h
        | add sub node => exact h.add hready.2.1 (hok hready)
        | remove sub node =>
          simp only [Client.remove]
          split
          · cases hnode : s.monitoredItemID node with
            | none => exact h
            | some item => exact h.send (by simp) callback sent
          · exact h
        | other =>
          dsimp only
          split
          · exact h.send (by simp) callback sent
          · exact h

lemma countP_erase {α : Type} [BEq α] [LawfulBEq α] (p : α → Bool) {a : α} {l : List α} (h : a ∈ l) :
    l.countP p = (l.erase a).countP p + if p a then 1 else 0 := by
  rw [(List.perm_cons_erase h).countP_eq, List.countP_cons]

lemma find_mem {id : Nat} {task : Task} (h : s.find id = some task) : task ∈ s.mTasks :=
  List.mem_of_find?_eq_some h

/-- A task is erased that asks for no item. -/
lemma inFlight_erase {task : Task} (htask : task ∈ s.mTasks) (sub : Nat) :
    s.inFlight sub = (s.mTasks.erase task).countP (Task.adds sub) + if Task.adds sub task then 1 else 0 :=
  countP_erase _ htask

lemma Inv.response (h : s.Inv) (id : Nat) (r : Response) : (s.response id r).Inv := by
  simp only [Client.response]
  split
  case isFalse => exact h
  case isTrue =>
    cases s.find id with
    | none => exact h
    | some task =>
      dsimp only
      split
      case isFalse => exact h
      case isTrue =>
        constructor
        case balanced =>
          intro halive sub
          have hb := h.balanced halive sub
          have hcount : (s.mTasks.map fun t => if t.id = id then { t with result := some r } else t).countP
              (Task.adds sub) = s.mTasks.countP (Task.adds sub) := by
            rw [List.countP_map]
            apply List.countP_congr
            intro t _
            simp only [Function.comp_apply]
            split <;> exact Iff.rfl
          simp only [inFlight, hcount]
          exact hb
        case fresh => exact h.fresh

lemma Inv.call (h : s.Inv) (task : Task) (ending : Ending) : (s.call task ending).Inv := by
  simp only [Client.call]
  split
  · exact h.congr rfl
  · exact h

lemma Inv.returns (h : s.Inv) (byLoop result : Bool) : (s.returns byLoop result).Inv := by
  have hidle : Inv { s with pc := .idle } := h.congr rfl
  simp only [Client.returns]
  split
  · exact Inv.dead rfl
  · exact hidle

lemma Inv.onLoop (h : s.Inv) (byLoop : Bool) : (s.onLoop byLoop).Inv := by
  simp only [Client.onLoop]
  split
  · exact h.congr rfl
  split
  · exact h.returns _ _
  · exact h.congr rfl

/-- A task that asks for no item is erased. -/
lemma Inv.erase (h : s.Inv) {task : Task} (htask : task ∈ s.mTasks)
    (hadds : ∀ sub, Task.adds sub task = false) : Inv { s with mTasks := s.mTasks.erase task } := by
  constructor
  case balanced =>
    intro halive sub
    have hb := h.balanced halive sub
    rw [inFlight_erase htask sub, hadds sub] at hb
    exact hb
  case fresh => exact h.fresh

lemma Inv.timeout (h : s.Inv) {id : Nat} (hok : s.Settles (.timeout id)) : (s.timeout id).Inv := by
  simp only [Client.timeout]
  cases hfind : s.find id with
  | none => exact h
  | some task =>
    dsimp only
    split
    case isTrue => exact h
    case isFalse hopen =>
      have hopen : task.result = none ∧ s.mDisabledState = 0 := by
        simpa [Option.isNone_iff_eq_none] using hopen
      have hadds := hok task hfind hopen.1 hopen.2
      have hcall : (s.call task .timeout).countPart = s.countPart := by
        simp only [Client.call]
        split <;> rfl
      apply (h.erase (find_mem hfind) hadds).congr
      simp only [countPart, Prod.mk.injEq] at hcall ⊢
      exact ⟨hcall.1, trivial, hcall.2.2⟩

/-- A count that is not 0 is that of a subscription that has been created. -/
lemma Fresh.created (h : s.Fresh) {sub : Nat} (hcount : s.itemCount sub ≠ 0) : ¬s.subs ≤ sub :=
  fun hle => hcount (h sub hle).1

/-- The response to a request for an item: the task's part of the count goes over to the item, or is taken
back. -/
lemma Inv.processAdd (h : s.Inv) {task : Task} (htask : task ∈ s.mTasks) {sub node : Nat}
    (htype : task.type = .add sub node) (r : Response) : (s.process task r).Inv := by
  have hadds (sub' : Nat) : Task.adds sub' task = (sub == sub') := by
    simp only [Task.adds, htype]
  have hb (halive : s.alive = true) (sub' : Nat) : s.itemCount sub' = s.monitored sub' +
      ((s.mTasks.erase task).countP (Task.adds sub') + if sub = sub' then 1 else 0 : Nat) := by
    have := h.balanced halive sub'
    rw [inFlight_erase htask sub', hadds sub'] at this
    simpa using this
  apply Inv.call
  simp only [settle, htype]
  cases r with
  | failed =>
    constructor
    case balanced =>
      intro halive sub'
      have hb := hb halive sub'
      change Function.update s.itemCount sub (s.itemCount sub + -1) sub' =
        (s.monitored sub' : Int) + ((s.mTasks.erase task).countP (Task.adds sub') : Nat)
      by_cases hsub : sub = sub'
      · subst hsub
        rw [Function.update_self, hb, if_pos rfl]
        omega
      · rw [Function.update_of_ne (fun h => hsub h.symm), hb, if_neg hsub, Nat.add_zero]
    case fresh =>
      intro halive sub' hle
      have hlt : ¬s.subs ≤ sub := by
        apply (h.fresh halive).created
        rw [hb halive sub, if_pos rfl]
        omega
      have hne : sub' ≠ sub := by
        rintro rfl
        exact hlt hle
      refine ⟨?_, (h.fresh halive sub' hle).2⟩
      exact (Function.update_of_ne hne _ _).trans (h.fresh halive sub' hle).1
  | done item =>
    constructor
    case balanced =>
      intro halive sub'
      have hb := hb halive sub'
      change s.itemCount sub' = (((sub, item) :: s.items).countP (·.1 == sub') : Nat) +
        (((s.mTasks.erase task).countP (Task.adds sub') : Nat) : Int)
      rw [hb, List.countP_cons, monitored]
      by_cases hsub : sub = sub'
      · subst hsub
        simp only [beq_self_eq_true, if_true]
        omega
      · have hne : (sub == sub') = false := by simpa using hsub
        rw [if_neg hsub, hne]
        simp
    case fresh => exact h.fresh

/-- The response to a request to remove an item. -/
lemma Inv.processRemove (h : s.Inv) {task : Task} (htask : task ∈ s.mTasks) {sub node item : Nat}
    (htype : task.type = .remove sub node item) (r : Response)
    (hitem : ∀ i, r = .done i → (sub, item) ∈ s.items) : (s.process task r).Inv := by
  have hadds (sub' : Nat) : Task.adds sub' task = false := by
    simp only [Task.adds, htype]
  have herase := h.erase htask hadds
  apply Inv.call
  simp only [settle, htype]
  cases r with
  | failed => exact herase
  | done i =>
    have hmem := hitem i rfl
    have hmon (sub' : Nat) : s.monitored sub' =
        (s.items.erase (sub, item)).countP (·.1 == sub') + if (sub == sub') = true then 1 else 0 :=
      countP_erase _ hmem
    constructor
    case balanced =>
      intro halive sub'
      have hb := herase.balanced halive sub'
      change s.itemCount sub' = (s.monitored sub' : Int) +
        (((s.mTasks.erase task).countP (Task.adds sub') : Nat) : Int) at hb
      change Function.update s.itemCount sub (s.itemCount sub + -1) sub' =
        (((s.items.erase (sub, item)).countP (·.1 == sub') : Nat) : Int) +
          (((s.mTasks.erase task).countP (Task.adds sub') : Nat) : Int)
      rw [hmon sub'] at hb
      by_cases hsub : sub = sub'
      · subst hsub
        rw [Function.update_self, hb]
        simp only [beq_self_eq_true, if_true]
        omega
      · have hne : (sub == sub') = false := by simpa using hsub
        rw [Function.update_of_ne (fun h => hsub h.symm), hb, hne]
        simp
    case fresh =>
      intro halive sub' hle
      have hlt : ¬s.subs ≤ sub := by
        apply (h.fresh halive).created
        rw [h.balanced halive sub, hmon sub]
        simp only [beq_self_eq_true, if_true]
        omega
      have hne : sub' ≠ sub := by
        rintro rfl
        exact hlt hle
      refine ⟨?_, (h.fresh halive sub' hle).2⟩
      exact (Function.update_of_ne hne _ _).trans (h.fresh halive sub' hle).1

/-- A subscription is created, and counts nothing. -/
lemma Inv.create (h : s.Inv) : Inv { s with
    subs := s.subs + 1
    subId := Function.update s.subId s.subs true
    itemCount := Function.update s.itemCount s.subs 0 } := by
  constructor
  case balanced =>
    intro halive sub
    have hb := h.balanced halive sub
    change Function.update s.itemCount s.subs 0 sub = (s.monitored sub : Int) + s.inFlight sub
    by_cases hsub : sub = s.subs
    · subst hsub
      rw [Function.update_self, ← hb, (h.fresh halive _ (Nat.le_refl _)).1]
    · rw [Function.update_of_ne hsub, hb]
  case fresh =>
    intro halive sub hle
    have hle : s.subs + 1 ≤ sub := hle
    have hne : sub ≠ s.subs := by omega
    obtain ⟨hcount, hid⟩ := h.fresh halive sub (by omega)
    exact ⟨(Function.update_of_ne hne _ _).trans hcount, (Function.update_of_ne hne _ _).trans hid⟩

/-- A subscription is destroyed. -/
lemma Inv.destroyed (h : s.Inv) (sub : Nat) :
    Inv { s with subId := Function.update s.subId sub false } := by
  constructor
  case balanced => exact h.balanced
  case fresh =>
    intro halive sub' hle
    obtain ⟨hcount, hid⟩ := h.fresh halive sub' hle
    refine ⟨hcount, ?_⟩
    change Function.update s.subId sub false sub' = false
    rw [Function.update_apply]
    split
    · rfl
    · exact hid

lemma Inv.process (h : s.Inv) {task : Task} (htask : task ∈ s.mTasks) (r : Response)
    (hok : ∀ sub node item i, task.type = .remove sub node item → r = .done i →
      (sub, item) ∈ s.items) : (s.process task r).Inv := by
  cases htype : task.type with
  | add sub node => exact h.processAdd htask htype r
  | remove sub node item => exact h.processRemove htask htype r fun i hi => hok sub node item i htype hi
  | destroy =>
    have herase := h.erase htask fun sub => by simp only [Task.adds, htype]
    apply Inv.call
    simp only [settle, htype]
    exact herase
  | createSubscription =>
    have herase := h.erase htask fun sub => by simp only [Task.adds, htype]
    apply Inv.call
    simp only [settle, htype]
    cases r with
    | failed => exact herase
    | done item =>
      dsimp only
      split
      · exact herase.create
      · exact herase
  | destroySubscription sub =>
    have herase := h.erase htask fun sub => by simp only [Task.adds, htype]
    apply Inv.call
    simp only [settle, htype]
    cases r with
    | failed => exact herase
    | done item => exact herase.destroyed sub
  | other =>
    have herase := h.erase htask fun sub => by simp only [Task.adds, htype]
    apply Inv.call
    simp only [settle, htype]
    exact herase

lemma Inv.task (h : s.Inv) {id : Nat} (hok : s.Settles (.task id)) : (s.task id).Inv := by
  simp only [Client.task]
  cases hfind : s.find id with
  | none => exact h
  | some task =>
    dsimp only
    cases hresult : task.result with
    | none => exact h
    | some r =>
      dsimp only
      split
      · exact h
      · apply h.process (find_mem hfind) r
        rintro sub node item i htype rfl
        exact hok task hfind sub node item i htype hresult

lemma Inv.destroy (h : s.Inv) (callback sent : Bool) : (s.destroy callback sent).Inv := by
  simp only [Client.destroy]
  split
  · exact h
  split
  · exact h.congr rfl
  split
  · constructor
    case balanced =>
      intro halive sub
      have hb := h.balanced halive sub
      simp only [inFlight, List.countP_append, List.countP_singleton]
      simpa [inFlight, monitored, Task.adds] using hb
    case fresh => exact h.fresh
  · exact h.congr rfl

lemma Inv.step (s : Client) (i : Input) (h : s.Inv) (hok : s.Settles i) : (s.step i).Inv := by
  cases i with
  | request r args callback sent => exact h.request hok
  | destroy callback sent => exact h.destroy callback sent
  | connected err =>
    simp only [Client.step, Client.connected]
    split
    · exact h.congr rfl
    · exact h
  | response id r => exact h.response id r
  | error =>
    simp only [Client.step, Client.error]
    split
    · exact h.congr rfl
    · exact h
  | disconnected =>
    simp only [Client.step, Client.disconnected]
    split
    · exact h.congr rfl
    · exact h
  | timeout id =>
    simp only [Client.step]
    split
    · exact h.timeout hok
    · exact h
  | timeoutReturns =>
    simp only [Client.step, Client.timeoutReturns]
    split
    · split
      · exact h.congr rfl
      · apply Inv.onLoop
        exact h.congr rfl
    · exact h
  | loop =>
    simp only [Client.step]
    split
    · apply Inv.onLoop
      exact h.congr rfl
    · exact h
  | errorReturns =>
    simp only [Client.step]
    cases s.pc with
    | inError byLoop =>
      apply Inv.returns
      exact h.congr rfl
    | _ => exact h
  | task id =>
    simp only [Client.step]
    cases s.pc with
    | inTasks byLoop => exact h.task hok
    | _ => exact h
  | tasksEnd skipped =>
    simp only [Client.step]
    cases s.pc with
    | inTasks byLoop =>
      apply Inv.returns
      exact h.congr rfl
    | _ => exact h

/-- `destroy` of a subscription that counts something sends nothing. -/
lemma destroySubscription_eq (hready : s.Ready) {sub : Nat} (hid : s.subId sub = true) :
    s.request (.destroySubscription sub) true true true = s ↔ s.itemCount sub ≠ 0 := by
  obtain ⟨hcell, halive, hconnect, hdisabled⟩ := hready
  have hreq : s.request (.destroySubscription sub) true true true =
      s.destroySubscription sub true true := by
    simp [Client.request, hcell, halive, hconnect, hdisabled]
  rw [hreq]
  simp only [Client.destroySubscription, hid, Bool.true_and, beq_iff_eq]
  split
  case isFalse hcount => exact iff_of_true rfl hcount
  case isTrue hcount =>
    apply iff_of_false _ (not_not.2 hcount)
    intro h
    have := congrArg Client.requests h
    simp [Client.send] at this

/-- A subscription with an item that is removed again. -/
def oneItem : List Input :=
  [.connected false, .loop, .tasksEnd false, .request .createSubscription true true true,
    .response 0 (.done 0), .loop, .task 0, .tasksEnd false,
    .request (.add 0 5) true true true, .response 1 (.done 7), .loop, .task 1, .tasksEnd false]

end Client
end LowJs.OPCUA
