import LowJs.OPCUA.Client
import Mathlib.Data.List.Nodup

/-!
# The lifetime of tasks and client

No task is read after it was erased, no client after it was deleted, and the callback of a request is
called at most once, on the condition that no task with a callback times out and that no method is called
when the main loop has deleted the client.
-/

namespace LowJs.OPCUA
namespace Client

variable {s : Client}

/-! ### What is promised -/

/-- Nothing that is freed has been read, and every callback has been called at most once, with the response
to its request or with none. -/
structure Safe (s : Client) : Prop where
  freed : s.freed = false
  once : (s.calls.map (·.1)).Nodup
  responses : ∀ id r, (id, Ending.response r) ∈ s.calls → s.answered id = some r

/-- The condition: no method is called while the cell points to a client that has been deleted, and no task
with a callback times out. -/
def Lives (s : Client) : Input → Prop
  | .request .. | .destroy .. => s.cell = true → s.alive = true
  | .timeout id => ∀ task, s.find id = some task → task.result = none → s.mDisabledState = 0 →
      task.callback = false
  | _ => True

/-! ### The tasks and the calls -/

/-- The tasks have numbers of their own and have not been called back, and keep the response that has come
for them. -/
structure Ledger (s : Client) : Prop where
  unique : (s.mTasks.map Task.id).Nodup
  bounded : ∀ task ∈ s.mTasks, task.id < s.requests
  results : ∀ task ∈ s.mTasks, ∀ r, task.result = some r → s.answered task.id = some r
  pending : ∀ task ∈ s.mTasks, task.id ∉ s.calls.map (·.1)
  called : ∀ id ∈ s.calls.map (·.1), id < s.requests
  once : (s.calls.map (·.1)).Nodup
  responses : ∀ id r, (id, Ending.response r) ∈ s.calls → s.answered id = some r

/-- What the ledger rests on. -/
def ledgerPart (s : Client) := (s.mTasks, s.requests, s.calls, s.answered)

lemma Ledger.congr {t : Client} (h : s.Ledger) (hst : t.ledgerPart = s.ledgerPart) : t.Ledger := by
  simp only [ledgerPart, Prod.mk.injEq] at hst
  obtain ⟨htasks, hrequests, hcalls, hanswered⟩ := hst
  constructor
  case unique =>
    rw [htasks]
    exact h.unique
  case bounded =>
    rw [htasks, hrequests]
    exact h.bounded
  case results =>
    rw [htasks, hanswered]
    exact h.results
  case pending =>
    rw [htasks, hcalls]
    exact h.pending
  case called =>
    rw [hcalls, hrequests]
    exact h.called
  case once =>
    rw [hcalls]
    exact h.once
  case responses =>
    rw [hcalls, hanswered]
    exact h.responses

/-- A task with the next number. -/
lemma Ledger.issue {t : Client} (h : s.Ledger) {type : TaskType} {callback : Bool}
    (ht : t.ledgerPart =
      (s.mTasks ++ [⟨s.requests, type, callback, none⟩], s.requests + 1, s.calls, s.answered)) :
    t.Ledger := by
  simp only [ledgerPart, Prod.mk.injEq] at ht
  obtain ⟨htasks, hrequests, hcalls, hanswered⟩ := ht
  constructor
  case unique =>
    rw [htasks, List.map_append, List.map_singleton]
    apply List.Nodup.append h.unique (List.nodup_singleton _)
    intro id hid hnew
    obtain ⟨task, htask, rfl⟩ := List.mem_map.1 hid
    exact Nat.ne_of_lt (h.bounded task htask) (List.mem_singleton.1 hnew)
  case bounded =>
    rw [htasks, hrequests]
    intro task htask
    obtain htask | htask := List.mem_append.1 htask
    · exact Nat.lt_succ_of_lt (h.bounded task htask)
    · cases List.mem_singleton.1 htask
      exact Nat.lt_succ_self _
  case results =>
    rw [htasks, hanswered]
    intro task htask r hr
    obtain htask | htask := List.mem_append.1 htask
    · exact h.results task htask r hr
    · cases List.mem_singleton.1 htask
      cases hr
  case pending =>
    rw [htasks, hcalls]
    intro task htask hid
    obtain htask | htask := List.mem_append.1 htask
    · exact h.pending task htask hid
    · cases List.mem_singleton.1 htask
      exact Nat.lt_irrefl _ (h.called _ hid)
  case called =>
    rw [hcalls, hrequests]
    exact fun id hid => Nat.lt_succ_of_lt (h.called id hid)
  case once =>
    rw [hcalls]
    exact h.once
  case responses =>
    rw [hcalls, hanswered]
    exact h.responses

/-- A task is erased. -/
lemma Ledger.erase (h : s.Ledger) (task : Task) : Ledger { s with mTasks := s.mTasks.erase task } := by
  have hmem : ∀ task' ∈ s.mTasks.erase task, task' ∈ s.mTasks := fun _ => List.mem_of_mem_erase
  constructor
  case unique => exact h.unique.sublist (List.erase_sublist.map _)
  case bounded => exact fun task' ht => h.bounded task' (hmem task' ht)
  case results => exact fun task' ht => h.results task' (hmem task' ht)
  case pending => exact fun task' ht => h.pending task' (hmem task' ht)
  case called => exact h.called
  case once => exact h.once
  case responses => exact h.responses

/-- The callback of a task that is not among the tasks any more is called. -/
lemma Ledger.call (h : s.Ledger) {task : Task} {ending : Ending} (hid : task.id < s.requests)
    (hout : ∀ task' ∈ s.mTasks, task'.id ≠ task.id) (hcalls : task.id ∉ s.calls.map (·.1))
    (hending : ∀ r, ending = .response r → s.answered task.id = some r) :
    (s.call task ending).Ledger := by
  simp only [Client.call]
  split
  case isFalse => exact h
  case isTrue =>
    constructor
    case unique => exact h.unique
    case bounded => exact h.bounded
    case results => exact h.results
    case pending =>
      intro task' ht
      have := h.pending task' ht
      have hne := hout task' ht
      simp only [List.map_append, List.map_singleton, List.mem_append, List.mem_singleton, not_or]
      exact ⟨this, hne⟩
    case called =>
      intro id hmem
      simp only [List.map_append, List.map_singleton, List.mem_append, List.mem_singleton] at hmem
      obtain hmem | rfl := hmem
      · exact h.called id hmem
      · exact hid
    case once =>
      simp only [List.map_append, List.map_singleton]
      apply List.Nodup.append h.once (List.nodup_singleton _)
      intro id hmem hnew
      cases List.mem_singleton.1 hnew
      exact hcalls hmem
    case responses =>
      intro id r hmem
      obtain hmem | hmem := List.mem_append.1 hmem
      · exact h.responses id r hmem
      · cases List.mem_singleton.1 hmem
        exact hending r rfl

/-- The numbers of the other tasks are different. -/
lemma Ledger.erase_ne (h : s.Ledger) {task : Task} (htask : task ∈ s.mTasks) :
    ∀ task' ∈ s.mTasks.erase task, task'.id ≠ task.id := by
  intro task' ht heq
  have hnodup : s.mTasks.Nodup := h.unique.of_map
  obtain ⟨hne, ht'⟩ := (hnodup.mem_erase_iff).1 ht
  exact hne (List.inj_on_of_nodup_map h.unique ht' htask heq)

/-- A task is erased, and its callback is called. -/
lemma Ledger.close (h : s.Ledger) {task : Task} (htask : task ∈ s.mTasks) {ending : Ending}
    (hending : ∀ r, ending = .response r → task.result = some r) :
    (({ s with mTasks := s.mTasks.erase task } : Client).call task ending).Ledger := by
  apply (h.erase task).call (h.bounded task htask) (h.erase_ne htask) (h.pending task htask)
  intro r hr
  exact h.results task htask r (hending r hr)

/-! ### The steps -/

lemma Ledger.send (h : s.Ledger) (type : TaskType) (callback sent : Bool) :
    (s.send type callback sent).Ledger := by
  simp only [Client.send]
  split
  · exact h.issue rfl
  · exact h.congr rfl

lemma Ledger.request (h : s.Ledger) (r : Request) (args callback sent : Bool) :
    (s.request r args callback sent).Ledger := by
  simp only [Client.request]
  split
  · exact h
  split
  · exact h.congr rfl
  split
  · exact h
  cases r with
  | createSubscription =>
    dsimp only
    split
    · exact h.send _ callback sent
    · exact h
  | destroySubscription sub =>
    simp only [Client.destroySubscription]
    split
    · exact h.send _ callback sent
    · exact h
  | add sub node =>
    have hcount : (s.addItemCount sub 1).Ledger := h.congr rfl
    simp only [Client.add]
    split
    · split
      · exact hcount
      · exact hcount.send _ callback sent
    · exact h
  | remove sub node =>
    simp only [Client.remove]
    split
    · cases s.monitoredItemID node with
      | none => exact h
      | some item => exact h.send _ callback sent
    · exact h
  | other =>
    dsimp only
    split
    · exact h.send _ callback sent
    · exact h

lemma Ledger.destroy (h : s.Ledger) (callback sent : Bool) : (s.destroy callback sent).Ledger := by
  simp only [Client.destroy]
  split
  · exact h
  split
  · exact h.congr rfl
  split
  · exact h.issue rfl
  · exact h.congr rfl

/-- A response is kept with its task. -/
lemma Ledger.response (h : s.Ledger) (id : Nat) (r : Response) : (s.response id r).Ledger := by
  simp only [Client.response]
  split
  case isFalse => exact h
  case isTrue =>
    cases hfind : s.find id with
    | none => exact h
    | some task =>
      dsimp only
      split
      case isFalse => exact h
      case isTrue =>
        have htask : task ∈ s.mTasks := List.mem_of_find?_eq_some hfind
        have hid : task.id = id := by
          have := List.find?_some hfind
          simpa using this
        have hids : (s.mTasks.map fun t => if t.id = id then { t with result := some r } else t).map
            Task.id = s.mTasks.map Task.id := by
          rw [List.map_map]
          apply List.map_congr_left
          intro t _
          simp only [Function.comp_apply]
          split <;> rfl
        have hmem : ∀ t' ∈ s.mTasks.map fun t => if t.id = id then { t with result := some r } else t,
            t'.id ∈ s.mTasks.map Task.id := by
          intro t' ht'
          rw [← hids]
          exact List.mem_map_of_mem ht'
        constructor
        case unique =>
          dsimp only
          rw [hids]
          exact h.unique
        case bounded =>
          intro t' ht'
          obtain ⟨t, ht, heq⟩ := List.mem_map.1 (hmem t' ht')
          exact heq ▸ h.bounded t ht
        case results =>
          intro t' ht' r' hr'
          obtain ⟨t, ht, rfl⟩ := List.mem_map.1 ht'
          dsimp only
          split at hr'
          case isTrue hti =>
            cases hr'
            rw [if_pos hti, hti, Function.update_self]
          case isFalse hti =>
            rw [if_neg hti, Function.update_of_ne hti]
            exact h.results t ht r' hr'
        case pending =>
          intro t' ht' hcalled
          obtain ⟨t, ht, heq⟩ := List.mem_map.1 (hmem t' ht')
          exact h.pending t ht (heq ▸ hcalled)
        case called => exact h.called
        case once => exact h.once
        case responses =>
          intro id' r' hmem'
          have hne : id' ≠ id := by
            rintro rfl
            exact h.pending task htask (hid ▸ List.mem_map_of_mem hmem')
          dsimp only
          rw [Function.update_of_ne hne]
          exact h.responses id' r' hmem'

lemma Ledger.delete (h : s.Ledger) : s.delete.Ledger := by
  simp only [Client.delete]
  cases hlast : (s.mTasks.filter fun t => t.type == .destroy && t.callback).getLast? with
  | none =>
    simp only [Option.map_none, Option.toList_none, List.append_nil]
    constructor
    case unique => exact List.nodup_nil
    case bounded => simp
    case results => simp
    case pending => simp
    case called => exact h.called
    case once => exact h.once
    case responses => exact h.responses
  | some task =>
    have htask := List.mem_of_getLast? hlast
    simp only [List.mem_filter, Bool.and_eq_true] at htask
    obtain ⟨htask, _, hcallback⟩ := htask
    have hnone : Ledger { s with mTasks := [] } := by
      constructor
      case unique => exact List.nodup_nil
      case bounded => simp
      case results => simp
      case pending => simp
      case called => exact h.called
      case once => exact h.once
      case responses => exact h.responses
    have hclosed : (({ s with mTasks := [] } : Client).call task .closed).Ledger := by
      apply hnone.call (h.bounded task htask) _ (h.pending task htask)
      · intro r hr
        cases hr
      · simp
    apply hclosed.congr
    simp only [ledgerPart, Client.call, hcallback, if_true, Option.map_some, Option.toList_some]

lemma Ledger.returns (h : s.Ledger) (byLoop result : Bool) : (s.returns byLoop result).Ledger := by
  have hidle : Ledger { s with pc := .idle } := h.congr rfl
  simp only [Client.returns]
  split
  · exact hidle.delete
  · exact hidle

lemma Ledger.onLoop (h : s.Ledger) (byLoop : Bool) : (s.onLoop byLoop).Ledger := by
  simp only [Client.onLoop]
  split
  · exact h.congr rfl
  split
  · exact h.returns _ _
  · exact h.congr rfl

lemma settle_ledgerPart (s : Client) (task : Task) (r : Response) :
    (s.settle task r).ledgerPart = s.ledgerPart := by
  simp only [settle]
  split
  · split <;> rfl
  all_goals rfl

lemma Ledger.task (h : s.Ledger) (id : Nat) : (s.task id).Ledger := by
  simp only [Client.task]
  cases hfind : s.find id with
  | none => exact h
  | some task =>
    dsimp only
    cases hresult : task.result with
    | none => exact h
    | some r =>
      dsimp only
      split
      · exact h
      · have htask : task ∈ s.mTasks := List.mem_of_find?_eq_some hfind
        have hclose : (({ s with mTasks := s.mTasks.erase task } : Client).call task
            (.response r)).Ledger := by
          apply h.close htask
          intro r' hr'
          cases hr'
          exact hresult
        apply hclose.congr
        have hsettle := settle_ledgerPart { s with mTasks := s.mTasks.erase task } task r
        simp only [process, Client.call, ledgerPart, Prod.mk.injEq] at hsettle ⊢
        split <;> simp [hsettle]

lemma Ledger.timeout (h : s.Ledger) (id : Nat) : (s.timeout id).Ledger := by
  simp only [Client.timeout]
  cases hfind : s.find id with
  | none => exact h
  | some task =>
    dsimp only
    split
    · exact h
    · have htask : task ∈ s.mTasks := List.mem_of_find?_eq_some hfind
      have hclose : (({ s with mTasks := s.mTasks.erase task } : Client).call task .timeout).Ledger := by
        apply h.close htask
        intro r hr
        cases hr
      apply hclose.congr
      simp only [Client.call, ledgerPart]
      split <;> rfl

lemma Ledger.step (h : s.Ledger) (i : Input) : (s.step i).Ledger := by
  cases i with
  | request r args callback sent => exact h.request r args callback sent
  | destroy callback sent => exact h.destroy callback sent
  | connected err =>
    simp only [Client.step, Client.connected]
    split
    · exact h.congr rfl
    · exact h
  | response id r => exact h.response id r
  | error =>
    simp only [Client.step, Client.error]
    split
    · exact h.congr rfl
    · exact h
  | disconnected =>
    simp only [Client.step, Client.disconnected]
    split
    · exact h.congr rfl
    · exact h
  | timeout id =>
    simp only [Client.step]
    split
    · exact h.timeout id
    · exact h
  | timeoutReturns =>
    simp only [Client.step, Client.timeoutReturns]
    split
    · split
      · exact h.congr rfl
      · apply Ledger.onLoop
        exact h.congr rfl
    · exact h
  | loop =>
    simp only [Client.step]
    split
    · apply Ledger.onLoop
      exact h.congr rfl
    · exact h
  | errorReturns =>
    simp only [Client.step]
    cases s.pc with
    | inError byLoop =>
      apply Ledger.returns
      exact h.congr rfl
    | _ => exact h
  | task id =>
    simp only [Client.step]
    cases s.pc with
    | inTasks byLoop => exact h.task id
    | _ => exact h
  | tasksEnd skipped =>
    simp only [Client.step]
    cases s.pc with
    | inTasks byLoop =>
      apply Ledger.returns
      exact h.congr rfl
    | _ => exact h

/-! ### What is read -/

lemma returns_freed (s : Client) (byLoop result : Bool) : (s.returns byLoop result).freed = s.freed := by
  simp only [Client.returns]
  split <;> rfl

lemma onLoop_freed (s : Client) (byLoop : Bool) : (s.onLoop byLoop).freed = s.freed := by
  simp only [Client.onLoop]
  split
  · rfl
  split
  · exact returns_freed s _ _
  · rfl

lemma send_freed (s : Client) (type : TaskType) (callback sent : Bool) :
    (s.send type callback sent).freed = s.freed := by
  simp only [Client.send]
  split <;> rfl

lemma call_freed (s : Client) (task : Task) (ending : Ending) : (s.call task ending).freed = s.freed := by
  simp only [Client.call]
  split <;> rfl

lemma settle_freed (s : Client) (task : Task) (r : Response) : (s.settle task r).freed = s.freed := by
  simp only [settle]
  split
  · split <;> rfl
  all_goals rfl

lemma request_freed {r : Request} {args callback sent : Bool}
    (hok : s.Lives (.request r args callback sent)) :
    (s.request r args callback sent).freed = s.freed := by
  simp only [Client.request]
  split
  · rfl
  case isFalse hcell =>
    have hcell : s.cell = true := by simpa using hcell
    rw [hok hcell]
    simp only [Bool.not_true, Bool.false_eq_true, if_false]
    split
    · rfl
    cases r with
    | createSubscription =>
      dsimp only
      split
      · exact send_freed s _ _ _
      · rfl
    | destroySubscription sub =>
      simp only [Client.destroySubscription]
      split
      · exact send_freed s _ _ _
      · rfl
    | add sub node =>
      simp only [Client.add]
      split
      · split
        · rfl
        · exact send_freed _ _ _ _
      · rfl
    | remove sub node =>
      simp only [Client.remove]
      split
      · cases s.monitoredItemID node with
        | none => rfl
        | some item => exact send_freed s _ _ _
      · rfl
    | other =>
      dsimp only
      split
      · exact send_freed s _ _ _
      · rfl

lemma destroy_freed {callback sent : Bool} (hok : s.Lives (.destroy callback sent)) :
    (s.destroy callback sent).freed = s.freed := by
  simp only [Client.destroy]
  split
  · rfl
  case isFalse hcell =>
    have hcell : s.cell = true := by simpa using hcell
    rw [hok hcell]
    simp only [Bool.not_true, Bool.false_eq_true, if_false]
    split <;> rfl

/-- A task that times out is read behind its removal only for its callback. -/
lemma timeout_freed {id : Nat} (hok : s.Lives (.timeout id)) : (s.timeout id).freed = s.freed := by
  simp only [Client.timeout]
  cases hfind : s.find id with
  | none => rfl
  | some task =>
    dsimp only
    split
    case isTrue => rfl
    case isFalse hopen =>
      have hopen : task.result = none ∧ s.mDisabledState = 0 := by
        simpa [Option.isNone_iff_eq_none] using hopen
      simp [hok task hfind hopen.1 hopen.2]

lemma task_freed (s : Client) (id : Nat) : (s.task id).freed = s.freed := by
  simp only [Client.task]
  cases s.find id with
  | none => rfl
  | some task =>
    dsimp only
    cases task.result with
    | none => rfl
    | some r =>
      dsimp only
      split
      · rfl
      · rw [process, call_freed, settle_freed]

/-- The steps that read the object or a task read what is there. -/
lemma step_freed (s : Client) (i : Input) (hok : s.Lives i) : (s.step i).freed = s.freed := by
  cases i with
  | request r args callback sent => exact request_freed hok
  | destroy callback sent => exact destroy_freed hok
  | connected err =>
    simp only [Client.step, Client.connected]
    split <;> rfl
  | response id r =>
    simp only [Client.step, Client.response]
    split
    · cases s.find id with
      | none => rfl
      | some task => dsimp only; split <;> rfl
    · rfl
  | error =>
    simp only [Client.step, Client.error]
    split <;> rfl
  | disconnected =>
    simp only [Client.step, Client.disconnected]
    split <;> rfl
  | timeout id =>
    simp only [Client.step]
    split
    case isFalse => rfl
    case isTrue => exact timeout_freed hok
  | timeoutReturns =>
    simp only [Client.step, Client.timeoutReturns]
    split
    · split
      · rfl
      · exact onLoop_freed _ _
    · rfl
  | loop =>
    simp only [Client.step]
    split
    · exact onLoop_freed _ _
    · rfl
  | errorReturns =>
    simp only [Client.step]
    cases s.pc with
    | inError byLoop => exact returns_freed _ _ _
    | _ => rfl
  | task id =>
    simp only [Client.step]
    cases s.pc with
    | inTasks byLoop => exact task_freed s id
    | _ => rfl
  | tasksEnd skipped =>
    simp only [Client.step]
    cases s.pc with
    | inTasks byLoop => exact returns_freed _ _ _
    | _ => rfl

lemma ledger_start : Ledger start := by
  constructor
  case unique => exact List.nodup_nil
  case bounded => simp [start]
  case results => simp [start]
  case pending => simp [start]
  case called => simp [start]
  case once => exact List.nodup_nil
  case responses => simp [start]

/-- A request is answered, and the client is destroyed. -/
def oneRequest : List Input :=
  [.connected false, .loop, .tasksEnd false, .request .other true true true, .response 0 (.done 0),
    .loop, .task 0, .tasksEnd false, .destroy true true, .disconnected, .loop]

end Client
end LowJs.OPCUA
