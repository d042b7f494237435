import LowJs.Core.IntrusiveQueue
import LowJs.Core.Machine

/-!
# The data threads

Callbacks are queued at two priorities and run by any number of threads. A callback may be queued again
while it runs; the threads then skip it until it has returned. All steps are those that hold
`data_thread_mutex`.
-/

namespace LowJs.DataThread

/-- Where a data thread is: about to look for work, in `pthread_cond_wait`, in `OnData`, before the
`delete` of a callback, in the `low_data_clear_callback` of its destructor, or at its end. -/
inductive Worker
  | scanning
  | waiting
  | running (c : Nat)
  | deleting (c : Nat)
  | clearing (c : Nat)
  | done
  deriving DecidableEq, Repr

/-- The data threads' part of `low_t`, the links and flags of the first `count` callbacks, the data
threads and the callers of `low_data_clear_callback`, each with the callback it waits for. The rest is
history: how often a callback was put into a queue, was run, and was taken out of the queue unrun. -/
structure Low where
  mNext : Nat → Option Nat
  queue : Fin 2 → Ends Nat
  mInDataThread : Nat → Bool
  count : Nat
  threads : Nat
  worker : Nat → Worker
  clearing : Nat → Option Nat
  destroying : Bool
  sets : Nat → Nat
  runs : Nat → Nat
  clears : Nat → Nat

namespace Low

/-- The test for a queued callback. -/
def isQueued (s : Low) (c : Nat) : Bool :=
  s.mNext c != none || (s.queue 0).last == some c || (s.queue 1).last == some c

def setQueue (s : Low) (priority : Fin 2) (q : Ends Nat × (Nat → Option Nat)) : Low :=
  { s with queue := Function.update s.queue priority q.1, mNext := q.2 }

def setWorker (s : Low) (w : Nat) (x : Worker) : Low :=
  { s with worker := Function.update s.worker w x }

/-- `pthread_cond_broadcast` of `data_thread_cond`. -/
def broadcast (s : Low) : Low :=
  { s with worker := fun w => if s.worker w = .waiting then .scanning else s.worker w }

/-- `low_data_set_callback`. -/
def low_data_set_callback (s : Low) (c : Nat) (priority : Fin 2) : Low :=
  if s.isQueued c then s
  else
    let s := s.setQueue priority ((s.queue priority).push s.mNext c)
    let s := { s with sets := Function.update s.sets c (s.sets c + 1) }
    if s.mInDataThread c then s else s.broadcast

/-- A callback is taken out of a queue. -/
def unlink (s : Low) (priority : Fin 2) (prev : Option Nat) (c : Nat) : Low :=
  s.setQueue priority ((s.queue priority).unlink s.mNext prev c)

/-- The search of a priority's queue behind its head. -/
def clearBehind (s : Low) (priority : Fin 2) (c : Nat) : Low :=
  match predecessor s.mNext c (s.count + 1) (s.queue priority).first with
  | none => s
  | some l => s.unlink priority (some l) c

/-- `low_data_clear_callback` up to its loop. -/
def clearQueued (s : Low) (c : Nat) : Low :=
  let t :=
    if (s.queue 0).first = some c then s.unlink 0 none c
    else if (s.queue 1).first = some c then s.unlink 1 none c
    else if s.isQueued c then (s.clearBehind 0 c).clearBehind 1 c
    else s
  { t with
    mNext := Function.update t.mNext c none
    clears := Function.update s.clears c (s.clears c + if s.isQueued c then 1 else 0) }

/-- The callback that a data thread takes from the queue of a priority, with the one before it. -/
def found (s : Low) (priority : Fin 2) : Option Nat × Option Nat :=
  firstIdle s.mNext s.mInDataThread (s.count + 1) none (s.queue priority).first

/-- A data thread begins to run a callback that it has found. -/
def take (s : Low) (w : Nat) (priority : Fin 2) (prev : Option Nat) (c : Nat) : Low :=
  let s := s.unlink priority prev c
  { s.setWorker w (.running c) with
    mInDataThread := Function.update s.mInDataThread c true
    runs := Function.update s.runs c (s.runs c + 1) }

/-- A data thread looks for work. -/
def scan (s : Low) (w : Nat) : Low :=
  if s.destroying then s.setWorker w .done
  else
    match s.found 0, s.found 1 with
    | (prev, some c), _ => s.take w 0 prev c
    | (_, none), (prev, some c) => s.take w 1 prev c
    | (_, none), (_, none) => s.setWorker w .waiting

/-- `OnData` of a callback returns. -/
def returned (s : Low) (w c : Nat) (keep : Bool) : Low :=
  { s.setWorker w (if keep then .scanning else .deleting c) with
    mInDataThread := Function.update s.mInDataThread c false }

/-- The next step of a data thread; `keep` is what `OnData` returns. A thread in
`pthread_cond_wait` may go on at any time. -/
def work (s : Low) (w : Nat) (keep : Bool) : Low :=
  match s.worker w with
  | .scanning => s.scan w
  | .waiting => s.setWorker w .scanning
  | .running c => s.returned w c keep
  | .deleting c => (s.clearQueued c).setWorker w (.clearing c)
  | .clearing c => if s.mInDataThread c then s else s.setWorker w .scanning
  | .done => s

inductive Input
  | set (c : Nat) (priority : Fin 2)
  | clear (client c : Nat)
  | cleared (client : Nat)
  | work (w : Nat) (keep : Bool)
  | destroy
  deriving DecidableEq, Repr

/-- `clear` is a call of `low_data_clear_callback` up to its loop, `cleared` its end. -/
def step (s : Low) : Input → Low
  | .set c priority => if c < s.count then s.low_data_set_callback c priority else s
  | .clear client c =>
    if s.clearing client = none ∧ c < s.count then
      { s.clearQueued c with clearing := Function.update s.clearing client (some c) }
    else s
  | .cleared client =>
    match s.clearing client with
    | none => s
    | some c =>
      if s.mInDataThread c then s
      else { s with clearing := Function.update s.clearing client none }
  | .work w keep => if w < s.threads then s.work w keep else s
  | .destroy => { s.broadcast with destroying := true }

def start (count threads : Nat) : Low where
  mNext _ := none
  queue _ := ⟨none, none⟩
  mInDataThread _ := false
  count := count
  threads := threads
  worker _ := .scanning
  clearing _ := none
  destroying := false
  sets _ := 0
  runs _ := 0
  clears _ := 0

end Low

def machine : Machine Low Low.Input := ⟨Low.step⟩

namespace Low

/-! ### The property -/

/-- The callback is in a queue, if one follows the links. -/
def inQueue (s : Low) (c : Nat) : Prop :=
  ∃ priority xs, IsQueue s.mNext (s.queue priority) xs ∧ c ∈ xs

/-- A caller of `low_data_clear_callback`, or a destructor, is past its loop if it looks now. -/
def mayReturn (s : Low) (c : Nat) : Prop :=
  ((∃ client, s.clearing client = some c) ∨ ∃ w < s.threads, s.worker w = .clearing c) ∧
    s.mInDataThread c = false

/-- What the data threads promise: no callback is run by two of them; each time a callback was put into
a queue it has been run once, or cleared, or it is in the queue still, and no data thread sleeps
then unless another is awake; and `low_data_clear_callback` returns with the callback in no queue and
not running. -/
structure Sound (s : Low) : Prop where
  exclusive : ∀ c, ∀ w < s.threads, ∀ w' < s.threads,
    s.worker w = .running c → s.worker w' = .running c → w = w'
  accounted : ∀ c, (s.inQueue c → s.sets c = s.runs c + s.clears c + 1) ∧
    (¬s.inQueue c → s.sets c = s.runs c + s.clears c)
  awake : ∀ c, s.inQueue c → s.destroying = false → 0 < s.threads →
    ∃ w < s.threads, s.worker w ≠ .waiting ∧ s.worker w ≠ .done
  cleared : ∀ c, s.mayReturn c →
    ¬s.inQueue c ∧ ∀ w < s.threads, s.worker w ≠ .running c

/-- The condition: no callback is set while someone waits in `low_data_clear_callback` for it. -/
def NoSetWhileClearing (s : Low) : Input → Prop
  | .set c _ => (∀ client, s.clearing client ≠ some c) ∧ ∀ w < s.threads, s.worker w ≠ .clearing c
  | _ => True

/-! ### The queues -/

/-- The queues are linked lists of callbacks, no callback is in two of them, and what is in none has no
link. -/
structure Queues (s : Low) (xs : Fin 2 → List Nat) : Prop where
  queue : ∀ p, IsQueue s.mNext (s.queue p) (xs p)
  disjoint : ∀ p p' c, p ≠ p' → c ∈ xs p → c ∉ xs p'
  link : ∀ c, (∀ p, c ∉ xs p) → s.mNext c = none
  bound : ∀ p, ∀ c ∈ xs p, c < s.count

variable {s t : Low} {xs ys : Fin 2 → List Nat} {c w : Nat} {p : Fin 2}

lemma Queues.congr (h : s.Queues xs) (hn : t.mNext = s.mNext) (hq : t.queue = s.queue)
    (hc : t.count = s.count) : t.Queues xs := by
  refine ⟨?_, h.disjoint, ?_, ?_⟩
  · rw [hn, hq]
    exact h.queue
  · rw [hn]
    exact h.link
  · rw [hc]
    exact h.bound

lemma Queues.inQueue_iff (h : s.Queues xs) : s.inQueue c ↔ ∃ p, c ∈ xs p := by
  constructor
  · rintro ⟨p, ys, hq, hc⟩
    exact ⟨p, (h.queue p).linked.unique hq.linked ▸ hc⟩
  · rintro ⟨p, hc⟩
    exact ⟨p, xs p, h.queue p, hc⟩

/-- A callback that is linked or is a last one is in a queue. -/
lemma Queues.isQueued_iff (h : s.Queues xs) : s.isQueued c = true ↔ ∃ p, c ∈ xs p := by
  constructor
  · intro hq
    by_contra hnone
    have hnone : ∀ p, c ∉ xs p := fun p hc => hnone ⟨p, hc⟩
    have hlast : ∀ p, (s.queue p).last ≠ some c := fun p hl => hnone p ((h.queue p).mem_of_last hl)
    simp [isQueued, h.link c hnone, hlast] at hq
  · rintro ⟨p, hc⟩
    rcases (h.queue p).link_or_last hc with hlink | hlast
    · simp [isQueued, hlink]
    · match p with
      | 0 => simp [isQueued, hlast]
      | 1 => simp [isQueued, hlast]

/-- What is queued once `c` has been put behind the queue `p`. -/
lemma mem_pushed {p' : Fin 2} {z : Nat} :
    z ∈ Function.update xs p (xs p ++ [c]) p' ↔ z ∈ xs p' ∨ (p' = p ∧ z = c) := by
  by_cases hp : p' = p
  · subst hp
    simp
  · simp [hp]

lemma Queues.push (h : s.Queues xs) (hc : ∀ p, c ∉ xs p) (hlt : c < s.count) (p : Fin 2) :
    (s.setQueue p ((s.queue p).push s.mNext c)).Queues (Function.update xs p (xs p ++ [c])) where
  queue p' := by
    by_cases hp : p' = p
    · subst hp
      simp only [setQueue, Function.update_self]
      exact (h.queue p').push (hc p') (h.link c hc)
    · simp only [setQueue, Function.update_of_ne hp]
      exact (h.queue p').congr fun z hz => (h.queue p).push_next (h.disjoint p' p z hp hz)
  disjoint p₁ p₂ z hp hz hz' := by
    rcases mem_pushed.mp hz with hz | ⟨heq, hzc⟩
    · rcases mem_pushed.mp hz' with hz' | ⟨-, hzc⟩
      · exact h.disjoint p₁ p₂ z hp hz hz'
      · exact hc p₁ (hzc ▸ hz)
    · rcases mem_pushed.mp hz' with hz' | ⟨heq', -⟩
      · exact hc p₂ (hzc ▸ hz')
      · exact hp (heq.trans heq'.symm)
  link z hz := by
    have hz' : ∀ p', z ∉ xs p' := fun p' hm => hz p' (mem_pushed.mpr (.inl hm))
    exact ((h.queue p).push_next (hz' p)).trans (h.link z hz')
  bound p' z hz := by
    rcases mem_pushed.mp hz with hz | ⟨-, rfl⟩
    · exact h.bound p' z hz
    · exact hlt

/-- What is queued once `c` has been taken out of the queue `p`. -/
lemma mem_unlinked {as bs : List Nat} (heq : xs p = as ++ c :: bs) {p' : Fin 2} {z : Nat} (hz : z ≠ c) :
    z ∈ Function.update xs p (as ++ bs) p' ↔ z ∈ xs p' := by
  by_cases hp : p' = p
  · subst hp
    simp [heq, hz]
  · simp [hp]

lemma mem_of_unlinked {as bs : List Nat} (heq : xs p = as ++ c :: bs) {p' : Fin 2} {z : Nat}
    (hz : z ∈ Function.update xs p (as ++ bs) p') : z ∈ xs p' := by
  by_cases hp : p' = p
  · rw [hp, Function.update_self] at hz
    rw [hp, heq]
    exact List.mem_append.mpr ((List.mem_append.mp hz).imp_right (List.mem_cons_of_mem c))
  · rwa [Function.update_of_ne hp] at hz

lemma Queues.unlink (h : s.Queues xs) {as bs : List Nat} (heq : xs p = as ++ c :: bs) :
    (s.unlink p as.getLast? c).Queues (Function.update xs p (as ++ bs)) where
  queue p' := by
    have hq := h.queue p
    rw [heq] at hq
    by_cases hp : p' = p
    · subst hp
      simp only [Low.unlink, setQueue, Function.update_self]
      exact hq.unlink
    · simp only [Low.unlink, setQueue, Function.update_of_ne hp]
      exact (h.queue p').congr fun z hz => IsQueue.unlink_next (heq ▸ h.disjoint p' p z hp hz)
  disjoint p₁ p₂ z hp hz hz' :=
    h.disjoint p₁ p₂ z hp (mem_of_unlinked heq hz) (mem_of_unlinked heq hz')
  link z hz := by
    by_cases hzc : z = c
    · rw [hzc]
      exact IsQueue.unlink_self _
    · have hz' : ∀ p', z ∉ xs p' := fun p' hm => hz p' ((mem_unlinked heq hzc).mpr hm)
      exact (IsQueue.unlink_next (heq ▸ hz' p)).trans (h.link z hz')
  bound p' z hz := h.bound p' z (mem_of_unlinked heq hz)

/-- What is left in the queues when a callback has been taken out. -/
def Without (xs ys : Fin 2 → List Nat) (c : Nat) : Prop := ∀ p z, z ∈ ys p ↔ z ∈ xs p ∧ z ≠ c

lemma Queues.without (h : s.Queues xs) {as bs : List Nat} (heq : xs p = as ++ c :: bs) :
    Without xs (Function.update xs p (as ++ bs)) c := by
  have hq := h.queue p
  rw [heq] at hq
  intro p' z
  by_cases hp : p' = p
  · rw [hp, Function.update_self, heq]
    exact hq.mem_unlinked
  · rw [Function.update_of_ne hp]
    refine ⟨fun hz => ⟨hz, ?_⟩, And.left⟩
    rintro rfl
    exact h.disjoint p' p z hp hz (by rw [heq]; simp)

/-- Nothing is taken out of a queue that the callback is not in. -/
lemma Queues.clearBehind_of_not_mem (h : s.Queues xs) (hc : c ∉ xs p) : s.clearBehind p c = s := by
  rw [clearBehind, predecessor_eq_none (h.queue p).linked hc]

lemma Queues.clearBehind (h : s.Queues xs) {as bs : List Nat} {l : Nat}
    (heq : xs p = as ++ l :: c :: bs) : s.clearBehind p c = s.unlink p (some l) c := by
  have hq := h.queue p
  have hlen := (h.queue p).length_le (h.bound p)
  rw [heq] at hq hlen
  rw [Low.clearBehind, predecessor_eq hq.linked hq.nodup (by simp at hlen; omega)]

/-- A callback behind the head of a queue: the search in the queue of the other priority finds nothing. -/
lemma Queues.clearBehind_other (h : s.Queues xs) (p' : Fin 2) (hp : p ≠ p') (hc : c ∈ xs p)
    (hne : (s.queue p).first ≠ some c) :
    ∃ ys, (s.clearBehind p c).Queues ys ∧ Without xs ys c ∧
      s.clearBehind p' c = s ∧ (s.clearBehind p c).clearBehind p' c = s.clearBehind p c := by
  obtain ⟨as, bs, heq⟩ := List.append_of_mem hc
  rcases List.eq_nil_or_concat as with rfl | ⟨as, l, rfl⟩
  · exact absurd (by rw [(h.queue p).linked.head_eq, heq]; rfl) hne
  · have heq' : xs p = as ++ l :: c :: bs := by simpa using heq
    rw [h.clearBehind heq']
    have hlast : some l = (as.concat l).getLast? := by simp
    have hu := h.unlink heq
    rw [hlast]
    refine ⟨_, hu, h.without heq, h.clearBehind_of_not_mem (h.disjoint p p' c hp hc), ?_⟩
    exact hu.clearBehind_of_not_mem (fun hm => ((h.without heq p' c).mp hm).2 rfl)

/-- `low_data_clear_callback` takes the callback out of the queue that it is in. -/
lemma Queues.clearQueued (h : s.Queues xs) (c : Nat) :
    ∃ ys, (s.clearQueued c).Queues ys ∧ Without xs ys c := by
  have hdone : ∀ t : Low, ∀ ys, t.Queues ys → Without xs ys c →
      ∃ ys, ({ t with
        mNext := Function.update t.mNext c none
        clears := Function.update s.clears c (s.clears c + if s.isQueued c then 1 else 0) }
          : Low).Queues ys ∧ Without xs ys c := by
    intro t ys ht hw
    have hlink : t.mNext c = none := ht.link c fun p hc => ((hw p c).mp hc).2 rfl
    refine ⟨ys, ht.congr ?_ rfl rfl, hw⟩
    exact Function.update_eq_self_iff.mpr hlink.symm
  unfold Low.clearQueued
  by_cases h₀ : (s.queue 0).first = some c
  · obtain ⟨bs, heq⟩ := (h.queue 0).eq_cons h₀
    rw [← List.nil_append (c :: bs)] at heq
    simp only [if_pos h₀]
    exact hdone _ _ (h.unlink heq) (h.without heq)
  by_cases h₁ : (s.queue 1).first = some c
  · obtain ⟨bs, heq⟩ := (h.queue 1).eq_cons h₁
    rw [← List.nil_append (c :: bs)] at heq
    simp only [if_neg h₀, if_pos h₁]
    exact hdone _ _ (h.unlink heq) (h.without heq)
  by_cases hq : s.isQueued c = true
  · simp only [if_neg h₀, if_neg h₁, hq, if_true]
    obtain ⟨p, hc⟩ := h.isQueued_iff.mp hq
    have hcases : (c ∈ xs 0) ∨ (c ∈ xs 1) := by
      match p with
      | 0 => exact .inl hc
      | 1 => exact .inr hc
    simp only [hq, if_true] at hdone
    rcases hcases with hc | hc
    · obtain ⟨ys, hy, hw, -, hsame⟩ := h.clearBehind_other 1 (by decide) hc h₀
      rw [hsame]
      exact hdone _ ys hy hw
    · obtain ⟨ys, hy, hw, hsame, -⟩ := h.clearBehind_other 0 (by decide) hc h₁
      rw [hsame]
      exact hdone _ ys hy hw
  · simp only [if_neg h₀, if_neg h₁, if_neg hq]
    have hnone : ∀ p, c ∉ xs p := fun p hc => hq (h.isQueued_iff.mpr ⟨p, hc⟩)
    have hw : Without xs xs c := fun p z => ⟨fun hz => ⟨hz, fun heq => hnone p (heq ▸ hz)⟩, And.left⟩
    have := hdone s xs h hw
    rwa [if_neg hq] at this

/-- A data thread finds the first callback of a queue that no one runs, or all are run. -/
lemma Queues.found_cases (h : s.Queues xs) (p : Fin 2) :
    ((s.found p).2 = none ∧ ∀ z ∈ xs p, s.mInDataThread z = true) ∨
      ∃ as c bs, xs p = as ++ c :: bs ∧ s.mInDataThread c = false ∧
        s.found p = (as.getLast?, some c) := by
  have hlen := (h.queue p).length_le (h.bound p)
  rcases @firstIdle_cases _ s.mNext s.mInDataThread _ _ (s.count + 1) (h.queue p).linked (by omega) none with hnone | ⟨as, c, bs, heq, hc, hf⟩
  · exact .inl hnone
  · exact .inr ⟨as, c, bs, heq, hc, by rw [found, hf, Option.or_none]⟩

/-! ### The invariant -/

/-- The queues, with what the data threads and the callers of `low_data_clear_callback` are at. -/
structure Inv (s : Low) (xs : Fin 2 → List Nat) : Prop where
  queues : s.Queues xs
  running : ∀ c, s.mInDataThread c = true ↔ ∃ w < s.threads, s.worker w = .running c
  exclusive : ∀ c, ∀ w < s.threads, ∀ w' < s.threads,
    s.worker w = .running c → s.worker w' = .running c → w = w'
  client : ∀ c client, s.clearing client = some c → ∀ p, c ∉ xs p
  destructor : ∀ c, ∀ w < s.threads, s.worker w = .clearing c → ∀ p, c ∉ xs p
  queued : ∀ c p, c ∈ xs p → s.sets c = s.runs c + s.clears c + 1
  unqueued : ∀ c, (∀ p, c ∉ xs p) → s.sets c = s.runs c + s.clears c
  awake : ∀ c p, c ∈ xs p → 0 < s.threads → ∃ w < s.threads, s.worker w ≠ .waiting
  done : ∀ w < s.threads, s.worker w = .done → s.destroying = true

lemma Inv.sound (h : s.Inv xs) : s.Sound where
  exclusive := h.exclusive
  accounted c := by
    rw [h.queues.inQueue_iff]
    exact ⟨fun ⟨p, hc⟩ => h.queued c p hc, fun hno => h.unqueued c fun p hc => hno ⟨p, hc⟩⟩
  awake c hc hd hpos := by
    obtain ⟨p, hc⟩ := h.queues.inQueue_iff.mp hc
    obtain ⟨w, hw, hwait⟩ := h.awake c p hc hpos
    exact ⟨w, hw, hwait, fun hdone => by simp [h.done w hw hdone] at hd⟩
  cleared c hret := by
    rw [h.queues.inQueue_iff]
    refine ⟨fun ⟨p, hc⟩ => ?_, fun w hw hrun => ?_⟩
    · rcases hret.1 with ⟨client, hcl⟩ | ⟨w, hw, hcl⟩
      · exact h.client c client hcl p hc
      · exact h.destructor c w hw hcl p hc
    · have := (h.running c).mpr ⟨w, hw, hrun⟩
      simp [hret.2] at this

lemma inv_start (count threads : Nat) : (start count threads).Inv fun _ => [] where
  queues := ⟨fun _ => IsQueue.empty, fun _ _ _ _ _ => by simp, fun _ _ => rfl, fun _ _ hc => by cases hc⟩
  running c := by simp [start]
  exclusive c w _ w' _ hw := by cases hw
  client c client hcl := by cases hcl
  destructor c w _ hw := by cases hw
  queued c p hc := by cases hc
  unqueued c _ := rfl
  awake c p hc := by cases hc
  done w _ hw := by cases hw

/-- Only the workers have changed: one of them is at `x` now, which is not in `OnData`. -/
lemma Inv.setWorker (h : s.Inv xs) (hw : w < s.threads) {x : Worker}
    (hold : ∀ c, s.worker w ≠ .running c) (hx : ∀ c, x ≠ .running c)
    (hcl : ∀ c, x = .clearing c → ∀ p, c ∉ xs p)
    (hwait : x = .waiting → ∀ p, ∀ c ∈ xs p, s.mInDataThread c = true)
    (hdone : x = .done → s.destroying = true) : (s.setWorker w x).Inv xs := by
  have hother : ∀ w', w' ≠ w → (s.setWorker w x).worker w' = s.worker w' := fun w' hw' =>
    Function.update_of_ne hw' _ _
  have hself : (s.setWorker w x).worker w = x := Function.update_self ..
  have hrun : ∀ w' c, (s.setWorker w x).worker w' = .running c ↔ s.worker w' = .running c := by
    intro w' c
    by_cases hw' : w' = w
    · rw [hw', hself]
      exact iff_of_false (hx c) (hold c)
    · rw [hother w' hw']
  constructor
  · exact h.queues.congr rfl rfl rfl
  · intro c
    simp only [hrun]
    exact h.running c
  · intro c w₁ h₁ w₂ h₂ hr₁ hr₂
    exact h.exclusive c w₁ h₁ w₂ h₂ ((hrun w₁ c).mp hr₁) ((hrun w₂ c).mp hr₂)
  · exact h.client
  · intro c w' hw' hc
    by_cases hww : w' = w
    · rw [hww, hself] at hc
      exact hcl c hc
    · rw [hother w' hww] at hc
      exact h.destructor c w' hw' hc
  · exact h.queued
  · exact h.unqueued
  · intro c p hc hpos
    by_cases hxw : x = .waiting
    · obtain ⟨w', hw', hr⟩ := (h.running c).mp (hwait hxw p c hc)
      have hne : w' ≠ w := by
        rintro rfl
        exact hold c hr
      exact ⟨w', hw', by rw [hother w' hne, hr]; simp⟩
    · exact ⟨w, hw, by rw [hself]; exact hxw⟩
  · intro w' hw' hd
    by_cases hww : w' = w
    · rw [hww, hself] at hd
      exact hdone hd
    · rw [hother w' hww] at hd
      exact h.done w' hw' hd

/-- A callback that is in no queue is put into one; `worker` are the data threads after that. -/
lemma Inv.pushed (h : s.Inv xs) (hc : ∀ p, c ∉ xs p) (hlt : c < s.count) (p : Fin 2)
    (hok : s.NoSetWhileClearing (.set c p)) {worker : Nat → Worker}
    (hrun : ∀ w z, worker w = .running z ↔ s.worker w = .running z)
    (hcl : ∀ w z, worker w = .clearing z ↔ s.worker w = .clearing z)
    (hdone : ∀ w, worker w = .done ↔ s.worker w = .done)
    (hawake : 0 < s.threads → ∃ w < s.threads, worker w ≠ .waiting) :
    ({ s.setQueue p ((s.queue p).push s.mNext c) with
      sets := Function.update s.sets c (s.sets c + 1)
      worker := worker } : Low).Inv (Function.update xs p (xs p ++ [c])) := by
  have hmem : ∀ p' z, z ∈ Function.update xs p (xs p ++ [c]) p' → z = c ∨ z ∈ xs p' := fun p' z hz =>
    (mem_pushed.mp hz).symm.imp_left And.right
  have hmem' : ∀ p' z, z ∈ xs p' → z ∈ Function.update xs p (xs p ++ [c]) p' := fun p' z hz =>
    mem_pushed.mpr (.inl hz)
  have hcmem : c ∈ Function.update xs p (xs p ++ [c]) p := by simp
  constructor
  · exact (h.queues.push hc hlt p).congr rfl rfl rfl
  · intro z
    simp only [hrun]
    exact h.running z
  · intro z w₁ h₁ w₂ h₂ hr₁ hr₂
    exact h.exclusive z w₁ h₁ w₂ h₂ ((hrun w₁ z).mp hr₁) ((hrun w₂ z).mp hr₂)
  · intro z client hz p' hmem₁
    rcases hmem p' z hmem₁ with rfl | hm
    · exact hok.1 client hz
    · exact h.client z client hz p' hm
  · intro z w hw hz p' hmem₁
    have hz' := (hcl w z).mp hz
    rcases hmem p' z hmem₁ with rfl | hm
    · exact hok.2 w hw hz'
    · exact h.destructor z w hw hz' p' hm
  · intro z p' hz
    simp only [setQueue]
    by_cases hzc : z = c
    · rw [hzc, Function.update_self, h.unqueued c hc]
    · rw [Function.update_of_ne hzc]
      exact h.queued z p' ((hmem p' z hz).resolve_left hzc)
  · intro z hz
    simp only [setQueue]
    have hzc : z ≠ c := fun heq => hz p (heq ▸ hcmem)
    rw [Function.update_of_ne hzc]
    exact h.unqueued z fun p' hm => hz p' (hmem' p' z hm)
  · exact fun _ _ _ hpos => hawake hpos
  · exact fun w hw hd => h.done w hw ((hdone w).mp hd)

lemma Inv.set_call (h : s.Inv xs) (hlt : c < s.count) (p : Fin 2)
    (hok : s.NoSetWhileClearing (.set c p)) : ∃ ys, (s.low_data_set_callback c p).Inv ys := by
  unfold low_data_set_callback
  by_cases hq : s.isQueued c = true
  · rw [if_pos hq]
    exact ⟨xs, h⟩
  rw [if_neg hq]
  have hc : ∀ p, c ∉ xs p := fun p hm => hq (h.queues.isQueued_iff.mpr ⟨p, hm⟩)
  show ∃ ys, (if s.mInDataThread c = true then _ else _ : Low).Inv ys
  split_ifs with hrun
  · -- a running callback is found by the thread that runs it
    obtain ⟨w, hw, hr⟩ := (h.running c).mp hrun
    exact ⟨_, h.pushed hc hlt p hok (fun _ _ => Iff.rfl) (fun _ _ => Iff.rfl) (fun _ => Iff.rfl)
      fun _ => ⟨w, hw, fun hwait => by cases hr.symm.trans hwait⟩⟩
  · have hne : ∀ w, (if s.worker w = .waiting then Worker.scanning else s.worker w) ≠ .waiting := by
      intro w
      split_ifs with hwait
      · simp
      · exact hwait
    refine ⟨_, h.pushed hc hlt p hok (fun w z => ?_) (fun w z => ?_) (fun w => ?_)
      fun hpos => ⟨0, hpos, hne 0⟩⟩
    all_goals
      show (if s.worker w = .waiting then Worker.scanning else s.worker w) = _ ↔ _
      split_ifs with hwait
      · simp [hwait]
      · exact Iff.rfl

lemma clearBehind_rest (s : Low) (p : Fin 2) (c : Nat) :
    ∃ queue next, s.clearBehind p c = { s with queue := queue, mNext := next } := by
  unfold Low.clearBehind
  split
  · exact ⟨_, _, rfl⟩
  · exact ⟨_, _, rfl⟩

lemma clearQueued_rest (s : Low) (c : Nat) :
    (s.clearQueued c).worker = s.worker ∧ (s.clearQueued c).threads = s.threads ∧
      (s.clearQueued c).mInDataThread = s.mInDataThread ∧
      (s.clearQueued c).clearing = s.clearing ∧ (s.clearQueued c).sets = s.sets ∧
      (s.clearQueued c).runs = s.runs ∧ (s.clearQueued c).destroying = s.destroying ∧
      (s.clearQueued c).clears =
        Function.update s.clears c (s.clears c + if s.isQueued c then 1 else 0) := by
  obtain ⟨q, n, h₀⟩ := s.clearBehind_rest 0 c
  obtain ⟨q', n', h₁⟩ := (s.clearBehind 0 c).clearBehind_rest 1 c
  rw [h₀] at h₁
  simp only [Low.clearQueued, h₀, h₁]
  split_ifs <;> simp [Low.unlink, setQueue]

/-- The callback is in no queue any more. What was queued counts as cleared. -/
lemma Inv.clearQueued (h : s.Inv xs) (c : Nat) :
    ∃ ys, (s.clearQueued c).Inv ys ∧ ∀ p, c ∉ ys p := by
  obtain ⟨ys, hy, hw⟩ := h.queues.clearQueued c
  obtain ⟨e₁, e₂, e₃, e₄, e₅, e₆, e₇, e₈⟩ := s.clearQueued_rest c
  refine ⟨ys, ⟨hy, ?_, ?_, ?_, ?_, ?_, ?_, ?_, ?_⟩, fun p hc => ((hw p c).mp hc).2 rfl⟩
  · rw [e₁, e₂, e₃]
    exact h.running
  · rw [e₁, e₂]
    exact h.exclusive
  · rw [e₄]
    exact fun z client hz p hm => h.client z client hz p ((hw p z).mp hm).1
  · rw [e₁, e₂]
    exact fun z w hlt hz p hm => h.destructor z w hlt hz p ((hw p z).mp hm).1
  · intro z p hz
    obtain ⟨hz, hne⟩ := (hw p z).mp hz
    rw [e₅, e₆, e₈, Function.update_of_ne hne]
    exact h.queued z p hz
  · intro z hz
    rw [e₅, e₆, e₈]
    by_cases hzc : z = c
    · subst hzc
      rw [Function.update_self]
      split_ifs with hq
      · obtain ⟨p, hm⟩ := h.queues.isQueued_iff.mp hq
        have := h.queued z p hm
        omega
      · exact h.unqueued z fun p hm => hq (h.queues.isQueued_iff.mpr ⟨p, hm⟩)
    · rw [Function.update_of_ne hzc]
      exact h.unqueued z fun p hm => hz p ((hw p z).mpr ⟨hm, hzc⟩)
  · rw [e₁, e₂]
    exact fun z p hz => h.awake z p ((hw p z).mp hz).1
  · rw [e₁, e₂, e₇]
    exact h.done

/-- A data thread takes a callback that no one runs. -/
lemma Inv.take (h : s.Inv xs) (hw : w < s.threads) (hscan : s.worker w = .scanning)
    {as bs : List Nat} (heq : xs p = as ++ c :: bs) (hidle : s.mInDataThread c = false) :
    ∃ ys, (s.take w p as.getLast? c).Inv ys := by
  have hnone : ∀ w' < s.threads, s.worker w' ≠ .running c := fun w' hw' hr => by
    have := (h.running c).mpr ⟨w', hw', hr⟩
    simp [hidle] at this
  have hmem := h.queues.without heq
  have hother : ∀ w', w' ≠ w → (s.take w p as.getLast? c).worker w' = s.worker w' := fun w' hw' =>
    Function.update_of_ne hw' _ _
  have hself : (s.take w p as.getLast? c).worker w = .running c := Function.update_self ..
  refine ⟨Function.update xs p (as ++ bs), (h.queues.unlink heq).congr rfl rfl rfl, ?_, ?_, ?_, ?_, ?_,
    ?_, ?_, ?_⟩
  · intro z
    show Function.update s.mInDataThread c true z = true ↔ _
    by_cases hz : z = c
    · subst hz
      rw [Function.update_self]
      exact iff_of_true rfl ⟨w, hw, hself⟩
    · rw [Function.update_of_ne hz, h.running z]
      refine exists_congr fun w' => and_congr_right fun _ => ?_
      by_cases hww : w' = w
      · rw [hww, hself, hscan]
        exact iff_of_false (by simp) (by simpa using Ne.symm hz)
      · rw [hother w' hww]
  · intro z w₁ h₁ w₂ h₂ hr₁ hr₂
    by_cases hw₁ : w₁ = w <;> by_cases hw₂ : w₂ = w
    · rw [hw₁, hw₂]
    · rw [hw₁, hself] at hr₁
      rw [hother w₂ hw₂, ← hr₁] at hr₂
      exact absurd hr₂ (hnone w₂ h₂)
    · rw [hw₂, hself] at hr₂
      rw [hother w₁ hw₁, ← hr₂] at hr₁
      exact absurd hr₁ (hnone w₁ h₁)
    · rw [hother w₁ hw₁] at hr₁
      rw [hother w₂ hw₂] at hr₂
      exact h.exclusive z w₁ h₁ w₂ h₂ hr₁ hr₂
  · exact fun z client hz p' hm => h.client z client hz p' ((hmem p' z).mp hm).1
  · intro z w' hw' hz p' hm
    by_cases hww : w' = w
    · rw [hww, hself] at hz
      cases hz
    · rw [hother w' hww] at hz
      exact h.destructor z w' hw' hz p' ((hmem p' z).mp hm).1
  · intro z p' hz
    obtain ⟨hz, hne⟩ := (hmem p' z).mp hz
    show s.sets z = Function.update s.runs c (s.runs c + 1) z + s.clears z + 1
    rw [Function.update_of_ne hne]
    exact h.queued z p' hz
  · intro z hz
    show s.sets z = Function.update s.runs c (s.runs c + 1) z + s.clears z
    by_cases hzc : z = c
    · have hc := h.queued c p (by rw [heq]; simp)
      rw [hzc, Function.update_self]
      omega
    · rw [Function.update_of_ne hzc]
      exact h.unqueued z fun p' hm => hz p' ((hmem p' z).mpr ⟨hm, hzc⟩)
  · exact fun _ _ _ _ => ⟨w, hw, by rw [hself]; simp⟩
  · intro w' hw' hd
    by_cases hww : w' = w
    · rw [hww, hself] at hd
      cases hd
    · rw [hother w' hww] at hd
      exact h.done w' hw' hd

lemma Inv.scan (h : s.Inv xs) (hw : w < s.threads) (hscan : s.worker w = .scanning) :
    ∃ ys, (s.scan w).Inv ys := by
  unfold Low.scan
  split_ifs with hd
  · exact ⟨xs, h.setWorker hw (by simp [hscan]) (by simp) (by simp) (by simp) fun _ => hd⟩
  rcases h.queues.found_cases 0 with ⟨hnone₀, hall₀⟩ | ⟨as, c, bs, heq, hidle, hf⟩
  · rcases h.queues.found_cases 1 with ⟨hnone₁, hall₁⟩ | ⟨as, c, bs, heq, hidle, hf⟩
    · obtain ⟨l₀, h₀⟩ : ∃ l, s.found 0 = (l, none) := ⟨_, Prod.ext rfl hnone₀⟩
      obtain ⟨l₁, h₁⟩ : ∃ l, s.found 1 = (l, none) := ⟨_, Prod.ext rfl hnone₁⟩
      rw [h₀, h₁]
      -- all that is queued is being run, by threads that will look again
      refine ⟨xs, h.setWorker hw (by simp [hscan]) (by simp) (by simp) (fun _ p => ?_) (by simp)⟩
      match p with
      | 0 => exact hall₀
      | 1 => exact hall₁
    · obtain ⟨l₀, h₀⟩ : ∃ l, s.found 0 = (l, none) := ⟨_, Prod.ext rfl hnone₀⟩
      rw [h₀, hf]
      exact h.take hw hscan heq hidle
  · rw [hf]
    exact h.take hw hscan heq hidle

/-- `OnData` has returned: the callback may be run again. -/
lemma Inv.returned (h : s.Inv xs) (hw : w < s.threads) (hr : s.worker w = .running c) (keep : Bool) :
    (s.returned w c keep).Inv xs := by
  have hother : ∀ w', w' ≠ w → (s.returned w c keep).worker w' = s.worker w' := fun w' hw' =>
    Function.update_of_ne hw' _ _
  have hself : (s.returned w c keep).worker w = if keep then .scanning else .deleting c :=
    Function.update_self ..
  have hnrun : ∀ z, (s.returned w c keep).worker w ≠ .running z := by
    intro z
    rw [hself]
    cases keep <;> simp
  constructor
  · exact h.queues.congr rfl rfl rfl
  · intro z
    show Function.update s.mInDataThread c false z = true ↔ _
    by_cases hz : z = c
    · subst hz
      rw [Function.update_self]
      refine iff_of_false (by simp) fun ⟨w', hw', hr'⟩ => ?_
      by_cases hww : w' = w
      · exact hnrun z (hww ▸ hr')
      · rw [hother w' hww] at hr'
        exact hww (h.exclusive z w' hw' w hw hr' hr)
    · rw [Function.update_of_ne hz, h.running z]
      refine exists_congr fun w' => and_congr_right fun _ => ?_
      by_cases hww : w' = w
      · rw [hww]
        exact iff_of_false (by rw [hr]; simpa using Ne.symm hz) (hnrun z)
      · rw [hother w' hww]
  · intro z w₁ h₁ w₂ h₂ hr₁ hr₂
    by_cases hw₁ : w₁ = w
    · exact absurd (hw₁ ▸ hr₁) (hnrun z)
    by_cases hw₂ : w₂ = w
    · exact absurd (hw₂ ▸ hr₂) (hnrun z)
    rw [hother w₁ hw₁] at hr₁
    rw [hother w₂ hw₂] at hr₂
    exact h.exclusive z w₁ h₁ w₂ h₂ hr₁ hr₂
  · exact h.client
  · intro z w' hw' hz
    by_cases hww : w' = w
    · rw [hww, hself] at hz
      cases keep <;> simp at hz
    · rw [hother w' hww] at hz
      exact h.destructor z w' hw' hz
  · exact h.queued
  · exact h.unqueued
  · refine fun z p hz _ => ⟨w, hw, ?_⟩
    rw [hself]
    cases keep <;> simp
  · intro w' hw' hd
    by_cases hww : w' = w
    · rw [hww, hself] at hd
      cases keep <;> simp at hd
    · rw [hother w' hww] at hd
      exact h.done w' hw' hd

lemma Inv.work (h : s.Inv xs) (hw : w < s.threads) (keep : Bool) : ∃ ys, (s.work w keep).Inv ys := by
  unfold Low.work
  split
  · exact h.scan hw ‹_›
  · exact ⟨xs, h.setWorker hw (by simp [*]) (by simp) (by simp) (by simp) (by simp)⟩
  · exact ⟨xs, h.returned hw ‹_› keep⟩
  · rename_i c hdel
    obtain ⟨ys, hy, hc⟩ := h.clearQueued c
    obtain ⟨e₁, e₂, -⟩ := s.clearQueued_rest c
    refine ⟨ys, hy.setWorker (e₂ ▸ hw) (by simp [e₁, hdel]) (by simp) ?_ (by simp) (by simp)⟩
    intro z hz
    cases hz
    exact hc
  · split_ifs
    · exact ⟨xs, h⟩
    · exact ⟨xs, h.setWorker hw (by simp [*]) (by simp) (by simp) (by simp) (by simp)⟩
  · exact ⟨xs, h⟩

/-- Only the callers of `low_data_clear_callback` have changed. -/
lemma Inv.withClearing (h : s.Inv xs) {clearing : Nat → Option Nat}
    (hc : ∀ c client, clearing client = some c → ∀ p, c ∉ xs p) :
    ({ s with clearing := clearing } : Low).Inv xs :=
  ⟨h.queues.congr rfl rfl rfl, h.running, h.exclusive, hc, h.destructor, h.queued, h.unqueued, h.awake,
    h.done⟩

/-- What each step keeps. -/
lemma Inv.step (h : s.Inv xs) {i : Input} (hok : s.NoSetWhileClearing i) :
    ∃ ys, (s.step i).Inv ys := by
  cases i with
  | set c p =>
    simp only [Low.step]
    split_ifs with hlt
    · exact h.set_call hlt p hok
    · exact ⟨xs, h⟩
  | clear client c =>
    simp only [Low.step]
    split_ifs with hen
    · obtain ⟨ys, hy, hc⟩ := h.clearQueued c
      refine ⟨ys, hy.withClearing fun z client' hz => ?_⟩
      by_cases hcl : client' = client
      · rw [hcl, Function.update_self] at hz
        cases hz
        exact hc
      · rw [Function.update_of_ne hcl] at hz
        exact hy.client z client' (by rwa [(s.clearQueued_rest c).2.2.2.1])
    · exact ⟨xs, h⟩
  | cleared client =>
    simp only [Low.step]
    split
    · exact ⟨xs, h⟩
    · split_ifs
      · exact ⟨xs, h⟩
      · refine ⟨xs, h.withClearing fun z client' hz => ?_⟩
        by_cases hcl : client' = client
        · rw [hcl, Function.update_self] at hz
          cases hz
        · rw [Function.update_of_ne hcl] at hz
          exact h.client z client' hz
  | work w keep =>
    simp only [Low.step]
    split_ifs with hw
    · exact h.work hw keep
    · exact ⟨xs, h⟩
  | destroy =>
    have hsame : ∀ w x, x ≠ .waiting → x ≠ .scanning →
        ((if s.worker w = .waiting then Worker.scanning else s.worker w) = x ↔ s.worker w = x) := by
      intro w x hx hx'
      split_ifs with hwait
      · rw [hwait]
        exact iff_of_false (Ne.symm hx') (Ne.symm hx)
      · exact Iff.rfl
    refine ⟨xs, h.queues.congr rfl rfl rfl, fun c => ?_, fun c w₁ h₁ w₂ h₂ hr₁ hr₂ => ?_, h.client,
      fun c w hw hc => ?_, h.queued, h.unqueued, fun c p hc hpos => ?_, fun _ _ _ => rfl⟩
    · simp only [Low.step, broadcast, hsame _ (.running c) (by simp) (by simp)]
      exact h.running c
    · exact h.exclusive c w₁ h₁ w₂ h₂ ((hsame w₁ _ (by simp) (by simp)).mp hr₁)
        ((hsame w₂ _ (by simp) (by simp)).mp hr₂)
    · exact h.destructor c w hw ((hsame w _ (by simp) (by simp)).mp hc)
    · refine ⟨0, hpos, ?_⟩
      show (if s.worker 0 = .waiting then Worker.scanning else s.worker 0) ≠ .waiting
      split_ifs with hwait
      · simp
      · exact hwait

/-- For any number of data threads and of callbacks and in every run in which no callback is set while
someone waits in `low_data_clear_callback` for it, the data threads keep what they promise. -/
theorem data_threads_sound (count threads : Nat) {is : List Input}
    (hok : machine.Guarded NoSetWhileClearing (start count threads) is) :
    (machine.run (start count threads) is).Sound := by
  have hinv : ∃ xs, (machine.run (start count threads) is).Inv xs :=
    machine.run_invariant (P := fun s => ∃ xs, s.Inv xs) (fun _ _ ⟨_, h⟩ hi => h.step hi)
      ⟨_, inv_start count threads⟩ hok
  obtain ⟨xs, h⟩ := hinv
  exact h.sound

/-- Two threads; a callback is set again while it runs. -/
theorem data_threads_sound_two :
    (machine.run (start 2 2) [.set 0 1, .set 1 0, .work 0 true, .set 1 1, .work 1 true, .work 0 true,
      .work 0 true]).Sound :=
  data_threads_sound 2 2 ⟨⟨(fun _ h => by cases h), by decide⟩, ⟨(fun _ h => by cases h), by decide⟩,
    trivial, ⟨(fun _ h => by cases h), by decide⟩, trivial, trivial, trivial, trivial⟩

/-- A callback that is set while `low_data_clear_callback` waits for it is still queued when that
returns. -/
theorem cleared_but_queued :
    ¬(machine.run (start 1 1) [.set 0 0, .work 0 true, .clear 0 0, .set 0 0, .work 0 true]).Sound := by
  intro h
  have hret : (machine.run (start 1 1) [.set 0 0, .work 0 true, .clear 0 0, .set 0 0,
      .work 0 true]).mayReturn 0 := ⟨.inl ⟨0, rfl⟩, rfl⟩
  exact (h.cleared 0 hret).1 ⟨0, [0], ⟨⟨rfl, rfl⟩, rfl, List.nodup_singleton 0⟩, by simp⟩

end Low

end LowJs.DataThread
