import LowJs.Core.Machine

/-!
# The next-tick queue of the main loop

`low_call_next_tick` moves a function and its arguments from the caller's value stack to the
stack of `next_tick_ctx` and pushes the number of arguments on top; the drain loop of
`low_loop_run_safe` pops that number, moves the function and its arguments back and calls
them. Stacks are lists whose head is the top.
-/

namespace LowJs.NextTick

open scoped List

variable {α : Type*}

/-- An entry of the value stack of `next_tick_ctx`: a JavaScript value or a count. -/
inductive Slot (α : Type*)
  | val (a : α)
  | num (n : Int)

/-- The stack of `next_tick_ctx`, with the history of what was registered and what was called
(a callback is the list of its function and its arguments). -/
structure Ctx (α : Type*) where
  nextTickCtx : List (Slot α)
  registered : List (List α)
  invoked : List (List α)

/-- `duk_xmove_top`: the values of a list, first one deepest, on top of a stack. -/
def pushAll (stack : List (Slot α)) (vals : List α) : List (Slot α) :=
  (vals.map Slot.val).reverse ++ stack

/-- `low_call_next_tick`, with the function and its arguments on top of `ctx`. -/
def low_call_next_tick (c : Ctx α) (fn : α) (args : List α) : Ctx α :=
  { c with
    nextTickCtx := .num args.length :: pushAll c.nextTickCtx (fn :: args)
    registered := c.registered ++ [fn :: args] }

/-- `low_call_next_tick_js`: `process.nextTick` passes its whole argument list on. Called with
no argument it registers nothing, but pushes the count `-1`. -/
def low_call_next_tick_js (c : Ctx α) : List α → Ctx α
  | [] => { c with nextTickCtx := .num (-1) :: c.nextTickCtx }
  | fn :: args => low_call_next_tick c fn args

/-- The JavaScript values that `duk_call` finds on the stack. -/
def values : List (Slot α) → List α :=
  List.filterMap fun
    | .val a => some a
    | .num _ => none

/-- One iteration of the drain loop of `low_loop_run_safe`. A count of `-1` makes `duk_call`
throw, and nothing is called. -/
def drain (c : Ctx α) : Ctx α :=
  match c.nextTickCtx with
  | .num num_args :: stack =>
    let moved := (values (stack.take (num_args + 1).toNat)).reverse
    { c with
      nextTickCtx := stack.drop (num_args + 1).toNat
      invoked := if num_args < 0 then c.invoked else c.invoked ++ [moved] }
  | _ => c

/-- What happens to the queue: a registration, from inside a running callback or from anywhere
else, or one iteration of the drain loop, which starts a callback. -/
inductive Input (α : Type*)
  | callNextTick (fn : α) (args : List α)
  | callNextTickJs (args : List α)
  | drain

def step (c : Ctx α) : Input α → Ctx α
  | .callNextTick fn args => low_call_next_tick c fn args
  | .callNextTickJs args => low_call_next_tick_js c args
  | .drain => drain c

def machine (α : Type*) : Machine (Ctx α) (Input α) := ⟨step⟩

def init : Ctx α := ⟨[], [], []⟩

/-! ### The stack as a list of groups -/

/-- The slots of one registration, top first; `none` is the bare count of an empty call. -/
def group : Option (List α) → List (Slot α)
  | none => [.num (-1)]
  | some call => .num (call.length - 1) :: (call.map Slot.val).reverse

/-- The slots of a list of registrations, the latest one first. -/
def render (pending : List (Option (List α))) : List (Slot α) := pending.flatMap group

@[simp] lemma render_nil : render ([] : List (Option (List α))) = [] := rfl

@[simp] lemma render_cons (g : Option (List α)) (pending : List (Option (List α))) :
    render (g :: pending) = group g ++ render pending := rfl

lemma values_map_val (l : List α) : values (l.map Slot.val) = l := by
  induction l with
  | nil => rfl
  | cons a l ih => simp_all [values]

lemma low_call_next_tick_stack (c : Ctx α) (fn : α) (args : List α) :
    (low_call_next_tick c fn args).nextTickCtx = group (some (fn :: args)) ++ c.nextTickCtx := by
  simp [low_call_next_tick, group, pushAll]

lemma drain_none {c : Ctx α} {pending : List (Option (List α))}
    (hc : c.nextTickCtx = render (none :: pending)) :
    drain c = { c with nextTickCtx := render pending } := by
  simp [drain, hc, group]

/-- Draining calls the latest registration, with the function and the arguments it was
registered with. -/
lemma drain_some {c : Ctx α} {fn : α} {args : List α} {pending : List (Option (List α))}
    (hc : c.nextTickCtx = render (some (fn :: args) :: pending)) :
    drain c = { c with
      nextTickCtx := render pending
      invoked := c.invoked ++ [fn :: args] } := by
  have hlen : ((args.length : Int) + 1).toNat = ((fn :: args).map Slot.val).reverse.length := by
    simp
  have hneg : ¬ (args.length : Int) < 0 := by omega
  have hvals : values ((fn :: args).map Slot.val).reverse = (fn :: args).reverse := by
    rw [← List.map_reverse, values_map_val]
  simp only [render_cons, group, List.cons_append, List.length_cons, Nat.cast_add, Nat.cast_one,
    add_sub_cancel_right] at hc
  simp only [drain, hc, hlen, List.take_left', List.drop_left', hvals, List.reverse_reverse,
    if_neg hneg]

/-- The callbacks among the pending registrations, the latest one first. -/
def calls (pending : List (Option (List α))) : List (List α) := pending.reduceOption

@[simp] lemma calls_nil : calls ([] : List (Option (List α))) = [] := rfl

@[simp] lemma calls_none (pending : List (Option (List α))) :
    calls (none :: pending) = calls pending := by simp [calls]

@[simp] lemma calls_some (call : List α) (pending : List (Option (List α))) :
    calls (some call :: pending) = call :: calls pending := by simp [calls]

/-- Every slot belongs to a registration, and a registered callback has a function. -/
structure Sound (c : Ctx α) (pending : List (Option (List α))) : Prop where
  stack : c.nextTickCtx = render pending
  nonempty : ∀ call ∈ calls pending, call ≠ []

lemma sound_init : Sound (init : Ctx α) [] := ⟨rfl, by simp⟩

lemma Sound.callNextTick {c : Ctx α} {pending : List (Option (List α))} (h : Sound c pending)
    (fn : α) (args : List α) :
    Sound (low_call_next_tick c fn args) (some (fn :: args) :: pending) where
  stack := by rw [low_call_next_tick_stack, h.stack, render_cons]
  nonempty := by
    intro call hmem
    rw [calls_some] at hmem
    rcases List.mem_cons.mp hmem with rfl | hmem
    · simp
    · exact h.nonempty call hmem

lemma Sound.callNextTickJs_nil {c : Ctx α} {pending : List (Option (List α))}
    (h : Sound c pending) : Sound (low_call_next_tick_js c []) (none :: pending) where
  stack := by simp [low_call_next_tick_js, h.stack, group]
  nonempty := by simpa using h.nonempty

/-- What a drain iteration does to the pending registrations: nothing if there are none, else
it takes the latest one and, if that is a callback, calls it. -/
lemma Sound.drain_cases {c : Ctx α} {pending : List (Option (List α))} (h : Sound c pending) :
    (pending = [] ∧ drain c = c) ∨
    (∃ rest, pending = none :: rest ∧ Sound (drain c) rest ∧
      (drain c).registered = c.registered ∧ (drain c).invoked = c.invoked) ∨
    (∃ call rest, pending = some call :: rest ∧ Sound (drain c) rest ∧
      (drain c).registered = c.registered ∧ (drain c).invoked = c.invoked ++ [call]) := by
  match pending, h with
  | [], h => exact .inl ⟨rfl, by simp [drain, h.stack]⟩
  | none :: rest, h =>
    have hdrain := drain_none h.stack
    refine .inr (.inl ⟨rest, rfl, ⟨by rw [hdrain], ?_⟩, by rw [hdrain], by rw [hdrain]⟩)
    simpa using h.nonempty
  | some [] :: rest, h => exact absurd rfl (h.nonempty [] (by simp))
  | some (fn :: args) :: rest, h =>
    have hdrain := drain_some h.stack
    refine .inr (.inr ⟨_, rest, rfl, ⟨by rw [hdrain], ?_⟩, by rw [hdrain], by rw [hdrain]⟩)
    exact fun call hcall => h.nonempty call (by simp [hcall])

lemma registered_mono (c : Ctx α) (i : Input α) : c.registered <+: (step c i).registered := by
  cases i with
  | callNextTick fn args => simp [step, low_call_next_tick]
  | callNextTickJs args => cases args <;> simp [step, low_call_next_tick_js, low_call_next_tick]
  | drain =>
    show c.registered <+: (drain c).registered
    unfold drain
    split <;> exact List.prefix_refl _

/-! ### Every callback exactly once -/

/-- Up to order, the registered callbacks are the called ones together with the pending ones. -/
def ExactlyOnce (c : Ctx α) : Prop :=
  ∃ pending, Sound c pending ∧ c.registered ~ c.invoked ++ calls pending

lemma exactlyOnce_init : ExactlyOnce (init : Ctx α) := ⟨[], sound_init, by simp [init]⟩

lemma ExactlyOnce.callNextTick {c : Ctx α} (h : ExactlyOnce c) (fn : α) (args : List α) :
    ExactlyOnce (low_call_next_tick c fn args) := by
  obtain ⟨pending, hs, hp⟩ := h
  refine ⟨_, hs.callNextTick fn args, ?_⟩
  calc c.registered ++ [fn :: args]
      ~ (fn :: args) :: c.registered := List.perm_append_singleton _ _
    _ ~ (fn :: args) :: (c.invoked ++ calls pending) := hp.cons _
    _ ~ c.invoked ++ calls (some (fn :: args) :: pending) := by
      simpa using List.perm_middle.symm

lemma ExactlyOnce.step {c : Ctx α} (h : ExactlyOnce c) (i : Input α) :
    ExactlyOnce (step c i) := by
  match i with
  | .callNextTick fn args => exact h.callNextTick fn args
  | .callNextTickJs (fn :: args) => exact h.callNextTick fn args
  | .callNextTickJs [] =>
    obtain ⟨pending, hs, hp⟩ := h
    exact ⟨_, hs.callNextTickJs_nil, by simpa [NextTick.step, low_call_next_tick_js] using hp⟩
  | .drain =>
    obtain ⟨pending, hs, hp⟩ := h
    rcases hs.drain_cases with ⟨-, hd⟩ | ⟨rest, rfl, hs', hr, hi⟩ | ⟨call, rest, rfl, hs', hr, hi⟩
    · exact ⟨pending, by simpa [NextTick.step, hd] using hs, by simpa [NextTick.step, hd] using hp⟩
    · exact ⟨rest, hs', by simpa [NextTick.step, hr, hi] using hp⟩
    · exact ⟨rest, hs', by simpa [NextTick.step, hr, hi] using hp⟩

theorem exactlyOnce_run (is : List (Input α)) : ExactlyOnce ((machine α).run init is) :=
  Machine.run_invariant_of_step (fun _ i h => h.step i) exactlyOnce_init is

/-! ### The order of the calls -/

/-- The number of callbacks on the stack. -/
def queued (c : Ctx α) : Nat :=
  c.nextTickCtx.countP fun
    | .val _ => false
    | .num n => 0 ≤ n

/-- The drain loop meets a stack with one callback at most, or the count of an empty call. -/
def OneQueued (c : Ctx α) : Input α → Prop
  | .drain => c.nextTickCtx.head? = some (.num (-1)) ∨ queued c ≤ 1
  | _ => True

/-- First in, first out: the called callbacks are the first registered ones, in their order. -/
def InOrder (c : Ctx α) : Prop := c.invoked <+: c.registered

lemma countP_group_some {call : List α} (h : call ≠ []) :
    (group (some call)).countP (fun | .val _ => false | .num n => decide (0 ≤ n)) = 1 := by
  have hvals : ((call.map Slot.val).reverse).countP
      (fun | .val _ => false | .num n => decide (0 ≤ n)) = 0 := by
    simp [List.countP_eq_zero]
  rw [group, List.countP_cons, hvals]
  simp [h]

lemma Sound.queued_eq {c : Ctx α} {pending : List (Option (List α))} (h : Sound c pending) :
    queued c = (calls pending).length := by
  obtain ⟨hstack, hne⟩ := h
  unfold queued
  rw [hstack]
  clear hstack
  induction pending with
  | nil => simp
  | cons g pending ih =>
    cases g with
    | none =>
      rw [render_cons, List.countP_append, ih (by simpa using hne)]
      simp [group]
    | some call =>
      rw [render_cons, List.countP_append, countP_group_some (hne call (by simp)),
        ih (fun l hl => hne l (by simp [hl]))]
      simp [Nat.add_comm]

lemma Sound.head?_some {c : Ctx α} {call : List α} {pending : List (Option (List α))}
    (h : Sound c (some call :: pending)) : c.nextTickCtx.head? ≠ some (.num (-1)) := by
  have hne : call ≠ [] := h.nonempty call (by simp)
  have := List.length_pos_iff.mpr hne
  simp only [h.stack, render_cons, group, List.cons_append, List.head?_cons, ne_eq,
    Option.some.injEq, Slot.num.injEq]
  omega

/-- The pending callbacks, oldest first, continue the called ones. -/
def Fifo (c : Ctx α) : Prop :=
  ∃ pending, Sound c pending ∧ c.registered = c.invoked ++ (calls pending).reverse

lemma fifo_init : Fifo (init : Ctx α) := ⟨[], sound_init, rfl⟩

lemma Fifo.inOrder {c : Ctx α} (h : Fifo c) : InOrder c := by
  obtain ⟨pending, -, hr⟩ := h
  exact ⟨_, hr.symm⟩

/-- When the drain loop has emptied the stack, everything registered has been called. -/
lemma Fifo.invoked_eq {c : Ctx α} (h : Fifo c) (hc : c.nextTickCtx = []) :
    c.invoked = c.registered := by
  obtain ⟨pending, hs, hr⟩ := h
  have hq : queued c = 0 := by simp [queued, hc]
  rw [hs.queued_eq, List.length_eq_zero_iff] at hq
  simp [hr, hq]

lemma Fifo.callNextTick {c : Ctx α} (h : Fifo c) (fn : α) (args : List α) :
    Fifo (low_call_next_tick c fn args) := by
  obtain ⟨pending, hs, hr⟩ := h
  exact ⟨_, hs.callNextTick fn args, by simp [low_call_next_tick, hr]⟩

lemma Fifo.step {c : Ctx α} (h : Fifo c) (i : Input α) (hi : OneQueued c i) :
    Fifo (step c i) := by
  match i with
  | .callNextTick fn args => exact h.callNextTick fn args
  | .callNextTickJs (fn :: args) => exact h.callNextTick fn args
  | .callNextTickJs [] =>
    obtain ⟨pending, hs, hr⟩ := h
    exact ⟨_, hs.callNextTickJs_nil, by simpa [NextTick.step, low_call_next_tick_js] using hr⟩
  | .drain =>
    obtain ⟨pending, hs, hr⟩ := h
    rcases hs.drain_cases with ⟨-, hd⟩ | ⟨rest, rfl, hs', hr', hi'⟩ | ⟨call, rest, rfl, hs', hr', hi'⟩
    · exact ⟨pending, by simpa [NextTick.step, hd] using hs, by simpa [NextTick.step, hd] using hr⟩
    · exact ⟨rest, hs', by simpa [NextTick.step, hr', hi'] using hr⟩
    · -- the callback on top is the only one, so it is the oldest one
      have hone : (calls rest).length = 0 := by
        have := hi.resolve_left hs.head?_some
        rw [hs.queued_eq, calls_some, List.length_cons] at this
        omega
      refine ⟨rest, hs', ?_⟩
      simp only [NextTick.step, hr', hi', hr, calls_some, List.length_eq_zero_iff.mp hone]
      simp

/-- A drain that meets two callbacks calls the younger one first. -/
lemma not_inOrder_drain {c : Ctx α} (h : Fifo c) (hn : c.registered.Nodup)
    (hq : ¬ OneQueued c .drain) : ¬ InOrder (step c .drain) := by
  obtain ⟨pending, hs, hr⟩ := h
  simp only [OneQueued, not_or, not_le] at hq
  obtain ⟨hhead, hq⟩ := hq
  rcases hs.drain_cases with ⟨rfl, -⟩ | ⟨rest, rfl, -⟩ | ⟨call, rest, rfl, hs', hr', hi'⟩
  · simp [hs.queued_eq] at hq
  · exact absurd (by simp [hs.stack, group]) hhead
  · rw [hs.queued_eq, calls_some, List.length_cons] at hq
    obtain hnil | ⟨older, last, hlast⟩ := List.eq_nil_or_concat' (calls rest)
    · simp [hnil] at hq
    intro ⟨tail, htail⟩
    simp only [NextTick.step, hr', hi', hr, calls_some, List.reverse_cons, hlast,
      List.reverse_append, List.append_assoc, List.append_cancel_left_eq] at htail
    have hcall : call = last := by simpa using congrArg List.head? htail
    rw [hr] at hn
    simp [hlast, hcall, List.nodup_append] at hn

/-- If every drain iteration meets at most one callback, then after every prefix of the run the
callbacks have been called first in, first out, each exactly once, and all of them once the
drain loop has emptied the stack. Conversely, when no two registrations are equal, a run that
calls in order throughout is of this kind. An infinite run is covered through its prefixes. -/
theorem nextTick_inOrder (is : List (Input α)) :
    ((machine α).Guarded OneQueued init is → ∀ js, js <+: is →
      InOrder ((machine α).run init js) ∧ ExactlyOnce ((machine α).run init js) ∧
      (((machine α).run init js).nextTickCtx = [] →
        ((machine α).run init js).invoked = ((machine α).run init js).registered)) ∧
    (((machine α).run init is).registered.Nodup →
      (∀ js, js <+: is → InOrder ((machine α).run init js)) →
      (machine α).Guarded OneQueued init is) := by
  constructor
  · rintro hok js ⟨ks, rfl⟩
    have hfifo : Fifo ((machine α).run init js) :=
      Machine.run_invariant (fun _ i h hi => h.step i hi) fifo_init
        ((Machine.guarded_append _ _ _).mp hok).1
    exact ⟨hfifo.inOrder, exactlyOnce_run js, hfifo.invoked_eq⟩
  · intro hn hin
    induction is using List.reverseRecOn with
    | nil => simp
    | append_singleton is i ih =>
      have hpre : ∀ js, js <+: is → InOrder ((machine α).run init js) :=
        fun js hjs => hin js (hjs.trans (List.prefix_append _ _))
      have hn' : ((machine α).run init is).registered.Nodup := by
        refine hn.sublist ?_
        rw [Machine.run_concat]
        exact (registered_mono _ i).sublist
      have hok := ih hn' hpre
      have hfifo : Fifo ((machine α).run init is) :=
        Machine.run_invariant (fun _ i h hi => h.step i hi) fifo_init hok
      refine (Machine.guarded_append _ _ _).mpr ⟨hok, ?_, trivial⟩
      by_contra hq
      cases i with
      | drain =>
        refine not_inOrder_drain hfifo hn' hq ?_
        simpa [Machine.run_concat, machine] using hin _ (List.prefix_refl _)
      | callNextTick fn args => exact hq trivial
      | callNextTickJs args => exact hq trivial

/-- Two callbacks registered before the queue is drained: the second one is called first. -/
theorem nextTick_lastInFirstOut :
    ¬ ∀ is : List (Input Nat), InOrder ((machine Nat).run init is) := by
  intro h
  have := h [.callNextTick 1 [], .callNextTick 2 [], .drain]
  simp [InOrder, machine, step, low_call_next_tick, drain, values, pushAll, init] at this

end LowJs.NextTick
