import LowJs.Events.Listeners

/-!
# What an emission calls

An emission goes through a clone of the list. What the program does in between, with the lists, with other
emissions or with exceptions that it catches itself, happens on top of the stack, above the emission: each
function of the program that stood in the list when it began is called, in the order of the list, and nothing
else but wrappers of that list.
-/

namespace LowJs.Events

variable {φ : Type*}

def Fn.isUser : Fn φ → Bool
  | .user _ => true
  | .wrapper _ => false

namespace Emitter

variable {s s' : Emitter φ} {type : EventType} {args : Args φ} {fn : Fn φ} {frame top : Frame φ}
  {above below rest : List (Frame φ)} {n d : Nat}

/-! ### What is below stays -/

/-- The exception goes down the stack. -/
def thrown (stack : List (Frame φ)) : List (Frame φ) := stack.dropWhile fun frame => !frame.isUser

/-- Nothing is called, and what happens on the stack happens on top of it, or an exception goes down. -/
structure Continues (s s' : Emitter φ) : Prop where
  calls : s'.calls = s.calls
  stack : (∃ news, s'.stack = news ++ s.stack) ∨ s'.stack = thrown s.stack

lemma SameControl.continues (h : SameControl s s') : Continues s s' := ⟨h.calls, .inl ⟨[], h.stack⟩⟩

lemma continues_push (s : Emitter φ) (frame : Frame φ) : Continues s (s.push frame) := ⟨rfl, .inl ⟨[frame], rfl⟩⟩

lemma continues_emit (s : Emitter φ) (type : EventType) (args : Args φ) : Continues s (s.emit type args) := by
  rcases s.emit_cases type args with h | h | h <;> rw [h]
  · exact ⟨rfl, .inr rfl⟩
  · exact continues_push s _
  · exact ⟨rfl, .inl ⟨[], rfl⟩⟩

namespace Continues

lemma after (h : Continues s s') {s'' : Emitter φ} (hs : SameControl s'' s) : Continues s'' s' :=
  ⟨h.calls.trans hs.calls, by rw [← hs.stack]; exact h.stack⟩

/-- What happens on top of a frame of the methods happens on top of what is below it. -/
lemma of_push (h : Continues (s.push frame) s') (hframe : frame.isUser = false) : Continues s s' := by
  refine ⟨h.calls, ?_⟩
  rcases h.stack with ⟨news, hnews⟩ | hthrown
  · exact .inl ⟨news ++ [frame], by simp [hnews, Emitter.push]⟩
  · exact .inr (by simp [hthrown, thrown, Emitter.push, hframe])

lemma emitRemoved (h : SameControl s s') (type : EventType) (listener : Fn φ) :
    Continues s (s'.emitRemoved type listener) := by
  refine after ?_ h
  rcases s'.emitRemoved_cases type listener with he | he <;> rw [he]
  · exact continues_emit s' _ _
  · exact ⟨rfl, .inl ⟨[], rfl⟩⟩

variable [DecidableEq φ]

lemma removeListener (hc : s.Consistent) (type : EventType) (fn : Fn φ) :
    Continues s (s.removeListener type fn) := by
  obtain ⟨s', hs, he | ⟨listener, he⟩⟩ := hc.removeListener_shrinks type fn <;> rw [he]
  · exact hs.toSameControl.continues
  · exact emitRemoved hs.toSameControl type listener

lemma removeAllListeners (hc : s.Consistent) (type : Option EventType) :
    Continues s (s.removeAllListeners type) := by
  obtain ⟨s', hs, he | ⟨type', listener, he⟩ | ⟨frame, -, he⟩⟩ := hc.removeAllListeners_shrinks type <;> rw [he]
  · exact hs.toSameControl.continues
  · exact emitRemoved hs.toSameControl type' listener
  · exact (continues_push s' frame).after hs.toSameControl

omit [DecidableEq φ] in
lemma _addListener (s : Emitter φ) (type : EventType) (fn : Fn φ) (prepend : Bool) :
    Continues s (s._addListener type fn prepend) := by
  unfold Emitter._addListener
  split
  · exact (continues_emit _ _ _).of_push rfl
  · exact (sameControl_addListener s type fn prepend).continues

lemma call (hc : s.Consistent) (op : Op φ) : Continues s (s.call op) := by
  cases op with
  | on type listener prepend => exact _addListener s type _ prepend
  | once type listener prepend =>
    have h := _addListener { s with wraps := s.wraps ++ [⟨type, listener, false⟩] } type (.wrapper s.wraps.length) prepend
    exact ⟨h.calls, h.stack⟩
  | removeListener type listener => exact removeListener hc type listener
  | removeAllListeners type => exact removeAllListeners hc type
  | emit type args => exact continues_emit s type _

end Continues

/-! ### A step, by what is on top -/

variable [DecidableEq φ]

/-- A function of the program runs. -/
lemma step_user (hc : s.Consistent) (hstack : s.stack = .user :: rest) (i : Input φ) :
    (s.step i).calls = s.calls ∧ ((∃ news, (s.step i).stack = news ++ .user :: rest) ∨
      (s.step i).stack = rest ∨ (s.step i).stack = thrown rest) := by
  have hstep : s.step i = s.program i := by simp only [step, hstack, resume]
  rw [hstep]
  cases i with
  | call op =>
    obtain ⟨hcalls, hnews | hthrown⟩ := Continues.call hc op
    · exact ⟨hcalls, .inl (hstack ▸ hnews)⟩
    · rw [hstack, thrown, List.dropWhile_cons_of_neg (by simp [Frame.isUser])] at hthrown
      exact ⟨hcalls, .inl ⟨[], hthrown⟩⟩
  | ret => exact ⟨rfl, .inr (.inl (by simp [program, hstack]))⟩
  | throw => exact ⟨rfl, .inr (.inr (by simp [program, raise, thrown, hstack]))⟩

/-- A loop that removes goes on, or an addition does. -/
lemma step_method (hc : s.Consistent) (hstack : s.stack = top :: rest) (huser : top.isUser = false)
    (hemit : ∀ type args rest, top ≠ .emit type args rest) (hwrapper : ∀ id args, top ≠ .wrapper id args)
    (i : Input φ) : Continues { s with stack := rest } (s.step i) := by
  have hct := hc.withStack rest
  have hstep : s.step i = s.resume top rest i := by simp only [step, hstack]
  rw [hstep]
  cases top with
  | user => cases huser
  | emit type args rest => exact (hemit _ _ _ rfl).elim
  | wrapper id args => exact (hwrapper _ _ rfl).elim
  | add type fn prepend => exact (sameControl_addListener _ type fn prepend).continues
  | removeKeys keys =>
    cases keys with
    | nil => exact (Continues.removeAllListeners (hct.push .reset) (some .removeListener)).of_push rfl
    | cons key keys =>
      simp only [resume]
      split
      · exact continues_push _ _
      · exact (Continues.removeAllListeners (hct.push (.removeKeys keys)) (some key)).of_push rfl
  | reset => exact ⟨rfl, .inl ⟨[], rfl⟩⟩
  | removeArray type a j =>
    cases j with
    | zero => exact ⟨rfl, .inl ⟨[], rfl⟩⟩
    | succ j =>
      simp only [resume]
      split
      · exact ⟨rfl, .inr rfl⟩
      · exact (Continues.removeListener (hct.push (.removeArray type a j)) type _).of_push rfl

/-- An emission comes to its next listener. -/
lemma step_emit (hc : s.Consistent) {list : List (Fn φ)} (hstack : s.stack = .emit type args (fn :: list) :: rest)
    (i : Input φ) :
    ((s.step i).stack = .user :: .emit type args list :: rest ∧
        (s.step i).calls = s.calls ++ [⟨fn, args, rest.length + 1⟩] ∧ fn.isUser = true) ∨
      ((s.step i).calls = s.calls ∧ fn.isUser = false ∧
        ((s.step i).stack = .emit type args list :: rest ∨
          (∃ news id, fn = .wrapper id ∧
            (s.step i).stack = news ++ .wrapper id args :: .emit type args list :: rest) ∨
          (s.step i).stack = thrown rest)) := by
  have hstep : s.step i = ({ s with stack := rest }.push (.emit type args list)).apply fn args := by
    simp only [step, hstack, resume]
  rw [hstep]
  cases fn with
  | user f => exact .inl ⟨rfl, rfl, rfl⟩
  | wrapper id =>
    right
    simp only [apply]
    split
    · exact ⟨rfl, rfl, .inl rfl⟩
    · rename_i w hw
      split
      · exact ⟨rfl, rfl, .inl rfl⟩
      · have hct := ((hc.withStack rest).push (.emit type args list)).push (.wrapper id args)
        obtain ⟨hcalls, ⟨news, hnews⟩ | hthrown⟩ := Continues.removeListener hct w.type (.wrapper id)
        · exact ⟨hcalls, rfl, .inr (.inl ⟨news, id, rfl, hnews⟩)⟩
        · exact ⟨hcalls, rfl, .inr (.inr hthrown)⟩

/-- Whatever is on top: what is below it stays, or an exception goes down, and what is called, is called above
it. -/
lemma step_top (hc : s.Consistent) (hstack : s.stack = top :: rest) (i : Input φ) :
    ∃ added, (s.step i).calls = s.calls ++ added ∧ (∀ c ∈ added, rest.length ≤ c.depth) ∧
      ((∃ news, (s.step i).stack = news ++ rest) ∨ (s.step i).stack = thrown rest) := by
  cases top with
  | user =>
    obtain ⟨hcalls, ⟨news, hnews⟩ | hrest | hthrown⟩ := step_user hc hstack i
    · exact ⟨[], by simp [hcalls], by simp, .inl ⟨news ++ [.user], by simp [hnews]⟩⟩
    · exact ⟨[], by simp [hcalls], by simp, .inl ⟨[], hrest⟩⟩
    · exact ⟨[], by simp [hcalls], by simp, .inr hthrown⟩
  | emit type args list =>
    cases list with
    | nil => exact ⟨[], by simp [step, hstack, resume], by simp, .inl ⟨[], by simp [step, hstack, resume]⟩⟩
    | cons fn list =>
      rcases step_emit hc hstack i with ⟨hnews, hcalls, -⟩ | ⟨hcalls, -, hnews | ⟨news, id, -, hnews⟩ | hthrown⟩
      · exact ⟨_, hcalls, by simp, .inl ⟨[.user, .emit type args list], hnews⟩⟩
      · exact ⟨[], by simp [hcalls], by simp, .inl ⟨[.emit type args list], hnews⟩⟩
      · exact ⟨[], by simp [hcalls], by simp, .inl ⟨news ++ [.wrapper id args, .emit type args list], by simp [hnews]⟩⟩
      · exact ⟨[], by simp [hcalls], by simp, .inr hthrown⟩
  | wrapper id args =>
    refine ⟨[⟨.wrapper id, args, rest.length⟩], ?_, by simp, .inl ⟨[.user], ?_⟩⟩ <;> simp [step, hstack, resume]
  | _ =>
    obtain ⟨hcalls, hnext⟩ := step_method hc hstack rfl (by simp) (by simp) i
    exact ⟨[], by simp [hcalls], by simp, hnext⟩

/-! ### The emission is under way -/

omit [DecidableEq φ] in
lemma getLast?_dropWhile {α : Type*} {p : α → Bool} {l : List α} (h : l.dropWhile p ≠ []) :
    (l.dropWhile p).getLast? = l.getLast? := by
  obtain ⟨front, hfront⟩ := List.dropWhile_suffix p (l := l)
  conv_rhs => rw [← hfront, List.getLast?_append]
  rw [List.getLast?_eq_some_getLast h, Option.some_or]

omit [DecidableEq φ] in
lemma length_thrown_le (stack : List (Frame φ)) : (thrown stack).length ≤ stack.length :=
  (List.dropWhile_sublist _).length_le

/-- The calls from the `n`-th on that were made with `d` calls not finished. -/
def callsAt (s : Emitter φ) (n d : Nat) : List (Called φ) := (s.calls.drop n).filter fun c => c.depth = d

/-- The wrapper that has been called and waits, right above the emission. -/
def waiting (above : List (Frame φ)) : List (Fn φ) :=
  match above.getLast? with
  | some (.wrapper id _) => [.wrapper id]
  | _ => []

/-- The emission stands on the stack, and has come through `done`: all that the program added has been called,
and of the wrappers those that had not fired, of which the last one may wait. -/
structure Underway (s : Emitter φ) (type : EventType) (args : Args φ) (below : List (Frame φ)) (n : Nat)
    (above : List (Frame φ)) (done list : List (Fn φ)) : Prop where
  stack : s.stack = above ++ .emit type args list :: below
  start : n ≤ s.calls.length
  bottom : ∀ frame, above.getLast? = some frame → frame = .user ∨ ∃ id, frame = .wrapper id args
  made : ((s.callsAt n (below.length + 1)).map Called.fn ++ waiting above).Sublist done
  users : ((s.callsAt n (below.length + 1)).map Called.fn).filter Fn.isUser = done.filter Fn.isUser
  args : ∀ c ∈ s.callsAt n (below.length + 1), c.args = args

omit [DecidableEq φ] in
lemma callsAt_congr (hcalls : s'.calls = s.calls) : s'.callsAt n d = s.callsAt n d := by
  rw [callsAt, hcalls, callsAt]

omit [DecidableEq φ] in
lemma callsAt_append {added : List (Called φ)} (hn : n ≤ s.calls.length) (hcalls : s'.calls = s.calls ++ added) :
    s'.callsAt n d = s.callsAt n d ++ added.filter fun c => c.depth = d := by
  rw [callsAt, hcalls, List.drop_append_of_le_length hn, List.filter_append]
  rfl

namespace Underway

variable {done list : List (Fn φ)}

omit [DecidableEq φ] in
lemma sublist (h : Underway s type args below n above done list) :
    ((s.callsAt n (below.length + 1)).map Called.fn).Sublist done := (List.sublist_append_left _ _).trans h.made

/-- The emission comes to its next listener. -/
lemma at_next (h : Underway s type args below n [] done (fn :: list)) (hc : s.Consistent) (i : Input φ)
    (hkept : below.length < (s.step i).stack.length) :
    ∃ above, Underway (s.step i) type args below n above (done ++ [fn]) list := by
  have hmade := h.sublist
  rcases step_emit hc h.stack i with ⟨hstack, hcalls, huser⟩ | ⟨hcalls, huser, hstack⟩
  · have hat : (s.step i).callsAt n (below.length + 1) =
        s.callsAt n (below.length + 1) ++ [⟨fn, args, below.length + 1⟩] := by
      rw [callsAt_append h.start hcalls]
      simp
    refine ⟨[.user], hstack, ?_, by simp, ?_, ?_, ?_⟩
    · rw [hcalls, List.length_append]
      exact h.start.trans (Nat.le_add_right _ _)
    · rw [hat]
      simpa [waiting] using hmade
    · rw [hat]
      simp [h.users]
    · rw [hat]
      simpa [or_imp, forall_and] using h.args
  · have hat := callsAt_congr (n := n) (d := below.length + 1) hcalls
    have hstart : n ≤ (s.step i).calls.length := hcalls ▸ h.start
    have husers : ((s.callsAt n (below.length + 1)).map Called.fn).filter Fn.isUser =
        (done ++ [fn]).filter Fn.isUser := by simp [h.users, huser]
    rcases hstack with hstack | ⟨news, id, rfl, hstack⟩ | hthrown
    · refine ⟨[], hstack, hstart, by simp, ?_, hat ▸ husers, hat ▸ h.args⟩
      rw [hat]
      simpa [waiting] using hmade.trans (List.sublist_append_left _ _)
    · refine ⟨news ++ [.wrapper id args], by simp [hstack], hstart, ?_, ?_, hat ▸ husers, hat ▸ h.args⟩
      · intro frame hframe
        exact .inr ⟨id, by simpa [eq_comm] using hframe⟩
      · rw [hat]
        simpa [waiting] using hmade
    · rw [hthrown] at hkept
      exact absurd hkept (not_lt.mpr (length_thrown_le below))

/-- Right above the emission something goes on: a function of the program, or the wrapper that waits. -/
lemma bottom_step (h : Underway s type args below n [top] done list) (hc : s.Consistent) (i : Input φ)
    (hkept : below.length < (s.step i).stack.length) :
    ∃ above, Underway (s.step i) type args below n above done list := by
  rcases h.bottom top rfl with rfl | ⟨id, rfl⟩
  · obtain ⟨hcalls, hstack⟩ := step_user hc h.stack i
    have hat := callsAt_congr (n := n) (d := below.length + 1) hcalls
    have hmade := h.sublist
    have hstart : n ≤ (s.step i).calls.length := hcalls ▸ h.start
    rcases hstack with ⟨news, hstack⟩ | hstack | hthrown
    · refine ⟨news ++ [.user], by simp [hstack], hstart, ?_, ?_, hat ▸ h.users, hat ▸ h.args⟩
      · intro frame hframe
        exact .inl (by simpa [eq_comm] using hframe)
      · rw [hat]
        simpa [waiting] using hmade
    · refine ⟨[], hstack, hstart, by simp, ?_, hat ▸ h.users, hat ▸ h.args⟩
      rw [hat]
      simpa [waiting] using hmade
    · rw [hthrown] at hkept
      exact absurd hkept (not_lt.mpr (length_thrown_le below))
  · have hcalls : (s.step i).calls = s.calls ++ [⟨.wrapper id, args, below.length + 1⟩] := by
      simp [step, h.stack, resume]
    have hat : (s.step i).callsAt n (below.length + 1) =
        s.callsAt n (below.length + 1) ++ [⟨.wrapper id, args, below.length + 1⟩] := by
      rw [callsAt_append h.start hcalls]
      simp
    refine ⟨[.user], by simp [step, h.stack, resume], ?_, by simp, ?_, ?_, ?_⟩
    · rw [hcalls, List.length_append]
      exact h.start.trans (Nat.le_add_right _ _)
    · rw [hat]
      simpa [waiting] using h.made
    · rw [hat]
      simp [h.users, Fn.isUser]
    · rw [hat]
      simpa [or_imp, forall_and] using h.args

omit [DecidableEq φ] in
/-- What is above may change, but for the call right above the emission. -/
lemma changed {above' : List (Frame φ)} (h : Underway s type args below n above done list)
    (hstack : s'.stack = above' ++ .emit type args list :: below) (hlast : above'.getLast? = above.getLast?)
    (hstart : n ≤ s'.calls.length) (hat : s'.callsAt n (below.length + 1) = s.callsAt n (below.length + 1)) :
    Underway s' type args below n above' done list := by
  refine ⟨hstack, hstart, hlast ▸ h.bottom, ?_, hat ▸ h.users, hat ▸ h.args⟩
  rw [hat, waiting, hlast]
  exact h.made

/-- Further above anything happens. -/
lemma above_step {next : Frame φ} (h : Underway s type args below n (top :: next :: above) done list)
    (hc : s.Consistent) (i : Input φ) (hkept : below.length < (s.step i).stack.length) :
    ∃ above, Underway (s.step i) type args below n above done list := by
  obtain ⟨added, hcalls, hdepth, hstack⟩ := step_top hc h.stack i
  have hstart : n ≤ (s.step i).calls.length := by
    rw [hcalls, List.length_append]
    exact h.start.trans (Nat.le_add_right _ _)
  have hat : (s.step i).callsAt n (below.length + 1) = s.callsAt n (below.length + 1) := by
    rw [callsAt_append h.start hcalls, List.filter_eq_nil_iff.mpr, List.append_nil]
    intro c hin
    have hlow := hdepth c hin
    simp only [List.append_eq, List.length_append, List.length_cons, List.cons_append] at hlow
    simp
    omega
  rcases hstack with ⟨news, hnews⟩ | hthrown
  · refine ⟨news ++ next :: above, h.changed (by simp [hnews]) ?_ hstart hat⟩
    rw [List.getLast?_append_cons]
    simp
  · rw [thrown, List.append_eq, List.dropWhile_append] at hthrown
    split at hthrown
    · rw [hthrown] at hkept
      exact absurd hkept (not_lt.mpr (length_thrown_le below))
    · rename_i hsome
      refine ⟨_, h.changed hthrown ?_ hstart hat⟩
      rw [getLast?_dropWhile (by simpa using hsome), List.getLast?_cons_cons]

lemma step (h : Underway s type args below n above done list) (hc : s.Consistent) (i : Input φ)
    (hkept : below.length < (s.step i).stack.length) :
    ∃ above done' list', done' ++ list' = done ++ list ∧ Underway (s.step i) type args below n above done' list' := by
  rcases above with _ | ⟨top, _ | ⟨next, above⟩⟩
  · cases list with
    | nil =>
      have hstack : (s.step i).stack = below := by simp [Emitter.step, h.stack, resume]
      rw [hstack] at hkept
      exact absurd hkept (lt_irrefl _)
    | cons fn list =>
      obtain ⟨above, h'⟩ := h.at_next hc i hkept
      exact ⟨above, _, _, by simp, h'⟩
  · obtain ⟨above, h'⟩ := h.bottom_step hc i hkept
    exact ⟨above, _, _, rfl, h'⟩
  · obtain ⟨above, h'⟩ := h.above_step hc i hkept
    exact ⟨above, _, _, rfl, h'⟩

end Underway

/-- An emission begins. -/
lemma begins (hprogram : s.stack.head? = none ∨ s.stack.head? = some .user) (hlisteners : s.rawListeners type ≠ [])
    (args : List Nat) :
    Underway (s.step (.call (.emit type args))) type (.given args) s.stack s.calls.length [] [] (s.rawListeners type) := by
  have hstep : s.step (.call (.emit type args)) = s.push (.emit type (.given args) (s.rawListeners type)) := by
    have hemit : s.step (.call (.emit type args)) = s.emit type (.given args) := by
      rcases hstack : s.stack with _ | ⟨top, rest⟩
      · simp [step, hstack, program, call]
      · obtain rfl : top = .user := by simpa [hstack] using hprogram
        simp [step, hstack, resume, program, call]
    rw [hemit, emit]
    cases hs : s.handler type with
    | none => exact absurd (rawListeners_none hs) hlisteners
    | some h => simp [rawListeners_some hs]
  rw [hstep]
  have hat : (s.push (.emit type (.given args) (s.rawListeners type))).callsAt s.calls.length (s.stack.length + 1) = [] := by
    simp [callsAt, Emitter.push]
  exact ⟨rfl, le_rfl, by simp, by simp [hat, waiting], by simp [hat], by simp [hat]⟩

/-- An emission that comes to its end, whatever happens on top of it: of the functions in the list when it
began, all that the program added have been called, in the order of the list, with the arguments of the
emission; in between no others than wrappers of the list. -/
theorem emit_calls (pre is : List (Input φ)) (type : EventType) (args : List Nat)
    (hprogram : ((emitter φ).run new pre).stack.head? = none ∨ ((emitter φ).run new pre).stack.head? = some .user)
    (hlisteners : ((emitter φ).run new pre).rawListeners type ≠ [])
    (hkept : (emitter φ).Guarded
      (fun s i => ((emitter φ).run new pre).stack.length < (s.step i).stack.length)
      ((emitter φ).run new pre) (.call (.emit type args) :: is))
    (hend : ((emitter φ).run new (pre ++ .call (.emit type args) :: is)).stack =
      .emit type (.given args) [] :: ((emitter φ).run new pre).stack) :
    let s := (emitter φ).run new pre
    let made := ((emitter φ).run new (pre ++ .call (.emit type args) :: is)).callsAt s.calls.length
      (s.stack.length + 1)
    (made.map Called.fn).Sublist (s.rawListeners type) ∧
      (made.map Called.fn).filter Fn.isUser = (s.rawListeners type).filter Fn.isUser ∧
      ∀ c ∈ made, c.args = .given args := by
  intro s made
  obtain ⟨-, hrest⟩ := hkept
  have hc : s.Consistent := consistent_new.run pre
  obtain ⟨-, above, done, list, hsplit, hunder⟩ := Machine.run_invariant (M := emitter φ)
    (P := fun t => t.Consistent ∧ ∃ above done list, done ++ list = s.rawListeners type ∧
      Underway t type (.given args) s.stack s.calls.length above done list)
    (fun t i ht hkept => by
      obtain ⟨hct, above, done, list, hsplit, hunder⟩ := ht
      obtain ⟨above', done', list', hsplit', hunder'⟩ := hunder.step hct i hkept
      exact ⟨hct.step i, above', done', list', hsplit'.trans hsplit, hunder'⟩)
    ⟨hc.step _, [], [], _, rfl, begins hprogram hlisteners args⟩ hrest
  have hrun : (emitter φ).run new (pre ++ .call (.emit type args) :: is) =
      (emitter φ).run (s.step (.call (.emit type args))) is := by rw [Machine.run_append, Machine.run_cons]; rfl
  rw [hrun] at hend
  have hstack : above ++ .emit type (.given args) list :: s.stack = .emit type (.given args) [] :: s.stack :=
    hunder.stack.symm.trans hend
  obtain rfl : above = [] := by
    have hlength := congrArg List.length hstack
    simp only [List.length_append, List.length_cons] at hlength
    exact List.eq_nil_of_length_eq_zero (by omega)
  obtain rfl : list = [] := by simpa using hstack
  rw [List.append_nil] at hsplit
  subst hsplit
  have hmade : made = ((emitter φ).run (s.step (.call (.emit type args))) is).callsAt s.calls.length
      (s.stack.length + 1) := congrArg (fun t => callsAt t _ _) hrun
  rw [hmade]
  exact ⟨by simpa [waiting] using hunder.made, hunder.users, hunder.args⟩

/-- Three listeners, of which the second is one of `once`. -/
def listening : List (Input Nat) :=
  [.call (.on .error 1 false), .call (.once .error 2 false), .call (.on .error 3 false)]

/-- The first of them removes the third and adds another one in front, when it is called. -/
def changing : List (Input Nat) :=
  [.ret, .call (.removeListener .error (.user 3)), .call (.on .error 4 true), .ret, .ret, .ret, .ret, .ret, .ret]

/-- The third listener is called although the first one has removed it, and the one that is added is not. -/
theorem emit_calls_changing :
    ((((emitter Nat).run new (listening ++ .call (.emit .error [7]) :: changing)).callsAt 0 1).map Called.fn).filter
      Fn.isUser = [.user 1, .user 3] :=
  (emit_calls listening changing .error [7] (by decide) (by decide) (by decide) (by decide)).2.1

end Emitter

end LowJs.Events
