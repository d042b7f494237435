import LowJs.Events.Listeners

/-!
# A listener of `once` is called at most once

The wrapper of a listener is in one list at most, and in that of its type. It is removed from there before the
listener is called, but the event of the removal comes in between: the program runs while the wrapper waits.
That it is not called a second time then is seen from the stack: no emission above the waiting wrapper has it in
its clone.
-/

namespace LowJs.Events

lemma not_mem_eraseIdx {α : Type*} [DecidableEq α] {l : List α} {a : α} {p : Nat} (hp : l[p]? = some a)
    (hcount : l.count a ≤ 1) : a ∉ l.eraseIdx p := by
  obtain ⟨hlt, rfl⟩ := List.getElem?_eq_some_iff.mp hp
  have hperm := (List.getElem_cons_eraseIdx_perm hlt).count_eq l[p]
  rw [List.count_cons_self] at hperm
  exact List.count_eq_zero.mp (by omega)

variable {φ : Type*}

namespace Frame

/-- The call that goes on can call the wrapper. -/
def Mentions (id : Nat) : Frame φ → Prop
  | .emit _ _ rest => .wrapper id ∈ rest
  | .wrapper id' _ => id' = id
  | _ => False

/-- The wrapper has been called, and waits for the event of its removal. -/
def Waits (id : Nat) : Frame φ → Prop
  | .wrapper id' _ => id' = id
  | _ => False

/-- The wrapper will be added. -/
def adds (id : Nat) : Frame φ → Bool
  | .add _ (.wrapper id') _ => id' = id
  | _ => false

lemma Waits.mentions {id : Nat} {frame : Frame φ} (h : frame.Waits id) : frame.Mentions id := by
  cases frame <;> first | exact h | exact h.elim

end Frame

namespace Emitter

variable {s s' : Emitter φ} {id id' : Nat} {type : EventType} {frame : Frame φ} {fn : Fn φ} {args : Args φ}

/-- The type that a wrapper is for. -/
def typeOf (s : Emitter φ) (id : Nat) : Option EventType := s.wraps[id]?.map Wrap.type

def hasFired (s : Emitter φ) (id : Nat) : Bool := (s.wraps[id]?.map Wrap.fired).getD false

lemma SameControl.typeOf (h : SameControl s s') (id : Nat) : s'.typeOf id = s.typeOf id := by
  rw [Emitter.typeOf, Emitter.typeOf, h.wraps]

lemma SameControl.hasFired (h : SameControl s s') (id : Nat) : s'.hasFired id = s.hasFired id := by
  rw [Emitter.hasFired, Emitter.hasFired, h.wraps]

variable [DecidableEq φ]

/-- What holds of a wrapper at any time. -/
structure Tracked (s : Emitter φ) (id : Nat) : Prop where
  called : s.calls.countP (fun c => c.fn = .wrapper id) = if s.hasFired id then 1 else 0
  listed {type : EventType} : .wrapper id ∈ s.rawListeners type → s.typeOf id = some type
  single (type : EventType) : (s.rawListeners type).count (.wrapper id) + s.stack.countP (Frame.adds id) ≤ 1
  adding {frame : Frame φ} : frame ∈ s.stack → frame.adds id = true →
    (∃ type prepend, frame = .add type (.wrapper id) prepend ∧ s.typeOf id = some type) ∧
      ∀ frame ∈ s.stack, ¬frame.Mentions id
  known {frame : Frame φ} : frame ∈ s.stack → frame.Mentions id → (s.typeOf id).isSome = true
  waiting {frame : Frame φ} : frame ∈ s.stack → frame.Waits id →
    s.hasFired id = false ∧ ∀ type, .wrapper id ∉ s.rawListeners type
  nested : s.stack.Pairwise fun frame below => below.Waits id → ¬frame.Mentions id
  spent : s.hasFired id = true → (∀ type, .wrapper id ∉ s.rawListeners type) ∧ ∀ frame ∈ s.stack, frame.adds id = false

lemma tracked_new (id : Nat) : (new : Emitter φ).Tracked id := by
  constructor <;> simp [new, hasFired, rawListeners, handler]

namespace Tracked

/-- Less is listed, and calls on the stack are finished. -/
lemma mono (h : s.Tracked id)
    (hcalls : s'.calls.countP (fun c => c.fn = .wrapper id) = s.calls.countP (fun c => c.fn = .wrapper id))
    (htype : s'.typeOf id = s.typeOf id)
    (hfired : s'.hasFired id = s.hasFired id)
    (hlists : ∀ type, (s'.rawListeners type).count (.wrapper id) ≤ (s.rawListeners type).count (.wrapper id))
    (hstack : s'.stack.Sublist s.stack) : s'.Tracked id := by
  have hmem : ∀ type, .wrapper id ∈ s'.rawListeners type → .wrapper id ∈ s.rawListeners type := fun type hin =>
    List.count_pos_iff.mp ((List.count_pos_iff.mpr hin).trans_le (hlists type))
  have hsub := hstack.subset
  constructor
  · rw [hcalls, hfired, h.called]
  · intro type hin
    rw [htype, h.listed (hmem type hin)]
  · intro type
    exact (add_le_add (hlists type) hstack.countP_le).trans (h.single type)
  · intro frame hin hadds
    obtain ⟨⟨type, prepend, rfl, ht⟩, hno⟩ := h.adding (hsub hin) hadds
    exact ⟨⟨type, prepend, rfl, htype ▸ ht⟩, fun frame hin => hno frame (hsub hin)⟩
  · intro frame hin hm
    rw [htype, h.known (hsub hin) hm]
  · intro frame hin hw
    obtain ⟨hf, hno⟩ := h.waiting (hsub hin) hw
    exact ⟨hfired ▸ hf, fun type hin => hno type (hmem type hin)⟩
  · exact h.nested.sublist hstack
  · intro hf
    obtain ⟨hno, hadds⟩ := h.spent (hfired ▸ hf)
    exact ⟨fun type hin => hno type (hmem type hin), fun frame hin => hadds frame (hsub hin)⟩

/-- The stack alone changes, and is that of before with a call on top, which does not add the wrapper. -/
lemma on_top (h : s.Tracked id) (hadds : frame.adds id = false)
    (hwaits : frame.Waits id → s.hasFired id = false ∧ ∀ type, .wrapper id ∉ s.rawListeners type)
    (hmentions : frame.Mentions id → (s.typeOf id).isSome = true ∧
      ∀ below ∈ s.stack, below.adds id = false ∧ ¬below.Waits id) : (s.push frame).Tracked id := by
  have hraw : ∀ type, (s.push frame).rawListeners type = s.rawListeners type := (SameLists.push s frame).rawListeners
  constructor
  · exact h.called
  · intro type hin
    rw [hraw] at hin
    exact h.listed hin
  · intro type
    rw [hraw, push, List.countP_cons_of_neg (by simp [hadds])]
    exact h.single type
  · intro frame' hin hadds'
    rcases List.mem_cons.mp hin with rfl | hbelow
    · simp [hadds] at hadds'
    · obtain ⟨htype, hno⟩ := h.adding hbelow hadds'
      refine ⟨htype, fun frame'' hin'' hm => ?_⟩
      rcases List.mem_cons.mp hin'' with rfl | hin''
      · simp [((hmentions hm).2 frame' hbelow).1] at hadds'
      · exact hno frame'' hin'' hm
  · intro frame' hin hm
    rcases List.mem_cons.mp hin with rfl | hin
    · exact (hmentions hm).1
    · exact h.known hin hm
  · intro frame' hin hw
    simp only [hraw]
    rcases List.mem_cons.mp hin with rfl | hin
    · exact hwaits hw
    · exact h.waiting hin hw
  · exact List.pairwise_cons.mpr ⟨fun below hin hw hm => ((hmentions hm).2 below hin).2 hw, h.nested⟩
  · intro hf
    obtain ⟨hno, hall⟩ := h.spent hf
    simp only [hraw]
    refine ⟨hno, fun frame' hin => ?_⟩
    rcases List.mem_cons.mp hin with rfl | hin
    · exact hadds
    · exact hall frame' hin

/-- Calls on the stack are finished, and nothing else happens. -/
lemma withStack (h : s.Tracked id) {stack : List (Frame φ)} (hstack : stack.Sublist s.stack) :
    { s with stack := stack }.Tracked id := h.mono rfl rfl rfl (fun _ => le_rfl) hstack

/-- A call that cannot call the wrapper is put on top. -/
lemma push (h : s.Tracked id) (hadds : frame.adds id = false) (hm : ¬frame.Mentions id) :
    (s.push frame).Tracked id :=
  h.on_top hadds (fun hw => (hm hw.mentions).elim) fun h' => (hm h').elim

/-- While the wrapper is listed, it is not about to be added, and does not wait. -/
lemma free (h : s.Tracked id) (hin : .wrapper id ∈ s.rawListeners type) :
    ∀ below ∈ s.stack, below.adds id = false ∧ ¬below.Waits id := by
  intro below hbelow
  constructor
  · by_contra hadds
    have hcount := h.single type
    have h1 := List.count_pos_iff.mpr hin
    have h2 : 0 < s.stack.countP (Frame.adds id) :=
      List.countP_pos_iff.mpr ⟨below, hbelow, by simpa using hadds⟩
    omega
  · exact fun hw => (h.waiting hbelow hw).2 type hin

lemma raise (h : s.Tracked id) : s.raise.Tracked id :=
  h.mono rfl rfl rfl (fun type => ((SameLists.raise s).rawListeners type ▸ le_rfl)) (List.dropWhile_sublist _)

lemma emit (h : s.Tracked id) (type : EventType) (args : Args φ) : (s.emit type args).Tracked id := by
  rcases s.emit_cases type args with he | he | he <;> rw [he]
  · exact h.raise
  · exact h.on_top rfl (fun hw => hw.elim) fun hm => ⟨by rw [h.listed hm]; rfl, h.free hm⟩
  · exact h

lemma emitRemoved (h : s.Tracked id) (type : EventType) (listener : Fn φ) :
    (s.emitRemoved type listener).Tracked id := by
  rcases s.emitRemoved_cases type listener with he | he <;> rw [he]
  · exact h.emit _ _
  · exact h

lemma shrinks (h : s.Tracked id) (hs : Shrinks s s') : s'.Tracked id :=
  h.mono (by rw [hs.calls]) (hs.typeOf id) (hs.hasFired id) (fun type => (hs.sublist type).count_le _) (hs.stack ▸ .refl _)

lemma removeListener (h : s.Tracked id) (hc : s.Consistent) (type : EventType) (fn : Fn φ) :
    (s.removeListener type fn).Tracked id := by
  obtain ⟨s', hshrinks, hs | ⟨listener, hs⟩⟩ := hc.removeListener_shrinks type fn <;> rw [hs]
  · exact h.shrinks hshrinks
  · exact (h.shrinks hshrinks).emitRemoved type listener

lemma removeAllListeners (h : s.Tracked id) (hc : s.Consistent) (type : Option EventType) :
    (s.removeAllListeners type).Tracked id := by
  obtain ⟨s', hshrinks, hs | ⟨type', listener, hs⟩ | ⟨frame, hframe, hs⟩⟩ := hc.removeAllListeners_shrinks type <;>
    rw [hs]
  · exact h.shrinks hshrinks
  · exact (h.shrinks hshrinks).emitRemoved type' listener
  · refine (h.shrinks hshrinks).push ?_ ?_ <;> cases frame <;> simp_all [Frame.removes, Frame.adds, Frame.Mentions]

/-! ### Listeners are added -/

lemma addListener (h : s.Tracked id) (hc : s.Consistent) (hne : fn ≠ .wrapper id) (type : EventType)
    (prepend : Bool) : (s.addListener type fn prepend).Tracked id := by
  have hsame := sameControl_addListener s type fn prepend
  obtain ⟨hat, hhere⟩ := hc.addListener type fn prepend
  refine h.mono (by rw [hsame.calls]) (hsame.typeOf id) (hsame.hasFired id) (fun type' => ?_) (hsame.stack ▸ .refl _)
  by_cases ht : type' = type
  · rw [ht, hhere]
    cases prepend <;> simp [hne]
  · rw [hat.rawListeners ht]

lemma _addListener (h : s.Tracked id) (hc : s.Consistent) (hne : fn ≠ .wrapper id) (type : EventType)
    (prepend : Bool) : (s._addListener type fn prepend).Tracked id := by
  unfold Emitter._addListener
  split
  · refine (h.push ?_ ?_).emit _ _
    · cases fn <;> simp_all [Frame.adds]
    · simp [Frame.Mentions]
  · exact h.addListener hc hne type prepend

end Tracked

/-- The wrapper is made, and nowhere yet. -/
structure Ready (s : Emitter φ) (id : Nat) (type : EventType) : Prop where
  type : s.typeOf id = some type
  unlisted (type : EventType) : .wrapper id ∉ s.rawListeners type
  alone {frame : Frame φ} : frame ∈ s.stack → frame.adds id = false ∧ ¬frame.Mentions id
  fired : s.hasFired id = false

namespace Ready

lemma addListener (hr : s.Ready id type) (h : s.Tracked id) (hc : s.Consistent) (prepend : Bool) :
    (s.addListener type (.wrapper id) prepend).Tracked id := by
  have hsame := sameControl_addListener s type (.wrapper id) prepend
  obtain ⟨hat, hhere⟩ := hc.addListener type (.wrapper id) prepend
  generalize s.addListener type (.wrapper id) prepend = s' at *
  have htype := hsame.typeOf id
  have hfired := (hsame.hasFired id).trans hr.fired
  obtain ⟨hstack, -, hcalls⟩ := hsame
  have hzero : s'.stack.countP (Frame.adds id) = 0 := by
    rw [hstack]
    exact List.countP_eq_zero.mpr fun frame hin => by simp [(hr.alone hin).1]
  have hothers : ∀ type', type' ≠ type → .wrapper id ∉ s'.rawListeners type' := fun type' ht => by
    rw [hat.rawListeners ht]
    exact hr.unlisted type'
  constructor
  · rw [hcalls, hfired, h.called, hr.fired]
  · intro type' hin
    by_cases ht : type' = type
    · rw [htype, hr.type, ht]
    · exact absurd hin (hothers type' ht)
  · intro type'
    rw [hzero]
    by_cases ht : type' = type
    · rw [ht, hhere]
      cases prepend <;> simp [List.count_eq_zero.mpr (hr.unlisted type)]
    · simp [List.count_eq_zero.mpr (hothers type' ht)]
  · intro frame hin hadds
    simp [(hr.alone (hstack ▸ hin)).1] at hadds
  · exact fun hin hm => ((hr.alone (hstack ▸ hin)).2 hm).elim
  · exact fun hin hw => ((hr.alone (hstack ▸ hin)).2 hw.mentions).elim
  · exact hstack ▸ h.nested
  · simp [hfired]

lemma push (hr : s.Ready id type) (h : s.Tracked id) (prepend : Bool) :
    (s.push (.add type (.wrapper id) prepend)).Tracked id := by
  have hraw : ∀ type', (s.push (.add type (.wrapper id) prepend)).rawListeners type' = s.rawListeners type' :=
    (SameLists.push s _).rawListeners
  have hmentions : ∀ frame ∈ (s.push (.add type (.wrapper id) prepend)).stack, ¬frame.Mentions id := by
    intro frame hin
    rcases List.mem_cons.mp hin with rfl | hin
    · exact not_false
    · exact (hr.alone hin).2
  constructor
  · exact h.called
  · intro type' hin
    exact absurd (hraw type' ▸ hin) (hr.unlisted type')
  · intro type'
    have hzero : s.stack.countP (Frame.adds id) = 0 :=
      List.countP_eq_zero.mpr fun frame hin => by simp [(hr.alone hin).1]
    rw [hraw, List.count_eq_zero.mpr (hr.unlisted type'), Emitter.push, List.countP_cons, hzero]
    split <;> omega
  · intro frame hin hadds
    refine ⟨?_, hmentions⟩
    rcases List.mem_cons.mp hin with rfl | hin
    · exact ⟨type, prepend, rfl, hr.type⟩
    · simp [(hr.alone hin).1] at hadds
  · exact fun hin hm => (hmentions _ hin hm).elim
  · exact fun hin hw => (hmentions _ hin hw.mentions).elim
  · exact List.pairwise_cons.mpr ⟨fun below hin hw => ((hr.alone hin).2 hw.mentions).elim, h.nested⟩
  · intro hf
    cases hr.fired.symm.trans hf

lemma _addListener (hr : s.Ready id type) (h : s.Tracked id) (hc : s.Consistent) (prepend : Bool) :
    (s._addListener type (.wrapper id) prepend).Tracked id := by
  unfold Emitter._addListener
  split
  · exact (hr.push h prepend).emit _ _
  · exact hr.addListener h hc prepend

end Ready

namespace Tracked

/-- A wrapper that is not made is nowhere. -/
lemma unknown (h : s.Tracked id) (hnone : s.typeOf id = none) :
    (∀ type, .wrapper id ∉ s.rawListeners type) ∧ s.hasFired id = false ∧
      ∀ frame ∈ s.stack, frame.adds id = false ∧ ¬frame.Mentions id := by
  refine ⟨fun type hin => ?_, ?_, fun frame hin => ⟨?_, fun hm => ?_⟩⟩
  · cases hnone.symm.trans (h.listed hin)
  · rw [typeOf, Option.map_eq_none_iff] at hnone
    simp [hasFired, hnone]
  · by_contra hadds
    obtain ⟨⟨type, prepend, -, ht⟩, -⟩ := h.adding hin (by simpa using hadds)
    cases hnone.symm.trans ht
  · simpa [hnone] using h.known hin hm

/-- `once` makes a new wrapper. -/
lemma once_call (h : ∀ id, s.Tracked id) (hc : s.Consistent) (type : EventType) (listener : φ) (prepend : Bool)
    (id : Nat) : (s.once type listener prepend).Tracked id := by
  let t : Emitter φ := { s with wraps := s.wraps ++ [⟨type, listener, false⟩] }
  have hlists : SameLists s t := ⟨rfl, rfl, rfl⟩
  have hraw := hlists.rawListeners
  have hct := hlists.consistent hc
  by_cases hid : id = s.wraps.length
  · have hnone : s.typeOf id = none := by simp [typeOf, hid]
    obtain ⟨hunlisted, hfired, halone⟩ := (h id).unknown hnone
    have htype : t.typeOf id = some type := by simp [typeOf, t, hid]
    have hfired' : t.hasFired id = false := by simp [hasFired, t, hid]
    have hr : t.Ready id type := ⟨htype, fun type' => by rw [hraw]; exact hunlisted type', halone _, hfired'⟩
    have ht : t.Tracked id := by
      constructor
      · rw [hfired', ← hfired]
        exact (h id).called
      · exact fun hin => absurd (hraw _ ▸ hin) (hunlisted _)
      · intro type'
        rw [hraw]
        exact (h id).single type'
      · exact fun hin hadds => by simp [(halone _ hin).1] at hadds
      · exact fun hin hm => ((halone _ hin).2 hm).elim
      · exact fun hin hw => ((halone _ hin).2 hw.mentions).elim
      · exact (h id).nested
      · simp [hfired']
    rw [Emitter.once, ← hid]
    exact hr._addListener ht hct prepend
  · have hwraps : t.wraps[id]? = s.wraps[id]? := by
      rcases lt_or_gt_of_ne hid with hlt | hgt
      · exact List.getElem?_append_left hlt
      · rw [List.getElem?_eq_none (Nat.le_of_lt hgt)]
        exact List.getElem?_eq_none (by simpa [t] using hgt)
    have ht : t.Tracked id := (h id).mono rfl (by rw [typeOf, typeOf, hwraps]) (by rw [hasFired, hasFired, hwraps])
      (fun type' => by rw [hraw]) (.refl _)
    exact ht._addListener hct (by simpa using Ne.symm hid) type prepend

/-! ### A wrapper is called -/

lemma matchesFn_wrapper {g : Fn φ} : s.matchesFn (.wrapper id) g = true ↔ g = .wrapper id := by
  cases g with
  | user f => simp [matchesFn, listenerOf]
  | wrapper id' => simp [matchesFn, listenerOf]

/-- The wrapper is off the lists, and begins to wait. -/
lemma wait (h : s.Tracked id) {w : Wrap φ} (hw : s.wraps[id]? = some w) (hfired : w.fired = false)
    (hno : ∀ type, .wrapper id ∉ s.rawListeners type)
    (hfree : ∀ below ∈ s.stack, below.adds id = false ∧ ¬below.Waits id) (args : Args φ) :
    (s.push (.wrapper id args)).Tracked id :=
  h.on_top rfl (fun _ => ⟨by simp [hasFired, hw, hfired], hno⟩) fun _ => ⟨by simp [typeOf, hw], hfree⟩

/-- The wrapper is called for the first time: its removal begins. -/
lemma first (h : s.Tracked id) (hc : s.Consistent) {w : Wrap φ} (hw : s.wraps[id]? = some w)
    (hfired : w.fired = false) (hfree : ∀ below ∈ s.stack, below.adds id = false ∧ ¬below.Waits id)
    (args : Args φ) : ((s.push (.wrapper id args)).removeListener w.type (.wrapper id)).Tracked id := by
  have hraw := (SameLists.push s (.wrapper id args)).rawListeners
  have htype : ∀ type, .wrapper id ∈ s.rawListeners type → type = w.type := fun type hin => by
    simpa [typeOf, hw, eq_comm] using h.listed hin
  rcases (hc.push (.wrapper id args)).removeListener_cases w.type (.wrapper id) with
    ⟨hs, hno⟩ | ⟨s', p, g, listener, hp, hmatch, hremoved, hs⟩
  · rw [hs]
    refine h.wait hw hfired (fun type hin => ?_) hfree args
    obtain rfl := htype type hin
    exact Bool.false_ne_true ((hno _ (hraw _ ▸ hin)).symm.trans (matchesFn_wrapper.mpr rfl))
  · rw [hs]
    obtain rfl := matchesFn_wrapper.mp hmatch
    let t : Emitter φ := { s' with stack := s.stack }
    have hs' : s' = t.push (.wrapper id args) := by
      rw [Emitter.push, ← show s'.stack = .wrapper id args :: s.stack from hremoved.stack]
    have htraw : ∀ type, t.rawListeners type = s'.rawListeners type := (⟨rfl, rfl, rfl⟩ : SameLists s' t).rawListeners
    have hsub : ∀ type, (t.rawListeners type).Sublist (s.rawListeners type) := fun type => by
      rw [htraw, ← hraw]
      exact (hremoved.shrinks (hc.push _)).sublist type
    have hno : ∀ type, .wrapper id ∉ t.rawListeners type := by
      intro type hin
      obtain rfl := htype type ((hsub type).subset hin)
      rw [htraw, hremoved.here, hraw] at hin
      exact not_mem_eraseIdx (hraw w.type ▸ hp) (le_trans (Nat.le_add_right _ _) (h.single w.type)) hin
    have ht : t.Tracked id := h.mono (by rw [show t.calls = s.calls from hremoved.calls]) (hremoved.typeOf id) (hremoved.hasFired id)
      (fun type => (hsub type).count_le _) (.refl _)
    rw [hs']
    exact (ht.wait ((congrArg (·[id]?) hremoved.wraps).trans hw) hfired hno hfree args).emitRemoved _ _

/-- A function of a list is called, of which an emission said that it may be. -/
lemma apply (h : s.Tracked id) (hc : s.Consistent)
    (hfree : fn = .wrapper id → ∀ below ∈ s.stack, below.adds id = false ∧ ¬below.Waits id) (args : Args φ) :
    (s.apply fn args).Tracked id := by
  cases fn with
  | user f =>
    have hpush : (s.push .user).Tracked id := h.push rfl not_false
    exact hpush.mono (by simp [Emitter.apply, Emitter.push]) rfl rfl (fun _ => le_rfl) (.refl _)
  | wrapper id' =>
    simp only [Emitter.apply]
    split
    · exact h
    · rename_i w hw
      split
      · exact h
      · rename_i hfired
        by_cases hid : id' = id
        · subst hid
          exact h.first hc hw (by simpa using hfired) (hfree rfl) args
        · have hpush : (s.push (.wrapper id' args)).Tracked id := h.push rfl hid
          exact hpush.removeListener (hc.push _) w.type _

/-- A wrapper goes on behind the event of its removal: it is fired, and the listener is called. -/
lemma fire (h : ∀ id, s.Tracked id) {below : List (Frame φ)} (hstack : s.stack = .wrapper id args :: below)
    (i : Input φ) (id' : Nat) : (s.resume (.wrapper id args) below i).Tracked id' := by
  generalize ht : s.resume (.wrapper id args) below i = t
  have hcalls : t.calls = s.calls ++ [⟨.wrapper id, args, below.length⟩] := ht ▸ rfl
  have hwraps : t.wraps = s.wraps.modify id fun w => { w with fired := true } := ht ▸ rfl
  have htstack : t.stack = .user :: below := ht ▸ rfl
  have hlists : SameLists s t := by
    subst ht
    exact ⟨rfl, rfl, rfl⟩
  have hpush : ({ s with stack := below }.push .user).Tracked id' :=
    ((h id').withStack (hstack ▸ List.sublist_cons_self _ _)).push rfl not_false
  have hpop : ({ s with stack := .user :: below } : Emitter φ).Tracked id' := hpush
  by_cases hid : id = id'
  · subst hid
    have hin : Frame.wrapper id args ∈ s.stack := by simp [hstack]
    obtain ⟨hfired, hno⟩ := (h id).waiting hin rfl
    have hlt : id < s.wraps.length := by simpa [typeOf] using (h id).known hin rfl
    have hw := List.getElem?_eq_getElem hlt
    have htype : t.typeOf id = s.typeOf id := by simp [typeOf, hwraps, hw]
    have hadds : ∀ frame ∈ t.stack, frame.adds id = false := by
      intro frame hframe
      rcases List.mem_cons.mp (htstack ▸ hframe) with rfl | hframe
      · rfl
      · by_contra hadds
        exact ((h id).adding (hstack ▸ List.mem_cons_of_mem _ hframe) (by simpa using hadds)).2 _ hin rfl
    have hnested := (List.pairwise_cons.mp (hstack ▸ (h id).nested)).1
    have hwaits : ∀ frame ∈ t.stack, ¬frame.Waits id := by
      intro frame hframe hw
      rcases List.mem_cons.mp (htstack ▸ hframe) with rfl | hframe
      · exact hw
      · exact hnested frame hframe hw rfl
    constructor
    · rw [hcalls, List.countP_append, (h id).called, hfired]
      simp [hasFired, hwraps, hw]
    · intro type hin
      exact absurd (hlists.rawListeners type ▸ hin) (hno type)
    · intro type
      rw [hlists.rawListeners, htstack]
      exact hpop.single type
    · intro frame hframe hadds'
      simp [hadds frame hframe] at hadds'
    · intro frame hframe hm
      rw [htype]
      exact hpop.known (htstack ▸ hframe) hm
    · intro frame hframe hw
      exact (hwaits frame hframe hw).elim
    · exact htstack ▸ hpop.nested
    · intro _
      refine ⟨fun type => ?_, hadds⟩
      rw [hlists.rawListeners]
      exact hno type
  · have hw : t.wraps[id']? = s.wraps[id']? := by simp [hwraps, hid]
    refine hpop.mono ?_ (by simp only [typeOf, hw]) (by simp only [hasFired, hw]) (fun type => ?_) (htstack ▸ .refl _)
    · simp [hcalls, hid]
    · rw [hlists.rawListeners]
      exact le_rfl

lemma step (h : ∀ id, s.Tracked id) (hc : s.Consistent) (i : Input φ) (id : Nat) : (s.step i).Tracked id := by
  have hprogram : (s.program i).Tracked id := by
    cases i with
    | call op =>
      cases op with
      | on type listener prepend => exact (h id)._addListener hc (by simp) type prepend
      | once type listener prepend => exact once_call h hc type listener prepend id
      | removeListener type listener => exact (h id).removeListener hc type listener
      | removeAllListeners type => exact (h id).removeAllListeners hc type
      | emit type args => exact (h id).emit type _
    | ret => exact (h id).withStack (List.tail_sublist _)
    | throw => exact ((h id).withStack (List.tail_sublist _)).raise
  unfold Emitter.step
  split
  · exact hprogram
  · rename_i frame below hstack
    have ht : ∀ id, { s with stack := below }.Tracked id := fun id =>
      (h id).withStack (hstack ▸ List.sublist_cons_self _ _)
    have hpush : ∀ frame : Frame φ, frame.removes = true → ({ s with stack := below }.push frame).Tracked id :=
      fun frame hframe => (ht id).push (by cases frame <;> simp_all [Frame.removes, Frame.adds])
        (by cases frame <;> simp_all [Frame.removes, Frame.Mentions])
    have hct := hc.withStack below
    cases frame with
    | user => exact hprogram
    | emit type args rest =>
      cases rest with
      | nil => exact ht id
      | cons fn rest =>
        have hmem : Frame.emit type args (fn :: rest) ∈ s.stack := by simp [hstack]
        have hnested := (List.pairwise_cons.mp (hstack ▸ (h id).nested)).1
        have hfree : .wrapper id ∈ fn :: rest → ∀ frame ∈ below, frame.adds id = false ∧ ¬frame.Waits id := by
          intro hm frame hframe
          refine ⟨?_, fun hw => hnested frame hframe hw hm⟩
          by_contra hadds
          exact ((h id).adding (hstack ▸ List.mem_cons_of_mem _ hframe) (by simpa using hadds)).2 _ hmem hm
        have hpush : ({ s with stack := below }.push (.emit type args rest)).Tracked id :=
          (ht id).on_top rfl (fun hw => hw.elim) fun hm =>
            ⟨(h id).known hmem (List.mem_cons_of_mem _ hm), hfree (List.mem_cons_of_mem _ hm)⟩
        refine hpush.apply (hct.push _) (fun hfn frame hframe => ?_) args
        rcases List.mem_cons.mp hframe with rfl | hframe
        · exact ⟨rfl, not_false⟩
        · exact hfree (hfn ▸ List.mem_cons_self) frame hframe
    | wrapper id' args => exact fire h hstack i id
    | add type fn prepend =>
      have hmem : Frame.add type fn prepend ∈ s.stack := by simp [hstack]
      by_cases hfn : fn = .wrapper id
      · subst hfn
        have hadds : (Frame.add type (.wrapper id) prepend : Frame φ).adds id = true := by simp [Frame.adds]
        obtain ⟨⟨type', prepend', heq, htype⟩, hno⟩ := (h id).adding hmem hadds
        cases heq
        have hcount : ∀ type', (s.rawListeners type').count (.wrapper id) + (below.countP (Frame.adds id) + 1) ≤ 1 := by
          intro type'
          have := (h id).single type'
          rwa [hstack, List.countP_cons_of_pos hadds] at this
        have hr : ({ s with stack := below } : Emitter φ).Ready id type := by
          refine ⟨htype, fun type' hin => ?_, fun {frame} hin => ⟨?_, ?_⟩, ?_⟩
          · have h1 := List.count_pos_iff.mpr hin
            have h2 := hcount type'
            change 0 < (s.rawListeners type').count _ at h1
            omega
          · have h2 := hcount type
            have h3 : below.countP (Frame.adds id) = 0 := by omega
            simpa using List.countP_eq_zero.mp h3 frame hin
          · exact hno frame (hstack ▸ List.mem_cons_of_mem _ hin)
          · by_contra hfired
            have := ((h id).spent (by simpa [hasFired] using hfired)).2 _ hmem
            simp [hadds] at this
        exact hr.addListener (ht id) hct prepend
      · exact (ht id).addListener hct hfn type prepend
    | removeKeys keys =>
      cases keys with
      | nil => exact (hpush .reset rfl).removeAllListeners (hct.push _) (some .removeListener)
      | cons key keys =>
        simp only [resume]
        split
        · exact hpush _ rfl
        · exact (hpush _ rfl).removeAllListeners (hct.push _) (some key)
    | reset => exact (ht id).shrinks (shrinks_clear _)
    | removeArray type a i =>
      cases i with
      | zero => exact ht id
      | succ i =>
        simp only [resume]
        split
        · exact (ht id).raise
        · exact (hpush _ rfl).removeListener (hct.push _) type _

end Tracked

end Emitter

end LowJs.Events
