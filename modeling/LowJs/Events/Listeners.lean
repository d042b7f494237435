import LowJs.Core.Associations
import LowJs.Events.Emitter

/-!
# What the methods do to the lists

Under a type stands a function, an array, or nothing, and `_eventsCount` is counted beside it. `Consistent` is
what the methods rely on in that: then the lists that `rawListeners` shows change as one expects. What is said
here of a method ends with the event that it emits, if it emits one.
-/

namespace LowJs.Events

/-- The loops of `removeAllListeners`. -/
def Frame.removes {φ : Type*} : Frame φ → Bool
  | .removeKeys _ | .reset | .removeArray .. => true
  | _ => false

namespace Emitter

variable {φ : Type*} {s s' : Emitter φ} {type type' : EventType} {fn g : Fn φ} {frame : Frame φ} {a p : Nat}

/-! ### What does not touch the lists -/

section
variable (s type)

/-- An emission gives the exception, pushes the listeners, or does nothing. -/
lemma emit_cases (args : Args φ) :
    s.emit type args = s.raise ∨ s.emit type args = s.push (.emit type args (s.rawListeners type)) ∨
      s.emit type args = s := by
  unfold emit rawListeners
  cases s.handler type with
  | none => by_cases herror : type = .error <;> simp [herror]
  | some h => simp

lemma emitRemoved_cases (listener : Fn φ) :
    s.emitRemoved type listener = s.emit .removeListener (.about type listener) ∨
      s.emitRemoved type listener = s := by
  unfold emitRemoved
  split <;> simp

end

/-! ### The handlers -/

lemma handler_setHandler (s : Emitter φ) (h : Handler φ) :
    (s.setHandler type h).handler type' =
      if type' = type then (s.handler type').map fun _ => h else s.handler type' := lookup_replace ..

lemma handler_deleteHandler (s : Emitter φ) :
    (s.deleteHandler type).handler type' = if type' = type then none else s.handler type' := lookup_delete ..

lemma rawListeners_none (h : s.handler type = none) : s.rawListeners type = [] := by simp [rawListeners, h]

lemma rawListeners_some {h : Handler φ} (hs : s.handler type = some h) : s.rawListeners type = s.listOf h := by
  simp [rawListeners, hs]

/-- What the methods rely on: `_eventsCount` counts the types, an array has two functions at least, and no two
types have the same array. -/
structure Consistent (s : Emitter φ) : Prop where
  keys : (s._events.map Prod.fst).Nodup
  count : s._eventsCount = s._events.length
  long {type : EventType} {a : Nat} : s.handler type = some (.array a) → 2 ≤ (s.listOf (.array a)).length
  apart {type type' : EventType} {a : Nat} : s.handler type = some (.array a) →
    s.handler type' = some (.array a) → type' = type

lemma consistent_new : (new : Emitter φ).Consistent := by
  constructor <;> simp [new, handler]

/-- The state with the same lists. -/
structure SameLists (s s' : Emitter φ) : Prop where
  events : s'._events = s._events
  count : s'._eventsCount = s._eventsCount
  arrays : s'.arrays = s.arrays

namespace SameLists

lemma rawListeners (h : SameLists s s') (type : EventType) : s'.rawListeners type = s.rawListeners type := by
  simp only [Emitter.rawListeners, handler, funext fun h' : Handler φ => show s'.listOf h' = s.listOf h' by
    cases h' <;> simp [listOf, h.arrays], h.events]

lemma consistent (h : SameLists s s') (hs : s.Consistent) : s'.Consistent where
  keys := h.events ▸ hs.keys
  count := by rw [h.count, h.events, hs.count]
  long := by
    simp only [handler, listOf, h.events, h.arrays]
    exact hs.long
  apart := by
    simp only [handler, h.events]
    exact hs.apart

lemma push (s : Emitter φ) (frame : Frame φ) : SameLists s (s.push frame) := ⟨rfl, rfl, rfl⟩

lemma raise (s : Emitter φ) : SameLists s s.raise := ⟨rfl, rfl, rfl⟩

lemma emit (s : Emitter φ) (type : EventType) (args : Args φ) : SameLists s (s.emit type args) := by
  rcases s.emit_cases type args with h | h | h <;> rw [h]
  · exact raise s
  · exact push s _
  · exact ⟨rfl, rfl, rfl⟩

lemma emitRemoved (s : Emitter φ) (type : EventType) (listener : Fn φ) :
    SameLists s (s.emitRemoved type listener) := by
  rcases s.emitRemoved_cases type listener with h | h <;> rw [h]
  · exact emit s _ _
  · exact ⟨rfl, rfl, rfl⟩

end SameLists

namespace Consistent

lemma valid (h : s.Consistent) (hs : s.handler type = some (.array a)) : a < s.arrays.length := by
  by_contra ha
  have hlong := h.long hs
  simp [listOf, List.getElem?_eq_none (Nat.not_lt.mp ha)] at hlong

end Consistent

/-- What stands under the other types stays as it is, and what stands under this one is as it should be. -/
structure ChangesAt (s s' : Emitter φ) (type : EventType) : Prop where
  keys : (s'._events.map Prod.fst).Nodup
  count : s'._eventsCount = s'._events.length
  others {type' : EventType} : type' ≠ type → s'.handler type' = s.handler type'
  lists {type' : EventType} {a : Nat} : type' ≠ type → s.handler type' = some (.array a) →
    s'.listOf (.array a) = s.listOf (.array a)
  long {a : Nat} : s'.handler type = some (.array a) → 2 ≤ (s'.listOf (.array a)).length
  own {type' : EventType} {a : Nat} : s'.handler type = some (.array a) → type' ≠ type →
    s.handler type' ≠ some (.array a)

namespace ChangesAt

lemma rawListeners (h : ChangesAt s s' type) (hne : type' ≠ type) :
    s'.rawListeners type' = s.rawListeners type' := by
  unfold Emitter.rawListeners
  rw [h.others hne]
  cases hs : s.handler type' with
  | none => rfl
  | some handler =>
    cases handler with
    | single g => rfl
    | array a => simp [h.lists hne hs]

lemma consistent (h : ChangesAt s s' type) (hs : s.Consistent) : s'.Consistent where
  keys := h.keys
  count := h.count
  long := by
    intro type' a ha
    by_cases hne : type' = type
    · exact h.long (hne ▸ ha)
    · rw [h.others hne] at ha
      rw [h.lists hne ha]
      exact hs.long ha
  apart := by
    intro t t' a ht ht'
    by_cases hne : t = type
    · by_contra hne'
      subst hne
      exact h.own ht hne' (h.others hne' ▸ ht')
    · by_cases hne' : t' = type
      · exact absurd (h.others hne ▸ ht) (h.own (hne' ▸ ht') hne)
      · exact hs.apart (h.others hne ▸ ht) (h.others hne' ▸ ht')

end ChangesAt

/-! ### What an addition does to the handlers -/

/-- The state in which a handler comes to the types, as `_addListener` does it. -/
def insertHandler (s : Emitter φ) (type : EventType) (h : Handler φ) : Emitter φ :=
  { s with _events := s._events ++ [(type, h)], _eventsCount := s._eventsCount + 1 }

/-- The array `a` gets other functions. -/
def setArray (s : Emitter φ) (a : Nat) (list : List (Fn φ)) : Emitter φ := { s with arrays := s.arrays.set a list }

/-- A new array stands under the type. -/
def newArray (s : Emitter φ) (type : EventType) (list : List (Fn φ)) : Emitter φ :=
  { s with arrays := s.arrays ++ [list] }.setHandler type (.array s.arrays.length)

lemma handler_insertHandler (s : Emitter φ) (hs : s.handler type = none) (h : Handler φ) (type' : EventType) :
    (s.insertHandler type h).handler type' = if type' = type then some h else s.handler type' := by
  rw [handler, insertHandler, List.lookup_append]
  by_cases ht : type' = type
  · rw [ht, show s._events.lookup type = none from hs]
    simp
  · simp [ht, lookup_cons_ite, handler]

lemma handler_newArray (s : Emitter φ) (type type' : EventType) (list : List (Fn φ)) :
    (s.newArray type list).handler type' =
      if type' = type then (s.handler type').map fun _ => .array s.arrays.length else s.handler type' :=
  lookup_replace ..

lemma listOf_setArray (ha : a < s.arrays.length) (list : List (Fn φ)) (a' : Nat) :
    (s.setArray a list).listOf (.array a') = if a' = a then list else s.listOf (.array a') := by
  by_cases h : a' = a
  · simp [setArray, listOf, h, ha]
  · simp [setArray, listOf, h, List.getElem?_set_ne (Ne.symm h)]

lemma listOf_newArray (s : Emitter φ) (type : EventType) (list : List (Fn φ)) (a' : Nat) :
    (s.newArray type list).listOf (.array a') = if a' = s.arrays.length then list else s.listOf (.array a') := by
  by_cases h : a' = s.arrays.length
  · simp [newArray, setHandler, listOf, h]
  · rcases lt_or_gt_of_ne h with h' | h'
    · simp [newArray, setHandler, listOf, h, List.getElem?_append_left h']
    · have h1 : (s.arrays ++ [list])[a']? = none := List.getElem?_eq_none (by simpa using h')
      simp [newArray, setHandler, listOf, h, List.getElem?_eq_none (Nat.le_of_lt h'), h1]

namespace Consistent

lemma changes_insert (h : s.Consistent) (hs : s.handler type = none) (fn : Fn φ) :
    ChangesAt s (s.insertHandler type (.single fn)) type where
  keys := by
    have hnot : type ∉ s._events.map Prod.fst := by
      intro hmem
      obtain ⟨p, hp, rfl⟩ := List.mem_map.mp hmem
      rw [handler, (lookup_eq_some_iff_mem (v := p.2) h.keys).mpr hp] at hs
      cases hs
    rw [insertHandler, List.map_append]
    exact List.nodup_append.mpr ⟨h.keys, by simp, by grind⟩
  count := by simp [insertHandler, h.count]
  others := fun hne => by rw [handler_insertHandler s hs, if_neg hne]
  lists := fun _ _ => rfl
  long := fun ha => by simp [handler_insertHandler s hs] at ha
  own := fun ha => by simp [handler_insertHandler s hs] at ha

lemma changes_newArray (h : s.Consistent) (hs : s.handler type = some (.single g)) {list : List (Fn φ)}
    (hlong : 2 ≤ list.length) : ChangesAt s (s.newArray type list) type where
  keys := by rw [newArray, setHandler, keys_replace]; exact h.keys
  count := by simp [newArray, setHandler, h.count]
  others := fun hne => by rw [handler_newArray, if_neg hne]
  lists := fun _ ha => by rw [listOf_newArray, if_neg (h.valid ha).ne]
  long := by
    intro a ha
    obtain rfl : s.arrays.length = a := by simpa [handler_newArray, hs] using ha
    rwa [listOf_newArray, if_pos rfl]
  own := by
    intro type' a ha hne hs'
    obtain rfl : s.arrays.length = a := by simpa [handler_newArray, hs] using ha
    exact absurd (h.valid hs') (lt_irrefl _)

lemma changes_setArray (h : s.Consistent) (hs : s.handler type = some (.array a)) {list : List (Fn φ)}
    (hlong : 2 ≤ list.length) : ChangesAt s (s.setArray a list) type where
  keys := h.keys
  count := h.count
  others := fun _ => rfl
  lists := by
    intro type' a' hne ha'
    rw [listOf_setArray (h.valid hs), if_neg]
    rintro rfl
    exact hne (h.apart hs ha')
  long := by
    intro a' ha'
    obtain rfl : a' = a := by simpa [show (s.setArray a list).handler type = s.handler type from rfl, hs, eq_comm] using ha'
    rwa [listOf_setArray (h.valid hs), if_pos rfl]
  own := fun ha hne hs' => hne (h.apart ha hs')

/-! ### A listener is added -/

lemma addListener (h : s.Consistent) (type : EventType) (fn : Fn φ) (prepend : Bool) :
    ChangesAt s (s.addListener type fn prepend) type ∧
      (s.addListener type fn prepend).rawListeners type =
        if prepend then fn :: s.rawListeners type else s.rawListeners type ++ [fn] := by
  cases hs : s.handler type with
  | none =>
    have hadd : s.addListener type fn prepend = s.insertHandler type (.single fn) := by
      simp [Emitter.addListener, hs, insertHandler]
    rw [hadd, rawListeners_none hs]
    refine ⟨h.changes_insert hs fn, ?_⟩
    rw [rawListeners_some (h := .single fn) (by rw [handler_insertHandler s hs, if_pos rfl])]
    simp [listOf]
  | some handler =>
    cases handler with
    | single existing =>
      have hadd : s.addListener type fn prepend =
          s.newArray type (if prepend then [fn, existing] else [existing, fn]) := by
        simp [Emitter.addListener, hs, newArray]
      rw [hadd, rawListeners_some hs]
      refine ⟨h.changes_newArray hs (by cases prepend <;> simp), ?_⟩
      rw [rawListeners_some (h := .array s.arrays.length)]
      · rw [listOf_newArray, if_pos rfl]
        cases prepend <;> simp [listOf]
      · rw [handler_newArray, if_pos rfl, hs]
        rfl
    | array a =>
      have hadd : s.addListener type fn prepend = s.setArray a
          (if prepend then fn :: s.listOf (.array a) else s.listOf (.array a) ++ [fn]) := by
        simp [Emitter.addListener, hs, setArray, listOf, List.modify_eq_set, List.getElem?_eq_getElem (h.valid hs)]
      rw [hadd, rawListeners_some hs]
      refine ⟨h.changes_setArray hs ?_, ?_⟩
      · have := h.long hs
        cases prepend <;> simp <;> omega
      · rw [rawListeners_some (h := .array a) (by exact hs), listOf_setArray (h.valid hs), if_pos rfl]

end Consistent

/-! ### Listeners are removed -/

/-- The handler of a type leaves. -/
def dropHandler (s : Emitter φ) (type : EventType) : Emitter φ :=
  { s with _eventsCount := s._eventsCount - 1 }.deleteHandler type

/-- What goes on is as it was. -/
structure SameControl (s s' : Emitter φ) : Prop where
  stack : s'.stack = s.stack
  wraps : s'.wraps = s.wraps
  calls : s'.calls = s.calls

lemma sameControl_addListener (s : Emitter φ) (type : EventType) (fn : Fn φ) (prepend : Bool) :
    SameControl s (s.addListener type fn prepend) := by
  unfold addListener
  split <;> exact ⟨rfl, rfl, rfl⟩

/-- Functions of the lists are removed, and nothing else is done. -/
structure Shrinks (s s' : Emitter φ) : Prop extends SameControl s s' where
  consistent : s'.Consistent
  sublist (type : EventType) : (s'.rawListeners type).Sublist (s.rawListeners type)

/-- One of them is. -/
structure Removed (s s' : Emitter φ) (type : EventType) (p : Nat) : Prop extends SameControl s s' where
  changes : ChangesAt s s' type
  here : s'.rawListeners type = (s.rawListeners type).eraseIdx p

lemma Shrinks.refl (h : s.Consistent) : Shrinks s s := ⟨⟨rfl, rfl, rfl⟩, h, fun _ => .refl _⟩

lemma Removed.shrinks (h : Removed s s' type p) (hs : s.Consistent) : Shrinks s s' := by
  refine ⟨h.toSameControl, h.changes.consistent hs, fun type' => ?_⟩
  by_cases hne : type' = type
  · rw [hne, h.here]
    exact List.eraseIdx_sublist ..
  · rw [h.changes.rawListeners hne]

namespace Consistent

lemma changes_settle (h : s.Consistent) (hs : s.handler type = some (.array a)) (last : Fn φ) :
    ChangesAt s ((s.setArray a [last]).setHandler type (.single last)) type where
  keys := by rw [setHandler, keys_replace]; exact h.keys
  count := by simp [setHandler, setArray, h.count]
  others := fun hne => by rw [handler_setHandler, if_neg hne]; rfl
  lists := by
    intro type' a' hne ha'
    refine (listOf_setArray (h.valid hs) _ a').trans (if_neg ?_)
    rintro rfl
    exact hne (h.apart hs ha')
  long := fun ha => by simp [handler_setHandler] at ha
  own := fun ha => by simp [handler_setHandler] at ha

/-- A function leaves an array. -/
lemma removed_array (h : s.Consistent) (hs : s.handler type = some (.array a))
    (hp : (s.listOf (.array a))[p]? = some g) :
    Removed s ((s.setArray a ((s.listOf (.array a)).eraseIdx p)).settle type ((s.listOf (.array a)).eraseIdx p))
      type p := by
  have hlength : ((s.listOf (.array a)).eraseIdx p).length + 1 = (s.listOf (.array a)).length := by
    obtain ⟨hlt, -⟩ := List.getElem?_eq_some_iff.mp hp
    rw [List.length_eraseIdx, if_pos hlt]
    omega
  have hlong := h.long hs
  generalize hlist : (s.listOf (.array a)).eraseIdx p = list at hlength
  rcases list with _ | ⟨last, _ | ⟨g', list⟩⟩
  · simp at hlength
    omega
  · refine ⟨⟨rfl, rfl, rfl⟩, h.changes_settle hs last, ?_⟩
    rw [rawListeners_some hs, hlist, rawListeners_some (h := .single last)]
    · rfl
    · rw [settle, handler_setHandler, if_pos rfl]
      exact congrArg (Option.map _) hs
  · refine ⟨⟨rfl, rfl, rfl⟩, h.changes_setArray hs (by simp), ?_⟩
    rw [rawListeners_some hs, hlist, rawListeners_some (h := .array a) (by exact hs), settle.eq_2,
      listOf_setArray (h.valid hs), if_pos rfl]
    simp

lemma changes_dropHandler (h : s.Consistent) {handler : Handler φ} (hs : s.handler type = some handler) :
    ChangesAt s (s.dropHandler type) type where
  keys := (List.filter_sublist.map _).nodup h.keys
  count := by
    have hlength := length_delete h.keys hs
    simp only [dropHandler, deleteHandler, h.count]
    omega
  others := fun hne => by rw [dropHandler, handler_deleteHandler, if_neg hne]; rfl
  lists := fun _ _ => rfl
  long := fun ha => by simp [dropHandler, handler_deleteHandler] at ha
  own := fun ha => by simp [dropHandler, handler_deleteHandler] at ha

lemma dropHandler_eq (h : s.Consistent) {handler : Handler φ} (hs : s.handler type = some handler)
    (hcount : s._eventsCount - 1 = 0) : s.dropHandler type = { s with _events := [], _eventsCount := 0 } := by
  have hlength := length_delete h.keys hs
  have hzero : (s._events.filter fun p => p.1 ≠ type).length = 0 := by
    have := h.count
    omega
  rw [dropHandler, deleteHandler, List.eq_nil_of_length_eq_zero hzero, hcount]

lemma emitRemoved (h : s.Consistent) (type : EventType) (listener : Fn φ) :
    (s.emitRemoved type listener).Consistent := (SameLists.emitRemoved s type listener).consistent h

lemma push (h : s.Consistent) (frame : Frame φ) : (s.push frame).Consistent := (SameLists.push s frame).consistent h

lemma withStack (h : s.Consistent) (stack : List (Frame φ)) : { s with stack := stack }.Consistent :=
  SameLists.consistent (s := s) ⟨rfl, rfl, rfl⟩ h

lemma _addListener (h : s.Consistent) (type : EventType) (fn : Fn φ) (prepend : Bool) :
    (s._addListener type fn prepend).Consistent := by
  unfold Emitter._addListener
  split
  · exact (SameLists.emit _ _ _).consistent (h.push _)
  · exact (h.addListener type fn prepend).1.consistent h

lemma rawListeners_eq_nil (h : s.Consistent) : s.rawListeners type = [] ↔ s.handler type = none := by
  refine ⟨fun hnil => ?_, rawListeners_none⟩
  cases hs : s.handler type with
  | none => rfl
  | some handler =>
    rw [rawListeners_some hs] at hnil
    cases handler with
    | single g => simp [listOf] at hnil
    | array a =>
      have hlong := h.long hs
      simp [hnil] at hlong

lemma eventNames_eq (h : s.Consistent) : s.eventNames = s._events.map Prod.fst := by
  unfold Emitter.eventNames
  split
  · rfl
  · have hcount := h.count
    rw [List.eq_nil_of_length_eq_zero (by omega : s._events.length = 0)]
    rfl

lemma shrinks_dropHandler (h : s.Consistent) {handler : Handler φ} (hs : s.handler type = some handler) :
    Shrinks s (s.dropHandler type) := by
  have hchanges := h.changes_dropHandler hs
  refine ⟨⟨rfl, rfl, rfl⟩, hchanges.consistent h, fun type' => ?_⟩
  by_cases hne : type' = type
  · rw [hne, rawListeners_none (by rw [dropHandler, handler_deleteHandler, if_pos rfl])]
    exact List.nil_sublist _
  · rw [hchanges.rawListeners hne]

end Consistent

lemma listenerCount_eq (s : Emitter φ) (type : EventType) :
    s.listenerCount type = (s.rawListeners type).length := by
  unfold Emitter.listenerCount Emitter.rawListeners
  cases hs : s.handler type with
  | none => rfl
  | some handler => cases handler <;> rfl

lemma shrinks_clear (s : Emitter φ) : Shrinks s { s with _events := [], _eventsCount := 0 } := by
  refine ⟨⟨rfl, rfl, rfl⟩, ?_, fun type => ?_⟩
  · constructor <;> simp [handler]
  · rw [rawListeners_none rfl]
    exact List.nil_sublist _

variable [DecidableEq φ]

lemma position_some {list : List (Fn φ)} (h : s.position fn list = some p) :
    ∃ g, list[p]? = some g ∧ s.matchesFn fn g = true := by
  obtain ⟨k, hk, rfl⟩ := Option.map_eq_some_iff.mp h
  obtain ⟨hlt, hmatch, -⟩ := List.findIdx?_eq_some_iff_getElem.mp hk
  rw [List.length_reverse] at hlt
  rw [List.getElem_reverse] at hmatch
  exact ⟨_, List.getElem?_eq_getElem _, hmatch⟩

lemma position_none {list : List (Fn φ)} (h : s.position fn list = none) :
    ∀ g ∈ list, s.matchesFn fn g = false := by
  intro g hg
  rw [position, Option.map_eq_none_iff, List.findIdx?_eq_none_iff] at h
  exact h g (List.mem_reverse.mpr hg)

namespace Consistent

/-- `removeListener` does nothing where no function matches; else it removes one that does, and emits. -/
lemma removeListener_cases (h : s.Consistent) (type : EventType) (fn : Fn φ) :
    (s.removeListener type fn = s ∧ ∀ g ∈ s.rawListeners type, s.matchesFn fn g = false) ∨
      ∃ s' p g listener, (s.rawListeners type)[p]? = some g ∧ s.matchesFn fn g = true ∧
        Removed s s' type p ∧ s.removeListener type fn = s'.emitRemoved type listener := by
  cases hs : s.handler type with
  | none =>
    left
    simp [removeListener, hs, rawListeners_none hs]
  | some handler =>
    cases handler with
    | single g =>
      rw [rawListeners_some hs]
      by_cases hmatch : s.matchesFn fn g
      · right
        refine ⟨s.dropHandler type, 0, g, (s.listenerOf g).getD fn, rfl, hmatch, ⟨⟨rfl, rfl, rfl⟩,
          h.changes_dropHandler hs, ?_⟩, ?_⟩
        · rw [rawListeners_some hs, rawListeners_none (by rw [dropHandler, handler_deleteHandler, if_pos rfl])]
          rfl
        · by_cases hcount : s._eventsCount - 1 = 0
          · rw [h.dropHandler_eq hs hcount, removeListener, hs, Emitter.emitRemoved]
            simp only [hmatch, hcount, if_true]
            rfl
          · rw [removeListener, hs]
            simp [hmatch, hcount, dropHandler]
      · left
        rw [removeListener, hs]
        simp [hmatch, listOf]
    | array a =>
      rw [rawListeners_some hs]
      cases hp : s.position fn (s.listOf (.array a)) with
      | none =>
        left
        rw [removeListener, hs]
        exact ⟨by simp [hp], position_none hp⟩
      | some p =>
        right
        obtain ⟨g, hg, hmatch⟩ := position_some hp
        have hremove : s.removeListener type fn =
            ((s.setArray a ((s.listOf (.array a)).eraseIdx p)).settle type
              ((s.listOf (.array a)).eraseIdx p)).emitRemoved type
              (((s.listOf (.array a))[p]?.bind s.listenerOf).getD fn) := by
          rw [removeListener, hs]
          simp only [hp]
          rfl
        exact ⟨_, p, g, _, hg, hmatch, h.removed_array hs hg, hremove⟩

/-- What `removeListener` leaves, before it emits. -/
lemma removeListener_shrinks (h : s.Consistent) (type : EventType) (fn : Fn φ) :
    ∃ s', Shrinks s s' ∧
      (s.removeListener type fn = s' ∨ ∃ listener, s.removeListener type fn = s'.emitRemoved type listener) := by
  rcases h.removeListener_cases type fn with ⟨hs, -⟩ | ⟨s', p, g, listener, -, -, hremoved, hs⟩
  · exact ⟨s, .refl h, .inl hs⟩
  · exact ⟨s', hremoved.shrinks h, .inr ⟨listener, hs⟩⟩

/-- `removeAllListeners` removes at once, as `removeListener` does it, or in a loop that begins. -/
lemma removeAllListeners_shrinks (h : s.Consistent) (type : Option EventType) :
    ∃ s', Shrinks s s' ∧ (s.removeAllListeners type = s' ∨
      (∃ type' listener, s.removeAllListeners type = s'.emitRemoved type' listener) ∨
      ∃ frame, frame.removes = true ∧ s.removeAllListeners type = s'.push frame) := by
  unfold removeAllListeners
  split
  · cases type with
    | none => exact ⟨_, shrinks_clear s, .inl rfl⟩
    | some type =>
      by_cases hs : (s.handler type).isSome
      · obtain ⟨handler, hs'⟩ := Option.isSome_iff_exists.mp hs
        refine ⟨_, h.shrinks_dropHandler hs', .inl ?_⟩
        by_cases hcount : s._eventsCount - 1 = 0
        · simp [hs, hcount, h.dropHandler_eq hs' hcount]
        · simp [hs, hcount, dropHandler]
      · exact ⟨s, .refl h, .inl (by simp [hs])⟩
  · cases type with
    | none => exact ⟨s, .refl h, .inr (.inr ⟨_, rfl, rfl⟩)⟩
    | some type =>
      cases hs : s.handler type with
      | none => exact ⟨s, .refl h, .inl (by simp [hs])⟩
      | some handler =>
        cases handler with
        | single g =>
          obtain ⟨s', hshrinks, hremove⟩ := h.removeListener_shrinks type g
          refine ⟨s', hshrinks, ?_⟩
          simp only [hs]
          rcases hremove with hremove | ⟨listener, hremove⟩
          · exact .inl hremove
          · exact .inr (.inl ⟨type, listener, hremove⟩)
        | array a => exact ⟨s, .refl h, .inr (.inr ⟨.removeArray type a (s.listOf (.array a)).length, rfl, by simp only [hs]⟩)⟩

/-! ### Every step keeps the lists consistent -/

lemma removeListener (h : s.Consistent) (type : EventType) (fn : Fn φ) :
    (s.removeListener type fn).Consistent := by
  obtain ⟨s', hshrinks, hs | ⟨listener, hs⟩⟩ := h.removeListener_shrinks type fn
  · exact hs ▸ hshrinks.consistent
  · exact hs ▸ hshrinks.consistent.emitRemoved type listener

lemma removeAllListeners (h : s.Consistent) (type : Option EventType) :
    (s.removeAllListeners type).Consistent := by
  obtain ⟨s', hshrinks, hs | ⟨type', listener, hs⟩ | ⟨frame, -, hs⟩⟩ := h.removeAllListeners_shrinks type
  · exact hs ▸ hshrinks.consistent
  · exact hs ▸ hshrinks.consistent.emitRemoved type' listener
  · exact hs ▸ hshrinks.consistent.push frame

lemma call (h : s.Consistent) (op : Op φ) : (s.call op).Consistent := by
  cases op with
  | on type listener prepend => exact h._addListener type _ prepend
  | once type listener prepend =>
    exact _addListener (s := { s with wraps := s.wraps ++ [⟨type, listener, false⟩] })
      (SameLists.consistent (s := s) ⟨rfl, rfl, rfl⟩ h) type _ prepend
  | removeListener type listener => exact h.removeListener type listener
  | removeAllListeners type => exact h.removeAllListeners type
  | emit type args => exact (SameLists.emit s type _).consistent h

lemma apply (h : s.Consistent) (fn : Fn φ) (args : Args φ) : (s.apply fn args).Consistent := by
  cases fn with
  | user f => exact SameLists.consistent (s := s) ⟨rfl, rfl, rfl⟩ h
  | wrapper id =>
    simp only [Emitter.apply]
    split
    · exact h
    · split
      · exact h
      · exact (h.push _).removeListener _ _

lemma step (h : s.Consistent) (i : Input φ) : (s.step i).Consistent := by
  have hprogram : (s.program i).Consistent := by
    cases i with
    | call op => exact h.call op
    | ret => exact h.withStack _
    | throw => exact (SameLists.raise _).consistent (h.withStack _)
  unfold Emitter.step
  split
  · exact hprogram
  · rename_i frame below hstack
    cases frame with
    | user => exact hprogram
    | emit type args rest =>
      cases rest with
      | nil => exact h.withStack below
      | cons fn rest => exact ((h.withStack below).push _).apply fn args
    | wrapper id args => exact SameLists.consistent (s := s) ⟨rfl, rfl, rfl⟩ h
    | add type fn prepend => exact ((h.withStack below).addListener type fn prepend).1.consistent (h.withStack below)
    | removeKeys keys =>
      cases keys with
      | nil => exact ((h.withStack below).push .reset).removeAllListeners (some .removeListener)
      | cons key keys =>
        simp only [resume]
        split
        · exact (h.withStack below).push _
        · exact ((h.withStack below).push _).removeAllListeners _
    | reset => exact (shrinks_clear { s with stack := below }).consistent
    | removeArray type a i =>
      cases i with
      | zero => exact h.withStack below
      | succ i =>
        simp only [resume]
        split
        · exact (SameLists.raise _).consistent (h.withStack below)
        · exact ((h.withStack below).push _).removeListener _ _

lemma run (h : s.Consistent) (is : List (Input φ)) : ((emitter φ).run s is).Consistent :=
  Machine.run_invariant_of_step (M := emitter φ) (P := Consistent) (fun _ i hs => hs.step i) h is

end Consistent

/-- Whatever the program does, and whenever: `eventNames` gives each type with listeners once and no other, and
`_eventsCount` is their number. -/
theorem eventNames_listenerCount (is : List (Input φ)) :
    let s := (emitter φ).run new is
    s.eventNames.Nodup ∧ s._eventsCount = s.eventNames.length ∧
      ∀ type, type ∈ s.eventNames ↔ 0 < s.listenerCount type := by
  have h : ((emitter φ).run new is).Consistent := consistent_new.run is
  refine ⟨h.eventNames_eq ▸ h.keys, by rw [h.eventNames_eq, List.length_map, h.count], fun type => ?_⟩
  rw [listenerCount_eq, List.length_pos_iff, Ne, h.rawListeners_eq_nil, h.eventNames_eq]
  rw [← Ne, ← Option.isSome_iff_ne_none, handler, List.lookup_isSome_iff]
  simp

end Emitter

end LowJs.Events
