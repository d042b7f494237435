import LowJs.Core.Machine

/-!
# Pipes with several destinations

`Readable.pipe` and `Readable.unpipe` of `stream.js`: the listeners that a pipe installs, and the records
in `_readablePipes`. That is a plain object, so the record of a destination stands under the string the
destination is converted to. An emission of `data` goes over a copy of the listeners, and `write` of a
destination may call anything, so the emissions that have not ended are a stack.
-/

namespace LowJs.Pipes

variable {δ κ β : Type*}

/-- The functions that one call of `pipe` makes: `id` tells the calls apart, `ends` is the option `end`. -/
structure Pipe (δ : Type*) where
  id : Nat
  destination : δ
  ends : Bool
  deriving DecidableEq

/-- Where a listener is registered: at a destination, or at the source. -/
inductive Event (δ : Type*)
  | drain (d : δ)
  | data
  | finish
  | error
  | destinationError (d : δ)
  deriving DecidableEq

/-- The source. `listeners` are those of the pipes; `control` are the emissions of `data`, the innermost
first, with the listeners that are still to be called. The rest is history: the destinations that are
piped, as the calls say; what has been emitted, with the destinations piped at that time; and the calls
of `write` and of `end`. -/
structure Readable (δ κ β : Type*) where
  readablePipes : List (κ × Pipe δ)
  readableFlowing : Option Bool
  listeners : List (Event δ × Pipe δ)
  control : List (Nat × List (Pipe δ))
  calls : Nat
  piped : List δ
  emitted : List (β × List δ)
  written : List (Nat × δ)
  finished : List δ

def init : Readable δ κ β := ⟨[], none, [], [], 0, [], [], [], []⟩

/-- The listeners that `pipe` installs, in its order. -/
def Pipe.events (p : Pipe δ) : List (Event δ) :=
  [.drain p.destination, .data] ++ (if p.ends then [.finish] else []) ++
    [.error, .destinationError p.destination]

namespace Readable

section

variable [DecidableEq δ] [DecidableEq κ] (key : δ → κ)

/-- `this._readablePipes[destination]`. -/
def lookup (s : Readable δ κ β) (k : κ) : Option (Pipe δ) := s.readablePipes.lookup k

/-- `pipe`. -/
def pipe (s : Readable δ κ β) (d : δ) (ends : Bool) : Readable δ κ β :=
  let p : Pipe δ := ⟨s.calls, d, ends⟩
  let pipes := s.readablePipes.filter (·.1 ≠ key d) ++ [(key d, p)]
  { s with
    readablePipes := pipes
    listeners := s.listeners ++ p.events.map (·, p)
    readableFlowing := if pipes.length = 1 then some true else s.readableFlowing
    calls := s.calls + 1
    piped := s.piped ++ [d] }

/-- `unpipe`: what is removed at `d` and at the source are the functions of the record. -/
def unpipe (s : Readable δ κ β) (d : δ) : Readable δ κ β :=
  let s := { s with piped := s.piped.filter (· ≠ d) }
  match s.lookup (key d) with
  | none => s
  | some p =>
    let pipes := s.readablePipes.filter (·.1 ≠ key d)
    { s with
      readablePipes := pipes
      listeners := ({ p with destination := d } : Pipe δ).events.foldl
        (fun ls e => ls.erase (e, p)) s.listeners
      readableFlowing := if pipes.length = 0 then some false else s.readableFlowing }

/-- The listeners of an event, in the order of their registration. -/
def listening (s : Readable δ κ β) (e : Event δ) : List (Pipe δ) :=
  (s.listeners.filter (·.1 = e)).map (·.2)

/-- `emit('data', chunk)` up to the first listener. -/
def emitData (s : Readable δ κ β) (chunk : β) : Readable δ κ β :=
  { s with
    control := (s.emitted.length, s.listening .data) :: s.control
    emitted := s.emitted ++ [(chunk, s.piped)] }

/-- The next `data` listener: `write` returns `drain`. -/
def deliver (s : Readable δ κ β) (drain : Bool) : Readable δ κ β :=
  match s.control with
  | (k, p :: rest) :: control =>
    { s with
      control := (k, rest) :: control
      written := s.written ++ [(k, p.destination)]
      readableFlowing :=
        if !drain && s.readableFlowing = some true then some false
        else if drain && s.readableFlowing ≠ some true then some true
        else s.readableFlowing }
  | (_, []) :: control => { s with control := control }
  | [] => s

end

end Readable

/-- What can happen: the calls of the user, an emission of `data`, its next listener, the other events
that pipes listen to, and what makes the source flow or not. -/
inductive Input (δ β : Type*)
  | pipe (d : δ) (ends : Bool)
  | unpipe (d : δ)
  | data (chunk : β)
  | deliver (drain : Bool)
  | drain (d : δ)
  | finish
  | error
  | destinationError (d : δ)
  | pause
  | resume
  deriving DecidableEq

namespace Readable

variable [DecidableEq δ] [DecidableEq κ] (key : δ → κ)

def step (s : Readable δ κ β) : Input δ β → Readable δ κ β
  | .pipe d ends => s.pipe key d ends
  | .unpipe d => s.unpipe key d
  | .data chunk => if s.readableFlowing = some true then s.emitData chunk else s
  | .deliver drain => s.deliver drain
  | .drain d => if s.listening (.drain d) = [] then s else { s with readableFlowing := some true }
  | .finish => { s with finished := s.finished ++ (s.listening .finish).map (·.destination) }
  | .error => (s.listening .error).foldl (fun s p => s.unpipe key p.destination) s
  | .destinationError d =>
    (s.listening (.destinationError d)).foldl (fun s p => s.unpipe key p.destination) s
  | .pause => { s with readableFlowing := some false }
  | .resume => { s with readableFlowing := some true }

end Readable

def machine [DecidableEq δ] [DecidableEq κ] (key : δ → κ) :
    Machine (Readable δ κ β) (Input δ β) := ⟨Readable.step key⟩

namespace Readable

variable [DecidableEq δ] [DecidableEq κ] (key : δ → κ)

/-! ### What pipes promise -/

/-- How often an emission will still be written to a destination. -/
def waiting (s : Readable δ κ β) (k : Nat) (d : δ) : Nat :=
  (s.control.map fun f => if f.1 = k then (f.2.map (·.destination)).count d else 0).sum

/-- What is emitted is written once to each destination that is piped then. -/
def Delivered (s : Readable δ κ β) : Prop :=
  ∀ k c ds, s.emitted[k]? = some (c, ds) → ∀ d ∈ ds, s.written.count (k, d) + s.waiting k d = 1

/-- `unpipe` removes the listeners of a destination and no others. -/
def UnpipesOnly (s : Readable δ κ β) (d : δ) : Prop :=
  (s.unpipe key d).listeners = s.listeners.filter (·.2.destination ≠ d)

/-- The condition: a pipe is recorded where no record is, and `unpipe` finds the record of its own
destination, if any. -/
def Apart (s : Readable δ κ β) : Input δ β → Prop
  | .pipe d _ => ∀ r ∈ s.readablePipes, r.1 ≠ key d
  | .unpipe d => ∀ r ∈ s.readablePipes, r.1 = key d → r.2.destination = d
  | _ => True

instance (s : Readable δ κ β) : ∀ i, Decidable (s.Apart key i)
  | .pipe d _ => inferInstanceAs (Decidable (∀ r ∈ s.readablePipes, r.1 ≠ key d))
  | .unpipe d =>
    inferInstanceAs (Decidable (∀ r ∈ s.readablePipes, r.1 = key d → r.2.destination = d))
  | .data _ | .deliver _ | .drain _ | .finish | .error | .destinationError _ | .pause | .resume =>
    isTrue trivial

/-! ### The invariant -/

structure Inv (s : Readable δ κ β) : Prop where
  keys : ∀ r ∈ s.readablePipes, r.1 = key r.2.destination
  nodup : (s.readablePipes.map (·.1)).Nodup
  listeners : s.listeners = s.readablePipes.flatMap fun r => r.2.events.map (·, r.2)
  piped : s.piped = s.readablePipes.map (·.2.destination)
  control : ∀ f ∈ s.control, f.1 < s.emitted.length
  written : ∀ w ∈ s.written, w.1 < s.emitted.length
  delivered : s.Delivered

variable {key} {s : Readable δ κ β} {d : δ}

omit [DecidableEq κ] in
lemma inv_init : (init : Readable δ κ β).Inv key :=
  ⟨by simp [init], by simp [init], rfl, rfl, by simp [init], by simp [init],
    fun k c ds h => by simp [init] at h⟩

omit [DecidableEq κ] in
lemma Inv.destinations (h : s.Inv key) : (s.readablePipes.map (·.2.destination)).Nodup := by
  have hmap : s.readablePipes.map (·.1) = (s.readablePipes.map (·.2.destination)).map key := by
    rw [List.map_map]
    exact List.map_congr_left h.keys
  have hnodup := h.nodup
  rw [hmap] at hnodup
  exact hnodup.of_map key

omit [DecidableEq κ] in
lemma filter_events (rs : List (κ × Pipe δ)) (e : Event δ) :
    ((rs.flatMap fun r => r.2.events.map (·, r.2)).filter (·.1 = e)).map (·.2) =
      rs.flatMap fun r => (r.2.events.filter (· = e)).map fun _ => r.2 := by
  induction rs with
  | nil => rfl
  | cons r rs ih =>
    simp only [List.flatMap_cons, List.filter_append, List.map_append, ih, List.filter_map,
      List.map_map]
    rfl

omit [DecidableEq κ] in
/-- The listeners for `data` are those of the records. -/
lemma Inv.listening_data (h : s.Inv key) : s.listening .data = s.readablePipes.map (·.2) := by
  have hone : ∀ p : Pipe δ, (p.events.filter (· = .data)).map (fun _ => p) = [p] := by
    intro p
    cases hp : p.ends <;> simp [Pipe.events, hp]
  rw [listening, h.listeners, filter_events]
  simp only [hone]
  induction s.readablePipes with
  | nil => rfl
  | cons r rs ih => simp [ih]

omit [DecidableEq κ] in
lemma Inv.mem_listening (h : s.Inv key) {e : Event δ} {p : Pipe δ} (hp : p ∈ s.listening e) :
    ∃ r ∈ s.readablePipes, r.2 = p := by
  rw [listening, h.listeners, filter_events] at hp
  obtain ⟨r, hr, hp⟩ := List.mem_flatMap.mp hp
  obtain ⟨-, -, rfl⟩ := List.mem_map.mp hp
  exact ⟨r, hr, rfl⟩

/-- The listeners of one pipe are taken out. -/
lemma foldl_erase (p : Pipe δ) (es : List (Event δ)) {as : List (Event δ × Pipe δ)}
    (has : ∀ l ∈ as, l.2 ≠ p) (bs : List (Event δ × Pipe δ)) :
    es.foldl (fun ls e => ls.erase (e, p)) (as ++ (es.map (·, p) ++ bs)) = as ++ bs := by
  induction es with
  | nil => rfl
  | cons e es ih =>
    have hmem : (e, p) ∉ as := fun hm => has _ hm rfl
    simp only [List.foldl_cons, List.map_cons, List.cons_append]
    rw [List.erase_append_right _ hmem, List.erase_cons_head]
    exact ih

/-- What `unpipe` does with the record of its destination. -/
lemma unpipe_cases (h : s.Inv key) (hd : s.Apart key (.unpipe d)) :
    ((∀ r ∈ s.readablePipes, r.2.destination ≠ d) ∧
      (s.unpipe key d).readablePipes = s.readablePipes ∧ (s.unpipe key d).listeners = s.listeners) ∨
    ∃ as p bs, s.readablePipes = as ++ (key d, p) :: bs ∧ p.destination = d ∧
      (∀ r ∈ as ++ bs, r.2.destination ≠ d) ∧ (s.unpipe key d).readablePipes = as ++ bs ∧
      (s.unpipe key d).listeners = (as ++ bs).flatMap fun r => r.2.events.map (·, r.2) := by
  cases hl : s.lookup (key d) with
  | none =>
    have hne : ∀ r ∈ s.readablePipes, r.1 ≠ key d := by
      intro r hr heq
      have := List.lookup_eq_none_iff.mp hl r hr
      simp [heq] at this
    refine .inl ⟨fun r hr heq => hne r hr ((h.keys r hr).trans (congrArg key heq)), ?_, ?_⟩
    · simp only [unpipe]
      rw [show lookup { s with piped := s.piped.filter (· ≠ d) } (key d) = none from hl]
    · simp only [unpipe]
      rw [show lookup { s with piped := s.piped.filter (· ≠ d) } (key d) = none from hl]
  | some p =>
    obtain ⟨as, bs, heq, -⟩ := List.lookup_eq_some_iff.mp hl
    have hp : p.destination = d := hd (key d, p) (by rw [heq]; simp) rfl
    have hnodup := h.destinations
    rw [heq] at hnodup
    have hne : ∀ r ∈ as ++ bs, r.2.destination ≠ d := by
      intro r hr hrd
      have hmid := (hnodup.perm (List.perm_middle.map _))
      simp only [List.map_cons, List.nodup_cons] at hmid
      exact hmid.1 (List.mem_map.mpr ⟨r, hr, hrd.trans hp.symm⟩)
    have hkeys : ∀ r ∈ as ++ bs, r.1 ≠ key d := by
      have hk := h.nodup
      rw [heq] at hk
      intro r hr hrk
      have hmid := (hk.perm (List.perm_middle.map _))
      simp only [List.map_cons, List.nodup_cons] at hmid
      exact hmid.1 (List.mem_map.mpr ⟨r, hr, hrk⟩)
    have hfilter : s.readablePipes.filter (·.1 ≠ key d) = as ++ bs := by
      rw [heq, List.filter_append, List.filter_cons]
      simp only [ne_eq, not_true_eq_false, decide_false, Bool.false_eq_true, if_false]
      rw [← List.filter_append]
      exact List.filter_eq_self.mpr fun r hr => by simpa using hkeys r hr
    refine .inr ⟨as, p, bs, heq, hp, hne, ?_, ?_⟩
    · simp only [unpipe]
      rw [show lookup { s with piped := s.piped.filter (· ≠ d) } (key d) = some p from hl]
      exact hfilter
    · simp only [unpipe]
      rw [show lookup { s with piped := s.piped.filter (· ≠ d) } (key d) = some p from hl]
      have hsame : ({ p with destination := d } : Pipe δ) = p := by rw [← hp]
      simp only [hsame, h.listeners, heq, List.flatMap_append, List.flatMap_cons]
      refine foldl_erase p p.events (fun l hl' => ?_) _
      obtain ⟨r, hr, hl'⟩ := List.mem_flatMap.mp hl'
      obtain ⟨e, -, rfl⟩ := List.mem_map.mp hl'
      rintro rfl
      exact hne r (List.mem_append_left _ hr) hp

lemma unpipe_rest (s : Readable δ κ β) (d : δ) :
    (s.unpipe key d).piped = s.piped.filter (· ≠ d) ∧ (s.unpipe key d).control = s.control ∧
      (s.unpipe key d).emitted = s.emitted ∧ (s.unpipe key d).written = s.written := by
  unfold unpipe
  dsimp only
  split
  · exact ⟨rfl, rfl, rfl, rfl⟩
  · exact ⟨rfl, rfl, rfl, rfl⟩

omit [DecidableEq κ] in
lemma Delivered.congr {t : Readable δ κ β} (h : s.Delivered) (hc : t.control = s.control)
    (he : t.emitted = s.emitted) (hw : t.written = s.written) : t.Delivered := by
  intro k c ds hk d hd
  rw [hw, waiting, hc]
  exact h k c ds (he ▸ hk) d hd

omit [DecidableEq κ] in
lemma filter_destination {rs : List (κ × Pipe δ)} (hne : ∀ r ∈ rs, r.2.destination ≠ d) :
    (rs.flatMap fun r => r.2.events.map (·, r.2)).filter (·.2.destination ≠ d) =
      rs.flatMap fun r => r.2.events.map (·, r.2) := by
  refine List.filter_eq_self.mpr fun l hl => ?_
  obtain ⟨r, hr, hl⟩ := List.mem_flatMap.mp hl
  obtain ⟨e, -, rfl⟩ := List.mem_map.mp hl
  simpa using hne r hr

lemma Inv.unpipesOnly (h : s.Inv key) (hd : s.Apart key (.unpipe d)) : s.UnpipesOnly key d := by
  unfold UnpipesOnly
  rcases unpipe_cases h hd with ⟨hne, -, hl⟩ | ⟨as, p, bs, heq, hp, hne, -, hl⟩
  · rw [hl, h.listeners, filter_destination hne]
  · have hgone : (p.events.map (·, p)).filter (·.2.destination ≠ d) = [] := by
      refine List.filter_eq_nil_iff.mpr fun l hl => ?_
      obtain ⟨e, -, rfl⟩ := List.mem_map.mp hl
      simp [hp]
    have has := filter_destination (d := d) fun r hr => hne r (List.mem_append_left bs hr)
    have hbs := filter_destination (d := d) fun r hr => hne r (List.mem_append_right as hr)
    rw [hl, h.listeners, heq]
    simp only [List.flatMap_append, List.flatMap_cons, List.filter_append]
    rw [has, hbs, hgone, List.nil_append]

lemma Inv.unpipe (h : s.Inv key) (hd : s.Apart key (.unpipe d)) : (s.unpipe key d).Inv key := by
  obtain ⟨hpiped, hcontrol, hemitted, hwritten⟩ := @unpipe_rest _ _ _ _ _ key s d
  have hdel := h.delivered.congr hcontrol hemitted hwritten
  rcases unpipe_cases h hd with ⟨hne, hr, hl⟩ | ⟨as, p, bs, heq, hp, hne, hr, hl⟩
  · refine ⟨hr ▸ h.keys, hr ▸ h.nodup, ?_, ?_, ?_, ?_, hdel⟩
    · rw [hl, hr]
      exact h.listeners
    · rw [hpiped, hr, h.piped]
      refine List.filter_eq_self.mpr fun z hz => ?_
      obtain ⟨r, hr, rfl⟩ := List.mem_map.mp hz
      simpa using hne r hr
    · rw [hcontrol, hemitted]
      exact h.control
    · rw [hwritten, hemitted]
      exact h.written
  · have hsub : (as ++ bs).Sublist s.readablePipes := by
      rw [heq]
      exact List.Sublist.append_left (List.sublist_cons_self _ _) as
    refine ⟨?_, ?_, ?_, ?_, ?_, ?_, hdel⟩
    · rw [hr]
      exact fun r hr => h.keys r (hsub.subset hr)
    · rw [hr]
      exact h.nodup.sublist (hsub.map _)
    · rw [hl, hr]
    · rw [hpiped, hr, h.piped, heq]
      simp only [List.map_append, List.map_cons, List.filter_append]
      have hkeep : ∀ rs : List (κ × Pipe δ), (∀ r ∈ rs, r.2.destination ≠ d) →
          (rs.map (·.2.destination)).filter (· ≠ d) = rs.map (·.2.destination) := fun rs hrs =>
        List.filter_eq_self.mpr fun z hz => by
          obtain ⟨r, hr, rfl⟩ := List.mem_map.mp hz
          simpa using hrs r hr
      rw [hkeep as fun r hr => hne r (List.mem_append_left _ hr), List.filter_cons]
      simp only [hp, ne_eq, not_true_eq_false, decide_false, Bool.false_eq_true, if_false]
      rw [hkeep bs fun r hr => hne r (List.mem_append_right _ hr)]
    · rw [hcontrol, hemitted]
      exact h.control
    · rw [hwritten, hemitted]
      exact h.written

/-- The records of a source after `unpipe` are some of those before. -/
lemma unpipe_subset (h : s.Inv key) (hd : s.Apart key (.unpipe d)) :
    ∀ r ∈ (s.unpipe key d).readablePipes, r ∈ s.readablePipes := by
  rcases unpipe_cases h hd with ⟨-, hr, -⟩ | ⟨as, p, bs, heq, -, -, hr, -⟩
  · exact fun r hmem => hr ▸ hmem
  · intro r hmem
    rw [hr] at hmem
    rw [heq]
    rcases List.mem_append.mp hmem with hm | hm
    · exact List.mem_append_left _ hm
    · exact List.mem_append_right _ (List.mem_cons_of_mem _ hm)

/-- The listeners for errors take their own pipes away. -/
lemma Inv.unpipeAll {ps : List (Pipe δ)} (h : s.Inv key)
    (hps : ∀ p ∈ ps, s.Apart key (.unpipe p.destination)) :
    (ps.foldl (fun s p => s.unpipe key p.destination) s).Inv key := by
  induction ps generalizing s with
  | nil => exact h
  | cons p ps ih =>
    have hp := hps p List.mem_cons_self
    refine ih (h.unpipe hp) fun q hq r hr => ?_
    exact hps q (List.mem_cons_of_mem _ hq) r (unpipe_subset h hp r hr)

omit [DecidableEq κ] in
lemma Inv.apart_listening (h : s.Inv key) (e : Event δ) :
    ∀ p ∈ s.listening e, s.Apart key (.unpipe p.destination) := by
  intro p hp r hr hk
  obtain ⟨q, hq, rfl⟩ := h.mem_listening hp
  have heq : r = q := List.inj_on_of_nodup_map h.nodup hr hq (hk.trans (h.keys q hq).symm)
  rw [heq]

lemma Inv.pipe (h : s.Inv key) {ends : Bool} (hd : s.Apart key (.pipe d ends)) :
    (s.pipe key d ends).Inv key := by
  have hfilter : s.readablePipes.filter (·.1 ≠ key d) = s.readablePipes :=
    List.filter_eq_self.mpr fun r hr => by simpa using hd r hr
  have hr : (s.pipe key d ends).readablePipes =
      s.readablePipes ++ [(key d, ⟨s.calls, d, ends⟩)] := congrArg (· ++ _) hfilter
  refine ⟨?_, ?_, ?_, ?_, h.control, h.written, h.delivered.congr rfl rfl rfl⟩
  · rw [hr]
    intro r hmem
    rcases List.mem_append.mp hmem with hmem | hmem
    · exact h.keys r hmem
    · rw [List.mem_singleton.mp hmem]
  · rw [hr, List.map_append, List.map_singleton, List.nodup_append]
    refine ⟨h.nodup, List.nodup_singleton _, fun k hk k' hk' => ?_⟩
    obtain ⟨r, hmem, rfl⟩ := List.mem_map.mp hk
    rw [List.mem_singleton.mp hk']
    exact hd r hmem
  · rw [hr, List.flatMap_append, ← h.listeners]
    simp [Readable.pipe]
  · rw [hr, List.map_append, ← h.piped]
    rfl

/-! ### Emissions -/

omit [DecidableEq κ] in
lemma waiting_eq_zero {k : Nat} (h : ∀ f ∈ s.control, f.1 ≠ k) (d : δ) : s.waiting k d = 0 := by
  refine List.sum_eq_zero fun n hn => ?_
  obtain ⟨f, hf, rfl⟩ := List.mem_map.mp hn
  exact if_neg (h f hf)

omit [DecidableEq κ] in
lemma Inv.emitData (h : s.Inv key) (chunk : β) : (s.emitData chunk).Inv key := by
  refine ⟨h.keys, h.nodup, h.listeners, h.piped, ?_, ?_, ?_⟩
  · intro f hf
    simp only [Readable.emitData, List.length_append, List.length_singleton] at hf ⊢
    rcases List.mem_cons.mp hf with rfl | hf
    · exact Nat.lt_succ_self _
    · exact (h.control f hf).trans (Nat.lt_succ_self _)
  · intro w hw
    simp only [Readable.emitData, List.length_append, List.length_singleton]
    exact (h.written w hw).trans (Nat.lt_succ_self _)
  · intro k c ds hk d hd
    have hwait : (s.emitData chunk).waiting k d =
        (if s.emitted.length = k then (s.piped).count d else 0) + s.waiting k d := by
      simp only [waiting, Readable.emitData, List.map_cons, List.sum_cons, h.listening_data, h.piped,
        List.map_map]
      rfl
    rw [hwait]
    show s.written.count (k, d) + _ = 1
    simp only [Readable.emitData] at hk
    by_cases hlt : k < s.emitted.length
    · rw [List.getElem?_append_left hlt] at hk
      rw [if_neg (Nat.ne_of_gt hlt), Nat.zero_add]
      exact h.delivered k c ds hk d hd
    · -- the new emission: it waits for each destination, and nothing has been written
      have hkeq : k = s.emitted.length := by
        have hle := (List.getElem?_eq_some_iff.mp hk).1
        rw [List.length_append, List.length_singleton] at hle
        omega
      subst hkeq
      simp only [List.getElem?_concat_length, Option.some.injEq, Prod.mk.injEq] at hk
      obtain ⟨-, rfl⟩ := hk
      have hzero : s.written.count (s.emitted.length, d) = 0 :=
        List.count_eq_zero.mpr fun hm => absurd (h.written _ hm) (Nat.lt_irrefl _)
      rw [hzero, if_pos rfl, waiting_eq_zero fun f hf => (h.control f hf).ne]
      have hnodup := h.destinations
      rw [← h.piped] at hnodup
      rw [List.count_eq_one_of_mem hnodup hd]

omit [DecidableEq κ] in
lemma Inv.deliver (h : s.Inv key) (drain : Bool) : (s.deliver drain).Inv key := by
  unfold Readable.deliver
  split
  · next k p rest control hc =>
    have hk : k < s.emitted.length := h.control (k, p :: rest) (by rw [hc]; simp)
    refine ⟨h.keys, h.nodup, h.listeners, h.piped, ?_, ?_, ?_⟩
    · intro f hf
      rcases List.mem_cons.mp hf with rfl | hf
      · exact hk
      · exact h.control f (by rw [hc]; exact List.mem_cons_of_mem _ hf)
    · intro w hw
      rcases List.mem_append.mp hw with hw | hw
      · exact h.written w hw
      · rw [List.mem_singleton.mp hw]
        exact hk
    · intro k' c ds hk' d hd
      have hold := h.delivered k' c ds hk' d hd
      simp only [waiting, hc, List.map_cons, List.sum_cons, List.count_append, List.count_cons,
        List.count_nil] at hold ⊢
      by_cases heq : k = k'
      · subst heq
        by_cases hpd : p.destination = d
        · subst hpd
          simp at hold ⊢
          omega
        · simp [hpd] at hold ⊢
          omega
      · simp [heq] at hold ⊢
        omega
  · next k control hc =>
    refine ⟨h.keys, h.nodup, h.listeners, h.piped, fun f hf => ?_, h.written, ?_⟩
    · exact h.control f (by rw [hc]; exact List.mem_cons_of_mem _ hf)
    · intro k' c ds hk' d hd
      have hold := h.delivered k' c ds hk' d hd
      simpa [waiting, hc] using hold
  · exact h

lemma Inv.step (h : s.Inv key) {i : Input δ β} (hok : s.Apart key i) : (s.step key i).Inv key := by
  have hflow : ∀ b, ({ s with readableFlowing := b } : Readable δ κ β).Inv key := fun _ =>
    ⟨h.keys, h.nodup, h.listeners, h.piped, h.control, h.written, h.delivered⟩
  cases i with
  | pipe d ends => exact h.pipe hok
  | unpipe d => exact h.unpipe hok
  | data chunk =>
    simp only [Readable.step]
    split_ifs
    · exact h.emitData chunk
    · exact h
  | deliver drain => exact h.deliver drain
  | drain d =>
    simp only [Readable.step]
    split_ifs
    · exact h
    · exact hflow _
  | finish => exact ⟨h.keys, h.nodup, h.listeners, h.piped, h.control, h.written, h.delivered⟩
  | error => exact h.unpipeAll (h.apart_listening .error)
  | destinationError d => exact h.unpipeAll (h.apart_listening (.destinationError d))
  | pause | resume => exact hflow _

end Readable

end LowJs.Pipes
