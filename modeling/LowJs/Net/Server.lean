import LowJs.Core.Machine

/-!
# Servers and their connections

`Server` of `net.js` with the part of `Socket` that closes an accepted connection: `close`, `listen` and
the two callbacks of `native.listen`. What the native functions report arrives as an input of its own,
in any order.
-/

namespace LowJs.Net

/-- A server. `accepted` are the sockets that have been handed to `connection` and have not been closed,
`closing` those of them for which `native.close` has been called, and `fd` their descriptors; `lookups`,
`listens` and `nativeCloses` are the calls that have not reported, the last ones with the callback of
`close`. The rest is history: how often `close` has been emitted, and the calls of `close` with a
callback, by their numbers, and the calls of these callbacks. -/
structure Server where
  listening : Bool
  destroyed : Bool
  tryListen : Bool
  ref : Bool
  connections : Nat
  maxConnections : Option Nat
  accepted : List Nat
  closing : List Nat
  fd : Nat → Nat
  sockets : Nat
  lookups : Nat
  listens : Nat
  nativeCloses : List (Option Nat)
  closeEvents : Nat
  calls : Nat
  callbacks : List Nat
  called : List Nat

def init : Server :=
  ⟨false, false, false, false, 0, none, [], [], fun _ => 0, 0, 0, 0, [], 0, 0, [], []⟩

/-- What can happen: the calls of the user, with the option to look the host up, and what the native
functions report. -/
inductive Input
  | listen (lookup : Bool)
  | lookedUp (err : Bool)
  | listened (err : Bool)
  | accept (err : Bool) (fd : Nat)
  | destroySocket (id : Nat)
  | socketClosed (id : Nat) (err : Bool)
  | close (callback : Bool)
  | serverClosed
  | setMaxConnections (max : Option Nat)
  deriving DecidableEq

namespace Server

/-- `_listen` up to `native.listen`: `ref` throws where the server has been closed. -/
def listenNative (s : Server) : Server :=
  if s.destroyed then s else { s with ref := true, listens := s.listens + 1 }

/-- `listen`. -/
def listen (s : Server) (lookup : Bool) : Server :=
  if s.destroyed || s.listening || s.tryListen then s
  else
    let s := { s with tryListen := true }
    if lookup then { s with lookups := s.lookups + 1 } else s.listenNative

/-- The callback of `dns.lookup`. -/
def lookedUp (s : Server) (err : Bool) : Server :=
  if s.lookups = 0 then s
  else
    let s := { s with lookups := s.lookups - 1 }
    if err then { s with tryListen := false } else s.listenNative

/-- The first callback of `native.listen`. -/
def listened (s : Server) (err : Bool) : Server :=
  if s.listens = 0 then s
  else
    let s := { s with listens := s.listens - 1, tryListen := false }
    if err then { s with ref := false }
    else if s.destroyed then { s with nativeCloses := s.nativeCloses ++ [none] }
    else { s with listening := true }

/-- The second callback of `native.listen`, for a connection. -/
def accept (s : Server) (err : Bool) (fd : Nat) : Server :=
  if err then s
  else if s.destroyed || (s.maxConnections.any fun max => decide (max ≤ s.connections)) then s
  else { s with
    connections := s.connections + 1
    accepted := s.accepted ++ [s.sockets]
    fd := Function.update s.fd s.sockets fd
    sockets := s.sockets + 1 }

/-- `destroy` of a socket. The descriptor 0 is taken for none. -/
def destroySocket (s : Server) (id : Nat) : Server :=
  if id ∈ s.accepted ∧ id ∉ s.closing then
    if s.fd id ≠ 0 then { s with closing := s.closing ++ [id] }
    else { s with accepted := s.accepted.erase id }
  else s

/-- The callback of `native.close` in `destroy` of a socket. -/
def socketClosed (s : Server) (id : Nat) (err : Bool) : Server :=
  if id ∉ s.closing then s
  else
    let s := { s with closing := s.closing.erase id, accepted := s.accepted.erase id }
    if err then s
    else if s.connections ≠ 0 then
      let s := { s with connections := s.connections - 1 }
      if s.connections = 0 ∧ s.listening = false then { s with closeEvents := s.closeEvents + 1 } else s
    else s

/-- `close`. -/
def close (s : Server) (callback : Bool) : Server :=
  let id := s.calls
  let s := { s with
    calls := s.calls + 1
    callbacks := if callback then s.callbacks ++ [id] else s.callbacks }
  if s.destroyed then s
  else
    let s := if s.listening then
        { s with nativeCloses := s.nativeCloses ++ [if callback then some id else none] }
      else s
    let s := { s with ref := false, destroyed := true, listening := false }
    if s.connections = 0 then
      { s with
        closeEvents := s.closeEvents + 1
        called := if callback then s.called ++ [id] else s.called }
    else s

/-- The callback of `native.close` in `close`, or in `_listen`. -/
def serverClosed (s : Server) : Server :=
  match s.nativeCloses with
  | [] => s
  | callback :: rest => { s with nativeCloses := rest, called := s.called ++ callback.toList }

/-- A connection is only accepted for a server that listens or has been closed. -/
def step (s : Server) : Input → Server
  | .listen lookup => s.listen lookup
  | .lookedUp err => s.lookedUp err
  | .listened err => s.listened err
  | .accept err fd => if s.listening || s.destroyed then s.accept err fd else s
  | .destroySocket id => s.destroySocket id
  | .socketClosed id err => s.socketClosed id err
  | .close callback => s.close callback
  | .serverClosed => s.serverClosed
  | .setMaxConnections max => { s with maxConnections := max }

end Server

def machine : Machine Server Input := ⟨Server.step⟩

namespace Server

/-! ### What a server promises -/

/-- `close` is emitted once, when the server has been closed and the last connection has ended; each
callback of `close` is called once, as soon as the native call has reported; and the connections are
counted. -/
structure Sound (s : Server) : Prop where
  closeEvents : s.closeEvents = if s.destroyed = true ∧ s.accepted = [] then 1 else 0
  callbacks : ∀ id ∈ s.callbacks, s.called.count id + s.nativeCloses.count (some id) = 1
  connections : s.connections = s.accepted.length

/-- The condition: `close` with a callback is called once, and not for a server that listens and has no
connection; no socket gets the descriptor 0, and `native.close` of a socket reports no error. -/
def Regular (s : Server) : Input → Prop
  | .accept _ fd => fd ≠ 0
  | .socketClosed _ err => err = false
  | .close callback => callback = true →
    s.destroyed = false ∧ (s.listening = true → s.connections ≠ 0)
  | _ => True

instance (s : Server) : ∀ i, Decidable (s.Regular i)
  | .accept _ fd => inferInstanceAs (Decidable (fd ≠ 0))
  | .socketClosed _ err => inferInstanceAs (Decidable (err = false))
  | .close callback => inferInstanceAs (Decidable (callback = true →
      s.destroyed = false ∧ (s.listening = true → s.connections ≠ 0)))
  | .listen _ | .lookedUp _ | .listened _ | .destroySocket _ | .serverClosed
  | .setMaxConnections _ => isTrue trivial

/-! ### The invariant -/

structure Inv (s : Server) : Prop where
  sound : s.Sound
  nodup : s.accepted.Nodup
  below : ∀ id ∈ s.accepted, id < s.sockets ∧ s.fd id ≠ 0
  closing : s.closing.Nodup ∧ ∀ id ∈ s.closing, id ∈ s.accepted
  /-- There are only connections once the server listens. -/
  listened : s.accepted ≠ [] → s.listening = true ∨ s.destroyed = true
  closed : s.destroyed = true → s.listening = false
  calls : ∀ id, id ∈ s.callbacks ∨ id ∈ s.called ∨ some id ∈ s.nativeCloses → id < s.calls

variable {s : Server}

lemma inv_init : init.Inv where
  sound := ⟨rfl, by simp [init], rfl⟩
  nodup := List.nodup_nil
  below := by simp [init]
  closing := ⟨List.nodup_nil, by simp [init]⟩
  listened h := absurd rfl h
  closed h := by cases h
  calls := by simp [init]

/-- What `Inv` is about, apart from whether the server listens. -/
lemma Inv.congr {t : Server} (h : s.Inv)
    (hsame : (t.destroyed, t.connections, t.accepted, t.closing, t.fd, t.sockets, t.closeEvents,
        t.calls, t.callbacks, t.called) =
      (s.destroyed, s.connections, s.accepted, s.closing, s.fd, s.sockets, s.closeEvents,
        s.calls, s.callbacks, s.called))
    (hcloses : ∀ id, t.nativeCloses.count (some id) = s.nativeCloses.count (some id))
    (hlistening : s.listening = true → t.listening = true)
    (hclosed : t.destroyed = true → t.listening = false) : t.Inv := by
  simp only [Prod.mk.injEq] at hsame
  obtain ⟨e₁, e₂, e₃, e₄, e₅, e₆, e₇, e₈, e₉, e₁₀⟩ := hsame
  have hmem : ∀ id, some id ∈ t.nativeCloses ↔ some id ∈ s.nativeCloses := fun id => by
    rw [← List.count_pos_iff, ← List.count_pos_iff, hcloses id]
  refine ⟨⟨?_, ?_, ?_⟩, ?_, ?_, ?_, ?_, hclosed, ?_⟩
  · rw [e₇, e₁, e₃]
    exact h.sound.closeEvents
  · rw [e₉, e₁₀]
    exact fun id hid => (hcloses id).symm ▸ h.sound.callbacks id hid
  · rw [e₂, e₃]
    exact h.sound.connections
  · rw [e₃]
    exact h.nodup
  · rw [e₃, e₅, e₆]
    exact h.below
  · rw [e₃, e₄]
    exact h.closing
  · rw [e₁, e₃]
    exact fun hne => (h.listened hne).imp_left hlistening
  · intro id hid
    rw [e₉, e₁₀, hmem] at hid
    rw [e₈]
    exact h.calls id hid

lemma Inv.listenNative (h : s.Inv) : s.listenNative.Inv := by
  unfold Server.listenNative
  split_ifs
  · exact h
  · exact h.congr rfl (fun _ => rfl) id h.closed

lemma Inv.listen_call (h : s.Inv) (lookup : Bool) : (s.listen lookup).Inv := by
  unfold listen
  split_ifs
  · exact h
  · exact h.congr rfl (fun _ => rfl) id h.closed
  · exact Inv.listenNative (h.congr rfl (fun _ => rfl) id h.closed)

lemma Inv.lookedUp_call (h : s.Inv) (err : Bool) : (s.lookedUp err).Inv := by
  unfold lookedUp
  split_ifs
  · exact h
  · exact h.congr rfl (fun _ => rfl) id h.closed
  · exact Inv.listenNative (h.congr rfl (fun _ => rfl) id h.closed)

lemma Inv.listened_call (h : s.Inv) (err : Bool) : (s.listened err).Inv := by
  unfold Server.listened
  dsimp only
  split_ifs with hl herr hd
  · exact h
  · exact h.congr rfl (fun _ => rfl) id h.closed
  · exact h.congr rfl (fun id => by simp [List.count_append]) id h.closed
  · exact h.congr rfl (fun _ => rfl) (fun _ => rfl) fun hd' => absurd hd' hd

lemma Inv.accept_call (h : s.Inv) (hl : s.listening = true ∨ s.destroyed = true) (err : Bool)
    {fd : Nat} (hfd : fd ≠ 0) : (s.accept err fd).Inv := by
  unfold accept
  split_ifs with herr hd
  · exact h
  · exact h
  · have hnew : s.sockets ∉ s.accepted := fun hm => absurd (h.below _ hm).1 (Nat.lt_irrefl _)
    have hnd : s.destroyed = false := by
      simp only [Bool.or_eq_true, not_or] at hd
      simpa using hd.1
    refine ⟨⟨?_, h.sound.callbacks, ?_⟩, ?_, ?_, ⟨h.closing.1, fun id hid => ?_⟩, fun _ => hl,
      h.closed, h.calls⟩
    · have hold := h.sound.closeEvents
      simp only [hnd, Bool.false_eq_true, false_and, if_false] at hold ⊢
      exact hold
    · simp [h.sound.connections]
    · rw [List.nodup_append]
      refine ⟨h.nodup, List.nodup_singleton _, fun a ha b hb => ?_⟩
      rw [List.mem_singleton.mp hb]
      exact fun heq => hnew (heq ▸ ha)
    · intro id hid
      rcases List.mem_append.mp hid with hid | hid
      · have hne : id ≠ s.sockets := fun heq => hnew (heq ▸ hid)
        dsimp only
        rw [Function.update_of_ne hne]
        exact ⟨(h.below id hid).1.trans (Nat.lt_succ_self _), (h.below id hid).2⟩
      · rw [List.mem_singleton.mp hid]
        dsimp only
        rw [Function.update_self]
        exact ⟨Nat.lt_succ_self _, hfd⟩
    · exact List.mem_append_left _ (h.closing.2 id hid)

lemma Inv.destroySocket_call (h : s.Inv) (id : Nat) : (s.destroySocket id).Inv := by
  unfold destroySocket
  split_ifs with hmem hfd
  · refine ⟨⟨h.sound.closeEvents, h.sound.callbacks, h.sound.connections⟩, h.nodup, h.below,
      ⟨?_, fun id' hid => ?_⟩, h.listened, h.closed, h.calls⟩
    · rw [List.nodup_append]
      refine ⟨h.closing.1, List.nodup_singleton _, fun a ha b hb => ?_⟩
      rw [List.mem_singleton.mp hb]
      exact fun heq => hmem.2 (heq ▸ ha)
    · rcases List.mem_append.mp hid with hid | hid
      · exact h.closing.2 id' hid
      · rw [List.mem_singleton.mp hid]
        exact hmem.1
  · exact absurd (h.below id hmem.1).2 (by simpa using hfd)
  · exact h

/-- The last connection of a closed server ends. -/
lemma Inv.socketClosed_call (h : s.Inv) (id : Nat) : (s.socketClosed id false).Inv := by
  unfold socketClosed
  by_cases hid : id ∈ s.closing
  · rw [if_neg (not_not_intro hid)]
    have hacc := h.closing.2 id hid
    have hlen : s.connections = (s.accepted.erase id).length + 1 := by
      rw [h.sound.connections, List.length_erase_of_mem hacc]
      have := List.length_pos_of_mem hacc
      omega
    have hzero : s.connections - 1 = 0 ↔ s.accepted.erase id = [] := by
      rw [hlen, Nat.add_sub_cancel, List.length_eq_zero_iff]
    have hnone : s.closeEvents = 0 := by
      rw [h.sound.closeEvents, if_neg fun hd => List.ne_nil_of_mem hacc hd.2]
    have hrest : ∀ n, (n = if s.destroyed = true ∧ s.accepted.erase id = [] then 1 else 0) →
        ({ s with
          closing := s.closing.erase id
          accepted := s.accepted.erase id
          connections := s.connections - 1
          closeEvents := n } : Server).Inv := by
      intro n hn
      refine ⟨⟨hn, h.sound.callbacks, ?_⟩, h.nodup.erase id, fun id' hid' => ?_, ?_, fun hne => ?_,
        h.closed, h.calls⟩
      · dsimp only
        rw [hlen, Nat.add_sub_cancel]
      · exact h.below id' (List.mem_of_mem_erase hid')
      · refine ⟨h.closing.1.erase id, fun id' hid' => ?_⟩
        have hne : id' ≠ id := fun heq => h.closing.1.not_mem_erase (heq ▸ hid')
        exact (List.mem_erase_of_ne hne).mpr (h.closing.2 id' (List.mem_of_mem_erase hid'))
      · exact h.listened (List.ne_nil_of_mem hacc)
    dsimp only
    rw [if_neg (by simp), if_pos (by omega)]
    rcases h.listened (List.ne_nil_of_mem hacc) with hl | hd
    · have hnd : s.destroyed = false := by
        cases hd : s.destroyed with
        | false => rfl
        | true => simp [h.closed hd] at hl
      rw [if_neg (by simp [hl])]
      exact hrest _ (by simp [hnone, hnd])
    · have hl := h.closed hd
      by_cases hlast : s.accepted.erase id = []
      · rw [if_pos ⟨hzero.mpr hlast, hl⟩]
        exact hrest _ (by simp [hnone, hd, hlast])
      · rw [if_neg fun hz => hlast (hzero.mp hz.1)]
        exact hrest _ (by simp [hnone, hlast])
  · rw [if_pos hid]
    exact h

/-- The server is closed by a call with number `s.calls`. -/
lemma Inv.shut (h : s.Inv) {n : Nat} {callbacks called : List Nat} {nativeCloses : List (Option Nat)}
    (hn : n = if s.accepted = [] then 1 else 0)
    (hcalls : (∀ id ∈ callbacks, called.count id + nativeCloses.count (some id) = 1) ∧
      ∀ id, id ∈ callbacks ∨ id ∈ called ∨ some id ∈ nativeCloses → id < s.calls + 1) :
    ({ s with
      ref := false
      destroyed := true
      listening := false
      calls := s.calls + 1
      closeEvents := n
      callbacks := callbacks
      called := called
      nativeCloses := nativeCloses } : Server).Inv where
  sound := ⟨by simpa using hn, hcalls.1, h.sound.connections⟩
  nodup := h.nodup
  below := h.below
  closing := h.closing
  listened _ := .inr rfl
  closed _ := rfl
  calls := hcalls.2

/-- The call has a callback, which is called now or left to `native.close`. -/
lemma Inv.newCall (h : s.Inv) {called : List Nat} {nativeCloses : List (Option Nat)}
    (hcalled : ∀ id, id ≠ s.calls → called.count id = s.called.count id)
    (hcloses : ∀ id, id ≠ s.calls → nativeCloses.count (some id) = s.nativeCloses.count (some id))
    (hone : called.count s.calls + nativeCloses.count (some s.calls) = 1) :
    (∀ id ∈ s.callbacks ++ [s.calls], called.count id + nativeCloses.count (some id) = 1) ∧
      ∀ id, id ∈ s.callbacks ++ [s.calls] ∨ id ∈ called ∨ some id ∈ nativeCloses → id < s.calls + 1 := by
  constructor
  · intro id hid
    by_cases hnew : id = s.calls
    · rw [hnew]
      exact hone
    · rw [hcalled id hnew, hcloses id hnew]
      apply h.sound.callbacks
      simpa [hnew] using hid
  · intro id hid
    by_cases hnew : id = s.calls
    · rw [hnew]
      exact Nat.lt_succ_self _
    · apply Nat.lt_succ_of_lt
      apply h.calls
      rw [← List.count_pos_iff (a := id) (l := called), ← List.count_pos_iff (a := some id), hcalled id hnew,
        hcloses id hnew, List.count_pos_iff, List.count_pos_iff] at hid
      simpa [hnew] using hid

/-- The number of the call has not been used. -/
lemma Inv.unused_calls (h : s.Inv) :
    s.called.count s.calls = 0 ∧ s.nativeCloses.count (some s.calls) = 0 := by
  constructor
  · rw [List.count_eq_zero]
    intro hm
    exact (h.calls _ (.inr (.inl hm))).ne rfl
  · rw [List.count_eq_zero]
    intro hm
    exact (h.calls _ (.inr (.inr hm))).ne rfl

/-- The `close` events of a server that is closed now. -/
lemma Inv.closeEvents_shut (h : s.Inv) (hd : ¬s.destroyed = true) :
    (s.connections = 0 → s.closeEvents + 1 = if s.accepted = [] then 1 else 0) ∧
      (s.connections ≠ 0 → s.closeEvents = if s.accepted = [] then 1 else 0) := by
  have hevents : s.closeEvents = 0 := by
    rw [h.sound.closeEvents, if_neg fun hd' => hd hd'.1]
  rw [hevents, h.sound.connections, Ne, List.length_eq_zero_iff]
  constructor
  · intro hempty
    rw [if_pos hempty]
  · intro hne
    rw [if_neg hne]

lemma Inv.close_silent (h : s.Inv) (hd : ¬s.destroyed = true) : (s.close false).Inv := by
  obtain ⟨hemit, hkeep⟩ := h.closeEvents_shut hd
  have hcalls : ∀ nativeCloses : List (Option Nat),
      (∀ id, nativeCloses.count (some id) = s.nativeCloses.count (some id)) →
      (∀ id ∈ s.callbacks, s.called.count id + nativeCloses.count (some id) = 1) ∧
        ∀ id, id ∈ s.callbacks ∨ id ∈ s.called ∨ some id ∈ nativeCloses → id < s.calls + 1 := by
    intro nativeCloses hcloses
    constructor
    · intro id hid
      rw [hcloses]
      exact h.sound.callbacks id hid
    · intro id hid
      rw [← List.count_pos_iff (a := some id), hcloses, List.count_pos_iff] at hid
      exact Nat.lt_succ_of_lt (h.calls id hid)
  unfold Server.close
  simp only [if_neg hd, Bool.false_eq_true, if_false]
  cases hl : s.listening with
  | true =>
    have hnone := hcalls (s.nativeCloses ++ [none]) fun id => by simp [List.count_append]
    by_cases hc : s.connections = 0
    · simp only [if_pos hc, if_true]
      exact h.shut (hemit hc) hnone
    · simp only [hc, if_true, if_false]
      exact h.shut (hkeep hc) hnone
  | false =>
    have hsame := hcalls s.nativeCloses fun id => rfl
    by_cases hc : s.connections = 0
    · simp only [if_pos hc, Bool.false_eq_true, if_false]
      exact h.shut (hemit hc) hsame
    · simp only [hc, Bool.false_eq_true, if_false]
      exact h.shut (hkeep hc) hsame

lemma Inv.close_callback (h : s.Inv) (hd : ¬s.destroyed = true)
    (hok : s.listening = true → s.connections ≠ 0) : (s.close true).Inv := by
  obtain ⟨hemit, hkeep⟩ := h.closeEvents_shut hd
  obtain ⟨hcalled, hcloses⟩ := h.unused_calls
  unfold Server.close
  simp only [if_neg hd, if_true]
  cases hl : s.listening with
  | true =>
    have hc := hok hl
    simp only [hc, if_true, if_false]
    apply h.shut (hkeep hc)
    apply h.newCall
    · intro id _
      rfl
    · intro id hne
      simp [List.count_append, Ne.symm hne]
    · simp [List.count_append, hcalled, hcloses]
  | false =>
    have hc : s.connections = 0 := by
      rw [h.sound.connections, List.length_eq_zero_iff]
      by_contra hne
      rcases h.listened hne with hl' | hd'
      · simp [hl] at hl'
      · exact hd hd'
    simp only [if_pos hc, Bool.false_eq_true, if_false]
    apply h.shut (hemit hc)
    apply h.newCall
    · intro id hne
      simp [List.count_append, Ne.symm hne]
    · intro id _
      rfl
    · simp [List.count_append, hcalled, hcloses]

lemma Inv.close_call (h : s.Inv) {callback : Bool} (hok : s.Regular (.close callback)) :
    (s.close callback).Inv := by
  by_cases hd : s.destroyed = true
  · have hcb : callback = false := by
      refine Bool.eq_false_iff.mpr fun hcb => ?_
      simp [(hok hcb).1] at hd
    unfold Server.close
    simp only [hcb, if_pos hd, Bool.false_eq_true, if_false]
    exact ⟨⟨h.sound.closeEvents, h.sound.callbacks, h.sound.connections⟩, h.nodup, h.below,
      h.closing, h.listened, h.closed, fun id hid => (h.calls id hid).trans (Nat.lt_succ_self _)⟩
  · cases callback with
    | false => exact h.close_silent hd
    | true => exact h.close_callback hd (hok rfl).2

lemma Inv.serverClosed_call (h : s.Inv) : s.serverClosed.Inv := by
  unfold Server.serverClosed
  split
  · exact h
  · next callback rest hn =>
    refine ⟨⟨h.sound.closeEvents, fun id hid => ?_, h.sound.connections⟩, h.nodup, h.below, h.closing,
      h.listened, h.closed, fun id hid => ?_⟩
    · have hold := h.sound.callbacks id hid
      rw [hn, List.count_cons] at hold
      cases callback with
      | none => simpa using hold
      | some id' =>
        by_cases heq : id' = id
        · simp [heq] at hold ⊢
          omega
        · simpa [heq, List.count_append] using hold
    · refine h.calls id ?_
      rw [hn]
      rcases hid with hid | hid | hid
      · exact .inl hid
      · rcases List.mem_append.mp hid with hid | hid
        · exact .inr (.inl hid)
        · refine .inr (.inr ?_)
          rw [Option.mem_toList.mp hid]
          exact List.mem_cons_self
      · exact .inr (.inr (List.mem_cons_of_mem _ hid))

lemma Inv.step (h : s.Inv) {i : Input} (hok : s.Regular i) : (s.step i).Inv := by
  cases i with
  | listen lookup => exact h.listen_call lookup
  | lookedUp err => exact h.lookedUp_call err
  | listened err => exact h.listened_call err
  | accept err fd =>
    simp only [Server.step]
    split_ifs with hl
    · exact h.accept_call (by simpa using hl) err hok
    · exact h
  | destroySocket id => exact h.destroySocket_call id
  | socketClosed id err =>
    cases hok
    exact h.socketClosed_call id
  | close callback => exact h.close_call hok
  | serverClosed => exact h.serverClosed_call
  | setMaxConnections max => exact h.congr rfl (fun _ => rfl) id h.closed

/-- In every run in which `close` with a callback is called once, and not for a server that listens and
has no connection, and in which the sockets are closed without an error, the server keeps its
promises. -/
theorem server_sound {is : List Input} (hok : machine.Guarded Regular init is) :
    (machine.run init is).Sound :=
  (machine.run_invariant (P := Inv) (fun _ _ h hi => h.step hi) inv_init hok).sound

/-- A server is closed while a connection is open. -/
theorem server_sound_one :
    (machine.run init [.listen false, .listened false, .accept false 5, .close true, .serverClosed,
      .destroySocket 0, .socketClosed 0 false]).Sound :=
  server_sound (by decide)

/-- A server that listens and has no connection: the callback of `close` is called twice. -/
theorem callback_twice :
    ¬(machine.run init [.listen false, .listened false, .close true, .serverClosed]).Sound := by
  intro h
  exact absurd (h.callbacks 0 (by decide)) (by decide)

end Server

end LowJs.Net
