import LowJs.Core.Machine

/-!
# The throttling of accepts

`LowServerSocket::OnEvents` on the web thread, `LowServerSocket::Connections` and `LowFD::~LowFD` on the
main thread, statement by statement, and the part of net.js that counts the connections of a server. A
server that has too many connections, or that finds no free descriptor, is not polled until one of the
two functions of the main thread polls it again.
-/

namespace LowJs.Accepting

/-- A `LowServerSocket` and the `Server` of net.js over it. `isOpen` says that it is in `low->fds`, which
is as long as the server is `listening`; `live` are its sockets that have not been closed. -/
structure ServerSocket where
  polled : Bool
  mWaitForNotTooManyConnections : Bool
  mTrackTooManyConnections : Bool
  isOpen : Bool
  connections : Nat
  maxConnections : Option Int
  live : List Nat

/-- The web thread's next statement: the test of `mTrackTooManyConnections` behind a successful `accept`,
the two statements under it; the two statements behind a failure with `ENFILE`. -/
inductive Web
  | idle
  | accepted (o : Nat)
  | tooMany (o : Nat)
  | unpoll (o : Nat)
  | exhausted (o : Nat)
  | flag (o : Nat)
  deriving DecidableEq, Repr

/-- The main thread's next statement: the four of `Connections`, of which the second is the test; the
test of `reset_accepts` in `~LowFD`, the statement under it, the test of the loop, and the statement in
it, with the servers that the loop has not looked at. -/
inductive Main
  | idle
  | track (o : Nat) (count max : Int)
  | test (o : Nat) (count max : Int)
  | clear (o : Nat)
  | poll (o : Nat)
  | release
  | reset
  | loop (rest : List Nat)
  | repoll (o : Nat) (rest : List Nat)
  deriving DecidableEq, Repr

/-- The servers by number, and the two threads. -/
structure Low where
  server : Nat → ServerSocket
  count : Nat
  reset_accepts : Bool
  web : Web
  main : Main
  sockets : Nat

/-- How `accept` ends. -/
inductive Accept
  | socket
  | ENFILE
  | error
  deriving DecidableEq, Repr

/-- What happens: an event for a server, the next statement of a thread, and what JavaScript does between
the native calls: a server listens or is closed, a connection is announced or has failed, `native.close`
of a socket has reported, the maximum is changed, a descriptor of another kind is released. -/
inductive Input
  | event (o : Nat) (accept : Accept)
  | web
  | main
  | listen
  | closeServer (o : Nat)
  | connection (o : Nat) (err : Bool)
  | socketClosed (o id : Nat) (err : Bool)
  | setMaxConnections (o : Nat) (max : Option Int)
  | release
  deriving DecidableEq, Repr

namespace Low

def start : Low where
  server _ := ⟨false, false, false, false, 0, none, []⟩
  count := 0
  reset_accepts := false
  web := .idle
  main := .idle
  sockets := 0

def set (s : Low) (o : Nat) (server : ServerSocket) : Low :=
  { s with server := Function.update s.server o server }

def setPolled (s : Low) (o : Nat) (polled : Bool) : Low :=
  s.set o { s.server o with polled := polled }

def setWait (s : Low) (o : Nat) (wait : Bool) : Low :=
  s.set o { s.server o with mWaitForNotTooManyConnections := wait }

/-- The next statement of the web thread. -/
def stepWeb (s : Low) : Low :=
  match s.web with
  | .idle => s
  | .accepted o =>
    { s with web := if (s.server o).mTrackTooManyConnections then .tooMany o else .idle }
  | .tooMany o => { s.setWait o true with web := .unpoll o }
  | .unpoll o => { s.setPolled o false with web := .idle }
  | .exhausted o => { s.setPolled o false with web := .flag o }
  | .flag _ => { s with reset_accepts := true, web := .idle }

/-- The next statement of the main thread. -/
def stepMain (s : Low) : Low :=
  match s.main with
  | .idle => s
  | .track o count max =>
    { s.set o { s.server o with mTrackTooManyConnections := decide (0 ≤ max) } with
      main := .test o count max }
  | .test o count max =>
    { s with main :=
        if (s.server o).mWaitForNotTooManyConnections ∧ (max < 0 ∨ count < max) then .clear o
        else .idle }
  | .clear o => { s.setWait o false with main := .poll o }
  | .poll o => { s.setPolled o true with main := .idle }
  | .release => { s with main := if s.reset_accepts then .reset else .idle }
  | .reset => { s with reset_accepts := false, main := .loop (List.range s.count) }
  | .loop [] => { s with main := .idle }
  | .loop (o :: rest) =>
    { s with main :=
        if (s.server o).isOpen ∧ (s.server o).mWaitForNotTooManyConnections = false then
          .repoll o rest
        else .loop rest }
  | .repoll o rest => { s.setPolled o true with main := .loop rest }

/-- `native.netConnections`, with the numbers of the server; a server that is not in `low->fds` is passed
over. -/
def netConnections (s : Low) (o : Nat) : Low :=
  if (s.server o).isOpen then
    { s with main := .track o (s.server o).connections ((s.server o).maxConnections.getD (-1)) }
  else s

/-- The server takes no further connection. -/
def full (server : ServerSocket) : Bool :=
  !server.isOpen || server.maxConnections.any (· ≤ (server.connections : Int))

/-- The accept callback of `_listen`. A socket that is not taken is closed. -/
def connection (s : Low) (o : Nat) (err : Bool) : Low :=
  if err || full (s.server o) then s.netConnections o
  else
    let s := { s.set o { s.server o with
        connections := (s.server o).connections + 1, live := s.sockets :: (s.server o).live } with
      sockets := s.sockets + 1 }
    s.netConnections o

/-- The callback of `native.close` in `destroy` of a socket. -/
def socketClosed (s : Low) (o id : Nat) (err : Bool) : Low :=
  if err then s
  else
    let server := { s.server o with live := (s.server o).live.erase id }
    if server.connections = 0 then s.set o server
    else (s.set o { server with connections := server.connections - 1 }).netConnections o

/-- The server is closed: it leaves `low->fds` and is not polled any more, and `~LowFD` goes on. -/
def closeServer (s : Low) (o : Nat) : Low :=
  { s.set o { s.server o with polled := false, isOpen := false } with main := .release }

/-- The server the web thread is at. -/
def onServer : Web → Option Nat
  | .idle => none
  | .accepted o | .tooMany o | .unpoll o | .exhausted o | .flag o => some o

/-- A call of `OnEvents` up to the result of `accept`. -/
def event (s : Low) (o : Nat) : Accept → Low
  | .socket => { s with web := .accepted o }
  | .ENFILE => { s with web := .exhausted o }
  | .error => s

/-- An input that cannot happen leaves the state as it is: events come for servers that are polled;
JavaScript runs when the main thread is in none of the native functions; and `low_web_clear_poll` waits
for the web thread to leave the server. -/
def step (s : Low) : Input → Low
  | .event o accept =>
    if s.web = .idle ∧ o < s.count ∧ (s.server o).polled ∧ (s.server o).isOpen then s.event o accept
    else s
  | .web => s.stepWeb
  | .main => s.stepMain
  | .listen =>
    if s.main = .idle then
      { s.set s.count ⟨true, false, false, true, 0, none, []⟩ with count := s.count + 1 }
    else s
  | .closeServer o =>
    if s.main = .idle ∧ o < s.count ∧ onServer s.web ≠ some o then s.closeServer o else s
  | .connection o err => if s.main = .idle ∧ o < s.count then s.connection o err else s
  | .socketClosed o id err =>
    if s.main = .idle ∧ o < s.count ∧ id ∈ (s.server o).live then s.socketClosed o id err else s
  | .setMaxConnections o max =>
    if s.main = .idle ∧ o < s.count then s.set o { s.server o with maxConnections := max } else s
  | .release => if s.main = .idle then { s with main := .release } else s

end Low

def machine : Machine Low Input := ⟨Low.step⟩

namespace Low

/-! ### What is promised -/

/-- The main thread has cleared a flag and is about to poll the server. -/
def repolls (o : Nat) : Main → Prop
  | .poll p => p = o
  | .loop rest => o ∈ rest
  | .repoll p rest => p = o ∨ o ∈ rest
  | _ => False

/-- A listening server that is not polled has a flag that makes one of the two functions poll it again,
or is about to be polled, or the web thread is about to set the flag. -/
def Armed (s : Low) (o : Nat) : Prop :=
  (s.server o).polled = true ∨ (s.server o).mWaitForNotTooManyConnections = true ∨
    s.reset_accepts = true ∨ repolls o s.main ∨ s.web = .flag o

/-- JavaScript holds at most `maxConnections` sockets of the server. -/
def Bounded (server : ServerSocket) : Prop :=
  ∀ max, server.maxConnections = some max → (server.live.length : Int) ≤ max

/-- The main thread does not poll a server whose wait flag it has cleared while the web thread is between
setting the flag and ceasing to poll. -/
def Ordered (s : Low) : Input → Prop
  | .main => ∀ o, s.main = .poll o → s.web = .unpoll o →
      (s.server o).mWaitForNotTooManyConnections = true
  | _ => True

/-- The maximum is not set below the number of sockets held. -/
def NotBelow (s : Low) : Input → Prop
  | .setMaxConnections o (some max) => ((s.server o).live.length : Int) ≤ max
  | _ => True

/-! ### The flags -/

variable {s : Low}

/-- What holds between the statements. -/
structure Inv (s : Low) : Prop where
  armed : ∀ o < s.count, (s.server o).isOpen = true → s.Armed o
  unpoll : ∀ o, s.web = .unpoll o →
    (s.server o).mWaitForNotTooManyConnections = true ∨ s.main = .poll o
  known : ∀ o, onServer s.web = some o → o < s.count

@[simp] lemma set_server (s : Low) (o p : Nat) (server : ServerSocket) :
    (s.set o server).server p = if p = o then server else s.server p := by
  simp only [set, Function.update_apply]

@[simp] lemma set_web (s : Low) (o : Nat) (server : ServerSocket) : (s.set o server).web = s.web := rfl

@[simp] lemma set_main (s : Low) (o : Nat) (server : ServerSocket) :
    (s.set o server).main = s.main := rfl

@[simp] lemma set_reset (s : Low) (o : Nat) (server : ServerSocket) :
    (s.set o server).reset_accepts = s.reset_accepts := rfl

@[simp] lemma set_count (s : Low) (o : Nat) (server : ServerSocket) :
    (s.set o server).count = s.count := rfl

/-- Neither a flag nor the polling changes, and the main thread was not about to poll. -/
lemma Inv.javaScript {t : Low} (h : s.Inv) (hmain : ∀ o, ¬repolls o s.main) (hweb : t.web = s.web)
    (hreset : t.reset_accepts = s.reset_accepts) (hcount : t.count = s.count)
    (hserver : ∀ o, (t.server o).isOpen = true → (s.server o).isOpen = true ∧
      (t.server o).polled = (s.server o).polled)
    (hwait : ∀ o, (t.server o).mWaitForNotTooManyConnections =
      (s.server o).mWaitForNotTooManyConnections) : t.Inv := by
  constructor
  case armed =>
    intro o ho hopen
    obtain ⟨hopen', hpolled⟩ := hserver o hopen
    have := h.armed o (hcount ▸ ho) hopen'
    simp only [Armed, hmain, false_or] at this
    rw [← hpolled, ← hwait o, ← hreset, ← hweb] at this
    obtain hp | hw | hr | hf := this
    · exact .inl hp
    · exact .inr (.inl hw)
    · exact .inr (.inr (.inl hr))
    · exact .inr (.inr (.inr (.inr hf)))
  case unpoll =>
    intro o ho
    left
    rw [hwait]
    obtain hw | hm := h.unpoll o (hweb ▸ ho)
    · exact hw
    · exact absurd (by rw [hm, repolls]) (hmain o)
  case known =>
    rw [hweb, hcount]
    exact h.known

lemma Inv.stepWeb (h : s.Inv) : s.stepWeb.Inv := by
  simp only [Low.stepWeb]
  cases hweb : s.web with
  | idle => exact h
  | accepted o =>
    constructor
    case armed =>
      intro p hp hopen
      obtain hpl | hw | hr | hm | hf := h.armed p hp hopen
      · exact .inl hpl
      · exact .inr (.inl hw)
      · exact .inr (.inr (.inl hr))
      · exact .inr (.inr (.inr (.inl hm)))
      · cases hweb.symm.trans hf
    case unpoll =>
      intro p hp
      dsimp only at hp
      split at hp <;> cases hp
    case known =>
      intro p hp
      dsimp only at hp
      split at hp
      · exact h.known p (by rw [hweb]; exact hp)
      · cases hp
  | tooMany o =>
    constructor
    case armed =>
      intro p hp hopen
      by_cases hpo : p = o
      · subst hpo
        simp [Armed, setWait]
      · have := h.armed p hp (by simpa [setWait, hpo] using hopen)
        simpa [Armed, setWait, hpo, hweb] using this
    case unpoll =>
      intro p hp
      cases hp
      simp [setWait]
    case known =>
      intro p hp
      exact h.known p (by rw [hweb]; exact hp)
  | unpoll o =>
    constructor
    case armed =>
      intro p hp hopen
      by_cases hpo : p = o
      · subst hpo
        obtain hw | hm := h.unpoll p hweb
        · exact .inr (.inl (by simpa [setPolled] using hw))
        · exact .inr (.inr (.inr (.inl (by simp [setPolled, hm, repolls]))))
      · have := h.armed p hp (by simpa [setPolled, hpo] using hopen)
        simpa [Armed, setPolled, hpo, hweb] using this
    case unpoll =>
      intro p hp
      cases hp
    case known =>
      intro p hp
      cases hp
  | exhausted o =>
    constructor
    case armed =>
      intro p hp hopen
      by_cases hpo : p = o
      · subst hpo
        exact .inr (.inr (.inr (.inr rfl)))
      · have := h.armed p hp (by simpa [setPolled, hpo] using hopen)
        have hop : o ≠ p := fun h => hpo h.symm
        simpa [Armed, setPolled, hpo, hop, hweb] using this
    case unpoll =>
      intro p hp
      cases hp
    case known =>
      intro p hp
      exact h.known p (by rw [hweb]; exact hp)
  | flag o =>
    constructor
    case armed => exact fun p _ _ => .inr (.inr (.inl rfl))
    case unpoll =>
      intro p hp
      cases hp
    case known =>
      intro p hp
      cases hp

/-- The main thread moves on without a write: a server it was about to poll has its wait flag. -/
lemma Inv.mainTo (h : s.Inv) (main : Main)
    (hmain : ∀ o < s.count, (s.server o).isOpen = true → repolls o s.main →
      repolls o main ∨ (s.server o).mWaitForNotTooManyConnections = true)
    (hpoll : ∀ o, s.main ≠ .poll o) : Inv { s with main := main } := by
  constructor
  case armed =>
    intro o ho hopen
    obtain hp | hw | hr | hm | hf := h.armed o ho hopen
    · exact .inl hp
    · exact .inr (.inl hw)
    · exact .inr (.inr (.inl hr))
    · obtain hm | hw := hmain o ho hopen hm
      · exact .inr (.inr (.inr (.inl hm)))
      · exact .inr (.inl hw)
    · exact .inr (.inr (.inr (.inr hf)))
  case unpoll =>
    intro o ho
    obtain hw | hm := h.unpoll o ho
    · exact .inl hw
    · exact absurd hm (hpoll o)
  case known => exact h.known

/-- The main thread polls a server. -/
lemma Inv.polled (h : s.Inv) {o : Nat} {main : Main}
    (hmain : ∀ p, repolls p s.main → p = o ∨ repolls p main)
    (hpoll : ∀ p, s.web = .unpoll p → s.main = .poll p →
      (s.server p).mWaitForNotTooManyConnections = true) :
    Inv { s.setPolled o true with main := main } := by
  constructor
  case armed =>
    intro p hp hopen
    by_cases hpo : p = o
    · subst hpo
      simp [Armed, setPolled]
    · have := h.armed p hp (by simpa [setPolled, hpo] using hopen)
      have hm : repolls p s.main → repolls p main := fun hm => (hmain p hm).resolve_left hpo
      simp only [Armed, setPolled, set_server, hpo, if_false] at this ⊢
      obtain hp | hw | hr | hm' | hf := this
      · exact .inl hp
      · exact .inr (.inl hw)
      · exact .inr (.inr (.inl hr))
      · exact .inr (.inr (.inr (.inl (hm hm'))))
      · exact .inr (.inr (.inr (.inr hf)))
  case unpoll =>
    intro p hp
    have hw : (s.server p).mWaitForNotTooManyConnections = true := by
      obtain hw | hm := h.unpoll p hp
      · exact hw
      · exact hpoll p hp hm
    left
    simp only [setPolled, set_server]
    split
    case isTrue hpo =>
      subst hpo
      exact hw
    case isFalse => exact hw
  case known => exact h.known

lemma Inv.stepMain (h : s.Inv) (hok : s.Ordered .main) : s.stepMain.Inv := by
  have hpoll : ∀ p, s.web = .unpoll p → s.main = .poll p →
      (s.server p).mWaitForNotTooManyConnections = true := fun p hp hm => hok p hm hp
  simp only [Low.stepMain]
  cases hmain : s.main with
  | idle => exact h
  | track o count max =>
    apply h.javaScript (t := { s.set o _ with main := _ })
    case hmain => simp [hmain, repolls]
    case hweb => rfl
    case hreset => rfl
    case hcount => rfl
    case hserver =>
      intro p
      by_cases hpo : p = o <;> simp [hpo]
    case hwait =>
      intro p
      by_cases hpo : p = o <;> simp [hpo]
  | test o count max =>
    apply h.mainTo <;> simp [hmain, repolls]
  | clear o =>
    constructor
    case armed =>
      intro p hp hopen
      by_cases hpo : p = o
      · exact .inr (.inr (.inr (.inl hpo.symm)))
      · have := h.armed p hp (by simpa [setWait, hpo] using hopen)
        simp only [Armed, hmain, repolls, false_or] at this
        simp only [Armed, setWait, set_server, hpo, if_false]
        tauto
    case unpoll =>
      intro p hp
      by_cases hpo : p = o
      · exact .inr (by rw [hpo])
      · left
        have := h.unpoll p hp
        simpa [setWait, hpo, hmain] using this
    case known => exact h.known
  | poll o =>
    apply h.polled _ hpoll
    intro p hp
    left
    rw [hmain] at hp
    exact hp.symm
  | release =>
    apply h.mainTo <;> simp [hmain, repolls]
  | reset =>
    constructor
    case armed =>
      intro p hp _
      exact .inr (.inr (.inr (.inl (List.mem_range.2 hp))))
    case unpoll =>
      intro p hp
      left
      have := h.unpoll p hp
      simpa [hmain] using this
    case known => exact h.known
  | loop rest =>
    cases rest with
    | nil => apply h.mainTo <;> simp [hmain, repolls]
    | cons o rest =>
      apply h.mainTo
      case hpoll => simp [hmain]
      case hmain =>
        intro p hp hopen hm
        rw [hmain] at hm
        by_cases hpo : p = o
        · subst hpo
          cases hw : (s.server p).mWaitForNotTooManyConnections with
          | true => exact .inr rfl
          | false =>
            left
            simp [hopen, repolls]
        · left
          have hrest : p ∈ rest := (List.mem_cons.1 hm).resolve_left hpo
          split
          · exact .inr hrest
          · exact hrest
  | repoll o rest =>
    apply h.polled _ hpoll
    intro p hp
    rw [hmain] at hp
    exact hp.imp Eq.symm id

lemma idle_not_repolls (h : s.main = .idle) (o : Nat) : ¬repolls o s.main := by simp [h, repolls]

/-- The web thread begins to work on an event. -/
lemma Inv.event (h : s.Inv) (hweb : s.web = .idle) {o : Nat} (ho : o < s.count) (accept : Accept) :
    (s.event o accept).Inv := by
  have hto (web : Web) (hun : ∀ p, web ≠ .unpoll p) (hon : onServer web = some o) :
      Inv { s with web := web } := by
    constructor
    case armed =>
      intro p hp hopen
      obtain hpl | hw | hr | hm | hf := h.armed p hp hopen
      · exact .inl hpl
      · exact .inr (.inl hw)
      · exact .inr (.inr (.inl hr))
      · exact .inr (.inr (.inr (.inl hm)))
      · cases hweb.symm.trans hf
    case unpoll =>
      intro p hp
      exact absurd hp (hun p)
    case known =>
      intro p hp
      cases hon.symm.trans hp
      exact ho
  cases accept with
  | socket => exact hto _ (by simp) rfl
  | ENFILE => exact hto _ (by simp) rfl
  | error => exact h

lemma Inv.netConnections (h : s.Inv) (hmain : s.main = .idle) (o : Nat) : (s.netConnections o).Inv := by
  simp only [Low.netConnections]
  split
  · exact h.javaScript (idle_not_repolls hmain) rfl rfl rfl (fun _ ho => ⟨ho, rfl⟩) fun _ => rfl
  · exact h

/-- JavaScript counts in the server. -/
lemma Inv.count (h : s.Inv) (hmain : s.main = .idle) (o connections : Nat) (max : Option Int)
    (live : List Nat) (sockets : Nat) :
    Inv { s.set o { s.server o with
      connections := connections, maxConnections := max, live := live } with sockets := sockets } := by
  refine h.javaScript (idle_not_repolls hmain) rfl rfl rfl ?_ ?_
  · intro p
    by_cases hpo : p = o <;> simp [hpo]
  · intro p
    by_cases hpo : p = o <;> simp [hpo]

lemma Inv.connection (h : s.Inv) (hmain : s.main = .idle) (o : Nat) (err : Bool) :
    (s.connection o err).Inv := by
  simp only [Low.connection]
  split
  · exact h.netConnections hmain o
  · exact (h.count hmain o _ _ _ _).netConnections hmain o

lemma Inv.socketClosed (h : s.Inv) (hmain : s.main = .idle) (o id : Nat) (err : Bool) :
    (s.socketClosed o id err).Inv := by
  simp only [Low.socketClosed]
  split
  · exact h
  split
  · exact h.count hmain o _ _ _ s.sockets
  · exact (h.count hmain o _ _ _ s.sockets).netConnections hmain o

lemma Inv.listen (h : s.Inv) (server : ServerSocket)
    (hp : server.polled = true) : Inv { s.set s.count server with count := s.count + 1 } := by
  constructor
  case armed =>
    intro p hp' hopen
    by_cases hpc : p = s.count
    · left
      simp [hpc, hp]
    · have hlt : p < s.count := by
        have : p < s.count + 1 := hp'
        omega
      have := h.armed p hlt (by simpa [hpc] using hopen)
      simpa [Armed, hpc] using this
  case unpoll =>
    intro p hp
    have hlt : p < s.count := h.known p (congrArg onServer hp)
    have hne : p ≠ s.count := Nat.ne_of_lt hlt
    simpa [hne] using h.unpoll p hp
  case known =>
    intro p hp
    exact Nat.lt_succ_of_lt (h.known p hp)

lemma Inv.closeServer (h : s.Inv) (hmain : s.main = .idle) (o : Nat) : (s.closeServer o).Inv := by
  apply h.javaScript (idle_not_repolls hmain)
  case hweb => rfl
  case hreset => rfl
  case hcount => rfl
  case hserver =>
    intro p
    by_cases hpo : p = o <;> simp [Low.closeServer, hpo]
  case hwait =>
    intro p
    by_cases hpo : p = o <;> simp [Low.closeServer, hpo]

lemma Inv.step (s : Low) (i : Input) (h : s.Inv) (hok : s.Ordered i) : (s.step i).Inv := by
  cases i with
  | event o accept =>
    simp only [Low.step]
    split
    case isTrue hen => exact h.event hen.1 hen.2.1 accept
    case isFalse => exact h
  | web => exact h.stepWeb
  | main => exact h.stepMain hok
  | listen =>
    simp only [Low.step]
    split
    case isTrue hen => exact h.listen _ rfl
    case isFalse => exact h
  | closeServer o =>
    simp only [Low.step]
    split
    case isTrue hen => exact h.closeServer hen.1 o
    case isFalse => exact h
  | connection o err =>
    simp only [Low.step]
    split
    case isTrue hen => exact h.connection hen.1 o err
    case isFalse => exact h
  | socketClosed o id err =>
    simp only [Low.step]
    split
    case isTrue hen => exact h.socketClosed hen.1 o id err
    case isFalse => exact h
  | setMaxConnections o max =>
    simp only [Low.step]
    split
    case isTrue hen => exact h.count hen.1 o _ max _ s.sockets
    case isFalse => exact h
  | release =>
    simp only [Low.step]
    split
    case isTrue hen =>
      exact h.javaScript (idle_not_repolls hen) rfl rfl rfl (fun _ ho => ⟨ho, rfl⟩) fun _ => rfl
    case isFalse => exact h

lemma inv_start : Inv start := by
  constructor
  case armed =>
    intro o ho
    cases ho
  case unpoll =>
    intro o ho
    cases ho
  case known =>
    intro o ho
    cases ho

/-! ### The sockets -/

/-- No more sockets are held than are counted, and than the maximum allows. -/
def Counted (server : ServerSocket) : Prop :=
  server.live.length ≤ server.connections ∧ Bounded server

/-- What JavaScript knows of a server. -/
def jsPart (server : ServerSocket) : Nat × Option Int × List Nat :=
  (server.connections, server.maxConnections, server.live)

lemma Counted.congr {server server' : ServerSocket} (h : Counted server)
    (heq : jsPart server' = jsPart server) : Counted server' := by
  simp only [jsPart, Prod.mk.injEq] at heq
  simp only [Counted, Bounded, heq]
  exact h

/-- One server is written to. -/
lemma counted_set {server : ServerSocket} (h : ∀ p, Counted (s.server p)) (o : Nat)
    (hserver : Counted server) (p : Nat) : Counted ((s.set o server).server p) := by
  rw [set_server]
  split
  · exact hserver
  · exact h p

/-- A flag of one server is written to. -/
lemma counted_flag {server : ServerSocket} {p : Nat} (h : ∀ o, Counted (s.server o))
    (hserver : jsPart server = jsPart (s.server p)) (o : Nat) : Counted ((s.set p server).server o) :=
  counted_set h p ((h p).congr hserver) o

lemma counted_stepWeb (h : ∀ o, Counted (s.server o)) (o : Nat) : Counted (s.stepWeb.server o) := by
  simp only [Low.stepWeb]
  cases s.web with
  | idle => exact h o
  | accepted p => exact h o
  | tooMany p => exact counted_flag h (by rfl) o
  | unpoll p => exact counted_flag h (by rfl) o
  | exhausted p => exact counted_flag h (by rfl) o
  | flag p => exact h o

lemma counted_stepMain (h : ∀ o, Counted (s.server o)) (o : Nat) : Counted (s.stepMain.server o) := by
  simp only [Low.stepMain]
  cases s.main with
  | idle => exact h o
  | track p count max => exact counted_flag h (by rfl) o
  | test p count max => exact h o
  | clear p => exact counted_flag h (by rfl) o
  | poll p => exact counted_flag h (by rfl) o
  | release => exact h o
  | reset => exact h o
  | loop rest => cases rest <;> exact h o
  | repoll p rest => exact counted_flag h (by rfl) o

lemma counted_netConnections (h : ∀ o, Counted (s.server o)) (p o : Nat) :
    Counted ((s.netConnections p).server o) := by
  simp only [Low.netConnections]
  split <;> exact h o

/-- A socket is taken while there is room for it. -/
lemma Counted.accept {server : ServerSocket} (h : Counted server) (hfull : full server = false)
    (id : Nat) :
    Counted { server with connections := server.connections + 1, live := id :: server.live } := by
  constructor
  · exact Nat.succ_le_succ h.1
  · intro max hmax
    have hmax : server.maxConnections = some max := hmax
    have hlen := h.1
    simp only [full, hmax, Option.any_some, Bool.or_eq_false_iff, decide_eq_false_iff_not] at hfull
    simp only [List.length_cons]
    omega

lemma counted_connection (h : ∀ o, Counted (s.server o)) (p : Nat) (err : Bool) (o : Nat) :
    Counted ((s.connection p err).server o) := by
  simp only [Low.connection]
  split
  case isTrue => exact counted_netConnections h p o
  case isFalse hroom =>
    have hroom : full (s.server p) = false := by
      simp only [Bool.or_eq_true, not_or, Bool.not_eq_true] at hroom
      exact hroom.2
    apply counted_netConnections
    exact counted_set h p ((h p).accept hroom s.sockets)

/-- A socket that is held is closed. -/
lemma Counted.close {server : ServerSocket} (h : Counted server) {id : Nat} (hid : id ∈ server.live) :
    0 < server.connections ∧ Counted { server with
      connections := server.connections - 1, live := server.live.erase id } := by
  have hpos : 0 < server.live.length := List.length_pos_of_mem hid
  have hlen : (server.live.erase id).length = server.live.length - 1 := List.length_erase_of_mem hid
  have hle := h.1
  refine ⟨by omega, ?_, ?_⟩
  · rw [hlen]
    exact Nat.sub_le_sub_right hle 1
  · intro max hmax
    have := h.2 max hmax
    rw [hlen]
    omega

lemma counted_socketClosed (h : ∀ o, Counted (s.server o)) {p id : Nat}
    (hid : id ∈ (s.server p).live) (err : Bool) (o : Nat) :
    Counted ((s.socketClosed p id err).server o) := by
  obtain ⟨hpos, hclose⟩ := (h p).close hid
  have hne : (s.server p).connections ≠ 0 := Nat.pos_iff_ne_zero.1 hpos
  cases err with
  | true => exact h o
  | false =>
    simp only [Low.socketClosed, Bool.false_eq_true, if_false]
    rw [if_neg hne]
    apply counted_netConnections
    exact counted_set h p hclose

lemma counted_step (s : Low) (i : Input) (h : ∀ o, Counted (s.server o)) (hok : s.NotBelow i) :
    ∀ o, Counted ((s.step i).server o) := by
  intro o
  cases i with
  | event p accept =>
    simp only [Low.step]
    split
    · cases accept <;> exact h o
    · exact h o
  | web => exact counted_stepWeb h o
  | main => exact counted_stepMain h o
  | listen =>
    simp only [Low.step]
    split
    · refine counted_set h s.count ?_ o
      exact ⟨Nat.le_refl _, fun max hmax => by cases hmax⟩
    · exact h o
  | closeServer p =>
    simp only [Low.step]
    split
    · exact counted_flag h (by rfl) o
    · exact h o
  | connection p err =>
    simp only [Low.step]
    split
    · exact counted_connection h p err o
    · exact h o
  | socketClosed p id err =>
    simp only [Low.step]
    split
    case isTrue hen => exact counted_socketClosed h hen.2.2 err o
    case isFalse => exact h o
  | setMaxConnections p max =>
    simp only [Low.step]
    split
    · refine counted_set h p ?_ o
      refine ⟨(h p).1, ?_⟩
      intro max' hmax
      cases hmax
      exact hok
    · exact h o
  | release =>
    simp only [Low.step]
    split <;> exact h o

/-! ### Polling again -/

/-- The main thread goes on for `n` statements. -/
def mains (n : Nat) : List Input := List.replicate n .main

lemma run_mains_succ (s : Low) (n : Nat) :
    machine.run s (mains (n + 1)) = machine.run s.stepMain (mains n) := rfl

/-- A call of `Connections` with room for a connection polls a server that waits for it. -/
lemma run_netConnections (s : Low) {o : Nat} (hopen : (s.server o).isOpen = true)
    (hwait : (s.server o).mWaitForNotTooManyConnections = true)
    (hroom : ∀ max, (s.server o).maxConnections = some max →
      max < 0 ∨ ((s.server o).connections : Int) < max) :
    ((machine.run (s.netConnections o) (mains 4)).server o).polled = true := by
  have hmax : (s.server o).maxConnections.getD (-1) < 0 ∨
      ((s.server o).connections : Int) < (s.server o).maxConnections.getD (-1) := by
    cases hmax : (s.server o).maxConnections with
    | none => exact .inl (by decide)
    | some max => exact hroom max hmax
  simp only [mains, List.replicate, Machine.run_cons, Machine.run_nil, machine, step]
  simp [Low.netConnections, hopen, Low.stepMain, hwait, hmax, setWait, setPolled]

/-- The loop of `~LowFD` polls the servers that do not wait for connections. -/
lemma run_loop (o : Nat) (rest : List Nat) : ∀ s : Low, s.main = .loop rest → o ∈ rest →
    (s.server o).isOpen = true → (s.server o).mWaitForNotTooManyConnections = false →
    ∃ n, ((machine.run s (mains n)).server o).polled = true := by
  induction rest with
  | nil =>
    intro s _ ho
    cases ho
  | cons p rest ih =>
    intro s hmain ho hopen hwait
    by_cases hpo : o = p
    · subst hpo
      refine ⟨2, ?_⟩
      simp only [mains, List.replicate, Machine.run_cons, Machine.run_nil, machine, step]
      simp [Low.stepMain, hmain, hopen, hwait, setPolled]
    · have ho : o ∈ rest := (List.mem_cons.1 ho).resolve_left hpo
      by_cases hp : (s.server p).isOpen ∧ (s.server p).mWaitForNotTooManyConnections = false
      · -- the loop polls `p` and goes on
        have h₁ : s.stepMain.stepMain = { s.setPolled p true with main := .loop rest } := by
          simp [Low.stepMain, hmain, hp, setPolled, set]
        obtain ⟨n, hn⟩ := ih { s.setPolled p true with main := .loop rest } rfl ho
          (by simpa [setPolled, hpo] using hopen) (by simpa [setPolled, hpo] using hwait)
        refine ⟨n + 2, ?_⟩
        rw [run_mains_succ, run_mains_succ, h₁]
        exact hn
      · have h₁ : s.stepMain = { s with main := .loop rest } := by
          simp only [Low.stepMain, hmain, if_neg hp]
        obtain ⟨n, hn⟩ := ih { s with main := .loop rest } rfl ho hopen hwait
        refine ⟨n + 1, ?_⟩
        rw [run_mains_succ, h₁]
        exact hn

/-- The release of a descriptor polls the servers that do not wait for connections, if the flag is set. -/
lemma run_release (s : Low) (hmain : s.main = .idle) {o : Nat} (ho : o < s.count)
    (hopen : (s.server o).isOpen = true) (hreset : s.reset_accepts = true)
    (hwait : (s.server o).mWaitForNotTooManyConnections = false) :
    ∃ n, ((machine.run s (.release :: mains n)).server o).polled = true := by
  have h₁ : (s.step .release).stepMain.stepMain =
      { s with reset_accepts := false, main := .loop (List.range s.count) } := by
    simp [Low.step, hmain, Low.stepMain, hreset]
  obtain ⟨n, hn⟩ := run_loop o (List.range s.count)
    { s with reset_accepts := false, main := .loop (List.range s.count) } rfl
    (List.mem_range.2 ho) hopen hwait
  refine ⟨n + 2, ?_⟩
  rw [Machine.run_cons, run_mains_succ, run_mains_succ]
  change ((machine.run (s.step .release).stepMain.stepMain (mains n)).server o).polled = true
  rw [h₁]
  exact hn

/-! ### All runs -/

/-- The server has room for a connection. -/
def HasRoom (server : ServerSocket) : Prop :=
  ∀ max, server.maxConnections = some max → max < 0 ∨ (server.connections : Int) < max

/-- Between the native functions: the server is polled, or a flag is set and the function it is meant for
polls the server, or the web thread is about to set the flag. -/
def PolledAgain (s : Low) (o : Nat) : Prop :=
  (s.server o).polled = true ∨
    ((s.server o).mWaitForNotTooManyConnections = true ∧ (HasRoom (s.server o) →
      ((machine.run (s.netConnections o) (mains 4)).server o).polled = true)) ∨
    (s.reset_accepts = true ∧
      ∃ n, ((machine.run s (.release :: mains n)).server o).polled = true) ∨
    s.web = .flag o

lemma Armed.polledAgain {o : Nat} (h : s.Armed o) (hmain : s.main = .idle) (ho : o < s.count)
    (hopen : (s.server o).isOpen = true) : s.PolledAgain o := by
  cases hwait : (s.server o).mWaitForNotTooManyConnections with
  | true => exact .inr (.inl ⟨hwait, s.run_netConnections hopen hwait⟩)
  | false =>
    obtain hp | hw | hr | hm | hf := h
    · exact .inl hp
    · cases hwait.symm.trans hw
    · exact .inr (.inr (.inl ⟨hr, s.run_release hmain ho hopen hr hwait⟩))
    · exact absurd hm (idle_not_repolls hmain o)
    · exact .inr (.inr (.inr hf))

/-- A server with the maximum 2 takes a connection, and the web thread accepts another one. -/
def second : List Input :=
  [.listen, .setMaxConnections 0 (some 2), .event 0 .socket, .web, .connection 0 false, .main, .main,
    .event 0 .socket, .web, .web]

end Low
end LowJs.Accepting
