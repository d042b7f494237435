import LowJs.Socket.Datagram

/-!
# What a datagram socket promises

The callbacks of the sends, the reports of the datagrams, and the polling of the socket, each with the
condition on the steps under which it is what it should be.
-/

namespace LowJs.Datagram
namespace LowDatagram

variable {s : LowDatagram}

/-! ### The promises -/

/-- The callbacks of the `Send` call `id`. -/
def answers (s : LowDatagram) (id : Nat) : List (Option Errno) :=
  (s.calls.filter (·.1 == id)).map (·.2)

/-- The callback of a send that `sendto` has taken, or not. -/
def Tells (sent : Bool) (err : Option Errno) : Prop := err = none ↔ sent = true

/-- Every `Send` call has called back once, and with success exactly if `sendto` has taken its packet;
the one whose callback the object keeps has not called back. -/
def Answered (s : LowDatagram) : Prop :=
  ∀ id < s.sends, if s.mSendCallID = some id then s.answers id = []
    else ∃ err, s.answers id = [err] ∧ Tells (s.sent id) err

/-- A datagram waits for the loop. -/
def waiting (s : LowDatagram) : Bool := s.mHasRecv && s.mRecvLen != -1 && s.pc != .inMessage

/-- The datagrams reported, with the one that waits, are those `recvfrom` has returned, in order. -/
def Reported (s : LowDatagram) : Prop :=
  s.recv = s.reports.filterMap (fun | .message m => some m | _ => none) ++
    if s.waiting then [⟨s.mRecvData, s.mRecvAddr⟩] else []

/-- Outside `OnLoop`, the socket is polled for reading or a datagram waits. -/
def Reading (s : LowDatagram) : Prop := s.pc = .idle → s.pollIn = true ∨ s.waiting = true

/-- Outside `OnLoop`, and unless it is due, the socket is polled for reading, and for writing if a send is
to be tried again. -/
def Polling (s : LowDatagram) : Prop :=
  s.pc = .idle → s.looping = false →
    s.pollIn = true ∧ (s.mSendCallID.isSome = true → s.pollOut = true)

/-! ### The conditions -/

/-- What `Send` takes for the success of `sendto` is its success; a send that is done is not done again,
and one whose data is gone does not succeed. -/
def Honest (s : LowDatagram) : Input → Prop
  | .send data (.ok _) sendto => s.mSendCallID = none →
      (sendto.res.isSome = true ∨ (sendto.errno ≠ .EAGAIN ∧ sendto.errno ≠ .EINTR)) →
        (sendto.res.isSome = true ↔ data ≠ [])
  | .events _ true _ sendto => s.mSendCallID.isSome = true → s.mSendData = none →
      s.mSendLen = -1 ∧ sendto.res = none
  | _ => True

/-- `inet_ntop` does not fail. -/
def Named (_ : LowDatagram) : Input → Prop
  | .loop inet_ntop => inet_ntop = none
  | _ => True

/-- An event finds a datagram, or nothing, to be received, unless a datagram waits. -/
def Receives (s : LowDatagram) : Input → Prop
  | .events pollin _ recvfrom _ => s.pc = .idle → s.waiting = false →
      pollin = true ∧ s.mHasRecv = false ∧ (recvfrom.res.isSome = true ∨ recvfrom.errno = .EAGAIN)
  | _ => True

/-- An event is handled, or leads to another attempt at all that it is to try. -/
def Retries (s : LowDatagram) : Input → Prop
  | .events pollin pollout recvfrom sendto => s.pc = .idle → s.looping = false →
      s.handled pollin pollout recvfrom sendto = false →
        s.receives pollin = true ∧ (s.mSendCallID.isSome = true → pollout = true)
  | _ => True

/-! ### The callbacks of the sends -/

lemma answers_call (s : LowDatagram) (id : Nat) (err : Option Errno) (j : Nat) :
    (s.call id err).answers j = s.answers j ++ if id = j then [err] else [] := by
  by_cases h : id = j <;> simp [answers, call, h, List.filter_append]

/-- What is known of the sends: all is as promised, and the fields of a send whose callback the object
keeps say whether `sendto` has taken it. -/
structure Sends (s : LowDatagram) : Prop where
  answered : s.Answered
  unused : ∀ id, s.sends ≤ id → s.answers id = [] ∧ s.sent id = false
  bounded : ∀ id, s.mSendCallID = some id → id < s.sends
  ready : ∀ id data, s.mSendCallID = some id → s.mSendData = some data →
    s.sent id = false ∧ data = (s.packet id).1 ∧ s.mSendLen = data.length ∧
      s.mSendAddr = (s.packet id).2
  done : ∀ id, s.mSendCallID = some id → s.mSendData = none → (s.mSendLen ≠ -1 ↔ s.sent id = true)

/-- The fields the sends rest on. -/
def sendPart (s : LowDatagram) :=
  ((s.mSendData, s.mSendLen, s.mSendAddr, s.mSendCallID), s.sends, s.packet, s.sent, s.calls)

lemma Sends.congr {t : LowDatagram} (h : s.Sends) (hst : t.sendPart = s.sendPart) : t.Sends := by
  simp only [sendPart, Prod.mk.injEq] at hst
  obtain ⟨⟨hd, hl, ha, hc⟩, hn, hp, hs, hcalls⟩ := hst
  have hans : t.answers = s.answers := by
    funext id
    simp only [answers, hcalls]
  constructor
  case answered =>
    intro id hid
    rw [hn] at hid
    rw [hc, hans, hs]
    exact h.answered id hid
  case unused =>
    intro id hid
    rw [hans, hs]
    exact h.unused id (hn ▸ hid)
  case bounded =>
    intro id hid
    rw [hn]
    exact h.bounded id (hc ▸ hid)
  case ready =>
    intro id data hid hdata
    rw [hs, hp, hl, ha]
    exact h.ready id data (hc ▸ hid) (hd ▸ hdata)
  case done =>
    intro id hid hdata
    rw [hs, hl]
    exact h.done id (hc ▸ hid) (hd ▸ hdata)

/-- A `Send` call that calls back at once. -/
lemma Sends.called {t : LowDatagram} (h : s.Sends) {err : Option Errno}
    (hcalls : t.calls = s.calls ++ [(s.sends, err)]) (hn : t.sends = s.sends + 1)
    (hp : ∀ id < s.sends, t.packet id = s.packet id) (hs : ∀ id, id ≠ s.sends → t.sent id = s.sent id)
    (hc : t.mSendCallID = s.mSendCallID)
    (hkeep : s.mSendCallID.isSome = true →
      t.mSendData = s.mSendData ∧ t.mSendLen = s.mSendLen ∧ t.mSendAddr = s.mSendAddr)
    (htells : Tells (t.sent s.sends) err) : t.Sends := by
  have hans (id : Nat) : t.answers id = s.answers id ++ if s.sends = id then [err] else [] := by
    rw [← answers_call]
    simp only [answers, hcalls, call]
  constructor
  case answered =>
    intro id hid
    rw [hc, hans]
    obtain hlt | rfl := Nat.lt_or_eq_of_le (Nat.le_of_lt_succ (hn ▸ hid))
    · have hne : s.sends ≠ id := by omega
      rw [if_neg hne, List.append_nil, hs id hne.symm]
      exact h.answered id hlt
    · have hne : s.mSendCallID ≠ some s.sends := by
        intro hid'
        exact Nat.lt_irrefl _ (h.bounded _ hid')
      rw [if_neg hne, if_pos rfl, (h.unused s.sends (Nat.le_refl _)).1]
      exact ⟨err, rfl, htells⟩
  case unused =>
    intro id hid
    rw [hans, if_neg (by omega), hs id (by omega), List.append_nil]
    exact h.unused id (by omega)
  case bounded =>
    intro id hid
    have := h.bounded id (hc ▸ hid)
    omega
  case ready =>
    intro id data hid hdata
    rw [hc] at hid
    have hlt := h.bounded id hid
    obtain ⟨hd, hl, ha⟩ := hkeep (by simp [hid])
    rw [hs id (by omega), hp id hlt, hl, ha]
    exact h.ready id data hid (hd ▸ hdata)
  case done =>
    intro id hid hdata
    rw [hc] at hid
    have hlt := h.bounded id hid
    obtain ⟨hd, hl, _⟩ := hkeep (by simp [hid])
    rw [hs id (by omega), hl]
    exact h.done id hid (hd ▸ hdata)

/-- A `Send` call whose callback is kept. -/
lemma Sends.kept {t : LowDatagram} (h : s.Sends) (hnone : s.mSendCallID = none)
    (hcalls : t.calls = s.calls) (hn : t.sends = s.sends + 1)
    (hs : ∀ id, id ≠ s.sends → t.sent id = s.sent id) (hunsent : t.sent s.sends = false)
    (hid : t.mSendCallID = some s.sends) (hdata : t.mSendData = some (t.packet s.sends).1)
    (hlen : t.mSendLen = (t.packet s.sends).1.length)
    (haddr : t.mSendAddr = (t.packet s.sends).2) : t.Sends := by
  have hans : t.answers = s.answers := by
    funext id
    simp only [answers, hcalls]
  constructor
  case answered =>
    intro id hlt
    rw [hid, hans]
    obtain hlt | rfl := Nat.lt_or_eq_of_le (Nat.le_of_lt_succ (hn ▸ hlt))
    · have hne : s.sends ≠ id := by omega
      have hbefore := h.answered id hlt
      rw [hnone, if_neg (by simp)] at hbefore
      rw [if_neg (by simpa using hne), hs id hne.symm]
      exact hbefore
    · rw [if_pos rfl]
      exact (h.unused _ (Nat.le_refl _)).1
  case unused =>
    intro id hle
    have hle : s.sends + 1 ≤ id := hn ▸ hle
    rw [hans, hs id (by omega)]
    exact h.unused id (by omega)
  case bounded =>
    intro id hid'
    cases hid.symm.trans hid'
    exact hn ▸ Nat.lt_succ_self _
  case ready =>
    intro id data hid' hdata'
    cases hid.symm.trans hid'
    cases hdata.symm.trans hdata'
    exact ⟨hunsent, rfl, hlen, haddr⟩
  case done =>
    intro id _ hdata'
    cases hdata.symm.trans hdata'

/-- `sendto` of the packet of the call is its success. -/
lemma attempt_sent {id : Nat} {sendto : Syscall Nat} (hd : s.mSendData = some (s.packet id).1)
    (hl : s.mSendLen = (s.packet id).1.length) (ha : s.mSendAddr = (s.packet id).2)
    (hs : s.sent id = false) : (s.attempt id sendto).sent id = sendto.res.isSome := by
  simp [attempt, hd, hl, ha, hs]

lemma attempt_sent_of_ne {id j : Nat} (sendto : Syscall Nat) (h : j ≠ id) :
    (s.attempt id sendto).sent j = s.sent j := by
  simp [attempt, Function.update_of_ne h]

lemma attempt_failed {id : Nat} {sendto : Syscall Nat} (h : sendto.res = none) :
    (s.attempt id sendto).sent id = s.sent id := by
  simp [attempt, h]

lemma Sends.send (h : s.Sends) {data : Bytes} {address : Except Errno Address} {sendto : Syscall Nat}
    (hok : s.Honest (.send data address sendto)) : (s.send data address sendto).Sends := by
  have hunsent : s.sent s.sends = false := (h.unused s.sends (Nat.le_refl _)).2
  have hpacket (addr : Address) : ∀ id < s.sends,
      Function.update s.packet s.sends (data, addr) id = s.packet id := by
    intro id hid
    exact Function.update_of_ne (by omega) _ _
  cases hc : s.mSendCallID with
  | some id =>
    simp only [LowDatagram.send, hc, Option.isSome_some, if_true]
    refine h.called rfl rfl (hpacket _) (fun _ _ => rfl) rfl (fun _ => ⟨rfl, rfl, rfl⟩) ?_
    simp [Tells, newSend, call, hunsent]
  | none =>
    have hnone : s.mSendCallID.isSome = false := by rw [hc]; rfl
    cases address with
    | error err =>
      simp only [LowDatagram.send, hnone, Bool.false_eq_true, if_false]
      refine h.called rfl rfl (hpacket _) (fun _ _ => rfl) rfl (fun _ => ⟨rfl, rfl, rfl⟩) ?_
      simp [Tells, newSend, call, hunsent]
    | ok addr =>
      simp only [LowDatagram.send, hnone, Bool.false_eq_true, if_false]
      generalize hs' : ({ s.newSend data addr with
        mSendAddr := addr, mSendData := some data, mSendLen := (data.length : Int) } :
          LowDatagram) = s'
      have hfields : s'.calls = s.calls ∧ s'.sends = s.sends + 1 ∧ s'.sent = s.sent ∧
          s'.mSendCallID = s.mSendCallID ∧ s'.packet = Function.update s.packet s.sends (data, addr) ∧
          s'.mSendData = some data ∧ s'.mSendLen = data.length ∧ s'.mSendAddr = addr := by
        subst hs'
        exact ⟨rfl, rfl, rfl, rfl, rfl, rfl, rfl, rfl⟩
      obtain ⟨hcalls, hn, hsent, hcall, hpk, hd, hl, ha⟩ := hfields
      have hown : s'.packet s.sends = (data, addr) := by rw [hpk, Function.update_self]
      have hself : (s'.attempt s.sends sendto).sent s.sends = sendto.res.isSome := by
        apply attempt_sent
        · rw [hd, hown]
        · rw [hl, hown]
        · rw [ha, hown]
        · rw [hsent, hunsent]
      have hother : ∀ id, id ≠ s.sends → (s'.attempt s.sends sendto).sent id = s.sent id := by
        intro id hid
        rw [attempt_sent_of_ne sendto hid, hsent]
      split
      case isTrue himm =>
        apply h.called
        case hcalls => exact congrArg (· ++ _) hcalls
        case hn => exact hn
        case hp =>
          intro id hid
          exact (congrFun hpk id).trans (hpacket addr id hid)
        case hs => exact hother
        case hc => exact hcall
        case hkeep => simp [hnone]
        case htells =>
          have himm' : sendto.res.isSome = true ∨ (sendto.errno ≠ .EAGAIN ∧ sendto.errno ≠ .EINTR) := by
            simpa using himm
          have hlen := hok hc himm'
          change Tells ((s'.attempt s.sends sendto).sent s.sends) _
          rw [hself, Tells, hlen]
          cases data <;> simp
      case isFalse hdef =>
        have hres : sendto.res = none := by
          cases hres : sendto.res with
          | none => rfl
          | some n => simp [hres] at hdef
        apply h.kept hc
        case hcalls => exact hcalls
        case hn => exact hn
        case hs => exact hother
        case hunsent =>
          change (s'.attempt s.sends sendto).sent s.sends = false
          rw [hself, hres]
          rfl
        case hid => rfl
        case hdata => exact hd.trans (congrArg (fun d => some d.1) hown.symm)
        case hlen => exact hl.trans (congrArg (fun d => (d.1.length : Int)) hown.symm)
        case haddr => exact ha.trans (congrArg Prod.snd hown.symm)

/-- Another attempt at the send whose callback the object keeps. -/
lemma Sends.onSend (h : s.Sends) {id : Nat} {sendto : Syscall Nat} (hid : s.mSendCallID = some id)
    (hok : s.mSendData = none → s.mSendLen = -1 ∧ sendto.res = none) :
    (s.onSend id sendto).Sends := by
  -- the result of the attempt is what the send comes to
  have hsent : (s.onSend id sendto).sent id = sendto.res.isSome := by
    change (s.attempt id sendto).sent id = _
    cases hd : s.mSendData with
    | some data =>
      obtain ⟨hs, rfl, hl, ha⟩ := h.ready id data hid hd
      exact attempt_sent hd hl ha hs
    | none =>
      obtain ⟨hl, hres⟩ := hok hd
      have hs : s.sent id = false := by
        have := (h.done id hid hd).not
        simpa [hl] using this
      rw [attempt_failed hres, hs, hres]
      rfl
  have hother (j : Nat) (hj : j ≠ id) : (s.onSend id sendto).sent j = s.sent j :=
    attempt_sent_of_ne sendto hj
  constructor
  case answered =>
    intro j hj
    have := h.answered j hj
    change if s.mSendCallID = some j then s.answers j = [] else _
    rw [hid] at this ⊢
    split
    case isTrue heq => rwa [if_pos heq] at this
    case isFalse hne =>
      rw [if_neg hne] at this
      rw [hother j (by rintro rfl; exact hne rfl)]
      exact this
  case unused =>
    intro j hj
    have hlt := h.bounded id hid
    have hj : s.sends ≤ j := hj
    rw [hother j (by omega)]
    exact h.unused j hj
  case bounded => exact h.bounded
  case ready =>
    intro j data _ hdata
    cases hdata
  case done =>
    intro j hj _
    cases hid.symm.trans hj
    rw [hsent]
    simp only [LowDatagram.onSend]
    cases sendto.res with
    | none => simp
    | some n =>
      simp only [Option.elim_some, Option.isSome_some, iff_true]
      omega

lemma Sends.onEvents (h : s.Sends) {pollin pollout : Bool} {recvfrom : Syscall Message}
    {sendto : Syscall Nat} (hok : s.Honest (.events pollin pollout recvfrom sendto)) :
    (s.onEvents pollin pollout recvfrom sendto).Sends := by
  have h₁ : (if s.receives pollin then s.onReceive recvfrom else s).Sends := by
    split
    · exact h.congr rfl
    · exact h
  have hcall : (if s.receives pollin then s.onReceive recvfrom else s).mSendCallID = s.mSendCallID ∧
      (if s.receives pollin then s.onReceive recvfrom else s).mSendData = s.mSendData ∧
      (if s.receives pollin then s.onReceive recvfrom else s).mSendLen = s.mSendLen := by
    split <;> exact ⟨rfl, rfl, rfl⟩
  simp only [LowDatagram.onEvents]
  generalize (if s.receives pollin then s.onReceive recvfrom else s) = s₁ at h₁ hcall ⊢
  obtain ⟨hc, hd, hl⟩ := hcall
  cases hid : s.mSendCallID with
  | none => exact h₁.congr rfl
  | some id =>
    cases pollout with
    | false => exact h₁.congr rfl
    | true =>
      have hres : s₁.mSendData = none → s₁.mSendLen = -1 ∧ sendto.res = none := by
        intro hdata
        rw [hl]
        exact hok (by rw [hid]; rfl) (hd.symm.trans hdata)
      exact (h₁.onSend (hc.trans hid) hres).congr rfl

lemma Sends.loopSend (h : s.Sends) : s.loopSend.Sends := by
  simp only [LowDatagram.loopSend]
  cases hd : s.mSendData with
  | some data =>
    cases hid : s.mSendCallID with
    | none => exact h.congr (by simp only [sendPart, hd, hid])
    | some id => exact h.congr (by simp only [sendPart, hd, hid])
  | none =>
    cases hid : s.mSendCallID with
    | none => exact h.congr (by simp only [sendPart, hd, hid])
    | some id =>
      dsimp only
      generalize herr : (if s.mSendLen = -1 then some s.mSendErr else none) = err
      have hans (j : Nat) : answers { s.call id err with mSendCallID := none, pc := .inSend } j =
          s.answers j ++ if id = j then [err] else [] := by
        rw [← answers_call]
        rfl
      constructor
      case answered =>
        intro j hj
        rw [hans]
        have := h.answered j hj
        rw [hid] at this
        dsimp only
        rw [if_neg (by simp)]
        by_cases hj : id = j
        · subst hj
          rw [if_pos rfl] at this
          rw [this, if_pos rfl]
          refine ⟨err, rfl, ?_⟩
          have hdone := h.done id hid hd
          change err = none ↔ s.sent id = true
          rw [← hdone, ← herr]
          by_cases hl : s.mSendLen = -1 <;> simp [hl]
        · rw [if_neg (by simpa using hj)] at this
          rw [if_neg hj, List.append_nil]
          exact this
      case unused =>
        intro j hj
        have hlt := h.bounded id hid
        have hj : s.sends ≤ j := hj
        have hne : id ≠ j := by omega
        rw [hans, if_neg hne, List.append_nil]
        exact h.unused j hj
      case bounded => simp
      case ready => simp
      case done => simp

lemma onReport_sendPart (s : LowDatagram) (r : Report) : (s.onReport r).sendPart = s.sendPart := by
  cases r <;> rfl

lemma Sends.loop (h : s.Sends) (inet_ntop : Option Errno) : (s.loop inet_ntop).Sends := by
  simp only [LowDatagram.loop]
  split
  · apply h.congr
    exact onReport_sendPart { s with looping := false } _
  · exact h.congr rfl

lemma Sends.step (s : LowDatagram) (i : Input) (h : s.Sends) (hok : s.Honest i) : (s.step i).Sends := by
  simp only [LowDatagram.step]
  split
  case isFalse => exact h
  case isTrue =>
    cases i with
    | send => exact h.send hok
    | events => exact h.onEvents hok
    | loop inet_ntop => exact h.loop inet_ntop
    | messageReturns => exact h.congr rfl
    | loopSend => exact h.loopSend
    | loopEnd => exact h.congr rfl

lemma sends_bound : Sends bound := by
  constructor
  case answered =>
    intro id hid
    cases hid
  case unused => exact fun _ _ => ⟨rfl, rfl⟩
  case bounded => simp [bound]
  case ready => simp [bound]
  case done => simp [bound]

/-! ### The reports of the datagrams -/

/-- What is known of the receipts: all is as promised, and a datagram that waits is whole. -/
structure Receipts (s : LowDatagram) : Prop where
  reported : s.Reported
  whole : s.waiting = true → s.mRecvLen = s.mRecvData.length
  calling : s.pc = .inMessage → s.mHasRecv = true

/-- The fields the receipts rest on. -/
def recvPart (s : LowDatagram) :=
  ((s.mHasRecv, s.mRecvData, s.mRecvLen, s.mRecvAddr), s.recv, s.reports)

lemma waiting_congr {t : LowDatagram} (hhas : t.mHasRecv = s.mHasRecv) (hl : t.mRecvLen = s.mRecvLen)
    (hpc : t.pc = .inMessage ↔ s.pc = .inMessage) : t.waiting = s.waiting := by
  have : (t.pc != .inMessage) = (s.pc != .inMessage) := by
    rw [Bool.eq_iff_iff]
    simpa using hpc.not
  simp only [waiting, hhas, hl, this]

lemma Receipts.congr {t : LowDatagram} (h : s.Receipts) (hst : t.recvPart = s.recvPart)
    (hpc : t.pc = .inMessage ↔ s.pc = .inMessage) : t.Receipts := by
  simp only [recvPart, Prod.mk.injEq] at hst
  obtain ⟨⟨hhas, hd, hl, ha⟩, hrecv, hreports⟩ := hst
  have hw : t.waiting = s.waiting := waiting_congr hhas hl hpc
  constructor
  case reported =>
    have := h.reported
    simp only [Reported] at this ⊢
    rwa [hw, hrecv, hreports, hd, ha]
  case whole =>
    rw [hw, hl, hd]
    exact h.whole
  case calling =>
    rw [hpc, hhas]
    exact h.calling

lemma waiting_of_inMessage (h : s.pc = .inMessage) : s.waiting = false := by
  simp [waiting, h]

/-- A call of `Send` leaves the receipts alone, and the polling for reading. -/
lemma send_frame (s : LowDatagram) (data : Bytes) (address : Except Errno Address)
    (sendto : Syscall Nat) :
    (s.send data address sendto).recvPart = s.recvPart ∧ (s.send data address sendto).pc = s.pc ∧
      (s.send data address sendto).looping = s.looping ∧
      (s.pollIn = true → (s.send data address sendto).pollIn = true) := by
  simp only [LowDatagram.send]
  split
  · exact ⟨rfl, rfl, rfl, id⟩
  cases address with
  | error err => exact ⟨rfl, rfl, rfl, id⟩
  | ok addr =>
    dsimp only
    split
    · exact ⟨rfl, rfl, rfl, id⟩
    · exact ⟨rfl, rfl, rfl, fun _ => rfl⟩

lemma Receipts.send (h : s.Receipts) (data : Bytes) (address : Except Errno Address)
    (sendto : Syscall Nat) : (s.send data address sendto).Receipts := by
  obtain ⟨hrecv, hpc, _⟩ := s.send_frame data address sendto
  exact h.congr hrecv (by rw [hpc])

/-- A datagram that `recvfrom` has returned waits. -/
lemma onReceive_waiting (s : LowDatagram) (recvfrom : Syscall Message) (hpc : s.pc ≠ .inMessage) :
    (s.onReceive recvfrom).waiting = recvfrom.res.isSome := by
  have hpc' : (s.pc != .inMessage) = true := by simpa using hpc
  simp only [waiting, LowDatagram.onReceive, Bool.true_and, hpc', Bool.and_true]
  cases recvfrom.res with
  | none => rfl
  | some m =>
    have : ((m.data.length : Int) ≠ -1) := by omega
    simp

lemma Receipts.onReceive (h : s.Receipts) (hhas : s.mHasRecv = false) (recvfrom : Syscall Message) :
    (s.onReceive recvfrom).Receipts := by
  have hpc : s.pc ≠ .inMessage := by
    intro hpc
    cases hhas.symm.trans (h.calling hpc)
  have hw : s.waiting = false := by simp [waiting, hhas]
  have hrep := h.reported
  simp only [Reported, hw, Bool.false_eq_true, if_false, List.append_nil] at hrep
  have hw' : (s.onReceive recvfrom).waiting = recvfrom.res.isSome :=
    s.onReceive_waiting recvfrom hpc
  constructor
  case reported =>
    simp only [Reported, hw']
    simp only [LowDatagram.onReceive]
    cases recvfrom.res with
    | none => simpa using hrep
    | some m => simp [hrep]
  case whole =>
    rw [hw']
    simp only [LowDatagram.onReceive]
    cases recvfrom.res with
    | none => simp
    | some m => simp
  case calling => exact fun _ => rfl

lemma Receipts.onEvents (h : s.Receipts) (pollin pollout : Bool) (recvfrom : Syscall Message)
    (sendto : Syscall Nat) : (s.onEvents pollin pollout recvfrom sendto).Receipts := by
  have h₁ : (if s.receives pollin then s.onReceive recvfrom else s).Receipts := by
    split
    case isTrue hr =>
      have : pollin = true ∧ s.mHasRecv = false := by simpa [receives] using hr
      exact h.onReceive this.2 recvfrom
    case isFalse => exact h
  simp only [LowDatagram.onEvents]
  generalize (if s.receives pollin then s.onReceive recvfrom else s) = s₁ at h₁ ⊢
  cases s.mSendCallID with
  | none => exact h₁.congr rfl Iff.rfl
  | some id => cases pollout <;> exact h₁.congr rfl Iff.rfl

lemma Receipts.loop (h : s.Receipts) (hpc : s.pc = .idle) : (s.loop none).Receipts := by
  simp only [LowDatagram.loop]
  split
  case isFalse =>
    refine h.congr rfl ?_
    simp [hpc]
  case isTrue hhas =>
    have hreport : report { s with looping := false } none = if s.waiting then
        .message ⟨s.mRecvData, s.mRecvAddr⟩ else .recvfrom s.mRecvErr := by
      by_cases hl : s.mRecvLen = -1
      · simp [report, waiting, hl]
      · have hw : s.waiting = true := by simp [waiting, hhas, hl, hpc]
        have hwhole := h.whole hw
        simp only [report, hl, if_false, hw, if_true]
        simp [hwhole]
    have hrep := h.reported
    simp only [Reported] at hrep
    constructor
    case reported =>
      simp only [Reported, waiting_of_inMessage, Bool.false_eq_true, if_false, List.append_nil,
        hreport, List.filterMap_append]
      cases hw : s.waiting with
      | true =>
        rw [hw] at hrep
        simpa [onReport] using hrep
      | false =>
        rw [hw] at hrep
        simpa [onReport] using hrep
    case whole => simp [waiting]
    case calling =>
      intro _
      rw [hreport]
      split <;> exact hhas

lemma Receipts.step (s : LowDatagram) (i : Input) (h : s.Receipts) (hok : s.Named i) :
    (s.step i).Receipts := by
  simp only [LowDatagram.step]
  split
  case isFalse => exact h
  case isTrue hen =>
    cases i with
    | send data address sendto => exact h.send data address sendto
    | events pollin pollout recvfrom sendto => exact h.onEvents pollin pollout recvfrom sendto
    | loop inet_ntop =>
      cases hok
      have : s.pc = .idle ∧ s.looping = true := by simpa [enabled] using hen
      exact h.loop this.1
    | messageReturns =>
      have hpc : s.pc = .inMessage := by simpa [enabled] using hen
      have hrep := h.reported
      simp only [Reported, waiting_of_inMessage hpc] at hrep
      constructor
      case reported => simpa [Reported, waiting, LowDatagram.apply] using hrep
      case whole => simp [waiting, LowDatagram.apply]
      case calling => simp [LowDatagram.apply]
    | loopSend =>
      have hpc : s.pc = .received := by simpa [enabled] using hen
      simp only [LowDatagram.apply, LowDatagram.loopSend]
      cases s.mSendData with
      | some data => cases s.mSendCallID <;> exact h.congr rfl (by simp [hpc])
      | none => cases s.mSendCallID <;> exact h.congr rfl (by simp [hpc])
    | loopEnd =>
      have hpc : s.pc = .inSend ∨ s.pc = .sent := by simpa [enabled] using hen
      refine h.congr rfl ?_
      obtain hpc | hpc := hpc <;> simp [hpc, LowDatagram.apply, LowDatagram.loopEnd]

lemma receipts_bound : Receipts bound := by
  constructor
  case reported => rfl
  case whole => simp [waiting, bound]
  case calling => simp [bound]

/-! ### The polling -/

/-- What an event leaves of the receipts and the polling. -/
lemma onEvents_frame (s : LowDatagram) (pollin pollout : Bool) (recvfrom : Syscall Message)
    (sendto : Syscall Nat) :
    (s.onEvents pollin pollout recvfrom sendto).pc = s.pc ∧
      (s.onEvents pollin pollout recvfrom sendto).mSendCallID = s.mSendCallID ∧
      (s.onEvents pollin pollout recvfrom sendto).waiting =
        (if s.receives pollin then s.onReceive recvfrom else s).waiting := by
  have hpc : (if s.receives pollin then s.onReceive recvfrom else s).pc = s.pc := by
    split <;> rfl
  have hcall : (if s.receives pollin then s.onReceive recvfrom else s).mSendCallID =
      s.mSendCallID := by
    split <;> rfl
  simp only [LowDatagram.onEvents]
  generalize (if s.receives pollin then s.onReceive recvfrom else s) = s₁ at hpc hcall ⊢
  rw [← hcall, ← hpc]
  cases hid : s₁.mSendCallID with
  | none => exact ⟨rfl, hid, rfl⟩
  | some id => cases pollout <;> exact ⟨rfl, hid, rfl⟩

lemma reading_onEvents {pollin pollout : Bool} {recvfrom : Syscall Message}
    {sendto : Syscall Nat} (hok : s.Receives (.events pollin pollout recvfrom sendto)) :
    (s.onEvents pollin pollout recvfrom sendto).Reading := by
  intro hpc
  obtain ⟨hpc', _, hw'⟩ := s.onEvents_frame pollin pollout recvfrom sendto
  rw [hpc'] at hpc
  rw [hw']
  cases hw : s.waiting with
  | true =>
    -- the datagram still waits: nothing more is received
    have hhas : s.mHasRecv = true := by
      have : (s.mHasRecv = true ∧ s.mRecvLen ≠ -1) ∧ s.pc ≠ .inMessage := by
        simpa [waiting] using hw
      exact this.1.1
    right
    simp [receives, hhas, hw]
  | false =>
    obtain ⟨rfl, hhas, hres⟩ := hok hpc hw
    have hr : s.receives true = true := by simp [receives, hhas]
    rw [if_pos hr, s.onReceive_waiting recvfrom (by simp [hpc])]
    cases hsome : recvfrom.res with
    | some m => exact .inr rfl
    | none =>
      left
      have herr : recvfrom.errno = .EAGAIN := by simpa [hsome] using hres
      simp [LowDatagram.onEvents, hr, Syscall.handled, hsome, herr]

lemma Reading.step (s : LowDatagram) (i : Input) (h : s.Reading) (hok : s.Receives i) :
    (s.step i).Reading := by
  simp only [LowDatagram.step]
  split
  case isFalse => exact h
  case isTrue hen =>
    cases i with
    | send data address sendto =>
      obtain ⟨hrecv, hpc, _, hin⟩ := s.send_frame data address sendto
      simp only [recvPart, Prod.mk.injEq] at hrecv
      intro hidle
      have hw : (s.send data address sendto).waiting = s.waiting :=
        waiting_congr hrecv.1.1 hrecv.1.2.2.1 (by rw [hpc])
      obtain hpoll | hwait := h (hpc.symm.trans hidle)
      · exact .inl (hin hpoll)
      · exact .inr (hw.trans hwait)
    | events pollin pollout recvfrom sendto => exact reading_onEvents hok
    | loop inet_ntop =>
      intro hidle
      simp only [LowDatagram.apply, LowDatagram.loop] at hidle
      split at hidle <;> cases hidle
    | messageReturns => simp [Reading, LowDatagram.apply]
    | loopSend =>
      intro hidle
      simp only [LowDatagram.apply, LowDatagram.loopSend] at hidle
      split at hidle <;> cases hidle
    | loopEnd => exact fun _ => .inl rfl

lemma Polling.send (h : s.Polling) (data : Bytes) (address : Except Errno Address)
    (sendto : Syscall Nat) : (s.send data address sendto).Polling := by
  intro hidle hloop
  obtain ⟨_, hpc, hlooping, _⟩ := s.send_frame data address sendto
  have hs := h (hpc.symm.trans hidle) (hlooping.symm.trans hloop)
  simp only [LowDatagram.send]
  split
  · exact hs
  cases address with
  | error err => exact hs
  | ok addr =>
    dsimp only
    split
    · exact hs
    · exact ⟨rfl, fun _ => rfl⟩

lemma polling_onEvents {pollin pollout : Bool} {recvfrom : Syscall Message}
    {sendto : Syscall Nat} (hok : s.Retries (.events pollin pollout recvfrom sendto)) :
    (s.onEvents pollin pollout recvfrom sendto).Polling := by
  intro hidle hloop
  obtain ⟨hpc, hcall, _⟩ := s.onEvents_frame pollin pollout recvfrom sendto
  have hloop' : s.looping = false ∧ s.handled pollin pollout recvfrom sendto = false := by
    simpa [LowDatagram.onEvents] using hloop
  obtain ⟨hin, hout⟩ := hok (hpc.symm.trans hidle) hloop'.1 hloop'.2
  have hun := hloop'.2
  simp only [handled, Bool.or_eq_false_iff, hin, Bool.true_and] at hun
  constructor
  · simp [LowDatagram.onEvents, hin, hun.1]
  · intro hsome
    rw [hcall] at hsome
    have hr : s.resends pollout = true := by simp [resends, hout hsome, hsome]
    rw [hr, Bool.true_and] at hun
    simp [LowDatagram.onEvents, hr, hun.2]

lemma Polling.step (s : LowDatagram) (i : Input) (h : s.Polling) (hok : s.Retries i) :
    (s.step i).Polling := by
  simp only [LowDatagram.step]
  split
  case isFalse => exact h
  case isTrue hen =>
    cases i with
    | send data address sendto => exact h.send data address sendto
    | events pollin pollout recvfrom sendto => exact polling_onEvents hok
    | loop inet_ntop =>
      intro hidle
      simp only [LowDatagram.apply, LowDatagram.loop] at hidle
      split at hidle <;> cases hidle
    | messageReturns => simp [Polling, LowDatagram.apply]
    | loopSend =>
      intro hidle
      simp only [LowDatagram.apply, LowDatagram.loopSend] at hidle
      split at hidle <;> cases hidle
    | loopEnd => exact fun _ _ => ⟨rfl, fun hsome => hsome⟩

/-! ### All runs -/

/-- A send that is tried again once, and a datagram that comes with the second attempt. -/
def exchange : List Input :=
  [.send [1] (.ok noAddress) ⟨none, .EAGAIN⟩,
    .events true true ⟨some ⟨[2], noAddress⟩, .other 0⟩ ⟨some 1, .other 0⟩,
    .loop none, .messageReturns, .loopSend, .loopEnd]

end LowDatagram
end LowJs.Datagram
