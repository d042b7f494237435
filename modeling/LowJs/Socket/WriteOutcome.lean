import LowJs.Socket.Wakeups

/-!
# What a write is told

`Write` and the pair of `OnEvents` and `OnLoop` each decide whether an attempt has written something,
is to be tried again or has failed. `Write` decides on the error of the write, `OnEvents` on the last
error of the read side, and both take a write of no bytes for something else.
-/

namespace LowJs.Sockets

namespace LowSocket

/-- What the callback of a write is to be told of an attempt: the number of bytes, the error, or
nothing yet. -/
def outcome (s : LowSocket) (n : Nat) (results : List SysResult) : Option Answer :=
  if s.stdout then some ((stdoutWrite n results).elim (.ok n) .error)
  else
    let r := s.DoWrite n results
    if r.1 ≥ 0 then some (.ok r.1) else if r.2.hard then some (.error r.2) else none

/-- What the callback of `call` is told between two states. -/
def told (s t : LowSocket) (call : Nat) : List Answer :=
  ((t.answers.drop s.answers.length).filter fun a => a.1 == call).map Prod.snd

/-- The state in which the next write waits for an attempt of the web thread. -/
def writeWaits (s : LowSocket) (n : Nat) : LowSocket :=
  { s with
    calls := s.calls + 1
    mWritePos := 0
    mWriteData := true
    mWriteLen := n }.writeLater (s.calls + 1)

/-- A connected socket that takes the next write, outside of `OnLoop`. -/
structure CanWrite (s : LowSocket) : Prop where
  mConnected : s.mConnected = true
  handshakeOver : s.tls = true → s.handshakeOver = true
  mClosed : s.mClosed = false
  mDestroyed : s.mDestroyed = false
  mAcceptConnectError : s.mAcceptConnectError = false
  mAcceptConnectCallID : s.mAcceptConnectCallID = false
  mWriteData : s.mWriteData = false
  inCallback : s.inCallback = none
  gone : s.gone = false
  mReadCallID : s.mReadCallID ≤ s.calls

/-- An attempt made by `Write` tells the callback what it is to be told. -/
def ToldAtOnce (s : LowSocket) (n : Nat) (e : Events) : Prop :=
  s.stdout = true ∨ s.tls = false →
    s.told (s.Write n e.writes) (s.calls + 1) = (s.outcome n e.writes).toList

/-- So does one made by `OnEvents`, once `OnLoop` has run. -/
def ToldLater (s : LowSocket) (n : Nat) (e : Events) : Prop :=
  s.stdout = false →
    s.told (machine.run (s.writeWaits n) [.events e, .loop false, .resume, .resume]) (s.calls + 1) =
      (s.outcome n e.writes).toList

/-- The last error of the read side when the write part of `OnEvents` decides. -/
def readErrnoThen (s : LowSocket) (e : Events) : Errno :=
  if s.TriesRead e then (s.DoRead s.mReadLen e.reads).2 else s.mReadErrno

/-- The first call writes something, or it fails as the read side has failed last: both for good or
both to be tried again. On the descriptors 1 and 2 no call fails for good. -/
def Decides (s : LowSocket) (n : Nat) (e : Events) : Prop :=
  if s.stdout = true then stdoutWrite n e.writes = none
  else n ≠ 0 ∧ match firstError (writeError s.tls) e.writes with
    | some errno => errno.hard = (s.readErrnoThen e).hard
    | none => e.writes.head? ≠ some (.size 0)

instance (s : LowSocket) (n : Nat) (e : Events) : Decidable (s.Decides n e) := by
  unfold Decides
  cases firstError (writeError s.tls) e.writes <;> infer_instance

/-! ### The attempt -/

lemma writeError_ne_none (tls : Bool) (code : Int) : writeError tls code ≠ none := by
  unfold writeError
  split_ifs <;> simp

/-- The loop moves something exactly when the first call does. -/
lemma transfer_pos {onError : Int → Option Errno} {want n : Nat} (hwant : want ≠ 0) (errno : Errno)
    (results : List SysResult) :
    0 < (transfer onError want 0 errno (.size (n + 1) :: results)).1 := by
  have := @le_transfer onError want (0 + min (n + 1) (want - 0)) (by omega) errno results
  simp only [transfer, if_neg hwant.symm]
  omega

variable {s : LowSocket} {n : Nat} {e : Events}

lemma DoWrite_cases (s : LowSocket) (n : Nat) (results : List SysResult) :
    (n ≠ 0 ∧ firstError (writeError s.tls) results = none ∧ results.head? ≠ some (.size 0) ∧
        0 < (s.DoWrite n results).1) ∨
      ((n = 0 ∨ (firstError (writeError s.tls) results = none ∧ results.head? = some (.size 0))) ∧
        (s.DoWrite n results).1 = 0) ∨
      ∃ errno, n ≠ 0 ∧ firstError (writeError s.tls) results = some errno ∧
        s.DoWrite n results = (-1, errno) := by
  by_cases hn : n = 0
  · right; left
    refine ⟨.inl hn, ?_⟩
    subst hn
    cases results <;> simp [DoWrite, transfer]
  rcases results with _ | ⟨(_ | k) | code, results⟩
  · exact .inr (.inr ⟨_, hn, rfl, transfer_of_error hn rfl _⟩)
  · exact .inr (.inl ⟨.inr ⟨rfl, rfl⟩, by simp [DoWrite, transfer, Ne.symm hn]⟩)
  · exact .inl ⟨hn, rfl, by simp, transfer_pos hn _ _⟩
  · obtain ⟨errno, herrno⟩ := Option.ne_none_iff_exists'.mp (writeError_ne_none s.tls code)
    have hfirst : firstError (writeError s.tls) (.error code :: results) = some errno := herrno
    exact .inr (.inr ⟨errno, hn, hfirst, transfer_of_error hn hfirst _⟩)

/-! ### The attempt of `Write` -/

lemma toldAtOnce_iff (hs : s.CanWrite) (hout : s.stdout = false) :
    s.ToldAtOnce n e ↔ (s.tls = false → (s.DoWrite n e.writes).1 ≠ 0) := by
  simp only [ToldAtOnce, hout, Bool.false_eq_true, false_or]
  refine forall_congr' fun htls => ?_
  have hw : s.Write n e.writes =
      let r := s.DoWrite n e.writes
      let t := { s with calls := s.calls + 1, mWritePos := 0, mWriteData := true, mWriteLen := n }
      if r.1 ≥ 0 || r.2.hard then (t.tookWrite (s.calls + 1) r).writeDone (s.calls + 1) r.1
      else (t.tookWrite (s.calls + 1) r).writeLater (s.calls + 1) := by
    simp [Write, hout, hs.mWriteData, hs.mClosed, tryNow, htls, hs.mConnected, DoWrite, tookWrite,
      attempted]
  rw [hw]
  rcases s.DoWrite_cases n e.writes with ⟨-, -, -, hpos⟩ | ⟨-, hzero⟩ | ⟨errno, -, -, hr⟩
  · have h₀ : 0 ≤ (s.DoWrite n e.writes).1 := hpos.le
    simp [outcome, hout, told, writeDone, answer, tookWrite, attempted, hpos, h₀, hpos.ne']
  · simp [outcome, hout, told, writeDone, answer, tookWrite, attempted, hzero]
  · cases hh : errno.hard with
    | true => simp [outcome, hout, told, writeDone, answer, tookWrite, attempted, hr, hh]
    | false => simp [outcome, hout, told, writeLater, setPollEvents, tookWrite, attempted, hr, hh]

/-! ### The attempt of `OnEvents` -/

/-- What `OnLoop` will tell the write callback. -/
def report (s : LowSocket) : List Answer :=
  if s.mWritePos = 0 then []
  else [if s.mWritePos > 0 then .ok s.mWritePos else .error s.mWriteErrno]

/-- The write part of `OnLoop` tells the callback of the write that waits. -/
lemma loopWrite_resume {t : LowSocket} (hdata : t.mWriteData = true) :
    t.loopWrite.resume.answers = t.answers ++ t.report.map (t.mWriteCallID, ·) ∧
      t.loopWrite.gone = t.gone ∧ t.loopWrite.resume.gone = t.gone ∧
      t.loopWrite.resume.inCallback = none := by
  by_cases hpos : t.mWritePos = 0
  · simp [loopWrite, loopEnd, setPollEvents, resume, report, hdata, hpos]
  · simp [loopWrite, loopEnd, setPollEvents, resume, report, answer, hdata, hpos]

/-- `OnLoop` with callbacks that return tells the callback of the write that waits, and may tell the
callback of a read before. -/
lemma finish_loop {t : LowSocket} (hc : t.mConnected = true) (hg : t.gone = false)
    (hi : t.inCallback = none) (hdata : t.mWriteData = true) (hd : t.mDestroyed = false)
    (ha : t.mAcceptConnectCallID = false) (he : t.mAcceptConnectError = false)
    (hq : t.loopQueued = true) :
    ∃ reads, (∀ a ∈ reads, a.1 = t.mReadCallID) ∧
      (machine.run t [.loop false, .resume, .resume]).answers =
        t.answers ++ reads ++ t.report.map (t.mWriteCallID, ·) := by
  have hstep : machine.step t (.loop false) = { t with loopQueued := false }.loopRead := by
    simp [machine, step, call, OnLoop, hg, hi, hq, hd, ha, he]
  have hnone : ∀ u : LowSocket, u.inCallback = none → u.resume = u := fun u hu => by simp [resume, hu]
  have hresume : ∀ u : LowSocket, u.gone = false → machine.step u .resume = u.resume := fun u hu => by
    simp [machine, step, call, hu]
  simp only [Machine.run_cons, Machine.run_nil, hstep]
  by_cases hread : (t.mReadData && (t.mClosed || t.mReadPos != 0)) = true
  · -- the read callback first
    set u : LowSocket := { t with
      loopQueued := false, mReadCallID := 0, mReadData := false, inCallback := some .read }.answer
        t.mReadCallID (if t.mReadPos ≥ 0 then .ok t.mReadPos else .error t.mReadErrno) with hu
    have hloop : ({ t with loopQueued := false } : LowSocket).loopRead = u := by
      simp only [loopRead, hc, hread, Bool.not_true, Bool.false_eq_true, if_false, if_true, hu]
    have hur : u.resume = u.loopWrite := by simp [resume, hu, answer]
    obtain ⟨hans, hgone, -, -⟩ := loopWrite_resume (t := u) hdata
    rw [hloop, hresume u hg, hur, hresume _ (hgone.trans hg), hans]
    exact ⟨_, fun a ha => by simpa using congrArg Prod.fst (List.mem_singleton.mp ha), rfl⟩
  · have hloop : ({ t with loopQueued := false } : LowSocket).loopRead =
        ({ t with loopQueued := false } : LowSocket).loopWrite := by
      simp only [loopRead, hc, Bool.not_true, Bool.false_eq_true, if_false]
      rw [if_neg hread]
    obtain ⟨hans, hgone, hgone', hcb⟩ :=
      loopWrite_resume (t := { t with loopQueued := false }) hdata
    rw [hloop, hresume _ (hgone.trans hg), hresume _ (hgone'.trans hg), hnone _ hcb, hans]
    exact ⟨[], by simp, by simp [report]⟩

/-- The write that waits after `OnEvents`: its position and its error come from the attempt, where the
error of the read side has let it count. -/
lemma writeWaits_events (hs : s.CanWrite) (he : e.writable = true) :
    ∃ t, machine.step (s.writeWaits n) (.events e) = t ∧ t.answers = s.answers ∧
      t.mReadCallID = s.mReadCallID ∧ t.mWriteCallID = s.calls + 1 ∧ t.mConnected = true ∧
      t.gone = false ∧ t.inCallback = none ∧ t.mWriteData = true ∧ t.mDestroyed = false ∧
      t.mAcceptConnectCallID = false ∧ t.mAcceptConnectError = false ∧
      (t.mWritePos ≠ 0 → t.loopQueued = true) ∧
      t.mWriteErrno = (s.DoWrite n e.writes).2 ∧
      t.mWritePos = if 0 ≤ (s.DoWrite n e.writes).1 ∨ (s.readErrnoThen e).hard = true then
        (s.DoWrite n e.writes).1 else 0 := by
  set u := s.writeWaits n with hu
  have hstep : machine.step u (.events e) = u.eventsTransfer e := by
    have htls : (s.tls && !s.handshakeOver) = false := by
      cases h : s.tls with
      | true => simp [hs.handshakeOver h]
      | false => rfl
    simp [machine, step, call, OnEvents, eventsConnect, hu, writeWaits, writeLater, setPollEvents,
      hs.gone, hs.mDestroyed, hs.mAcceptConnectError, hs.mClosed, htls, hs.mConnected]
  -- the read part sets the error of the read side only
  obtain ⟨v, change, hread, closed, pos, attempts, hv⟩ : ∃ v change, u.eventsRead e = (v, change) ∧
      (∃ closed pos attempts, v = { u with
        mClosed := closed, mReadPos := pos, attempts := attempts, mReadErrno := s.readErrnoThen e }) := by
    rcases u.eventsRead_cases e with ⟨hr, hre⟩ | ⟨errno, hr, hlen, hfirst, hsoft, hre⟩ |
      ⟨r, hr, hdo, -, hre⟩
    · have hthen : s.readErrnoThen e = u.mReadErrno := if_neg hr
      exact ⟨_, _, hre, _, _, _, by rw [hthen]⟩
    · have hdo : s.DoRead s.mReadLen e.reads = (-1, errno) := transfer_of_error hlen hfirst _
      have hthen : s.readErrnoThen e = errno := (if_pos hr).trans (congrArg Prod.snd hdo)
      exact ⟨_, _, hre, u.mClosed, u.mReadPos, _, by rw [hthen]; rfl⟩
    · have hthen : s.readErrnoThen e = r.2 := (if_pos hr).trans (congrArg Prod.snd hdo)
      exact ⟨_, _, hre, _, _, _, by rw [hthen]; rfl⟩
  have hdo : v.DoWrite v.mWriteLen e.writes = s.DoWrite n e.writes := by rw [hv]; rfl
  have htries : v.TriesWrite e := by rw [hv]; exact ⟨he, rfl, rfl⟩
  have hcount : (v.mReadErrno = s.readErrnoThen e) := by rw [hv]
  refine ⟨_, hstep, ?_⟩
  simp only [eventsTransfer, hread]
  rcases eventsWrite_cases v change e with ⟨hw, -⟩ | ⟨errno, -, hlen, hfirst, hsoft, hwe⟩ |
    ⟨r, -, hr, hmoved, hwe⟩
  · exact absurd htries hw
  · have hr : s.DoWrite n e.writes = (-1, errno) := by
      rw [← hdo]
      exact transfer_of_error hlen hfirst _
    rw [hcount] at hsoft
    rw [hwe, hr]
    simp only [hsoft]
    cases change <;>
      simp [tookWrite, attempted, setPollEvents, setLoopCallback, hv, hu, writeWaits, writeLater,
        hs.mConnected, hs.gone, hs.inCallback, hs.mDestroyed, hs.mAcceptConnectCallID,
        hs.mAcceptConnectError]
  · rw [hdo] at hr
    have hmoved : 0 ≤ (s.DoWrite n e.writes).1 ∨ (s.readErrnoThen e).hard = true := by
      rw [hr, ← hcount]
      exact hmoved.imp_right And.right
    rw [hwe, if_pos hmoved, hr]
    simp [tookWrite, attempted, setPollEvents, setLoopCallback, hv, hu, writeWaits, writeLater,
      hs.mConnected, hs.gone, hs.inCallback, hs.mDestroyed, hs.mAcceptConnectCallID,
      hs.mAcceptConnectError]

lemma toldLater_iff (hs : s.CanWrite) (hout : s.stdout = false) (he : e.writable = true) :
    s.ToldLater n e ↔ (s.DoWrite n e.writes).1 ≠ 0 ∧
      ((s.DoWrite n e.writes).1 < 0 →
        (s.DoWrite n e.writes).2.hard = (s.readErrnoThen e).hard) := by
  obtain ⟨t, hstep, hans, hread, hwrite, hc, hg, hi, hdata, hd, ha, herr, hq, herrno, hpos⟩ :=
    writeWaits_events (n := n) hs he
  have htold : s.told (machine.run (s.writeWaits n) [.events e, .loop false, .resume, .resume])
      (s.calls + 1) = t.report := by
    rw [Machine.run_cons, hstep]
    by_cases hqueued : t.loopQueued = true
    · obtain ⟨reads, hreads, hfin⟩ := finish_loop hc hg hi hdata hd ha herr hqueued
      have hother : reads.filter (fun a => a.1 == s.calls + 1) = [] := by
        rw [List.filter_eq_nil_iff]
        intro a ha heq
        have := hreads a ha
        have := hs.mReadCallID
        simp only [beq_iff_eq] at heq
        omega
      rw [told, hfin, hans, hwrite, List.append_assoc, List.drop_left, List.filter_append, hother,
        List.nil_append, List.filter_eq_self.mpr (by simp)]
      simp
    · have hzero : t.mWritePos = 0 := by
        by_contra hne
        exact hqueued (hq hne)
      have hrun : machine.run t [.loop false, .resume, .resume] = t := by
        simp [machine, step, call, hg, hqueued, resume, hi]
      simp [hrun, told, hans, report, hzero]
  simp only [ToldLater, hout, true_imp_iff, htold, report, herrno, hpos, outcome, Bool.false_eq_true,
    if_false]
  rcases s.DoWrite_cases n e.writes with ⟨-, -, -, hw⟩ | ⟨-, hw⟩ | ⟨errno, -, -, hw⟩
  · have h₀ : 0 ≤ (s.DoWrite n e.writes).1 := hw.le
    simp [hw, h₀, hw.ne', not_lt.mpr h₀]
  · simp [hw]
  · rw [hw]
    cases hr : (s.readErrnoThen e).hard <;> cases hh : errno.hard <;> simp

/-- For every connected socket, every length, all results of the calls and all that the read side has
met before, the callback of a write is told the same by an attempt made at once and by one made later,
namely what there is to tell, exactly where the first call writes something or fails in the same way
as the read side has failed last. -/
theorem write_outcome_iff (s : LowSocket) (hs : s.CanWrite) (n : Nat) (e : Events)
    (he : e.writable = true) : s.ToldAtOnce n e ∧ s.ToldLater n e ↔ s.Decides n e := by
  cases hout : s.stdout with
  | true =>
    simp only [ToldAtOnce, ToldLater, Decides, hout, true_or, true_imp_iff, Bool.true_eq_false,
      false_imp_iff, and_true, if_true, outcome]
    cases hw : stdoutWrite n e.writes with
    | none => simp [Write, hout, hw, told, attempted, answer]
    | some errno => simp [Write, hout, hw, told, attempted, answer]
  | false =>
    rw [toldAtOnce_iff hs hout, toldLater_iff hs hout he]
    simp only [Decides, hout, Bool.false_eq_true, if_false]
    rcases s.DoWrite_cases n e.writes with ⟨hn, hfirst, hhead, hw⟩ | ⟨hn, hw⟩ | ⟨errno, hn, hfirst, hw⟩
    · simp [hn, hfirst, hhead, hw.ne', not_lt.mpr hw.le]
    · rcases hn with rfl | ⟨hfirst, hhead⟩
      · simp [hw]
      · simp [hw, hfirst, hhead]
    · simp [hn, hfirst, hw]

lemma canWrite_connected (readErrno writeErrno : Errno) : (connected readErrno writeErrno).CanWrite := by
  constructor <;> first | rfl | exact Nat.zero_le _ | (intro h; cases h)

/-- A write of five bytes of which three are taken. -/
theorem write_outcome_partial :
    let s := connected ⟨EAGAIN, false⟩ ⟨0, false⟩
    let e : Events := ⟨false, true, .finished, false, [], [.size 3]⟩
    s.ToldAtOnce 5 e ∧ s.ToldLater 5 e :=
  (write_outcome_iff _ (canWrite_connected _ _) 5 _ rfl).mpr (by decide)

/-- Where a read would have blocked, a write that meets a closed connection is told so at once, but
nothing when it has waited. -/
theorem write_error_swallowed :
    let s := connected ⟨EAGAIN, false⟩ ⟨0, false⟩
    s.told (s.Write 5 [.error EPIPE]) 1 = [.error ⟨EPIPE, false⟩] ∧
      s.told (machine.run (s.writeWaits 5)
        [.events ⟨false, true, .finished, false, [], [.error EPIPE]⟩, .loop false, .resume, .resume])
        1 = [] := by
  decide

end LowSocket

end LowJs.Sockets
