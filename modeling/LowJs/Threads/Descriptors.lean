import LowJs.Core.Machine

/-!
# The table of descriptors

`fds` leads from a descriptor to the object that advertises it. The operating system gives a number
again as soon as it is closed, also while the object that has closed it still advertises it: a file
takes back its entry before it closes, the destructors of sockets, servers and datagram sockets close
first, and the destructor of `LowFD` erases the entry.
-/

namespace LowJs.Descriptors

inductive Thread
  | main
  | web
  deriving DecidableEq, Repr

/-- What an object is. The sockets of the standard streams do not close their descriptors. -/
inductive FDType
  | file
  | server
  | socket
  | stdinout
  | datagram
  deriving DecidableEq, Repr

/-- Where a `LowFile` is: `busy` stands for the phases in which it reads, writes or gets its status. -/
inductive FilePhase
  | opening
  | ready
  | busy
  | closing
  deriving DecidableEq, Repr

/-- Before the destructor has closed the descriptor, after that, and after the end of the destructor. -/
inductive Life
  | live
  | closed
  | gone
  deriving DecidableEq, Repr

structure LowFD where
  mFDType : FDType
  mFD : Option Nat
  mAdvertisedFD : Option Nat
  mPhase : FilePhase
  mDataDone : Bool
  mError : Bool
  life : Life
  deriving DecidableEq, Repr

/-- The objects by their numbers, the first `count` of which are in use, and the table. `foreign` are
the numbers that are open and belong to no object; `destroying` is the object whose destructor a thread
is in. -/
structure Low where
  objs : Nat → LowFD
  count : Nat
  fds : Nat → Option Nat
  foreign : Nat → Bool
  destroying : Thread → Option Nat

namespace Low

def holds (s : Low) (o n : Nat) : Prop := (s.objs o).life = .live ∧ (s.objs o).mFD = some n

/-- The number is open, so the operating system does not give it to anyone. -/
def isOpen (s : Low) (n : Nat) : Prop := s.foreign n = true ∨ ∃ o < s.count, s.holds o n

instance (s : Low) (o n : Nat) : Decidable (s.holds o n) := inferInstanceAs (Decidable (_ ∧ _))

instance (s : Low) (n : Nat) : Decidable (s.isOpen n) := inferInstanceAs (Decidable (_ ∨ _))

def set (s : Low) (o : Nat) (fd : LowFD) : Low := { s with objs := Function.update s.objs o fd }

/-- `LowFD::LowFD`. -/
def create (s : Low) (type : FDType) (fd : Option Nat) : Low :=
  { s.set s.count ⟨type, fd, none, .opening, false, false, .live⟩ with count := s.count + 1 }

/-- `LowFD::SetFD`. -/
def SetFD (s : Low) (o : Nat) (fd : Option Nat) : Low := s.set o { s.objs o with mFD := fd }

/-- An entry is erased. -/
def erase (s : Low) (fd : Option Nat) : Low :=
  match fd with
  | none => s
  | some n => { s with fds := Function.update s.fds n none }

/-- `LowFD::AdvertiseFD`. -/
def AdvertiseFD (s : Low) (o : Nat) : Low :=
  let s := s.erase (s.objs o).mAdvertisedFD
  let s := s.set o { s.objs o with mAdvertisedFD := (s.objs o).mFD }
  match (s.objs o).mFD with
  | none => s
  | some n => { s with fds := Function.update s.fds n (some o) }

/-- `LowFile::OnData`, where `fd` is what `open` returns. -/
def fileOnData (s : Low) (o : Nat) (fd : Option Nat) : Low :=
  let file := s.objs o
  match file.mPhase with
  | .opening => s.set o { file with mFD := fd, mError := fd.isNone, mDataDone := true }
  | .closing => s.set o { file with mFD := none, mDataDone := true }
  | .ready | .busy => s.set o { file with mDataDone := true }

/-- `LowFile::FinishPhase`. -/
def fileFinishPhase (s : Low) (o : Nat) : Low :=
  let file := s.objs o
  if file.mPhase = .ready ∨ file.mDataDone = false then s
  else
    let t := s.set o { file with mPhase := .ready }
    if file.mPhase = .opening ∧ file.mError = false then t.AdvertiseFD o else t

/-- `LowFile::Close`, which takes the entry back before the data thread closes the descriptor. -/
def fileClose (s : Low) (o : Nat) : Low :=
  let file := s.objs o
  if file.mPhase ≠ .ready then s
  else
    let t := ((s.SetFD o none).AdvertiseFD o).SetFD o file.mFD
    t.set o { t.objs o with mPhase := .closing, mDataDone := false }

/-- The part of a destructor up to `close`: that of the class itself. The number of a standard stream
stays open. -/
def destroy (s : Low) (thread : Thread) (o : Nat) : Low :=
  let fd := s.objs o
  let s := { s with destroying := Function.update s.destroying thread (some o) }
  let s := s.set o { fd with life := .closed }
  match fd.mFDType, fd.mFD with
  | .stdinout, some n => { s with foreign := Function.update s.foreign n true }
  | _, _ => s

/-- The rest: `LowFD::~LowFD`. -/
def destroyed (s : Low) (thread : Thread) (o : Nat) : Low :=
  let fd := s.objs o
  let s := s.erase fd.mAdvertisedFD
  { s.set o { fd with life := .gone } with
    destroying := Function.update s.destroying thread none }

/-- What can happen. The inputs are those of the main thread, of the web thread (`accept` and its
destructors), of the data threads (`onData`) and of the rest of the process. `connect` and `listen` are
the calls of `socket` in `LowSocket::Connect` and in `LowServerSocket::Listen` or `LowDatagram::Bind`;
`advertise` is a call of `AdvertiseFD` for a socket, a server or a datagram socket. -/
inductive Input
  | stdinout (n : Nat)
  | newFile
  | onData (o : Nat) (fd : Option Nat)
  | finishPhase (o : Nat)
  | request (o : Nat)
  | closeFile (o : Nat)
  | accept (n : Nat)
  | newFD (type : FDType)
  | connect (o n : Nat)
  | connectFailed (o : Nat)
  | listen (o n : Nat)
  | advertise (o : Nat)
  | destroy (thread : Thread) (o : Nat)
  | destroyed (thread : Thread)
  | otherOpen (n : Nat)
  | otherClose (n : Nat)
  deriving DecidableEq, Repr

/-- The object exists, and it is not being destroyed. -/
def isLive (s : Low) (o : Nat) (type : FDType) : Prop :=
  (s.objs o).life = .live ∧ (s.objs o).mFDType = type

instance (s : Low) (o : Nat) (type : FDType) : Decidable (s.isLive o type) :=
  inferInstanceAs (Decidable (_ ∧ _))

/-- The thread is not in a destructor. -/
def idle (s : Low) (thread : Thread) : Prop := s.destroying thread = none

instance (s : Low) (thread : Thread) : Decidable (s.idle thread) :=
  inferInstanceAs (Decidable (_ = _))

/-- When an input can happen: its thread is not in a destructor, its object is there, and a number that
is given is not open. Files are opened once, and the numbers of sockets are set where there is none.
Only sockets are destroyed by the web thread. -/
def Enabled (s : Low) : Input → Prop
  | .stdinout n => s.idle .main ∧ s.foreign n = true
  | .newFile => s.idle .main
  | .onData o fd => s.isLive o .file ∧ (s.objs o).mDataDone = false ∧ ∀ n ∈ fd, ¬s.isOpen n
  | .finishPhase o => s.idle .main ∧ s.isLive o .file
  | .request o => s.idle .main ∧ s.isLive o .file ∧ (s.objs o).mPhase = .ready
  | .closeFile o => s.idle .main ∧ s.isLive o .file
  | .accept n => s.idle .web ∧ ¬s.isOpen n
  | .newFD type => s.idle .main ∧ type ≠ .file ∧ type ≠ .stdinout
  | .connect o n => s.idle .main ∧ s.isLive o .socket ∧ (s.objs o).mFD = none ∧ ¬s.isOpen n
  | .connectFailed o => s.idle .main ∧ s.isLive o .socket ∧ (s.objs o).mAdvertisedFD = none
  | .listen o n => s.idle .main ∧ (s.isLive o .server ∨ s.isLive o .datagram) ∧
      (s.objs o).mFD = none ∧ ¬s.isOpen n
  | .advertise o => s.idle .main ∧ (s.objs o).life = .live ∧ (s.objs o).mFDType ≠ .file
  | .destroy thread o => s.idle thread ∧ (s.objs o).life = .live ∧
      (thread = .web → (s.objs o).mFDType = .socket)
  | .destroyed thread => s.destroying thread ≠ none
  | .otherOpen n => ¬s.isOpen n
  | .otherClose n => s.foreign n = true

instance (s : Low) : ∀ i, Decidable (s.Enabled i)
  | .stdinout _ | .newFile | .finishPhase _ | .request _ | .closeFile _ | .accept _ | .newFD _
  | .connect .. | .connectFailed _ | .listen .. | .advertise _ | .otherOpen _ | .otherClose _ => by
    unfold Enabled; infer_instance
  | .onData .. | .destroy .. | .destroyed _ => by unfold Enabled; infer_instance

def call (s : Low) : Input → Low
  | .stdinout n =>
    ({ s with foreign := Function.update s.foreign n false }.create .stdinout (some n)).AdvertiseFD
      s.count
  | .newFile => s.create .file none
  | .onData o fd => s.fileOnData o fd
  | .finishPhase o => s.fileFinishPhase o
  | .request o => s.set o { s.objs o with mPhase := .busy, mDataDone := false }
  | .closeFile o => s.fileClose o
  | .accept n => s.create .socket (some n)
  | .newFD type => s.create type none
  | .connect o n => s.SetFD o (some n)
  | .connectFailed o => s.SetFD o none
  | .listen o n => (s.SetFD o (some n)).AdvertiseFD o
  | .advertise o => s.AdvertiseFD o
  | .destroy thread o => s.destroy thread o
  | .destroyed thread =>
    match s.destroying thread with
    | none => s
    | some o => s.destroyed thread o
  | .otherOpen n => { s with foreign := Function.update s.foreign n true }
  | .otherClose n => { s with foreign := Function.update s.foreign n false }

def step (s : Low) (i : Input) : Low := if s.Enabled i then s.call i else s

/-- At the start there is no object, and the numbers in `foreign` are open. -/
def start (foreign : Nat → Bool) : Low where
  objs _ := ⟨.file, none, none, .opening, false, false, .gone⟩
  count := 0
  fds _ := none
  foreign := foreign
  destroying _ := none

end Low

def machine : Machine Low Low.Input := ⟨Low.step⟩

namespace Low

/-! ### The table -/

/-- The object exists and advertises the number. -/
def advertises (s : Low) (o n : Nat) : Prop :=
  (s.objs o).life ≠ .gone ∧ (s.objs o).mAdvertisedFD = some n

/-- The table leads to an object exactly from the number that it advertises. -/
def TableExact (s : Low) : Prop := ∀ n o, s.fds n = some o ↔ s.advertises o n

/-- The object an input is about. -/
def subject (s : Low) : Input → Option Nat
  | .onData o _ | .finishPhase o | .request o | .closeFile o | .connect o _ | .connectFailed o
  | .listen o _ | .advertise o | .destroy _ o => some o
  | .destroyed thread => s.destroying thread
  | .stdinout _ | .newFile | .accept _ | .newFD _ => some s.count
  | .otherOpen _ | .otherClose _ => none

/-- What happens to one object leaves the entries of the others. -/
def KeepsOthers (s : Low) (i : Input) : Prop :=
  ∀ n o, s.fds n = some o → s.subject i ≠ some o → (s.step i).fds n = some o

/-- No object whose destructor has closed the number still advertises it. -/
def Unadvertised (s : Low) (fd : Option Nat) : Prop :=
  ∀ n ∈ fd, ∀ o < s.count, (s.objs o).life = .closed → (s.objs o).mAdvertisedFD ≠ some n

/-- The condition: a number is advertised, by the inputs that do so, only when no destructor between its
`close` and the erasing of its entry still has it. -/
def Apart (s : Low) : Input → Prop
  | .stdinout n | .listen _ n => s.Unadvertised (some n)
  | .finishPhase o | .advertise o => s.Unadvertised (s.objs o).mFD
  | _ => True

/-! ### The invariant -/

structure Inv (s : Low) : Prop where
  table : s.TableExact
  /-- What is advertised is the descriptor of the object. -/
  advertised : ∀ o n, s.advertises o n → (s.objs o).mFD = some n
  /-- A file advertises neither before it is open nor while it closes. -/
  file : ∀ o, (s.objs o).mFDType = .file →
    ((s.objs o).mPhase = .closing → (s.objs o).mAdvertisedFD = none) ∧
      ((s.objs o).mPhase = .opening → (s.objs o).mAdvertisedFD = none)
  /-- A number belongs to one object, or to the rest of the process. -/
  owner : ∀ o o' n, s.holds o n → s.holds o' n → o = o'
  foreign : ∀ o n, s.holds o n → s.foreign n = false
  unused : ∀ o, s.count ≤ o → (s.objs o).life = .gone
  destroying : ∀ thread o, s.destroying thread = some o → (s.objs o).life = .closed
  one : ∀ thread thread' o, s.destroying thread = some o → s.destroying thread' = some o →
    thread = thread'

variable {s t : Low} {o : Nat} {fd : LowFD}

/-- One object changes to `fd`, and the table follows what it advertises. -/
structure Changes (s t : Low) (o : Nat) (fd : LowFD) : Prop where
  objs : t.objs = Function.update s.objs o fd
  fds : ∀ n, t.fds n = if fd.life ≠ .gone ∧ fd.mAdvertisedFD = some n then some o
    else if s.fds n = some o then none else s.fds n
  advertised : ∀ n, fd.life ≠ .gone → fd.mAdvertisedFD = some n → fd.mFD = some n
  fresh : ∀ n, fd.life ≠ .gone → fd.mAdvertisedFD = some n → ∀ o' ≠ o, ¬s.advertises o' n
  file : fd.mFDType = .file → (fd.mPhase = .closing → fd.mAdvertisedFD = none) ∧
    (fd.mPhase = .opening → fd.mAdvertisedFD = none)
  owner : ∀ n, fd.life = .live → fd.mFD = some n → t.foreign n = false ∧ ∀ o' ≠ o, ¬s.holds o' n
  foreign : ∀ n, ∀ o' ≠ o, s.holds o' n → t.foreign n = false
  count : s.count ≤ t.count ∧ (fd.life = .gone ∨ o < t.count)
  destroying : ∀ thread o', t.destroying thread = some o' → (t.objs o').life = .closed
  one : ∀ thread thread' o', t.destroying thread = some o' → t.destroying thread' = some o' →
    thread = thread'

lemma Changes.obj (h : s.Changes t o fd) : t.objs o = fd := by rw [h.objs, Function.update_self]

lemma Changes.other (h : s.Changes t o fd) {o' : Nat} (ho : o' ≠ o) : t.objs o' = s.objs o' := by
  rw [h.objs, Function.update_of_ne ho]

lemma Inv.change (h : s.Inv) (hc : s.Changes t o fd) : t.Inv where
  table n o' := by
    rw [hc.fds n]
    by_cases ho : o' = o
    · subst ho
      simp only [advertises, hc.obj]
      split_ifs with hadv hold
      · simp [hadv]
      · simp [hadv]
      · simp [hadv, hold]
    · simp only [advertises, hc.other ho]
      have ht := h.table n o'
      simp only [advertises] at ht
      split_ifs with hadv hold
      · exact iff_of_false (fun heq => ho (Option.some.inj heq).symm)
          fun hadv' => hc.fresh n hadv.1 hadv.2 o' ho hadv'
      · exact iff_of_false (by simp) fun hadv' => ho (Option.some.inj ((ht.mpr hadv').symm.trans hold))
      · exact ht
  advertised o' n hadv := by
    by_cases ho : o' = o
    · subst ho
      simp only [advertises, hc.obj] at hadv ⊢
      exact hc.advertised n hadv.1 hadv.2
    · simp only [advertises, hc.other ho] at hadv ⊢
      exact h.advertised o' n hadv
  file o' := by
    by_cases ho : o' = o
    · subst ho
      rw [hc.obj]
      exact hc.file
    · rw [hc.other ho]
      exact h.file o'
  owner o₁ o₂ n h₁ h₂ := by
    simp only [holds] at h₁ h₂
    by_cases ho₁ : o₁ = o <;> by_cases ho₂ : o₂ = o
    · rw [ho₁, ho₂]
    · rw [ho₁, hc.obj] at h₁
      rw [hc.other ho₂] at h₂
      exact absurd h₂ ((hc.owner n h₁.1 h₁.2).2 o₂ ho₂)
    · rw [ho₂, hc.obj] at h₂
      rw [hc.other ho₁] at h₁
      exact absurd h₁ ((hc.owner n h₂.1 h₂.2).2 o₁ ho₁)
    · rw [hc.other ho₁] at h₁
      rw [hc.other ho₂] at h₂
      exact h.owner o₁ o₂ n h₁ h₂
  foreign o' n hold := by
    simp only [holds] at hold
    by_cases ho : o' = o
    · rw [ho, hc.obj] at hold
      exact (hc.owner n hold.1 hold.2).1
    · rw [hc.other ho] at hold
      exact hc.foreign n o' ho hold
  unused o' hle := by
    by_cases ho : o' = o
    · rw [ho, hc.obj]
      rcases hc.count.2 with hg | hlt
      · exact hg
      · omega
    · rw [hc.other ho]
      exact h.unused o' (hc.count.1.trans hle)
  destroying := hc.destroying
  one := hc.one

lemma Changes.keeps (hc : s.Changes t o fd) (h : s.Inv) {n o' : Nat} (hfds : s.fds n = some o')
    (ho : o' ≠ o) : t.fds n = some o' := by
  rw [hc.fds n]
  have hadv := (h.table n o').mp hfds
  split_ifs with hnew hold
  · exact absurd hadv (hc.fresh n hnew.1 hnew.2 o' ho)
  · exact absurd (Option.some.inj (hfds.symm.trans hold)) ho
  · exact hfds

/-- The table does not have to follow where nothing is advertised anew. -/
lemma Inv.fds_same (h : s.Inv) (hl : fd.life ≠ .gone ↔ (s.objs o).life ≠ .gone)
    (ha : fd.mAdvertisedFD = (s.objs o).mAdvertisedFD) (n : Nat) :
    s.fds n = if fd.life ≠ .gone ∧ fd.mAdvertisedFD = some n then some o
      else if s.fds n = some o then none else s.fds n := by
  have ht := h.table n o
  simp only [advertises] at ht
  rw [ha]
  split_ifs with hadv hold
  · exact ht.mpr ⟨hl.mp hadv.1, hadv.2⟩
  · exact absurd ⟨hl.mpr (ht.mp hold).1, (ht.mp hold).2⟩ hadv
  · rfl

/-- An object that is there keeps what it advertises, and gets a free number or keeps its own. -/
lemma Inv.setFD (h : s.Inv) (hlive : (s.objs o).life = .live) (hl : fd.life = .live)
    (ha : fd.mAdvertisedFD = (s.objs o).mAdvertisedFD)
    (hfd : fd.mFD = (s.objs o).mFD ∨
      (fd.mAdvertisedFD = none ∧ ∀ n, fd.mFD = some n → ¬s.isOpen n))
    (hfile : fd.mFDType = .file → (fd.mPhase = .closing → fd.mAdvertisedFD = none) ∧
      (fd.mPhase = .opening → fd.mAdvertisedFD = none)) : s.Changes (s.set o fd) o fd where
  objs := rfl
  fds := h.fds_same (by simp [hlive, hl]) ha
  advertised n _ hadv := by
    rcases hfd with hfd | ⟨hnone, -⟩
    · exact hfd ▸ h.advertised o n ⟨by simp [hlive], ha ▸ hadv⟩
    · simp [hnone] at hadv
  fresh n _ hadv o' ho hadv' := by
    have h₁ := (h.table n o).mpr ⟨by simp [hlive], ha ▸ hadv⟩
    have h₂ := (h.table n o').mpr hadv'
    exact ho (Option.some.inj (h₂.symm.trans h₁))
  file := hfile
  owner n _ hn := by
    rcases hfd with hfd | ⟨-, hfree⟩
    · exact ⟨h.foreign o n ⟨hlive, hfd ▸ hn⟩, fun o' ho hold => ho (h.owner o' o n hold ⟨hlive, hfd ▸ hn⟩)⟩
    · have hopen := hfree n hn
      simp only [isOpen, not_or, not_exists, not_and] at hopen
      refine ⟨Bool.eq_false_iff.mpr hopen.1, fun o' _ hold => hopen.2 o' ?_ hold⟩
      by_contra hge
      have := h.unused o' (not_lt.mp hge)
      simp [hold.1] at this
  foreign n o' _ hold := h.foreign o' n hold
  count := ⟨le_rfl, .inr (by
    by_contra hge
    have := h.unused o (not_lt.mp hge)
    simp [hlive] at this)⟩
  destroying thread o' hd := by
    have hcl := h.destroying thread o' hd
    have ho : o' ≠ o := fun ho => by simp [ho, hlive] at hcl
    simpa [set, Function.update_of_ne ho] using hcl
  one := h.one

lemma Inv.lt_count (h : s.Inv) (hlive : (s.objs o).life ≠ .gone) : o < s.count := by
  by_contra hge
  exact hlive (h.unused o (not_lt.mp hge))

/-- A change of an object that is not being destroyed. -/
lemma Unadvertised.change {m : Option Nat} (h : s.Unadvertised m) (hinv : s.Inv) (hc : s.Changes t o fd)
    (hl : fd.life ≠ .closed) : t.Unadvertised m := by
  intro n hn o' hlt hcl
  by_cases ho : o' = o
  · rw [ho, hc.obj] at hcl
    exact absurd hcl hl
  · rw [hc.other ho] at hcl ⊢
    exact h n hn o' (hinv.lt_count (by simp [hcl])) hcl

lemma AdvertiseFD_objs (s : Low) (o : Nat) : (s.AdvertiseFD o).objs =
    Function.update s.objs o { s.objs o with mAdvertisedFD := (s.objs o).mFD } := by
  unfold AdvertiseFD erase
  cases (s.objs o).mAdvertisedFD <;> cases h : (s.objs o).mFD <;> simp [set, h]

lemma AdvertiseFD_fds (s : Low) (o n : Nat) : (s.AdvertiseFD o).fds n =
    if (s.objs o).mFD = some n then some o
    else if (s.objs o).mAdvertisedFD = some n then none else s.fds n := by
  unfold AdvertiseFD erase
  cases (s.objs o).mAdvertisedFD <;> cases h : (s.objs o).mFD <;>
    simp [set, h, Function.update_apply, eq_comm]

lemma AdvertiseFD_rest (s : Low) (o : Nat) : (s.AdvertiseFD o).foreign = s.foreign ∧
    (s.AdvertiseFD o).count = s.count ∧ (s.AdvertiseFD o).destroying = s.destroying := by
  unfold AdvertiseFD erase
  cases (s.objs o).mAdvertisedFD <;> cases h : (s.objs o).mFD <;> simp [set, h]

lemma Inv.destroying_ne (h : s.Inv) (hlive : (s.objs o).life = .live) {thread : Thread} {o' : Nat}
    (hd : s.destroying thread = some o') : o' ≠ o := by
  rintro rfl
  have := h.destroying thread o' hd
  simp [hlive] at this

/-- `AdvertiseFD` adds an entry that no one else has: a live object would have the number open, and the
condition excludes those that are being destroyed. -/
lemma Inv.advertise (h : s.Inv) (hlive : (s.objs o).life = .live)
    (hfile : (s.objs o).mFDType = .file → (s.objs o).mPhase ≠ .closing ∧ (s.objs o).mPhase ≠ .opening)
    (hok : s.Unadvertised (s.objs o).mFD) :
    s.Changes (s.AdvertiseFD o) o { s.objs o with mAdvertisedFD := (s.objs o).mFD } where
  objs := s.AdvertiseFD_objs o
  fds n := by
    rw [AdvertiseFD_fds]
    have ht := h.table n o
    simp only [advertises, hlive] at ht
    simp [hlive, ht]
  advertised n _ hadv := hadv
  fresh n _ hadv o' ho hadv' := by
    have hfd := h.advertised o' n hadv'
    cases hl : (s.objs o').life with
    | live => exact ho (h.owner o' o n ⟨hl, hfd⟩ ⟨hlive, hadv⟩)
    | closed => exact hok n hadv o' (h.lt_count hadv'.1) hl hadv'.2
    | gone => exact hadv'.1 hl
  file ht := ⟨fun hp => absurd hp (hfile ht).1, fun hp => absurd hp (hfile ht).2⟩
  owner n _ hn := by
    rw [(s.AdvertiseFD_rest o).1]
    exact ⟨h.foreign o n ⟨hlive, hn⟩, fun o' ho hold => ho (h.owner o' o n hold ⟨hlive, hn⟩)⟩
  foreign n o' _ hold := by
    rw [(s.AdvertiseFD_rest o).1]
    exact h.foreign o' n hold
  count := by
    rw [(s.AdvertiseFD_rest o).2.1]
    exact ⟨le_rfl, .inr (h.lt_count (by simp [hlive]))⟩
  destroying thread o' hd := by
    rw [(s.AdvertiseFD_rest o).2.2] at hd
    rw [AdvertiseFD_objs, Function.update_of_ne (h.destroying_ne hlive hd)]
    exact h.destroying thread o' hd
  one := by
    rw [(s.AdvertiseFD_rest o).2.2]
    exact h.one

lemma Inv.create (h : s.Inv) (type : FDType) {fd : Option Nat} (hfree : ∀ n ∈ fd, ¬s.isOpen n) :
    s.Changes (s.create type fd) s.count ⟨type, fd, none, .opening, false, false, .live⟩ where
  objs := rfl
  fds n := by
    have hgone := h.unused s.count le_rfl
    have ht := h.table n s.count
    simp only [advertises, hgone] at ht
    have hne : s.fds n ≠ some s.count := fun heq => by simp [heq] at ht
    simp [hne, Low.create, set]
  advertised n _ hadv := by simp at hadv
  fresh n _ hadv := by simp at hadv
  file _ := ⟨fun _ => rfl, fun _ => rfl⟩
  owner n _ hn := by
    have hopen := hfree n hn
    simp only [isOpen, not_or, not_exists, not_and] at hopen
    exact ⟨Bool.eq_false_iff.mpr hopen.1, fun o' _ hold =>
      hopen.2 o' (h.lt_count (by simp [hold.1])) hold⟩
  foreign n o' _ hold := h.foreign o' n hold
  count := ⟨Nat.le_succ _, .inr (Nat.lt_succ_self _)⟩
  destroying thread o' hd := by
    have hcl := h.destroying thread o' hd
    have ho : o' ≠ s.count := fun ho => by
      have := h.unused s.count le_rfl
      rw [ho, this] at hcl
      cases hcl
    simpa [Low.create, set, Function.update_of_ne ho] using hcl
  one := h.one

/-- A file that closes is in the table no more. -/
lemma Inv.fileClose (h : s.Inv) (hlive : (s.objs o).life = .live) (hphase : (s.objs o).mPhase = .ready) :
    s.Changes (s.fileClose o) o
      { s.objs o with mAdvertisedFD := none, mPhase := .closing, mDataDone := false } where
  objs := by
    simp only [Low.fileClose, hphase]
    simp [SetFD, set, AdvertiseFD_objs]
  fds n := by
    simp only [Low.fileClose, hphase]
    have ht := h.table n o
    simp only [advertises, hlive] at ht
    simp [SetFD, set, AdvertiseFD_fds, ht]
  advertised n _ hadv := by simp at hadv
  fresh n _ hadv := by simp at hadv
  file _ := ⟨fun _ => rfl, fun _ => rfl⟩
  owner n _ hn := by
    have hforeign : (s.fileClose o).foreign = s.foreign := by
      simp [Low.fileClose, hphase, SetFD, set, AdvertiseFD_rest]
    rw [hforeign]
    exact ⟨h.foreign o n ⟨hlive, hn⟩, fun o' ho hold => ho (h.owner o' o n hold ⟨hlive, hn⟩)⟩
  foreign n o' _ hold := by
    have hforeign : (s.fileClose o).foreign = s.foreign := by
      simp [Low.fileClose, hphase, SetFD, set, AdvertiseFD_rest]
    rw [hforeign]
    exact h.foreign o' n hold
  count := by
    have hcount : (s.fileClose o).count = s.count := by
      simp [Low.fileClose, hphase, SetFD, set, AdvertiseFD_rest]
    rw [hcount]
    exact ⟨le_rfl, .inr (h.lt_count (by simp [hlive]))⟩
  destroying thread o' hd := by
    have hsame : (s.fileClose o).destroying = s.destroying := by
      simp [Low.fileClose, hphase, SetFD, set, AdvertiseFD_rest]
    rw [hsame] at hd
    have ho := h.destroying_ne hlive hd
    have hobj : (s.fileClose o).objs o' = s.objs o' := by
      simp [Low.fileClose, hphase, SetFD, set, AdvertiseFD_objs, Function.update_of_ne ho]
    rw [hobj]
    exact h.destroying thread o' hd
  one := by
    have hsame : (s.fileClose o).destroying = s.destroying := by
      simp [Low.fileClose, hphase, SetFD, set, AdvertiseFD_rest]
    rw [hsame]
    exact h.one

lemma destroy_fields (s : Low) (thread : Thread) (o : Nat) :
    (s.destroy thread o).objs = Function.update s.objs o { s.objs o with life := .closed } ∧
      (s.destroy thread o).fds = s.fds ∧ (s.destroy thread o).count = s.count ∧
      (s.destroy thread o).destroying = Function.update s.destroying thread (some o) ∧
      ∀ n, (s.objs o).mFD ≠ some n → (s.destroy thread o).foreign n = s.foreign n := by
  unfold destroy
  cases ht : (s.objs o).mFDType <;> cases h : (s.objs o).mFD <;>
    simp +contextual [set, ht, h, eq_comm]

lemma Inv.destroy (h : s.Inv) (hlive : (s.objs o).life = .live) (thread : Thread) :
    s.Changes (s.destroy thread o) o { s.objs o with life := .closed } := by
  obtain ⟨hobjs, hfds, hcount, hdes, hforeign⟩ := s.destroy_fields thread o
  constructor
  · exact hobjs
  · rw [hfds]
    exact h.fds_same (by simp [hlive]) rfl
  · exact fun n _ hadv => h.advertised o n ⟨by simp [hlive], hadv⟩
  · intro n _ hadv o' ho hadv'
    have h₁ := (h.table n o).mpr ⟨by simp [hlive], hadv⟩
    have h₂ := (h.table n o').mpr hadv'
    exact ho (Option.some.inj (h₂.symm.trans h₁))
  · exact h.file o
  · exact fun n hl => by cases hl
  · intro n o' ho hold
    rw [hforeign n fun hfd => ho (h.owner o' o n hold ⟨hlive, hfd⟩)]
    exact h.foreign o' n hold
  · rw [hcount]
    exact ⟨le_rfl, .inr (h.lt_count (by simp [hlive]))⟩
  · intro thread' o' hd
    rw [hobjs]
    by_cases ho : o' = o
    · rw [ho, Function.update_self]
    · rw [Function.update_of_ne ho]
      rw [hdes] at hd
      by_cases hth : thread' = thread
      · rw [hth, Function.update_self] at hd
        exact absurd (Option.some.inj hd).symm ho
      · rw [Function.update_of_ne hth] at hd
        exact h.destroying thread' o' hd
  · intro thread₁ thread₂ o' h₁ h₂
    rw [hdes] at h₁ h₂
    by_cases hth₁ : thread₁ = thread <;> by_cases hth₂ : thread₂ = thread
    · rw [hth₁, hth₂]
    · rw [hth₁, Function.update_self] at h₁
      rw [Function.update_of_ne hth₂] at h₂
      exact absurd (Option.some.inj h₁).symm (h.destroying_ne hlive h₂)
    · rw [hth₂, Function.update_self] at h₂
      rw [Function.update_of_ne hth₁] at h₁
      exact absurd (Option.some.inj h₂).symm (h.destroying_ne hlive h₁)
    · rw [Function.update_of_ne hth₁] at h₁
      rw [Function.update_of_ne hth₂] at h₂
      exact h.one thread₁ thread₂ o' h₁ h₂

lemma destroyed_fields (s : Low) (thread : Thread) (o : Nat) :
    (s.destroyed thread o).objs = Function.update s.objs o { s.objs o with life := .gone } ∧
      (∀ n, (s.destroyed thread o).fds n =
        if (s.objs o).mAdvertisedFD = some n then none else s.fds n) ∧
      (s.destroyed thread o).count = s.count ∧ (s.destroyed thread o).foreign = s.foreign ∧
      (s.destroyed thread o).destroying = Function.update s.destroying thread none := by
  unfold destroyed erase
  cases h : (s.objs o).mAdvertisedFD <;> simp [set, h, Function.update_apply, eq_comm]

lemma Inv.destroyed (h : s.Inv) {thread : Thread} (hd : s.destroying thread = some o) :
    s.Changes (s.destroyed thread o) o { s.objs o with life := .gone } := by
  obtain ⟨hobjs, hfds, hcount, hforeign, hdes⟩ := s.destroyed_fields thread o
  have hcl := h.destroying thread o hd
  constructor
  · exact hobjs
  · intro n
    have ht := h.table n o
    simp only [advertises, hcl] at ht
    rw [hfds]
    simp [ht]
  · exact fun n hg => absurd rfl hg
  · exact fun n hg => absurd rfl hg
  · exact h.file o
  · exact fun n hl => by cases hl
  · intro n o' _ hold
    rw [hforeign]
    exact h.foreign o' n hold
  · rw [hcount]
    exact ⟨le_rfl, .inl rfl⟩
  · intro thread' o' hd'
    rw [hdes] at hd'
    by_cases hth : thread' = thread
    · rw [hth, Function.update_self] at hd'
      cases hd'
    · rw [Function.update_of_ne hth] at hd'
      have ho : o' ≠ o := by
        rintro rfl
        exact hth (h.one thread' thread _ hd' hd)
      rw [hobjs, Function.update_of_ne ho]
      exact h.destroying thread' o' hd'
  · intro thread₁ thread₂ o' h₁ h₂
    rw [hdes] at h₁ h₂
    by_cases hth₁ : thread₁ = thread <;> by_cases hth₂ : thread₂ = thread
    · rw [hth₁, hth₂]
    · rw [hth₁, Function.update_self] at h₁
      cases h₁
    · rw [hth₂, Function.update_self] at h₂
      cases h₂
    · rw [Function.update_of_ne hth₁] at h₁
      rw [Function.update_of_ne hth₂] at h₂
      exact h.one thread₁ thread₂ o' h₁ h₂

/-! ### Steps and runs -/

/-- An input that changes the numbers of the rest of the process only. -/
lemma Inv.rest (h : s.Inv) {foreign : Nat → Bool}
    (hf : ∀ o n, s.holds o n → foreign n = false) : ({ s with foreign := foreign } : Low).Inv :=
  ⟨h.table, h.advertised, h.file, h.owner, hf, h.unused, h.destroying, h.one⟩

lemma Inv.foreign_closed (h : s.Inv) (n o m : Nat) (hold : s.holds o m) :
    Function.update s.foreign n false m = false := by
  by_cases hm : m = n
  · rw [hm, Function.update_self]
  · rw [Function.update_of_ne hm]
    exact h.foreign o m hold

lemma Inv.advertises_none (h : s.Inv) (hlive : (s.objs o).life = .live)
    (hfd : (s.objs o).mFD = none) : (s.objs o).mAdvertisedFD = none := by
  cases ha : (s.objs o).mAdvertisedFD with
  | none => rfl
  | some m => simpa [hfd] using h.advertised o m ⟨by simp [hlive], ha⟩

/-! ### The inputs -/

/-- The invariant holds in `t`, and the entries of the objects other than `x` are those of `s`. -/
structure Keeps (s t : Low) (x : Option Nat) : Prop where
  inv : t.Inv
  others : ∀ n o, s.fds n = some o → x ≠ some o → t.fds n = some o

lemma Inv.keeps (h : s.Inv) (x : Option Nat) : s.Keeps s x := ⟨h, fun _ _ hfds _ => hfds⟩

lemma Keeps.change {u : Low} (h : s.Keeps t (some o)) (hc : t.Changes u o fd) : s.Keeps u (some o) :=
  ⟨h.inv.change hc, fun n o' hfds ho =>
    hc.keeps h.inv (h.others n o' hfds ho) fun heq => ho (congrArg some heq.symm)⟩

/-- A new phase, in which the file advertises what it has advertised before. -/
lemma Inv.setPhase (h : s.Inv) (hlive : (s.objs o).life = .live) (done : Bool) {phase : FilePhase}
    (hphase : phase = .ready ∨ phase = .busy) :
    s.Changes (s.set o { s.objs o with mPhase := phase, mDataDone := done }) o
      { s.objs o with mPhase := phase, mDataDone := done } :=
  h.setFD hlive hlive rfl (.inl rfl) fun _ => by rcases hphase with rfl | rfl <;> simp

lemma Inv.keeps_connect (h : s.Inv) {n : Nat} (hen : s.Enabled (.connect o n)) :
    s.Keeps (s.call (.connect o n)) (some o) := by
  obtain ⟨-, ⟨hlive, ht⟩, hfd, hfree⟩ := hen
  have hadv := h.advertises_none hlive hfd
  exact (h.keeps _).change (h.setFD hlive hlive rfl
    (.inr ⟨hadv, fun m hm => Option.some.inj hm ▸ hfree⟩)
    fun ht' => absurd (ht.symm.trans ht') (by simp))

lemma Inv.keeps_onData (h : s.Inv) {fd : Option Nat} (hen : s.Enabled (.onData o fd)) :
    s.Keeps (s.call (.onData o fd)) (some o) := by
  obtain ⟨⟨hlive, ht⟩, -, hfree⟩ := hen
  simp only [call, fileOnData]
  cases hp : (s.objs o).mPhase with
  | opening =>
    have hadv := (h.file o ht).2 hp
    exact (h.keeps _).change (h.setFD hlive hlive rfl (.inr ⟨hadv, hfree⟩)
      fun _ => ⟨fun _ => hadv, fun _ => hadv⟩)
  | closing =>
    have hadv := (h.file o ht).1 hp
    exact (h.keeps _).change (h.setFD hlive hlive rfl (.inr ⟨hadv, fun m hm => by cases hm⟩)
      fun _ => ⟨fun _ => hadv, fun _ => hadv⟩)
  | ready | busy =>
    exact (h.keeps _).change (h.setFD hlive hlive rfl (.inl rfl)
      fun _ => ⟨(fun hp' => by cases hp'), fun hp' => by cases hp'⟩)

lemma Inv.keeps_finishPhase (h : s.Inv) (hen : s.Enabled (.finishPhase o))
    (hok : s.Unadvertised (s.objs o).mFD) : s.Keeps (s.call (.finishPhase o)) (some o) := by
  obtain ⟨-, hlive, ht⟩ := hen
  simp only [call, fileFinishPhase]
  split_ifs with hready hopen
  · exact h.keeps _
  · have hc := h.setPhase hlive (s.objs o).mDataDone (.inl rfl)
    refine ((h.keeps _).change hc).change ((h.change hc).advertise ?_ ?_ ?_)
    · rw [hc.obj]
      exact hlive
    · rw [hc.obj]
      simp
    · rw [hc.obj]
      exact hok.change h hc (by simp [hlive])
  · exact (h.keeps _).change (h.setPhase hlive (s.objs o).mDataDone (.inl rfl))

lemma Inv.keeps_closeFile (h : s.Inv) (hen : s.Enabled (.closeFile o)) :
    s.Keeps (s.call (.closeFile o)) (some o) := by
  obtain ⟨-, hlive, -⟩ := hen
  by_cases hp : (s.objs o).mPhase = .ready
  · exact (h.keeps _).change (h.fileClose hlive hp)
  · have hsame : s.call (.closeFile o) = s := by simp [call, Low.fileClose, hp]
    rw [hsame]
    exact h.keeps _

lemma Inv.keeps_listen (h : s.Inv) {n : Nat} (hen : s.Enabled (.listen o n))
    (hok : s.Unadvertised (some n)) : s.Keeps (s.call (.listen o n)) (some o) := by
  obtain ⟨-, ht, hfd, hfree⟩ := hen
  have hlive : (s.objs o).life = .live := ht.elim And.left And.left
  have hfile : (s.objs o).mFDType ≠ .file := by
    rcases ht with ⟨-, ht⟩ | ⟨-, ht⟩ <;> simp [ht]
  have hc : s.Changes _ o { s.objs o with mFD := some n } := h.setFD hlive hlive rfl
    (.inr ⟨h.advertises_none hlive hfd, fun m hm => Option.some.inj hm ▸ hfree⟩)
    fun ht' => absurd ht' hfile
  refine ((h.keeps _).change hc).change ((h.change hc).advertise ?_ (fun ht' => ?_) ?_)
  · rw [hc.obj]
    exact hlive
  · rw [hc.obj] at ht'
    exact absurd ht' hfile
  · rw [hc.obj]
    exact hok.change h hc (by simp [hlive])

/-- The number of a standard stream goes from the rest of the process to the new object. -/
lemma Inv.keeps_stdinout (h : s.Inv) {n : Nat} (hen : s.Enabled (.stdinout n))
    (hok : s.Unadvertised (some n)) : s.Keeps (s.call (.stdinout n)) (some s.count) := by
  set u : Low := { s with foreign := Function.update s.foreign n false } with hu
  have hrest : u.Inv := h.rest (h.foreign_closed n)
  have hfree : ∀ m ∈ some n, ¬u.isOpen m := by
    rintro m hm (hf | ⟨o, -, hold⟩)
    · cases hm
      simp [hu] at hf
    · cases hm
      have := h.foreign o n hold
      rw [hen.2] at this
      cases this
  have hc := hrest.create .stdinout hfree
  have hkeeps : s.Keeps u (some s.count) := ⟨hrest, (h.keeps _).others⟩
  refine (hkeeps.change hc).change ((hrest.change hc).advertise ?_ (fun ht => ?_) ?_)
  · rw [hc.obj]
  · rw [hc.obj] at ht
    cases ht
  · rw [hc.obj]
    exact Unadvertised.change (s := u) hok hrest hc (by simp)

lemma Inv.keeps_call {i : Input} (h : s.Inv) (hen : s.Enabled i) (hok : s.Apart i) :
    s.Keeps (s.call i) (s.subject i) := by
  cases i with
  | newFile => exact (h.keeps _).change (h.create .file (by simp))
  | newFD type => exact (h.keeps _).change (h.create type (by simp))
  | accept n => exact (h.keeps _).change (h.create .socket (by simpa using hen.2))
  | otherOpen n =>
    refine ⟨h.rest fun o m hold => ?_, (h.keeps _).others⟩
    by_cases hm : m = n
    · subst hm
      exact absurd (.inr ⟨o, h.lt_count (by simp [hold.1]), hold⟩) hen
    · rw [Function.update_of_ne hm]
      exact h.foreign o m hold
  | otherClose n => exact ⟨h.rest (h.foreign_closed n), (h.keeps _).others⟩
  | destroy thread o => exact (h.keeps _).change (h.destroy hen.2.1 thread)
  | destroyed thread =>
    obtain ⟨o, ho⟩ := Option.ne_none_iff_exists'.mp hen
    simp only [call, subject, ho]
    exact (h.keeps _).change (h.destroyed ho)
  | advertise o =>
    exact (h.keeps _).change (h.advertise hen.2.1 (fun ht => absurd ht hen.2.2) hok)
  | connect o n => exact h.keeps_connect hen
  | connectFailed o =>
    obtain ⟨-, ⟨hlive, ht⟩, hadv⟩ := hen
    exact (h.keeps _).change (h.setFD hlive hlive rfl (.inr ⟨hadv, fun m hm => by cases hm⟩)
      fun ht' => absurd (ht.symm.trans ht') (by simp))
  | request o => exact (h.keeps _).change (h.setPhase hen.2.1.1 false (.inr rfl))
  | onData o fd => exact h.keeps_onData hen
  | finishPhase o => exact h.keeps_finishPhase hen hok
  | closeFile o => exact h.keeps_closeFile hen
  | listen o n => exact h.keeps_listen hen hok
  | stdinout n => exact h.keeps_stdinout hen hok

lemma Inv.keeps_step {i : Input} (h : s.Inv) (hok : s.Apart i) :
    s.Keeps (s.step i) (s.subject i) := by
  unfold Low.step
  split_ifs with hen
  · exact h.keeps_call hen hok
  · exact h.keeps _

lemma inv_start (foreign : Nat → Bool) : (start foreign).Inv := by
  refine ⟨fun n o => ?_, fun o n h => ?_, fun o _ => ⟨fun _ => rfl, fun _ => rfl⟩, fun o o' n h => ?_,
    fun o n h => ?_, fun _ _ => rfl, fun thread o h => ?_, fun thread thread' o h => ?_⟩
  · exact ⟨(fun h => by cases h), fun h => absurd rfl h.1⟩
  · exact absurd rfl h.1
  · cases h.1
  · cases h.1
  · cases h
  · cases h

/-- In every run in which no number is advertised while a destructor that has closed it still has its
entry to erase, the table is exact, and what can happen next to one object leaves the entries of all
others. -/
theorem table_exact (foreign : Nat → Bool) {is : List Input}
    (hok : machine.Guarded Apart (start foreign) is) :
    (machine.run (start foreign) is).TableExact ∧
      ∀ i, (machine.run (start foreign) is).Apart i →
        (machine.run (start foreign) is).KeepsOthers i := by
  have hinv : (machine.run (start foreign) is).Inv :=
    machine.run_invariant (fun _ _ h hi => (h.keeps_step hi).inv) (inv_start foreign) hok
  exact ⟨hinv.table, fun i hi => (hinv.keeps_step hi).others⟩

instance (s : Low) (fd : Option Nat) : Decidable (s.Unadvertised fd) :=
  inferInstanceAs (Decidable (∀ n ∈ fd, ∀ o < s.count, (s.objs o).life = .closed →
    (s.objs o).mAdvertisedFD ≠ some n))

instance (s : Low) : ∀ i, Decidable (s.Apart i)
  | .stdinout n | .listen _ n => inferInstanceAs (Decidable (s.Unadvertised (some n)))
  | .finishPhase o | .advertise o => inferInstanceAs (Decidable (s.Unadvertised (s.objs o).mFD))
  | .newFile | .onData .. | .request _ | .closeFile _ | .accept _ | .newFD _ | .connect ..
  | .connectFailed _ | .destroy .. | .destroyed _ | .otherOpen _ | .otherClose _ => isTrue trivial

/-- A socket is closed by the main thread while the data thread opens a file, which gets the number. -/
theorem table_exact_reused :
    let is : List Input := [.accept 5, .advertise 0, .newFile, .destroy .main 0, .onData 1 (some 5),
      .destroyed .main, .finishPhase 1]
    (machine.run (start fun _ => false) is).TableExact ∧
      ∀ i, (machine.run (start fun _ => false) is).Apart i →
        (machine.run (start fun _ => false) is).KeepsOthers i :=
  table_exact _ (by decide)

/-- The web thread destroys a socket. Between the `close` and the end of the destructor the number goes
to a socket that is advertised, and whose entry is erased then. -/
theorem entry_erased :
    ¬(machine.run (start fun _ => false) [.accept 5, .advertise 0, .newFD .socket, .destroy .web 0,
      .connect 1 5, .advertise 1, .destroyed .web]).TableExact := by
  intro h
  have hadv : (machine.run (start fun _ => false) [.accept 5, .advertise 0, .newFD .socket,
      .destroy .web 0, .connect 1 5, .advertise 1, .destroyed .web]).advertises 1 5 := by
    unfold advertises
    decide
  exact absurd ((h 5 1).mpr hadv) (by decide)

end Low

end LowJs.Descriptors
