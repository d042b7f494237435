import LowJs.Core.Whiles
import LowJs.Net.NameService

/-!
# The scans of a lookup

`LowDNSWorker::OnLoop` goes through the list of `getaddrinfo` twice: to find an entry with an address, and
to collect the addresses. The first loop stays at an entry of another family.
-/

namespace LowJs.LookupScan

open NameService (Bytes Family ENODATA sizeofHost)

structure AddrInfo where
  ai_family : Family
  ai_addr : Bytes
  deriving DecidableEq, Repr

def AddrInfo.usable (info : AddrInfo) : Bool := info.ai_family == .inet || info.ai_family == .inet6

/-- A call of the callback. -/
inductive Callback
  | error (error : Int) (syscall : String)
  | success (addresses : List (Bytes × Nat))
  deriving DecidableEq, Repr

/-- `INET_ADDRSTRLEN` and `INET6_ADDRSTRLEN`: what a text takes at most, with its NUL. -/
def addrStrLen : Family → Nat
  | .inet => 16
  | _ => 46

variable (text : Family → Bytes → Bytes)

/-- `inet_ntop`: an address is written as a text if the buffer has room for it and its NUL. -/
def inet_ntop (family : Family) (addr : Bytes) (size : Nat) : Option Bytes :=
  if (text family addr).length < size then some (text family addr) else none

/-- A round of the first loop. -/
def findRound : List AddrInfo → List AddrInfo ⊕ List AddrInfo
  | [] => .inr []
  | info :: rest => if info.usable then .inr (info :: rest) else .inl (info :: rest)

/-- A round of the second loop: an entry is put into the array, or left out. -/
def collectRound : List AddrInfo × List (Bytes × Nat) →
    (List AddrInfo × List (Bytes × Nat)) ⊕ List (Bytes × Nat)
  | ([], arr) => .inr arr
  | (info :: rest, arr) =>
    if info.usable then
      match inet_ntop text info.ai_family info.ai_addr sizeofHost with
      | some mHost => .inl (rest, arr ++ [(mHost, info.ai_family.number)])
      | none => .inl (rest, arr)
    else .inl (rest, arr)

/-- `OnLoop` for a list that `getaddrinfo` has returned; `none` where the rounds are not enough. -/
def OnLoop (fuel : Nat) (mResult : List AddrInfo) : Option Callback :=
  match While.exec findRound fuel mResult with
  | none => none
  | some [] => some (.error ENODATA "getaddrinfo")
  | some (_ :: _) => (While.exec (collectRound text) fuel (mResult, [])).map .success

/-- The callback gets the addresses in the order of the list, or an error if there are none. -/
def promised (mResult : List AddrInfo) : Callback :=
  match mResult.filter AddrInfo.usable with
  | [] => .error ENODATA "getaddrinfo"
  | infos => .success (infos.map fun info => (text info.ai_family info.ai_addr, info.ai_family.number))

/-! ### The two loops -/

lemma returns_findRound_usable {info : AddrInfo} (h : info.usable = true) (rest : List AddrInfo) :
    While.exec findRound 1 (info :: rest) = some (info :: rest) :=
  While.exec_succ_inr (by rw [findRound, if_pos h]) 0

/-- The first loop does not leave an entry of another family. -/
lemma not_returns_findRound {info : AddrInfo} (h : info.usable = false) (rest infos : List AddrInfo) :
    ¬While.Returns findRound (info :: rest) infos := by
  refine While.not_returns (P := (· = info :: rest)) ?_ rfl
  rintro _ rfl
  exact ⟨info :: rest, by rw [findRound, h, if_neg Bool.false_ne_true], rfl⟩

/-- The second loop goes through the list. -/
lemma exec_collectRound (htext : ∀ family addr, (text family addr).length < addrStrLen family)
    (infos : List AddrInfo) (arr : List (Bytes × Nat)) :
    While.exec (collectRound text) (infos.length + 1) (infos, arr) =
      some (arr ++ (infos.filter AddrInfo.usable).map fun info =>
        (text info.ai_family info.ai_addr, info.ai_family.number)) := by
  induction infos generalizing arr with
  | nil =>
    rw [List.filter_nil, List.map_nil, List.append_nil]
    rfl
  | cons info rest ih =>
    by_cases husable : info.usable = true
    · have hntop : inet_ntop text info.ai_family info.ai_addr sizeofHost =
          some (text info.ai_family info.ai_addr) := by
        have hlen := htext info.ai_family info.ai_addr
        have hsize : addrStrLen info.ai_family ≤ sizeofHost := by
          cases info.ai_family <;> decide
        rw [inet_ntop, if_pos (hlen.trans_le hsize)]
      have hround : collectRound text (info :: rest, arr) =
          .inl (rest, arr ++ [(text info.ai_family info.ai_addr, info.ai_family.number)]) := by
        rw [collectRound, if_pos husable, hntop]
      rw [List.length_cons, While.exec_succ_inl hround, ih, List.filter_cons_of_pos husable, List.map_cons,
        List.append_assoc, List.singleton_append]
    · have hround : collectRound text (info :: rest, arr) = .inl (rest, arr) := by
        rw [collectRound, if_neg husable]
      rw [List.length_cons, While.exec_succ_inl hround, ih, List.filter_cons_of_neg husable]

/-- `OnLoop` ends with the promised call if and only if the first entry of the list, if there is one, has
an address. -/
theorem onLoop_promised_iff (htext : ∀ family addr, (text family addr).length < addrStrLen family)
    (mResult : List AddrInfo) :
    (∃ fuel, OnLoop text fuel mResult = some (promised text mResult)) ↔
      ∀ info ∈ mResult.head?, info.usable = true := by
  cases mResult with
  | nil => exact ⟨fun _ => nofun, fun _ => ⟨1, rfl⟩⟩
  | cons info rest =>
    simp only [List.head?_cons, Option.mem_def, Option.some.injEq, forall_eq']
    constructor
    · rintro ⟨fuel, hfuel⟩
      by_contra husable
      rw [Bool.not_eq_true] at husable
      cases hfind : While.exec findRound fuel (info :: rest) with
      | none =>
        rw [OnLoop, hfind] at hfuel
        exact absurd hfuel nofun
      | some infos => exact not_returns_findRound husable rest infos ⟨fuel, hfind⟩
    · intro husable
      refine ⟨rest.length + 2, ?_⟩
      have hfind : While.exec findRound (rest.length + 2) (info :: rest) = some (info :: rest) :=
        While.exec_mono (by omega) (returns_findRound_usable husable rest)
      have hcollect := exec_collectRound text htext (info :: rest) []
      rw [List.length_cons, List.nil_append] at hcollect
      rw [OnLoop, hfind]
      dsimp only
      rw [hcollect, promised, List.filter_cons_of_pos husable]
      rfl

/-- The texts of the addresses 1.2.3.4 and ::1. -/
def sampleText : Family → Bytes → Bytes
  | .inet, _ => [49, 46, 50, 46, 51, 46, 52]
  | _, _ => [58, 58, 49]

theorem onLoop_promised_iff_sample :
    (∃ fuel, OnLoop sampleText fuel [⟨.inet, [1, 2, 3, 4]⟩, ⟨.other, []⟩] =
        some (promised sampleText [⟨.inet, [1, 2, 3, 4]⟩, ⟨.other, []⟩])) ↔
      ∀ info ∈ [(⟨.inet, [1, 2, 3, 4]⟩ : AddrInfo), ⟨.other, []⟩].head?, info.usable = true :=
  onLoop_promised_iff sampleText (fun family _ => by cases family <;> simp [sampleText, addrStrLen]) _

/-- An entry of another family in front of an address: the first loop runs for ever. -/
theorem onLoop_stays : ¬∃ fuel callback,
    OnLoop sampleText fuel [⟨.other, []⟩, ⟨.inet, [1, 2, 3, 4]⟩] = some callback := by
  rintro ⟨fuel, callback, hfuel⟩
  cases hfind : While.exec findRound fuel [⟨.other, []⟩, ⟨.inet, [1, 2, 3, 4]⟩] with
  | none =>
    rw [OnLoop, hfind] at hfuel
    exact absurd hfuel nofun
  | some infos => exact not_returns_findRound rfl _ infos ⟨fuel, hfind⟩

/-- The outcome of `lookup` is that the main thread hangs where `OnLoop` does not end. -/
lemma lookupOnLoop_hangs_iff (all verbatim : Bool) (mResult : List AddrInfo) :
    NameService.lookupOnLoop all verbatim NameService.LOW_EUNKNOWN
        (mResult.map fun info => ⟨info.ai_family, text info.ai_family info.ai_addr⟩) = .hangs ↔
      ∃ info ∈ mResult.head?, info.usable = false := by
  rw [NameService.lookupOnLoop.eq_def, if_neg (by decide)]
  cases mResult with
  | nil => simp
  | cons info rest =>
    have hsame : NameService.AddrInfo.usable ⟨info.ai_family, text info.ai_family info.ai_addr⟩ =
        info.usable := by
      rw [NameService.AddrInfo.usable, AddrInfo.usable]
      cases info.ai_family <;> rfl
    have hjs (addresses : List (Bytes × Nat)) :
        NameService.lookupJS all verbatim addresses ≠ .hangs := by
      rw [NameService.lookupJS]
      split
      · simp
      · split <;> simp
    simp only [List.map_cons, List.head?_cons, Option.mem_def, Option.some.injEq, exists_eq_left', hsame]
    cases info.usable with
    | false => simp
    | true => simp [hjs]

end LowJs.LookupScan
