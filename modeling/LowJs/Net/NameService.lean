import Mathlib.Data.List.Basic
import Mathlib.Data.List.Sort

/-!
# The name service

`LowDNSWorker` for `lookup` and `lookupService`, `LowDNSResolver_Query` and `LowDNSResolver_GetHostByAddr`
for `resolve*` and `reverse`: how the statuses of libc and c-ares become the argument of the JavaScript
callback. Errors pass through `mError`, in which 0 says that there is none, and is `LOW_EUNKNOWN` as well.
-/

namespace LowJs.NameService

abbrev Bytes := List UInt8

/-! ### The codes -/

def LOW_EUNKNOWN : Int := 0
def LOW_ENODATA : Int := -1
def LOW_ESERVFAIL : Int := -3
def LOW_EBADFAMILY : Int := -9
def LOW_ENOMEM : Int := -15
def LOW_EBADFLAGS : Int := -18
def LOW_ENONAME : Int := -19

def EAGAIN : Int := 11
def ENODATA : Int := 61

def ARES_SUCCESS : Int := 0
def ARES_ENODATA : Int := 1

/-- `LowDNSResolver::AresErr`: the codes of low.js are those of c-ares from `ARES_ENODATA`, 1, to
`ARES_ECANCELLED`, 24, with the sign changed. -/
def AresErr (err : Int) : Int := if 1 ≤ err ∧ err ≤ 24 then -err else LOW_EUNKNOWN

/-- The statuses of `getaddrinfo` and `getnameinfo`; `other` are those the switch does not list. -/
inductive EAI
  | ADDRFAMILY
  | SOCKTYPE
  | BADFLAGS
  | AGAIN
  | NODATA
  | OVERFLOW
  | SYSTEM
  | SERVICE
  | FAIL
  | FAMILY
  | MEMORY
  | NONAME
  | other (status : Int)
  deriving DecidableEq, Repr

/-- The switch of `LowDNSWorker::OnData` for a failure; success takes its default. -/
def eaiErr (errno : Int) : EAI → Int
  | .ADDRFAMILY => LOW_EBADFAMILY
  | .SOCKTYPE => LOW_EBADFAMILY
  | .BADFLAGS => LOW_EBADFLAGS
  | .AGAIN => EAGAIN
  | .NODATA => LOW_ENODATA
  | .OVERFLOW => LOW_EUNKNOWN
  | .SYSTEM => errno
  | .SERVICE => LOW_EBADFAMILY
  | .FAIL => LOW_ESERVFAIL
  | .FAMILY => LOW_EBADFAMILY
  | .MEMORY => LOW_ENOMEM
  | .NONAME => LOW_ENONAME
  | .other _ => LOW_EUNKNOWN

/-! ### What is asked and what is called -/

inductive Family
  | inet
  | inet6
  | other
  deriving DecidableEq, Repr

/-- The 4 or 6 that JavaScript is given. -/
def Family.number : Family → Nat
  | .inet => 4
  | _ => 6

inductive DNSType
  | any
  | a
  | aaaa
  | cname
  | mx
  | naptr
  | ns
  | ptr
  | soa
  | srv
  | txt
  deriving DecidableEq, Repr

/-- An entry of what a callback is given. -/
inductive Datum
  | address (host : Bytes) (family : Nat)
  | service (host service : Bytes)
  | record (type : DNSType) (value : Bytes)
  | name (name : Bytes)
  deriving DecidableEq, Repr

inductive Err
  | code (error : Int) (syscall : String)
  | tooLong
  deriving DecidableEq, Repr

/-- A call of the JavaScript callback. -/
inductive Callback
  | error (err : Err)
  | success (data : List Datum)
  deriving DecidableEq, Repr

/-- What comes of a request: the calls of its callback, or the process reads through a null pointer, or
calls something that is no function, or a thread loops for ever. -/
inductive Outcome
  | calls (callbacks : List Callback)
  | crashes
  | hangs
  deriving DecidableEq, Repr

/-- A status that is not success, and the value of `errno` then. -/
structure Failure where
  status : EAI
  errno : Int
  deriving DecidableEq, Repr

/-- Why the search for the records of a type fails: a status, or `low_realloc`. -/
inductive ParseFailure
  | status (status : Int)
  | realloc
  deriving DecidableEq, Repr

structure AddrInfo where
  ai_family : Family
  host : Bytes
  deriving DecidableEq, Repr

/-- The requests, with the options JavaScript passes and what the libraries make of them. `pton` says
whether `inet_pton` takes the address string; `errno` is what it leaves in `errno`, which it does not set
for a string it does not take. `memory` is what the object's arrays hold before they are written. -/
inductive Request
  | lookup (all verbatim : Bool) (host : Bytes) (reply : Except Failure (List AddrInfo))
  | lookupService (ip : Bytes) (pton : Bool) (errno : Int) (memory : Bytes × Bytes)
      (reply : Except Failure (Bytes × Bytes))
  | resolve (type : DNSType) (status : Int) (abuf : Bytes) (alloc : Bool)
      (parse : DNSType → Bytes → Except ParseFailure (List Bytes))
  | reverse (pton : Bool) (errno : Int) (status : Int) (hostent : Option (List Bytes)) (alloc : Bool)

/-! ### `LowDNSWorker` -/

/-- The 64 bytes of `mHost` and the 16 of `mIP`. -/
def sizeofHost : Nat := 64
def INET_ADDRSTRLEN : Nat := 16

/-- The callback of dns.js over the one of `native.lookup`: an empty array has no first element. -/
def lookupJS (all verbatim : Bool) (addresses : List (Bytes × Nat)) : Outcome :=
  let sorted := if verbatim then addresses else addresses.mergeSort (fun a b => decide (a.2 ≤ b.2))
  if all then .calls [.success (sorted.map fun a => .address a.1 a.2)]
  else match sorted with
    | [] => .crashes
    | a :: _ => .calls [.success [.address a.1 a.2]]

def AddrInfo.usable (info : AddrInfo) : Bool := info.ai_family != .other

/-- The addresses of the second loop of `OnLoop`. -/
def addresses (result : List AddrInfo) : List (Bytes × Nat) :=
  (result.filter AddrInfo.usable).map fun info => (info.host, info.ai_family.number)

/-- `OnLoop` for `lookup`. The first loop does not go on to the next entry. -/
def lookupOnLoop (all verbatim : Bool) (mError : Int) (mResult : List AddrInfo) : Outcome :=
  if mError ≠ 0 then .calls [.error (.code mError "getaddrinfo")]
  else match mResult with
    | [] => .calls [.error (.code ENODATA "getaddrinfo")]
    | info :: _ => if info.usable then lookupJS all verbatim (addresses mResult) else .hangs

def lookup (all verbatim : Bool) (host : Bytes) (reply : Except Failure (List AddrInfo)) : Outcome :=
  if sizeofHost ≤ host.length then .calls [.error .tooLong]
  else match reply with
    | .ok result => lookupOnLoop all verbatim LOW_EUNKNOWN result
    | .error f => lookupOnLoop all verbatim (eaiErr f.errno f.status) []

/-- `OnLoop` for `lookupService`, with `mHost` and `mService`. -/
def serviceOnLoop (mError : Int) (mHost mService : Bytes) : Outcome :=
  if mError ≠ 0 then .calls [.error (.code mError "getnameinfo")]
  else .calls [.success [.service mHost mService]]

def lookupService (ip : Bytes) (pton : Bool) (errno : Int) (memory : Bytes × Bytes)
    (reply : Except Failure (Bytes × Bytes)) : Outcome :=
  if INET_ADDRSTRLEN ≤ ip.length then .calls [.error .tooLong]
  else if !pton then serviceOnLoop errno memory.1 memory.2
  else match reply with
    | .ok names => serviceOnLoop LOW_EUNKNOWN names.1 names.2
    | .error f => serviceOnLoop (eaiErr f.errno f.status) memory.1 memory.2

/-! ### `LowDNSResolver_Query` -/

/-- The parts of `OnLoop`, in order. -/
def parts : List DNSType := [.a, .aaaa, .cname, .mx, .naptr, .ns, .ptr, .soa, .srv, .txt]

/-- The syscall a part names in its error. -/
def partSyscall : DNSType → String
  | .any => ""
  | .a => "ares_parse_a_reply"
  | .aaaa => "ares_parse_aaaa_reply"
  | .cname => "ares_parse_a_reply"
  | .mx => "ares_parse_mx_reply"
  | .naptr => "ares_parse_naptr_reply"
  | .ns => "ares_parse_ns_reply"
  | .ptr => "ares_parse_ptr_reply"
  | .soa => "ares_parse_soa_reply (modified)"
  | .srv => "ares_parse_srv_reply"
  | .txt => "ares_parse_txt_reply_ext"

/-- The part is run for a query of this type. -/
def asks (type part : DNSType) : Bool := type == part || type == .any

/-- A part of `OnLoop`: for `ANY`, records of a type may be missing. -/
def onPart (type : DNSType) (found : Except ParseFailure (List Bytes)) (part : DNSType) :
    Except Err (List Datum) :=
  match found with
  | .ok values => .ok (values.map (.record part))
  | .error (.status status) =>
    if status = ARES_ENODATA ∧ type = .any then .ok []
    else .error (.code (AresErr status) (partSyscall part))
  | .error .realloc => .error (.code LOW_ENOMEM "realloc")

def onParts (type : DNSType) (parse : DNSType → Except ParseFailure (List Bytes)) :
    List DNSType → Except Err (List Datum)
  | [] => .ok []
  | part :: rest =>
    match onPart type (parse part) part with
    | .error err => .error err
    | .ok data =>
      match onParts type parse rest with
      | .error err => .error err
      | .ok data' => .ok (data ++ data')

/-- `OnLoop` behind the error. Only for `SOA` no array is pushed before the record. -/
def queryData (type : DNSType) (parse : DNSType → Except ParseFailure (List Bytes)) : Outcome :=
  match onParts type parse (parts.filter (asks type)) with
  | .error err => .calls [.error err]
  | .ok data => if type = .soa ∧ data = [] then .crashes else .calls [.success data]

/-- `Callback` and `OnLoop`: `mData` is null where the query has failed. -/
def resolve (type : DNSType) (status : Int) (abuf : Bytes) (alloc : Bool)
    (parse : DNSType → Bytes → Except ParseFailure (List Bytes)) : Outcome :=
  if status ≠ ARES_SUCCESS ∨ abuf = [] then
    if AresErr status ≠ 0 then .calls [.error (.code (AresErr status) "ares_query")] else .crashes
  else if !alloc then .calls [.error (.code LOW_ENOMEM "malloc")]
  else queryData type (fun part => parse part abuf)

/-! ### `LowDNSResolver_GetHostByAddr` -/

/-- `Resolve`, whose result 0 says that there is no error, `Callback` and `OnLoop`: `mResult` is null
where the query has failed. -/
def reverse (pton : Bool) (errno : Int) (status : Int) (hostent : Option (List Bytes)) (alloc : Bool) :
    Outcome :=
  if !pton then
    if errno ≠ 0 then .calls [.error (.code errno "inet_pton")] else .calls []
  else match hostent with
    | none =>
      if AresErr status ≠ 0 then .calls [.error (.code (AresErr status) "ares_gethostbyaddr")]
      else .crashes
    | some names =>
      if status ≠ ARES_SUCCESS then
        if AresErr status ≠ 0 then .calls [.error (.code (AresErr status) "ares_gethostbyaddr")]
        else .crashes
      else if !alloc then .calls [.error (.code LOW_ENOMEM "malloc")]
      else .calls [.success (names.map .name)]

def Request.outcome : Request → Outcome
  | .lookup all verbatim host reply => NameService.lookup all verbatim host reply
  | .lookupService ip pton errno memory reply => NameService.lookupService ip pton errno memory reply
  | .resolve type status abuf alloc parse => NameService.resolve type status abuf alloc parse
  | .reverse pton errno status hostent alloc => NameService.reverse pton errno status hostent alloc

/-! ### What is promised -/

/-- The data of the answer, where the query has succeeded. -/
def Request.answer : Request → Option (List Datum)
  | .lookup _ _ _ (.ok result) => some (result.map fun i => .address i.host i.ai_family.number)
  | .lookup _ _ _ (.error _) => none
  | .lookupService _ pton _ _ (.ok names) => if pton then some [.service names.1 names.2] else none
  | .lookupService _ _ _ _ (.error _) => none
  | .resolve type status abuf _ parse =>
    if status = ARES_SUCCESS ∧ abuf ≠ [] then
      some ((parts.filter (asks type)).flatMap fun part =>
        match parse part abuf with
        | .ok values => values.map (.record part)
        | .error _ => [])
    else none
  | .reverse pton _ status hostent _ =>
    if pton ∧ status = ARES_SUCCESS then hostent.map (·.map .name) else none

/-- A success callback is given data of the answer. -/
def TakenFrom (answer : Option (List Datum)) : Callback → Prop
  | .error _ => True
  | .success data => ∃ all, answer = some all ∧ data ⊆ all

/-- The callback is called once: with an error, or, where the query has succeeded, with data of its
answer. -/
def Request.Promised (r : Request) : Prop :=
  ∃ callback, r.outcome = .calls [callback] ∧ TakenFrom r.answer callback

/-- The condition: no failure comes with a code that becomes 0; the first address of a lookup is usable;
and the answer to a query for `SOA` has a record. -/
def Request.Coded : Request → Prop
  | .lookup _ _ host (.ok result) => host.length < sizeofHost → ∀ info ∈ result.head?, info.usable = true
  | .lookup _ _ _ (.error _) => True
  | .lookupService ip pton errno _ reply => ip.length < INET_ADDRSTRLEN →
      if pton then ∀ f, reply = .error f → eaiErr f.errno f.status ≠ 0 else errno ≠ 0
  | .resolve type status abuf alloc parse =>
    if status = ARES_SUCCESS then
      abuf ≠ [] ∧ (alloc = true → type = .soa → parse .soa abuf ≠ .ok [])
    else AresErr status ≠ 0
  | .reverse pton errno status hostent _ =>
    if pton then (if status = ARES_SUCCESS then hostent ≠ none else AresErr status ≠ 0)
    else errno ≠ 0

/-! ### The requests -/

/-- An error is called back once. -/
lemma promised_error {r : Request} (err : Err) (h : r.outcome = .calls [.error err]) : r.Promised :=
  ⟨.error err, h, trivial⟩

lemma promised_success {r : Request} (data : List Datum) {all : List Datum} (h : r.outcome = .calls [.success data])
    (hanswer : r.answer = some all) (hdata : data ⊆ all) : r.Promised :=
  ⟨.success data, h, all, hanswer, hdata⟩

lemma not_promised_crashes {r : Request} (h : r.outcome = .crashes) : ¬r.Promised := by
  rintro ⟨callback, hc, _⟩
  rw [h] at hc
  cases hc

lemma not_promised_success {r : Request} {data : List Datum} (h : r.outcome = .calls [.success data])
    (hanswer : r.answer = none) : ¬r.Promised := by
  rintro ⟨callback, hc, htaken⟩
  rw [h] at hc
  cases hc
  obtain ⟨all, hall, _⟩ := htaken
  rw [hanswer] at hall
  cases hall

/-- The JavaScript side passes on addresses it is given. -/
lemma lookupJS_calls (all verbatim : Bool) {addrs : List (Bytes × Nat)} (h : addrs ≠ []) :
    ∃ data, lookupJS all verbatim addrs = .calls [.success data] ∧
      data ⊆ addrs.map fun a => .address a.1 a.2 := by
  have hsorted : ∀ a, a ∈ (if verbatim then addrs
      else addrs.mergeSort (fun a b => decide (a.2 ≤ b.2))) ↔ a ∈ addrs := by
    intro a
    split
    · exact Iff.rfl
    · exact List.mem_mergeSort
  simp only [lookupJS]
  generalize (if verbatim then addrs else addrs.mergeSort (fun a b => decide (a.2 ≤ b.2))) = sorted at *
  cases all with
  | true =>
    refine ⟨_, rfl, ?_⟩
    intro d hd
    obtain ⟨a, ha, rfl⟩ := List.mem_map.1 hd
    exact List.mem_map.2 ⟨a, (hsorted a).1 ha, rfl⟩
  | false =>
    cases sorted with
    | nil =>
      obtain ⟨a, ha⟩ := List.exists_mem_of_ne_nil addrs h
      cases (hsorted a).2 ha
    | cons a rest =>
      refine ⟨_, rfl, ?_⟩
      intro d hd
      cases List.mem_singleton.1 hd
      exact List.mem_map.2 ⟨a, (hsorted a).1 List.mem_cons_self, rfl⟩

lemma lookup_promised (all verbatim : Bool) (host : Bytes) (reply : Except Failure (List AddrInfo)) :
    (Request.lookup all verbatim host reply).Promised ↔ (Request.lookup all verbatim host reply).Coded := by
  by_cases hlong : sizeofHost ≤ host.length
  · have hout : (Request.lookup all verbatim host reply).outcome = .calls [.error .tooLong] := by
      simp only [Request.outcome, lookup, if_pos hlong]
    have hcoded : (Request.lookup all verbatim host reply).Coded := by
      cases reply with
      | error f => trivial
      | ok result => exact fun hlt => absurd hlong (Nat.not_le_of_lt hlt)
    exact iff_of_true (promised_error _ hout) hcoded
  · cases reply with
    | error f =>
      apply iff_of_true _ trivial
      by_cases hcode : eaiErr f.errno f.status = 0
      · apply promised_error (.code ENODATA "getaddrinfo")
        simp [Request.outcome, lookup, lookupOnLoop, hlong, hcode]
      · apply promised_error (.code (eaiErr f.errno f.status) "getaddrinfo")
        simp [Request.outcome, lookup, lookupOnLoop, hlong, hcode]
    | ok result =>
      have hout : (Request.lookup all verbatim host (.ok result)).outcome =
          lookupOnLoop all verbatim 0 result := by
        simp only [Request.outcome, lookup, if_neg hlong, LOW_EUNKNOWN]
      have hlt : host.length < sizeofHost := Nat.lt_of_not_le hlong
      cases result with
      | nil =>
        apply iff_of_true
        · exact promised_error _ hout
        · intro _ info hinfo
          cases hinfo
      | cons info rest =>
        cases husable : info.usable with
        | false =>
          apply iff_of_false
          · rintro ⟨callback, hc, _⟩
            rw [hout] at hc
            simp [lookupOnLoop, husable] at hc
          · intro hcoded
            have := hcoded hlt info rfl
            rw [husable] at this
            cases this
        | true =>
          apply iff_of_true
          · have hne : addresses (info :: rest) ≠ [] := by
              simp [addresses, husable]
            obtain ⟨data, hdata, hsub⟩ := lookupJS_calls all verbatim hne
            refine promised_success data ?_ rfl ?_
            · rw [hout]
              simp only [lookupOnLoop, husable, if_true]
              exact hdata
            · intro d hd
              obtain ⟨a, ha, rfl⟩ := List.mem_map.1 (hsub hd)
              simp only [addresses, List.mem_map, List.mem_filter] at ha
              obtain ⟨i, hi, rfl⟩ := ha
              exact List.mem_map.2 ⟨i, hi.1, rfl⟩
          · intro _ i hi
            cases hi
            exact husable

lemma lookupService_promised (ip : Bytes) (pton : Bool) (errno : Int) (memory : Bytes × Bytes)
    (reply : Except Failure (Bytes × Bytes)) :
    (Request.lookupService ip pton errno memory reply).Promised ↔
      (Request.lookupService ip pton errno memory reply).Coded := by
  by_cases hlong : INET_ADDRSTRLEN ≤ ip.length
  · have hout : (Request.lookupService ip pton errno memory reply).outcome =
        .calls [.error .tooLong] := by
      simp only [Request.outcome, lookupService, if_pos hlong]
    apply iff_of_true (promised_error _ hout)
    exact fun hlt => absurd hlong (Nat.not_le_of_lt hlt)
  · have hlt : ip.length < INET_ADDRSTRLEN := Nat.lt_of_not_le hlong
    simp only [Request.Coded, hlt, true_imp_iff]
    cases pton with
    | false =>
      have hout : (Request.lookupService ip false errno memory reply).outcome =
          serviceOnLoop errno memory.1 memory.2 := by
        simp only [Request.outcome, lookupService, if_neg hlong, Bool.not_false, if_true]
      have hanswer : (Request.lookupService ip false errno memory reply).answer = none := by
        cases reply <;> rfl
      by_cases herrno : errno = 0
      · apply iff_of_false
        · have hsuccess : (Request.lookupService ip false errno memory reply).outcome =
              .calls [.success [.service memory.1 memory.2]] := by
            rw [hout, serviceOnLoop, if_neg (not_not.2 herrno)]
          exact not_promised_success hsuccess hanswer
        · simpa using herrno
      · apply iff_of_true
        · apply promised_error (.code errno "getnameinfo")
          rw [hout, serviceOnLoop, if_pos herrno]
        · simpa using herrno
    | true =>
      cases reply with
      | ok names =>
        apply iff_of_true
        · refine promised_success [.service names.1 names.2] ?_ rfl (List.Subset.refl _)
          simp [Request.outcome, lookupService, hlong, serviceOnLoop, LOW_EUNKNOWN]
        · intro f hf
          cases hf
      | error f =>
        have hout : (Request.lookupService ip true errno memory (.error f)).outcome =
            serviceOnLoop (eaiErr f.errno f.status) memory.1 memory.2 := by
          simp only [Request.outcome, lookupService, if_neg hlong, Bool.not_true, Bool.false_eq_true,
            if_false]
        by_cases hcode : eaiErr f.errno f.status = 0
        · apply iff_of_false
          · have hsuccess : (Request.lookupService ip true errno memory (.error f)).outcome =
                .calls [.success [.service memory.1 memory.2]] := by
              rw [hout, serviceOnLoop, if_neg (not_not.2 hcode)]
            exact not_promised_success hsuccess rfl
          · intro hcoded
            exact hcoded f rfl hcode
        · apply iff_of_true
          · apply promised_error (.code (eaiErr f.errno f.status) "getnameinfo")
            rw [hout, serviceOnLoop, if_pos hcode]
          · intro f' hf'
            cases hf'
            exact hcode

/-- The records a query collects are found in the answer. -/
lemma onParts_subset {type : DNSType} {parse : DNSType → Except ParseFailure (List Bytes)}
    (rest : List DNSType) : ∀ data, onParts type parse rest = .ok data →
    data ⊆ rest.flatMap fun part =>
      match parse part with
      | .ok values => values.map (.record part)
      | .error _ => [] := by
  induction rest with
  | nil =>
    intro data h
    cases h
    exact List.Subset.refl _
  | cons part rest ih =>
    intro data h
    simp only [onParts] at h
    cases hpart : onPart type (parse part) part with
    | error err =>
      rw [hpart] at h
      cases h
    | ok found =>
      rw [hpart] at h
      cases hrest : onParts type parse rest with
      | error err =>
        rw [hrest] at h
        cases h
      | ok data' =>
        rw [hrest] at h
        cases h
        rw [List.flatMap_cons]
        intro d hd
        obtain hd | hd := List.mem_append.1 hd
        · apply List.mem_append_left
          cases hfound : parse part with
          | ok values =>
            rw [hfound] at hpart
            cases hpart
            exact hd
          | error failure =>
            -- a part that has failed without an error has found nothing
            rw [hfound] at hpart
            cases failure with
            | realloc => cases hpart
            | status status =>
              simp only [onPart] at hpart
              split at hpart
              · cases hpart
                cases hd
              · cases hpart
        · exact List.mem_append_right _ (ih data' hrest hd)

/-- Only a query for `SOA` whose answer has no record does not call back. -/
lemma queryData_soa (parse : DNSType → Except ParseFailure (List Bytes)) :
    queryData .soa parse = .crashes ↔ parse .soa = .ok [] := by
  have hparts : parts.filter (asks .soa) = [.soa] := by decide
  simp only [queryData, hparts, onParts]
  cases hfound : parse .soa with
  | error failure =>
    cases failure with
    | realloc => simp [onPart]
    | status status => simp [onPart]
  | ok values => cases values <;> simp [onPart]

lemma queryData_promised {type : DNSType} {status : Int} {abuf : Bytes}
    {parse : DNSType → Bytes → Except ParseFailure (List Bytes)} (hstatus : status = ARES_SUCCESS)
    (habuf : abuf ≠ []) :
    (Request.resolve type status abuf true parse).Promised ↔
      (type = .soa → parse .soa abuf ≠ .ok []) := by
  have hout : (Request.resolve type status abuf true parse).outcome =
      queryData type (fun part => parse part abuf) := by
    simp [Request.outcome, resolve, hstatus, habuf]
  have hanswer : (Request.resolve type status abuf true parse).answer =
      some ((parts.filter (asks type)).flatMap fun part =>
        match parse part abuf with
        | .ok values => values.map (.record part)
        | .error _ => []) := by
    simp only [Request.answer]
    rw [if_pos ⟨hstatus, habuf⟩]
  cases hdata : onParts type (fun part => parse part abuf) (parts.filter (asks type)) with
  | error err =>
    apply iff_of_true
    · apply promised_error err
      rw [hout, queryData, hdata]
    · rintro rfl hsoa
      have := (queryData_soa fun part => parse part abuf).2 hsoa
      rw [queryData, hdata] at this
      cases this
  | ok data =>
    by_cases hempty : type = .soa ∧ data = []
    · have hcrash : queryData type (fun part => parse part abuf) = .crashes := by
        rw [queryData, hdata]
        exact if_pos hempty
      apply iff_of_false (not_promised_crashes (hout.trans hcrash))
      intro hcoded
      obtain ⟨rfl, _⟩ := hempty
      exact hcoded rfl ((queryData_soa _).1 hcrash)
    · apply iff_of_true
      · refine promised_success data ?_ hanswer (onParts_subset _ data hdata)
        rw [hout, queryData, hdata]
        exact if_neg hempty
      · rintro rfl hsoa
        have := (queryData_soa fun part => parse part abuf).2 hsoa
        rw [queryData, hdata] at this
        dsimp only at this
        rw [if_neg hempty] at this
        cases this

lemma resolve_promised (type : DNSType) (status : Int) (abuf : Bytes) (alloc : Bool)
    (parse : DNSType → Bytes → Except ParseFailure (List Bytes)) :
    (Request.resolve type status abuf alloc parse).Promised ↔
      (Request.resolve type status abuf alloc parse).Coded := by
  simp only [Request.Coded]
  by_cases hstatus : status = ARES_SUCCESS
  · rw [if_pos hstatus]
    by_cases habuf : abuf = []
    · apply iff_of_false
      · apply not_promised_crashes
        simp [Request.outcome, resolve, habuf, hstatus, AresErr, ARES_SUCCESS, LOW_EUNKNOWN]
      · exact fun h => h.1 habuf
    · cases alloc with
      | true =>
        rw [queryData_promised hstatus habuf]
        simp [habuf]
      | false =>
        apply iff_of_true
        · apply promised_error (.code LOW_ENOMEM "malloc")
          simp [Request.outcome, resolve, habuf, hstatus]
        · exact ⟨habuf, fun h => by cases h⟩
  · rw [if_neg hstatus]
    by_cases hcode : AresErr status = 0
    · apply iff_of_false
      · apply not_promised_crashes
        simp [Request.outcome, resolve, hstatus, hcode]
      · exact fun h => h hcode
    · apply iff_of_true _ hcode
      apply promised_error (.code (AresErr status) "ares_query")
      simp [Request.outcome, resolve, hstatus, hcode]

lemma reverse_promised (pton : Bool) (errno status : Int) (hostent : Option (List Bytes))
    (alloc : Bool) : (Request.reverse pton errno status hostent alloc).Promised ↔
      (Request.reverse pton errno status hostent alloc).Coded := by
  simp only [Request.Coded]
  cases pton with
  | false =>
    simp only [Bool.false_eq_true, if_false]
    by_cases herrno : errno = 0
    · apply iff_of_false
      · rintro ⟨callback, hc, _⟩
        simp [Request.outcome, reverse, herrno] at hc
      · exact fun h => h herrno
    · apply iff_of_true _ herrno
      apply promised_error (.code errno "inet_pton")
      simp [Request.outcome, reverse, herrno]
  | true =>
    simp only [if_true]
    by_cases hstatus : status = ARES_SUCCESS
    · rw [if_pos hstatus]
      have hcode : AresErr status = 0 := by
        rw [hstatus]
        rfl
      cases hostent with
      | none =>
        apply iff_of_false
        · apply not_promised_crashes
          simp [Request.outcome, reverse, hcode]
        · simp
      | some names =>
        apply iff_of_true _ (by simp)
        cases alloc with
        | false =>
          apply promised_error (.code LOW_ENOMEM "malloc")
          simp [Request.outcome, reverse, hstatus]
        | true =>
          refine promised_success (names.map .name) ?_ ?_ (List.Subset.refl _)
          · simp [Request.outcome, reverse, hstatus]
          · simp [Request.answer, hstatus]
    · rw [if_neg hstatus]
      by_cases hcode : AresErr status = 0
      · apply iff_of_false
        · apply not_promised_crashes
          cases hostent <;> simp [Request.outcome, reverse, hstatus, hcode]
        · exact fun h => h hcode
      · apply iff_of_true _ hcode
        apply promised_error (.code (AresErr status) "ares_gethostbyaddr")
        cases hostent <;> simp [Request.outcome, reverse, hstatus, hcode]

/-- A request calls back once, with an error or with data of the answer to a query that has succeeded,
exactly where no failure comes with a code that becomes 0, the first address of a lookup is usable, and
the answer to a query for `SOA` has a record. -/
theorem promised_iff (r : Request) : r.Promised ↔ r.Coded := by
  cases r with
  | lookup all verbatim host reply => exact lookup_promised all verbatim host reply
  | lookupService ip pton errno memory reply =>
    exact lookupService_promised ip pton errno memory reply
  | resolve type status abuf alloc parse => exact resolve_promised type status abuf alloc parse
  | reverse pton errno status hostent alloc => exact reverse_promised pton errno status hostent alloc

/-- A name longer than `mHost`: `getnameinfo` fails with `EAI_OVERFLOW`, and the callback is given what
the arrays hold. -/
theorem not_promised : ¬∀ r : Request, r.Promised := by
  intro h
  obtain ⟨callback, hc, htaken⟩ :=
    h (.lookupService [49, 46, 49, 46, 49, 46, 49] true 0 ([], []) (.error ⟨.OVERFLOW, 0⟩))
  have hout : (Request.lookupService [49, 46, 49, 46, 49, 46, 49] true 0 ([], [])
      (.error ⟨.OVERFLOW, 0⟩)).outcome = .calls [.success [.service [] []]] := by decide
  rw [hout] at hc
  cases hc
  obtain ⟨all, hall, _⟩ := htaken
  cases hall

end LowJs.NameService
