import Mathlib

/-!
# The headers of a message

The three loops of `internal/http.js` that fold the list of the raw headers, names and values in turn, into
an object. The object is plain: what `Object.prototype` has is read from it as well, and so from
`discard2headers`.
-/

namespace LowJs.HTTP.Headers

/-- What an own property of the headers can be. -/
inductive Value
  | string (value : String)
  | array (values : List String)
  deriving DecidableEq, Repr

/-- The own properties of the headers. -/
abbrev Object := String → Option Value

/-- The properties of `Object.prototype`. All of them are truthy. -/
def prototype : List String :=
  ["constructor", "__proto__", "toString", "toLocaleString", "valueOf", "hasOwnProperty",
    "isPrototypeOf", "propertyIsEnumerable", "__defineGetter__", "__defineSetter__",
    "__lookupGetter__", "__lookupSetter__"]

def discard2headers : List String :=
  ["age", "authorization", "content-length", "content-type", "etag", "expires", "from", "host",
    "if-modified-since", "if-unmodified-since", "last-modified", "location", "max-forwards",
    "proxy-authorization", "referer", "retry-after", "user-agent"]

/-- Whether `headers[key]` is truthy. -/
def truthy (headers : Object) (key : String) : Bool :=
  match headers key with
  | some (.string value) => value != ""
  | some (.array _) => true
  | none => prototype.contains key

/-- Whether `discard2headers[key]` is truthy. -/
def discards (key : String) : Bool := discard2headers.contains key || prototype.contains key

/-- `headers[key] += ',' + value`. An inherited property is never appended to: `discards` has it. -/
def append (headers : Object) (key value : String) : Object :=
  match headers key with
  | some (.string s) => Function.update headers key (some (.string (s ++ ("," ++ value))))
  | some (.array values) =>
    Function.update headers key (some (.string (",".intercalate values ++ ("," ++ value))))
  | none => headers

/-- The loop puts one header into the object. -/
def header (headers : Object) (key value : String) : Object :=
  if truthy headers key then
    if key = "set-cookie" then Function.update headers key (some (.array [value]))
    else if !discards key then append headers key value
    else headers
  else if key = "set-cookie" then Function.update headers key (some (.array [value]))
  else Function.update headers key (some (.string value))

section

variable (toLowerCase : String → String)

/-- The loop, with the flag `upgrade`. -/
def loop (headers : Object) (upgrade : Bool) : List String → Object × Bool
  | key :: value :: data =>
    let key := toLowerCase key
    loop (header headers key value) (upgrade || key == "upgrade") data
  | _ => (headers, upgrade)

/-- `data` is the method, the URL, the version and the headers. -/
def handleServerConn (data : List String) : Object × Bool :=
  loop toLowerCase (fun _ => none) false (data.drop 3)

/-- `data` is the version, the status code, the status message and the headers. -/
def _onSocket (data : List String) : Object × Bool :=
  loop toLowerCase (fun _ => none) false (data.drop 3)

def trailers (data : List String) : Object := (loop toLowerCase (fun _ => none) false data).1

/-! ### What is promised -/

/-- The values of the headers that are called so, in order. -/
def values (key : String) : List String → List String
  | name :: value :: data =>
    if toLowerCase name = key then value :: values key data else values key data
  | _ => []

/-- What the object should have under a name. -/
def folded (data : List String) (key : String) : Option Value :=
  match values toLowerCase key data with
  | [] => none
  | value :: rest =>
    if key = "set-cookie" then some (.array (value :: rest))
    else if key ∈ discard2headers then some (.string value)
    else some (.string (",".intercalate (value :: rest)))

/-- The three loops fold a list as they should, and alike. -/
structure Folds (data : List String) : Prop where
  server : ∀ a b c, (handleServerConn toLowerCase (a :: b :: c :: data)).1 = folded toLowerCase data
  client : ∀ a b c, (_onSocket toLowerCase (a :: b :: c :: data)).1 = folded toLowerCase data
  message : trailers toLowerCase data = folded toLowerCase data
  same : ∀ a b c, handleServerConn toLowerCase (a :: b :: c :: data) =
    _onSocket toLowerCase (a :: b :: c :: data)

/-- The condition on the values under a name. -/
def Keeps (key : String) : List String → Prop
  | [] => True
  | value :: rest =>
    key ∉ prototype ∧
      if key = "set-cookie" then rest = []
      else if key ∈ discard2headers then value = "" → ∀ v ∈ rest, v = ""
      else value = "" → rest = []

end

/-! ### One name -/

variable {headers : Object} {key : String}

lemma header_of_ne {k : String} (h : k ≠ key) (value : String) : header headers key value k = headers k := by
  rw [header]
  split
  case isTrue =>
    split
    case isTrue => exact Function.update_of_ne h _ _
    case isFalse =>
      split
      case isTrue =>
        rw [append]
        cases headers key with
        | none => rfl
        | some entry =>
          cases entry with
          | string s => exact Function.update_of_ne h _ _
          | array values => exact Function.update_of_ne h _ _
      case isFalse => rfl
  case isFalse =>
    split
    · exact Function.update_of_ne h _ _
    · exact Function.update_of_ne h _ _

/-- A name that `Object.prototype` has gets no property. -/
lemma header_prototype (hkey : key ∈ prototype) (h : headers key = none) (value : String) :
    header headers key value = headers := by
  have htruthy : truthy headers key = true := by
    rw [truthy, h]
    exact List.contains_iff_mem.mpr hkey
  have hdiscards : discards key = true := by
    rw [discards, List.contains_iff_mem.mpr hkey, Bool.or_true]
  have hcookie : key ≠ "set-cookie" := by
    rintro rfl
    revert hkey
    decide
  simp only [header, htruthy, if_true, if_neg hcookie, hdiscards, Bool.not_true, Bool.false_eq_true,
    if_false]

/-- Each cookie takes the place of the one before it. -/
lemma header_cookie (headers : Object) (value : String) :
    header headers "set-cookie" value "set-cookie" = some (.array [value]) := by
  simp only [header, if_true, ite_self, Function.update_self]

/-- An entry that is missing or empty is set. -/
lemma header_falsy (h : truthy headers key = false) (hcookie : key ≠ "set-cookie") (value : String) :
    header headers key value key = some (.string value) := by
  simp only [header, h, Bool.false_eq_true, if_false, if_neg hcookie, Function.update_self]

lemma header_discard {s : String} (h : headers key = some (.string s)) (hs : s ≠ "")
    (hcookie : key ≠ "set-cookie") (hkey : key ∈ discard2headers) (value : String) :
    header headers key value = headers := by
  have hdiscards : discards key = true := by
    rw [discards, List.contains_iff_mem.mpr hkey, Bool.true_or]
  have htruthy : truthy headers key = true := by simp [truthy, h, hs]
  simp only [header, htruthy, if_true, if_neg hcookie, hdiscards, Bool.not_true, Bool.false_eq_true,
    if_false]

lemma header_append {s : String} (h : headers key = some (.string s)) (hs : s ≠ "")
    (hcookie : key ≠ "set-cookie") (hkey : key ∉ discard2headers) (hproto : key ∉ prototype)
    (value : String) : header headers key value key = some (.string (s ++ ("," ++ value))) := by
  have hdiscards : discards key = false := by simp [discards, hkey, hproto]
  have htruthy : truthy headers key = true := by simp [truthy, h, hs]
  simp only [header, htruthy, if_true, if_neg hcookie, hdiscards, Bool.not_false, append, h,
    Function.update_self]

/-! ### The values under one name -/

/-- The values are put under the name, one behind the other. -/
def puts (headers : Object) (key : String) (vs : List String) : Object :=
  vs.foldl (fun h v => header h key v) headers

lemma puts_cons (headers : Object) (key v : String) (vs : List String) :
    puts headers key (v :: vs) = puts (header headers key v) key vs := rfl

/-- What a loop does to a name depends on the entry that is there. -/
lemma header_congr {headers' : Object} (h : headers key = headers' key) (value : String) :
    header headers key value key = header headers' key value key := by
  have htruthy : truthy headers key = truthy headers' key := by rw [truthy, truthy, h]
  simp only [header, htruthy]
  split
  case isTrue =>
    split
    case isTrue => simp only [Function.update_self]
    case isFalse =>
      split
      case isTrue =>
        rw [append, append, ← h]
        cases hentry : headers key with
        | none => exact h
        | some entry =>
          cases entry with
          | string s => simp only [Function.update_self]
          | array values => simp only [Function.update_self]
      case isFalse => exact h
  case isFalse =>
    split
    · simp only [Function.update_self]
    · simp only [Function.update_self]

lemma puts_congr {headers' : Object} (h : headers key = headers' key) (vs : List String) :
    puts headers key vs key = puts headers' key vs key := by
  induction vs generalizing headers headers' with
  | nil => exact h
  | cons v vs ih => exact ih (header_congr h v)

/-- Under a name the loop puts the values of that name. -/
lemma loop_apply (toLowerCase : String → String) (headers : Object) (upgrade : Bool)
    (data : List String) (key : String) :
    (loop toLowerCase headers upgrade data).1 key =
      puts headers key (values toLowerCase key data) key := by
  induction headers, upgrade, data using loop.induct toLowerCase with
  | case1 headers upgrade name value data _ ih =>
    rw [loop, values]
    refine ih.trans ?_
    split
    case isTrue hname =>
      subst hname
      rfl
    case isFalse hname =>
      apply puts_congr
      exact header_of_ne (fun h => hname h.symm) value
  | case2 headers upgrade data hdata =>
    rw [loop.eq_2 _ _ _ _ hdata, values.eq_2 _ _ _ hdata]
    rfl

lemma puts_prototype (hkey : key ∈ prototype) (h : headers key = none) (vs : List String) :
    puts headers key vs = headers := by
  induction vs with
  | nil => rfl
  | cons v vs ih => rw [puts_cons, header_prototype hkey h, ih]

lemma puts_cookie (headers : Object) (vs : List String) (v : String) :
    puts headers "set-cookie" (vs ++ [v]) "set-cookie" = some (.array [v]) := by
  rw [puts, List.foldl_append]
  exact header_cookie _ v

lemma truthy_empty (h : headers key = some (.string "")) : truthy headers key = false := by
  simp [truthy, h]

lemma puts_discard {s : String} (h : headers key = some (.string s)) (hs : s ≠ "")
    (hcookie : key ≠ "set-cookie") (hkey : key ∈ discard2headers) (vs : List String) :
    puts headers key vs = headers := by
  induction vs with
  | nil => rfl
  | cons v vs ih => rw [puts_cons, header_discard h hs hcookie hkey, ih]

/-- An empty first value stays only if no other value follows. -/
lemma puts_discard_empty (h : headers key = some (.string "")) (hcookie : key ≠ "set-cookie")
    (hkey : key ∈ discard2headers) (vs : List String) :
    puts headers key vs key = some (.string "") ↔ ∀ v ∈ vs, v = "" := by
  induction vs generalizing headers with
  | nil => simp [puts, h]
  | cons v vs ih =>
    have hv := header_falsy (truthy_empty h) hcookie v
    rw [puts_cons, List.forall_mem_cons]
    by_cases hempty : v = ""
    · subst hempty
      rw [ih hv]
      simp
    · rw [puts_discard hv hempty hcookie hkey, hv]
      simp [hempty]

/-- Values are joined to an entry that is not empty. -/
lemma puts_append {s : String} (h : headers key = some (.string s)) (hs : s ≠ "")
    (hcookie : key ≠ "set-cookie") (hkey : key ∉ discard2headers) (hproto : key ∉ prototype)
    (vs : List String) : puts headers key vs key = some (.string (",".intercalate (s :: vs))) := by
  induction vs generalizing headers s with
  | nil => simp [puts, h]
  | cons v vs ih =>
    have hv := header_append h hs hcookie hkey hproto v
    have hne : s ++ ("," ++ v) ≠ "" := by
      intro hnil
      exact hs (String.append_eq_empty_iff.mp hnil).1
    rw [puts_cons, ih hv hne, ← String.append_assoc, String.intercalate_cons_append,
      String.intercalate_cons_cons]

/-- An empty entry loses its comma. -/
lemma puts_length {s : String} (h : headers key = some (.string s)) (hcookie : key ≠ "set-cookie")
    (hkey : key ∉ discard2headers) (hproto : key ∉ prototype) (vs : List String) :
    ∃ t, puts headers key vs key = some (.string t) ∧
      t.length ≤ (",".intercalate (s :: vs)).length ∧
      (s = "" → vs ≠ [] → t.length < (",".intercalate (s :: vs)).length) := by
  induction vs generalizing headers s with
  | nil => exact ⟨s, h, by simp, by simp⟩
  | cons v vs ih =>
    by_cases hs : s = ""
    · subst hs
      have hv := header_falsy (truthy_empty h) hcookie v
      obtain ⟨t, ht, hle, -⟩ := ih hv
      have hlt : t.length < (",".intercalate ("" :: v :: vs)).length := by
        rw [String.intercalate_cons_cons, String.length_append, String.length_append]
        have : (",":String).length = 1 := rfl
        omega
      exact ⟨t, ht, hlt.le, fun _ _ => hlt⟩
    · refine ⟨_, puts_append h hs hcookie hkey hproto (v :: vs), le_rfl, ?_⟩
      intro hempty
      exact absurd hempty hs

/-! ### The fold -/

section

variable (toLowerCase : String → String) (data : List String)

/-- A name gets what it should exactly under the condition. -/
lemma trailers_apply (key : String) :
    trailers toLowerCase data key = folded toLowerCase data key ↔ Keeps key (values toLowerCase key data) := by
  rw [trailers, loop_apply, folded]
  cases hvalues : values toLowerCase key data with
  | nil => simp [puts, Keeps]
  | cons value rest =>
    dsimp only [Keeps]
    by_cases hproto : key ∈ prototype
    · rw [puts_prototype hproto rfl]
      constructor
      · intro h
        split_ifs at h
      · intro h
        exact absurd hproto h.1
    by_cases hcookie : key = "set-cookie"
    · subst hcookie
      simp only [if_true, hproto, not_false_eq_true, true_and]
      rcases List.eq_nil_or_concat rest with rfl | ⟨front, last, rfl⟩
      · exact iff_of_true (puts_cookie _ [] value) rfl
      · rw [List.concat_eq_append, ← List.cons_append, puts_cookie]
        simp
    have htruthy : truthy (fun _ => none) key = false := by simp [truthy, hproto]
    have hvalue := header_falsy htruthy hcookie value
    simp only [if_neg hcookie, hproto, not_false_eq_true, true_and, puts_cons]
    by_cases hkey : key ∈ discard2headers
    · simp only [if_pos hkey]
      by_cases hempty : value = ""
      · subst hempty
        simp only [puts_discard_empty hvalue hcookie hkey, forall_const]
      · rw [puts_discard hvalue hempty hcookie hkey, hvalue]
        simp [hempty]
    · simp only [if_neg hkey]
      by_cases hempty : value = ""
      · obtain ⟨t, ht, -, hlt⟩ := puts_length hvalue hcookie hkey hproto rest
        by_cases hrest : rest = []
        · subst hrest
          simp [puts, hvalue]
        · have hne : t ≠ ",".intercalate (value :: rest) := by
            intro heq
            exact absurd (heq ▸ hlt hempty hrest) (lt_irrefl _)
          rw [ht, Option.some.injEq, Value.string.injEq]
          exact iff_of_false hne fun h => hrest (h hempty)
      · rw [puts_append hvalue hempty hcookie hkey hproto]
        exact iff_of_true rfl fun h => absurd h hempty

/-- The loops fold a list as they should exactly if the condition holds of every name. -/
theorem folds_iff :
    Folds toLowerCase data ↔ ∀ key, Keeps key (values toLowerCase key data) := by
  constructor
  · intro h key
    exact (trailers_apply toLowerCase data key).mp (congrFun h.message key)
  · intro h
    have hmessage : trailers toLowerCase data = folded toLowerCase data := by
      funext key
      exact (trailers_apply toLowerCase data key).mpr (h key)
    exact ⟨fun _ _ _ => hmessage, fun _ _ _ => hmessage, hmessage, fun _ _ _ => rfl⟩

end

/-- Of two cookies the second is kept. -/
theorem cookie_lost :
    ¬ ∀ (toLowerCase : String → String) (data : List String), Folds toLowerCase data := by
  intro h
  have hcookie := congrFun (h (fun name => if name = "Set-Cookie" then "set-cookie" else name)
    ["Set-Cookie", "a=1", "Set-Cookie", "b=2"]).message "set-cookie"
  revert hcookie
  decide

end LowJs.HTTP.Headers
