import Mathlib

/-!
# Writing a variant

`opcua_uaclient_write` puts a JavaScript value into an array on its stack, to which the variant points, and
`PushVariant` reads a variant back. The floating point types are left out.
-/

namespace LowJs.OPCUA

abbrev Bytes := List UInt8

/-- The types that the method knows; `other` are those for which it throws. -/
inductive VariantType
  | boolean
  | sByte
  | byte
  | int16
  | uInt16
  | int32
  | uInt32
  | qualifiedName
  | localizedText
  | string
  | byteString
  | other
  deriving DecidableEq, Repr

/-- A JavaScript value; the characters of a string are the bytes in which the engine keeps them. -/
inductive JSValue
  | null
  | boolean (b : Bool)
  | number (n : Int)
  | string (s : Bytes)
  | buffer (s : Bytes)
  deriving DecidableEq, Repr

/-- `UA_String`: the pointer leads to the bytes, of which there may be more than it counts. -/
structure UA_String where
  length : Nat
  data : Bytes
  deriving DecidableEq, Repr

/-- What an array on the stack holds. -/
inductive Data
  | boolean (b : Bool)
  | sByte (v : Int8)
  | byte (v : UInt8)
  | int16 (v : Int16)
  | uInt16 (v : UInt16)
  | int32 (v : Int32)
  | uInt32 (v : UInt32)
  | qualifiedName (name : UA_String)
  | localizedText (text : UA_String)
  | string (s : UA_String)
  | byteString (s : UA_String)
  deriving DecidableEq, Repr

/-- The sizes of the structures of the OPC-UA library; a name has a string in it. -/
structure Layout where
  sizeofString : Nat
  sizeofQualifiedName : Nat
  textOffset : Nat
  number_fits : 4 ≤ sizeofString
  string_fits : sizeofString ≤ sizeofQualifiedName

/-- What is on the stack before the value is written: what the array holds, and the bytes of a `UA_ByteString`
that points to the value. -/
structure Stack where
  data : Data
  header : Bytes
  deriving DecidableEq, Repr

/-- What the method comes to: an error of the engine, a write behind the end of an array, or the array to
which the variant points and the value as it is then. -/
inductive Written
  | typeError
  | referenceError
  | outOfBounds
  | data (d : Data) (value : JSValue)
  deriving DecidableEq, Repr

/-- `duk_require_int`. -/
def requireInt (n : Int) : Int := max (-2 ^ 31) (min n (2 ^ 31 - 1))

/-- `duk_require_uint`. -/
def requireUInt (n : Int) : Int := max 0 (min n (2 ^ 32 - 1))

/-- `duk_require_lstring`. -/
def requireString (s : Bytes) : UA_String := ⟨s.length, s⟩

/-- A value of `size` bytes is stored in the array. The size of the array is that of a `UA_QualifiedName`, for
both sides of the comparison that was to choose the larger structure are it. -/
def store (l : Layout) (size : Nat) (d : Data) (value : JSValue) : Written :=
  if size ≤ l.sizeofQualifiedName then .data d value else .outOfBounds

/-- `opcua_uaclient_write`, up to the request. -/
def write (l : Layout) (stack : Stack) : VariantType → JSValue → Written
  | .boolean, .boolean b => store l 1 (.boolean b) (.boolean b)
  | .sByte, .number n => store l 1 (.sByte (Int8.ofInt (requireInt n))) (.number n)
  | .byte, .number n => store l 1 (.byte (UInt8.ofInt (requireUInt n))) (.number n)
  | .int16, .number n => store l 2 (.int16 (Int16.ofInt (requireInt n))) (.number n)
  | .uInt16, .number n => store l 2 (.uInt16 (UInt16.ofInt (requireUInt n))) (.number n)
  | .int32, .number n => store l 4 (.int32 (Int32.ofInt (requireInt n))) (.number n)
  | .uInt32, .number n => store l 4 (.uInt32 (UInt32.ofInt (requireInt n))) (.number n)
  | .qualifiedName, .string s =>
    store l l.sizeofQualifiedName (.qualifiedName (requireString s)) (.string s)
  | .localizedText, .string s =>
    store l (l.textOffset + l.sizeofString) (.localizedText (requireString s)) (.string s)
  | .string, .string s => store l l.sizeofString (.string (requireString s)) (.string s)
  | .byteString, .buffer s =>
    -- the inner `data` hides the array: the members are stored in the bytes of the buffer
    if l.sizeofString ≤ s.length then .data stack.data (.buffer (stack.header ++ s.drop l.sizeofString))
    else .outOfBounds
  | .other, _ => .referenceError
  | _, _ => .typeError

/-- The bytes that `duk_push_lstring` and `memcpy` copy. -/
def UA_String.bytes (s : UA_String) : Bytes := s.data.take s.length

/-- `PushVariant`. An array that holds something else than the type says has no value of that type. -/
def PushVariant : VariantType → Data → Option JSValue
  | .boolean, .boolean b => some (.boolean b)
  | .sByte, .sByte v => some (.number v.toInt)
  | .byte, .byte v => some (.number v.toNat)
  | .int16, .int16 v => some (.number v.toInt)
  | .uInt16, .uInt16 v => some (.number v.toNat)
  | .int32, .int32 v => some (.number v.toInt)
  | .uInt32, .uInt32 v => some (.number v.toNat)
  | .qualifiedName, .qualifiedName name => some (.string name.bytes)
  | .localizedText, .localizedText text => some (.string text.bytes)
  | .string, .string s => some (.string s.bytes)
  | .byteString, .byteString s => some (.buffer s.bytes)
  | .other, _ => some .null
  | _, _ => none

/-- The values of a type. -/
inductive InRange : VariantType → JSValue → Prop
  | boolean (b : Bool) : InRange .boolean (.boolean b)
  | sByte {n : Int} (hlow : -2 ^ 7 ≤ n) (hhigh : n < 2 ^ 7) : InRange .sByte (.number n)
  | byte {n : Int} (hlow : 0 ≤ n) (hhigh : n < 2 ^ 8) : InRange .byte (.number n)
  | int16 {n : Int} (hlow : -2 ^ 15 ≤ n) (hhigh : n < 2 ^ 15) : InRange .int16 (.number n)
  | uInt16 {n : Int} (hlow : 0 ≤ n) (hhigh : n < 2 ^ 16) : InRange .uInt16 (.number n)
  | int32 {n : Int} (hlow : -2 ^ 31 ≤ n) (hhigh : n < 2 ^ 31) : InRange .int32 (.number n)
  | uInt32 {n : Int} (hlow : 0 ≤ n) (hhigh : n < 2 ^ 32) : InRange .uInt32 (.number n)
  | qualifiedName (s : Bytes) : InRange .qualifiedName (.string s)
  | localizedText (s : Bytes) : InRange .localizedText (.string s)
  | string (s : Bytes) : InRange .string (.string s)
  | byteString (s : Bytes) : InRange .byteString (.buffer s)

/-- Whatever is on the stack, the variant is read back as the value that was written. -/
def Restored (l : Layout) (t : VariantType) (value : JSValue) : Prop :=
  ∀ stack, ∃ d after, write l stack t value = .data d after ∧ PushVariant t d = some value

/-- Where it is. -/
def Kept (l : Layout) : VariantType → JSValue → Prop
  | .uInt32, .number n => n < 2 ^ 31
  | .localizedText, _ => l.textOffset + l.sizeofString ≤ l.sizeofQualifiedName
  | .byteString, _ => False
  | _, _ => True

lemma requireInt_eq {n : Int} (hlow : -2 ^ 31 ≤ n) (hhigh : n < 2 ^ 31) : requireInt n = n := by
  rw [requireInt]
  omega

lemma requireUInt_eq {n : Int} (hlow : 0 ≤ n) (hhigh : n < 2 ^ 32) : requireUInt n = n := by
  rw [requireUInt]
  omega

lemma toNat_uInt8 {n : Int} (hlow : 0 ≤ n) (hhigh : n < 2 ^ 8) : ((UInt8.ofInt n).toNat : Int) = n := by
  rw [UInt8.ofInt, UInt8.toNat_ofNat']
  omega

lemma toNat_uInt16 {n : Int} (hlow : 0 ≤ n) (hhigh : n < 2 ^ 16) :
    ((UInt16.ofInt n).toNat : Int) = n := by
  rw [UInt16.ofInt, UInt16.toNat_ofNat']
  omega

/-- An unsigned integer is read as a signed one. -/
lemma toNat_uInt32_iff {n : Int} (hlow : 0 ≤ n) :
    ((UInt32.ofInt (requireInt n)).toNat : Int) = n ↔ n < 2 ^ 31 := by
  rw [UInt32.ofInt, UInt32.toNat_ofNat', requireInt]
  omega

@[simp] lemma bytes_requireString (s : Bytes) : (requireString s).bytes = s := List.take_length

variable {l : Layout} {t : VariantType} {value : JSValue} {size : Nat} {d : Data}

/-- What is stored does not depend on the stack. -/
lemma restored_store (hw : ∀ stack, write l stack t value = store l size d value) :
    Restored l t value ↔ size ≤ l.sizeofQualifiedName ∧ PushVariant t d = some value := by
  constructor
  · intro h
    obtain ⟨d', after, hd, hvalue⟩ := h ⟨.boolean true, []⟩
    rw [hw, store] at hd
    split at hd
    · rename_i hsize
      obtain ⟨rfl, -⟩ := Written.data.inj hd
      exact ⟨hsize, hvalue⟩
    · exact absurd hd nofun
  · rintro ⟨hsize, hvalue⟩ stack
    exact ⟨d, value, by rw [hw, store, if_pos hsize], hvalue⟩

/-- A number fits. -/
lemma restored_number {n m : Int} (hsize : size ≤ 4)
    (hw : ∀ stack, write l stack t (.number n) = store l size d (.number n))
    (hm : PushVariant t d = some (.number m)) : Restored l t (.number n) ↔ m = n := by
  have hfits := l.number_fits
  have hstring := l.string_fits
  rw [restored_store hw, hm]
  constructor
  · rintro ⟨-, h⟩
    exact JSValue.number.inj (Option.some.inj h)
  · rintro rfl
    exact ⟨by omega, rfl⟩

lemma not_restored_byteString (s : Bytes) : ¬Restored l .byteString (.buffer s) := by
  intro h
  obtain ⟨d, after, hd, hvalue⟩ := h ⟨.boolean true, []⟩
  rw [write] at hd
  split at hd
  · obtain ⟨rfl, -⟩ := Written.data.inj hd
    exact absurd hvalue nofun
  · exact absurd hd nofun

/-- A value that is written is read back, unless it is a byte string, a localized text with no room, or an
unsigned integer above the signed ones. -/
theorem write_restored_iff (h : InRange t value) : Restored l t value ↔ Kept l t value := by
  have hname := l.string_fits
  cases h with
  | boolean b =>
    rw [restored_store fun _ => rfl]
    exact iff_of_true ⟨by have := l.number_fits; omega, rfl⟩ trivial
  | sByte hlow hhigh =>
    rw [restored_number (by decide) (fun _ => rfl) rfl, requireInt_eq (by omega) (by omega)]
    exact iff_of_true (Int8.toInt_ofInt_of_le hlow hhigh) trivial
  | byte hlow hhigh =>
    rw [restored_number (by decide) (fun _ => rfl) rfl, requireUInt_eq hlow (by omega)]
    exact iff_of_true (toNat_uInt8 hlow hhigh) trivial
  | int16 hlow hhigh =>
    rw [restored_number (by decide) (fun _ => rfl) rfl, requireInt_eq (by omega) (by omega)]
    exact iff_of_true (Int16.toInt_ofInt_of_le hlow hhigh) trivial
  | uInt16 hlow hhigh =>
    rw [restored_number (by decide) (fun _ => rfl) rfl, requireUInt_eq hlow (by omega)]
    exact iff_of_true (toNat_uInt16 hlow hhigh) trivial
  | int32 hlow hhigh =>
    rw [restored_number (by decide) (fun _ => rfl) rfl, requireInt_eq hlow hhigh]
    exact iff_of_true (Int32.toInt_ofInt_of_le hlow hhigh) trivial
  | uInt32 hlow hhigh =>
    rw [restored_number (by decide) (fun _ => rfl) rfl, Kept]
    exact toNat_uInt32_iff hlow
  | qualifiedName s =>
    rw [restored_store fun _ => rfl, PushVariant, bytes_requireString]
    exact iff_of_true ⟨Nat.le_refl _, rfl⟩ trivial
  | localizedText s =>
    rw [restored_store fun _ => rfl, PushVariant, bytes_requireString]
    exact and_iff_left rfl
  | string s =>
    rw [restored_store fun _ => rfl, PushVariant, bytes_requireString]
    exact iff_of_true ⟨hname, rfl⟩ trivial
  | byteString s => exact iff_of_false (not_restored_byteString s) id

/-- A structure of 64-bit members: a localized text has two strings. -/
def layout64 : Layout := ⟨16, 24, 16, by decide, by decide⟩

theorem write_restored_iff_string : Restored layout64 .string (.string [0, 0x61]) ↔
    Kept layout64 .string (.string [0, 0x61]) :=
  write_restored_iff (.string [0, 0x61])

/-- 2³¹ becomes 2³¹ - 1, and what is read of a byte string and of a localized text is not what was written. -/
theorem write_not_restored :
    (InRange .uInt32 (.number (2 ^ 31)) ∧ ¬Restored layout64 .uInt32 (.number (2 ^ 31))) ∧
    ¬Restored layout64 .byteString (.buffer [0x61]) ∧ ¬Restored layout64 .localizedText (.string [0x61]) := by
  refine ⟨⟨.uInt32 (by decide) (by decide), fun h => ?_⟩, not_restored_byteString _, fun h => ?_⟩
  · obtain ⟨d, after, hd, hvalue⟩ := h ⟨.boolean true, []⟩
    obtain ⟨rfl, -⟩ := Written.data.inj hd
    exact absurd hvalue (by decide)
  · obtain ⟨d, after, hd, hvalue⟩ := h ⟨.boolean true, []⟩
    exact absurd hd nofun

end LowJs.OPCUA
