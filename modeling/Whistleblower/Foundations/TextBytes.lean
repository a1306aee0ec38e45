import Mathlib.Data.List.Basic
import Mathlib.Data.UInt
import Mathlib.Algebra.BigOperators.Group.List.Basic

/-!
# Text as bytes, bytes as text

The two crossings between strings and byte strings: the UTF-8 bytes of a string, and the lowercase
hexadecimal digits of a byte string. Both are injective; the first also turns concatenation into
concatenation, and its length is a sum over the characters, which is how lengths of texts are
compared (`utf8Size`).
-/

/-! ### UTF-8 -/

namespace String

/-- The UTF-8 bytes of a string. -/
def utf8 (s : String) : List UInt8 :=
  s.toByteArray.data.toList

theorem utf8_append (s t : String) : (s ++ t).utf8 = s.utf8 ++ t.utf8 := by
  rw [utf8, String.toByteArray_append, ByteArray.toList_data_append, utf8, utf8]

theorem utf8_inj {s t : String} : s.utf8 = t.utf8 ↔ s = t := by
  rw [utf8, utf8, Array.toList_inj, ← ByteArray.ext_iff, String.toByteArray_inj]

/-- The number of bytes of a list of characters. -/
def utf8Size (cs : List Char) : ℕ :=
  (cs.map Char.utf8Size).sum

@[simp] theorem utf8Size_nil : utf8Size [] = 0 := rfl

@[simp] theorem utf8Size_cons (c : Char) (cs : List Char) :
    utf8Size (c :: cs) = c.utf8Size + utf8Size cs := by
  rw [utf8Size, List.map_cons, List.sum_cons, utf8Size]

@[simp] theorem utf8Size_append (cs ds : List Char) :
    utf8Size (cs ++ ds) = utf8Size cs + utf8Size ds := by
  rw [utf8Size, List.map_append, List.sum_append, utf8Size, utf8Size]

theorem length_utf8_ofList (cs : List Char) : (String.ofList cs).utf8.length = utf8Size cs := by
  induction cs with
  | nil => rfl
  | cons c cs ih =>
    have hsingleton : (String.singleton c).utf8.length = c.utf8Size := by
      rw [utf8, Array.length_toList]
      exact String.utf8ByteSize_singleton
    rw [← List.singleton_append, String.ofList_append, utf8_append, List.length_append, ih,
      utf8Size_append, utf8Size_cons, utf8Size_nil, Nat.add_zero]
    exact congrArg (· + _) hsingleton

theorem length_utf8 (s : String) : s.utf8.length = utf8Size s.toList := by
  rw [← length_utf8_ofList, String.ofList_toList]

end String

/-! ### Hexadecimal -/

/-- The two lowercase digits of each byte, high half first. -/
def hexEncode (bs : List UInt8) : List Char :=
  bs.flatMap fun b ↦ [Nat.digitChar (b.toNat / 16), Nat.digitChar (b.toNat % 16)]

/-- The value of a lowercase hexadecimal digit. -/
def hexDigit? (c : Char) : Option ℕ :=
  if c.isDigit then some (c.toNat - '0'.toNat)
  else if 'a' ≤ c ∧ c ≤ 'f' then some (c.toNat - 'a'.toNat + 10)
  else none

/-- Read pairs of lowercase digits back. -/
def hexDecode : List Char → Option (List UInt8)
  | [] => some []
  | [_] => none
  | a :: b :: cs =>
    (hexDigit? a).bind fun a ↦ (hexDigit? b).bind fun b ↦
      (hexDecode cs).map fun bs ↦ UInt8.ofNat (16 * a + b) :: bs

theorem hexDigit?_digitChar : ∀ n < 16, hexDigit? (Nat.digitChar n) = some n := by
  decide

/-- **Hexadecimal round trip.** -/
theorem hexDecode_hexEncode (bs : List UInt8) : hexDecode (hexEncode bs) = some bs := by
  induction bs with
  | nil => rfl
  | cons b bs ih =>
    have hlt := b.toNat_lt
    have hhigh : hexDigit? (Nat.digitChar (b.toNat / 16)) = some (b.toNat / 16) :=
      hexDigit?_digitChar _ (by omega)
    have hlow : hexDigit? (Nat.digitChar (b.toNat % 16)) = some (b.toNat % 16) :=
      hexDigit?_digitChar _ (by omega)
    have hbyte : 16 * (b.toNat / 16) + b.toNat % 16 = b.toNat := by omega
    rw [hexEncode, List.flatMap_cons]
    show hexDecode (_ :: _ :: hexEncode bs) = _
    rw [hexDecode, hhigh, hlow, ih, Option.bind_some, Option.bind_some, Option.map_some, hbyte,
      UInt8.ofNat_toNat]
