import Whistleblower.Foundations.TextBytes

/-!
# C strings

The text that a pointer to characters stands for: the bytes up to the first NUL, read as UTF-8. What
is not UTF-8 is read lossily: each sequence that starts like a character and does not go on like one
becomes one replacement character, and reading goes on behind it.

What has been written is what is read (`textAt_utf8`), as long as no NUL is written. That holds for
any text, since lossy reading loses nothing of what is UTF-8 (`fromUtf8Lossy_utf8`).
-/

namespace String

/-! ### Lossy reading -/

/-- `b` may be the second byte of a character that starts with `lead`. -/
def isSecond (lead b : UInt8) : Bool :=
  if lead = 0xE0 then 0xA0 ≤ b ∧ b ≤ 0xBF
  else if lead = 0xED then 0x80 ≤ b ∧ b ≤ 0x9F
  else if lead = 0xF0 then 0x90 ≤ b ∧ b ≤ 0xBF
  else if lead = 0xF4 then 0x80 ≤ b ∧ b ≤ 0x8F
  else 0xC2 ≤ lead ∧ lead ≤ 0xF4 ∧ 0x80 ≤ b ∧ b ≤ 0xBF

/-- How many of the bytes behind `lead` are replaced with it: those that go on like a character of
three or four bytes, if it is not completed. -/
def illFormedTail (lead : UInt8) : List UInt8 → ℕ
  | b :: bs =>
    if lead < 0xE0 ∨ ! isSecond lead b then 0
    else if lead < 0xF0 then 1
    else
      match bs with
      | c :: _ => if 0x80 ≤ c ∧ c ≤ 0xBF then 2 else 1
      | [] => 1
  | [] => 0

/-- The character a byte string starts with. -/
def firstChar? (bytes : List UInt8) : Option Char :=
  bytes.toByteArray.utf8DecodeChar? 0

/-- The characters behind the first `skip` bytes. -/
def lossyChars : ℕ → List UInt8 → List Char
  | _, [] => []
  | skip + 1, _ :: bs => lossyChars skip bs
  | 0, b :: bs =>
    match firstChar? (b :: bs) with
    | some c => c :: lossyChars (c.utf8Size - 1) bs
    | none => Char.ofNat 0xFFFD :: lossyChars (illFormedTail b bs) bs

/-- `String::from_utf8_lossy`. -/
def fromUtf8Lossy (bytes : List UInt8) : String :=
  String.ofList (lossyChars 0 bytes)

/-! ### What is UTF-8 is read as it is -/

theorem utf8_ofList_cons (c : Char) (cs : List Char) :
    (String.ofList (c :: cs)).utf8 = utf8EncodeChar c ++ (String.ofList cs).utf8 := by
  rw [← List.singleton_append, String.ofList_append, utf8_append, utf8, String.toByteArray_ofList,
    List.utf8Encode_singleton, List.toList_data_toByteArray]

theorem firstChar?_utf8EncodeChar_append (c : Char) (rest : List UInt8) :
    firstChar? (utf8EncodeChar c ++ rest) = some c := by
  rw [firstChar?, List.toByteArray_append, ByteArray.utf8DecodeChar?_utf8EncodeChar_append]

theorem lossyChars_append (bs rest : List UInt8) :
    lossyChars bs.length (bs ++ rest) = lossyChars 0 rest := by
  induction bs with
  | nil => rfl
  | cons b bs ih => exact ih

theorem lossyChars_utf8EncodeChar_append (c : Char) (rest : List UInt8) :
    lossyChars 0 (utf8EncodeChar c ++ rest) = c :: lossyChars 0 rest := by
  have hfirst := firstChar?_utf8EncodeChar_append c rest
  have hlength := String.length_utf8EncodeChar c
  cases hbytes : utf8EncodeChar c with
  | nil => exact absurd hbytes utf8EncodeChar_ne_nil
  | cons b bs =>
    rw [hbytes] at hfirst hlength
    rw [List.cons_append] at hfirst ⊢
    rw [lossyChars, hfirst]
    show c :: lossyChars (c.utf8Size - 1) (bs ++ rest) = _
    rw [← hlength, List.length_cons, Nat.add_sub_cancel, lossyChars_append]

/-- **Lossy reading loses nothing of a text.** -/
theorem fromUtf8Lossy_utf8 (s : String) : fromUtf8Lossy s.utf8 = s := by
  have hchars : ∀ cs : List Char, lossyChars 0 (String.ofList cs).utf8 = cs := by
    intro cs
    induction cs with
    | nil => rfl
    | cons c cs ih => rw [utf8_ofList_cons, lossyChars_utf8EncodeChar_append, ih]
  rw [fromUtf8Lossy, ← String.ofList_toList (s := s), hchars]

-- a character of three bytes that breaks off, one that is complete, and a byte that starts none
example : lossyChars 0 [0xE2, 0x82, 0x41, 0xF0, 0x9F, 0x98, 0x80, 0xFF] =
    [Char.ofNat 0xFFFD, 'A', Char.ofNat 0x1F600, Char.ofNat 0xFFFD] := by
  decide +kernel

/-! ### Characters of text -/

/-- No character but NUL has a zero byte. -/
theorem zero_notMem_utf8EncodeChar {c : Char} (h : c.toNat ≠ 0) : 0 ∉ utf8EncodeChar c := by
  have hbyte : ∀ n : ℕ, 0 < n % 256 → (0 : UInt8) ≠ UInt8.ofNat n := by
    intro n hn heq
    have htoNat := congrArg UInt8.toNat heq
    rw [UInt8.toNat_ofNat'] at htoNat
    exact hn.ne htoNat
  have hval : 0 < c.val.toNat := Nat.pos_of_ne_zero h
  simp only [utf8EncodeChar]
  split
  · simp only [List.mem_cons, List.not_mem_nil, or_false]
    exact hbyte _ (by omega)
  · split
    · simp only [List.mem_cons, List.not_mem_nil, or_false, not_or]
      exact ⟨hbyte _ (by omega), hbyte _ (by omega)⟩
    · split
      · simp only [List.mem_cons, List.not_mem_nil, or_false, not_or]
        exact ⟨hbyte _ (by omega), hbyte _ (by omega), hbyte _ (by omega)⟩
      · simp only [List.mem_cons, List.not_mem_nil, or_false, not_or]
        exact ⟨hbyte _ (by omega), hbyte _ (by omega), hbyte _ (by omega), hbyte _ (by omega)⟩

theorem zero_notMem_utf8 {cs : List Char} (h : ∀ c ∈ cs, c.toNat ≠ 0) :
    0 ∉ (String.ofList cs).utf8 := by
  induction cs with
  | nil => exact List.not_mem_nil
  | cons c cs ih =>
    obtain ⟨hc, hcs⟩ := List.forall_mem_cons.1 h
    rw [utf8_ofList_cons, List.mem_append, not_or]
    exact ⟨zero_notMem_utf8EncodeChar hc, ih hcs⟩

/-- A text of ASCII characters has one byte for each. -/
theorem length_utf8_of_ascii {cs : List Char} (h : ∀ c ∈ cs, c.utf8Size = 1) :
    (String.ofList cs).utf8.length = cs.length := by
  rw [length_utf8_ofList]
  induction cs with
  | nil => rfl
  | cons c cs ih =>
    obtain ⟨hc, hcs⟩ := List.forall_mem_cons.1 h
    rw [utf8Size_cons, hc, ih hcs, List.length_cons, Nat.add_comm]

end String

/-! ### Texts behind pointers -/

namespace CString

/-- The bytes up to the first NUL. -/
def bytesAt (memory : List UInt8) : Option (List UInt8) :=
  if 0 ∈ memory then some (memory.takeWhile (· ≠ 0)) else none

/-- The text up to the first NUL, read lossily. -/
def textAt (memory : List UInt8) : Option String :=
  (bytesAt memory).map String.fromUtf8Lossy

theorem bytesAt_append_zero {bytes : List UInt8} (h : 0 ∉ bytes) (rest : List UInt8) :
    bytesAt (bytes ++ 0 :: rest) = some bytes := by
  have htake : (bytes ++ 0 :: rest).takeWhile (· ≠ 0) = bytes := by
    rw [List.takeWhile_append_of_pos, List.takeWhile_cons_of_neg (by simp), List.append_nil]
    intro b hb
    exact decide_eq_true fun hzero ↦ h (hzero ▸ hb)
  rw [bytesAt, if_pos (List.mem_append_right _ List.mem_cons_self), htake]

/-- **What is written is read**, if it has no NUL. -/
theorem textAt_utf8 {s : String} (h : 0 ∉ s.utf8) (rest : List UInt8) :
    textAt (s.utf8 ++ 0 :: rest) = some s := by
  rw [textAt, bytesAt_append_zero h, Option.map_some, String.fromUtf8Lossy_utf8]

end CString
