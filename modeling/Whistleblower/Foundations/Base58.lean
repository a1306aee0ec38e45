import Mathlib.Data.Nat.Digits.Lemmas
import Mathlib.Data.List.TakeWhile
import Mathlib.Data.UInt

/-!
# Base58

Base58 with the usual alphabet, without zero, capital O, capital I and small l. Each leading `1` of
a text stands for a zero byte; the whole text, read as a number, gives the other bytes.

Decoding undoes encoding (`decode_encode`), and encoding undoes decoding (`encode_of_decode`). The
number carries over from one base to the other, and the leading zeros, which a number does not show,
are counted on both sides. The length of a text follows from that of its bytes
(`length_le_of_decode`), since a leading one is worth no more than the zero byte it stands for.
-/

namespace Base58

def alphabet : List Char :=
  "123456789ABCDEFGHJKLMNPQRSTUVWXYZabcdefghijkmnopqrstuvwxyz".toList

/-- The value of a base58 digit. -/
def digit? (c : Char) : Option ℕ :=
  alphabet.idxOf? c

/-- The base-256 digits of a number, most significant first and without leading zeros. -/
def bigEndian (n : ℕ) : List UInt8 :=
  (Nat.digits 256 n).reverse.map UInt8.ofNat

/-- The bytes a base58 text stands for. -/
def decode (text : List Char) : Option (List UInt8) :=
  (text.mapM digit?).map fun digits ↦
    List.replicate (text.takeWhile (· = '1')).length 0 ++
      bigEndian (Nat.ofDigits 58 digits.reverse)

/-- The character of a base58 digit. -/
def digitChar (d : ℕ) : Char :=
  alphabet.getD d '1'

/-- The number a byte string stands for, most significant byte first. -/
def ofBigEndian (bytes : List UInt8) : ℕ :=
  Nat.ofDigits 256 (bytes.reverse.map UInt8.toNat)

/-- The base58 digits of a byte string, most significant first, with one for each leading zero
byte. -/
def digitsOf (bytes : List UInt8) : List ℕ :=
  List.replicate (bytes.takeWhile (· = 0)).length 0 ++ (Nat.digits 58 (ofBigEndian bytes)).reverse

/-- The base58 text of a byte string. -/
def encode (bytes : List UInt8) : List Char :=
  (digitsOf bytes).map digitChar

/-! ### Digits -/

theorem digit?_digitChar {d : ℕ} (h : d < 58) : digit? (digitChar d) = some d := by
  have hall : ∀ d < 58, digit? (digitChar d) = some d := by decide
  exact hall d h

theorem digit?_eq_some {c : Char} {d : ℕ} (h : digit? c = some d) : d < 58 ∧ digitChar d = c := by
  obtain ⟨hlt, hget, -⟩ := List.idxOf?_eq_some_iff.1 h
  refine ⟨hlt, ?_⟩
  rw [digitChar, List.getD_eq_getElem?_getD, List.getElem?_eq_getElem hlt, hget, Option.getD_some]

theorem digitChar_eq_one_iff {d : ℕ} (h : d < 58) : digitChar d = '1' ↔ d = 0 := by
  have hall : ∀ d < 58, digitChar d = '1' ↔ d = 0 := by decide
  exact hall d h

theorem mapM_digit? {ds : List ℕ} (h : ∀ d ∈ ds, d < 58) :
    (ds.map digitChar).mapM digit? = some ds := by
  induction ds with
  | nil => rfl
  | cons d ds ih =>
    rw [List.map_cons, List.mapM_cons, digit?_digitChar (h d List.mem_cons_self),
      ih fun e he ↦ h e (List.mem_cons_of_mem _ he)]
    rfl

theorem mapM_digit?_eq_some {text : List Char} {ds : List ℕ} (h : text.mapM digit? = some ds) :
    ds.map digitChar = text ∧ ∀ d ∈ ds, d < 58 := by
  induction text generalizing ds with
  | nil =>
    obtain rfl := Option.some.inj h
    exact ⟨rfl, fun d hd ↦ absurd hd List.not_mem_nil⟩
  | cons c text ih =>
    rw [List.mapM_cons] at h
    obtain ⟨d, hd, h⟩ := Option.bind_eq_some_iff.1 h
    obtain ⟨rest, hrest, h⟩ := Option.bind_eq_some_iff.1 h
    obtain rfl := Option.some.inj h
    obtain ⟨hlt, rfl⟩ := digit?_eq_some hd
    obtain ⟨rfl, hall⟩ := ih hrest
    exact ⟨rfl, List.forall_mem_cons.2 ⟨hlt, hall⟩⟩

theorem lt_of_mem_digitsOf {bytes : List UInt8} {d : ℕ} (h : d ∈ digitsOf bytes) : d < 58 := by
  rcases List.mem_append.1 h with hzero | hdigit
  · rw [List.eq_of_mem_replicate hzero]
    decide
  · exact Nat.digits_lt_base (by decide) (List.mem_reverse.1 hdigit)

/-- The digits of a number do not start with a zero. -/
theorem head?_reverse_digits (b n : ℕ) : ∀ d ∈ (Nat.digits b n).reverse.head?, d ≠ 0 := by
  intro d hd
  rw [List.head?_reverse] at hd
  obtain ⟨hne, rfl⟩ := List.mem_getLast?_eq_getLast hd
  exact Nat.getLast_digit_ne_zero b (Nat.digits_ne_nil_iff_ne_zero.1 hne)

/-- The elements taken while they are one and the same. -/
theorem takeWhile_eq_replicate {α : Type} [DecidableEq α] (a : α) (l : List α) :
    l.takeWhile (· = a) = List.replicate (l.takeWhile (· = a)).length a :=
  List.eq_replicate_of_mem fun b hb ↦ by simpa using List.mem_takeWhile_imp hb

/-- Leading zeros do not change the number, and the digits of the number are the rest. -/
theorem reverse_digits_ofDigits {b : ℕ} (hb : 1 < b) {ds : List ℕ} (h : ∀ d ∈ ds, d < b) :
    (Nat.digits b (Nat.ofDigits b ds.reverse)).reverse = ds.dropWhile (· = 0) := by
  have hvalue : Nat.ofDigits b ds.reverse = Nat.ofDigits b (ds.dropWhile (· = 0)).reverse := by
    conv_lhs => rw [← List.takeWhile_append_dropWhile (p := (· = 0)) (l := ds)]
    rw [List.reverse_append, takeWhile_eq_replicate, List.reverse_replicate,
      Nat.ofDigits_append_replicate_zero]
  rw [hvalue, Nat.digits_ofDigits b hb, List.reverse_reverse]
  · intro d hd
    exact h d ((List.dropWhile_sublist _).mem (List.mem_reverse.1 hd))
  · intro hne
    rw [List.getLast_reverse]
    exact of_decide_eq_false (List.head_dropWhile_not (· = 0) (List.reverse_ne_nil_iff.1 hne))

/-- A run that ends where the rest does not go on with it is taken whole. -/
theorem takeWhile_replicate_append {α : Type} [DecidableEq α] {a : α} {k : ℕ} {rest : List α}
    (h : ∀ b ∈ rest.head?, b ≠ a) :
    (List.replicate k a ++ rest).takeWhile (· = a) = List.replicate k a := by
  have hrest : rest.takeWhile (· = a) = [] := by
    cases rest with
    | nil => rfl
    | cons b rest => exact List.takeWhile_cons_of_neg (by simpa using h b rfl)
  rw [List.takeWhile_append_of_pos (by simp), hrest, List.append_nil]

/-- The leading ones of a text are the leading zero bytes. -/
theorem length_takeWhile_encode (bytes : List UInt8) :
    ((encode bytes).takeWhile (· = '1')).length = (bytes.takeWhile (· = 0)).length := by
  have hhead : ∀ c ∈ ((Nat.digits 58 (ofBigEndian bytes)).reverse.map digitChar).head?,
      c ≠ '1' := by
    intro c hc
    rw [List.head?_map] at hc
    obtain ⟨d, hd, rfl⟩ := Option.map_eq_some_iff.1 hc
    have hlt : d < 58 :=
      Nat.digits_lt_base (by decide) (List.mem_reverse.1 (List.mem_of_mem_head? hd))
    exact mt (digitChar_eq_one_iff hlt).1 (head?_reverse_digits 58 _ d hd)
  rw [encode, digitsOf, List.map_append, List.map_replicate, show digitChar 0 = '1' from rfl,
    takeWhile_replicate_append hhead, List.length_replicate]

/-- The leading ones of a text are the leading zeros of its digits. -/
theorem takeWhile_map_digitChar {ds : List ℕ} (h : ∀ d ∈ ds, d < 58) :
    ((ds.map digitChar).takeWhile (· = '1')).length = (ds.takeWhile (· = 0)).length := by
  induction ds with
  | nil => rfl
  | cons d ds ih =>
    obtain ⟨hlt, hall⟩ := List.forall_mem_cons.1 h
    rw [List.map_cons, List.takeWhile_cons, List.takeWhile_cons]
    simp only [decide_eq_true_eq, digitChar_eq_one_iff hlt]
    split
    · rw [List.length_cons, List.length_cons, ih hall]
    · rfl

/-! ### Bytes -/

/-- Zero bytes in front do not change the number. -/
theorem ofBigEndian_replicate_append (k : ℕ) (bytes : List UInt8) :
    ofBigEndian (List.replicate k 0 ++ bytes) = ofBigEndian bytes := by
  rw [ofBigEndian, ofBigEndian, List.reverse_append, List.reverse_replicate, List.map_append,
    List.map_replicate, show UInt8.toNat 0 = 0 from rfl, Nat.ofDigits_append_replicate_zero]

/-- Leading zeros do not change the number. -/
theorem ofBigEndian_dropWhile (bytes : List UInt8) :
    ofBigEndian (bytes.dropWhile (· = 0)) = ofBigEndian bytes := by
  conv_rhs => rw [← List.takeWhile_append_dropWhile (p := (· = (0 : UInt8))) (l := bytes)]
  rw [takeWhile_eq_replicate, ofBigEndian_replicate_append]

/-- **The number determines the bytes** behind the leading zeros. -/
theorem bigEndian_ofBigEndian (bytes : List UInt8) :
    bigEndian (ofBigEndian bytes) = bytes.dropWhile (· = 0) := by
  have hlt : ∀ d ∈ bytes.map UInt8.toNat, d < 256 := by
    intro d hd
    obtain ⟨b, -, rfl⟩ := List.mem_map.1 hd
    exact b.toNat_lt
  have hback : UInt8.ofNat ∘ UInt8.toNat = id := funext fun b ↦ UInt8.ofNat_toNat
  have hzero : (fun b ↦ decide (b = (0 : UInt8))) = (fun d ↦ decide (d = 0)) ∘ UInt8.toNat :=
    funext fun b ↦ decide_eq_decide.2 UInt8.toNat_inj.symm
  rw [bigEndian, ofBigEndian, List.map_reverse (l := bytes),
    reverse_digits_ofDigits (by decide) hlt, List.dropWhile_map, List.map_map, hback, List.map_id,
    hzero]

theorem ofBigEndian_bigEndian (n : ℕ) : ofBigEndian (bigEndian n) = n := by
  have hback : ((Nat.digits 256 n).map UInt8.ofNat).map UInt8.toNat = Nat.digits 256 n := by
    rw [List.map_map]
    refine (List.map_congr_left fun d hd ↦ ?_).trans (List.map_id _)
    exact UInt8.toNat_ofNat_of_lt' (Nat.digits_lt_base (by decide) hd)
  rw [ofBigEndian, bigEndian, ← List.map_reverse, List.reverse_reverse, hback, Nat.ofDigits_digits]

/-- The bytes of a number do not start with a zero. -/
theorem head?_bigEndian (n : ℕ) : ∀ b ∈ (bigEndian n).head?, b ≠ 0 := by
  intro b hb
  rw [bigEndian, List.head?_map] at hb
  obtain ⟨d, hd, rfl⟩ := Option.map_eq_some_iff.1 hb
  have hlt : d < 256 :=
    Nat.digits_lt_base (by decide) (List.mem_reverse.1 (List.mem_of_mem_head? hd))
  refine fun hzero ↦ head?_reverse_digits 256 n d hd ?_
  rw [← UInt8.toNat_ofNat_of_lt' hlt, hzero]
  rfl

/-! ### The round trip -/

/-- **Decoding undoes encoding.** -/
theorem decode_encode (bytes : List UInt8) : decode (encode bytes) = some bytes := by
  have hvalue : Nat.ofDigits 58 (digitsOf bytes).reverse = ofBigEndian bytes := by
    rw [digitsOf, List.reverse_append, List.reverse_reverse, List.reverse_replicate,
      Nat.ofDigits_append_replicate_zero, Nat.ofDigits_digits]
  rw [decode, length_takeWhile_encode, encode, mapM_digit? fun _ ↦ lt_of_mem_digitsOf,
    Option.map_some, hvalue, bigEndian_ofBigEndian, ← takeWhile_eq_replicate,
    List.takeWhile_append_dropWhile]

/-- **Encoding undoes decoding**: a byte string has no other text than its encoding. -/
theorem encode_of_decode {text : List Char} {bytes : List UInt8} (h : decode text = some bytes) :
    encode bytes = text := by
  obtain ⟨ds, hds, hbytes⟩ := Option.map_eq_some_iff.1 h
  obtain ⟨rfl, hlt⟩ := mapM_digit?_eq_some hds
  rw [takeWhile_map_digitChar hlt] at hbytes
  have hdigits : digitsOf bytes = ds := by
    rw [digitsOf, ← hbytes, takeWhile_replicate_append (head?_bigEndian _),
      ofBigEndian_replicate_append, ofBigEndian_bigEndian,
      reverse_digits_ofDigits (by decide) hlt, List.length_replicate,
      ← takeWhile_eq_replicate, List.takeWhile_append_dropWhile]
  rw [encode, hdigits]

theorem mem_alphabet_of_decode {text : List Char} {bytes : List UInt8}
    (h : decode text = some bytes) {c : Char} (hc : c ∈ text) : c ∈ alphabet := by
  obtain ⟨ds, hds, -⟩ := Option.map_eq_some_iff.1 h
  obtain ⟨rfl, hlt⟩ := mapM_digit?_eq_some hds
  obtain ⟨d, hd, rfl⟩ := List.mem_map.1 hc
  exact List.isSome_idxOf?.1 (Option.isSome_of_mem (digit?_digitChar (hlt d hd)))

/-- The characters of a text: one for each leading zero byte, and the digits of the number. -/
theorem length_encode (bytes : List UInt8) :
    (encode bytes).length =
      (bytes.takeWhile (· = 0)).length + (Nat.digits 58 (ofBigEndian bytes)).length := by
  rw [encode, List.length_map, digitsOf, List.length_append, List.length_replicate,
    List.length_reverse]

/-- A byte in front adds its multiple of a power of 256. -/
theorem ofBigEndian_cons (b : UInt8) (bytes : List UInt8) :
    ofBigEndian (b :: bytes) = b.toNat * 256 ^ bytes.length + ofBigEndian bytes := by
  rw [ofBigEndian, List.reverse_cons, List.map_append, Nat.ofDigits_append, List.length_map,
    List.length_reverse, List.map_singleton, Nat.ofDigits_singleton, ofBigEndian, Nat.mul_comm,
    Nat.add_comm]

theorem ofBigEndian_lt (bytes : List UInt8) : ofBigEndian bytes < 256 ^ bytes.length := by
  have hlt := Nat.ofDigits_lt_base_pow_length (b := 256) (l := bytes.reverse.map UInt8.toNat)
    (by decide) fun d hd ↦ by
      obtain ⟨b, -, rfl⟩ := List.mem_map.1 hd
      exact b.toNat_lt
  rwa [List.length_map, List.length_reverse] at hlt

/-- **A text is hardly longer than its bytes**, in units of information. -/
theorem pow_length_encode_le (bytes : List UInt8) :
    58 ^ (encode bytes).length ≤ 58 * 256 ^ bytes.length := by
  have hsplit : (bytes.takeWhile (· = 0)).length + (bytes.dropWhile (· = 0)).length =
      bytes.length := by
    rw [← List.length_append, List.takeWhile_append_dropWhile]
  have hnumber : 58 ^ (Nat.digits 58 (ofBigEndian bytes)).length ≤
      58 * 256 ^ (bytes.dropWhile (· = 0)).length := by
    by_cases hzero : ofBigEndian bytes = 0
    · rw [hzero, Nat.digits_zero, List.length_nil, Nat.pow_zero]
      exact Nat.mul_pos (by decide) (Nat.pow_pos (by decide))
    · refine (Nat.base_pow_length_digits_le 58 _ (by decide) hzero).trans ?_
      rw [← ofBigEndian_dropWhile]
      exact Nat.mul_le_mul_left 58 (ofBigEndian_lt _).le
  calc 58 ^ (encode bytes).length
      = 58 ^ (bytes.takeWhile (· = 0)).length *
          58 ^ (Nat.digits 58 (ofBigEndian bytes)).length := by rw [length_encode, Nat.pow_add]
    _ ≤ 256 ^ (bytes.takeWhile (· = 0)).length *
          (58 * 256 ^ (bytes.dropWhile (· = 0)).length) :=
        Nat.mul_le_mul (Nat.pow_le_pow_left (by decide) _) hnumber
    _ = 58 * 256 ^ bytes.length := by rw [Nat.mul_left_comm, ← Nat.pow_add, hsplit]

/-- Bytes that are worth fewer than `k` digits have texts of at most that length. -/
theorem length_le_of_decode {text : List Char} {bytes : List UInt8} (h : decode text = some bytes)
    {n k : ℕ} (hlength : bytes.length = n) (hbound : 256 ^ n < 58 ^ k) : text.length ≤ k := by
  have hpow := pow_length_encode_le bytes
  rw [encode_of_decode h, hlength] at hpow
  have hlt : 58 ^ text.length < 58 ^ (k + 1) := by
    rw [Nat.pow_succ']
    omega
  exact Nat.le_of_lt_succ ((Nat.pow_lt_pow_iff_right (by decide)).1 hlt)

end Base58
