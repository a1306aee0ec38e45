import Mathlib.Data.UInt
import Mathlib.Tactic.Ring

/-!
# Byte codecs

A `Codec` is a prefix format: a partial writer together with a reader that takes one value off the
front of a byte string and hands back the rest. Its one law says that reading what was written,
followed by anything, gives the value and exactly what followed. The writer is partial because a
length prefix of fixed width cannot announce arbitrarily long lists.

The combinators build the fixed-width little-endian integers, fixed-size byte arrays, pairs and
length-prefixed lists; each carries the law, so that a format assembled from them has it with no
further proof. `HasWidth` is the second thing worth knowing of a record format: every value is
written, in the same number of bytes. It is what turns the size of a stored list into arithmetic
(`encode_vec_of_hasWidth`). `Canonical` is the third: nothing is read but what is written, so a byte
string that is read in full is the only one with that value (`Canonical.decodeAll_eq_some`).
-/

/-! ### Little-endian digits -/

/-- The `k` low base-256 digits of `n`, least significant first. -/
def leBytes : ℕ → ℕ → List UInt8
  | 0, _ => []
  | k + 1, n => UInt8.ofNat n :: leBytes k (n / 256)

/-- The number whose base-256 digits, least significant first, are the given bytes. -/
def ofLeBytes : List UInt8 → ℕ
  | [] => 0
  | b :: bs => b.toNat + 256 * ofLeBytes bs

@[simp] theorem length_leBytes (k n : ℕ) : (leBytes k n).length = k := by
  induction k generalizing n with
  | zero => rfl
  | succ k ih => rw [leBytes, List.length_cons, ih]

theorem ofLeBytes_leBytes (k n : ℕ) (h : n < 256 ^ k) : ofLeBytes (leBytes k n) = n := by
  induction k generalizing n with
  | zero =>
    rw [pow_zero] at h
    rw [leBytes, ofLeBytes]
    omega
  | succ k ih =>
    have hdiv : n / 256 < 256 ^ k := by
      rw [pow_succ] at h
      omega
    rw [leBytes, ofLeBytes, ih _ hdiv, UInt8.toNat_ofNat']
    omega

/-- Within their range, numbers with the same digits are the same. -/
theorem leBytes_inj {k n m : ℕ} (hn : n < 256 ^ k) (hm : m < 256 ^ k) :
    leBytes k n = leBytes k m ↔ n = m := by
  refine ⟨fun h ↦ ?_, fun h ↦ h ▸ rfl⟩
  rw [← ofLeBytes_leBytes k n hn, h, ofLeBytes_leBytes k m hm]

/-! ### Fixed-size byte arrays -/

/-- A byte array of fixed size `n`. -/
@[ext] structure Bytes (n : ℕ) where
  toList : List UInt8
  length_toList : toList.length = n
  deriving DecidableEq

namespace Bytes

variable {n : ℕ}

/-- Byte arrays are compared by their bytes. -/
theorem toList_inj {v w : Bytes n} : v.toList = w.toList ↔ v = w :=
  Bytes.ext_iff.symm

/-- A byte string as an array, if its length is the array's. -/
def ofList? (n : ℕ) (bs : List UInt8) : Option (Bytes n) :=
  if h : bs.length = n then some ⟨bs, h⟩ else none

theorem ofList?_eq_some {bs : List UInt8} {v : Bytes n} :
    ofList? n bs = some v ↔ v.toList = bs := by
  rw [ofList?]
  split
  · rw [Option.some.injEq, Bytes.ext_iff, eq_comm]
  · next h =>
    simp only [reduceCtorEq, false_iff]
    exact fun heq ↦ h (heq ▸ v.length_toList)

/-- The array of `n` copies of one byte. -/
def replicate (n : ℕ) (b : UInt8) : Bytes n :=
  ⟨List.replicate n b, List.length_replicate⟩

end Bytes

/-- The first `n` bytes of a byte string, as a fixed-size array, and the rest. -/
def takeBytes (n : ℕ) (bs : List UInt8) : Option (Bytes n × List UInt8) :=
  if h : n ≤ bs.length then
    some (⟨bs.take n, by rw [List.length_take]; omega⟩, bs.drop n)
  else none

theorem takeBytes_append {n : ℕ} {bs : List UInt8} (h : bs.length = n) (rest : List UInt8) :
    takeBytes n (bs ++ rest) = some (⟨bs, h⟩, rest) := by
  subst h
  have hle : bs.length ≤ (bs ++ rest).length := by
    rw [List.length_append]
    omega
  rw [takeBytes, dif_pos hle]
  simp

/-! ### Codecs -/

/-- A prefix byte format: a partial writer and a reader that undoes it in front of any suffix. -/
structure Codec (α : Type*) where
  /-- The bytes of a value, where it can be written. -/
  encode : α → Option (List UInt8)
  /-- Read one value from the front and return the unread rest. -/
  decode : List UInt8 → Option (α × List UInt8)
  /-- Reading undoes writing, in front of any suffix. -/
  decode_encode : ∀ {a bs}, encode a = some bs → ∀ rest, decode (bs ++ rest) = some (a, rest)

namespace Codec

variable {α β : Type*}

/-- Read a value that fills the whole input. -/
def decodeAll (c : Codec α) (bs : List UInt8) : Option α :=
  match c.decode bs with
  | some (a, []) => some a
  | _ => none

/-- **Round trip**: what was written is read back. -/
theorem decodeAll_encode (c : Codec α) {a : α} {bs : List UInt8} (h : c.encode a = some bs) :
    c.decodeAll bs = some a := by
  have := c.decode_encode h []
  rw [List.append_nil] at this
  rw [decodeAll, this]

/-- Every value is written, in exactly `w` bytes. -/
def HasWidth (c : Codec α) (w : ℕ) : Prop :=
  ∀ a, ∃ bs, c.encode a = some bs ∧ bs.length = w

/-- Fixed-size byte arrays are written as they are. -/
def bytes (n : ℕ) : Codec (Bytes n) where
  encode v := some v.toList
  decode := takeBytes n
  decode_encode := by
    intro v bs h rest
    obtain rfl := Option.some.inj h
    exact takeBytes_append v.length_toList rest

theorem bytes_hasWidth (n : ℕ) : (bytes n).HasWidth n :=
  fun v ↦ ⟨v.toList, rfl, v.length_toList⟩

/-- Unsigned 64-bit integers, little-endian. -/
def u64 : Codec UInt64 where
  encode n := some (leBytes 8 n.toNat)
  decode bs := (takeBytes 8 bs).map fun p ↦ (UInt64.ofNat (ofLeBytes p.1.toList), p.2)
  decode_encode := by
    intro n bs h rest
    obtain rfl := Option.some.inj h
    have hlt : n.toNat < 256 ^ 8 := n.toNat_lt
    rw [takeBytes_append (length_leBytes 8 _), Option.map_some,
      ofLeBytes_leBytes 8 n.toNat hlt, UInt64.ofNat_toNat]

theorem u64_hasWidth : u64.HasWidth 8 :=
  fun n ↦ ⟨leBytes 8 n.toNat, rfl, length_leBytes 8 n.toNat⟩

/-- Two values, one after the other. -/
def pair (c : Codec α) (d : Codec β) : Codec (α × β) where
  encode p := (c.encode p.1).bind fun bs ↦ (d.encode p.2).map (bs ++ ·)
  decode bs := (c.decode bs).bind fun p ↦ (d.decode p.2).map fun q ↦ ((p.1, q.1), q.2)
  decode_encode := by
    rintro ⟨a, b⟩ bs h rest
    obtain ⟨as, ha, h⟩ := Option.bind_eq_some_iff.1 h
    obtain ⟨ds, hd, rfl⟩ := Option.map_eq_some_iff.1 h
    simp only [List.append_assoc, c.decode_encode ha, d.decode_encode hd, Option.bind_some,
      Option.map_some]

theorem pair_hasWidth {c : Codec α} {d : Codec β} {w v : ℕ} (hc : c.HasWidth w)
    (hd : d.HasWidth v) : (pair c d).HasWidth (w + v) := by
  rintro ⟨a, b⟩
  obtain ⟨as, ha, hwa⟩ := hc a
  obtain ⟨bs, hb, hwb⟩ := hd b
  exact ⟨as ++ bs, by simp [pair, ha, hb], by rw [List.length_append, hwa, hwb]⟩

/-- Store a type through another one it is recovered from. -/
def map (c : Codec α) (f : β → α) (g : α → β) (hgf : ∀ b, g (f b) = b) : Codec β where
  encode b := c.encode (f b)
  decode bs := (c.decode bs).map fun p ↦ (g p.1, p.2)
  decode_encode := by
    intro b bs h rest
    rw [c.decode_encode h, Option.map_some, hgf]

theorem map_hasWidth {c : Codec α} {w : ℕ} (hc : c.HasWidth w) (f : β → α) (g : α → β)
    (hgf : ∀ b, g (f b) = b) : (c.map f g hgf).HasWidth w :=
  fun b ↦ hc (f b)

/-! ### Length-prefixed lists -/

/-- The elements of a list, one after the other. -/
def encodeList (c : Codec α) : List α → Option (List UInt8)
  | [] => some []
  | a :: l => (c.encode a).bind fun bs ↦ (c.encodeList l).map (bs ++ ·)

/-- Read a given number of elements. -/
def decodeList (c : Codec α) : ℕ → List UInt8 → Option (List α × List UInt8)
  | 0, bs => some ([], bs)
  | n + 1, bs => (c.decode bs).bind fun p ↦
      (c.decodeList n p.2).map fun q ↦ (p.1 :: q.1, q.2)

theorem decodeList_encodeList (c : Codec α) {l : List α} {bs : List UInt8}
    (h : c.encodeList l = some bs) (rest : List UInt8) :
    c.decodeList l.length (bs ++ rest) = some (l, rest) := by
  induction l generalizing bs with
  | nil =>
    obtain rfl := Option.some.inj h
    rfl
  | cons a l ih =>
    obtain ⟨as, ha, h⟩ := Option.bind_eq_some_iff.1 h
    obtain ⟨ls, hl, rfl⟩ := Option.map_eq_some_iff.1 h
    simp only [List.length_cons, decodeList, List.append_assoc, c.decode_encode ha, ih hl,
      Option.bind_some, Option.map_some]

theorem encodeList_of_hasWidth {c : Codec α} {w : ℕ} (hc : c.HasWidth w) (l : List α) :
    ∃ bs, c.encodeList l = some bs ∧ bs.length = w * l.length := by
  induction l with
  | nil => exact ⟨[], rfl, by simp⟩
  | cons a l ih =>
    obtain ⟨as, ha, hwa⟩ := hc a
    obtain ⟨ls, hl, hwl⟩ := ih
    refine ⟨as ++ ls, by simp [encodeList, ha, hl], ?_⟩
    rw [List.length_append, hwa, hwl, List.length_cons]
    ring

/-- A list behind its length as a 32-bit little-endian integer. A longer list is not written. -/
def vec (c : Codec α) : Codec (List α) where
  encode l := if l.length < 2 ^ 32 then (c.encodeList l).map (leBytes 4 l.length ++ ·) else none
  decode bs := (takeBytes 4 bs).bind fun p ↦ c.decodeList (ofLeBytes p.1.toList) p.2
  decode_encode := by
    intro l bs h rest
    by_cases hlen : l.length < 2 ^ 32
    · rw [if_pos hlen] at h
      obtain ⟨ls, hl, rfl⟩ := Option.map_eq_some_iff.1 h
      rw [List.append_assoc, takeBytes_append (length_leBytes 4 _), Option.bind_some,
        ofLeBytes_leBytes 4 l.length hlen]
      exact c.decodeList_encodeList hl rest
    · rw [if_neg hlen] at h
      cases h

/-- **The size of a stored list**: a four-byte count and one fixed width for each element. -/
theorem encode_vec_of_hasWidth {c : Codec α} {w : ℕ} (hc : c.HasWidth w) {l : List α}
    (hl : l.length < 2 ^ 32) :
    ∃ bs, c.vec.encode l = some bs ∧ bs.length = 4 + w * l.length := by
  obtain ⟨bs, hbs, hlen⟩ := encodeList_of_hasWidth hc l
  refine ⟨leBytes 4 l.length ++ bs, by rw [vec]; simp only [if_pos hl, hbs, Option.map_some], ?_⟩
  rw [List.length_append, length_leBytes, hlen]

/-- A list with no 32-bit count is not written. -/
theorem encode_vec_eq_none {c : Codec α} {l : List α} (hl : ¬ l.length < 2 ^ 32) :
    c.vec.encode l = none := by
  rw [vec]
  exact if_neg hl

end Codec

/-! ### Canonical formats -/

theorem ofLeBytes_lt (bs : List UInt8) : ofLeBytes bs < 256 ^ bs.length := by
  induction bs with
  | nil => exact Nat.zero_lt_one
  | cons b bs ih =>
    have hb := b.toNat_lt
    rw [ofLeBytes, List.length_cons, pow_succ]
    omega

/-- Digits are the digits of their number. -/
theorem leBytes_ofLeBytes (bs : List UInt8) : leBytes bs.length (ofLeBytes bs) = bs := by
  induction bs with
  | nil => rfl
  | cons b bs ih =>
    have hb := b.toNat_lt
    have hlow : UInt8.ofNat (b.toNat + 256 * ofLeBytes bs) = b := by
      refine UInt8.toNat_inj.1 ?_
      rw [UInt8.toNat_ofNat']
      omega
    have hdiv : (b.toNat + 256 * ofLeBytes bs) / 256 = ofLeBytes bs := by omega
    rw [List.length_cons, ofLeBytes, leBytes, hlow, hdiv, ih]

theorem takeBytes_eq_some {n : ℕ} {bs rest : List UInt8} {v : Bytes n}
    (h : takeBytes n bs = some (v, rest)) : bs = v.toList ++ rest := by
  rw [takeBytes] at h
  split at h
  · obtain ⟨rfl, rfl⟩ := Prod.mk.inj (Option.some.inj h)
    exact (List.take_append_drop n bs).symm
  · cases h

namespace Codec

variable {α β : Type*}

/-- Whatever is read off the front is what is written of the value. -/
def Canonical (c : Codec α) : Prop :=
  ∀ {bs a rest}, c.decode bs = some (a, rest) → ∃ front, c.encode a = some front ∧
    bs = front ++ rest

/-- **A byte string is read in full exactly if it is what is written.** -/
theorem Canonical.decodeAll_eq_some {c : Codec α} (hc : c.Canonical) {bs : List UInt8} {a : α} :
    c.decodeAll bs = some a ↔ c.encode a = some bs := by
  refine ⟨fun h ↦ ?_, c.decodeAll_encode⟩
  rw [decodeAll] at h
  split at h
  · next a' hdecode =>
    obtain rfl := Option.some.inj h
    obtain ⟨front, hfront, rfl⟩ := hc hdecode
    rw [List.append_nil]
    exact hfront
  · cases h

theorem bytes_canonical (n : ℕ) : (bytes n).Canonical :=
  fun h ↦ ⟨_, rfl, takeBytes_eq_some h⟩

theorem u64_canonical : u64.Canonical := by
  intro bs n rest h
  obtain ⟨⟨v, rest'⟩, htake, heq⟩ := Option.map_eq_some_iff.1 h
  obtain ⟨rfl, rfl⟩ := Prod.mk.inj heq
  refine ⟨v.toList, ?_, takeBytes_eq_some htake⟩
  have hlt := ofLeBytes_lt v.toList
  have hdigits := leBytes_ofLeBytes v.toList
  rw [v.length_toList] at hlt hdigits
  show some (leBytes 8 (UInt64.ofNat (ofLeBytes v.toList)).toNat) = some v.toList
  rw [UInt64.toNat_ofNat_of_lt' hlt, hdigits]

theorem pair_canonical {c : Codec α} {d : Codec β} (hc : c.Canonical) (hd : d.Canonical) :
    (pair c d).Canonical := by
  rintro bs ⟨a, b⟩ rest h
  obtain ⟨⟨a', middle⟩, ha, h⟩ := Option.bind_eq_some_iff.1 h
  obtain ⟨⟨b', rest'⟩, hb, heq⟩ := Option.map_eq_some_iff.1 h
  obtain ⟨hvalue, rfl⟩ := Prod.mk.inj heq
  obtain ⟨rfl, rfl⟩ := Prod.mk.inj hvalue
  obtain ⟨as, has, rfl⟩ := hc ha
  obtain ⟨ds, hds, hmiddle⟩ := hd hb
  have hmiddle : middle = ds ++ rest' := hmiddle
  exact ⟨as ++ ds, by simp [pair, has, hds], by rw [hmiddle, List.append_assoc]⟩

theorem map_canonical {c : Codec α} (hc : c.Canonical) (f : β → α) (g : α → β)
    (hgf : ∀ b, g (f b) = b) (hfg : ∀ a, f (g a) = a) : (c.map f g hgf).Canonical := by
  intro bs b rest h
  obtain ⟨⟨a, rest'⟩, ha, heq⟩ := Option.map_eq_some_iff.1 h
  obtain ⟨rfl, rfl⟩ := Prod.mk.inj heq
  obtain ⟨front, hfront, rfl⟩ := hc ha
  refine ⟨front, ?_, rfl⟩
  show c.encode (f (g a)) = some front
  rw [hfg, hfront]

/-- As many elements are read as are asked for. -/
theorem decodeList_canonical {c : Codec α} (hc : c.Canonical) {n : ℕ} {bs rest : List UInt8}
    {l : List α} (h : c.decodeList n bs = some (l, rest)) :
    l.length = n ∧ ∃ front, c.encodeList l = some front ∧ bs = front ++ rest := by
  induction n generalizing bs l with
  | zero =>
    obtain ⟨rfl, rfl⟩ := Prod.mk.inj (Option.some.inj h)
    exact ⟨rfl, [], rfl, rfl⟩
  | succ n ih =>
    obtain ⟨⟨a, middle⟩, ha, h⟩ := Option.bind_eq_some_iff.1 h
    obtain ⟨⟨l', rest'⟩, hl, heq⟩ := Option.map_eq_some_iff.1 h
    obtain ⟨rfl, rfl⟩ := Prod.mk.inj heq
    obtain ⟨as, has, rfl⟩ := hc ha
    obtain ⟨hlength, ls, hls, hmiddle⟩ := ih hl
    have hmiddle : middle = ls ++ rest' := hmiddle
    refine ⟨by rw [List.length_cons, hlength], as ++ ls, ?_, by rw [hmiddle, List.append_assoc]⟩
    rw [encodeList, has, Option.bind_some, hls, Option.map_some]

theorem vec_canonical {c : Codec α} (hc : c.Canonical) : c.vec.Canonical := by
  intro bs l rest h
  obtain ⟨⟨count, middle⟩, htake, h⟩ := Option.bind_eq_some_iff.1 h
  obtain ⟨hlength, ls, hls, hmiddle⟩ := decodeList_canonical hc h
  have hmiddle : middle = ls ++ rest := hmiddle
  have hlt := ofLeBytes_lt count.toList
  have hdigits := leBytes_ofLeBytes count.toList
  rw [count.length_toList] at hlt hdigits
  have hlength : l.length = ofLeBytes count.toList := hlength
  refine ⟨count.toList ++ ls, ?_, by rw [takeBytes_eq_some htake, hmiddle, List.append_assoc]⟩
  have hshort : l.length < 2 ^ 32 := hlength.trans_lt hlt
  show (if l.length < 2 ^ 32 then (c.encodeList l).map (leBytes 4 l.length ++ ·) else none) = _
  rw [if_pos hshort, hls, Option.map_some, hlength, hdigits]

/-! ### What can be read -/

theorem decodeAll_map (c : Codec α) (f : β → α) (g : α → β) (hgf : ∀ b, g (f b) = b)
    (bs : List UInt8) : (c.map f g hgf).decodeAll bs = (c.decodeAll bs).map g := by
  have hdecode : (c.map f g hgf).decode bs = (c.decode bs).map fun p ↦ (g p.1, p.2) := rfl
  rw [decodeAll, decodeAll, hdecode]
  rcases c.decode bs with _ | ⟨a, _ | ⟨b, rest⟩⟩
  · rfl
  · rfl
  · rfl

/-- Any `w` bytes are those of a value. -/
def ReadsAny (c : Codec α) (w : ℕ) : Prop :=
  ∀ bs, w ≤ bs.length → ∃ a, c.decode bs = some (a, bs.drop w)

theorem bytes_readsAny (n : ℕ) : (bytes n).ReadsAny n :=
  fun _ h ↦ ⟨_, dif_pos h⟩

theorem u64_readsAny : u64.ReadsAny 8 := by
  intro bs h
  obtain ⟨v, hv⟩ := bytes_readsAny 8 bs h
  have htake : takeBytes 8 bs = some (v, bs.drop 8) := hv
  exact ⟨_, congrArg (Option.map _) htake⟩

theorem pair_readsAny {c : Codec α} {d : Codec β} {w v : ℕ} (hc : c.ReadsAny w)
    (hd : d.ReadsAny v) : (pair c d).ReadsAny (w + v) := by
  intro bs h
  obtain ⟨a, ha⟩ := hc bs (by omega)
  obtain ⟨b, hb⟩ := hd (bs.drop w) (by rw [List.length_drop]; omega)
  rw [List.drop_drop] at hb
  exact ⟨(a, b), by simp [pair, ha, hb]⟩

theorem map_readsAny {c : Codec α} {w : ℕ} (hc : c.ReadsAny w) (f : β → α) (g : α → β)
    (hgf : ∀ b, g (f b) = b) : (c.map f g hgf).ReadsAny w := by
  intro bs h
  obtain ⟨a, ha⟩ := hc bs h
  exact ⟨g a, congrArg (Option.map _) ha⟩

theorem decodeList_of_readsAny {c : Codec α} {w : ℕ} (hc : c.ReadsAny w) (n : ℕ)
    {bs : List UInt8} (h : w * n ≤ bs.length) :
    ∃ l, c.decodeList n bs = some (l, bs.drop (w * n)) := by
  induction n generalizing bs with
  | zero => exact ⟨[], rfl⟩
  | succ n ih =>
    rw [Nat.mul_succ] at h ⊢
    obtain ⟨a, ha⟩ := hc bs (by omega)
    have hrest : w * n ≤ (bs.drop w).length := by
      rw [List.length_drop]
      omega
    obtain ⟨l, hl⟩ := ih hrest
    rw [List.drop_drop, Nat.add_comm] at hl
    exact ⟨a :: l, by rw [decodeList, ha, Option.bind_some, hl, Option.map_some]⟩

/-- **What is read as a list**: as many elements as the count says, and nothing after them. -/
theorem isSome_decodeAll_vec {c : Codec α} {w : ℕ} (hw : c.HasWidth w) (hcanonical : c.Canonical)
    (hreads : c.ReadsAny w) {bs : List UInt8} :
    (c.vec.decodeAll bs).isSome ↔ bs.length = 4 + w * ofLeBytes (bs.take 4) := by
  constructor
  · intro h
    obtain ⟨l, hl⟩ := Option.isSome_iff_exists.1 h
    have hvec : c.vec.Canonical := vec_canonical hcanonical
    have hencode := hvec.decodeAll_eq_some.1 hl
    have hlength : l.length < 2 ^ 32 := by
      by_contra hlong
      rw [encode_vec_eq_none hlong] at hencode
      cases hencode
    obtain ⟨ls, hls, hlen⟩ := encodeList_of_hasWidth hw l
    have hshort : c.vec.encode l = some (leBytes 4 l.length ++ ls) := by
      rw [vec]
      simp only [if_pos hlength, hls, Option.map_some]
    obtain rfl := Option.some.inj (hencode.symm.trans hshort)
    rw [List.take_left' (length_leBytes 4 _), ofLeBytes_leBytes 4 _ hlength, List.length_append,
      length_leBytes, hlen]
  · intro h
    obtain ⟨v, hv⟩ := bytes_readsAny 4 bs (by omega)
    have htake : takeBytes 4 bs = some (v, bs.drop 4) := hv
    have hcount : v.toList = bs.take 4 := by
      have hbs := takeBytes_eq_some htake
      rw [hbs, List.take_left' v.length_toList]
    have hrest : w * ofLeBytes v.toList ≤ (bs.drop 4).length := by
      rw [hcount, List.length_drop]
      omega
    obtain ⟨l, hl⟩ := decodeList_of_readsAny hreads (ofLeBytes v.toList) hrest
    have hend : (bs.drop 4).drop (w * ofLeBytes v.toList) = [] := by
      rw [List.drop_drop, hcount]
      exact List.drop_eq_nil_of_le (by omega)
    rw [hend] at hl
    have hdecode : c.vec.decode bs = some (l, []) := by
      show (takeBytes 4 bs).bind (fun p ↦ c.decodeList (ofLeBytes p.1.toList) p.2) = _
      rw [htake, Option.bind_some, hl]
    rw [decodeAll, hdecode]
    rfl

end Codec
