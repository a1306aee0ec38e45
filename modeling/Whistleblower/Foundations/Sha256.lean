import Whistleblower.Foundations.Codec

/-!
# SHA-256

The digest, as the standard describes it: the message is padded to whole blocks of 64 bytes, and
each block is mixed into eight words in 64 rounds.
-/

namespace Sha256

/-- The eight words of the chaining value. -/
structure State where
  (a b c d e f g h : UInt32)

def initial : State :=
  ⟨0x6a09e667, 0xbb67ae85, 0x3c6ef372, 0xa54ff53a, 0x510e527f, 0x9b05688c, 0x1f83d9ab, 0x5be0cd19⟩

/-- The round constants. -/
def constants : List UInt32 :=
  [0x428a2f98, 0x71374491, 0xb5c0fbcf, 0xe9b5dba5, 0x3956c25b, 0x59f111f1, 0x923f82a4, 0xab1c5ed5,
    0xd807aa98, 0x12835b01, 0x243185be, 0x550c7dc3, 0x72be5d74, 0x80deb1fe, 0x9bdc06a7, 0xc19bf174,
    0xe49b69c1, 0xefbe4786, 0x0fc19dc6, 0x240ca1cc, 0x2de92c6f, 0x4a7484aa, 0x5cb0a9dc, 0x76f988da,
    0x983e5152, 0xa831c66d, 0xb00327c8, 0xbf597fc7, 0xc6e00bf3, 0xd5a79147, 0x06ca6351, 0x14292967,
    0x27b70a85, 0x2e1b2138, 0x4d2c6dfc, 0x53380d13, 0x650a7354, 0x766a0abb, 0x81c2c92e, 0x92722c85,
    0xa2bfe8a1, 0xa81a664b, 0xc24b8b70, 0xc76c51a3, 0xd192e819, 0xd6990624, 0xf40e3585, 0x106aa070,
    0x19a4c116, 0x1e376c08, 0x2748774c, 0x34b0bcb5, 0x391c0cb3, 0x4ed8aa4a, 0x5b9cca4f, 0x682e6ff3,
    0x748f82ee, 0x78a5636f, 0x84c87814, 0x8cc70208, 0x90befffa, 0xa4506ceb, 0xbef9a3f7, 0xc67178f2]

def rotateRight (x n : UInt32) : UInt32 :=
  (x >>> n) ||| (x <<< (32 - n))

/-- The message schedule, latest word first: `n` more words. -/
def schedule : ℕ → List UInt32 → List UInt32
  | 0, words => words
  | n + 1, words =>
    let w₂ := words.getD 1 0
    let w₁₅ := words.getD 14 0
    let s₀ := rotateRight w₁₅ 7 ^^^ rotateRight w₁₅ 18 ^^^ (w₁₅ >>> 3)
    let s₁ := rotateRight w₂ 17 ^^^ rotateRight w₂ 19 ^^^ (w₂ >>> 10)
    schedule n ((words.getD 15 0 + s₀ + words.getD 6 0 + s₁) :: words)

/-- One round, with its constant and its schedule word. -/
def round (s : State) (kw : UInt32 × UInt32) : State :=
  let s₁ := rotateRight s.e 6 ^^^ rotateRight s.e 11 ^^^ rotateRight s.e 25
  let choice := (s.e &&& s.f) ^^^ ((s.e ^^^ 0xffffffff) &&& s.g)
  let t₁ := s.h + s₁ + choice + kw.1 + kw.2
  let s₀ := rotateRight s.a 2 ^^^ rotateRight s.a 13 ^^^ rotateRight s.a 22
  let majority := (s.a &&& s.b) ^^^ (s.a &&& s.c) ^^^ (s.b &&& s.c)
  ⟨t₁ + (s₀ + majority), s.a, s.b, s.c, s.d + t₁, s.e, s.f, s.g⟩

/-- The big-endian words of a block. -/
def wordsOf : List UInt8 → List UInt32
  | a :: b :: c :: d :: rest =>
    UInt32.ofNat (((a.toNat * 256 + b.toNat) * 256 + c.toNat) * 256 + d.toNat) :: wordsOf rest
  | _ => []

/-- Mix one block of 64 bytes in. -/
def compress (s : State) (block : List UInt8) : State :=
  let t := (constants.zip (schedule 48 (wordsOf block).reverse).reverse).foldl round s
  ⟨s.a + t.a, s.b + t.b, s.c + t.c, s.d + t.d, s.e + t.e, s.f + t.f, s.g + t.g, s.h + t.h⟩

/-- The message with its padding: a one bit, zeros, and the length in bits. -/
def pad (message : List UInt8) : List UInt8 :=
  message ++ 0x80 :: (List.replicate ((119 - message.length % 64) % 64) 0 ++
    (leBytes 8 (8 * message.length)).reverse)

/-- Mix the given number of blocks in. -/
def absorb : ℕ → State → List UInt8 → State
  | 0, s, _ => s
  | n + 1, s, bytes => absorb n (compress s (bytes.take 64)) (bytes.drop 64)

/-- The big-endian bytes of a word. -/
def bytesOf (w : UInt32) : List UInt8 :=
  (leBytes 4 w.toNat).reverse

/-- The digest of a message. -/
def digest (message : List UInt8) : Bytes 32 :=
  let s := absorb ((pad message).length / 64) initial (pad message)
  ⟨[s.a, s.b, s.c, s.d, s.e, s.f, s.g, s.h].flatMap bytesOf, by
    simp [bytesOf]⟩

/-- The digest of the empty message starts with the bytes `e3 b0 c4 42`. -/
example : (digest []).toList.take 4 = [0xe3, 0xb0, 0xc4, 0x42] := by decide +kernel

/-- The digest of `abc` starts with the bytes `ba 78 16 bf`. -/
example : (digest [97, 98, 99]).toList.take 4 = [0xba, 0x78, 0x16, 0xbf] := by decide +kernel

end Sha256
