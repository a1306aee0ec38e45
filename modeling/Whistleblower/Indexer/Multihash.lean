import Whistleblower.BatchAnchor.Run
import Whistleblower.Indexer.Anchor

/-!
# Real CIDs

The CIDs of content-addressed storage are base58 texts of SHA-256 multihashes: a byte for the hash
function, a byte for the length of the digest, and the digest. Such a text has 46 characters
(`length_multihashCid`). The registry has room for 46 *bytes*, and `decode_cid` compares the number
of decoded bytes with that. A multihash has 34, so no real CID passes, whatever its digest.
-/

namespace Whistleblower.Indexer

open BatchAnchor

/-- The multihash of a SHA-256 digest. -/
def multihash (digest : Hash) : List UInt8 :=
  0x12 :: 0x20 :: digest.toList

/-- The base58-encoded SHA-256 multihash. -/
def multihashCid (digest : Hash) : String :=
  String.ofList (Base58.encode (multihash digest))

theorem length_multihash (digest : Hash) : (multihash digest).length = 34 := by
  rw [multihash, List.length_cons, List.length_cons, digest.length_toList]

/-- **A real CID has 46 characters.** -/
theorem length_multihashCid (digest : Hash) : (multihashCid digest).length = 46 := by
  have hlt := Base58.ofBigEndian_lt digest.toList
  have hvalue : Base58.ofBigEndian (multihash digest) =
      0x12 * 256 ^ 33 + (0x20 * 256 ^ 32 + Base58.ofBigEndian digest.toList) := by
    rw [multihash, Base58.ofBigEndian_cons, Base58.ofBigEndian_cons, List.length_cons,
      digest.length_toList]
    rfl
  rw [digest.length_toList] at hlt
  -- the number lies between two powers of 58
  have hlow : 45 < (Nat.digits 58 (Base58.ofBigEndian (multihash digest))).length := by
    rw [Nat.lt_digits_length_iff (by decide), hvalue]
    omega
  have hhigh : (Nat.digits 58 (Base58.ofBigEndian (multihash digest))).length ≤ 46 := by
    rw [Nat.digits_length_le_iff (by decide), hvalue]
    omega
  rw [multihashCid, String.length_ofList, Base58.length_encode]
  show 0 + _ = _
  omega

variable (K : Crates)

/-- What `decode_cid` says of a real CID. -/
theorem decodeCid_multihashCid
    (hbs58 : ∀ bytes, K.bs58Decode (String.ofList (Base58.encode bytes)) = .ok bytes)
    (digest : Hash) :
    decodeCid K (multihashCid digest) = .error "CID decoded to 34 bytes, expected 46" := by
  have hlength : (multihash digest).length ≠ CID_BYTES := by
    rw [length_multihash]
    decide
  rw [decodeCid, multihashCid, hbs58]
  show dite _ _ _ = _
  rw [dif_neg hlength, length_multihash]
  rfl

theorem not_decodable_multihashCid
    (hbs58 : ∀ bytes, K.bs58Decode (String.ofList (Base58.encode bytes)) = .ok bytes)
    (digest : Hash) : ¬ Decodable K (multihashCid digest) := by
  rintro ⟨cid, hcid⟩
  rw [decodeCid_multihashCid K hbs58] at hcid
  cases hcid

/-- **A message whose CID cannot be decoded is dropped**: the loop goes on behind it, whatever the
database says of it. -/
theorem gather_of_not_decodable {m : DeliveryMsg} (h : ¬ Decodable K m.payload.cid)
    (messages : List DeliveryMsg) (newCursor : UInt64) (entries : List AnchorEntry) :
    gather K (m :: messages) newCursor entries =
      BatchAnchor.isAnchored m.payload.cid >>= fun _ ↦
        gather K messages (max newCursor m.seq) entries := by
  rw [gather]
  refine congrArg (BatchAnchor.isAnchored m.payload.cid >>= ·) (funext fun anchored ↦ ?_)
  cases hcid : decodeCid K m.payload.cid with
  | ok cid => exact absurd ⟨cid, hcid⟩ h
  | error text => cases anchored <;> rfl

/-- **No real CID fits the registry.** For every digest, `decode_cid` rejects the CID; a message
with it adds nothing to a batch and is passed by; and a batch of the indexer with it in fails. -/
theorem multihashCid_rejected
    (hbs58 : ∀ bytes, K.bs58Decode (String.ofList (Base58.encode bytes)) = .ok bytes)
    (digest : Hash) :
    decodeCid K (multihashCid digest) = .error "CID decoded to 34 bytes, expected 46" ∧
      (∀ m : DeliveryMsg, m.payload.cid = multihashCid digest → ∀ messages newCursor entries,
        gather K (m :: messages) newCursor entries =
          BatchAnchor.isAnchored m.payload.cid >>= fun _ ↦
            gather K messages (max newCursor m.seq) entries) ∧
      ∀ entries hash timestamp, (multihashCid digest, hash) ∈ entries →
        ∃ text, anchorBatch K entries timestamp = bail text := by
  have hnot := not_decodable_multihashCid K hbs58 digest
  refine ⟨decodeCid_multihashCid K hbs58 digest, fun m hm ↦ ?_, fun entries hash timestamp he ↦ ?_⟩
  · exact gather_of_not_decodable K (hm ▸ hnot)
  · exact anchorBatch_of_not_decodable K he hnot timestamp

/-- The CID of the multihash with the digest zero. -/
def zeroCid : String :=
  multihashCid (Bytes.replicate 32 0)

theorem not_decodable_zeroCid : ¬ Decodable sampleCrates zeroCid :=
  not_decodable_multihashCid sampleCrates bs58Decode_encode _

theorem zeroCid_rejected :
    decodeCid sampleCrates zeroCid = .error "CID decoded to 34 bytes, expected 46" ∧
      (∀ m : DeliveryMsg, m.payload.cid = zeroCid → ∀ messages newCursor entries,
        gather sampleCrates (m :: messages) newCursor entries =
          BatchAnchor.isAnchored m.payload.cid >>= fun _ ↦
            gather sampleCrates messages (max newCursor m.seq) entries) ∧
      ∀ entries hash timestamp, (zeroCid, hash) ∈ entries →
        ∃ text, anchorBatch sampleCrates entries timestamp = bail text :=
  multihashCid_rejected sampleCrates bs58Decode_encode _

end Whistleblower.Indexer
