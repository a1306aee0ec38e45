import Whistleblower.Foundations.Base58
import Whistleblower.Foundations.Json.Reader
import Whistleblower.Foundations.Sha256
import Whistleblower.Registry.State

/-!
# CIDs

`decode_cid` of `document-indexer/src/lib.rs`, the gate between CID strings and the 46-byte keys of
the registry, and the functions of other crates that the code under study calls.

Those are not part of the repository, so they are parameters (`Crates`). All that is ever assumed of
them is what the JSON reader carries as its law; what the base58 decoder accepts and what the digest
is are left open.
-/

namespace Whistleblower

/-- The functions of other crates. -/
structure Crates where
  /-- `serde_json::from_str` into a generic value. -/
  json : Json.Reader
  /-- Its recursion limit. -/
  json_maxDepth : json.maxDepth = 127
  /-- `bs58::decode(..).into_vec()`, with the text of its error. -/
  bs58Decode : String → Except String (List UInt8)
  /-- SHA-256 of a whole input. -/
  sha256 : List UInt8 → Hash

variable (K : Crates)

/-- `decode_cid`: decode a base58-encoded CID string into the 46-byte array of the registry. -/
def decodeCid (cidStr : String) : Except String CidBytes :=
  (K.bs58Decode cidStr).bind fun bytes ↦
    if h : bytes.length = CID_BYTES then .ok ⟨bytes, h⟩
    else .error s!"CID decoded to {bytes.length} bytes, expected {CID_BYTES}"

/-- `decode_cid` accepts the string. -/
def Decodable (cidStr : String) : Prop :=
  ∃ cid, decodeCid K cidStr = .ok cid

/-- **What is accepted**: the texts that decode to the key. -/
theorem decodeCid_eq_ok {cidStr : String} {cid : CidBytes} :
    decodeCid K cidStr = .ok cid ↔ K.bs58Decode cidStr = .ok cid.toList := by
  rw [decodeCid]
  cases K.bs58Decode cidStr with
  | error text =>
    show (Except.error text : Except String CidBytes) = .ok cid ↔ _
    simp only [reduceCtorEq]
  | ok bytes =>
    show (if h : bytes.length = CID_BYTES then _ else _ : Except String CidBytes) = _ ↔ _
    split
    · next h =>
      rw [Except.ok.injEq, Except.ok.injEq]
      exact ⟨congrArg Bytes.toList, fun hbytes ↦ Bytes.ext hbytes⟩
    · next h =>
      simp only [reduceCtorEq, false_iff, Except.ok.injEq]
      rintro rfl
      exact h cid.length_toList

/-- The crates, for concrete runs. -/
def sampleCrates : Crates where
  json := Json.reader
  json_maxDepth := rfl
  bs58Decode s := match Base58.decode s.toList with
    | some bytes => .ok bytes
    | none => .error "provided string contained invalid character"
  sha256 := Sha256.digest

/-- The sample decoder decodes what has been encoded. -/
theorem bs58Decode_encode (bytes : List UInt8) :
    sampleCrates.bs58Decode (String.ofList (Base58.encode bytes)) = .ok bytes := by
  show (match Base58.decode (String.ofList (Base58.encode bytes)).toList with
    | some bytes => Except.ok bytes
    | none => .error "provided string contained invalid character") = _
  rw [String.toList_ofList, Base58.decode_encode]

/-- What the sample decoder decodes is base58. -/
theorem decode_of_bs58Decode {text : String} {bytes : List UInt8}
    (h : sampleCrates.bs58Decode text = .ok bytes) : Base58.decode text.toList = some bytes := by
  have hdecode : (match Base58.decode text.toList with
    | some bytes => Except.ok bytes
    | none => .error "provided string contained invalid character") = .ok bytes := h
  cases htext : Base58.decode text.toList with
  | none =>
    rw [htext] at hdecode
    cases hdecode
  | some bytes' =>
    rw [htext] at hdecode
    exact congrArg some (Except.ok.inj hdecode)

/-- The base58 text of a registry key. -/
def cidOf (cid : CidBytes) : String :=
  String.ofList (Base58.encode cid.toList)

theorem decodeCid_cidOf (cid : CidBytes) : decodeCid sampleCrates (cidOf cid) = .ok cid :=
  (decodeCid_eq_ok sampleCrates).2 (bs58Decode_encode _)

/-- Different keys have different texts. -/
theorem cidOf_inj {cid cid' : CidBytes} : cidOf cid = cidOf cid' ↔ cid = cid' := by
  refine ⟨fun h ↦ ?_, congrArg cidOf⟩
  have hdecode := decodeCid_cidOf cid
  rw [h, decodeCid_cidOf] at hdecode
  exact (Except.ok.inj hdecode).symm

/-- The base58 text of 46 zero bytes. -/
def sampleCid : String :=
  String.ofList (List.replicate CID_BYTES '1')

theorem sampleCid_eq : sampleCid = cidOf (Bytes.replicate CID_BYTES 0) := by
  have hencode : Base58.encode (List.replicate CID_BYTES 0) = List.replicate CID_BYTES '1' := by
    decide +kernel
  rw [sampleCid, cidOf, ← hencode]
  rfl

theorem decodeCid_sampleCid :
    decodeCid sampleCrates sampleCid = .ok (Bytes.replicate CID_BYTES 0) := by
  rw [sampleCid_eq, decodeCid_cidOf]

end Whistleblower
