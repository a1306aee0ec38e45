import Whistleblower.Indexer.EnvelopeHash

/-!
# The metadata hash of the batch anchor

`metadata_hash_from_payload` hashes the payload's JSON text. The indexer hashes a concatenation of
fields (`Indexer.hashEnvelopeInput`), and both digests go into the same on-chain field. Whatever the
document, the two byte strings differ: escaping never shortens a text, and the punctuation and keys
of the object alone outweigh the sixteen bytes of the two integers.
-/

namespace Whistleblower.BatchAnchor

open Json

/-- The bytes `metadata_hash_from_payload` feeds the hasher. -/
def metadataHashInput (payload : BroadcastPayload) : List UInt8 :=
  payload.toString.utf8

/-- `metadata_hash_from_payload`. -/
def metadataHashFromPayload (sha256 : List UInt8 → Hash) (payload : BroadcastPayload) : Hash :=
  sha256 (metadataHashInput payload)

/-- The JSON text is longer than the fields and the two integers together. -/
theorem length_hashEnvelopeInput_lt (cid : String) (m : MetadataEnvelope) :
    (Indexer.hashEnvelopeInput cid m).length < (metadataHashInput ⟨cid, m⟩).length := by
  have hcid := utf8Size_le_renderString cid
  have htitle := utf8Size_le_renderString m.title
  have hdescription := utf8Size_le_renderString m.description
  have hcontentType := utf8Size_le_renderString m.contentType
  have hkeys : String.utf8Size (renderString "cid") = 5 ∧
      String.utf8Size (renderString "title") = 7 ∧
      String.utf8Size (renderString "description") = 13 := by decide
  rw [metadataHashInput, BroadcastPayload.toString, String.length_utf8_ofList]
  simp only [Indexer.hashEnvelopeInput, List.length_append, length_leBytes, String.length_utf8,
    BroadcastPayload.toValue, BroadcastPayload.members, MetadataEnvelope.members, render,
    renderMembers, String.utf8Size_cons, String.utf8Size_append, hkeys]
  omega

/-- **The two paths never hash the same bytes**, for any document. -/
theorem hashEnvelopeInput_ne_metadataHashInput (cid : String) (m : MetadataEnvelope) :
    Indexer.hashEnvelopeInput cid m ≠ metadataHashInput ⟨cid, m⟩ :=
  fun h ↦ absurd (congrArg List.length h) (length_hashEnvelopeInput_lt cid m).ne

/-- A document whose two hashes are of different bytes. -/
theorem not_one_hash_sampleEnvelope :
    ¬ ∀ (cid : String) (m : MetadataEnvelope),
      Indexer.hashEnvelopeInput cid m = metadataHashInput ⟨cid, m⟩ := by
  intro h
  have hlength := congrArg List.length (h "QmDeadBeef" Indexer.sampleEnvelope)
  have hlt := length_hashEnvelopeInput_lt "QmDeadBeef" Indexer.sampleEnvelope
  omega

end Whistleblower.BatchAnchor
