import Whistleblower.Indexer.Envelope

/-!
# The indexer's metadata hash

`Indexer::hash_envelope` feeds SHA-256 the CID, three of the text fields and the two integers, one
after the other. SHA-256 itself is a parameter: everything here is about the bytes it is fed.

The integers have a fixed width, so they can be read off the end. The four texts have no length and
no separator, so only their concatenation can be recovered, and the tags are not fed at all.
`binds_iff` turns this into the exact condition under which equal bytes mean equal envelopes.
-/

namespace Whistleblower.Indexer

/-- The bytes `hash_envelope` feeds the hasher, update by update. -/
def hashEnvelopeInput (cid : String) (metadata : MetadataEnvelope) : List UInt8 :=
  cid.utf8 ++ metadata.title.utf8 ++ metadata.description.utf8 ++ metadata.contentType.utf8 ++
    leBytes 8 metadata.sizeBytes.toNat ++ leBytes 8 metadata.timestamp.toNat

/-- `Indexer::hash_envelope`. -/
def hashEnvelope (sha256 : List UInt8 → Hash) (cid : String) (metadata : MetadataEnvelope) : Hash :=
  sha256 (hashEnvelopeInput cid metadata)

/-- The texts fed, as one. -/
def fedText (cid : String) (metadata : MetadataEnvelope) : String :=
  cid ++ metadata.title ++ metadata.description ++ metadata.contentType

variable {cid₁ cid₂ : String} {m₁ m₂ : MetadataEnvelope}

theorem hashEnvelopeInput_eq (cid : String) (m : MetadataEnvelope) :
    hashEnvelopeInput cid m =
      (fedText cid m).utf8 ++ (leBytes 8 m.sizeBytes.toNat ++ leBytes 8 m.timestamp.toNat) := by
  rw [hashEnvelopeInput, fedText, String.utf8_append, String.utf8_append, String.utf8_append,
    List.append_assoc]

theorem leBytes_toNat_inj {n m : UInt64} : leBytes 8 n.toNat = leBytes 8 m.toNat ↔ n = m := by
  rw [leBytes_inj n.toNat_lt m.toNat_lt, UInt64.toNat_inj]

/-- **What equal bytes say**: the integers and the concatenation of the texts, nothing more. -/
theorem hashEnvelopeInput_eq_iff :
    hashEnvelopeInput cid₁ m₁ = hashEnvelopeInput cid₂ m₂ ↔
      fedText cid₁ m₁ = fedText cid₂ m₂ ∧ m₁.sizeBytes = m₂.sizeBytes ∧
        m₁.timestamp = m₂.timestamp := by
  have hwidth : (leBytes 8 m₁.sizeBytes.toNat ++ leBytes 8 m₁.timestamp.toNat).length =
      (leBytes 8 m₂.sizeBytes.toNat ++ leBytes 8 m₂.timestamp.toNat).length := by
    simp only [List.length_append, length_leBytes]
  have hsplit : ∀ {a b c d : List UInt8}, a.length = c.length → (a ++ b = c ++ d ↔ a = c ∧ b = d) :=
    fun h ↦ ⟨fun heq ↦ List.append_inj heq h, fun heq ↦ by rw [heq.1, heq.2]⟩
  rw [hashEnvelopeInput_eq, hashEnvelopeInput_eq]
  constructor
  · intro h
    obtain ⟨htext, hints⟩ := List.append_inj' h hwidth
    rw [hsplit (by rw [length_leBytes, length_leBytes]), leBytes_toNat_inj,
      leBytes_toNat_inj] at hints
    exact ⟨String.utf8_inj.1 htext, hints⟩
  · rintro ⟨htext, hsize, htime⟩
    rw [htext, hsize, htime]

/-- The field boundaries fall at the same places. -/
def SameBoundaries (cid₁ : String) (m₁ : MetadataEnvelope) (cid₂ : String)
    (m₂ : MetadataEnvelope) : Prop :=
  cid₁.length = cid₂.length ∧ m₁.title.length = m₂.title.length ∧
    m₁.description.length = m₂.description.length

/-- Where the boundaries agree, the concatenation says every text. -/
theorem fedText_eq_iff (h : SameBoundaries cid₁ m₁ cid₂ m₂) :
    fedText cid₁ m₁ = fedText cid₂ m₂ ↔
      cid₁ = cid₂ ∧ m₁.title = m₂.title ∧ m₁.description = m₂.description ∧
        m₁.contentType = m₂.contentType := by
  obtain ⟨hcid, htitle, hdescription⟩ := h
  rw [← String.length_toList, ← String.length_toList] at hcid htitle hdescription
  refine ⟨fun heq ↦ ?_, fun ⟨h₁, h₂, h₃, h₄⟩ ↦ by rw [fedText, fedText, h₁, h₂, h₃, h₄]⟩
  have hlist := congrArg String.toList heq
  simp only [fedText, String.toList_append, List.append_assoc] at hlist
  obtain ⟨h₁, hlist⟩ := List.append_inj hlist hcid
  obtain ⟨h₂, hlist⟩ := List.append_inj hlist htitle
  obtain ⟨h₃, h₄⟩ := List.append_inj hlist hdescription
  exact ⟨String.toList_inj.1 h₁, String.toList_inj.1 h₂, String.toList_inj.1 h₃,
    String.toList_inj.1 h₄⟩

/-- Two documents that the hash tells apart, unless they are the same. -/
def Binds (cid₁ : String) (m₁ : MetadataEnvelope) (cid₂ : String) (m₂ : MetadataEnvelope) : Prop :=
  hashEnvelopeInput cid₁ m₁ = hashEnvelopeInput cid₂ m₂ → cid₁ = cid₂ ∧ m₁ = m₂

/-- **When the hash binds the envelope.** Two documents are told apart by an integer field, or by
the text of their fields read as one; otherwise they have to agree in their tags and in where one
text field ends and the next begins. -/
theorem binds_iff (cid₁ : String) (m₁ : MetadataEnvelope) (cid₂ : String) (m₂ : MetadataEnvelope) :
    Binds cid₁ m₁ cid₂ m₂ ↔
      m₁.sizeBytes ≠ m₂.sizeBytes ∨ m₁.timestamp ≠ m₂.timestamp ∨
        cid₁ ++ m₁.title ++ m₁.description ++ m₁.contentType ≠
          cid₂ ++ m₂.title ++ m₂.description ++ m₂.contentType ∨
        (SameBoundaries cid₁ m₁ cid₂ m₂ ∧ m₁.tags = m₂.tags) := by
  rw [Binds, hashEnvelopeInput_eq_iff]
  constructor
  · intro h
    by_contra hnot
    simp only [not_or, not_not] at hnot
    obtain ⟨hsize, htime, htext, hrest⟩ := hnot
    obtain ⟨rfl, rfl⟩ := h ⟨htext, hsize, htime⟩
    exact hrest ⟨⟨rfl, rfl, rfl⟩, rfl⟩
  · rintro (hsize | htime | htext | ⟨hboundaries, htags⟩) ⟨htext', hsize', htime'⟩
    · exact absurd hsize' hsize
    · exact absurd htime' htime
    · exact absurd htext' htext
    · -- with the boundaries in the same places, the text determines the four fields
      obtain ⟨h₁, h₂, h₃, h₄⟩ := (fedText_eq_iff hboundaries).1 htext'
      cases m₁
      cases m₂
      simp_all

/-- The envelope of the crate's own tests. -/
def sampleEnvelope : MetadataEnvelope :=
  ⟨"t", "d", "text/plain", 1, 1700000000, []⟩

/-- Tags are not hashed, and moving the end of the title into the description is not noticed. -/
theorem not_binds_sampleEnvelope :
    ¬ Binds "QmDeadBeef" sampleEnvelope "QmDeadBeef"
        { sampleEnvelope with tags := ["leak"] } ∧
      ¬ Binds "QmDeadBeef" sampleEnvelope "QmDeadBeef"
        { sampleEnvelope with title := "", description := "td" } := by
  constructor
  · intro h
    have hsame := (h rfl).2
    exact absurd hsame (by decide)
  · intro h
    have hsame := (h (hashEnvelopeInput_eq_iff.2 ⟨by decide, rfl, rfl⟩)).2
    exact absurd hsame (by decide)

end Whistleblower.Indexer
