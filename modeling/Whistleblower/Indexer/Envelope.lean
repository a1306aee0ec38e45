import Whistleblower.Foundations.Json.Printer
import Whistleblower.Foundations.TextBytes
import Whistleblower.Registry.State

/-!
# Envelopes

The two records the crates exchange, `MetadataEnvelope` and `BroadcastPayload` of
`document-indexer/src/lib.rs`, with their derived serialisation. `#[serde(flatten)]` puts the
members of the envelope next to `cid` in one object, in declaration order; reading takes the members
by name, in any order, and ignores the others.

`fromValue_toValue` says that the two directions fit. `fromValue_of_denotes` is the stronger fact
that reading goes by name alone: any object with the payload's members in it, each key once, is read
as the payload.
-/

namespace Whistleblower

open Json

/-- Metadata broadcast over the delivery topic alongside a document CID. -/
structure MetadataEnvelope where
  title : String
  description : String
  contentType : String
  sizeBytes : UInt64
  timestamp : UInt64
  tags : List String
  deriving DecidableEq

/-- Full broadcast payload: the CID plus its metadata envelope. -/
structure BroadcastPayload where
  cid : String
  metadata : MetadataEnvelope
  deriving DecidableEq

namespace MetadataEnvelope

/-- The members the envelope contributes to an object. -/
def members (m : MetadataEnvelope) : List (String × Value) :=
  [("title", .string m.title),
    ("description", .string m.description),
    ("content_type", .string m.contentType),
    ("size_bytes", .number (.posInt m.sizeBytes)),
    ("timestamp", .number (.posInt m.timestamp)),
    ("tags", .array (m.tags.map .string))]

end MetadataEnvelope

namespace BroadcastPayload

/-- The members of the object a payload is written as. -/
def members (p : BroadcastPayload) : List (String × Value) :=
  ("cid", .string p.cid) :: p.metadata.members

/-- The object a payload is written as. -/
def toValue (p : BroadcastPayload) : Value :=
  .object p.members

/-- `serde_json::to_string`. -/
def toString (p : BroadcastPayload) : String :=
  String.ofList (render p.toValue)

/-- `serde_json::from_value`: the members are taken by name, of the right type; others are
ignored. -/
def fromValue (v : Value) : Option BroadcastPayload := do
  let cid ← (v.get "cid").asStr
  let title ← (v.get "title").asStr
  let description ← (v.get "description").asStr
  let contentType ← (v.get "content_type").asStr
  let sizeBytes ← (v.get "size_bytes").asU64
  let timestamp ← (v.get "timestamp").asU64
  let tags ← (v.get "tags").asArray
  let tags ← tags.mapM Value.asStr
  return ⟨cid, ⟨title, description, contentType, sizeBytes, timestamp, tags⟩⟩

/-- The object has every member of the payload, and no key twice. -/
def Denotes (p : BroadcastPayload) (ms : List (String × Value)) : Prop :=
  Value.UniqueKeys ms ∧ ∀ m ∈ p.members, m ∈ ms

theorem denotes_members (p : BroadcastPayload) : p.Denotes p.members := by
  have hkeys : ["cid", "title", "description", "content_type", "size_bytes", "timestamp",
      "tags"].Nodup := by decide
  exact ⟨hkeys, fun _ h ↦ h⟩

theorem mapM_asStr_map_string (tags : List String) :
    (tags.map Value.string).mapM Value.asStr = some tags := by
  induction tags with
  | nil => rfl
  | cons tag tags ih =>
    rw [List.map_cons, List.mapM_cons, ih]
    rfl

/-- **Reading goes by name**: order and further members do not matter. -/
theorem fromValue_of_denotes {p : BroadcastPayload} {ms : List (String × Value)}
    (h : p.Denotes ms) : fromValue (.object ms) = some p := by
  have hget : ∀ m ∈ p.members, (Value.object ms).get m.1 = m.2 :=
    fun m hm ↦ Value.get_of_mem h.1 (h.2 m hm)
  simp only [members, MetadataEnvelope.members, List.forall_mem_cons, List.not_mem_nil,
    false_implies, implies_true, and_true] at hget
  obtain ⟨hcid, htitle, hdescription, hcontentType, hsizeBytes, htimestamp, htags⟩ := hget
  simp only [fromValue, hcid, htitle, hdescription, hcontentType, hsizeBytes, htimestamp, htags,
    Value.asStr, Value.asU64, Value.asArray, mapM_asStr_map_string, Option.bind_eq_bind,
    Option.bind_some, Option.pure_def]

/-- **Serialisation round trip.** -/
theorem fromValue_toValue (p : BroadcastPayload) : fromValue p.toValue = some p :=
  fromValue_of_denotes p.denotes_members

theorem toValue_inj {p q : BroadcastPayload} (h : p.toValue = q.toValue) : p = q := by
  have := p.fromValue_toValue
  rw [h, q.fromValue_toValue] at this
  exact (Option.some.inj this).symm

/-- The members nest one deep and hold no number but unsigned integers. -/
theorem within_of_mem_members {p : BroadcastPayload} {m : String × Value} (hm : m ∈ p.members)
    (finite : List Char → Prop) (d : ℕ) : m.2.Within finite (d + 1) := by
  simp only [members, MetadataEnvelope.members, List.mem_cons, List.not_mem_nil, or_false] at hm
  rcases hm with rfl | rfl | rfl | rfl | rfl | rfl | rfl
  · exact Value.Within.string
  · exact Value.Within.string
  · exact Value.Within.string
  · exact Value.Within.string
  · exact Value.Within.posInt
  · exact Value.Within.posInt
  · refine Value.Within.array fun v hv ↦ ?_
    obtain ⟨tag, -, rfl⟩ := List.mem_map.1 hv
    exact Value.Within.string

theorem within_toValue (p : BroadcastPayload) (finite : List Char → Prop) (d : ℕ) :
    p.toValue.Within finite (d + 2) :=
  Value.Within.object fun _ hm ↦ within_of_mem_members hm finite d

/-- **Different payloads are written differently.** -/
theorem toString_inj {p q : BroadcastPayload} : p.toString = q.toString ↔ p = q := by
  refine ⟨fun h ↦ ?_, fun h ↦ h ▸ rfl⟩
  have hrender : render p.toValue = render q.toValue := String.ofList_injective h
  exact toValue_inj ((render_inj (p.within_toValue _ 0) (q.within_toValue _ 0)).1 hrender)

end BroadcastPayload

end Whistleblower
