import Whistleblower.BatchAnchor.Peers
import Whistleblower.Indexer.Encoders

/-!
# Where the records come from

The registry program takes any hash under any CID. What is on-chain is about documents only because
the anchorers make their batches of messages, each with the hash of its own message. So if nothing
comes into the queues that has not been published, every record is the anchor of something that has
been published. This is a clause of its own in the pact of the runs: that nothing is lost is a
matter of cursors, and that nothing is made up is not.
-/

namespace Whistleblower.BatchAnchor

open CidRegistryProgram

variable {P : Platform} {K : Crates} {Published : BroadcastPayload → Prop} {w : World P}
  {cursor : UInt64} {msgs : List DeliveryMsg} {entries : List AnchorEntry}

/-- The record anchors the payload: it lies under its CID, and holds its hash. -/
structure Anchors (K : Crates) (r : DocumentRecord) (p : BroadcastPayload) : Prop where
  cid : decodeCid K p.cid = .ok r.cid
  metadataHash : r.metadataHash = metadataHashFromPayload K.sha256 p

/-- The queue carries nothing that has not been published. -/
def QueueOf (K : Crates) (Published : BroadcastPayload → Prop) (text : String) : Prop :=
  ∀ msgs, messages K text = some msgs → ∀ m ∈ msgs, Published m.payload

/-- Neither the queue nor the registry is about anything that has not been published. -/
structure Backed (K : Crates) (Published : BroadcastPayload → Prop) (w : World P) : Prop where
  queue : QueueOf K Published w.queue
  registry : ∀ state, w.registry.state = some state →
    ∀ r ∈ state.records, ∃ p, Published p ∧ Anchors K r p

/-- Nobody else writes to the registry, and the delivery appends what has been published. -/
def publishes (K : Crates) (Published : BroadcastPayload → Prop) (w w' : World P) : Prop :=
  ∃ text, Appended K w.queue text ∧ QueueOf K Published text ∧ w' = { w with queue := text }

/-- What a batch adds are anchors of the messages it has been made of. -/
theorem exists_anchors_of_mem_freshIn {kept : List DeliveryMsg} {timestamp : UInt64}
    {state : RegistryState} {r : DocumentRecord}
    (hr : r ∈ (batchOf (kept.filterMap (entryOf K ∅)) timestamp).freshIn state) :
    ∃ m ∈ kept, Anchors K r m.payload := by
  have hrecord : r ∈ (batchOf (kept.filterMap (entryOf K ∅)) timestamp).records :=
    List.mem_of_mem_filter hr
  rw [Indexer.records_batchOf, Indexer.recordsFor] at hrecord
  obtain ⟨e, he, rfl⟩ := List.mem_map.1 hrecord
  obtain ⟨m, hm, hentry⟩ := List.mem_filterMap.1 he
  obtain ⟨-, hcid, hrest⟩ := (entryOf_eq_some K).1 hentry
  exact ⟨m, hm, hcid, congrArg Prod.fst hrest⟩

/-- **A submission keeps the registry backed**: what is collected is in the queue. -/
theorem Backed.submission (hinv : Inv K w) (h : Backed K Published w)
    (hcollected : Collected K cursor msgs entries w) (timestamp : UInt64) :
    Backed K Published { w with registry := execute w.registry (batchOf entries timestamp) } := by
  refine ⟨h.queue, fun state' hstate' r hr ↦ ?_⟩
  obtain ⟨state, hstate⟩ := hinv.registry
  obtain ⟨kept, hsub, rfl, -⟩ := hcollected.kept
  obtain ⟨queue, hqueue, -, hstart⟩ := hcollected.page
  have hafter : (execute w.registry
      (batchOf (kept.filterMap (entryOf K ∅)) timestamp)).state = some state' := hstate'
  rcases execute_cases hstate (batchOf (kept.filterMap (entryOf K ∅)) timestamp) with
    ⟨-, hsame⟩ | ⟨registry', -, hexec, -, -, hrecords⟩
  · rw [hsame] at hafter
    exact h.registry state' hafter r hr
  · rw [hexec, hrecords] at hafter
    obtain rfl := Option.some.inj hafter
    rcases List.mem_append.1 hr with hold | hnew
    · exact h.registry state hstate r hold
    · obtain ⟨m, hm, hanchors⟩ := exists_anchors_of_mem_freshIn hnew
      have hmem : m ∈ queue := List.mem_of_mem_filter (hstart.subset (hsub.subset hm))
      exact ⟨m.payload, h.queue queue hqueue m hmem, hanchors⟩

/-- The clause that is added to the pact of the runs. -/
def backed (K : Crates) (P : Platform) (Published : BroadcastPayload → Prop) : Clause K P where
  others := publishes K Published
  Holds := Backed K Published
  interferes_of_others := by
    rintro w w' ⟨text, happended, -, rfl⟩
    exact Or.inr ⟨text, happended, rfl⟩
  of_others := by
    rintro w w' h ⟨text, -, htext, rfl⟩
    exact ⟨htext, h.registry⟩
  of_db _ h := ⟨h.queue, h.registry⟩
  of_submission hinv h hcollected := h.submission hinv hcollected _
  elsewhere h hv := ⟨hv.queue, h.registry⟩

end Whistleblower.BatchAnchor
