import Whistleblower.Foundations.FirstOccurrence
import Whistleblower.Registry.State

/-!
# The library half of the registry

The functions of `cid-registry/src/lib.rs`: `initialize` (here `initializeAccount`), `anchor_batch`,
the pure transition `apply_anchor` the crate's unit tests exercise, and `query_by_cid`.

`apply_anchor` carries two pieces of state through its loop, the set of seen CIDs and the growing
record list. `applyEntries_of_valid` is the loop's whole meaning: with `seen` the CIDs met so far,
what is appended are the first occurrences of the others (`List.freshBy`). Everything else about
the function is read off `applyAnchor_eq`.
-/

namespace Whistleblower.CidRegistry

/-- `(cid_bytes, metadata_hash, timestamp)`. -/
abbrev Entry := List UInt8 × Hash × UInt64

/-- The record of an entry, if its CID has the right length. -/
def Entry.record? (e : Entry) : Option DocumentRecord :=
  if h : e.1.length = CID_BYTES then some ⟨⟨e.1, h⟩, e.2.1, e.2.2⟩ else none

/-- The records of the entries whose CIDs have the right length, in entry order. -/
def recordsOf (entries : List Entry) : List DocumentRecord :=
  entries.filterMap Entry.record?

/-- Every CID in the batch has the right length. -/
def ValidCids (cids : List (List UInt8)) : Prop :=
  ∀ c ∈ cids, c.length = CID_BYTES

instance (cids : List (List UInt8)) : Decidable (ValidCids cids) :=
  inferInstanceAs (Decidable (∀ c ∈ cids, c.length = CID_BYTES))

def errBatchTooLarge : SpelError :=
  .custom ERR_BATCH_TOO_LARGE "batch exceeds 50-CID limit"

def errInvalidCid : SpelError :=
  .custom ERR_INVALID_CID "CID must be 46 bytes"

@[simp] theorem recordsOf_nil : recordsOf [] = [] := rfl

theorem recordsOf_append (es fs : List Entry) :
    recordsOf (es ++ fs) = recordsOf es ++ recordsOf fs :=
  List.filterMap_append

theorem recordsOf_cons_of_valid {c : List UInt8} (h : c.length = CID_BYTES) (m : Hash)
    (t : UInt64) (es : List Entry) :
    recordsOf ((c, m, t) :: es) = ⟨⟨c, h⟩, m, t⟩ :: recordsOf es :=
  List.filterMap_cons_some (by rw [Entry.record?, dif_pos h])

/-- A batch of valid CIDs loses no entry on the way to records. -/
theorem mem_cids_recordsOf {entries : List Entry} {c : CidBytes} :
    c ∈ (recordsOf entries).map DocumentRecord.cid ↔ c.toList ∈ entries.map Prod.fst := by
  simp only [recordsOf, List.mem_map, List.mem_filterMap]
  constructor
  · rintro ⟨r, ⟨e, he, hr⟩, rfl⟩
    refine ⟨e, he, ?_⟩
    rw [Entry.record?] at hr
    split at hr
    · rw [← Option.some.inj hr]
    · cases hr
  · rintro ⟨e, he, hc⟩
    -- a CID of the registry has the right length, so its entry becomes a record
    have hlen : e.1.length = CID_BYTES := by rw [hc, c.length_toList]
    refine ⟨⟨c, e.2.1, e.2.2⟩, ⟨e, he, ?_⟩, rfl⟩
    rw [Entry.record?, dif_pos hlen]
    exact congrArg some (congrArg (DocumentRecord.mk · e.2.1 e.2.2) (Bytes.ext hc))

/-! ### The transition -/

/-- The `for` loop of `apply_anchor`: the set of seen CIDs and the record list grow together. -/
def applyEntries : List Entry → Finset CidBytes → List DocumentRecord →
    Outcome SpelError (List DocumentRecord)
  | [], _, records => .ok records
  | (cidBytes, metadataHash, anchorTimestamp) :: entries, seen, records =>
    if h : cidBytes.length = CID_BYTES then
      if ⟨cidBytes, h⟩ ∈ seen then
        applyEntries entries seen records
      else
        applyEntries entries (insert ⟨cidBytes, h⟩ seen)
          (records ++ [⟨⟨cidBytes, h⟩, metadataHash, anchorTimestamp⟩])
    else .err errInvalidCid

/-- `apply_anchor`. -/
def applyAnchor (state : RegistryState) (entries : List Entry) :
    Outcome SpelError RegistryState :=
  if entries.length > MAX_BATCH_SIZE then .err errBatchTooLarge
  else do
    let records ← applyEntries entries state.cids.toFinset state.records
    return ⟨records⟩

/-- **The loop appends first occurrences.** -/
theorem applyEntries_of_valid {entries : List Entry} (h : ValidCids (entries.map Prod.fst))
    (seen : Finset CidBytes) (records : List DocumentRecord) :
    applyEntries entries seen records =
      .ok (records ++ (recordsOf entries).freshBy DocumentRecord.cid seen) := by
  induction entries generalizing seen records with
  | nil => simp [applyEntries]
  | cons e entries ih =>
    obtain ⟨c, m, t⟩ := e
    have hc : c.length = CID_BYTES := h c List.mem_cons_self
    have hrest : ValidCids (entries.map Prod.fst) := fun c' hc' ↦ h c' (List.mem_cons_of_mem _ hc')
    rw [applyEntries, dif_pos hc, recordsOf_cons_of_valid hc]
    by_cases hseen : (⟨c, hc⟩ : CidBytes) ∈ seen
    · rw [if_pos hseen, List.freshBy_cons_of_mem hseen, ih hrest]
    · rw [if_neg hseen, List.freshBy_cons_of_notMem hseen, ih hrest, List.append_assoc,
        List.singleton_append]

/-- One CID of the wrong length, anywhere, fails the batch. -/
theorem applyEntries_of_not_valid {entries : List Entry}
    (h : ¬ ValidCids (entries.map Prod.fst)) (seen : Finset CidBytes)
    (records : List DocumentRecord) :
    applyEntries entries seen records = .err errInvalidCid := by
  induction entries generalizing seen records with
  | nil => exact absurd (fun c hc ↦ absurd hc List.not_mem_nil) h
  | cons e entries ih =>
    obtain ⟨c, m, t⟩ := e
    by_cases hc : c.length = CID_BYTES
    · have hrest : ¬ ValidCids (entries.map Prod.fst) := fun hrest ↦ h fun c' hc' ↦ by
        rcases List.mem_cons.1 hc' with rfl | hc'
        · exact hc
        · exact hrest c' hc'
      rw [applyEntries, dif_pos hc]
      split <;> exact ih hrest _ _
    · rw [applyEntries, dif_neg hc]

/-- **The meaning of `apply_anchor`**, branch by branch. -/
theorem applyAnchor_eq (state : RegistryState) (entries : List Entry) :
    applyAnchor state entries =
      if entries.length > MAX_BATCH_SIZE then .err errBatchTooLarge
      else if ValidCids (entries.map Prod.fst) then
        .ok ⟨state.records ++
          (recordsOf entries).freshBy DocumentRecord.cid state.cids.toFinset⟩
      else .err errInvalidCid := by
  rw [applyAnchor]
  split
  · rfl
  · split
    · next h => rw [applyEntries_of_valid h]; rfl
    · next h => rw [applyEntries_of_not_valid h]; rfl

/-- What a successful call does, guards included. -/
theorem applyAnchor_eq_ok {state state' : RegistryState} {entries : List Entry} :
    applyAnchor state entries = .ok state' ↔
      entries.length ≤ MAX_BATCH_SIZE ∧ ValidCids (entries.map Prod.fst) ∧
        state' = ⟨state.records ++
          (recordsOf entries).freshBy DocumentRecord.cid state.cids.toFinset⟩ := by
  rw [applyAnchor_eq]
  split
  · simp only [reduceCtorEq, false_iff]
    omega
  · split
    · next hlen hvalid =>
      rw [Outcome.ok.injEq, eq_comm]
      exact ⟨fun h ↦ ⟨by omega, hvalid, h⟩, fun h ↦ h.2.2⟩
    · next hvalid => simp [hvalid]

/-! ### The account instructions -/

variable {P : Platform}

/-- `initialize` of the library: asserts that the account is uninitialised. -/
def initializeAccount (registryAccount : Account P) : Outcome SpelError (Account P) :=
  if registryAccount = Account.default P then
    match (Account.store ⟨[]⟩ : Outcome SpelError (Account P)) with
    | .ok account => .ok account
    | _ => .panic
  else .panic

/-- `anchor_batch` of the library: account data that does not decode is an abort (`expect`). -/
def anchorBatch (registryAccount : Account P) (entries : List Entry) :
    Outcome SpelError (Account P) :=
  match registryAccount.state with
  | none => .panic
  | some state => do
    let state ← applyAnchor state entries
    Account.store state

/-- `query_by_cid`: the first record with that CID. -/
def queryByCid (registryAccount : Account P) (cid : CidBytes) :
    Outcome SpelError (Option DocumentRecord) :=
  match registryAccount.state with
  | none => .panic
  | some state => .ok (state.records.find? fun r ↦ r.cid = cid)

theorem queryByCid_of_state {account : Account P} {state : RegistryState}
    (h : account.state = some state) (cid : CidBytes) :
    queryByCid account cid = .ok (state.records.find? fun r ↦ r.cid = cid) := by
  rw [queryByCid, h]

end Whistleblower.CidRegistry
