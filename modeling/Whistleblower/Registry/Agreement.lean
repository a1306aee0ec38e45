import Whistleblower.Registry.Program

/-!
# Where the two implementations agree

The registry's transition exists twice: `apply_anchor` in the library, which the unit tests
exercise, and the loop of the deployed program. Both fail in the same cases with the same errors.
On a batch they accept, the library appends the *first occurrence* of every unregistered CID
(`applyAnchor_eq_ok`) and the program appends *every* entry with one (`register_eq_ok`), and these
are the same list exactly when the batch repeats no unregistered CID
(`List.freshBy_eq_filter_iff`).

`Batch.FreshDistinct` states that condition on the arguments of the instruction; the lemma that
connects it with the records the program pushes is `nodup_freshIn_iff`.
-/

namespace Whistleblower.CidRegistryProgram

open CidRegistry

/-- The unregistered CIDs among `entries_cids`, with their repetitions. -/
def Batch.unregisteredIn (b : Batch) (state : RegistryState) : List (List UInt8) :=
  b.entriesCids.filter (· ∉ state.cids.map Bytes.toList)

/-- No CID that is not registered occurs twice among `entries_cids`. -/
def Batch.FreshDistinct (b : Batch) (state : RegistryState) : Prop :=
  (b.unregisteredIn state).Nodup

instance (b : Batch) (state : RegistryState) : Decidable (b.FreshDistinct state) :=
  inferInstanceAs (Decidable (List.Nodup _))

/-- The CIDs the loop pushes are the unregistered ones of the arguments, with their repetitions. -/
theorem map_filter_paired {known : List CidBytes} {ms : List Hash} {ts : List UInt64} {i : ℕ}
    {rest : List (List UInt8)} (hvalid : ValidCids rest)
    (hcovered : Covered known.toFinset ms ts i rest) :
    ((paired ms ts i rest).filter (·.cid ∉ known.toFinset)).map (·.cid.toList) =
      rest.filter (· ∉ known.map Bytes.toList) := by
  induction rest generalizing i with
  | nil => rfl
  | cons c rest ih =>
    have hc : c.length = CID_BYTES := hvalid c List.mem_cons_self
    have hrest : ValidCids rest := fun d hd ↦ hvalid d (List.mem_cons_of_mem _ hd)
    have hknown : c ∈ known.map Bytes.toList ↔ (⟨c, hc⟩ : CidBytes) ∈ known.toFinset := by
      rw [List.mem_toFinset, List.mem_map]
      exact ⟨fun ⟨d, hd, hdc⟩ ↦ (Bytes.ext hdc : d = ⟨c, hc⟩) ▸ hd, fun h ↦ ⟨_, h, rfl⟩⟩
    by_cases hmem : (⟨c, hc⟩ : CidBytes) ∈ known.toFinset
    · rw [filter_paired_cons_of_mem hc hmem, ih hrest hcovered.tail,
        List.filter_cons_of_neg (by simpa using hknown.2 hmem)]
    · obtain ⟨⟨hm, ht⟩, htail⟩ := (covered_cons_of_notMem hc hmem).1 hcovered
      have hnew : c ∉ known.map Bytes.toList := fun h ↦ hmem (hknown.1 h)
      rw [paired_cons hc hm ht, List.filter_cons_of_pos (by simpa using hmem), List.map_cons,
        ih hrest htail, List.filter_cons_of_pos (by simpa using hnew)]

/-- On a batch the program accepts, the pushed records have the unregistered CIDs. -/
theorem map_freshIn {state : RegistryState} {b : Batch} (hvalid : ValidCids b.entriesCids)
    (hcovered : b.CoveredIn state) :
    (b.freshIn state).map (·.cid.toList) = b.unregisteredIn state :=
  map_filter_paired hvalid hcovered

/-- So their CIDs are distinct exactly when the arguments repeat no unregistered CID. -/
theorem nodup_freshIn_iff {state : RegistryState} {b : Batch} (hvalid : ValidCids b.entriesCids)
    (hcovered : b.CoveredIn state) :
    ((b.freshIn state).map DocumentRecord.cid).Nodup ↔ b.FreshDistinct state := by
  have hinj : Function.Injective (Bytes.toList : CidBytes → List UInt8) :=
    fun v w h ↦ Bytes.toList_inj.1 h
  rw [Batch.FreshDistinct, ← map_freshIn hvalid hcovered, ← List.nodup_map_iff hinj, List.map_map]
  rfl

/-! ### Agreement -/

/-- The error code a `SpelError` carries. -/
def errorCode : SpelError → Option UInt32
  | .custom code _ => some code
  | .serializationError _ => none

variable {P : Platform}

/-- Both calls fail with the same error code, or both succeed and the account then holds exactly
the state the library returns. -/
def SameResult (program : Outcome SpelError (Account P))
    (library : Outcome SpelError RegistryState) : Prop :=
  match program, library with
  | .err e, .err e' => errorCode e = errorCode e'
  | .ok registry, .ok state => registry.state = some state
  | _, _ => False

/-- A batch over the size limit fails both with `ERR_BATCH_TOO_LARGE`. -/
theorem sameResult_of_too_large {registry : Account P} {b : Batch} (state : RegistryState)
    (hb : b.EqualLengths) (h : b.entriesCids.length > MAX_BATCH_SIZE) :
    SameResult (anchorBatch registry b) (applyAnchor state b.entries) := by
  rw [anchorBatch, if_pos h, applyAnchor_eq, Batch.length_entries hb, if_pos h]
  rfl

/-- A CID of the wrong length fails both with `ERR_INVALID_CID`, wherever it sits. -/
theorem sameResult_of_invalid {registry : Account P} {state : RegistryState} {b : Batch}
    (hstate : registry.state = some state) (hb : b.EqualLengths)
    (hlen : ¬ b.entriesCids.length > MAX_BATCH_SIZE) (h : ¬ ValidCids b.entriesCids) :
    SameResult (anchorBatch registry b) (applyAnchor state b.entries) := by
  have hprogram : anchorBatch registry b = .err errInvalidCid := by
    rw [anchorBatch, if_neg hlen, hstate, Outcome.ofOption_some, Outcome.ok_bind, register]
    rcases anchorLoop_cases state.cids.toFinset b.entriesMetaHashes b.entriesTimestamps 0
      b.entriesCids state.records with ⟨out, hout⟩ | ⟨herr, -⟩ | ⟨-, hcovered⟩
    · exact absurd (anchorLoop_eq_ok.1 hout).1 h
    · rw [herr]
      rfl
    · exact absurd (hb.coveredIn state) hcovered
  rw [hprogram, applyAnchor_eq, Batch.length_entries hb, if_neg hlen, Batch.map_fst_entries hb,
    if_neg h]
  rfl

/-- On a batch both accept, they agree exactly when first occurrences are all occurrences. -/
theorem sameResult_iff_of_valid {registry : Account P} {state : RegistryState} {b : Batch}
    (hstate : registry.state = some state) (hb : b.EqualLengths)
    (hfits : Account.Fits P (state.records.length + b.entriesCids.length))
    (hlen : ¬ b.entriesCids.length > MAX_BATCH_SIZE) (h : ValidCids b.entriesCids) :
    SameResult (anchorBatch registry b) (applyAnchor state b.entries) ↔ b.FreshDistinct state := by
  have hle : (b.freshIn state).length ≤ b.entriesCids.length := by
    have hfilter : (b.freshIn state).length ≤ b.records.length := List.length_filter_le _ _
    have hrecords : b.records.length ≤ b.entries.length := List.length_filterMap_le _ _
    rw [Batch.length_entries hb] at hrecords
    omega
  -- no more records are added than the batch has entries, so there is room for them
  have hroom : Account.Fits P (state.records ++ b.freshIn state).length := by
    rw [List.length_append]
    exact hfits.of_le (by omega)
  obtain ⟨registry', hstore⟩ :
      ∃ registry' : Account P, Account.store ⟨state.records ++ b.freshIn state⟩ = .ok registry' :=
    Account.store_isOk_iff.2 hroom
  have hprogram : anchorBatch registry b = .ok registry' :=
    anchorBatch_eq_ok.2 ⟨by omega, state, hstate, h, hb.coveredIn state, hstore⟩
  rw [hprogram, applyAnchor_eq, Batch.length_entries hb, if_neg hlen, Batch.map_fst_entries hb,
    if_pos h, ← nodup_freshIn_iff h (hb.coveredIn state)]
  have hafter : registry'.state = some ⟨state.records ++ b.freshIn state⟩ :=
    Account.state_of_store hstore
  rw [SameResult, hafter, Option.some.injEq, RegistryState.mk.injEq, List.append_cancel_left_eq,
    eq_comm]
  exact List.freshBy_eq_filter_iff

/-- **The two implementations agree exactly when** the batch is over the size limit, or has a CID
of the wrong length, or repeats no unregistered CID. For every decodable state and every batch of
three vectors of one length, the account's size limit not being reached. -/
theorem sameResult_iff {registry : Account P} {state : RegistryState} {b : Batch}
    (hstate : registry.state = some state) (hb : b.EqualLengths)
    (hfits : Account.Fits P (state.records.length + b.entriesCids.length)) :
    SameResult (anchorBatch registry b) (applyAnchor state b.entries) ↔
      b.entriesCids.length > MAX_BATCH_SIZE ∨ ¬ ValidCids b.entriesCids ∨
        b.FreshDistinct state := by
  by_cases hlen : b.entriesCids.length > MAX_BATCH_SIZE
  · exact ⟨fun _ ↦ Or.inl hlen, fun _ ↦ sameResult_of_too_large state hb hlen⟩
  · by_cases h : ValidCids b.entriesCids
    · rw [sameResult_iff_of_valid hstate hb hfits hlen h]
      simp only [hlen, h, not_true_eq_false, false_or]
    · exact ⟨fun _ ↦ Or.inr (Or.inl h), fun _ ↦ sameResult_of_invalid hstate hb hlen h⟩

/-- One CID, submitted twice in one batch. -/
def repeatedCid : Batch where
  entriesCids := [(Bytes.replicate CID_BYTES 1).toList, (Bytes.replicate CID_BYTES 1).toList]
  entriesMetaHashes := [Bytes.replicate 32 0, Bytes.replicate 32 0]
  entriesTimestamps := [1, 2]

/-- On an empty registry the program records the repeated CID twice and the library once. -/
theorem not_sameResult_repeatedCid :
    ¬ SameResult (anchorBatch Account.emptyRegistry repeatedCid)
      (applyAnchor ⟨[]⟩ repeatedCid.entries) := by
  have hiff : SameResult (anchorBatch Account.emptyRegistry repeatedCid)
      (applyAnchor ⟨[]⟩ repeatedCid.entries) ↔ repeatedCid.FreshDistinct ⟨[]⟩ :=
    sameResult_iff_of_valid Account.emptyRegistry_state (by decide) (by decide) (by decide)
      (by decide)
  rw [hiff]
  decide

/-- Two different CIDs in one batch. -/
def twoCids : Batch where
  entriesCids := [(Bytes.replicate CID_BYTES 1).toList, (Bytes.replicate CID_BYTES 2).toList]
  entriesMetaHashes := [Bytes.replicate 32 0, Bytes.replicate 32 0]
  entriesTimestamps := [1, 2]

/-- On two different CIDs the implementations agree. -/
theorem sameResult_twoCids :
    SameResult (anchorBatch Account.emptyRegistry twoCids)
      (applyAnchor ⟨[]⟩ twoCids.entries) := by
  have hlengths : twoCids.EqualLengths := by decide
  have hdistinct : twoCids.FreshDistinct ⟨[]⟩ := by decide +kernel
  rw [sameResult_iff Account.emptyRegistry_state hlengths (by decide)]
  exact Or.inr (Or.inr hdistinct)

end Whistleblower.CidRegistryProgram
