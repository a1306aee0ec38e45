import Whistleblower.Registry.Ledger

/-!
# Submissions in any order

Nobody coordinates who anchors what and when, so the same batches may land in any order. The records
do depend on it: a CID offered twice keeps the record that came first, and the program may push a
repeat of it or not. What does not depend on the order is the set of registered CIDs, and the answer
to every query whose CID was registered before or was only ever offered with one record
(`queryByCid_run_perm`).

Queries see the account as a first-write-wins map of the accepted entries (`lookup_run`), and where
no batch runs out of room, these are all entries (`accepted_of_hasRoom`). So an order is a
permutation of what is written first into a map, and the law is one about such maps,
`List.firstWins_eq_of_perm`.
-/

namespace Whistleblower.CidRegistryProgram

open CidRegistry

variable {P : Platform} {registry : Account P} {state : RegistryState} {b : Batch}
  {batches batches' : List Batch}

/-- A batch that only the account's size limit can stop. -/
structure Batch.WellFormed (b : Batch) : Prop where
  length_le : b.entriesCids.length ≤ MAX_BATCH_SIZE
  validCids : ValidCids b.entriesCids
  equalLengths : b.EqualLengths

instance (b : Batch) : Decidable b.WellFormed :=
  decidable_of_iff (b.entriesCids.length ≤ MAX_BATCH_SIZE ∧ ValidCids b.entriesCids ∧
      b.EqualLengths)
    ⟨fun h ↦ ⟨h.1, h.2.1, h.2.2⟩, fun h ↦ ⟨h.1, h.2, h.3⟩⟩

/-- At no instruction of the run is the size limit reached. -/
def HasRoom (P : Platform) : Account P → List Batch → Prop
  | _, [] => True
  | registry, b :: batches =>
    (∀ state, registry.state = some state →
      Account.Fits P (state.records.length + (b.unregisteredIn state).length)) ∧
      HasRoom P (execute registry b) batches

/-! ### Where the limit is not reached -/

/-- A well-formed batch that fits is accepted. -/
theorem isOk_of_wellFormed (hstate : registry.state = some state) (hb : b.WellFormed)
    (hfits : Account.Fits P (state.records.length + (b.unregisteredIn state).length)) :
    (anchorBatch registry b).isOk = true := by
  rw [isOk_anchorBatch_iff hstate]
  rintro (hover | hinvalid | huncovered | hfull)
  · exact absurd hover (Nat.not_lt.2 hb.length_le)
  · exact hinvalid hb.validCids
  · exact huncovered (hb.equalLengths.coveredIn state)
  · exact hfull hfits

/-- **Every entry is accepted**, in the order the batches land. -/
theorem accepted_of_hasRoom (hstate : registry.state = some state)
    (hwell : ∀ b ∈ batches, b.WellFormed) (hroom : HasRoom P registry batches) :
    accepted registry batches = batches.flatMap Batch.records := by
  induction batches generalizing registry state with
  | nil => rfl
  | cons b batches ih =>
    have hok := isOk_of_wellFormed hstate (hwell b List.mem_cons_self) (hroom.1 state hstate)
    obtain ⟨middle, hmiddle, -⟩ := exists_state_execute hstate b
    rw [accepted, if_pos hok, List.flatMap_cons,
      ih hmiddle (fun b' hb' ↦ hwell b' (List.mem_cons_of_mem _ hb')) hroom.2]

/-- A run has room if the account could hold every entry of every batch. -/
theorem hasRoom_of_fits (hstate : registry.state = some state)
    (hfits : Account.Fits P
      (state.records.length + (batches.map fun b ↦ b.entriesCids.length).sum)) :
    HasRoom P registry batches := by
  induction batches generalizing registry state with
  | nil => trivial
  | cons b batches ih =>
    rw [List.map_cons, List.sum_cons] at hfits
    have hunregistered : ∀ s : RegistryState,
        (b.unregisteredIn s).length ≤ b.entriesCids.length :=
      fun _ ↦ List.length_filter_le _ _
    refine ⟨fun s hs ↦ ?_, ?_⟩
    · obtain rfl := Option.some.inj (hstate.symm.trans hs)
      have := hunregistered state
      exact hfits.of_le (by omega)
    · -- what the batch has pushed comes out of its own share
      rcases execute_cases hstate b with
        ⟨-, hsame⟩ | ⟨registry', -, hexec, hvalid, hcovered, hafter⟩
      · rw [hsame]
        exact ih hstate (hfits.of_le (by omega))
      · rw [hexec]
        refine ih hafter (hfits.of_le ?_)
        have := hunregistered state
        have hpushed := length_freshIn hvalid hcovered
        simp only [List.length_append]
        omega

/-! ### What queries see -/

theorem isSome_lookup_iff {c : CidBytes} : (lookup state c).isSome ↔ c ∈ state.cids := by
  rw [lookup, List.find?_isSome, RegistryState.cids, List.mem_map]
  simp only [decide_eq_true_eq]

/-- **After a run with room**, the registered CIDs are those there were and those offered. -/
theorem mem_cids_run (hstate : registry.state = some state) (hwell : ∀ b ∈ batches, b.WellFormed)
    (hroom : HasRoom P registry batches) {state' : RegistryState}
    (hstate' : (run registry batches).state = some state') {c : CidBytes} :
    c ∈ state'.cids ↔
      c ∈ state.cids ∨ c ∈ (batches.flatMap Batch.records).map DocumentRecord.cid := by
  rw [← isSome_lookup_iff, lookup_run hstate hstate', accepted_of_hasRoom hstate hwell hroom,
    List.isSome_firstWins, isSome_lookup_iff]

/-- **The order does not matter for what is registered.** Well-formed batches that land in two
orders on the same registry, without reaching the size limit, register the same CIDs; and a query
has the same answer if its CID was registered before, or if all records offered under it are the
same. -/
theorem queryByCid_run_perm (hstate : registry.state = some state)
    (hwell : ∀ b ∈ batches, b.WellFormed) (hperm : batches.Perm batches')
    (hroom : HasRoom P registry batches) (hroom' : HasRoom P registry batches') :
    (∃ state₁ state₂, (run registry batches).state = some state₁ ∧
      (run registry batches').state = some state₂ ∧ ∀ c, c ∈ state₁.cids ↔ c ∈ state₂.cids) ∧
    ∀ c, (c ∈ state.cids ∨ ∃ metadataHash anchorTimestamp, ∀ b ∈ batches, ∀ r ∈ b.records,
        r.cid = c → r.metadataHash = metadataHash ∧ r.anchorTimestamp = anchorTimestamp) →
      queryByCid (run registry batches) c = queryByCid (run registry batches') c := by
  have hwell' : ∀ b ∈ batches', b.WellFormed := fun b hb ↦ hwell b (hperm.mem_iff.2 hb)
  have hrecords : (batches.flatMap Batch.records).Perm (batches'.flatMap Batch.records) :=
    hperm.flatMap_right Batch.records
  obtain ⟨state₁, hstate₁, -⟩ := exists_state_run hstate batches
  obtain ⟨state₂, hstate₂, -⟩ := exists_state_run hstate batches'
  refine ⟨⟨state₁, state₂, hstate₁, hstate₂, fun c ↦ ?_⟩, fun c hc ↦ ?_⟩
  · rw [mem_cids_run hstate hwell hroom hstate₁, mem_cids_run hstate hwell' hroom' hstate₂,
      (hrecords.map DocumentRecord.cid).mem_iff]
  · have hlookup : lookup state₁ c = lookup state₂ c := by
      rw [lookup_run hstate hstate₁, lookup_run hstate hstate₂,
        accepted_of_hasRoom hstate hwell hroom, accepted_of_hasRoom hstate hwell' hroom']
      refine List.firstWins_eq_of_perm hrecords (hc.imp isSome_lookup_iff.2 ?_)
      -- two records offered under the CID have all three fields in common
      rintro ⟨metadataHash, anchorTimestamp, hone⟩ r hr s hs hrc hsc
      obtain ⟨b, hb, hrb⟩ := List.mem_flatMap.1 hr
      obtain ⟨d, hd, hsd⟩ := List.mem_flatMap.1 hs
      obtain ⟨hrm, hrt⟩ := hone b hb r hrb hrc
      obtain ⟨hsm, hst⟩ := hone d hd s hsd hsc
      obtain ⟨rcid, rhash, rtime⟩ := r
      obtain ⟨scid, shash, stime⟩ := s
      rw [DocumentRecord.mk.injEq]
      exact ⟨hrc.trans hsc.symm, hrm.trans hsm.symm, hrt.trans hst.symm⟩
    rw [queryByCid_of_state hstate₁, queryByCid_of_state hstate₂]
    exact congrArg Outcome.ok hlookup

/-- Two batches that share a CID, and offer it with different timestamps: the other CID is found
with the same record in both orders. -/
theorem queryByCid_run_perm_twoCids :
    queryByCid (run Account.emptyRegistry [twoCids, repeatedCid]) (Bytes.replicate CID_BYTES 2) =
      queryByCid (run Account.emptyRegistry [repeatedCid, twoCids])
        (Bytes.replicate CID_BYTES 2) := by
  have hwell : ∀ b ∈ [twoCids, repeatedCid], b.WellFormed := by decide
  have hroom : HasRoom Account.samplePlatform Account.emptyRegistry [twoCids, repeatedCid] :=
    hasRoom_of_fits Account.emptyRegistry_state (by decide)
  have hroom' : HasRoom Account.samplePlatform Account.emptyRegistry [repeatedCid, twoCids] :=
    hasRoom_of_fits Account.emptyRegistry_state (by decide)
  refine (queryByCid_run_perm Account.emptyRegistry_state hwell (.swap _ _ _) hroom hroom').2 _
    (Or.inr ⟨Bytes.replicate 32 0, 2, ?_⟩)
  decide +kernel

end Whistleblower.CidRegistryProgram
