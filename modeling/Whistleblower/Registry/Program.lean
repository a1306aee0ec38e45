import Whistleblower.Registry.Library

/-!
# The deployed registry program

The guest program of `cid-registry/src/main.rs`, which is what runs on-chain: `initialize` and
`anchor_batch`. It takes the batch as three separate vectors and pairs them by position, and its
loop is a second, hand-written version of the one in `apply_anchor`.

The set `existing` is computed **once, before the loop**, and never grows inside it: a CID is
compared with the registry as it was before the batch, not with the records the batch has pushed.
So the loop keeps every entry whose CID was not registered before (`anchorLoop_eq_ok`), where
`apply_anchor` keeps only the first of each.

Indexing a vector out of range aborts the program; `anchorLoop_cases` says exactly when.
-/

namespace Whistleblower.CidRegistryProgram

open CidRegistry

variable {P : Platform}

/-- The arguments of one `anchor_batch` instruction. -/
structure Batch where
  entriesCids : List (List UInt8)
  entriesMetaHashes : List Hash
  entriesTimestamps : List UInt64
  deriving DecidableEq

namespace Batch

/-- The positional pairing of the three vectors. -/
def entries (b : Batch) : List Entry :=
  b.entriesCids.zip (b.entriesMetaHashes.zip b.entriesTimestamps)

/-- The three vectors have one length. -/
def EqualLengths (b : Batch) : Prop :=
  b.entriesMetaHashes.length = b.entriesCids.length ∧
    b.entriesTimestamps.length = b.entriesCids.length

instance (b : Batch) : Decidable b.EqualLengths :=
  inferInstanceAs (Decidable (_ ∧ _))

theorem map_fst_entries {b : Batch} (h : b.EqualLengths) :
    b.entries.map Prod.fst = b.entriesCids := by
  refine List.map_fst_zip ?_
  rw [List.length_zip, h.1, h.2, Nat.min_self]

theorem length_entries {b : Batch} (h : b.EqualLengths) :
    b.entries.length = b.entriesCids.length := by
  rw [← map_fst_entries h, List.length_map]

end Batch

/-- `initialize` of the program. -/
def initializeAccount : Outcome SpelError (Account P) :=
  Account.store ⟨[]⟩

/-- The `for i in 0..n` loop from index `i` on, `rest` being the CIDs from there. `existing` stays
as it was computed before the loop. -/
def anchorLoop (existing : Finset CidBytes) (entriesMetaHashes : List Hash)
    (entriesTimestamps : List UInt64) : ℕ → List (List UInt8) → List DocumentRecord →
      Outcome SpelError (List DocumentRecord)
  | _, [], records => .ok records
  | i, cidBytes :: rest, records =>
    if h : cidBytes.length = CID_BYTES then
      if ⟨cidBytes, h⟩ ∈ existing then
        anchorLoop existing entriesMetaHashes entriesTimestamps (i + 1) rest records
      else
        match entriesMetaHashes[i]?, entriesTimestamps[i]? with
        | some metadataHash, some anchorTimestamp =>
          -- `existing` does not learn the CID, so that a repeat of it is pushed as well
          anchorLoop existing entriesMetaHashes entriesTimestamps (i + 1) rest
            (records ++ [⟨⟨cidBytes, h⟩, metadataHash, anchorTimestamp⟩])
        -- indexing out of range
        | _, _ => .panic
    else .err errInvalidCid

/-- The transition of `anchor_batch` on the decoded state. -/
def register (state : RegistryState) (b : Batch) : Outcome SpelError RegistryState := do
  let existing := state.cids.toFinset
  let records ← anchorLoop existing b.entriesMetaHashes b.entriesTimestamps 0 b.entriesCids
    state.records
  return ⟨records⟩

/-- `anchor_batch` of the program. -/
def anchorBatch (registry : Account P) (b : Batch) : Outcome SpelError (Account P) :=
  if b.entriesCids.length > MAX_BATCH_SIZE then .err errBatchTooLarge
  else do
    let state ← Outcome.ofOption (.custom ERR_BATCH_TOO_LARGE "state deserialise failed")
      registry.state
    let state ← register state b
    Account.store state

/-! ### What the loop does -/

/-- Every entry from index `i` on whose CID is not registered has a hash and a timestamp. -/
def Covered (existing : Finset CidBytes) (ms : List Hash) (ts : List UInt64) (i : ℕ)
    (rest : List (List UInt8)) : Prop :=
  ∀ j (c : CidBytes), rest[j]? = some c.toList → c ∉ existing →
    i + j < ms.length ∧ i + j < ts.length

/-- The records an index range of the batch pairs up. -/
def paired (ms : List Hash) (ts : List UInt64) (i : ℕ) (rest : List (List UInt8)) :
    List DocumentRecord :=
  recordsOf (rest.zip ((ms.drop i).zip (ts.drop i)))

variable {existing : Finset CidBytes} {ms : List Hash} {ts : List UInt64} {i : ℕ}
  {c : List UInt8} {rest : List (List UInt8)} {recs : List DocumentRecord}

theorem Covered.tail (h : Covered existing ms ts i (c :: rest)) :
    Covered existing ms ts (i + 1) rest := by
  intro j d hd hfresh
  have := h (j + 1) d (by rw [List.getElem?_cons_succ]; exact hd) hfresh
  omega

theorem covered_cons_of_mem (hc : c.length = CID_BYTES) (hmem : (⟨c, hc⟩ : CidBytes) ∈ existing) :
    Covered existing ms ts i (c :: rest) ↔ Covered existing ms ts (i + 1) rest := by
  refine ⟨Covered.tail, fun h j d hd hfresh ↦ ?_⟩
  cases j with
  | zero =>
    rw [List.getElem?_cons_zero, Option.some.injEq] at hd
    have : d = ⟨c, hc⟩ := Bytes.ext hd.symm
    exact absurd (this ▸ hmem) hfresh
  | succ j =>
    rw [List.getElem?_cons_succ] at hd
    have := h j d hd hfresh
    omega

theorem covered_cons_of_notMem (hc : c.length = CID_BYTES)
    (hmem : (⟨c, hc⟩ : CidBytes) ∉ existing) :
    Covered existing ms ts i (c :: rest) ↔
      (i < ms.length ∧ i < ts.length) ∧ Covered existing ms ts (i + 1) rest := by
  refine ⟨fun h ↦ ⟨h 0 ⟨c, hc⟩ rfl hmem, h.tail⟩, fun h j d hd hfresh ↦ ?_⟩
  cases j with
  | zero => exact h.1
  | succ j =>
    rw [List.getElem?_cons_succ] at hd
    have := h.2 j d hd hfresh
    omega

theorem paired_cons (hc : c.length = CID_BYTES) (hi : i < ms.length) (hi' : i < ts.length) :
    paired ms ts i (c :: rest) = ⟨⟨c, hc⟩, ms[i], ts[i]⟩ :: paired ms ts (i + 1) rest := by
  rw [paired, paired, List.drop_eq_getElem_cons hi, List.drop_eq_getElem_cons hi',
    List.zip_cons_cons, List.zip_cons_cons, recordsOf_cons_of_valid hc]

/-- Past the end of a shorter vector nothing is paired up. -/
theorem paired_of_le (h : ms.length ≤ i ∨ ts.length ≤ i) : paired ms ts i rest = [] := by
  rw [paired]
  rcases h with h | h
  · rw [List.drop_eq_nil_of_le h, List.zip_nil_left, List.zip_nil_right, recordsOf_nil]
  · rw [List.drop_eq_nil_of_le h, List.zip_nil_right, List.zip_nil_right, recordsOf_nil]

/-- A registered CID contributes nothing, paired up or not. -/
theorem filter_paired_cons_of_mem (hc : c.length = CID_BYTES)
    (hmem : (⟨c, hc⟩ : CidBytes) ∈ existing) :
    (paired ms ts i (c :: rest)).filter (·.cid ∉ existing) =
      (paired ms ts (i + 1) rest).filter (·.cid ∉ existing) := by
  by_cases h : i < ms.length ∧ i < ts.length
  · rw [paired_cons hc h.1 h.2, List.filter_cons_of_neg (by simpa using hmem)]
  · -- neither this entry nor a later one is paired up
    have hi : ms.length ≤ i ∨ ts.length ≤ i := by omega
    have hi' : ms.length ≤ i + 1 ∨ ts.length ≤ i + 1 := by omega
    rw [paired_of_le hi, paired_of_le hi']

/-- **The loop appends every entry whose CID was not registered before the batch.** It returns
normally exactly when all CIDs have the right length and every entry it pushes is paired up. -/
theorem anchorLoop_eq_ok {out : List DocumentRecord} :
    anchorLoop existing ms ts i rest recs = .ok out ↔
      ValidCids rest ∧ Covered existing ms ts i rest ∧
        out = recs ++ (paired ms ts i rest).filter (·.cid ∉ existing) := by
  induction rest generalizing i recs with
  | nil => simp [anchorLoop, paired, ValidCids, Covered, eq_comm]
  | cons c rest ih =>
    by_cases hc : c.length = CID_BYTES
    · have hvalid : ValidCids (c :: rest) ↔ ValidCids rest := by simp [ValidCids, hc]
      rw [anchorLoop, dif_pos hc, hvalid]
      by_cases hmem : (⟨c, hc⟩ : CidBytes) ∈ existing
      · rw [if_pos hmem, ih, covered_cons_of_mem hc hmem, filter_paired_cons_of_mem hc hmem]
      · rw [if_neg hmem, covered_cons_of_notMem hc hmem]
        -- both vectors reach this index, or indexing aborts
        split
        · next m t hm ht =>
          obtain ⟨hi, rfl⟩ := List.getElem?_eq_some_iff.1 hm
          obtain ⟨hi', rfl⟩ := List.getElem?_eq_some_iff.1 ht
          rw [ih, paired_cons hc hi hi', List.filter_cons_of_pos (by simpa using hmem),
            List.append_assoc, List.singleton_append]
          simp only [hi, hi', and_self, true_and]
        · next hnone =>
          have hi : ¬ (i < ms.length ∧ i < ts.length) := fun h ↦
            hnone _ _ (List.getElem?_eq_getElem h.1) (List.getElem?_eq_getElem h.2)
          simp only [hi, reduceCtorEq, false_and, and_false]
    · have hvalid : ¬ ValidCids (c :: rest) := fun h ↦ hc (h c List.mem_cons_self)
      rw [anchorLoop, dif_neg hc]
      simp [hvalid]

/-- The two ways the loop can fail, and what each needs: a CID of the wrong length, or an entry to
push that has no hash or no timestamp. -/
theorem anchorLoop_cases (existing : Finset CidBytes) (ms : List Hash) (ts : List UInt64) (i : ℕ)
    (rest : List (List UInt8)) (recs : List DocumentRecord) :
    (∃ out, anchorLoop existing ms ts i rest recs = .ok out) ∨
      (anchorLoop existing ms ts i rest recs = .err errInvalidCid ∧ ¬ ValidCids rest) ∨
      (anchorLoop existing ms ts i rest recs = .panic ∧ ¬ Covered existing ms ts i rest) := by
  induction rest generalizing i recs with
  | nil => exact Or.inl ⟨recs, rfl⟩
  | cons c rest ih =>
    by_cases hc : c.length = CID_BYTES
    · have hvalid : ¬ ValidCids rest → ¬ ValidCids (c :: rest) := fun h h' ↦
        h fun d hd ↦ h' d (List.mem_cons_of_mem _ hd)
      have hcovered : ¬ Covered existing ms ts (i + 1) rest →
          ¬ Covered existing ms ts i (c :: rest) := fun h h' ↦ h h'.tail
      rw [anchorLoop, dif_pos hc]
      by_cases hmem : (⟨c, hc⟩ : CidBytes) ∈ existing
      · rw [if_pos hmem]
        exact (ih (i + 1) recs).imp_right (Or.imp (And.imp_right hvalid) (And.imp_right hcovered))
      · rw [if_neg hmem]
        split
        · exact (ih (i + 1) _).imp_right (Or.imp (And.imp_right hvalid) (And.imp_right hcovered))
        · next hnone =>
          refine Or.inr (Or.inr ⟨rfl, fun h ↦ ?_⟩)
          obtain ⟨⟨hm, ht⟩, -⟩ := (covered_cons_of_notMem hc hmem).1 h
          exact hnone _ _ (List.getElem?_eq_getElem hm) (List.getElem?_eq_getElem ht)
    · refine Or.inr (Or.inl ⟨by rw [anchorLoop, dif_neg hc], fun h ↦ hc (h c List.mem_cons_self)⟩)

/-! ### What an instruction does -/

/-- The records of the batch's entries, in entry order. -/
def Batch.records (b : Batch) : List DocumentRecord :=
  recordsOf b.entries

/-- Every entry with an unregistered CID has a hash and a timestamp. -/
def Batch.CoveredIn (b : Batch) (state : RegistryState) : Prop :=
  Covered state.cids.toFinset b.entriesMetaHashes b.entriesTimestamps 0 b.entriesCids

/-- The records of a batch whose CIDs are not registered. -/
def Batch.freshIn (b : Batch) (state : RegistryState) : List DocumentRecord :=
  b.records.filter (·.cid ∉ state.cids.toFinset)

theorem Batch.EqualLengths.coveredIn {b : Batch} (h : b.EqualLengths) (state : RegistryState) :
    b.CoveredIn state := by
  intro j c hc _
  have hj : j < b.entriesCids.length := (List.getElem?_eq_some_iff.1 hc).1
  rw [h.1, h.2]
  omega

theorem register_eq_ok {state state' : RegistryState} {b : Batch} :
    register state b = .ok state' ↔
      ValidCids b.entriesCids ∧ b.CoveredIn state ∧
        state' = ⟨state.records ++ b.freshIn state⟩ := by
  rw [register, Outcome.bind_eq_ok]
  constructor
  · rintro ⟨out, hout, h⟩
    obtain ⟨hvalid, hcovered, rfl⟩ := anchorLoop_eq_ok.1 hout
    exact ⟨hvalid, hcovered, (Outcome.ok.inj h).symm⟩
  · rintro ⟨hvalid, hcovered, rfl⟩
    exact ⟨_, anchorLoop_eq_ok.2 ⟨hvalid, hcovered, rfl⟩, rfl⟩

/-- **The meaning of a successful instruction**, guards included: it appends the records of the
batch whose CIDs were not registered before it. -/
theorem anchorBatch_eq_ok {registry registry' : Account P} {b : Batch} :
    anchorBatch registry b = .ok registry' ↔
      b.entriesCids.length ≤ MAX_BATCH_SIZE ∧ ∃ state, registry.state = some state ∧
        ValidCids b.entriesCids ∧ b.CoveredIn state ∧
        Account.store ⟨state.records ++ b.freshIn state⟩ = .ok registry' := by
  rw [anchorBatch]
  by_cases hlen : b.entriesCids.length > MAX_BATCH_SIZE
  · rw [if_pos hlen]
    simp only [reduceCtorEq, false_iff]
    omega
  · rw [if_neg hlen, Outcome.bind_eq_ok]
    simp only [Outcome.ofOption_eq_ok, Outcome.bind_eq_ok, register_eq_ok]
    constructor
    · rintro ⟨state, hstate, state', ⟨hvalid, hcovered, rfl⟩, hstore⟩
      exact ⟨by omega, state, hstate, hvalid, hcovered, hstore⟩
    · rintro ⟨-, state, hstate, hvalid, hcovered, hstore⟩
      exact ⟨state, hstate, _, ⟨hvalid, hcovered, rfl⟩, hstore⟩

/-- **When an instruction is too large**, and nothing else is reported so. -/
theorem anchorBatch_eq_errBatchTooLarge {registry : Account P} {b : Batch} :
    anchorBatch registry b = .err errBatchTooLarge ↔ MAX_BATCH_SIZE < b.entriesCids.length := by
  rw [anchorBatch]
  by_cases hlen : b.entriesCids.length > MAX_BATCH_SIZE
  · rw [if_pos hlen]
    exact iff_of_true rfl hlen
  · rw [if_neg hlen]
    refine iff_of_false (fun h ↦ ?_) hlen
    rcases Outcome.bind_eq_err.1 h with h | ⟨state, -, h⟩
    · exact absurd (Outcome.ofOption_eq_err.1 h).2 (by decide)
    rcases Outcome.bind_eq_err.1 h with h | ⟨state', -, h⟩
    · obtain h | ⟨records, -, h⟩ := Outcome.bind_eq_err.1 h
      · rcases anchorLoop_cases state.cids.toFinset b.entriesMetaHashes b.entriesTimestamps 0
          b.entriesCids state.records with ⟨out, hout⟩ | ⟨hinvalid, -⟩ | ⟨hpanic, -⟩
        · exact nomatch h.symm.trans hout
        · exact absurd (Outcome.err.inj (h.symm.trans hinvalid)) (by decide)
        · exact nomatch h.symm.trans hpanic
      · cases h
    · rcases Account.store_cases P state' with ⟨-, account, hok⟩ | ⟨-, message, herr⟩
      · exact nomatch h.symm.trans hok
      · exact nomatch h.symm.trans herr

end Whistleblower.CidRegistryProgram
