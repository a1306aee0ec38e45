import Whistleblower.Registry.Submissions

/-!
# Where an instruction stops

Two limits of `anchor_batch`, one on its arguments and one on the account.

**The arguments.** The guest indexes three vectors by the length of the first. The loop aborts at
the first unregistered CID whose index lies past the end of one of the other two, unless a CID of
the wrong length comes before it (`anchorLoop_eq_panic`). Nothing else in the guest aborts. The
library takes its batch as one list of triples, so that it has no such index, but it decodes the
account with `expect`.

**The account.** An account has room for a fixed number of bytes, and a registry of `n` records
takes `4 + 86 * n` of them. An account on the ledger always holds the bytes of its own state
(`store_run`). So what is there fits, a batch is rejected for its new CIDs only, and one with none
of them is written back byte for byte (`isOk_anchorBatch_run_iff`).
-/

namespace Whistleblower.CidRegistryProgram

open CidRegistry

variable {P : Platform} {registry : Account P} {state : RegistryState} {b : Batch}

/-! ### Aborts -/

/-- From index `i` on, the loop meets an unregistered CID without a hash or a timestamp, and no CID
of the wrong length before it. -/
def RunsShort (existing : Finset CidBytes) (ms : List Hash) (ts : List UInt64) (i : ℕ)
    (rest : List (List UInt8)) : Prop :=
  ∃ j, ∃ c : CidBytes, rest[j]? = some c.toList ∧ c ∉ existing ∧ ValidCids (rest.take j) ∧
    (ms.length ≤ i + j ∨ ts.length ≤ i + j)

variable {existing : Finset CidBytes} {ms : List Hash} {ts : List UInt64} {i : ℕ}
  {c : List UInt8} {rest : List (List UInt8)} {recs : List DocumentRecord}

theorem not_runsShort_nil : ¬ RunsShort existing ms ts i [] := by
  rintro ⟨j, c, hc, -⟩
  cases hc

/-- A CID of the wrong length ends the loop with an error. -/
theorem not_runsShort_cons (hc : c.length ≠ CID_BYTES) :
    ¬ RunsShort existing ms ts i (c :: rest) := by
  rintro ⟨j, d, hd, -, hvalid, -⟩
  cases j with
  | zero =>
    rw [List.getElem?_cons_zero, Option.some.injEq] at hd
    exact hc (hd ▸ d.length_toList)
  | succ j =>
    rw [List.take_succ_cons] at hvalid
    exact hc (hvalid c List.mem_cons_self)

/-- One entry of the loop: it is the one that runs short, or a later one is. -/
theorem runsShort_cons (hc : c.length = CID_BYTES) :
    RunsShort existing ms ts i (c :: rest) ↔
      ((⟨c, hc⟩ : CidBytes) ∉ existing ∧ (ms.length ≤ i ∨ ts.length ≤ i)) ∨
        RunsShort existing ms ts (i + 1) rest := by
  constructor
  · rintro ⟨j, d, hd, hfresh, hvalid, hshort⟩
    cases j with
    | zero =>
      rw [List.getElem?_cons_zero, Option.some.injEq] at hd
      obtain rfl : d = ⟨c, hc⟩ := Bytes.ext hd.symm
      exact Or.inl ⟨hfresh, hshort⟩
    | succ j =>
      rw [List.getElem?_cons_succ] at hd
      rw [List.take_succ_cons] at hvalid
      refine Or.inr ⟨j, d, hd, hfresh, fun e he ↦ hvalid e (List.mem_cons_of_mem _ he), ?_⟩
      omega
  · rintro (⟨hfresh, hshort⟩ | ⟨j, d, hd, hfresh, hvalid, hshort⟩)
    · exact ⟨0, ⟨c, hc⟩, rfl, hfresh, fun e he ↦ absurd he List.not_mem_nil, hshort⟩
    · refine ⟨j + 1, d, by rw [List.getElem?_cons_succ]; exact hd, hfresh, ?_, by omega⟩
      rw [List.take_succ_cons]
      intro e he
      rcases List.mem_cons.1 he with rfl | he
      · exact hc
      · exact hvalid e he

/-- **The loop aborts exactly where it runs short.** -/
theorem anchorLoop_eq_panic :
    anchorLoop existing ms ts i rest recs = .panic ↔ RunsShort existing ms ts i rest := by
  induction rest generalizing i recs with
  | nil => exact iff_of_false (fun h ↦ by cases h) not_runsShort_nil
  | cons c rest ih =>
    by_cases hc : c.length = CID_BYTES
    · rw [anchorLoop, dif_pos hc, runsShort_cons hc]
      by_cases hmem : (⟨c, hc⟩ : CidBytes) ∈ existing
      · rw [if_pos hmem, ih]
        exact ⟨Or.inr, fun h ↦ h.resolve_left fun hshort ↦ hshort.1 hmem⟩
      · rw [if_neg hmem]
        split
        · next m t hm ht =>
          have hi : i < ms.length := (List.getElem?_eq_some_iff.1 hm).1
          have hi' : i < ts.length := (List.getElem?_eq_some_iff.1 ht).1
          rw [ih]
          exact ⟨Or.inr, fun h ↦ h.resolve_left fun hshort ↦ by omega⟩
        · next hnone =>
          refine iff_of_true rfl (Or.inl ⟨hmem, ?_⟩)
          by_contra hlong
          have hi : i < ms.length ∧ i < ts.length := by omega
          exact hnone _ _ (List.getElem?_eq_getElem hi.1) (List.getElem?_eq_getElem hi.2)
    · rw [anchorLoop, dif_neg hc]
      exact iff_of_false (fun h ↦ by cases h) (not_runsShort_cons hc)

/-- The batch runs short in a state: some CID that is not registered there has no hash or no
timestamp at its index, and no CID of the wrong length comes before it. -/
def Batch.RunsShortIn (b : Batch) (state : RegistryState) : Prop :=
  RunsShort state.cids.toFinset b.entriesMetaHashes b.entriesTimestamps 0 b.entriesCids

theorem register_eq_panic : register state b = .panic ↔ b.RunsShortIn state := by
  rw [register, Outcome.bind_eq_panic, anchorLoop_eq_panic, Batch.RunsShortIn]
  refine ⟨fun h ↦ h.resolve_right ?_, Or.inl⟩
  rintro ⟨records, -, hpure⟩
  cases hpure

theorem store_ne_panic : (Account.store state : Outcome SpelError (Account P)) ≠ .panic := by
  intro h
  rcases Account.store_cases P state with ⟨-, account, hok⟩ | ⟨-, message, herr⟩
  · exact nomatch h.symm.trans hok
  · exact nomatch h.symm.trans herr

/-- **When the guest aborts.** -/
theorem anchorBatch_eq_panic :
    anchorBatch registry b = .panic ↔
      b.entriesCids.length ≤ MAX_BATCH_SIZE ∧
        ∃ state, registry.state = some state ∧ b.RunsShortIn state := by
  rw [anchorBatch]
  by_cases hlen : b.entriesCids.length > MAX_BATCH_SIZE
  · rw [if_pos hlen]
    exact iff_of_false (fun h ↦ by cases h) fun h ↦ absurd h.1 (Nat.not_le.2 hlen)
  · rw [if_neg hlen, Outcome.bind_eq_panic]
    constructor
    · rintro (hdecode | ⟨state, hstate, h⟩)
      · exact absurd hdecode (Outcome.ofOption_ne_panic _ _)
      · refine ⟨Nat.not_lt.1 hlen, state, Outcome.ofOption_eq_ok.1 hstate, ?_⟩
        rcases Outcome.bind_eq_panic.1 h with h | ⟨state', -, h⟩
        · exact register_eq_panic.1 h
        · exact absurd h store_ne_panic
    · rintro ⟨-, state, hstate, hshort⟩
      refine Or.inr ⟨state, Outcome.ofOption_eq_ok.2 hstate, Outcome.bind_eq_panic.2 (Or.inl ?_)⟩
      exact register_eq_panic.2 hshort

/-- **When the library aborts**: its loop has no index to run past, so only where the account does
not decode. -/
theorem library_anchorBatch_eq_panic (registry : Account P) (entries : List Entry) :
    CidRegistry.anchorBatch registry entries = .panic ↔ registry.state = none := by
  rw [CidRegistry.anchorBatch]
  cases hstate : registry.state with
  | none => exact iff_of_true rfl rfl
  | some state =>
    refine iff_of_false (fun h ↦ ?_) (fun h ↦ nomatch h)
    rcases Outcome.bind_eq_panic.1 h with h | ⟨state', -, h⟩
    · rw [applyAnchor_eq] at h
      split at h
      · cases h
      · split at h <;> cases h
    · exact store_ne_panic h

/-- **Errors, not aborts.** The guest returns an outcome of its declared kind exactly when the batch
is over the size limit, the account does not decode, or the batch does not run short in the state
the account holds. The library does exactly when the account decodes. -/
theorem anchorBatch_ne_panic_iff (registry : Account P) (b : Batch) (entries : List Entry) :
    (anchorBatch registry b ≠ .panic ↔
      MAX_BATCH_SIZE < b.entriesCids.length ∨
        ∀ state, registry.state = some state → ¬ b.RunsShortIn state) ∧
    (CidRegistry.anchorBatch registry entries ≠ .panic ↔ registry.state ≠ none) := by
  refine ⟨?_, not_congr (library_anchorBatch_eq_panic registry entries)⟩
  rw [Ne, anchorBatch_eq_panic, not_and_or, Nat.not_le]
  simp only [not_exists, not_and]

/-- One CID, and neither a hash nor a timestamp for it. -/
def shortVectors : Batch where
  entriesCids := [List.replicate 46 1]
  entriesMetaHashes := []
  entriesTimestamps := []

/-- The guest aborts on vectors of different lengths, the library on an account without data. -/
theorem anchorBatch_shortVectors :
    anchorBatch Account.emptyRegistry shortVectors = .panic ∧
      CidRegistry.anchorBatch (Account.default Account.samplePlatform) [] = .panic := by
  decide +kernel

/-! ### Capacity -/

/-- An account that a store wrote holds the state that was written, and that state fits. -/
theorem fits_of_store (h : Account.store state = .ok registry) :
    registry.state = some state ∧ Account.Fits P state.records.length :=
  ⟨Account.state_of_store h, Account.store_isOk_iff.1 ⟨registry, h⟩⟩

/-- **One step**: an account that holds the bytes of its own state still does afterwards. -/
theorem store_execute (h : Account.store state = .ok registry) (b : Batch) :
    ∃ state', Account.store state' = .ok (execute registry b) := by
  cases hb : anchorBatch registry b with
  | ok registry' =>
    obtain ⟨-, state', -, -, -, hstore⟩ := anchorBatch_eq_ok.1 hb
    rw [execute_of_ok hb]
    exact ⟨_, hstore⟩
  | err e =>
    rw [execute_of_not_ok (by rw [hb]; rfl)]
    exact ⟨state, h⟩
  | panic =>
    rw [execute_of_not_ok (by rw [hb]; rfl)]
    exact ⟨state, h⟩

/-- **The run**: from `initialize` on, the account holds the bytes of its own state. -/
theorem store_run (h : Account.store state = .ok registry) (batches : List Batch) :
    ∃ state', Account.store state' = .ok (run registry batches) := by
  induction batches generalizing registry state with
  | nil => exact ⟨state, h⟩
  | cons b batches ih =>
    obtain ⟨middle, hmiddle⟩ := store_execute h b
    exact ih hmiddle

/-- What a well-formed batch does to an account: it appends its unregistered CIDs, or it does not
fit. -/
theorem anchorBatch_of_wellFormed (hstate : registry.state = some state) (hb : b.WellFormed) :
    anchorBatch registry b = Account.store ⟨state.records ++ b.freshIn state⟩ := by
  have hregister : register state b = .ok ⟨state.records ++ b.freshIn state⟩ :=
    register_eq_ok.2 ⟨hb.validCids, hb.equalLengths.coveredIn state, rfl⟩
  rw [anchorBatch, if_neg (Nat.not_lt.2 hb.length_le), hstate, Outcome.ofOption_some,
    Outcome.ok_bind, hregister, Outcome.ok_bind]

/-- A batch that offers nothing new pushes nothing. -/
theorem freshIn_eq_nil (hb : b.WellFormed) (h : b.unregisteredIn state = []) :
    b.freshIn state = [] := by
  rw [← List.length_eq_zero_iff, length_freshIn hb.validCids (hb.equalLengths.coveredIn state), h,
    List.length_nil]

/-- **Capacity and atomicity.** After any run from `initialize` that has reached `n` records, a
well-formed batch with `k` unregistered CIDs succeeds exactly when `n + k` records fit the account.
Otherwise it is a serialisation error and the account stays as it was. With nothing new in it, it
always succeeds, and writes back the account it found. -/
theorem isOk_anchorBatch_run_iff (hinit : initializeAccount = .ok registry) (batches : List Batch)
    (hb : b.WellFormed) :
    ∃ state, (run registry batches).state = some state ∧
      ((anchorBatch (run registry batches) b).isOk = true ↔
        4 + 86 * (state.records.length + (b.unregisteredIn state).length) ≤ P.dataMaxLength) ∧
      (¬ 4 + 86 * (state.records.length + (b.unregisteredIn state).length) ≤ P.dataMaxLength →
        (∃ message, anchorBatch (run registry batches) b = .err (.serializationError message)) ∧
          execute (run registry batches) b = run registry batches) ∧
      (b.unregisteredIn state = [] →
        anchorBatch (run registry batches) b = .ok (run registry batches)) := by
  obtain ⟨state, hstore⟩ := store_run hinit batches
  obtain ⟨hstate, -⟩ := fits_of_store hstore
  have hresult := anchorBatch_of_wellFormed hstate hb
  have hlength : (state.records ++ b.freshIn state).length =
      state.records.length + (b.unregisteredIn state).length := by
    rw [List.length_append, length_freshIn hb.validCids (hb.equalLengths.coveredIn state)]
  refine ⟨state, hstate, ?_, fun hfull ↦ ?_, fun hknown ↦ ?_⟩
  · rw [hresult, ← hlength]
    rcases Account.store_cases P ⟨state.records ++ b.freshIn state⟩ with
      ⟨hfits, account, hok⟩ | ⟨hfull, message, herr⟩
    · rw [hok]
      exact iff_of_true rfl hfits
    · rw [herr]
      exact iff_of_false Bool.false_ne_true hfull
  · rw [← hlength] at hfull
    obtain ⟨-, message, herr⟩ :=
      (Account.store_cases P ⟨state.records ++ b.freshIn state⟩).resolve_left
        fun hfits ↦ hfull hfits.1
    rw [← hresult] at herr
    exact ⟨⟨message, herr⟩, execute_of_not_ok (by rw [herr]; rfl)⟩
  · rw [hresult, freshIn_eq_nil hb hknown, List.append_nil, hstore]

/-- Submitted a second time, two CIDs are written back as they are. -/
theorem isOk_anchorBatch_run_iff_twoCids :
    ∃ state : RegistryState,
      (run Account.emptyRegistry [twoCids]).state = some state ∧
        ((anchorBatch (run Account.emptyRegistry [twoCids]) twoCids).isOk = true ↔
          4 + 86 * (state.records.length + (twoCids.unregisteredIn state).length) ≤
            Account.samplePlatform.dataMaxLength) := by
  obtain ⟨state, hstate, hiff, -⟩ :=
    isOk_anchorBatch_run_iff initializeAccount_sample [twoCids] (b := twoCids) (by decide)
  exact ⟨state, hstate, hiff⟩

end Whistleblower.CidRegistryProgram
