import Whistleblower.Registry.Agreement

/-!
# Runs of the registry program

The ledger applies `anchor_batch` instructions one after another to the registry account. An
instruction that does not return normally, whether it fails with an error or aborts, leaves the
account as it was (`execute`).

The one step lemma is `execute_cases`: either the account is unchanged, or it now holds the records
it held followed by those records of the batch whose CIDs were not among them. Two run invariants
follow from it.

* **Distinct CIDs** (`distinct_run_iff`) need a condition on each step, `Batch.KeepsDistinct`: the
  program must not be handed a batch that it accepts and that repeats an unregistered CID.
* **First write wins** (`lookup_run`) needs none. What `query_by_cid` sees of the account is a
  first-write-wins map of the accepted entries, and records pushed twice do not show in it.
-/

namespace Whistleblower.CidRegistryProgram

open CidRegistry

variable {P : Platform} {registry registry' : Account P} {state state' : RegistryState} {b : Batch}
  {batches : List Batch}

/-! ### Steps -/

/-- One instruction on the ledger: without a normal return the account stays as it was. -/
def execute (registry : Account P) (b : Batch) : Account P :=
  match anchorBatch registry b with
  | .ok registry' => registry'
  | _ => registry

/-- A sequence of instructions. -/
def run (registry : Account P) (batches : List Batch) : Account P :=
  batches.foldl execute registry

theorem execute_of_ok (h : anchorBatch registry b = .ok registry') :
    execute registry b = registry' := by
  rw [execute, h]

theorem execute_of_not_ok (h : (anchorBatch registry b).isOk = false) :
    execute registry b = registry := by
  rw [execute]
  split
  · next hok =>
    rw [hok] at h
    cases h
  · rfl

@[simp] theorem run_nil : run registry [] = registry := rfl

theorem run_append (registry : Account P) (bs cs : List Batch) :
    run registry (bs ++ cs) = run (run registry bs) cs :=
  List.foldl_append

/-- **What one instruction does to the account.** -/
theorem execute_cases (hstate : registry.state = some state) (b : Batch) :
    ((anchorBatch registry b).isOk = false ∧ execute registry b = registry) ∨
      (∃ registry', anchorBatch registry b = .ok registry' ∧ execute registry b = registry' ∧
        ValidCids b.entriesCids ∧ b.CoveredIn state ∧
        registry'.state = some ⟨state.records ++ b.freshIn state⟩) := by
  cases hb : anchorBatch registry b with
  | ok registry' =>
    obtain ⟨-, state', hstate', hvalid, hcovered, hstore⟩ := anchorBatch_eq_ok.1 hb
    obtain rfl := Option.some.inj (hstate.symm.trans hstate')
    exact Or.inr ⟨registry', rfl, execute_of_ok hb, hvalid, hcovered, Account.state_of_store hstore⟩
  | err e => exact Or.inl ⟨rfl, execute_of_not_ok (by rw [hb]; rfl)⟩
  | panic => exact Or.inl ⟨rfl, execute_of_not_ok (by rw [hb]; rfl)⟩

/-- Every account on the run holds a state, with the records of the one before as a prefix. -/
theorem exists_state_execute (hstate : registry.state = some state) (b : Batch) :
    ∃ state', (execute registry b).state = some state' ∧ state.records <+: state'.records := by
  rcases execute_cases hstate b with ⟨-, hsame⟩ | ⟨registry', -, hexec, -, -, hafter⟩
  · rw [hsame]
    exact ⟨state, hstate, List.prefix_refl _⟩
  · rw [hexec]
    exact ⟨_, hafter, List.prefix_append _ _⟩

theorem exists_state_run (hstate : registry.state = some state) (batches : List Batch) :
    ∃ state', (run registry batches).state = some state' ∧ state.records <+: state'.records := by
  induction batches generalizing registry state with
  | nil => exact ⟨state, hstate, List.prefix_refl _⟩
  | cons b batches ih =>
    obtain ⟨middle, hmiddle, hprefix⟩ := exists_state_execute hstate b
    obtain ⟨state', hstate', hprefix'⟩ := ih hmiddle
    exact ⟨state', hstate', hprefix.trans hprefix'⟩

/-- The account `initialize` writes holds no records. -/
theorem state_of_initializeAccount (h : initializeAccount = .ok registry) :
    registry.state = some ⟨[]⟩ :=
  Account.state_of_store h

/-! ### Distinct CIDs -/

/-- The records in the account have pairwise distinct CIDs. -/
def Distinct (registry : Account P) : Prop :=
  ∃ state, registry.state = some state ∧ state.cids.Nodup

/-- The program rejects the batch in this state: it is over the size limit, has a CID of the wrong
length, has no hash or no timestamp for an unregistered CID, or does not fit the account. -/
def Batch.RejectedIn (P : Platform) (b : Batch) (state : RegistryState) : Prop :=
  b.entriesCids.length > MAX_BATCH_SIZE ∨ ¬ ValidCids b.entriesCids ∨ ¬ b.CoveredIn state ∨
    ¬ Account.Fits P (state.records.length + (b.unregisteredIn state).length)

/-- A batch the program rejects, or one that repeats no unregistered CID. -/
def Batch.KeepsDistinct (P : Platform) (b : Batch) (state : RegistryState) : Prop :=
  b.RejectedIn P state ∨ b.FreshDistinct state

/-- The number of records a batch adds, read off the arguments. -/
theorem length_freshIn (hvalid : ValidCids b.entriesCids) (hcovered : b.CoveredIn state) :
    (b.freshIn state).length = (b.unregisteredIn state).length := by
  rw [← map_freshIn hvalid hcovered, List.length_map]

/-- **When an instruction succeeds**, in terms of its arguments and the state before it. -/
theorem isOk_anchorBatch_iff (hstate : registry.state = some state) :
    (anchorBatch registry b).isOk = true ↔ ¬ b.RejectedIn P state := by
  have hok : (anchorBatch registry b).isOk = true ↔ ∃ r, anchorBatch registry b = .ok r := by
    cases anchorBatch registry b <;> simp
  rw [hok, Batch.RejectedIn]
  constructor
  · rintro ⟨r, hr⟩
    obtain ⟨hlen, state', hstate', hvalid, hcovered, hstore⟩ := anchorBatch_eq_ok.1 hr
    obtain rfl := Option.some.inj (hstate.symm.trans hstate')
    have hfits : Account.Fits P (state.records ++ b.freshIn state).length :=
      Account.store_isOk_iff.1 ⟨r, hstore⟩
    rw [List.length_append, length_freshIn hvalid hcovered] at hfits
    rintro (hover | hinvalid | huncovered | hfull)
    · exact absurd hover (Nat.not_lt.2 hlen)
    · exact hinvalid hvalid
    · exact huncovered hcovered
    · exact hfull hfits
  · intro h
    simp only [not_or, not_not, Nat.not_lt, gt_iff_lt] at h
    obtain ⟨hlen, hvalid, hcovered, hfits⟩ := h
    rw [← length_freshIn hvalid hcovered, ← List.length_append] at hfits
    obtain ⟨r, hstore⟩ :
        ∃ r : Account P, Account.store ⟨state.records ++ b.freshIn state⟩ = .ok r :=
      Account.store_isOk_iff.2 hfits
    exact ⟨r, anchorBatch_eq_ok.2 ⟨hlen, state, hstate, hvalid, hcovered, hstore⟩⟩

/-- **One step**: distinct CIDs stay distinct exactly under the condition. -/
theorem distinct_execute_iff (hstate : registry.state = some state) (h : state.cids.Nodup) :
    Distinct (execute registry b) ↔ b.KeepsDistinct P state := by
  have hrejected : (anchorBatch registry b).isOk = true ↔ ¬ b.RejectedIn P state :=
    isOk_anchorBatch_iff hstate
  rcases execute_cases hstate b with
    ⟨hnot, hsame⟩ | ⟨registry', hok, hexec, hvalid, hcovered, hafter⟩
  · rw [hnot] at hrejected
    have hrej : b.RejectedIn P state := by simpa using hrejected
    rw [hsame]
    exact ⟨fun _ ↦ Or.inl hrej, fun _ ↦ ⟨state, hstate, h⟩⟩
  · rw [hok, Outcome.isOk_ok] at hrejected
    have hacc : ¬ b.RejectedIn P state := by simpa using hrejected
    have hdistinct : Distinct (execute registry b) ↔
        (state.cids ++ (b.freshIn state).map DocumentRecord.cid).Nodup := by
      rw [Distinct, hexec, hafter]
      simp only [Option.some.injEq, exists_eq_left', RegistryState.cids_mk, List.map_append]
      rfl
    -- what is pushed was not registered before, so only repeats inside the batch can clash
    have hdisjoint : List.Disjoint state.cids ((b.freshIn state).map DocumentRecord.cid) := by
      intro c hc hfresh
      obtain ⟨r, hr, rfl⟩ := List.mem_map.1 hfresh
      have := (List.mem_filter.1 hr).2
      simp only [List.mem_toFinset, decide_eq_true_eq] at this
      exact this hc
    rw [hdistinct, List.nodup_append', nodup_freshIn_iff hvalid hcovered, Batch.KeepsDistinct]
    exact ⟨fun hn ↦ Or.inr hn.2.1, fun hk ↦ ⟨h, hk.resolve_left hacc, hdisjoint⟩⟩

/-- Every step of the run meets the condition, in the state it is applied to. -/
def StepsKeepDistinct (P : Platform) : Account P → List Batch → Prop
  | _, [] => True
  | registry, b :: batches =>
    (∀ state, registry.state = some state → b.KeepsDistinct P state) ∧
      StepsKeepDistinct P (execute registry b) batches

/-- **The run**: from a state with distinct CIDs, every state reached has distinct CIDs exactly when
every step meets the condition. -/
theorem distinct_run_iff (hstate : registry.state = some state) (h : state.cids.Nodup) :
    (∀ done, done <+: batches → Distinct (run registry done)) ↔
      StepsKeepDistinct P registry batches := by
  induction batches generalizing registry state with
  | nil =>
    simp only [List.prefix_nil, forall_eq, StepsKeepDistinct, iff_true]
    exact ⟨state, hstate, h⟩
  | cons b batches ih =>
    have hstep : (∀ s, registry.state = some s → b.KeepsDistinct P s) ↔
        Distinct (execute registry b) := by
      rw [distinct_execute_iff hstate h]
      refine ⟨fun hk ↦ hk state hstate, fun hk s hs ↦ ?_⟩
      rwa [← Option.some.inj (hstate.symm.trans hs)]
    rw [StepsKeepDistinct, hstep]
    constructor
    · intro hall
      have hfirst : Distinct (execute registry b) := hall [b] ⟨batches, rfl⟩
      obtain ⟨next, hnext, hnodup⟩ := hfirst
      -- the rest of the run starts from the state after the first step
      refine ⟨⟨next, hnext, hnodup⟩, (ih hnext hnodup).1 fun done hdone ↦ ?_⟩
      exact hall (b :: done) (List.cons_prefix_cons.2 ⟨rfl, hdone⟩)
    · rintro ⟨⟨next, hnext, hnodup⟩, hrest⟩ done hdone
      cases done with
      | nil => exact ⟨state, hstate, h⟩
      | cons b' done =>
        obtain ⟨rfl, hdone'⟩ := List.cons_prefix_cons.1 hdone
        exact (ih hnext hnodup).2 hrest done hdone'

/-- **Uniqueness on the ledger.** From the account `initialize` writes, every state a run reaches
has pairwise distinct CIDs exactly when no step is a batch that the program accepts and that repeats
an unregistered CID. -/
theorem distinct_run_initialized_iff (hinit : initializeAccount = .ok registry)
    (batches : List Batch) :
    (∀ done, done <+: batches → Distinct (run registry done)) ↔
      StepsKeepDistinct P registry batches :=
  distinct_run_iff (state_of_initializeAccount hinit) List.nodup_nil

theorem initializeAccount_sample : initializeAccount = .ok Account.emptyRegistry := by decide

/-- The program accepts a batch with one CID twice, and then holds two records of it. -/
theorem not_distinct_run_repeatedCid :
    initializeAccount = .ok Account.emptyRegistry ∧
      ¬ Distinct (run Account.emptyRegistry [repeatedCid]) := by
  refine ⟨initializeAccount_sample, ?_⟩
  have hstep : Distinct (execute Account.emptyRegistry repeatedCid) ↔
      repeatedCid.KeepsDistinct Account.samplePlatform ⟨[]⟩ :=
    distinct_execute_iff Account.emptyRegistry_state List.nodup_nil
  have hcovered : repeatedCid.CoveredIn ⟨[]⟩ := Batch.EqualLengths.coveredIn (by decide) _
  rw [run, List.foldl_cons, List.foldl_nil, hstep, Batch.KeepsDistinct, Batch.RejectedIn]
  rintro ((hover | hinvalid | huncovered | hfull) | hfresh)
  · exact absurd hover (by decide)
  · exact absurd hinvalid (by decide)
  · exact huncovered hcovered
  · exact absurd hfull (by decide)
  · exact absurd hfresh (by decide)

/-- A run of one batch with two different CIDs keeps the CIDs distinct. -/
theorem distinct_run_twoCids : Distinct (run Account.emptyRegistry [twoCids]) := by
  have hsteps : StepsKeepDistinct Account.samplePlatform Account.emptyRegistry [twoCids] := by
    refine ⟨fun state hstate ↦ ?_, trivial⟩
    obtain rfl := Option.some.inj (hstate.symm.trans Account.emptyRegistry_state)
    exact Or.inr (by decide +kernel)
  exact (distinct_run_initialized_iff initializeAccount_sample [twoCids]).2 hsteps _
    (List.prefix_refl _)

/-! ### First write wins -/

/-- The record a query finds under a CID: the first one. -/
def lookup (state : RegistryState) : CidBytes → Option DocumentRecord :=
  fun c ↦ state.records.find? fun r ↦ r.cid = c

/-- The records of the batches that succeed along a run, in the order they were submitted. -/
def accepted : Account P → List Batch → List DocumentRecord
  | _, [] => []
  | registry, b :: batches =>
    (if (anchorBatch registry b).isOk then b.records else []) ++
      accepted (execute registry b) batches

/-- Pushing every unregistered entry is a first-write-wins update of what queries see: the entries
the program pushes twice do not show. -/
theorem lookup_append_freshIn (state : RegistryState) (b : Batch) :
    lookup ⟨state.records ++ b.freshIn state⟩ =
      b.records.firstWins DocumentRecord.cid (lookup state) := by
  funext c
  rw [lookup, List.find?_append, List.firstWins, lookup]
  cases hfound : state.records.find? fun r ↦ r.cid = c with
  | some r => rw [Option.some_or, Option.some_or]
  | none =>
    have hnew : c ∉ state.cids.toFinset := by
      rw [List.mem_toFinset, RegistryState.cids, List.mem_map]
      rintro ⟨r, hr, hc⟩
      exact absurd (List.find?_eq_none.1 hfound r hr) (by simpa using hc)
    rw [Option.none_or, Option.none_or, Batch.freshIn, List.find?_filter]
    congr 1
    funext r
    rcases eq_or_ne r.cid c with rfl | hne
    · simpa using hnew
    · simp [hne]

/-- **The step refines the map**: one instruction is a first-write-wins update, by the batch's
records if it succeeds and by nothing otherwise. -/
theorem lookup_execute (hstate : registry.state = some state)
    (hstate' : (execute registry b).state = some state') :
    lookup state' = (if (anchorBatch registry b).isOk then b.records else []).firstWins
      DocumentRecord.cid (lookup state) := by
  rcases execute_cases hstate b with ⟨hnot, hsame⟩ | ⟨registry', hok, hexec, -, -, hafter⟩
  · rw [hsame, hstate, Option.some.injEq] at hstate'
    rw [hnot, ← hstate']
    funext c
    simp [List.firstWins]
  · rw [hexec, hafter, Option.some.injEq] at hstate'
    rw [hok, ← hstate', lookup_append_freshIn, Outcome.isOk_ok, if_pos rfl]

/-- **The run refines the map**: queries see a first-write-wins map of the accepted entries. -/
theorem lookup_run (hstate : registry.state = some state)
    (hstate' : (run registry batches).state = some state') :
    lookup state' = (accepted registry batches).firstWins DocumentRecord.cid (lookup state) := by
  induction batches generalizing registry state with
  | nil =>
    rw [run_nil, hstate, Option.some.injEq] at hstate'
    rw [← hstate']
    funext c
    simp [accepted, List.firstWins]
  | cons b batches ih =>
    obtain ⟨middle, hmiddle, -⟩ := exists_state_execute hstate b
    rw [ih hmiddle hstate', lookup_execute hstate hmiddle, accepted, List.firstWins_append]

theorem queryByCid_run (hinit : initializeAccount = .ok registry) (batches : List Batch)
    (c : CidBytes) :
    queryByCid (run registry batches) c =
      .ok ((accepted registry batches).find? fun r ↦ r.cid = c) := by
  have hstate : registry.state = some ⟨[]⟩ := state_of_initializeAccount hinit
  obtain ⟨state', hstate', -⟩ := exists_state_run hstate batches
  have hlookup := congrFun (lookup_run hstate hstate') c
  rw [lookup, List.firstWins, lookup, List.find?_nil, Option.none_or] at hlookup
  rw [queryByCid_of_state hstate', hlookup]

theorem accepted_append (registry : Account P) (bs cs : List Batch) :
    accepted registry (bs ++ cs) = accepted registry bs ++ accepted (run registry bs) cs := by
  induction bs generalizing registry with
  | nil => rfl
  | cons b bs ih => rw [List.cons_append, accepted, ih, accepted, List.append_assoc]; rfl

/-- Every CID of a successful batch is registered afterwards. -/
theorem exists_mem_cids_of_ok (hstate : registry.state = some state)
    (hok : (anchorBatch registry b).isOk = true)
    (hstate' : (execute registry b).state = some state') {c : List UInt8}
    (hc : c ∈ b.entriesCids) : ∃ cid ∈ state'.cids, cid.toList = c := by
  rcases execute_cases hstate b with ⟨hnot, -⟩ | ⟨registry', -, hexec, hvalid, hcovered, hafter⟩
  · rw [hok] at hnot
    cases hnot
  · rw [hexec, hafter, Option.some.injEq] at hstate'
    rw [← hstate', RegistryState.cids_mk, List.map_append]
    by_cases hknown : c ∈ state.cids.map Bytes.toList
    · obtain ⟨cid, hcid, rfl⟩ := List.mem_map.1 hknown
      exact ⟨cid, List.mem_append_left _ hcid, rfl⟩
    · have hmem : c ∈ (b.freshIn state).map (·.cid.toList) := by
        rw [map_freshIn hvalid hcovered]
        exact List.mem_filter.2 ⟨hc, by simpa using hknown⟩
      obtain ⟨r, hr, rfl⟩ := List.mem_map.1 hmem
      exact ⟨r.cid, List.mem_append_right _ (List.mem_map_of_mem hr), rfl⟩

/-- **Append-only, first write wins.** Along every run from an initialised registry the record list
before each instruction is a prefix of the one after it; every CID of a batch that succeeds is found
afterwards; a query answers with the first record ever accepted under its CID; and an answer, once
given, is the answer after every later instruction. -/
theorem append_only_first_write_wins (hinit : initializeAccount = .ok registry)
    (batches : List Batch) :
    (∀ b, ∃ state state', (run registry batches).state = some state ∧
      (run registry (batches ++ [b])).state = some state' ∧ state.records <+: state'.records) ∧
    (∀ b, (anchorBatch (run registry batches) b).isOk = true → ∀ c ∈ b.entriesCids,
      ∃ cid : CidBytes, cid.toList = c ∧
        ∃ r, queryByCid (run registry (batches ++ [b])) cid = .ok (some r)) ∧
    (∀ c, queryByCid (run registry batches) c =
      .ok ((accepted registry batches).find? fun r ↦ r.cid = c)) ∧
    ∀ c r, queryByCid (run registry batches) c = .ok (some r) →
      ∀ later, queryByCid (run registry (batches ++ later)) c = .ok (some r) := by
  obtain ⟨state, hstate, -⟩ := exists_state_run (state_of_initializeAccount hinit) batches
  refine ⟨fun b ↦ ?_, fun b hok c hc ↦ ?_, queryByCid_run hinit batches, fun c r hr later ↦ ?_⟩
  · obtain ⟨state', hstate', hprefix⟩ := exists_state_execute hstate b
    exact ⟨state, state', hstate, by rw [run_append]; exact hstate', hprefix⟩
  · obtain ⟨state', hstate', -⟩ := exists_state_execute hstate b
    obtain ⟨cid, hcid, hbytes⟩ := exists_mem_cids_of_ok hstate hok hstate' hc
    obtain ⟨r, hr, hrc⟩ := List.mem_map.1 hcid
    have hfound : (state'.records.find? fun r ↦ r.cid = cid).isSome = true :=
      List.find?_isSome.2 ⟨r, hr, by simpa using hrc⟩
    obtain ⟨r', hr'⟩ := Option.isSome_iff_exists.1 hfound
    refine ⟨cid, hbytes, r', ?_⟩
    rw [run_append, queryByCid_of_state (show (run (run registry batches) [b]).state = some state'
      from hstate'), hr']
  · rw [queryByCid_run hinit, Outcome.ok.injEq] at hr
    rw [queryByCid_run hinit, accepted_append, List.find?_append, hr, Option.some_or]

/-- After a batch with two different CIDs and another that repeats the first, the first CID is found
with the time of the first batch. -/
theorem append_only_first_write_wins_twoCids :
    queryByCid (run Account.emptyRegistry ([twoCids] ++ [repeatedCid]))
      (Bytes.replicate CID_BYTES 1) =
      .ok (some ⟨Bytes.replicate CID_BYTES 1, Bytes.replicate 32 0, 1⟩) := by
  obtain ⟨-, -, -, hfinal⟩ := append_only_first_write_wins initializeAccount_sample [twoCids]
  exact hfinal _ _ (by decide +kernel) [repeatedCid]

end Whistleblower.CidRegistryProgram
