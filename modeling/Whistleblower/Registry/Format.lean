import Whistleblower.Registry.Ledger

/-!
# The bytes of the registry account

The borsh format of the registry state has no redundancy: the data that decodes is a count of `n`
followed by `86 * n` bytes, any such data does, and it is then the one encoding of what it decodes
to (`tryFromSlice_iff`). So an account is its state, byte for byte, whoever has written it.

This is what makes a submission repeatable on the ledger. A batch that has been accepted registers
all of its CIDs, so to submit it once more writes the state back as it is, and the account stays the
same: wherever a run repeats an accepted batch, the repetition can be left out
(`run_eq_of_repeated`).
-/

namespace Whistleblower

namespace RegistryState

variable {bs : List UInt8} {state : RegistryState}

theorem recordCodec_canonical : recordCodec.Canonical :=
  Codec.map_canonical (Codec.pair_canonical (Codec.bytes_canonical _)
    (Codec.pair_canonical (Codec.bytes_canonical _) Codec.u64_canonical)) _ _ _ fun _ ↦ rfl

/-- Any 86 bytes are a record. -/
theorem recordCodec_readsAny : recordCodec.ReadsAny 86 :=
  Codec.map_readsAny (Codec.pair_readsAny (Codec.bytes_readsAny _)
    (Codec.pair_readsAny (Codec.bytes_readsAny _) Codec.u64_readsAny)) _ _ _

theorem codec_canonical : codec.Canonical :=
  Codec.map_canonical (Codec.vec_canonical recordCodec_canonical) _ _ _ fun _ ↦ rfl

/-- **What decodes is what is written.** -/
theorem tryFromSlice_eq_some : tryFromSlice bs = some state ↔ state.toVec = some bs :=
  codec_canonical.decodeAll_eq_some

/-- **The format of the registry account.** Account data is accepted exactly if its length is right
for the count in front, and it is accepted as a state exactly if it is the encoding of that
state. -/
theorem tryFromSlice_iff (bs : List UInt8) :
    ((tryFromSlice bs).isSome ↔ bs.length = 4 + 86 * ofLeBytes (bs.take 4)) ∧
      ∀ state, tryFromSlice bs = some state ↔ state.toVec = some bs := by
  refine ⟨?_, fun state ↦ tryFromSlice_eq_some⟩
  rw [tryFromSlice, codec, Codec.decodeAll_map, Option.isSome_map]
  exact Codec.isSome_decodeAll_vec recordCodec_hasWidth recordCodec_canonical recordCodec_readsAny

end RegistryState

namespace Account

variable {P : Platform} {account account' : Account P} {state : RegistryState}

/-- **An account is its state.** -/
theorem eq_of_state (h : account.state = some state) (h' : account'.state = some state) :
    account = account' := by
  obtain ⟨⟨bs, hle⟩⟩ := account
  obtain ⟨⟨bs', hle'⟩⟩ := account'
  have hbs := RegistryState.tryFromSlice_eq_some.1 h
  obtain rfl := Option.some.inj (hbs.symm.trans (RegistryState.tryFromSlice_eq_some.1 h'))
  rfl

end Account

namespace CidRegistryProgram

open CidRegistry

variable {P : Platform} {registry : Account P} {state : RegistryState} {b : Batch}

/-- Of a batch whose CIDs are all registered, nothing is new. -/
theorem freshIn_eq_nil_of_registered (h : ∀ c ∈ b.entriesCids, ∃ cid ∈ state.cids, cid.toList = c) :
    b.freshIn state = [] := by
  refine List.filter_eq_nil_iff.2 fun r hr hfresh ↦ ?_
  have hlisted : r.cid.toList ∈ b.entries.map Prod.fst :=
    mem_cids_recordsOf.1 (List.mem_map_of_mem hr)
  have hcid : r.cid.toList ∈ b.entriesCids := by
    rw [Batch.entries] at hlisted
    obtain ⟨p, hp, hfst⟩ := List.mem_map.1 hlisted
    rw [← hfst]
    exact (List.of_mem_zip hp).1
  obtain ⟨cid, hmem, hbytes⟩ := h _ hcid
  obtain rfl : cid = r.cid := Bytes.ext hbytes
  exact of_decide_eq_true hfresh (List.mem_toFinset.2 hmem)

/-- **A batch with nothing new leaves the account as it is**, byte for byte. -/
theorem execute_eq_self (hstate : registry.state = some state)
    (h : ∀ c ∈ b.entriesCids, ∃ cid ∈ state.cids, cid.toList = c) :
    execute registry b = registry := by
  rcases execute_cases hstate b with ⟨-, hsame⟩ | ⟨registry', -, hexec, -, -, hafter⟩
  · exact hsame
  · rw [freshIn_eq_nil_of_registered h, List.append_nil] at hafter
    rw [hexec]
    exact Account.eq_of_state hafter hstate

/-- **Repeated submissions can be left out.** Wherever a run repeats a batch that has been accepted
before, it leads to the same account, byte for byte, as the run without the repetition. -/
theorem run_eq_of_repeated (hstate : registry.state = some state)
    (before between later : List Batch)
    (hok : (anchorBatch (run registry before) b).isOk = true) :
    run registry (before ++ b :: between ++ b :: later) =
      run registry (before ++ b :: between ++ later) := by
  obtain ⟨state₁, hstate₁, -⟩ := exists_state_run hstate before
  obtain ⟨state₂, hstate₂, -⟩ := exists_state_execute hstate₁ b
  obtain ⟨state₃, hstate₃, hstart⟩ := exists_state_run hstate₂ between
  have hrun : run registry (before ++ b :: between) =
      run (execute (run registry before) b) between := by
    rw [run_append]
    rfl
  rw [← hrun] at hstate₃
  have hregistered : ∀ c ∈ b.entriesCids, ∃ cid ∈ state₃.cids, cid.toList = c := by
    intro c hc
    obtain ⟨cid, hmem, hbytes⟩ := exists_mem_cids_of_ok hstate₁ hok hstate₂ hc
    exact ⟨cid, (hstart.map DocumentRecord.cid).subset hmem, hbytes⟩
  have hsame := execute_eq_self hstate₃ hregistered
  calc run registry (before ++ b :: between ++ b :: later)
      = run (execute (run registry (before ++ b :: between)) b) later := by
        rw [run_append]
        rfl
    _ = run registry (before ++ b :: between ++ later) := by rw [hsame, ← run_append]

/-- A batch of one document. -/
def oneCid (i : UInt8) : Batch where
  entriesCids := [(Bytes.replicate CID_BYTES i).toList]
  entriesMetaHashes := [Bytes.replicate 32 0]
  entriesTimestamps := [3]

/-- A batch of two documents, one of which is there already, is submitted again after a third
document and before a fourth. -/
theorem run_eq_of_repeated_twoCids :
    run Account.emptyRegistry [oneCid 1, twoCids, oneCid 3, twoCids, oneCid 4] =
        run Account.emptyRegistry [oneCid 1, twoCids, oneCid 3, oneCid 4] ∧
      (run Account.emptyRegistry [oneCid 1, twoCids, oneCid 3, oneCid 4]).state.map
        RegistryState.cids = some ([1, 2, 3, 4].map fun i ↦ Bytes.replicate CID_BYTES i) :=
  ⟨run_eq_of_repeated Account.emptyRegistry_state [oneCid 1] [oneCid 3] [oneCid 4]
    (by decide +kernel), by decide +kernel⟩

end CidRegistryProgram

end Whistleblower
