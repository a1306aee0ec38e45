import Whistleblower.Registry.Library

/-!
# What `apply_anchor` means over a whole run

The reference says what a registry is for: it keeps the records it has and takes, in submission
order, the first entry of every CID it does not have. A run of `apply_anchor` over any number of
batches computes the reference of the concatenated batches (`foldlM_applyAnchor`), so where the
submissions are cut into batches leaves no trace.
-/

namespace Whistleblower.CidRegistry

/-- The state after the entries have been offered: the records there were, then the first
occurrence of each CID not among them. -/
def reference (state : RegistryState) (entries : List Entry) : RegistryState :=
  ⟨state.records ++ (recordsOf entries).freshBy DocumentRecord.cid state.cids.toFinset⟩

/-- A batch within the size limit whose CIDs all have 46 bytes. -/
def Acceptable (entries : List Entry) : Prop :=
  entries.length ≤ MAX_BATCH_SIZE ∧ ValidCids (entries.map Prod.fst)

instance (entries : List Entry) : Decidable (Acceptable entries) :=
  inferInstanceAs (Decidable (_ ∧ _))

variable {state : RegistryState} {entries : List Entry} {batches : List (List Entry)}

@[simp] theorem reference_nil : reference state [] = state := by
  rw [reference, recordsOf_nil, List.freshBy_nil, List.append_nil]

/-- The registered CIDs after a run: those there were and those offered. -/
theorem mem_cids_reference {c : CidBytes} :
    c ∈ (reference state entries).cids ↔
      c ∈ state.cids ∨ c ∈ (recordsOf entries).map DocumentRecord.cid := by
  have h : c ∈ state.cids.toFinset ∨
        c ∈ ((recordsOf entries).freshBy DocumentRecord.cid state.cids.toFinset).map
          DocumentRecord.cid ↔
      c ∈ state.cids.toFinset ∨ c ∈ (recordsOf entries).map DocumentRecord.cid :=
    List.mem_or_mem_keys_freshBy
  rw [List.mem_toFinset] at h
  rw [← h, reference, RegistryState.cids_mk, List.map_append, List.mem_append, RegistryState.cids]

/-- **Offering in two parts is offering at once.** -/
theorem reference_append (state : RegistryState) (es fs : List Entry) :
    reference (reference state es) fs = reference state (es ++ fs) := by
  have hseen : (reference state es).cids.toFinset =
      state.cids.toFinset ∪
        (((recordsOf es).freshBy DocumentRecord.cid state.cids.toFinset).map
          DocumentRecord.cid).toFinset := by
    rw [reference, RegistryState.cids_mk, List.map_append, List.toFinset_append,
      RegistryState.cids]
  rw [reference, hseen, reference, reference, recordsOf_append, List.freshBy_append,
    List.append_assoc]

/-- Distinct CIDs stay distinct. -/
theorem nodup_cids_reference (h : state.cids.Nodup) : (reference state entries).cids.Nodup := by
  rw [reference, RegistryState.cids_mk, List.map_append]
  refine List.Nodup.append h (List.nodup_map_freshBy _ _ _) ?_
  intro c hc hfresh
  obtain ⟨r, hr, rfl⟩ := List.mem_map.1 hfresh
  exact List.key_notMem_of_mem_freshBy hr (List.mem_toFinset.2 hc)

/-- Offering only registered CIDs changes nothing. -/
theorem reference_of_subset (h : ∀ r ∈ recordsOf entries, r.cid ∈ state.cids) :
    reference state entries = state := by
  rw [reference, List.freshBy_eq_nil fun r hr ↦ List.mem_toFinset.2 (h r hr), List.append_nil]

/-- One acceptable batch. -/
theorem applyAnchor_of_acceptable (h : Acceptable entries) :
    applyAnchor state entries = .ok (reference state entries) :=
  applyAnchor_eq_ok.2 ⟨h.1, h.2, rfl⟩

/-- **A run of acceptable batches computes the reference of their concatenation.** -/
theorem foldlM_applyAnchor (state : RegistryState) (h : ∀ b ∈ batches, Acceptable b) :
    batches.foldlM applyAnchor state = .ok (reference state batches.flatten) := by
  induction batches generalizing state with
  | nil =>
    rw [List.flatten_nil, reference_nil]
    rfl
  | cons b batches ih =>
    rw [List.foldlM_cons, applyAnchor_of_acceptable (h b List.mem_cons_self), Outcome.ok_bind,
      ih _ fun b' hb' ↦ h b' (List.mem_cons_of_mem _ hb'), List.flatten_cons, reference_append]

/-- A batch that was part of the run is registered already. -/
theorem applyAnchor_again {b : List Entry} (hb : b ∈ batches) (h : Acceptable b) :
    applyAnchor (reference state batches.flatten) b = .ok (reference state batches.flatten) := by
  rw [applyAnchor_of_acceptable h, reference_of_subset]
  intro r hr
  refine mem_cids_reference.2 (Or.inr (mem_cids_recordsOf.2 ?_))
  have hmem : r.cid.toList ∈ b.map Prod.fst := mem_cids_recordsOf.1 (List.mem_map_of_mem hr)
  obtain ⟨e, he, hfst⟩ := List.mem_map.1 hmem
  exact List.mem_map.2 ⟨e, List.mem_flatten.2 ⟨b, hb, he⟩, hfst⟩

/-- **When `apply_anchor` fails**: a batch over the limit, or a CID of the wrong length anywhere. -/
theorem applyAnchor_fails_iff (state : RegistryState) (entries : List Entry) :
    (∃ e, applyAnchor state entries = .err e) ↔
      MAX_BATCH_SIZE < entries.length ∨ ∃ e ∈ entries, e.1.length ≠ CID_BYTES := by
  have hvalid : ValidCids (entries.map Prod.fst) ↔ ¬ ∃ e ∈ entries, e.1.length ≠ CID_BYTES := by
    simp [ValidCids]
  rw [applyAnchor_eq]
  rcases Nat.lt_or_ge MAX_BATCH_SIZE entries.length with hlen | hlen
  · rw [if_pos hlen]
    exact ⟨fun _ ↦ Or.inl hlen, fun _ ↦ ⟨_, rfl⟩⟩
  · rw [if_neg (Nat.not_lt.2 hlen)]
    split
    · next h =>
      refine ⟨fun hfail ↦ ?_, fun hfail ↦ ?_⟩
      · obtain ⟨e, he⟩ := hfail
        cases he
      · rcases hfail with hover | hbad
        · exact absurd hover (Nat.not_lt.2 hlen)
        · exact absurd hbad (hvalid.1 h)
    · next h => exact ⟨fun _ ↦ Or.inr (by_contra fun hbad ↦ h (hvalid.2 hbad)), fun _ ↦ ⟨_, rfl⟩⟩

/-- **The reference meaning of `apply_anchor`.** From a state with distinct CIDs, a run of
acceptable batches yields the initial records followed by the first occurrence of each new CID in
the concatenation of the batches; any other way to cut the same entries gives the same result;
repeating a batch of the run changes nothing; the CIDs stay distinct; and a call fails exactly on a
batch over the limit or with a CID of the wrong length. -/
theorem applyAnchor_reference (state : RegistryState) (hstate : state.cids.Nodup) :
    (∀ batches : List (List Entry), (∀ b ∈ batches, Acceptable b) →
      batches.foldlM applyAnchor state = .ok (reference state batches.flatten) ∧
      (∀ batches' : List (List Entry), (∀ b ∈ batches', Acceptable b) →
        batches'.flatten = batches.flatten →
          batches'.foldlM applyAnchor state = batches.foldlM applyAnchor state) ∧
      (∀ b ∈ batches, applyAnchor (reference state batches.flatten) b =
        .ok (reference state batches.flatten)) ∧
      (reference state batches.flatten).cids.Nodup) ∧
    ∀ (anyState : RegistryState) (entries : List Entry),
      (∃ e, applyAnchor anyState entries = .err e) ↔
        MAX_BATCH_SIZE < entries.length ∨ ∃ e ∈ entries, e.1.length ≠ CID_BYTES := by
  refine ⟨fun batches h ↦ ⟨foldlM_applyAnchor state h, fun batches' h' hflat ↦ ?_,
    fun b hb ↦ applyAnchor_again hb (h b hb), nodup_cids_reference hstate⟩, applyAnchor_fails_iff⟩
  rw [foldlM_applyAnchor state h', foldlM_applyAnchor state h, hflat]

/-- Two batches on an empty registry, with one CID repeated inside the first and again in the
second. -/
theorem applyAnchor_reference_two_batches :
    let c := Bytes.replicate CID_BYTES 1
    let d := Bytes.replicate CID_BYTES 2
    let h := Bytes.replicate 32 0
    [[(c.toList, h, 7), (c.toList, h, 8)], [(d.toList, h, 9), (c.toList, h, 10)]].foldlM applyAnchor
      ⟨[]⟩ = .ok ⟨[⟨c, h, 7⟩, ⟨d, h, 9⟩]⟩ := by
  intro c d h
  exact ((applyAnchor_reference ⟨[]⟩ List.nodup_nil).1
    [[(c.toList, h, 7), (c.toList, h, 8)], [(d.toList, h, 9), (c.toList, h, 10)]] (by decide)).1

end Whistleblower.CidRegistry
