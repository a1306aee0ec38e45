import Whistleblower.BatchAnchor.Peers

/-!
# No document is registered twice

The registry program skips what was registered before a batch, but not what the batch itself
repeats. So duplicates on-chain come from repeats inside one batch, and from nothing else: races
between anchorers, restarts and repeated submissions do not make any.

An anchorer's batch repeats a key only if its queue does. The pact of this module says just that
much: the queues have distinct keys, and so has the registry. Nothing is asked of the state DB, and
a run has nothing to remember.
-/

namespace Whistleblower.BatchAnchor

open CidRegistryProgram

variable {P : Platform} {K : Crates} {path : String} {w w' : World P} {msgs : List DeliveryMsg}
  {entries : List AnchorEntry}

/-! ### Keys -/

/-- The registry key a message stands for, if its CID can be decoded. -/
def keyOf (K : Crates) (m : DeliveryMsg) : Option CidBytes :=
  (decodeCid K m.payload.cid).toOption

theorem keyOf_eq_some {m : DeliveryMsg} {c : CidBytes} :
    keyOf K m = some c ↔ decodeCid K m.payload.cid = .ok c := by
  rw [keyOf]
  cases decodeCid K m.payload.cid with
  | ok c' => exact ⟨fun h ↦ congrArg Except.ok (Option.some.inj h),
      fun h ↦ congrArg some (Except.ok.inj h)⟩
  | error e => simp only [Except.toOption, reduceCtorEq]

/-- The keys of some messages. -/
def keys (K : Crates) (msgs : List DeliveryMsg) : List CidBytes :=
  msgs.filterMap (keyOf K)

/-- The entries that are collected from a list of messages have the keys of the messages. -/
theorem map_fst_filterMap_entryOf (msgs : List DeliveryMsg) :
    (msgs.filterMap (entryOf K ∅)).map Prod.fst = keys K msgs := by
  rw [keys, List.map_filterMap]
  refine List.filterMap_congr fun m _ ↦ ?_
  rw [entryOf, if_neg (Finset.notMem_empty _), keyOf]
  cases decodeCid K m.payload.cid <;> rfl

theorem nodup_keys_singleton (m : DeliveryMsg) : (keys K [m]).Nodup := by
  rw [keys, List.filterMap_cons]
  split
  · exact List.nodup_nil
  · exact List.nodup_singleton _

/-- A page of a queue with distinct keys has distinct keys. -/
theorem nodup_keys_page {queue : List DeliveryMsg} (h : (keys K queue).Nodup) (cursor : UInt64)
    (n : ℕ) : (keys K (sortBySeq ((queue.filter (cursor < ·.seq)).take n))).Nodup := by
  have hsub : ((queue.filter (cursor < ·.seq)).take n).Sublist queue :=
    (List.take_sublist ..).trans List.filter_sublist
  have hperm : (sortBySeq ((queue.filter (cursor < ·.seq)).take n)).Perm
      ((queue.filter (cursor < ·.seq)).take n) := List.mergeSort_perm ..
  exact (hperm.filterMap _).nodup_iff.2 (h.sublist (hsub.filterMap _))

/-! ### The pact -/

/-- The queue can be read, and its messages stand for different documents. -/
def QueueOnce (K : Crates) (text : String) : Prop :=
  ∃ msgs, messages K text = some msgs ∧ (keys K msgs).Nodup

/-- Nothing is there twice, neither in the queue nor in the registry. -/
structure Once (K : Crates) (w : World P) : Prop where
  queue : QueueOnce K w.queue
  registry : Distinct w.registry

/-- Outsiders who repeat nothing inside a batch, and publish nothing a second time. -/
def repeatsNothing (K : Crates) (w w' : World P) : Prop :=
  (∃ b : Batch, b.entriesCids.Nodup ∧ w' = { w with registry := execute w.registry b }) ∨
    ∃ text, QueueOnce K text ∧ w' = { w with queue := text }

/-- **A batch without repeats** keeps the registry without duplicates, whether it lands or not. -/
theorem distinct_execute_of_nodup {registry : Account P} (h : Distinct registry) {b : Batch}
    (hb : b.entriesCids.Nodup) : Distinct (execute registry b) := by
  obtain ⟨state, hstate, hnodup⟩ := h
  exact (distinct_execute_iff hstate hnodup).2 (Or.inr (hb.filter _))

theorem once_of_repeatsNothing (hinv : Once K w) (h : repeatsNothing K w w') : Once K w' := by
  rcases h with ⟨b, hb, rfl⟩ | ⟨text, htext, rfl⟩
  · exact ⟨hinv.queue, distinct_execute_of_nodup hinv.registry hb⟩
  · exact ⟨htext, hinv.registry⟩

/-- What everybody keeps to: that it stays so. -/
def once (K : Crates) (P : Platform) : Pact (P := P) (repeatsNothing K) where
  Inv := Once K
  Evolves w w' := Once K w → Once K w'
  refl _ h := h
  trans h h' hw := h' (h hw)
  inv_of_evolves hw h := h hw
  evolves_of_others _ h hw := once_of_repeatsNothing hw h
  elsewhere hw h _ _ hv := ⟨hv.queue, (h hw).registry⟩

/-! ### The stages -/

/-- An assertion that does not speak of the world. -/
theorem stable_const (φ : Prop) : ((once K P).contract path).Stable fun _ ↦ φ :=
  fun _ _ h ↦ h

theorem nodup_entriesCids_batchOf (h : (entries.map Prod.fst).Nodup) (timestamp : UInt64) :
    (batchOf entries timestamp).entriesCids.Nodup := by
  have hinj : Function.Injective (Bytes.toList : CidBytes → List UInt8) := fun _ _ ↦ Bytes.ext
  have hmap : (batchOf entries timestamp).entriesCids =
      (entries.map Prod.fst).map Bytes.toList := by
    rw [List.map_map]
    rfl
  rw [hmap]
  exact h.map hinj

/-- A call of `spel` for entries without repeats. -/
theorem once_of_spel {cli : Cfg} {timestamp : UInt64} {r : Except String Output}
    (hne : entries ≠ []) (hentries : (entries.map Prod.fst).Nodup) (hinv : Once K w)
    (h : performs path (.spel (spelCommand cli entries timestamp)) w r w') : Once K w' := by
  rcases spel_cases hne h with rfl | rfl
  · exact hinv
  · exact ⟨hinv.queue, distinct_execute_of_nodup hinv.registry
      (nodup_entriesCids_batchOf hentries timestamp)⟩

/-- **The stages of a run over a queue without repeats.** All there is to say is what has been
polled and collected. -/
def onceStages {cli : Cfg} (hsource : stripPrefix "file:" cli.deliverySource = some path)
    (args : RunArgs) : Stages ((once K P).contract path) K cli args where
  Ready _ _ := True
  Polled _ msgs _ := (keys K msgs).Nodup
  Gathered _ _ entries _ := (entries.map Prod.fst).Nodup
  Submitted _ _ _ _ := True
  Settled _ _ _ := True
  load := triple_loadCursor_of fun w r w' _ h ↦ ⟨h.1, fun _ _ ↦ trivial⟩
  poll cursor := by
    refine triple_pollDelivery_of hsource (stable_const True) (T := fun text w ↦ text = w.queue)
      (fun w r w' _ h ↦ ⟨h.1, fun text hr ↦ h.2 text hr rfl⟩) ?_ fun _ _ _ ↦ List.nodup_nil
    rintro w text msgs hinv - rfl hpoll
    obtain ⟨queue, hqueue, hnodup⟩ := hinv.queue
    rw [pollText_of_messages K hqueue] at hpoll
    obtain rfl := Except.ok.inj hpoll
    exact nodup_keys_page hnodup _ _
  wait cursor := (triple_idle (stable_const _)
    fun w r w' (h : performs path (.sleep 2) w r w') ↦ h).weaken (fun _ _ h ↦ h)
      fun _ _ _ _ ↦ trivial
  gather cursor msgs := by
    have hcount : ∀ (cid : String) (w : World P) (r : Except String ℕ) (w' : World P), Once K w →
        performs path (.countAnchored cid) w r w' →
        w' = w ∧ ∀ n, r = .ok n → 0 < n → True := fun _ _ _ _ _ h ↦ ⟨h.1, fun _ _ _ ↦ trivial⟩
    refine (triple_gather_of (R := fun _ _ ↦ True) (fun _ ↦ stable_const True) hcount
      (stable_const ((keys K msgs).Nodup)) msgs cursor []).weaken (fun _ _ h ↦ h) ?_
    rintro ⟨newCursor, entries⟩ w - ⟨hnewest, hnodup, kept, hsub, heq, -⟩
    obtain rfl : entries = kept.filterMap (entryOf K ∅) := heq
    refine ⟨hnewest, ?_⟩
    rw [map_fst_filterMap_entryOf]
    exact hnodup.sublist (hsub.filterMap _)
  settled _ _ _ _ _ := trivial
  clock cursor msgs entries := triple_idle (stable_const _)
    fun w r w' (h : performs path .now w r w') ↦ h
  submit cursor msgs entries timestamp hne := by
    refine triple_anchorViaSpel_of (stable_const _) fun w r w' hinv hentries hperforms ↦ ?_
    have hspel : performs path (.spel (spelCommand cli entries timestamp)) w r w' := hperforms
    have hinv' : Once K w' := once_of_spel hne hentries hinv hspel
    exact ⟨hinv', fun _ ↦ hinv', fun _ _ _ ↦ trivial⟩
  record cursor msgs entries := by
    refine triple_markAll_of (stable_const True) entries fun e _ w r w' hinv _ hperforms ↦ ?_
    rcases hperforms with ⟨-, rfl⟩ | ⟨_, -, rfl⟩
    · exact ⟨⟨hinv.queue, hinv.registry⟩, fun h ↦ ⟨h.queue, h.registry⟩, trivial⟩
    · exact ⟨hinv, fun h ↦ h, trivial⟩
  save cursor msgs := by
    refine triple_saveCursor_of (stable_const True) fun w r w' hinv _ hperforms ↦ ?_
    rcases hperforms with ⟨-, rfl⟩ | ⟨_, -, rfl⟩
    · exact ⟨⟨hinv.queue, hinv.registry⟩, fun h ↦ ⟨h.queue, h.registry⟩, fun _ ↦ trivial⟩
    · exact ⟨hinv, fun h ↦ h, fun _ ↦ trivial⟩

/-! ### The result -/

variable {δ ι : Type} [DecidableEq δ] [DecidableEq ι]

/-- **No document is registered twice.** Let every queue carry each document once, however many
queues carry it, and let outsiders repeat nothing inside a batch. Then, whatever runs are started at
whatever sites, wherever they are cut off, whichever calls of theirs fail and in whatever order they
interleave: the registry has no two records of one document. -/
theorem registered_once [Nonempty δ] (K : Crates) (P : Platform) (path : δ → String) (home : ι → δ)
    {c : Parties.Config Op.Ret String (Option Unit) (Network P δ) ι}
    (hreach : (network (repeatsNothing K) path home).Reachable
      (fun i ↦ StartsRun K (path (home i)))
      (fun n ↦ Distinct n.registry ∧ ∀ d, QueueOnce K (n.site d).queue) c) :
    Distinct c.1.registry := by
  have hstarts : ∀ i p, StartsRun K (path (home i)) p →
      ((once K P).contract (path (home i))).Triple (fun _ ↦ True) p fun _ _ ↦ True := by
    rintro i p ⟨cli, args, n, hsource, hdry, rfl⟩
    exact (onceStages hsource args).triple_run hdry n
  obtain ⟨d⟩ := ‹Nonempty δ›
  have hinv : Once K (c.1.worldAt d) :=
    ((once K P).sound hstarts (fun n hn d ↦ ⟨hn.2 d, hn.1⟩) hreach).1 d
  exact hinv.registry

/-- Two anchorers on one queue register its document once. -/
theorem registered_once_pair : ∃ n : Network Account.samplePlatform Unit,
    sampleCid ∈ (n.worldAt ()).db.anchored ∧ Distinct n.registry := by
  obtain ⟨n, ps, hrow, hreach⟩ := exists_reachable_pair
  have hinitial : Distinct quietNetwork.registry ∧
      ∀ d, QueueOnce sampleCrates (quietNetwork.site d).queue :=
    ⟨⟨_, Account.emptyRegistry_state, List.nodup_nil⟩,
      fun _ ↦ ⟨_, messages_quietQueue, nodup_keys_singleton _⟩⟩
  exact ⟨n, hrow, registered_once sampleCrates Account.samplePlatform (fun _ : Unit ↦ "queue")
    (fun _ : Bool ↦ ()) (hreach _ (fun n ↦ Distinct n.registry ∧ ∀ d, QueueOnce sampleCrates
      (n.site d).queue) hinitial)⟩

end Whistleblower.BatchAnchor
