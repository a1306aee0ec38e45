import Whistleblower.BatchAnchor.Duplicates
import Whistleblower.Foundations.Replay
import Whistleblower.Indexer.Encoders

/-!
# The registry follows the topic

What is registered is decided by the topic, not by who anchors. Let every site read the same topic,
each as far as it has been bridged there, and let nobody else write to the registry. Then the
registry holds, under every key, the metadata hash of the **first** message of the topic that has
the key, and it holds the keys of a prefix of the topic. Batch sizes, the number of anchorers, the
moments at which they are cut off and the order in which their transactions land do not show in
it (`registry_follows_topic`).

The argument is the one of `Foundations.Replay`. An anchorer submits a stretch of the topic, behind
a cursor up to which everything is on-chain, and leaves out of it what has a row, which is on-chain
as well. The time a record carries is the anchorer's and is left out of account.
-/

namespace Whistleblower.BatchAnchor

open CidRegistryProgram

variable {P : Platform} {K : Crates} {w w' : World P} {cursor : UInt64} {topic : List DeliveryMsg}
  {msgs : List DeliveryMsg} {entries : List AnchorEntry}

/-! ### The topic and its keys -/

/-- The metadata hash that is anchored for a message. -/
def hashOf (K : Crates) (m : DeliveryMsg) : Hash :=
  metadataHashFromPayload K.sha256 m.payload

/-- The file holds what has been bridged of the topic so far. -/
def Reads (K : Crates) (topic : List DeliveryMsg) (text : String) : Prop :=
  ∃ bridged, messages K text = some bridged ∧ bridged <+: topic

/-- In ascending order, what is behind the cursor comes behind what is not. -/
theorem Ascending.eq_append (h : Ascending topic) (cursor : UInt64) :
    topic = topic.filter (·.seq ≤ cursor) ++ topic.filter (cursor < ·.seq) := by
  have hpairwise := h.pairwise
  clear h
  induction topic with
  | nil => rfl
  | cons m topic ih =>
    obtain ⟨hfirst, hrest⟩ := List.pairwise_cons.1 hpairwise
    rcases le_or_gt m.seq cursor with hle | hgt
    · rw [List.filter_cons_of_pos (by simpa using hle),
        List.filter_cons_of_neg (by simpa using hle), List.cons_append, ← ih hrest]
    · have hnone : topic.filter (·.seq ≤ cursor) = [] := by
        refine List.filter_eq_nil_iff.2 fun n hn hle ↦ ?_
        exact absurd (of_decide_eq_true hle) (hgt.trans (hfirst n hn)).not_ge
      have hall : topic.filter (cursor < ·.seq) = topic :=
        List.filter_eq_self.2 fun n hn ↦ decide_eq_true (hgt.trans (hfirst n hn))
      rw [List.filter_cons_of_neg (by simpa using hgt),
        List.filter_cons_of_pos (by simpa using hgt), hnone, hall, List.nil_append]

/-- **Everything of the topic up to a cursor is on-chain**, since the cursor has not gone beyond
what has been bridged. -/
theorem Handled.registered (h : Handled K cursor w) (htopic : Ascending topic)
    (hreads : Reads K topic w.queue) {m : DeliveryMsg} (hm : m ∈ topic) (hle : m.seq ≤ cursor)
    {c : CidBytes} (hc : keyOf K m = some c) : w.Registered c := by
  obtain ⟨bridged, hbridged, rest, rfl⟩ := hreads
  refine h.covered bridged hbridged m ?_ hle c (keyOf_eq_some.1 hc)
  refine (List.mem_append.1 hm).resolve_right fun hlater ↦ ?_
  rcases h.reached with hzero | ⟨msgs, hmsgs, n, hn, hreached⟩
  · exact absurd (htopic.pos m hm) (hle.trans_eq hzero).not_gt
  · obtain rfl := Option.some.inj (hbridged.symm.trans hmsgs)
    exact absurd (htopic.lt_of_append hn hlater) (hle.trans hreached).not_gt

/-- A page of a site is a stretch of the topic. -/
theorem Page.isPrefix_topic (h : Page K cursor msgs w) (hreads : Reads K topic w.queue) :
    msgs <+: topic.filter (cursor < ·.seq) := by
  obtain ⟨queue, hqueue, -, hstart⟩ := h
  obtain ⟨bridged, hbridged, htopic⟩ := hreads
  obtain rfl := Option.some.inj (hqueue.symm.trans hbridged)
  exact hstart.trans (htopic.filter _)

/-! ### The registry as a map -/

/-- The metadata hash that a query finds under a key. -/
def onChain (registry : Account P) (c : CidBytes) : Option Hash :=
  registry.state.bind fun state ↦ (lookup state c).map DocumentRecord.metadataHash

theorem onChain_of_state {registry : Account P} {state : RegistryState}
    (h : registry.state = some state) (c : CidBytes) :
    onChain registry c = (lookup state c).map DocumentRecord.metadataHash := by
  rw [onChain, h, Option.bind_some]

theorem isSome_onChain {c : CidBytes} (h : w.Registered c) : (onChain w.registry c).isSome := by
  obtain ⟨state, hstate, hmem⟩ := h
  obtain ⟨r, hr, rfl⟩ := List.mem_map.1 hmem
  rw [onChain_of_state hstate, Option.isSome_map, lookup, List.find?_isSome]
  exact ⟨r, hr, decide_eq_true rfl⟩

/-- The records of some entries, looked up: the first message that has the key. -/
theorem find?_recordsFor (kept : List DeliveryMsg) (timestamp : UInt64) (c : CidBytes) :
    ((Indexer.recordsFor (kept.filterMap (entryOf K ∅)) timestamp).find?
        fun r ↦ r.cid = c).map DocumentRecord.metadataHash =
      (kept.find? fun m ↦ keyOf K m = some c).map (hashOf K) := by
  induction kept with
  | nil => rfl
  | cons m kept ih =>
    cases hcid : decodeCid K m.payload.cid with
    | error e =>
      have hentry : entryOf K ∅ m = none := by
        rw [entryOf, if_neg (Finset.notMem_empty _), hcid]
      have hkey : keyOf K m = none := by
        rw [keyOf, hcid]
        rfl
      rw [List.filterMap_cons_none hentry, List.find?_cons_of_neg (by simp [hkey]), ih]
    | ok cid =>
      have hentry : entryOf K ∅ m = some (cid, hashOf K m, m.payload.cid) :=
        (entryOf_eq_some K).2 ⟨Finset.notMem_empty _, hcid, rfl⟩
      have hkey : keyOf K m = some cid := keyOf_eq_some.2 hcid
      rw [List.filterMap_cons_some hentry, Indexer.recordsFor, List.map_cons]
      rcases eq_or_ne cid c with rfl | hne
      · rw [List.find?_cons_of_pos (by simp), List.find?_cons_of_pos (by simp [hkey])]
        rfl
      · rw [List.find?_cons_of_neg (by simpa using hne),
          List.find?_cons_of_neg (by simpa [hkey] using hne)]
        exact ih

/-- **What a submission does to the map.** -/
theorem onChain_execute {registry : Account P} (hregistry : ∃ state, registry.state = some state)
    (kept : List DeliveryMsg) (timestamp : UInt64) :
    onChain (execute registry (batchOf (kept.filterMap (entryOf K ∅)) timestamp)) =
        onChain registry ∨
      onChain (execute registry (batchOf (kept.filterMap (entryOf K ∅)) timestamp)) = fun c ↦
        (onChain registry c).or ((kept.find? fun m ↦ keyOf K m = some c).map (hashOf K)) := by
  obtain ⟨state, hstate⟩ := hregistry
  obtain ⟨state', hstate', -⟩ :=
    exists_state_execute hstate (batchOf (kept.filterMap (entryOf K ∅)) timestamp)
  have hlookup := lookup_execute hstate hstate'
  cases hok : (anchorBatch registry (batchOf (kept.filterMap (entryOf K ∅)) timestamp)).isOk with
  | false => exact Or.inl (by rw [execute_of_not_ok hok])
  | true =>
    refine Or.inr (funext fun c ↦ ?_)
    rw [hok, if_pos rfl, Indexer.records_batchOf] at hlookup
    rw [onChain_of_state hstate', hlookup, List.firstWins, Option.map_or, find?_recordsFor,
      onChain_of_state hstate]

/-! ### The clause -/

/-- Nobody else writes to the registry; messages of the topic are bridged to a site. -/
def bridges (K : Crates) (topic : List DeliveryMsg) (w w' : World P) : Prop :=
  ∃ text, Appended K w.queue text ∧ Reads K topic text ∧ w' = { w with queue := text }

/-- The site reads the topic, and the registry follows it. -/
structure OnTopic (K : Crates) (topic : List DeliveryMsg) (w : World P) : Prop where
  reads : Reads K topic w.queue
  follows : Follows (keyOf K) (hashOf K) topic (onChain w.registry)

/-- **A submission keeps the registry on the topic**: it writes a stretch of it, before which
nothing is missing. -/
theorem OnTopic.submission (htopic : Ascending topic) (hinv : Inv K w) (h : OnTopic K topic w)
    (hcollected : Collected K cursor msgs entries w) (timestamp : UInt64) :
    OnTopic K topic { w with registry := execute w.registry (batchOf entries timestamp) } := by
  refine ⟨h.reads, ?_⟩
  obtain ⟨kept, hsub, rfl, hall⟩ := hcollected.kept
  obtain ⟨rest, hrest⟩ := hcollected.page.isPrefix_topic h.reads
  have hlog : topic = topic.filter (·.seq ≤ cursor) ++ msgs ++ rest := by
    rw [List.append_assoc, hrest]
    exact htopic.eq_append cursor
  show Follows _ _ _ (onChain (execute w.registry _))
  rcases onChain_execute (K := K) hinv.registry kept timestamp with hsame | hwritten
  · rw [hsame]
    exact h.follows
  · rw [hwritten]
    have hnodup : msgs.Nodup := by
      have hpairwise := htopic.pairwise.filter fun m ↦ cursor < m.seq
      rw [← hrest] at hpairwise
      exact (List.pairwise_append.1 hpairwise).1.imp fun hlt heq ↦ absurd (heq ▸ hlt) (lt_irrefl _)
    refine h.follows.write hlog (fun m hm c hc ↦ ?_) hnodup hsub fun m hm ↦ ?_
    · obtain ⟨hmem, hle⟩ := List.mem_filter.1 hm
      exact isSome_onChain
        (hcollected.handled.registered htopic h.reads hmem (of_decide_eq_true hle) hc)
    · refine (hall m hm).imp_right fun ⟨c', hc', hreg⟩ c hc ↦ ?_
      obtain rfl := Option.some.inj ((keyOf_eq_some.2 hc').symm.trans hc)
      exact isSome_onChain hreg

/-- The clause that is added to the pact of the runs. -/
def onTopic (K : Crates) (P : Platform) (htopic : Ascending topic) : Clause K P where
  others := bridges K topic
  Holds := OnTopic K topic
  interferes_of_others := by
    rintro w w' ⟨text, happended, -, rfl⟩
    exact Or.inr ⟨text, happended, rfl⟩
  of_others := by
    rintro w w' h ⟨text, -, hreads, rfl⟩
    exact ⟨hreads, h.follows⟩
  of_db _ h := ⟨h.reads, h.follows⟩
  of_submission hinv h hcollected := h.submission htopic hinv hcollected _
  elsewhere h hv := ⟨hv.reads, h.follows⟩

/-! ### The result -/

variable {δ ι : Type} [DecidableEq δ] [DecidableEq ι]

/-- **The registry follows the topic.** In every state that any runs lead to, at any sites that read
the topic: what a query finds is first-write-wins of a prefix of the topic, and of the whole topic
under the keys of all messages up to any of the persisted cursors. -/
theorem registry_follows_topic [Nonempty δ] (K : Crates) (P : Platform) (htopic : Ascending topic)
    (path : δ → String) (home : ι → δ)
    {c : Parties.Config Op.Ret String (Option Unit) (Network P δ) ι}
    (hreach : (network (bridges K topic) path home).Reachable
      (fun i ↦ StartsRun K (path (home i)))
      (fun n ↦ n.registry.state = some ⟨[]⟩ ∧
        ∀ d, Initial K (n.worldAt d) ∧ Reads K topic (n.site d).queue) c) :
    ∃ state, c.1.registry.state = some state ∧
      (∃ n, ∀ key, (lookup state key).map DocumentRecord.metadataHash =
        ((topic.take n).find? fun m ↦ keyOf K m = some key).map (hashOf K)) ∧
      ∀ d, ∀ m ∈ topic, m.seq ≤ (c.1.site d).db.cursor → ∀ key, keyOf K m = some key →
        (lookup state key).map DocumentRecord.metadataHash =
          (topic.find? fun m ↦ keyOf K m = some key).map (hashOf K) := by
  have hinitial : ∀ n : Network P δ, (n.registry.state = some ⟨[]⟩ ∧
      ∀ d, Initial K (n.worldAt d) ∧ Reads K topic (n.site d).queue) →
      ∀ d, Initial K (n.worldAt d) ∧ OnTopic K topic (n.worldAt d) := by
    rintro n ⟨hempty, hsites⟩ d
    refine ⟨(hsites d).1, (hsites d).2, 0, fun key ↦ ?_⟩
    exact onChain_of_state hempty key
  obtain ⟨hinv, -⟩ := (onTopic K P htopic).sound hinitial hreach
  obtain ⟨d⟩ := ‹Nonempty δ›
  obtain ⟨state, hstate⟩ := (hinv d).1.registry
  have hfollows : Follows (keyOf K) (hashOf K) topic (onChain c.1.registry) := (hinv d).2.follows
  refine ⟨state, hstate, ?_, fun d' m hm hle key hkey ↦ ?_⟩
  · obtain ⟨n, hn⟩ := hfollows
    exact ⟨n, fun key ↦ (onChain_of_state hstate key).symm.trans (hn key)⟩
  · obtain ⟨hinv', htopic'⟩ := hinv d'
    have hreg := hinv'.handled.registered htopic htopic'.reads hm hle hkey
    obtain ⟨hash, hhash⟩ := Option.isSome_iff_exists.1 (isSome_onChain hreg)
    rw [← onChain_of_state (P := P) hstate]
    exact hhash.trans (hfollows.eq_find? hhash).symm

/-- Two anchorers on the queue that is the whole topic: the registry has the hash of its message. -/
theorem registry_follows_topic_pair : ∃ n : Network Account.samplePlatform Unit,
    sampleCid ∈ (n.worldAt ()).db.anchored ∧ ∃ state, n.registry.state = some state ∧
      ∃ k, ∀ key, (lookup state key).map DocumentRecord.metadataHash =
        (([quietMessage].take k).find? fun m ↦ keyOf sampleCrates m = some key).map
          (hashOf sampleCrates) := by
  obtain ⟨n, ps, hrow, hreach⟩ := exists_reachable_pair
  have htopic : Ascending [quietMessage] := by
    refine ⟨List.pairwise_singleton _ _, fun m hm ↦ ?_⟩
    obtain rfl := List.mem_singleton.1 hm
    decide
  have hinitial : quietNetwork.registry.state = some ⟨[]⟩ ∧
      ∀ d, Initial sampleCrates (quietNetwork.worldAt d) ∧
        Reads sampleCrates [quietMessage] (quietNetwork.site d).queue :=
    ⟨Account.emptyRegistry_state, fun d ↦
      ⟨initial_quietNetwork d, _, messages_quietQueue, List.prefix_refl _⟩⟩
  obtain ⟨state, hstate, hfollows, -⟩ := registry_follows_topic sampleCrates
    Account.samplePlatform htopic (fun _ : Unit ↦ "queue") (fun _ : Bool ↦ ())
    (hreach _ (fun n ↦ n.registry.state = some ⟨[]⟩ ∧ ∀ d, Initial sampleCrates (n.worldAt d) ∧
      Reads sampleCrates [quietMessage] (n.site d).queue) hinitial)
  exact ⟨n, hrow, state, hstate, hfollows⟩

end Whistleblower.BatchAnchor
