import Whistleblower.BatchAnchor.Capacity
import Whistleblower.BatchAnchor.Liveness
import Whistleblower.Foundations.LogReader
import Whistleblower.Indexer.Encoders

/-!
# What runs with outages come to

A topic goes on, processes are started and stopped, and the source and `spel` are down at times.
Here it is said in closed form what all that comes to, if nobody else submits anything: the cursor,
the table, the registry and the transactions at any time, from the topic and the times at which the
source and `spel` were up (`moment_of_outages`).

The topic is read by a `LogReader`. It takes a page if the source is up and what is on the page can
be submitted, or has no entry in it. What has been read is a beginning of the topic, and everything
else can be read off from that. In particular every page is submitted with all its entries, however
often it has been turned down before: the table has no row of a message that has not been read.
-/

namespace Whistleblower.BatchAnchor

open CidRegistryProgram

variable {P : Platform} {K : Crates} {before page msgs : List DeliveryMsg} {db : Db}

/-! ### Reading the topic -/

/-- The rows for some messages: the CIDs that can be decoded. -/
def rows (K : Crates) (msgs : List DeliveryMsg) : Finset String :=
  ((msgs.filterMap (entryOf K ∅)).map fun e ↦ e.2.2).toFinset

theorem mem_rows {cid : String} :
    cid ∈ rows K msgs ↔ ∃ e ∈ msgs.filterMap (entryOf K ∅), e.2.2 = cid := by
  rw [rows, List.mem_toFinset, List.mem_map]

/-- **No entry is left out.** If the keys are distinct, the rows of what has been read before do not
concern the page. -/
theorem filterMap_entryOf_rows (hkeys : (keys K (before ++ page)).Nodup) :
    page.filterMap (entryOf K (rows K before)) = page.filterMap (entryOf K ∅) := by
  rw [keys, List.filterMap_append] at hkeys
  refine List.filterMap_congr fun m hm ↦ ?_
  have hnew : m.payload.cid ∈ rows K before → ¬ Decodable K m.payload.cid := by
    rintro hrow ⟨c, hc⟩
    obtain ⟨e, he, hcid⟩ := mem_rows.1 hrow
    obtain ⟨m', hm', hentry⟩ := List.mem_filterMap.1 he
    obtain ⟨-, hdecode, hrest⟩ := (entryOf_eq_some K).1 hentry
    rw [hrest] at hcid
    -- the earlier message has the same key
    have hkey : keyOf K m' = some c := by
      rw [keyOf, show m'.payload.cid = m.payload.cid from hcid]
      exact keyOf_eq_some.2 hc
    exact List.disjoint_of_nodup_append hkeys (List.mem_filterMap.2 ⟨m', hm', hkey⟩)
      (List.mem_filterMap.2 ⟨m, hm, keyOf_eq_some.2 hc⟩)
  by_cases hrow : m.payload.cid ∈ rows K before
  · have hnone : ∀ anchored, entryOf K anchored m = none := by
      intro anchored
      by_contra hsome
      obtain ⟨e, he⟩ := Option.ne_none_iff_exists'.1 hsome
      exact hnew hrow ⟨e.1, ((entryOf_eq_some K).1 he).2.1⟩
    rw [hnone, hnone]
  · rw [entryOf, entryOf, if_neg hrow, if_neg (Finset.notMem_empty _)]

/-- Recording the page after what has been read. -/
theorem anchored_recorded_rows (hrows : db.anchored = rows K before)
    (hkeys : (keys K (before ++ page)).Nodup) (cursor : UInt64) :
    (db.recorded K cursor page).anchored = rows K (before ++ page) := by
  ext cid
  rw [mem_anchored_recorded, hrows, filterMap_entryOf_rows hkeys, mem_rows, mem_rows,
    List.filterMap_append]
  simp only [List.mem_append, or_and_right, exists_or]

theorem newest_append (cursor : UInt64) (msgs msgs' : List DeliveryMsg) :
    newest cursor (msgs ++ msgs') = newest (newest cursor msgs) msgs' :=
  List.foldl_append

/-- **A cursor is as good as a position**, since the numbers ascend. -/
theorem filter_newest_take {topic : List DeliveryMsg} (h : Ascending topic) (n : ℕ) :
    topic.filter (newest 0 (topic.take n) < ·.seq) = topic.drop n := by
  refine List.filter_eq_drop (fun m hm ↦ ?_) fun m hm ↦ ?_
  · exact decide_eq_false (le_newest_of_mem hm).not_gt
  · refine decide_eq_true ?_
    rcases newest_eq 0 (topic.take n) with heq | ⟨m', hm', heq⟩
    · rw [heq]
      exact h.pos m (List.mem_of_mem_drop hm)
    · rw [heq]
      have hpairwise := h.pairwise
      rw [← List.take_append_drop n topic] at hpairwise
      exact (List.pairwise_append.1 hpairwise).2.2 m' hm' m hm

theorem filterMap_entryOf_eq_nil_iff :
    msgs.filterMap (entryOf K ∅) = [] ↔ keys K msgs = [] := by
  rw [← map_fst_filterMap_entryOf, List.map_eq_nil_iff]

/-! ### Outages -/

/-- `spel` submits the batch to the program, and reports what comes of it. -/
def Surroundings.Direct (E : Surroundings P) : Prop :=
  ∀ registry command b registry', command.batch? = some b →
    anchorBatch registry b = .ok registry' →
      E.Lands registry command ∧ (E.spel registry command).2 = registry'

/-- No call of `spel` gets anywhere. -/
def Surroundings.Refuses (E : Surroundings P) : Prop :=
  ∀ registry command, ¬ E.Lands registry command ∧ (E.spel registry command).2 = registry

/-- The times at which the source and `spel` are up. -/
structure Uptime where
  source : ℕ → Bool
  spel : ℕ → Bool

/-- Real runs without `--max-batches`, on a topic that goes on, with outages at these times. The
documents of the topic are different from each other. -/
structure Schedule.Operated (K : Crates) (S : Schedule P) (topic : ℕ → List DeliveryMsg)
    (up : Uptime) : Prop where
  ascending : ∀ n, Ascending (topic n)
  distinct : ∀ n, (keys K (topic n)).Nodup
  grows : ∀ n, topic n <+: topic (n + 1)
  offers : ∀ n, up.source n = true → (S.turn n).Offers K (topic n)
  silent : ∀ n, up.source n = false → (S.turn n).Silent K
  direct : ∀ n, up.spel n = true → (S.turn n).surroundings.Direct
  refuses : ∀ n, up.spel n = false → (S.turn n).surroundings.Refuses
  real : ∀ n, (S.turn n).args.dryRun = false
  unlimited : ∀ n, (S.turn n).args.maxBatches = 0
  batchSize : ∀ n, 1 ≤ (S.turn n).args.batchSize ∧ (S.turn n).args.batchSize ≤ MAX_BATCH_SIZE

/-- What the clock says in a turn when its batch is put together. -/
def Schedule.stamp (K : Crates) (S : Schedule P) (s : Session P) (n : ℕ) : UInt64 :=
  (S.turn n).timestamp (S.moment K s n)

namespace Schedule.Operated

variable {S : Schedule P} {topic : ℕ → List DeliveryMsg} {up : Uptime}

/-- The reader of the topic. -/
def reader (h : S.Operated K topic up) : LogReader DeliveryMsg where
  log := topic
  grows := h.grows
  size n := (S.turn n).args.batchSize
  accepts n page := up.source n && (up.spel n || (keys K page).isEmpty)

/-- The records that a turn adds, if they are new. -/
def newRecords (h : S.Operated K topic up) (s : Session P) (n : ℕ) : List DocumentRecord :=
  Indexer.recordsFor ((h.reader.taken n).filterMap (entryOf K ∅)) (S.stamp K s n)

/-- The transactions of a turn. They are sent whether `spel` is up or not. -/
def newCommands (h : S.Operated K topic up) (s : Session P) (n : ℕ) : List SpelCommand :=
  if up.source n then
    submission (S.turn n).cli ((h.reader.page n).filterMap (entryOf K ∅)) (S.stamp K s n)
  else []

/-- What there is before a turn, if the schedule starts on a fresh state DB and this registry. -/
structure At (h : S.Operated K topic up) (s : Session P) (state : RegistryState) (n : ℕ) :
    Prop where
  cursor : (S.db K s n).cursor = newest 0 (h.reader.read n)
  anchored : (S.db K s n).anchored = rows K (h.reader.read n)
  registry : (S.moment K s n).session.registry.state = some ⟨state.records ++
    ((List.range n).flatMap (h.newRecords s)).filter (·.cid ∉ state.cids)⟩
  submitted : (S.moment K s n).session.submitted =
    s.submitted ++ (List.range n).flatMap (h.newCommands s)

variable {s : Session P} {state : RegistryState} {n : ℕ} (h : S.Operated K topic up)

/-! ### One turn -/

/-- What has been read and the page come from the topic. -/
theorem nodup_keys (n : ℕ) : (keys K (h.reader.read n ++ h.reader.page n)).Nodup := by
  have hsub : (h.reader.read n ++ h.reader.page n).Sublist (topic n) :=
    (LogReader.read_append_page_prefix_log n).sublist
  exact (h.distinct n).sublist (hsub.filterMap _)

/-- **What is polled** is the page at the position, if the source is up. -/
theorem polled_eq (hcursor : (S.db K s n).cursor = newest 0 (h.reader.read n)) :
    S.polled K s n = if up.source n then h.reader.page n else [] := by
  rw [Schedule.polled_eq K S s (h.unlimited n)]
  split
  · next hup =>
    obtain ⟨k, hk, hpoll⟩ :=
      (h.offers n hup).exists_poll (h.ascending n).pairwise (S.db K s n).cursor
    rw [hpoll, hk (h.batchSize n).1, hcursor, LogReader.read]
    exact congrArg (List.take _) (filter_newest_take (h.ascending n) _)
  · next hdown => exact h.silent n (Bool.eq_false_iff.2 hdown) _

/-- What is handed over is everything on the page that can be decoded. -/
theorem handed_eq (hat : h.At s state n) :
    S.handed K s n = if up.source n then (h.reader.page n).filterMap (entryOf K ∅) else [] := by
  rw [S.handed_of_real K s (h.real n), h.polled_eq hat.cursor, hat.anchored]
  split
  · exact filterMap_entryOf_rows (h.nodup_keys n)
  · rfl

theorem commands_eq (hat : h.At s state n) : S.commands K s n = h.newCommands s n := by
  rw [Schedule.commands_eq, h.handed_eq hat, newCommands]
  split
  · rfl
  · rfl

/-- The registry after the turn. -/
theorem registry_succ (hat : h.At s state n) :
    (S.moment K s (n + 1)).session.registry =
      (S.turn n).surroundings.submitAll (S.moment K s n).session.registry
        (h.newCommands s n) := by
  rw [Schedule.registry_succ, h.commands_eq hat]

/-- The records so far are those of the entries of what has been read. -/
theorem map_newRecords {γ : Type} (f : CidBytes → Hash → γ) (n : ℕ) :
    ((List.range n).flatMap (h.newRecords s)).map (fun r ↦ f r.cid r.metadataHash) =
      ((h.reader.read n).filterMap (entryOf K ∅)).map fun e ↦ f e.1 e.2.1 := by
  rw [LogReader.read_eq_flatMap, List.filterMap_flatMap, List.map_flatMap, List.map_flatMap]
  refine congrArg (fun g ↦ (List.range n).flatMap g) (funext fun i ↦ ?_)
  rw [newRecords, Indexer.recordsFor, List.map_map]
  rfl

/-- They stand for the keys of what has been read. -/
theorem map_cid_newRecords (n : ℕ) :
    ((List.range n).flatMap (h.newRecords s)).map DocumentRecord.cid =
      keys K (h.reader.read n) :=
  (h.map_newRecords (fun cid _ ↦ cid) n).trans (map_fst_filterMap_entryOf _)

/-- The page fits the account, if the topic does. -/
theorem exists_anchorBatch (hat : h.At s state n)
    (hroom : Account.Fits P (state.records.length + (keys K (topic n)).length)) :
    ∃ registry', anchorBatch (S.moment K s n).session.registry
        (batchOf ((h.reader.page n).filterMap (entryOf K ∅)) (S.stamp K s n)) = .ok registry' := by
  have hsize : (h.reader.page n).length ≤ MAX_BATCH_SIZE :=
    (List.length_take_le _ _).trans (h.batchSize n).2
  refine Outcome.isOk_iff.1 (isOk_of_wellFormed hat.registry
    (wellFormed_batchOf ((List.length_filterMap_le _ _).trans hsize) _) (hroom.of_le ?_))
  have hbefore := congrArg List.length (h.map_cid_newRecords (s := s) n)
  have hpage := congrArg List.length (map_fst_filterMap_entryOf (K := K) (h.reader.page n))
  have htopic : (keys K (h.reader.read n ++ h.reader.page n)).length ≤ (keys K (topic n)).length :=
    ((LogReader.read_append_page_prefix_log n).sublist.filterMap _).length_le
  rw [keys, List.filterMap_append, List.length_append] at htopic
  have hkept : (((List.range n).flatMap (h.newRecords s)).filter (·.cid ∉ state.cids)).length ≤ _ :=
    List.length_filter_le _ _
  have hnew := length_unregisteredIn_batchOf_le ((h.reader.page n).filterMap (entryOf K ∅))
    (S.stamp K s n) ⟨state.records ++
      ((List.range n).flatMap (h.newRecords s)).filter (·.cid ∉ state.cids)⟩
  rw [List.length_map] at hbefore hpage
  rw [List.length_append]
  rw [keys] at hbefore hpage
  omega

/-- What is new on the page is what was not there at the start. -/
theorem freshIn_page (n : ℕ) :
    (batchOf ((h.reader.page n).filterMap (entryOf K ∅)) (S.stamp K s n)).freshIn
        ⟨state.records ++ ((List.range n).flatMap (h.newRecords s)).filter
          (·.cid ∉ state.cids)⟩ =
      (Indexer.recordsFor ((h.reader.page n).filterMap (entryOf K ∅)) (S.stamp K s n)).filter
        (·.cid ∉ state.cids) := by
  rw [Batch.freshIn, Indexer.records_batchOf]
  refine List.filter_congr fun r hr ↦ ?_
  have hpage : r.cid ∈ keys K (h.reader.page n) := by
    obtain ⟨e, he, rfl⟩ := List.mem_map.1 hr
    rw [← map_fst_filterMap_entryOf]
    exact List.mem_map_of_mem he
  have hread : r.cid ∉ keys K (h.reader.read n) := by
    have hnodup := h.nodup_keys n
    rw [keys, List.filterMap_append] at hnodup
    exact fun hread ↦ List.disjoint_of_nodup_append hnodup hread hpage
  refine decide_eq_decide.2 (not_congr ?_)
  rw [RegistryState.cids, List.map_append, List.toFinset_append, Finset.mem_union,
    List.mem_toFinset, List.mem_toFinset]
  refine ⟨fun hold ↦ hold.resolve_right fun hmem ↦ hread ?_, Or.inl⟩
  rw [← h.map_cid_newRecords (s := s) n]
  exact (List.filter_sublist.map _).subset hmem

/-- **A page that is accepted** lands, if there is something to land. -/
theorem registry_of_accepts (hat : h.At s state n)
    (hroom : Account.Fits P (state.records.length + (keys K (topic n)).length))
    (haccepts : h.reader.accepts n (h.reader.page n) = true) :
    (∀ command ∈ h.newCommands s n,
      (S.turn n).surroundings.Lands (S.moment K s n).session.registry command) ∧
      (S.moment K s (n + 1)).session.registry.state = some ⟨state.records ++
        ((List.range (n + 1)).flatMap (h.newRecords s)).filter (·.cid ∉ state.cids)⟩ := by
  obtain ⟨hsource, hspel⟩ := (Bool.and_eq_true _ _).mp haccepts
  have hnew : h.newRecords s n =
      Indexer.recordsFor ((h.reader.page n).filterMap (entryOf K ∅)) (S.stamp K s n) := by
    rw [newRecords, LogReader.taken_of_accepts haccepts]
  have hcommands : h.newCommands s n = submission (S.turn n).cli
      ((h.reader.page n).filterMap (entryOf K ∅)) (S.stamp K s n) := if_pos hsource
  rw [h.registry_succ hat, List.range_succ, List.flatMap_append, List.flatMap_singleton,
    List.filter_append, hnew, hcommands]
  rcases eq_or_ne ((h.reader.page n).filterMap (entryOf K ∅)) [] with hnil | hne
  · rw [hnil]
    refine ⟨fun command hcommand ↦ absurd hcommand List.not_mem_nil, ?_⟩
    rw [Indexer.recordsFor, List.map_nil, List.filter_nil, List.append_nil]
    exact hat.registry
  · have hup : up.spel n = true := by
      refine ((Bool.or_eq_true _ _).mp hspel).resolve_right fun hempty ↦ hne ?_
      exact filterMap_entryOf_eq_nil_iff.2 (List.isEmpty_iff.1 hempty)
    obtain ⟨registry', hok⟩ := h.exists_anchorBatch hat hroom
    obtain ⟨hlands, hregistry⟩ := h.direct n hup _ _ _ _
      (batch?_spelCommand (S.turn n).cli hne (S.stamp K s n)) hok
    obtain ⟨-, state', hstate', -, -, hstore⟩ := anchorBatch_eq_ok.1 hok
    obtain rfl := Option.some.inj (hat.registry.symm.trans hstate')
    rw [h.freshIn_page n, List.append_assoc] at hstore
    rw [submission, if_neg hne]
    refine ⟨fun command hcommand ↦ ?_, ?_⟩
    · rw [List.mem_singleton.1 hcommand]
      exact hlands
    · rw [Surroundings.submitAll, List.foldl_cons, List.foldl_nil, hregistry]
      exact Account.state_of_store hstore

/-- **A page that is refused** changes nothing. -/
theorem registry_of_refuses (hat : h.At s state n)
    (hrefuses : h.reader.accepts n (h.reader.page n) = false) :
    (S.polled K s n = [] ∨ ∃ command ∈ h.newCommands s n,
      ¬ (S.turn n).surroundings.Lands (S.moment K s n).session.registry command) ∧
      (S.moment K s (n + 1)).session.registry = (S.moment K s n).session.registry := by
  rw [h.registry_succ hat, h.polled_eq hat.cursor, newCommands]
  cases hsource : up.source n with
  | false => exact ⟨Or.inl rfl, rfl⟩
  | true =>
    have hspel : (up.spel n || (keys K (h.reader.page n)).isEmpty) = false := by
      have haccepts : (up.source n && (up.spel n || (keys K (h.reader.page n)).isEmpty)) = false :=
        hrefuses
      rwa [hsource, Bool.true_and] at haccepts
    obtain ⟨hdown, hsome⟩ := Bool.or_eq_false_iff.1 hspel
    have hne : (h.reader.page n).filterMap (entryOf K ∅) ≠ [] := by
      intro hnil
      rw [filterMap_entryOf_eq_nil_iff.1 hnil] at hsome
      cases hsome
    obtain ⟨hfails, hsame⟩ := h.refuses n hdown (S.moment K s n).session.registry
      (spelCommand (S.turn n).cli ((h.reader.page n).filterMap (entryOf K ∅)) (S.stamp K s n))
    simp only [if_true, submission, if_neg hne]
    exact ⟨Or.inr ⟨_, List.mem_singleton_self _, hfails⟩, hsame⟩

/-- **The state DB after the turn**: what has been accepted is recorded, and nothing else. -/
theorem db_succ (hat : h.At s state n)
    (hroom : Account.Fits P (state.records.length + (keys K (topic n)).length)) :
    S.db K s (n + 1) = S.db K s n ∧ h.reader.taken n = [] ∨
      S.db K s (n + 1) =
        (S.db K s n).recorded K (S.db K s n).cursor (h.reader.taken n) := by
  have hsettles := S.settles (K := K) (s := s) (h.real n)
  rw [h.commands_eq hat] at hsettles
  cases haccepts : h.reader.accepts n (h.reader.page n) with
  | true =>
    obtain ⟨hlands, -⟩ := h.registry_of_accepts hat hroom haccepts
    have hpolled : S.polled K s n = h.reader.taken n := by
      rw [h.polled_eq hat.cursor, LogReader.taken_of_accepts haccepts,
        if_pos ((Bool.and_eq_true _ _).mp haccepts).1]
    rw [hpolled] at hsettles
    rcases hsettles with ⟨hsame, hnone | ⟨command, hcommand, hfails⟩⟩ | ⟨-, hrecorded⟩
    · exact Or.inl ⟨hsame, hnone⟩
    · exact absurd (hlands command hcommand) hfails
    · exact Or.inr hrecorded
  | false =>
    obtain ⟨hnothing, -⟩ := h.registry_of_refuses hat haccepts
    rw [LogReader.taken_of_refuses haccepts]
    rcases hsettles with ⟨hsame, -⟩ | ⟨hlands, hrecorded⟩
    · exact Or.inl ⟨hsame, rfl⟩
    · rcases hnothing with hnone | ⟨command, hcommand, hfails⟩
      · rw [hnone] at hrecorded
        exact Or.inr hrecorded
      · exact absurd (hlands command hcommand) hfails

/-- **One turn** goes from what there was before it to what there is after it. -/
theorem At.succ {h : S.Operated K topic up} (hat : h.At s state n)
    (hroom : Account.Fits P (state.records.length + (keys K (topic n)).length)) :
    h.At s state (n + 1) := by
  have hread : h.reader.read (n + 1) = h.reader.read n ++ h.reader.taken n := LogReader.read_succ n
  have hkeys : (keys K (h.reader.read n ++ h.reader.taken n)).Nodup := by
    have hsub : (h.reader.read n ++ h.reader.taken n).Sublist
        (h.reader.read n ++ h.reader.page n) :=
      (LogReader.taken_prefix_page n).sublist.append_left _
    exact (h.nodup_keys n).sublist (hsub.filterMap _)
  refine ⟨?_, ?_, ?_, ?_⟩
  · rw [hread, newest_append, ← hat.cursor]
    rcases h.db_succ hat hroom with ⟨hsame, hnone⟩ | hrecorded
    · rw [hsame, hnone, newest_nil]
    · rw [hrecorded, cursor_recorded]
  · rw [hread]
    rcases h.db_succ hat hroom with ⟨hsame, hnone⟩ | hrecorded
    · rw [hsame, hnone, List.append_nil, hat.anchored]
    · rw [hrecorded, anchored_recorded_rows hat.anchored hkeys]
  · cases haccepts : h.reader.accepts n (h.reader.page n) with
    | true => exact (h.registry_of_accepts hat hroom haccepts).2
    | false =>
      have hnone : h.newRecords s n = [] := by
        rw [newRecords, LogReader.taken_of_refuses haccepts]
        rfl
      rw [(h.registry_of_refuses hat haccepts).2, List.range_succ, List.flatMap_append,
        List.flatMap_singleton, hnone, List.append_nil]
      exact hat.registry
  · have hsubmitted : (S.moment K s (n + 1)).session.submitted =
        (S.moment K s n).session.submitted ++ S.commands K s n := by
      rw [S.commands_eq]
      exact (S.outcome K s n).submitted
    rw [hsubmitted, h.commands_eq hat, hat.submitted, List.append_assoc, List.range_succ,
      List.flatMap_append, List.flatMap_singleton]

/-- **All turns.** -/
theorem at_of_room (hregistry : s.registry.state = some state) (hdb : s.db = Db.fresh) (n : ℕ)
    (hroom : ∀ i < n, Account.Fits P (state.records.length + (keys K (topic i)).length)) :
    h.At s state n := by
  induction n with
  | zero =>
    have hmoment : S.moment K s 0 = .start s := S.moment_zero K s
    have hread : h.reader.read 0 = [] := LogReader.read_zero
    refine ⟨?_, ?_, ?_, ?_⟩
    · rw [S.db_zero, hdb, hread]
      rfl
    · rw [S.db_zero, hdb, hread]
      rfl
    · rw [hmoment, List.range_zero, List.flatMap_nil, List.filter_nil, List.append_nil]
      exact hregistry
    · rw [hmoment, List.range_zero, List.flatMap_nil, List.append_nil]
      rfl
  | succ n ih =>
    exact (ih fun i hi ↦ hroom i (hi.trans n.lt_succ_self)).succ (hroom n n.lt_succ_self)

end Schedule.Operated

theorem direct_honestSurroundings (text : String) : (honestSurroundings text).Direct := by
  intro registry command b registry' hb hok
  rw [Surroundings.Lands]
  rcases spel_honestSurroundings text registry command with
    ⟨b', registry'', hb', hok', hspel⟩ | ⟨hrejected, -⟩
  · obtain rfl := Option.some.inj (hb.symm.trans hb')
    obtain rfl := Outcome.ok.inj (hok.symm.trans hok')
    rw [hspel]
    exact ⟨⟨_, rfl, rfl⟩, rfl⟩
  · exact absurd ⟨b, hb, Outcome.isOk_iff.2 ⟨registry', hok⟩⟩ hrejected

/-! ### An outage at the start -/

/-- `run --once` on a queue of one message, over and over. `spel` is down at first. -/
def lateForever : Schedule Account.samplePlatform where
  turn n :=
    ⟨{ honestSurroundings (printedQueue [quietMessage]) with
        spel := fun registry command ↦
          if n = 0 then (.ok ⟨false, "Some(1)", ""⟩, registry)
          else (honestSurroundings (printedQueue [quietMessage])).spel registry command },
      queueCfg, onceArgs 50, true⟩
  goes_on n h := by cases h

/-- When it is up. -/
def lateUptime : Uptime where
  source _ := true
  spel n := n ≠ 0

theorem offers_lateForever (n : ℕ) :
    (lateForever.turn n).Offers sampleCrates [quietMessage] :=
  offers_quietForever n

theorem spel_lateForever (n : ℕ) (registry : Account Account.samplePlatform)
    (command : SpelCommand) :
    (lateForever.turn n).surroundings.spel registry command =
      if n = 0 then (.ok ⟨false, "Some(1)", ""⟩, registry)
      else (honestSurroundings (printedQueue [quietMessage])).spel registry command := rfl

theorem operated_lateForever :
    lateForever.Operated sampleCrates (fun _ ↦ [quietMessage]) lateUptime where
  ascending := supplied_quietForever.ascending
  distinct _ := nodup_keys_singleton quietMessage
  grows _ := List.prefix_refl _
  offers n _ := offers_lateForever n
  silent _ h := by cases h
  direct n hup registry command b registry' hb hok := by
    have hn : n ≠ 0 := of_decide_eq_true hup
    rw [Surroundings.Lands, spel_lateForever, if_neg hn]
    exact direct_honestSurroundings _ registry command b registry' hb hok
  refuses n hdown registry command := by
    have hn : n = 0 := not_not.1 (of_decide_eq_false hdown)
    rw [Surroundings.Lands, spel_lateForever, if_pos hn]
    refine ⟨?_, rfl⟩
    rintro ⟨out, hout, hsuccess⟩
    rw [← Except.ok.inj hout] at hsuccess
    cases hsuccess
  real _ := rfl
  unlimited _ := rfl
  batchSize _ := show 1 ≤ 50 ∧ 50 ≤ MAX_BATCH_SIZE by decide

theorem keys_quietMessage :
    keys sampleCrates [quietMessage] = [Bytes.replicate CID_BYTES 0] := by
  have hkey : keyOf sampleCrates quietMessage = some (Bytes.replicate CID_BYTES 0) :=
    keyOf_eq_some.2 decodeCid_sampleCid
  rw [keys, List.filterMap_cons_some hkey, List.filterMap_nil]

/-- The reader of the queue. -/
def lateReader : LogReader DeliveryMsg :=
  operated_lateForever.reader

theorem accepts_lateReader (n : ℕ) (page : List DeliveryMsg) :
    lateReader.accepts n page =
      (lateUptime.spel n || (keys sampleCrates page).isEmpty) := Bool.true_and _

theorem page_lateReader (n : ℕ) :
    lateReader.page n = Paging.page 50 [quietMessage] (lateReader.position n) := rfl

/-- At the first turn the page is refused. -/
theorem taken_lateReader_zero : lateReader.taken 0 = [] := by
  refine LogReader.taken_of_refuses ?_
  have hpage : lateReader.page 0 = [quietMessage] := page_lateReader 0
  rw [accepts_lateReader, hpage, keys_quietMessage]
  rfl

/-- It is offered again, and accepted. -/
theorem taken_lateReader_one : lateReader.taken 1 = [quietMessage] := by
  have hposition : lateReader.position 1 = 0 := by
    rw [LogReader.position_succ, taken_lateReader_zero]
    rfl
  have hpage : lateReader.page 1 = [quietMessage] := by
    rw [page_lateReader, hposition]
    rfl
  have haccepts : lateReader.accepts 1 (lateReader.page 1) = true := accepts_lateReader 1 _
  rw [LogReader.taken_of_accepts haccepts, hpage]

end Whistleblower.BatchAnchor
