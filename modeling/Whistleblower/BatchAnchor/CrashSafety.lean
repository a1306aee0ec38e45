import Whistleblower.BatchAnchor.SharedWorld
import Whistleblower.BatchAnchor.Stages
import Whistleblower.BatchAnchor.WireFormat

/-!
# No message is lost in a crash

Runs of `batch-anchor` in the shared world: one after another, each cut off anywhere, with calls
that fail, and with others at work in between. What has to survive is that nothing below the
persisted cursor is missing on-chain.

The proof fills in the stages of a run (`Stages`), in the contract of `SharedWorld`. Two assertions
carry the argument through an iteration.

* `Polled`: the poll left nothing out between the cursor and the newest message it returned. It is
  stable, because what is appended meanwhile is newer than that.
* `Settled`: every decodable message of the poll is on-chain. It holds when `spel` has returned with
  success, and not before; only then is the cursor moved past them (`Settled.moveCursor`).
-/

namespace Whistleblower.BatchAnchor

open CidRegistryProgram

variable {P : Platform} {K : Crates} {path : String} {w w' : World P}

/-! ### Assertions -/

/-- The persisted cursor is the loop's. -/
def At (cursor : UInt64) (w : World P) : Prop :=
  w.db.cursor = cursor

/-- The messages are in the queue, and none between the cursor and the newest is left out. -/
def Polled (K : Crates) (cursor : UInt64) (msgs : List DeliveryMsg) (w : World P) : Prop :=
  ∀ queue, messages K w.queue = some queue → (∀ m ∈ msgs, m ∈ queue) ∧
    ∀ m ∈ queue, cursor < m.seq → m.seq ≤ newest cursor msgs → m ∈ msgs

/-- Every decodable one of the messages is on-chain, or else among the entries. -/
def Gathered (K : Crates) (msgs : List DeliveryMsg) (entries : List AnchorEntry) (w : World P) :
    Prop :=
  ∀ m ∈ msgs, ∀ c, decodeCid K m.payload.cid = .ok c → w.Registered c ∨ ∃ e ∈ entries, e.1 = c

/-- The text of a CID that is on-chain. -/
def Row (K : Crates) (cid : String) (w : World P) : Prop :=
  ∃ c, decodeCid K cid = .ok c ∧ w.Registered c

/-- Each entry's CID is what its CID string decodes to. -/
def Decoded (K : Crates) (entries : List AnchorEntry) : Prop :=
  ∀ e ∈ entries, decodeCid K e.2.2 = .ok e.1

/-- Every decodable message of the poll is on-chain. -/
structure Settled (K : Crates) (cursor : UInt64) (msgs : List DeliveryMsg) (w : World P) :
    Prop where
  at_cursor : At cursor w
  polled : Polled K cursor msgs w
  registered : ∀ m ∈ msgs, ∀ c, decodeCid K m.payload.cid = .ok c → w.Registered c

/-- Every entry is on-chain. -/
def Landed (entries : List AnchorEntry) (w : World P) : Prop :=
  ∀ e ∈ entries, w.Registered e.1

variable {cursor : UInt64} {msgs kept : List DeliveryMsg} {entries : List AnchorEntry}

theorem stable_at : (contract K P path).Stable (At cursor) :=
  fun _ hlater h ↦ (congrArg Db.cursor hlater.db).trans h

theorem stable_polled : (contract K P path).Stable (Polled K cursor msgs) := by
  intro w w' hinv hlater hpolled queue' hqueue'
  obtain ⟨queue, hqueue, hasc⟩ := hinv.queue
  obtain ⟨more, hmore, hasc'⟩ := hlater.queue queue hqueue hasc
  obtain rfl := Option.some.inj (hmore.symm.trans hqueue')
  obtain ⟨hmem, hcomplete⟩ := hpolled queue hqueue
  refine ⟨fun m hm ↦ List.mem_append_left _ (hmem m hm), fun m hm hlt hle ↦ ?_⟩
  rcases List.mem_append.1 hm with hold | hnew
  · exact hcomplete m hold hlt hle
  · -- an appended message is newer than everything the poll returned
    exfalso
    rcases newest_eq cursor msgs with heq | ⟨n, hn, heq⟩
    · rw [heq] at hle
      exact absurd hlt hle.not_gt
    · rw [heq] at hle
      exact absurd (hasc'.lt_of_append (hmem n hn) hnew) hle.not_gt

theorem stable_gathered : (contract K P path).Stable (Gathered K msgs entries) :=
  fun _ hlater h m hm c hc ↦ (h m hm c hc).imp_left hlater.registered

theorem stable_row (cid : String) : (contract K P path).Stable (Row K cid) :=
  fun _ hlater ⟨c, hc, hreg⟩ ↦ ⟨c, hc, hlater.registered hreg⟩

theorem stable_landed : (contract K P path).Stable (Landed entries) :=
  fun _ hlater h e he ↦ hlater.registered (h e he)

theorem stable_settled : (contract K P path).Stable (Settled K cursor msgs) :=
  fun hinv hlater h ↦ ⟨stable_at hinv hlater h.at_cursor, stable_polled hinv hlater h.polled,
    fun m hm c hc ↦ hlater.registered (h.registered m hm c hc)⟩

theorem stable_and {A B : World P → Prop} (hA : (contract K P path).Stable A)
    (hB : (contract K P path).Stable B) : (contract K P path).Stable fun w ↦ A w ∧ B w :=
  fun hinv hlater h ↦ ⟨hA hinv hlater h.1, hB hinv hlater h.2⟩

/-! ### Polling and collecting -/

/-- Of an ascending queue, a page leaves nothing out between the cursor and its newest message. -/
theorem mem_of_page {queue : List DeliveryMsg} (hasc : Ascending queue)
    (hstart : msgs <+: queue.filter (cursor < ·.seq)) {m : DeliveryMsg} (hm : m ∈ queue)
    (hlt : cursor < m.seq) (hle : m.seq ≤ newest cursor msgs) : m ∈ msgs := by
  obtain ⟨rest, hrest⟩ := hstart
  have hmem : m ∈ msgs ++ rest := by
    rw [hrest]
    exact List.mem_filter.2 ⟨hm, decide_eq_true hlt⟩
  refine (List.mem_append.1 hmem).resolve_right fun hbehind ↦ ?_
  rcases newest_eq cursor msgs with heq | ⟨n, hn, heq⟩
  · exact absurd hlt (hle.trans_eq heq).not_gt
  · have hpairwise := hasc.pairwise.filter fun m ↦ cursor < m.seq
    rw [← hrest] at hpairwise
    exact absurd ((List.pairwise_append.1 hpairwise).2.2 n hn m hbehind) (hle.trans_eq heq).not_gt

theorem polled_page {queue : List DeliveryMsg} (hqueue : messages K w.queue = some queue)
    (hasc : Ascending queue) (hstart : msgs <+: queue.filter (cursor < ·.seq)) :
    Polled K cursor msgs w := by
  intro queue' hqueue'
  obtain rfl := Option.some.inj (hqueue.symm.trans hqueue')
  exact ⟨fun m hm ↦ List.mem_of_mem_filter (hstart.subset hm),
    fun m hm ↦ mem_of_page hasc hstart hm⟩

theorem triple_poll {source : String} (hsource : stripPrefix "file:" source = some path)
    (topic : String) (limit : ℕ) :
    (contract K P path).Triple (At cursor) (pollDelivery K source topic cursor limit)
      fun msgs w ↦ At cursor w ∧ Polled K cursor msgs w := by
  refine triple_pollDelivery_of hsource stable_at (T := fun text w ↦ text = w.queue)
    (fun w r w' _ h ↦ ⟨h.1, fun text hr ↦ h.2 text hr rfl⟩) ?_ fun w _ hat ↦ ⟨hat, fun queue _ ↦ ?_⟩
  · rintro w text msgs hinv hat rfl hpoll
    obtain ⟨queue, hqueue, hasc⟩ := hinv.queue
    rw [pollText_of_pairwise K hqueue hasc.pairwise] at hpoll
    obtain rfl := Except.ok.inj hpoll
    exact ⟨hat, polled_page hqueue hasc (List.take_prefix ..)⟩
  · -- there is no queue file yet, and so nothing that could have been left out
    exact ⟨fun m hm ↦ absurd hm List.not_mem_nil, fun m _ hlt hle ↦ absurd hlt hle.not_gt⟩

/-- A row in `anchored` says that the CID is on-chain. -/
theorem row_of_countAnchored {cid : String} {r : Except String ℕ} (hinv : Inv K w)
    (h : performs path (.countAnchored cid) w r w') :
    w' = w ∧ ∀ n, r = .ok n → 0 < n → Row K cid w := by
  obtain ⟨hsame, hcount⟩ := h
  refine ⟨hsame, fun n hr hpos ↦ hinv.anchored cid ?_⟩
  by_contra hnot
  rw [hcount n hr, if_neg hnot] at hpos
  exact absurd hpos (lt_irrefl 0)

theorem decoded_filterMap (kept : List DeliveryMsg) :
    Decoded K (kept.filterMap (entryOf K ∅)) := by
  intro e he
  obtain ⟨m, -, hentry⟩ := List.mem_filterMap.1 he
  obtain ⟨-, hcid, hrest⟩ := (entryOf_eq_some K).1 hentry
  rw [hrest]
  exact hcid

/-- A message that has no row and can be decoded is among the entries. -/
theorem gathered_filterMap (hall : ∀ m ∈ msgs, m ∈ kept ∨ Row K m.payload.cid w) :
    Gathered K msgs (kept.filterMap (entryOf K ∅)) w := by
  intro m hm c hc
  rcases hall m hm with hkept | ⟨c', hc', hreg⟩
  · have hentry : entryOf K ∅ m =
        some (c, metadataHashFromPayload K.sha256 m.payload, m.payload.cid) :=
      (entryOf_eq_some K).2 ⟨Finset.notMem_empty _, hc, rfl⟩
    exact Or.inr ⟨_, List.mem_filterMap.2 ⟨m, hkept, hentry⟩, rfl⟩
  · rw [hc', Except.ok.injEq] at hc
    exact Or.inl (hc ▸ hreg)

/-! ### Submitting and recording -/

/-- A transaction that succeeded has put every CID of its batch on-chain. -/
theorem landed_of_ok (hregistry : ∃ state, w.registry.state = some state)
    {timestamp : UInt64} {registry : Account P}
    (hok : anchorBatch w.registry (batchOf entries timestamp) = .ok registry) :
    Landed entries { w with registry := registry } := by
  obtain ⟨state, hstate⟩ := hregistry
  obtain ⟨state', hstate', -⟩ := exists_state_execute hstate (batchOf entries timestamp)
  intro e he
  have hmem : e.1.toList ∈ (batchOf entries timestamp).entriesCids := List.mem_map_of_mem he
  obtain ⟨c, hc, hbytes⟩ :=
    exists_mem_cids_of_ok hstate (by rw [hok, Outcome.isOk_ok]) hstate' hmem
  rw [execute_of_ok hok] at hstate'
  exact ⟨state', hstate', Bytes.toList_inj.1 hbytes ▸ hc⟩

/-- After a success the entries of a call are on-chain. -/
theorem landed_of_spel {cli : Cfg} {timestamp : UInt64} {out : Output} (hne : entries ≠ [])
    (hregistry : ∃ state, w.registry.state = some state) (hsuccess : out.success = true)
    (h : performs path (.spel (spelCommand cli entries timestamp)) w (.ok out) w') :
    Landed entries w' := by
  rcases h with ⟨out', b, registry, -, -, hb, hok, rfl⟩ | ⟨hfailed, -⟩
  · obtain rfl := Option.some.inj ((batch?_spelCommand cli hne timestamp).symm.trans hb)
    exact landed_of_ok hregistry hok
  · rw [hfailed out rfl] at hsuccess
    cases hsuccess

/-- A call has executed the batch of its entries, or nothing: one that fails may have failed before
its transaction landed, or after. -/
theorem spel_cases {cli : Cfg} {timestamp : UInt64} {r : Except String Output} (hne : entries ≠ [])
    (h : performs path (.spel (spelCommand cli entries timestamp)) w r w') :
    w' = w ∨ w' = { w with registry := execute w.registry (batchOf entries timestamp) } := by
  have hbatch := batch?_spelCommand cli hne timestamp
  rcases h with ⟨out, b, registry, -, -, hb, hok, rfl⟩ | ⟨-, hsame | ⟨b, hb, rfl⟩⟩
  · obtain rfl := Option.some.inj (hbatch.symm.trans hb)
    exact Or.inr (by rw [execute_of_ok hok])
  · exact Or.inl hsame
  · obtain rfl := Option.some.inj (hbatch.symm.trans hb)
    exact Or.inr rfl

/-- A row may be added for a CID that is on-chain. -/
theorem Inv.mark (hinv : Inv K w) {cid : String} (hrow : Row K cid w) :
    Inv K { w with db := w.db.mark cid } := by
  refine ⟨hinv.queue, hinv.registry, fun cid' hcid ↦ ?_, hinv.covered, hinv.reached⟩
  rcases Finset.mem_insert.1 hcid with rfl | hold
  · exact hrow
  · exact hinv.anchored cid' hold

/-- What is known once the entries have been collected. -/
structure Drafted (K : Crates) (cursor : UInt64) (msgs : List DeliveryMsg)
    (entries : List AnchorEntry) (w : World P) : Prop where
  at_cursor : At cursor w
  polled : Polled K cursor msgs w
  gathered : Gathered K msgs entries w
  decoded : Decoded K entries

/-- What is known once they have been submitted. -/
structure Submitted (K : Crates) (cursor : UInt64) (msgs : List DeliveryMsg)
    (entries : List AnchorEntry) (w : World P) : Prop where
  settled : Settled K cursor msgs w
  decoded : Decoded K entries
  landed : Landed entries w

theorem stable_drafted : (contract K P path).Stable (Drafted K cursor msgs entries) :=
  fun hinv hlater h ↦ ⟨stable_at hinv hlater h.at_cursor, stable_polled hinv hlater h.polled,
    stable_gathered hinv hlater h.gathered, h.decoded⟩

theorem stable_submitted : (contract K P path).Stable (Submitted K cursor msgs entries) :=
  fun hinv hlater h ↦ ⟨stable_settled hinv hlater h.settled, h.decoded,
    stable_landed hinv hlater h.landed⟩

/-- The messages of the poll are on-chain when their entries are. -/
theorem Drafted.submitted (h : Drafted K cursor msgs entries w) (hlanded : Landed entries w) :
    Submitted K cursor msgs entries w := by
  refine ⟨⟨h.at_cursor, h.polled, fun m hm c hc ↦ ?_⟩, h.decoded, hlanded⟩
  rcases h.gathered m hm c hc with hreg | ⟨e, he, rfl⟩
  · exact hreg
  · exact hlanded e he

/-! ### Moving the cursor -/

/-- **The cursor may be moved** past messages that are all on-chain, and that nothing is missing
from. -/
theorem Settled.moveCursor (h : Settled K cursor msgs w) (hinv : Inv K w) :
    Inv K { w with db := w.db.setCell (Decimal.render (newest cursor msgs)) } := by
  have hcursor : (w.db.setCell (Decimal.render (newest cursor msgs))).cursor = newest cursor msgs :=
    Db.cursor_setCell_render _ _
  have hold : w.db.cursor = cursor := h.at_cursor
  refine ⟨hinv.queue, hinv.registry, hinv.anchored, fun queue hqueue m hm hle c hc ↦ ?_, ?_⟩
  · -- `covered`: up to the old cursor by the invariant, beyond it by what was polled
    have hle' : m.seq ≤ newest cursor msgs := hle.trans_eq hcursor
    rcases le_or_gt m.seq cursor with hbelow | habove
    · exact hinv.covered queue hqueue m hm (hbelow.trans_eq hold.symm) c hc
    · exact h.registered m ((h.polled queue hqueue).2 m hm habove hle') c hc
  · -- `reached`: the new cursor is the old one, or a message of the queue
    obtain ⟨queue, hqueue, -⟩ := hinv.queue
    rcases newest_eq cursor msgs with heq | ⟨m, hm, heq⟩
    · refine hinv.reached.imp (fun hzero ↦ ?_) fun ⟨queue', hqueue', m, hm, hle⟩ ↦ ?_
      · exact hcursor.trans (heq.trans (hold.symm.trans hzero))
      · refine ⟨queue', hqueue', m, hm, (hcursor.trans heq).trans_le ?_⟩
        exact hold.symm.trans_le hle
    · exact Or.inr ⟨queue, hqueue, m, (h.polled queue hqueue).1 m hm, (hcursor.trans heq).le⟩

/-! ### The stages -/

/-- **Collecting.** A message is left out where it has a row, or cannot be decoded. -/
theorem triple_collect (cursor : UInt64) (msgs : List DeliveryMsg) :
    (contract K P path).Triple (fun w ↦ At cursor w ∧ Polled K cursor msgs w)
      (gather K msgs cursor [])
      fun r w ↦ r.1 = newest cursor msgs ∧ Drafted K cursor msgs r.2 w := by
  have hcount : ∀ (cid : String) (w : World P) (r : Except String ℕ) (w' : World P), Inv K w →
      performs path (.countAnchored cid) w r w' →
      w' = w ∧ ∀ n, r = .ok n → 0 < n → Row K cid w := fun _ _ _ _ ↦ row_of_countAnchored
  refine (triple_gather_of (R := Row K) stable_row hcount (stable_and stable_at stable_polled) msgs
    cursor []).weaken (fun _ _ h ↦ h) ?_
  rintro ⟨newCursor, entries⟩ w - ⟨hnewest, ⟨hat, hpolled⟩, kept, -, heq, hall⟩
  obtain rfl : entries = kept.filterMap (entryOf K ∅) := heq
  exact ⟨hnewest, hat, hpolled, gathered_filterMap hall, decoded_filterMap kept⟩

/-- **Submitting.** Only success lets the run go on, and then the entries are on-chain. -/
theorem triple_submit {cli : Cfg} {timestamp : UInt64} (hne : entries ≠ []) :
    (contract K P path).Triple (Drafted K cursor msgs entries)
      (anchorViaSpel cli entries timestamp) fun _ ↦ Submitted K cursor msgs entries := by
  refine triple_anchorViaSpel_of stable_drafted fun w r w' hinv h hperforms ↦ ?_
  have hspel : performs path (.spel (spelCommand cli entries timestamp)) w r w' := hperforms
  have hlater : Later K w w' := by
    rcases spel_cases hne hspel with rfl | rfl
    · exact Later.refl _
    · exact later_execute w _
  refine ⟨hinv.of_later hlater, (congrArg Db.cursor hlater.db).ge, fun out hr hsuccess ↦ ?_⟩
  subst hr
  exact (stable_drafted hinv hlater h).submitted
    (landed_of_spel hne hinv.registry hsuccess hspel)

/-- **Recording.** The rows that are added are those of the entries, which are on-chain. -/
theorem triple_record :
    (contract K P path).Triple (Submitted K cursor msgs entries) (markAll entries)
      fun _ ↦ Settled K cursor msgs := by
  refine (triple_markAll_of stable_submitted entries fun e he w r w' hinv h hperforms ↦ ?_).weaken
    (fun _ _ h ↦ h) fun _ _ _ h ↦ h.settled
  rcases hperforms with ⟨-, rfl⟩ | ⟨_, -, rfl⟩
  · have hrow : Row K e.2.2 w := ⟨e.1, h.decoded e he, h.landed e he⟩
    exact ⟨hinv.mark hrow, le_refl _,
      ⟨h.settled.at_cursor, h.settled.polled, h.settled.registered⟩, h.decoded, h.landed⟩
  · exact ⟨hinv, le_refl _, h⟩

/-- **Moving the cursor.** It has not been smaller before. -/
theorem triple_save :
    (contract K P path).Triple (Settled K cursor msgs) (saveCursor (newest cursor msgs))
      fun _ ↦ At (newest cursor msgs) := by
  refine triple_saveCursor_of stable_settled fun w r w' hinv h hperforms ↦ ?_
  rcases hperforms with ⟨-, rfl⟩ | ⟨e, rfl, rfl⟩
  · have hcursor : (w.db.setCell (Decimal.render (newest cursor msgs))).cursor =
        newest cursor msgs := Db.cursor_setCell_render _ _
    have hold : w.db.cursor = cursor := h.at_cursor
    refine ⟨h.moveCursor hinv, ?_, fun _ ↦ hcursor⟩
    exact (hold.trans_le (le_newest cursor msgs)).trans_eq hcursor.symm
  · exact ⟨hinv, le_refl _, fun hok ↦ by cases hok⟩

/-- **The stages of a run that has the state DB to itself.** Between them the loop's cursor is the
persisted one. -/
def stages {cli : Cfg} (hsource : stripPrefix "file:" cli.deliverySource = some path)
    (args : RunArgs) : Stages (contract K P path) K cli args where
  Ready := At
  Polled cursor msgs w := At cursor w ∧ Polled K cursor msgs w
  Gathered := Drafted K
  Submitted := Submitted K
  Settled := Settled K
  load := triple_loadCursor_of fun w r w' _ h ↦
    ⟨h.1, fun cell hr ↦ by rw [h.2 cell hr]; rfl⟩
  poll cursor := triple_poll hsource args.topic args.batchSize
  wait cursor := (triple_idle (stable_and stable_at stable_polled)
    fun w r w' (h : performs path (.sleep 2) w r w') ↦ h).weaken (fun _ _ h ↦ h) fun _ _ _ h ↦ h.1
  gather := triple_collect
  settled cursor msgs w _ h := (h.submitted fun _ he ↦ absurd he List.not_mem_nil).settled
  clock cursor msgs entries := triple_idle stable_drafted
    fun w r w' (h : performs path .now w r w') ↦ h
  submit cursor msgs entries timestamp hne := triple_submit hne
  record cursor msgs entries := triple_record
  save cursor msgs := triple_save

/-! ### The result -/

/-- A non-dry run over the queue file at this path. -/
def StartsRun (K : Crates) (path : String) (p : Proc (Option Unit)) : Prop :=
  ∃ cli args n, stripPrefix "file:" cli.deliverySource = some path ∧ args.dryRun = false ∧
    p = run K cli args n

/-- A well-formed queue, a registry that has been initialised, and a fresh state DB. -/
structure Initial (K : Crates) (w : World P) : Prop where
  queue : ∃ msgs, messages K w.queue = some msgs ∧ Ascending msgs
  registry : ∃ state, w.registry.state = some state
  db : w.db = Db.fresh

theorem Initial.inv {w : World P} (h : Initial K w) : Inv K w := by
  obtain ⟨hqueue, hregistry, hdb⟩ := h
  have hcursor : w.db.cursor = 0 := by rw [hdb]; rfl
  refine ⟨hqueue, hregistry, fun cid hcid ↦ ?_, fun msgs hmsgs m hm hle ↦ ?_, Or.inl hcursor⟩
  · rw [hdb] at hcid
    exact absurd hcid (Finset.notMem_empty cid)
  · obtain ⟨msgs', hmsgs', hasc⟩ := hqueue
    obtain rfl := Option.some.inj (hmsgs.symm.trans hmsgs')
    rw [hcursor] at hle
    exact absurd (hasc.pos m hm) hle.not_gt

/-- **No message is lost.** Whatever runs are started, wherever they are cut off, whichever calls
fail and whatever others do: every recorded CID is on-chain, every decodable message up to the
persisted cursor is on-chain, and no step makes the persisted cursor smaller. -/
theorem no_message_lost (K : Crates) (P : Platform) (path : String)
    {c : Shared.Config Op.Ret String (Option Unit) (World P)}
    (hreach : (shared K P path).Reachable (StartsRun K path) (Initial K) c) :
    (∀ cid ∈ c.1.db.anchored, ∃ b, decodeCid K cid = .ok b ∧ c.1.Registered b) ∧
    (∀ msgs, messages K c.1.queue = some msgs → ∀ m ∈ msgs, m.seq ≤ c.1.db.cursor →
      ∀ b, decodeCid K m.payload.cid = .ok b → c.1.Registered b) ∧
    (∃ msgs, messages K c.1.queue = some msgs ∧ Ascending msgs) ∧
    ∀ c', (shared K P path).Step (StartsRun K path) c c' → c.1.db.cursor ≤ c'.1.db.cursor := by
  have hstarts : ∀ p, StartsRun K path p →
      (contract K P path).Triple (fun _ ↦ True) p fun _ _ ↦ True := by
    rintro p ⟨cli, args, n, hsource, hdry, rfl⟩
    exact (stages hsource args).triple_run hdry n
  have hsound : Inv K c.1 ∧ ∀ c', (shared K P path).Step (StartsRun K path) c c' →
      c.1.db.cursor ≤ c'.1.db.cursor :=
    Contract.sound hstarts (fun _ h ↦ h.inv) hreach
  exact ⟨hsound.1.anchored, hsound.1.covered, hsound.1.queue, hsound.2⟩

/-! ### A run in which nothing goes wrong -/

/-- Every call goes well, and nobody interferes. -/
def undisturbed : (o : Op) → World P → o.Ret × World P
  | .readToString _, w => (.ok w.queue, w)
  | .httpGet _, w => (.error "connection refused", w)
  | .countAnchored cid, w => (.ok (if cid ∈ w.db.anchored then 1 else 0), w)
  | .insertAnchored cid, w => (.ok (), { w with db := w.db.mark cid })
  | .selectCursor, w => (.ok w.db.cursorCell, w)
  | .replaceCursor value, w => (.ok (), { w with db := w.db.setCell value })
  | .now, w => (1700000000, w)
  | .sleep _, w => ((), w)
  | .spel command, w =>
    match command.batch? with
    | none => (.ok ⟨false, "Some(1)", ""⟩, w)
    | some b =>
      match anchorBatch w.registry b with
      | .ok registry => (.ok ⟨true, "Some(0)", ""⟩, { w with registry := registry })
      | _ => (.ok ⟨false, "Some(1)", ""⟩, w)

theorem performs_undisturbed (o : Op) (w : World P) :
    performs path o w (undisturbed o w).1 (undisturbed o w).2 := by
  cases o with
  | readToString => exact ⟨rfl, fun text h _ ↦ (Except.ok.inj h).symm⟩
  | countAnchored => exact ⟨rfl, fun n h ↦ (Except.ok.inj h).symm⟩
  | selectCursor => exact ⟨rfl, fun cell h ↦ (Except.ok.inj h).symm⟩
  | insertAnchored | replaceCursor => exact Or.inl ⟨rfl, rfl⟩
  | httpGet | now | sleep => rfl
  | spel command =>
    have hfailed : ∀ out : Output, (.ok ⟨false, "Some(1)", ""⟩ : Except String Output) = .ok out →
        out.success = false := by
      rintro out h
      rw [← Except.ok.inj h]
    rw [undisturbed]
    cases hb : command.batch? with
    | none => exact Or.inr ⟨hfailed, Or.inl rfl⟩
    | some b =>
      cases hok : anchorBatch w.registry b with
      | ok registry =>
        simp only [hok]
        exact Or.inl ⟨_, b, registry, rfl, rfl, hb, hok, rfl⟩
      | err e =>
        simp only [hok]
        exact Or.inr ⟨hfailed, Or.inl rfl⟩
      | panic =>
        simp only [hok]
        exact Or.inr ⟨hfailed, Or.inl rfl⟩

/-- A queue of one message, an empty registry, and a fresh state DB. -/
def quietWorld : World Account.samplePlatform where
  queue := quietQueue
  registry := Account.emptyRegistry
  db := Db.fresh

/-- The world after one run over that queue. Irreducible, so that it is evaluated only on
request. -/
@[irreducible] def afterQuietRun : World Account.samplePlatform :=
  ((run sampleCrates queueCfg (onceArgs 50) 1).eval
    undisturbed quietWorld).2

/-- The run has recorded the message's CID, so it is on-chain. -/
theorem no_message_lost_quietWorld :
    sampleCid ∈ afterQuietRun.db.anchored ∧
      ∃ b, decodeCid sampleCrates sampleCid = .ok b ∧ afterQuietRun.Registered b := by
  have hinitial : Initial sampleCrates quietWorld := by
    refine ⟨⟨_, messages_quietQueue, List.pairwise_singleton _ _, fun m hm ↦ ?_⟩,
      ⟨_, Account.emptyRegistry_state⟩, rfl⟩
    obtain rfl := List.mem_singleton.1 hm
    decide
  have hstart : StartsRun sampleCrates "queue" (run sampleCrates queueCfg (onceArgs 50) 1) :=
    ⟨_, _, _, by decide +kernel, rfl, rfl⟩
  have hreach : (shared sampleCrates Account.samplePlatform "queue").Reachable
      (StartsRun sampleCrates "queue") (Initial sampleCrates) (afterQuietRun, none) := by
    unfold afterQuietRun
    exact ⟨quietWorld, hinitial, .head (.start hstart)
      (Shared.reaches_eval _ _ performs_undisturbed _ _)⟩
  have hrow : sampleCid ∈ afterQuietRun.db.anchored := by decide +kernel
  exact ⟨hrow, (no_message_lost sampleCrates _ "queue" hreach).1 sampleCid hrow⟩

end Whistleblower.BatchAnchor
