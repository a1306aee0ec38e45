import Whistleblower.BatchAnchor.CrashSafety
import Whistleblower.BatchAnchor.Network

/-!
# Several anchorers on one state DB

Nothing keeps a second `batch-anchor` from being started while the first is still running. The two
then share the state DB: each finds rows it has not written, and the persisted cursor can change
under it, in either direction, since each saves the cursor of its own loop.

So what a run may rely on is less than in `SharedWorld`: that the registry and the queue have grown
and that the invariant still holds (`Grows`). This is also what the run keeps to itself, which makes
it a pact. A run remembers its own cursor, of which it knows that everything up to it is on-chain
(`Handled`), whatever has become of the persisted one.
-/

namespace Whistleblower.BatchAnchor

open CidRegistryProgram

variable {P : Platform} {K : Crates} {path : String} {w w' w'' : World P} {cursor : UInt64}
  {msgs : List DeliveryMsg} {entries : List AnchorEntry}

/-! ### Growth -/

/-- What anyone may have done since. -/
structure Grows (K : Crates) (w w' : World P) : Prop where
  /-- But for the state DB, as in `SharedWorld`. -/
  later : Later K w { w' with db := w.db }
  inv : Inv K w → Inv K w'

/-- What has grown has grown whatever the state DB. -/
theorem Later.withDb (h : Later K w w') (db : Db) :
    Later K { w with db := db } { w' with db := db } :=
  ⟨rfl, h.registry, h.queue⟩

theorem Later.grows (h : Later K w w') : Grows K w w' :=
  ⟨h.withDb w.db, fun hinv ↦ hinv.of_later h⟩

theorem Grows.refl (w : World P) : Grows K w w :=
  (Later.refl w).grows

theorem Grows.trans (h : Grows K w w') (h' : Grows K w' w'') : Grows K w w'' :=
  ⟨h.later.trans (h'.later.withDb w.db), fun hinv ↦ h'.inv (h.inv hinv)⟩

theorem Grows.registered (h : Grows K w w') {c : CidBytes} (hc : w.Registered c) :
    w'.Registered c :=
  h.later.registered hc

/-- What has happened at one site is growth of the registry at another. -/
theorem Grows.elsewhere (h : Grows K w w') {v : World P} (hregistry : v.registry = w.registry) :
    Grows K v { v with registry := w'.registry } := by
  refine Later.grows ⟨rfl, fun state hstate ↦ h.later.registry state ?_, (Later.refl v).queue⟩
  rw [← hregistry]
  exact hstate

/-! ### The cursor of a run -/

/-- Everything up to this cursor is on-chain, and what is appended later is above it. -/
structure Handled (K : Crates) (cursor : UInt64) (w : World P) : Prop where
  covered : ∀ msgs, messages K w.queue = some msgs → ∀ m ∈ msgs, m.seq ≤ cursor →
    ∀ c, decodeCid K m.payload.cid = .ok c → w.Registered c
  reached : cursor = 0 ∨ ∃ msgs, messages K w.queue = some msgs ∧ ∃ m ∈ msgs, cursor ≤ m.seq

theorem Inv.handled (hinv : Inv K w) : Handled K w.db.cursor w :=
  ⟨hinv.covered, hinv.reached⟩

/-- **A cursor that has been handled may be saved.** -/
theorem Inv.setCell (hinv : Inv K w) (h : Handled K cursor w) :
    Inv K { w with db := w.db.setCell (Decimal.render cursor) } := by
  have hcursor : (w.db.setCell (Decimal.render cursor)).cursor = cursor :=
    Db.cursor_setCell_render _ _
  refine ⟨hinv.queue, hinv.registry, hinv.anchored, fun msgs hmsgs m hm hle ↦ ?_, ?_⟩
  · exact h.covered msgs hmsgs m hm (hle.trans_eq hcursor)
  · refine h.reached.imp hcursor.trans fun ⟨msgs, hmsgs, m, hm, hle⟩ ↦ ?_
    exact ⟨msgs, hmsgs, m, hm, hcursor.trans_le hle⟩

/-- What a run knows of its cursor nobody can undo: it is what the invariant would say if the cursor
were saved. -/
theorem Handled.of_grows (h : Handled K cursor w) (hinv : Inv K w) (hgrows : Grows K w w') :
    Handled K cursor w' := by
  have hlater := hgrows.later.withDb (w.db.setCell (Decimal.render cursor))
  have hsaved := ((hinv.setCell h).of_later hlater).handled
  rw [Db.cursor_setCell_render] at hsaved
  exact ⟨hsaved.covered, hsaved.reached⟩

/-! ### The page of a run -/

/-- The messages are the next ones above the cursor. -/
def Page (K : Crates) (cursor : UInt64) (msgs : List DeliveryMsg) (w : World P) : Prop :=
  ∃ queue, messages K w.queue = some queue ∧ Ascending queue ∧
    msgs <+: queue.filter (cursor < ·.seq)

/-- They remain so, since what is appended comes after them. -/
theorem Page.of_grows (h : Page K cursor msgs w) (hgrows : Grows K w w') :
    Page K cursor msgs w' := by
  obtain ⟨queue, hqueue, hasc, hstart⟩ := h
  obtain ⟨more, hmore, hasc'⟩ := hgrows.later.queue queue hqueue hasc
  refine ⟨queue ++ more, hmore, hasc', ?_⟩
  rw [List.filter_append]
  exact hstart.trans (List.prefix_append _ _)

/-- **The next cursor**: the messages of a page that are all on-chain can be left behind. -/
theorem Handled.newest (h : Handled K cursor w) (hpage : Page K cursor msgs w)
    (hregistered : ∀ m ∈ msgs, ∀ c, decodeCid K m.payload.cid = .ok c → w.Registered c) :
    Handled K (newest cursor msgs) w := by
  obtain ⟨queue, hqueue, hasc, hstart⟩ := hpage
  refine ⟨fun queue' hqueue' m hm hle c hc ↦ ?_, ?_⟩
  · obtain rfl := Option.some.inj (hqueue.symm.trans hqueue')
    rcases le_or_gt m.seq cursor with hbelow | habove
    · exact h.covered queue hqueue m hm hbelow c hc
    · exact hregistered m (mem_of_page hasc hstart hm habove hle) c hc
  · rcases newest_eq cursor msgs with heq | ⟨m, hm, heq⟩
    · rw [heq]
      exact h.reached
    · exact Or.inr ⟨queue, hqueue, m, List.mem_of_mem_filter (hstart.subset hm), heq.le⟩

/-! ### The entries of a run -/

theorem Row.of_grows {cid : String} (h : Row K cid w) (hgrows : Grows K w w') : Row K cid w' := by
  obtain ⟨c, hc, hreg⟩ := h
  exact ⟨c, hc, hgrows.registered hreg⟩

/-- What is known once the entries have been collected: they are those of the page, but for messages
whose CIDs are on-chain. -/
structure Collected (K : Crates) (cursor : UInt64) (msgs : List DeliveryMsg)
    (entries : List AnchorEntry) (w : World P) : Prop where
  handled : Handled K cursor w
  page : Page K cursor msgs w
  kept : ∃ kept : List DeliveryMsg, kept.Sublist msgs ∧
    entries = kept.filterMap (entryOf K ∅) ∧ ∀ m ∈ msgs, m ∈ kept ∨ Row K m.payload.cid w

theorem Collected.of_grows (h : Collected K cursor msgs entries w) (hinv : Inv K w)
    (hgrows : Grows K w w') : Collected K cursor msgs entries w' := by
  obtain ⟨hhandled, hpage, kept, hsub, heq, hall⟩ := h
  exact ⟨hhandled.of_grows hinv hgrows, hpage.of_grows hgrows, kept, hsub, heq,
    fun m hm ↦ (hall m hm).imp_right fun hrow ↦ hrow.of_grows hgrows⟩

theorem Collected.decoded (h : Collected K cursor msgs entries w) : Decoded K entries := by
  obtain ⟨kept, -, rfl, -⟩ := h.kept
  exact decoded_filterMap kept

theorem Collected.gathered (h : Collected K cursor msgs entries w) :
    Gathered K msgs entries w := by
  obtain ⟨kept, -, rfl, hall⟩ := h.kept
  exact gathered_filterMap hall

/-- What is known once they have been submitted. -/
structure Done (K : Crates) (cursor : UInt64) (msgs : List DeliveryMsg)
    (entries : List AnchorEntry) (w : World P) : Prop where
  handled : Handled K (newest cursor msgs) w
  decoded : Decoded K entries
  landed : Landed entries w

theorem Done.of_grows (h : Done K cursor msgs entries w) (hinv : Inv K w)
    (hgrows : Grows K w w') : Done K cursor msgs entries w' :=
  ⟨h.handled.of_grows hinv hgrows, h.decoded, fun e he ↦ hgrows.registered (h.landed e he)⟩

/-- The messages of the page have been dealt with when their entries are on-chain. -/
theorem Collected.done (h : Collected K cursor msgs entries w) (hlanded : Landed entries w) :
    Done K cursor msgs entries w := by
  refine ⟨h.handled.newest h.page fun m hm c hc ↦ ?_, h.decoded, hlanded⟩
  rcases h.gathered m hm c hc with hreg | ⟨e, he, rfl⟩
  · exact hreg
  · exact hlanded e he

/-! ### The pact -/

/-- Something more that holds of the registry and the queues all along. Outsiders may have to be
held to it; a run keeps it where it submits what it has collected. -/
structure Clause (K : Crates) (P : Platform) where
  others : World P → World P → Prop
  Holds : World P → Prop
  interferes_of_others : ∀ {w w'}, others w w' → interferes K w w'
  of_others : ∀ {w w'}, Holds w → others w w' → Holds w'
  of_db : ∀ {w} db, Holds w → Holds { w with db := db }
  of_submission : ∀ {w cursor msgs entries timestamp}, Inv K w → Holds w →
    Collected K cursor msgs entries w →
    Holds { w with registry := execute w.registry (batchOf entries timestamp) }
  elsewhere : ∀ {w v : World P}, Holds w → Holds v → Holds { v with registry := w.registry }

namespace Clause

/-- Nothing more. -/
def none (K : Crates) (P : Platform) : Clause K P where
  others := interferes K
  Holds _ := True
  interferes_of_others h := h
  of_others _ _ := trivial
  of_db _ _ := trivial
  of_submission _ _ _ := trivial
  elsewhere _ _ := trivial

variable (X : Clause K P)

/-- **The pact of the runs**: the invariant with the clause, and growth. -/
def pact : Pact X.others where
  Inv w := Inv K w ∧ X.Holds w
  Evolves w w' := Grows K w w' ∧ (Inv K w → X.Holds w → X.Holds w')
  refl w := ⟨Grows.refl w, fun _ h ↦ h⟩
  trans h h' := ⟨h.1.trans h'.1, fun hinv hw ↦ h'.2 (h.1.inv hinv) (h.2 hinv hw)⟩
  inv_of_evolves hinv h := ⟨h.1.inv hinv.1, h.2 hinv.1 hinv.2⟩
  evolves_of_others _ h :=
    ⟨(later_of_interferes (X.interferes_of_others h)).grows, fun _ hw ↦ X.of_others hw h⟩
  elsewhere hinv h _ hregistry :=
    ⟨h.1.elsewhere hregistry, fun _ hv ↦ X.elsewhere (h.2 hinv.1 hinv.2) hv⟩

variable {X}

/-- A statement that writes the DB and keeps the invariant keeps the pact. -/
theorem evolves_of_db {db : Db} (h : Inv K { w with db := db }) :
    X.pact.Evolves w { w with db := db } :=
  ⟨⟨Later.refl w, fun _ ↦ h⟩, fun _ hw ↦ X.of_db db hw⟩

/-- What is kept under growth, others cannot invalidate. -/
theorem stable {A : World P → Prop} (hA : ∀ {w w'}, Inv K w → Grows K w w' → A w → A w') :
    (X.pact.contract path).Stable A :=
  fun hinv hevolves h ↦ hA hinv.1 hevolves.1 h

theorem stable_handled : (X.pact.contract path).Stable (Handled K cursor) :=
  stable fun hinv hgrows h ↦ h.of_grows hinv hgrows

/-- The assertion between the poll and the collecting of entries. -/
theorem stable_page :
    (X.pact.contract path).Stable fun w ↦ Handled K cursor w ∧ Page K cursor msgs w :=
  stable (A := fun w ↦ Handled K cursor w ∧ Page K cursor msgs w)
    fun hinv hgrows h ↦ ⟨h.1.of_grows hinv hgrows, h.2.of_grows hgrows⟩

theorem stable_collected : (X.pact.contract path).Stable (Collected K cursor msgs entries) :=
  stable fun hinv hgrows h ↦ h.of_grows hinv hgrows

theorem stable_done : (X.pact.contract path).Stable (Done K cursor msgs entries) :=
  stable fun hinv hgrows h ↦ h.of_grows hinv hgrows

/-! ### The stages -/

theorem triple_poll {source : String} (hsource : stripPrefix "file:" source = some path)
    (topic : String) (limit : ℕ) :
    (X.pact.contract path).Triple (Handled K cursor) (pollDelivery K source topic cursor limit)
      fun msgs w ↦ Handled K cursor w ∧ Page K cursor msgs w := by
  refine triple_pollDelivery_of hsource stable_handled (T := fun text w ↦ text = w.queue)
    (fun w r w' _ h ↦ ⟨h.1, fun text hr ↦ h.2 text hr rfl⟩) ?_ fun w hinv h ↦ ⟨h, ?_⟩
  · rintro w text msgs ⟨hinv, -⟩ h rfl hpoll
    obtain ⟨queue, hqueue, hasc⟩ := hinv.queue
    rw [pollText_of_pairwise K hqueue hasc.pairwise] at hpoll
    obtain rfl := Except.ok.inj hpoll
    exact ⟨h, queue, hqueue, hasc, List.take_prefix ..⟩
  · obtain ⟨queue, hqueue, hasc⟩ := hinv.1.queue
    exact ⟨queue, hqueue, hasc, List.nil_prefix⟩

theorem triple_gather (cursor : UInt64) (msgs : List DeliveryMsg) :
    (X.pact.contract path).Triple (fun w ↦ Handled K cursor w ∧ Page K cursor msgs w)
      (gather K msgs cursor [])
      fun r w ↦ r.1 = newest cursor msgs ∧ Collected K cursor msgs r.2 w := by
  have hrow : ∀ cid, (X.pact.contract path).Stable (Row K cid) := fun cid ↦
    stable fun _ hgrows h ↦ h.of_grows hgrows
  have hcount : ∀ (cid : String) (w : World P) (r : Except String ℕ) (w' : World P),
      X.pact.Inv w → performs path (.countAnchored cid) w r w' →
      w' = w ∧ ∀ n, r = .ok n → 0 < n → Row K cid w := by
    rintro cid w r w' ⟨hinv, -⟩ h
    exact row_of_countAnchored hinv h
  refine (triple_gather_of (R := Row K) hrow hcount stable_page msgs cursor []).weaken
    (fun _ _ h ↦ h) ?_
  rintro ⟨newCursor, entries⟩ w - ⟨hnewest, ⟨hhandled, hpage⟩, hkept⟩
  exact ⟨hnewest, hhandled, hpage, hkept⟩

theorem triple_submit {cli : Cfg} {timestamp : UInt64} (hne : entries ≠ []) :
    (X.pact.contract path).Triple (Collected K cursor msgs entries)
      (anchorViaSpel cli entries timestamp) fun _ ↦ Done K cursor msgs entries := by
  refine triple_anchorViaSpel_of stable_collected fun w r w' hinv h hperforms ↦ ?_
  have hspel : performs path (.spel (spelCommand cli entries timestamp)) w r w' := hperforms
  have hevolves : X.pact.Evolves w w' := by
    rcases spel_cases hne hspel with rfl | rfl
    · exact X.pact.refl _
    · exact ⟨(later_execute w _).grows, fun hinv hw ↦ X.of_submission hinv hw h⟩
  refine ⟨X.pact.inv_of_evolves hinv hevolves, hevolves, fun out hr hsuccess ↦ ?_⟩
  subst hr
  exact (h.of_grows hinv.1 hevolves.1).done (landed_of_spel hne hinv.1.registry hsuccess hspel)

theorem triple_record :
    (X.pact.contract path).Triple (Done K cursor msgs entries) (markAll entries)
      fun _ ↦ Handled K (newest cursor msgs) := by
  refine (triple_markAll_of stable_done entries fun e he w r w' hinv h hperforms ↦ ?_).weaken
    (fun _ _ h ↦ h) fun _ _ _ h ↦ h.handled
  rcases hperforms with ⟨-, rfl⟩ | ⟨_, -, rfl⟩
  · have hinv' : Inv K { w with db := w.db.mark e.2.2 } :=
      hinv.1.mark ⟨e.1, h.decoded e he, h.landed e he⟩
    have hevolves : X.pact.Evolves w { w with db := w.db.mark e.2.2 } := evolves_of_db hinv'
    exact ⟨X.pact.inv_of_evolves hinv hevolves, hevolves,
      ⟨h.handled.covered, h.handled.reached⟩, h.decoded, h.landed⟩
  · exact ⟨hinv, X.pact.refl _, h⟩

theorem triple_save :
    (X.pact.contract path).Triple (Handled K cursor) (saveCursor cursor)
      fun _ ↦ Handled K cursor := by
  refine triple_saveCursor_of stable_handled fun w r w' hinv h hperforms ↦ ?_
  rcases hperforms with ⟨-, rfl⟩ | ⟨_, -, rfl⟩
  · have hevolves : X.pact.Evolves w { w with db := w.db.setCell (Decimal.render cursor) } :=
      evolves_of_db (hinv.1.setCell h)
    exact ⟨X.pact.inv_of_evolves hinv hevolves, hevolves, fun _ ↦ ⟨h.covered, h.reached⟩⟩
  · exact ⟨hinv, X.pact.refl _, fun _ ↦ h⟩

/-- **The stages of a run among others.** -/
def stages (X : Clause K P) {cli : Cfg}
    (hsource : stripPrefix "file:" cli.deliverySource = some path) (args : RunArgs) :
    Stages (X.pact.contract path) K cli args where
  Ready := Handled K
  Polled cursor msgs w := Handled K cursor w ∧ Page K cursor msgs w
  Gathered := Collected K
  Submitted := Done K
  Settled cursor msgs := Handled K (newest cursor msgs)
  load := triple_loadCursor_of fun w r w' hinv h ↦
    ⟨h.1, fun cell hr ↦ by rw [h.2 cell hr]; exact hinv.1.handled⟩
  poll cursor := triple_poll hsource args.topic args.batchSize
  wait cursor := (triple_idle stable_page
    fun w r w' (h : performs path (.sleep 2) w r w') ↦ h).weaken (fun _ _ h ↦ h) fun _ _ _ h ↦ h.1
  gather := triple_gather
  settled cursor msgs w _ h := (h.done fun _ he ↦ absurd he List.not_mem_nil).handled
  clock cursor msgs entries := triple_idle stable_collected
    fun w r w' (h : performs path .now w r w') ↦ h
  submit cursor msgs entries timestamp hne := triple_submit hne
  record cursor msgs entries := triple_record
  save cursor msgs := triple_save

/-- A real run keeps the pact. -/
theorem triple_run (X : Clause K P) {p : Proc (Option Unit)} (h : StartsRun K path p) :
    (X.pact.contract path).Triple (fun _ ↦ True) p fun _ _ ↦ True := by
  obtain ⟨cli, args, n, hsource, hdry, rfl⟩ := h
  exact (X.stages hsource args).triple_run hdry n

variable {δ ι : Type} [DecidableEq δ] [DecidableEq ι] {home : ι → δ} {path : δ → String}

/-- **In every state that is reached** the invariant and the clause hold at every site, and whatever
comes after it is growth. -/
theorem sound (X : Clause K P) {Begins : Network P δ → Prop}
    (hinitial : ∀ n, Begins n → ∀ d, Initial K (n.worldAt d) ∧ X.Holds (n.worldAt d))
    {c : Parties.Config Op.Ret String (Option Unit) (Network P δ) ι}
    (hreach : (network X.others path home).Reachable (fun i ↦ StartsRun K (path (home i))) Begins
      c) :
    (∀ d, Inv K (c.1.worldAt d) ∧ X.Holds (c.1.worldAt d)) ∧
      ∀ c', Relation.ReflTransGen ((network X.others path home).Step
          fun i ↦ StartsRun K (path (home i))) c c' →
        ∀ d, Grows K (c.1.worldAt d) (c'.1.worldAt d) := by
  have hsound := X.pact.sound (fun i p hstart ↦ X.triple_run hstart)
    (fun n hn d ↦ ⟨(hinitial n hn d).1.inv, (hinitial n hn d).2⟩) hreach
  exact ⟨hsound.1, fun c' hlater d ↦ (hsound.2 c' hlater d).1⟩

end Clause

/-! ### The result -/

variable {δ ι : Type} [DecidableEq δ] [DecidableEq ι]

/-- **No message is lost, whoever runs what.** Any number of sites, and at each of them any number
of real runs at a time, started and cut off at any moment, with calls that fail and outsiders at
work: at every site every recorded CID is on-chain, and so is every decodable message up to the
persisted cursor; and what is on-chain stays there. -/
theorem no_message_lost_anywhere [Nonempty δ] (K : Crates) (P : Platform) (path : δ → String)
    (home : ι → δ) {c : Parties.Config Op.Ret String (Option Unit) (Network P δ) ι}
    (hreach : (network (interferes K) path home).Reachable
      (fun i ↦ StartsRun K (path (home i))) (fun n ↦ ∀ d, Initial K (n.worldAt d)) c) :
    (∀ d, (∀ cid ∈ (c.1.site d).db.anchored,
          ∃ b, decodeCid K cid = .ok b ∧ c.1.Registered b) ∧
        ∀ msgs, messages K (c.1.site d).queue = some msgs → ∀ m ∈ msgs,
          m.seq ≤ (c.1.site d).db.cursor →
          ∀ b, decodeCid K m.payload.cid = .ok b → c.1.Registered b) ∧
      ∀ c', Relation.ReflTransGen ((network (interferes K) path home).Step
          fun i ↦ StartsRun K (path (home i))) c c' →
        ∀ b, c.1.Registered b → c'.1.Registered b := by
  obtain ⟨hinv, hgrows⟩ := (Clause.none K P).sound (fun n hn d ↦ ⟨hn d, trivial⟩) hreach
  refine ⟨fun d ↦ ⟨(hinv d).1.anchored, (hinv d).1.covered⟩, fun c' hlater b hb ↦ ?_⟩
  obtain ⟨d⟩ := ‹Nonempty δ›
  exact (hgrows c' hlater d).registered hb

/-! ### Two anchorers on one state DB -/

/-- One site, with a queue of one message and a fresh state DB, and an empty registry. -/
def quietNetwork : Network Account.samplePlatform Unit where
  registry := Account.emptyRegistry
  site _ := ⟨quietQueue, Db.fresh⟩

theorem initial_quietNetwork (d : Unit) : Initial sampleCrates (quietNetwork.worldAt d) := by
  refine ⟨⟨_, messages_quietQueue, List.pairwise_singleton _ _, fun m hm ↦ ?_⟩,
    ⟨_, Account.emptyRegistry_state⟩, rfl⟩
  obtain rfl := List.mem_singleton.1 hm
  decide

/-- Two parties at the one site. -/
abbrev pair (others : World Account.samplePlatform → World Account.samplePlatform → Prop) :
    Parties Op.Ret (Network Account.samplePlatform Unit) Bool :=
  network others (fun _ ↦ "queue") fun _ ↦ ()

theorem startsRun_once (n : ℕ) :
    StartsRun sampleCrates "queue" (run sampleCrates queueCfg (onceArgs 50) n) :=
  ⟨queueCfg, onceArgs 50, n, by decide +kernel, rfl, rfl⟩

/-- How the run ends. Irreducible, so that it is evaluated only on request. -/
@[irreducible] def quietOutcome :
    Except String (Option Unit) × World Account.samplePlatform :=
  (run sampleCrates queueCfg (onceArgs 50) 1).eval undisturbed quietWorld

theorem sampleCid_mem_quietOutcome : sampleCid ∈ quietOutcome.2.db.anchored := by
  decide +kernel

/-- One of the two goes through while the other has been started and has not done anything yet. The
network after that is not given by name, since nothing but this is to be used of it. -/
theorem exists_reachable_pair : ∃ (n : Network Account.samplePlatform Unit)
    (ps : Bool → Option (Proc (Option Unit))), sampleCid ∈ (n.worldAt ()).db.anchored ∧
      ∀ (others : World Account.samplePlatform → World Account.samplePlatform → Prop)
        (Initial : Network Account.samplePlatform Unit → Prop), Initial quietNetwork →
        (pair others).Reachable (fun _ ↦ StartsRun sampleCrates "queue") Initial (n, ps) := by
  have houtcome : (run sampleCrates queueCfg (onceArgs 50) 1).eval undisturbed quietWorld =
      quietOutcome := by
    unfold quietOutcome
    rfl
  have hworld := (Network.worldAt_eval_answerAt undisturbed ()
    (run sampleCrates queueCfg (onceArgs 50) 1) quietNetwork).trans (congrArg Prod.snd houtcome)
  have hreach : ∀ (others : World Account.samplePlatform → World Account.samplePlatform → Prop)
      (Initial : Network Account.samplePlatform Unit → Prop), Initial quietNetwork →
      (pair others).Reachable (fun _ ↦ StartsRun sampleCrates "queue") Initial
        (((run sampleCrates queueCfg (onceArgs 50) 1).eval (Network.answerAt undisturbed ())
          quietNetwork).2, Function.update (Function.update (fun _ ↦ none) true
            (some (run sampleCrates queueCfg (onceArgs 50) 0))) false none) := by
    intro others Initial h
    have hperforms : ∀ o (n : Network Account.samplePlatform Unit), (pair others).performs false o n
        (Network.answerAt undisturbed () o n).1 (Network.answerAt undisturbed () o n).2 :=
      fun o n ↦ ⟨_, performs_undisturbed o _, rfl⟩
    refine ⟨quietNetwork, h, .head (.start (i := true) rfl (startsRun_once 0)) ?_⟩
    refine .head (.start (i := false) ?_ (startsRun_once 1))
      (Parties.reaches_eval _ _ false hperforms _ quietNetwork _)
    exact Function.update_of_ne Bool.false_ne_true ..
  generalize ((run sampleCrates queueCfg (onceArgs 50) 1).eval (Network.answerAt undisturbed ())
    quietNetwork).2 = n at hworld hreach
  exact ⟨n, _, hworld ▸ sampleCid_mem_quietOutcome, hreach⟩

/-- The message has been recorded, so it is on-chain. -/
theorem no_message_lost_anywhere_pair : ∃ n : Network Account.samplePlatform Unit,
    sampleCid ∈ (n.worldAt ()).db.anchored ∧
      ∃ b, decodeCid sampleCrates sampleCid = .ok b ∧ n.Registered b := by
  obtain ⟨n, ps, hrow, hreach⟩ := exists_reachable_pair
  have hlost := no_message_lost_anywhere sampleCrates Account.samplePlatform
    (fun _ : Unit ↦ "queue") (fun _ : Bool ↦ ()) (hreach _ _ initial_quietNetwork)
  exact ⟨n, hrow, (hlost.1 ()).1 sampleCid hrow⟩

end Whistleblower.BatchAnchor
