import Whistleblower.BatchAnchor.Run
import Whistleblower.Registry.Ledger

/-!
# Runs in fixed surroundings

The world of the batch anchor when nobody else changes it: the queue file and the bridge give the
same answers for good, and `spel` is a function of the registry. A run is then a function of what
the runs before it have left behind, the `Session`.

There is one lemma for each function of the run, saying what it evaluates to. `eval_process_real`
and `eval_process_dry` are the two that count: what an iteration does with a non-empty poll. What a
real one leaves in the state DB is `Db.recorded`.
-/

namespace Whistleblower.BatchAnchor

variable {P : Platform}

/-- What a sequence of runs finds around it and does not change. -/
structure Surroundings (P : Platform) where
  files : String → Except IoError String
  http : String → Except String String
  /-- What the clock says at the successive readings of one process. -/
  clock : ℕ → UInt64
  /-- What a call of `spel` answers, and the registry after it. -/
  spel : Account P → SpelCommand → Except String Output × Account P

/-- What a run leaves behind: the state DB, the registry, and the `spel` calls made so far. -/
structure Session (P : Platform) where
  db : Db
  registry : Account P
  submitted : List SpelCommand
  /-- How often the running process has read the clock. -/
  readings : ℕ

/-- The session at the start of a new process. -/
def Session.restart (s : Session P) : Session P :=
  { s with readings := 0 }

@[simp] theorem Session.restart_db (s : Session P) : s.restart.db = s.db := rfl

theorem Session.db_eq_of_restart {s t : Session P} (h : s.restart = t.restart) : s.db = t.db := by
  rw [← s.restart_db, h, t.restart_db]

variable (K : Crates) (E : Surroundings P)

/-- How the surroundings answer. -/
def Surroundings.answer : (o : Op) → Session P → o.Ret × Session P
  | .readToString path, s => (E.files path, s)
  | .httpGet url, s => (E.http url, s)
  | .countAnchored cid, s => (.ok (if cid ∈ s.db.anchored then 1 else 0), s)
  | .insertAnchored cid, s => (.ok (), { s with db := s.db.mark cid })
  | .selectCursor, s => (.ok s.db.cursorCell, s)
  | .replaceCursor value, s => (.ok (), { s with db := s.db.setCell value })
  | .now, s => (E.clock s.readings, { s with readings := s.readings + 1 })
  | .sleep _, s => ((), s)
  | .spel command, s =>
    ((E.spel s.registry command).1,
      { s with
        registry := (E.spel s.registry command).2
        submitted := s.submitted ++ [command] })

/-! ### Polling -/

/-- What a poll gives. -/
def pollResult (source topic : String) (after : UInt64) (limit : ℕ) :
    Except String (List DeliveryMsg) :=
  match stripPrefix "file:" source with
  | some path =>
    match E.files path with
    | .ok text => pollText K text after limit
    | .error .notFound => .ok []
    | .error .other => .error "reading delivery queue"
  | none =>
    match stripPrefix "http:" source with
    | some _ => (E.http (messagesUrl source topic after limit)).map (pollBody K)
    | none =>
      .error ("unknown --delivery-source '" ++ source ++ "' (use file:<path> or http:<url>)")

theorem pollResult_of_file {source path text : String}
    (hsource : stripPrefix "file:" source = some path) (hfile : E.files path = .ok text)
    (topic : String) (after : UInt64) (limit : ℕ) :
    pollResult K E source topic after limit = pollText K text after limit := by
  rw [pollResult, hsource]
  simp only [hfile]

variable {K E} in
/-- **What a poll has read**: a queue file, unless it is not there, or the body of a response. -/
theorem pollResult_cases {source topic : String} {after : UInt64} {limit : ℕ}
    {msgs : List DeliveryMsg} (h : pollResult K E source topic after limit = .ok msgs) :
    (∃ path, stripPrefix "file:" source = some path ∧
      (msgs = [] ∨ ∃ text, pollText K text after limit = .ok msgs)) ∨
    ∃ rest body, stripPrefix "http:" source = some rest ∧
      E.http (messagesUrl source topic after limit) = .ok body ∧ pollBody K body = msgs := by
  rw [pollResult] at h
  cases hfile : stripPrefix "file:" source with
  | some path =>
    simp only [hfile] at h
    split at h
    · next text _ => exact Or.inl ⟨path, rfl, Or.inr ⟨text, h⟩⟩
    · exact Or.inl ⟨path, rfl, Or.inl (Except.ok.inj h).symm⟩
    · cases h
  | none =>
    cases hhttp : stripPrefix "http:" source with
    | some rest =>
      simp only [hfile, hhttp] at h
      cases hget : E.http (messagesUrl source topic after limit) with
      | ok body =>
        rw [hget] at h
        exact Or.inr ⟨rest, body, rfl, rfl, Except.ok.inj h⟩
      | error e =>
        rw [hget] at h
        cases h
    | none =>
      simp only [hfile, hhttp] at h
      cases h

/-- A poll changes nothing. -/
theorem eval_pollDelivery (source topic : String) (after : UInt64) (limit : ℕ) (s : Session P) :
    (pollDelivery K source topic after limit).eval E.answer s =
      (pollResult K E source topic after limit, s) := by
  rw [pollDelivery, pollResult]
  cases stripPrefix "file:" source with
  | some path =>
    simp only [Process.eval_op, Surroundings.answer]
    cases E.files path with
    | ok text => exact Process.eval_ofExcept _ _ _
    | error e => cases e <;> rfl
  | none =>
    cases stripPrefix "http:" source with
    | some rest =>
      simp only [Process.eval_op, Surroundings.answer]
      cases E.http (messagesUrl source topic after limit) <;> rfl
    | none => rfl

/-! ### The state DB -/

theorem eval_loadCursor (s : Session P) :
    loadCursor.eval E.answer s = (.ok s.db.cursor, s) := rfl

theorem eval_isAnchored (cid : String) (s : Session P) :
    (isAnchored cid).eval E.answer s = (.ok (decide (cid ∈ s.db.anchored)), s) := by
  show (Except.ok (decide (0 < if cid ∈ s.db.anchored then 1 else 0)), s) = _
  split <;> simp_all

/-- The entry of a message that is to be anchored. -/
def entryOf (anchored : Finset String) (m : DeliveryMsg) : Option AnchorEntry :=
  if m.payload.cid ∈ anchored then none
  else
    match decodeCid K m.payload.cid with
    | .error _ => none
    | .ok cid => some (cid, metadataHashFromPayload K.sha256 m.payload, m.payload.cid)

/-- The message is still to be anchored: its CID has no row, and can be decoded. -/
def Fresh (anchored : Finset String) (m : DeliveryMsg) : Prop :=
  m.payload.cid ∉ anchored ∧ Decodable K m.payload.cid

/-- There is an entry for the messages that are still to be anchored, and only for these. -/
theorem entryOf_eq_some {anchored : Finset String} {m : DeliveryMsg} {e : AnchorEntry} :
    entryOf K anchored m = some e ↔ m.payload.cid ∉ anchored ∧
      decodeCid K m.payload.cid = .ok e.1 ∧
      e.2 = (metadataHashFromPayload K.sha256 m.payload, m.payload.cid) := by
  rw [entryOf]
  split
  · next hrow => exact ⟨nofun, fun h ↦ absurd hrow h.1⟩
  · next hrow =>
    cases hcid : decodeCid K m.payload.cid with
    | error e' => exact ⟨nofun, fun h ↦ nomatch h.2.1⟩
    | ok cid =>
      refine ⟨fun h ↦ ?_, fun ⟨_, hok, hrest⟩ ↦ ?_⟩
      · obtain rfl := Option.some.inj h
        exact ⟨hrow, rfl, rfl⟩
      · obtain rfl := Except.ok.inj hok
        exact congrArg some (Prod.ext rfl hrest.symm)

theorem isSome_entryOf {anchored : Finset String} {m : DeliveryMsg} :
    (entryOf K anchored m).isSome ↔ Fresh K anchored m := by
  rw [Option.isSome_iff_exists]
  constructor
  · rintro ⟨e, he⟩
    obtain ⟨hrow, hcid, -⟩ := (entryOf_eq_some K).1 he
    exact ⟨hrow, e.1, hcid⟩
  · rintro ⟨hrow, cid, hcid⟩
    exact ⟨(cid, _), (entryOf_eq_some K).2 ⟨hrow, hcid, rfl⟩⟩

/-- **Gathering** reads the DB and changes nothing. -/
theorem eval_gather (msgs : List DeliveryMsg) (cursor : UInt64) (entries : List AnchorEntry)
    (s : Session P) :
    (gather K msgs cursor entries).eval E.answer s =
      (.ok (newest cursor msgs, entries ++ msgs.filterMap (entryOf K s.db.anchored)), s) := by
  induction msgs generalizing cursor entries with
  | nil => rw [gather, Process.eval_pure, List.filterMap_nil, List.append_nil, newest_nil]
  | cons m msgs ih =>
    rw [gather, Process.eval_bind_of_ok _ (eval_isAnchored E m.payload.cid s), newest_cons]
    by_cases hrow : m.payload.cid ∈ s.db.anchored
    · have hnone : entryOf K s.db.anchored m = none := if_pos hrow
      rw [if_pos (by simpa using hrow), ih, List.filterMap_cons_none hnone]
    · -- only a CID without a row is decoded
      rw [if_neg (by simpa using hrow)]
      cases hcid : decodeCid K m.payload.cid with
      | error e =>
        have hnone : entryOf K s.db.anchored m = none := by
          rw [entryOf, if_neg hrow, hcid]
        rw [List.filterMap_cons_none hnone]
        exact ih _ _
      | ok cid =>
        have hsome : entryOf K s.db.anchored m =
            some (cid, metadataHashFromPayload K.sha256 m.payload, m.payload.cid) := by
          rw [entryOf, if_neg hrow, hcid]
        rw [List.filterMap_cons_some hsome, ← List.singleton_append, ← List.append_assoc]
        exact ih _ _

/-- **Recording** adds a row for each entry. -/
theorem eval_markAll (entries : List AnchorEntry) (s : Session P) :
    (markAll entries).eval E.answer s =
      (.ok (), { s with db := entries.foldl (fun db e ↦ db.mark e.2.2) s.db }) := by
  induction entries generalizing s with
  | nil => rfl
  | cons e entries ih =>
    have hmark : (markAnchored e.2.2).eval E.answer s =
        (.ok (), { s with db := s.db.mark e.2.2 }) := rfl
    rw [markAll, Process.eval_bind_of_ok _ hmark, ih]
    rfl

theorem mem_anchored_foldl_mark {entries : List AnchorEntry} {db : Db} {cid : String} :
    cid ∈ (entries.foldl (fun db e ↦ db.mark e.2.2) db).anchored ↔
      cid ∈ db.anchored ∨ ∃ e ∈ entries, e.2.2 = cid := by
  induction entries generalizing db with
  | nil => simp
  | cons e entries ih =>
    rw [List.foldl_cons, ih, Db.anchored_mark, Finset.mem_insert, List.exists_mem_cons_iff,
      or_assoc, or_left_comm, eq_comm]

/-! ### Submitting -/

/-- Every call of `spel` succeeds. -/
def Surroundings.SpelSucceeds : Prop :=
  ∀ registry command, ∃ out, (E.spel registry command).1 = .ok out ∧ out.success = true

/-- A call of `spel` on this registry succeeds. -/
def Surroundings.Lands (registry : Account P) (command : SpelCommand) : Prop :=
  ∃ out, (E.spel registry command).1 = .ok out ∧ out.success = true

/-- What an iteration submits: one command, if there is an entry. -/
def submission (cli : Cfg) (entries : List AnchorEntry) (timestamp : UInt64) : List SpelCommand :=
  if entries = [] then [] else [spelCommand cli entries timestamp]

variable {K E}

/-- **A call of `spel`** is made once, and ends the run if it fails. -/
theorem eval_anchorViaSpel (cli : Cfg) (entries : List AnchorEntry) (timestamp : UInt64)
    (s : Session P) :
    ∃ r, (anchorViaSpel cli entries timestamp).eval E.answer s =
        (r, (E.answer (.spel (spelCommand cli entries timestamp)) s).2) ∧
      (E.Lands s.registry (spelCommand cli entries timestamp) ∧ r = .ok () ∨
        ¬ E.Lands s.registry (spelCommand cli entries timestamp) ∧ ∃ e, r = .error e) := by
  simp only [anchorViaSpel, Process.eval_op]
  cases hr : (E.answer (.spel (spelCommand cli entries timestamp)) s).1 with
  | error e =>
    refine ⟨_, rfl, Or.inr ⟨?_, _, rfl⟩⟩
    rintro ⟨out, hout, -⟩
    exact nomatch hr.symm.trans hout
  | ok out =>
    by_cases hsuccess : out.success = true
    · simp only [if_pos hsuccess]
      exact ⟨_, rfl, Or.inl ⟨⟨out, hr, hsuccess⟩, rfl⟩⟩
    · simp only [if_neg hsuccess]
      refine ⟨_, rfl, Or.inr ⟨?_, _, rfl⟩⟩
      rintro ⟨out', hout, hsuccess'⟩
      obtain rfl := Except.ok.inj (hr.symm.trans hout)
      exact hsuccess hsuccess'

/-! ### The state DB after a poll has been handled -/

variable (K) in
/-- A row for each entry, and the cursor behind all messages. -/
def Db.recorded (db : Db) (cursor : UInt64) (msgs : List DeliveryMsg) : Db :=
  ((msgs.filterMap (entryOf K db.anchored)).foldl (fun db e ↦ db.mark e.2.2) db).setCell
    (Decimal.render (newest cursor msgs))

variable {db : Db} {cursor : UInt64} {msgs : List DeliveryMsg}

@[simp] theorem cursor_recorded : (db.recorded K cursor msgs).cursor = newest cursor msgs :=
  Db.cursor_setCell_render _ _

theorem mem_anchored_recorded {cid : String} :
    cid ∈ (db.recorded K cursor msgs).anchored ↔
      cid ∈ db.anchored ∨ ∃ e ∈ msgs.filterMap (entryOf K db.anchored), e.2.2 = cid := by
  rw [Db.recorded, Db.anchored_setCell, mem_anchored_foldl_mark]

theorem anchored_subset_recorded : db.anchored ⊆ (db.recorded K cursor msgs).anchored :=
  fun _ hcid ↦ mem_anchored_recorded.2 (Or.inl hcid)

/-- **Every message that can be decoded** has a row afterwards. -/
theorem mem_anchored_recorded_of_mem {m : DeliveryMsg} (hm : m ∈ msgs)
    (hdecodable : Decodable K m.payload.cid) :
    m.payload.cid ∈ (db.recorded K cursor msgs).anchored := by
  obtain ⟨cid, hcid⟩ := hdecodable
  rw [mem_anchored_recorded]
  by_cases hrow : m.payload.cid ∈ db.anchored
  · exact Or.inl hrow
  · have hsome : entryOf K db.anchored m =
        some (cid, metadataHashFromPayload K.sha256 m.payload, m.payload.cid) :=
      (entryOf_eq_some K).2 ⟨hrow, hcid, rfl⟩
    exact Or.inr ⟨_, List.mem_filterMap.2 ⟨m, hm, hsome⟩, rfl⟩

/-! ### What an iteration does with a non-empty poll -/

variable {cli : Cfg} {args : RunArgs}

/-- **A dry run moves the cursor**, and does nothing else. -/
theorem eval_process_dry (hdry : args.dryRun = true) (cursor : UInt64) (batchesSubmitted : ℕ)
    (s : Session P) :
    ∃ b readings, (process K cli args cursor batchesSubmitted msgs).eval E.answer s =
      (.ok (Next.unlessOnce args (newest cursor msgs) b),
        { s with
          db := s.db.setCell (Decimal.render (newest cursor msgs))
          readings := readings }) := by
  rw [process, Process.eval_bind_of_ok _ (eval_gather K E msgs cursor [] s), List.nil_append]
  generalize msgs.filterMap (entryOf K s.db.anchored) = entries
  show ∃ b readings, (if entries = [] then _ else _ : Proc Next).eval E.answer s = _
  split
  · exact ⟨batchesSubmitted, s.readings, rfl⟩
  · exact ⟨batchesSubmitted + 1, s.readings + 1, rfl⟩

/-- **A real run** submits the new entries. If they land, they are recorded and the cursor moves; if
not, nothing is recorded and the run ends. -/
theorem eval_process_real (hdry : args.dryRun = false) (cursor : UInt64) (batchesSubmitted : ℕ)
    (s : Session P) :
    ∃ r s', (process K cli args cursor batchesSubmitted msgs).eval E.answer s = (r, s') ∧
      s'.submitted = s.submitted ++
        submission cli (msgs.filterMap (entryOf K s.db.anchored)) (E.clock s.readings) ∧
      ((∀ command ∈ submission cli (msgs.filterMap (entryOf K s.db.anchored))
            (E.clock s.readings), E.Lands s.registry command) ∧
          (∃ b, r = .ok (Next.unlessOnce args (newest cursor msgs) b)) ∧
          s'.db = s.db.recorded K cursor msgs ∨
        (∃ command ∈ submission cli (msgs.filterMap (entryOf K s.db.anchored))
            (E.clock s.readings), ¬ E.Lands s.registry command) ∧
          (∃ e, r = .error e) ∧ s'.db = s.db) := by
  rw [process, Process.eval_bind_of_ok _ (eval_gather K E msgs cursor [] s), List.nil_append,
    Db.recorded, submission]
  generalize msgs.filterMap (entryOf K s.db.anchored) = entries
  rcases eq_or_ne entries [] with rfl | hne
  · rw [if_pos rfl]
    refine ⟨_, _, rfl, (List.append_nil _).symm, Or.inl ⟨fun command hcommand ↦ ?_,
      ⟨batchesSubmitted, rfl⟩, rfl⟩⟩
    exact absurd hcommand List.not_mem_nil
  · -- the clock, the call of `spel`, a row for each entry, the cursor
    have hnow : now.eval E.answer s =
        (.ok (E.clock s.readings), { s with readings := s.readings + 1 }) := rfl
    obtain ⟨r, hanchor, hr⟩ := eval_anchorViaSpel cli entries (E.clock s.readings)
      { s with readings := s.readings + 1 }
    simp only [if_neg hne]
    rw [Process.eval_bind_of_ok _ hnow]
    simp only [hdry, Bool.false_eq_true, if_false]
    rcases hr with ⟨hlands, rfl⟩ | ⟨hfails, e, rfl⟩
    · rw [Process.eval_bind_of_ok _ hanchor, Process.eval_bind_of_ok _ (eval_markAll E entries _)]
      refine ⟨_, _, rfl, rfl, Or.inl ⟨fun command hcommand ↦ ?_, ⟨batchesSubmitted + 1, rfl⟩, rfl⟩⟩
      rw [List.mem_singleton.1 hcommand]
      exact hlands
    · rw [Process.eval_bind_of_error _ hanchor]
      exact ⟨_, _, rfl, rfl, Or.inr ⟨⟨_, List.mem_singleton_self _, hfails⟩, ⟨e, rfl⟩, rfl⟩⟩

/-- Where `spel` succeeds, a real run records what it has polled. -/
theorem eval_process_recorded (hdry : args.dryRun = false) (hspel : E.SpelSucceeds)
    (cursor : UInt64) (batchesSubmitted : ℕ) (s : Session P) :
    ∃ b s', (process K cli args cursor batchesSubmitted msgs).eval E.answer s =
        (.ok (Next.unlessOnce args (newest cursor msgs) b), s') ∧
      s'.db = s.db.recorded K cursor msgs := by
  obtain ⟨r, s', heval, -, hends⟩ := eval_process_real hdry cursor batchesSubmitted s
  rcases hends with ⟨-, ⟨b, rfl⟩, hdb⟩ | ⟨⟨command, -, hfails⟩, -⟩
  · exact ⟨b, s', heval, hdb⟩
  · exact absurd (hspel _ command) hfails

/-! ### An iteration -/

variable {batchesSubmitted : ℕ}

/-- **An iteration below `--max-batches`** goes on with what its poll returns. -/
theorem eval_iteration_of_ok (hgo : ¬ (args.maxBatches > 0 ∧ batchesSubmitted ≥ args.maxBatches))
    (hpoll : pollResult K E cli.deliverySource args.topic cursor args.batchSize = .ok msgs)
    (s : Session P) :
    (iteration K cli args cursor batchesSubmitted).eval E.answer s =
      if msgs = [] then (.ok (Next.unlessOnce args cursor batchesSubmitted), s)
      else (process K cli args cursor batchesSubmitted msgs).eval E.answer s := by
  have heval := eval_pollDelivery K E cli.deliverySource args.topic cursor args.batchSize s
  rw [hpoll] at heval
  rw [iteration, if_neg hgo, Process.eval_bind_of_ok _ heval]
  split
  · rw [Next.unlessOnce]
    split <;> rfl
  · rfl

theorem eval_iteration_of_error
    (hgo : ¬ (args.maxBatches > 0 ∧ batchesSubmitted ≥ args.maxBatches)) {e : String}
    (hpoll : pollResult K E cli.deliverySource args.topic cursor args.batchSize = .error e)
    (s : Session P) :
    (iteration K cli args cursor batchesSubmitted).eval E.answer s = (.error e, s) := by
  have heval := eval_pollDelivery K E cli.deliverySource args.topic cursor args.batchSize s
  rw [hpoll] at heval
  rw [iteration, if_neg hgo, Process.eval_bind_of_error _ heval]

theorem eval_iteration_of_enough
    (hstop : args.maxBatches > 0 ∧ batchesSubmitted ≥ args.maxBatches) (s : Session P) :
    (iteration K cli args cursor batchesSubmitted).eval E.answer s = (.ok .done, s) := by
  rw [iteration, if_pos hstop, Process.eval_pure]

/-- A run loads the cursor and enters the loop with it. -/
theorem eval_run (n : ℕ) (s : Session P) :
    (run K cli args n).eval E.answer s = (runLoop K cli args n s.db.cursor 0).eval E.answer s := by
  rw [run, Process.eval_bind_of_ok _ (eval_loadCursor E s)]

/-! ### Surroundings for concrete runs -/

/-- Every file holds this text, no bridge answers, and a batch lands if the program takes it. -/
def quietSurroundings (text : String) : Surroundings Account.samplePlatform where
  files _ := .ok text
  http _ := .error "connection refused"
  clock _ := 1700000000
  spel registry command :=
    (.ok ⟨true, "Some(0)", ""⟩, match command.batch? with
      | none => registry
      | some b => CidRegistryProgram.execute registry b)

theorem spelSucceeds_quietSurroundings (text : String) : (quietSurroundings text).SpelSucceeds :=
  fun _ _ ↦ ⟨_, rfl, rfl⟩

/-- An empty registry and a fresh state DB. -/
def quietSession : Session Account.samplePlatform :=
  ⟨Db.fresh, Account.emptyRegistry, [], 0⟩

end Whistleblower.BatchAnchor
