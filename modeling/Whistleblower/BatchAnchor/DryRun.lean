import Whistleblower.BatchAnchor.Session
import Whistleblower.BatchAnchor.WireFormat

/-!
# Dry runs

A dry run is announced as printing what would be anchored without submitting anything. The flag
guards the submission and the `anchored` table, but `save_cursor` stands behind the guard, so a dry
run persists the cursor over the messages it has only printed. The run that follows loads that
cursor and never sees them.

`sideEffectFree_iff` says exactly when the dry run leaves no trace: when its first poll brings no
message, or brings only messages the cursor is past already and the cell holds the very text that is
written back. The bridge can answer in the second way; a file cannot.
-/

namespace Whistleblower.BatchAnchor

variable {P : Platform} (K : Crates) (E : Surroundings P) (cli : Cfg) (args : RunArgs)

/-- The same arguments with `--dry-run`. -/
def RunArgs.asDryRun (args : RunArgs) : RunArgs :=
  { args with dryRun := true }

/-- The same arguments without it. -/
def RunArgs.asRealRun (args : RunArgs) : RunArgs :=
  { args with dryRun := false }

/-- The session after at most `n` iterations of a run. Irreducible, so that no run is evaluated
where only its result is spoken of. -/
@[irreducible] def after (n : ℕ) (s : Session P) : Session P :=
  ((run K cli args n).eval E.answer s).2

/-- **A dry run is free of side effects**: it leaves the state DB as it was, and a real run after it
ends with the same batches, state DB and registry as that run alone. -/
def SideEffectFree (s : Session P) : Prop :=
  (∀ n, (after K E cli args.asDryRun n s).db = s.db) ∧
    ∀ (real : RunArgs) (n m : ℕ),
      after K E cli real.asRealRun m (after K E cli args.asDryRun n s).restart =
        after K E cli real.asRealRun m s.restart

/-- Nothing is to be done about the first poll: it brings no message, or only messages up to the
cursor while the cell holds the cursor as `save_cursor` writes it. -/
def NothingToSave (s : Session P) : Prop :=
  ∀ msgs, pollResult K E cli.deliverySource args.topic s.db.cursor args.batchSize = .ok msgs →
    msgs = [] ∨ ((∀ m ∈ msgs, m.seq ≤ s.db.cursor) ∧
      s.db.cursorCell = some (Decimal.render s.db.cursor))

variable {K E cli args}

/-! ### Where nothing is to be saved -/

/-- **One iteration** then leaves everything but the clock readings, and goes on with the same
cursor. -/
theorem eval_iteration_dry (hdry : args.dryRun = true) {s t : Session P}
    (hnothing : NothingToSave K E cli args s) (hsame : t.restart = s.restart)
    (batchesSubmitted : ℕ) :
    ∃ next t', (iteration K cli args s.db.cursor batchesSubmitted).eval E.answer t = (next, t') ∧
      t'.restart = s.restart ∧ ∀ cursor b, next = .ok (.again cursor b) → cursor = s.db.cursor := by
  by_cases hstop : args.maxBatches > 0 ∧ batchesSubmitted ≥ args.maxBatches
  · exact ⟨_, _, eval_iteration_of_enough hstop t, hsame, nofun⟩
  · cases hpoll : pollResult K E cli.deliverySource args.topic s.db.cursor args.batchSize with
    | error e => exact ⟨_, _, eval_iteration_of_error hstop hpoll t, hsame, nofun⟩
    | ok msgs =>
      rw [eval_iteration_of_ok hstop hpoll]
      rcases eq_or_ne msgs [] with rfl | hne
      · rw [if_pos rfl]
        exact ⟨_, _, rfl, hsame, fun _ _ h ↦ Next.cursor_of_unlessOnce (Except.ok.inj h)⟩
      · obtain ⟨hseen, hcell⟩ := (hnothing msgs hpoll).resolve_left hne
        obtain ⟨b, readings, heval⟩ := eval_process_dry hdry s.db.cursor batchesSubmitted t
        have hnewest := newest_eq_self_iff.2 hseen
        have hdb : t.db = s.db := Session.db_eq_of_restart hsame
        -- what is written back is what the cell holds
        have hback : t.db.setCell (Decimal.render (newest s.db.cursor msgs)) = t.db := by
          rw [hnewest, hdb, Db.setCell, ← hcell]
        rw [if_neg hne]
        refine ⟨_, _, heval, ?_, fun _ _ h ↦ ?_⟩
        · rw [hback]
          exact hsame
        · exact (Next.cursor_of_unlessOnce (Except.ok.inj h)).trans hnewest

theorem eval_runLoop_dry (hdry : args.dryRun = true) {s : Session P}
    (hnothing : NothingToSave K E cli args s) (n : ℕ) {t : Session P}
    (hsame : t.restart = s.restart) (batchesSubmitted : ℕ) :
    ((runLoop K cli args n s.db.cursor batchesSubmitted).eval E.answer t).2.restart =
      s.restart := by
  induction n generalizing t batchesSubmitted with
  | zero => exact hsame
  | succ n ih =>
    obtain ⟨next, t', heval, hsame', hcursor⟩ :=
      eval_iteration_dry hdry hnothing hsame batchesSubmitted
    rw [runLoop, Process.eval_bind, heval]
    match next with
    | .error e => exact hsame'
    | .ok .done => exact hsame'
    | .ok (.again cursor b) =>
      obtain rfl := hcursor cursor b rfl
      exact ih hsame' b

/-- A whole run then leaves everything but the clock readings. -/
theorem restart_after_dry (hdry : args.dryRun = true) {s : Session P}
    (hnothing : NothingToSave K E cli args s) (n : ℕ) :
    (after K E cli args n s).restart = s.restart := by
  unfold after
  rw [eval_run]
  exact eval_runLoop_dry hdry hnothing n rfl 0

/-! ### Where something is to be saved -/

/-- What a single iteration leaves behind. -/
theorem after_one (s : Session P) :
    after K E cli args 1 s = ((iteration K cli args s.db.cursor 0).eval E.answer s).2 := by
  unfold after
  rw [eval_run, runLoop, Process.eval_bind]
  generalize (iteration K cli args s.db.cursor 0).eval E.answer s = r
  match r with
  | (.error e, t) => rfl
  | (.ok .done, t) => rfl
  | (.ok (.again cursor b), t) => rfl

/-- **The first iteration** writes the newest of its messages into the cell. -/
theorem db_after_one_dry (hdry : args.dryRun = true) {s : Session P} {msgs : List DeliveryMsg}
    (hpoll : pollResult K E cli.deliverySource args.topic s.db.cursor args.batchSize = .ok msgs)
    (hne : msgs ≠ []) :
    (after K E cli args 1 s).db = s.db.setCell (Decimal.render (newest s.db.cursor msgs)) := by
  have hgo : ¬ (args.maxBatches > 0 ∧ 0 ≥ args.maxBatches) := by omega
  obtain ⟨b, readings, heval⟩ := eval_process_dry hdry s.db.cursor 0 s
  rw [after_one, eval_iteration_of_ok hgo hpoll, if_neg hne, heval]

/-- **The first iteration of a real run** records the messages that can be decoded. -/
theorem anchored_after_one_real (hdry : args.dryRun = false) (hspel : E.SpelSucceeds)
    {s : Session P} {msgs : List DeliveryMsg}
    (hpoll : pollResult K E cli.deliverySource args.topic s.db.cursor args.batchSize = .ok msgs)
    {m : DeliveryMsg} (hm : m ∈ msgs) (hdecodable : Decodable K m.payload.cid) :
    m.payload.cid ∈ (after K E cli args 1 s).db.anchored := by
  have hgo : ¬ (args.maxBatches > 0 ∧ 0 ≥ args.maxBatches) := by omega
  obtain ⟨b, s', heval, hdb⟩ := eval_process_recorded hdry hspel s.db.cursor 0 s
  rw [after_one, eval_iteration_of_ok hgo hpoll, if_neg (List.ne_nil_of_mem hm), heval, hdb]
  exact mem_anchored_recorded_of_mem hm hdecodable

/-! ### The result -/

theorem sideEffectFree_of_nothingToSave {s : Session P} (h : NothingToSave K E cli args s) :
    SideEffectFree K E cli args s := by
  have hrestart : ∀ n, (after K E cli args.asDryRun n s).restart = s.restart :=
    restart_after_dry rfl h
  exact ⟨fun n ↦ Session.db_eq_of_restart (hrestart n),
    fun real n m ↦ congrArg (after K E cli real.asRealRun m) (hrestart n)⟩

theorem nothingToSave_of_sideEffectFree {s : Session P} (h : SideEffectFree K E cli args s) :
    NothingToSave K E cli args s := by
  intro msgs hpoll
  refine or_iff_not_imp_left.2 fun hne ↦ ?_
  have hfirst : (after K E cli args.asDryRun 1 s).db =
      s.db.setCell (Decimal.render (newest s.db.cursor msgs)) :=
    db_after_one_dry rfl (show pollResult K E cli.deliverySource args.asDryRun.topic s.db.cursor
      args.asDryRun.batchSize = .ok msgs from hpoll) hne
  have hdb : s.db.setCell (Decimal.render (newest s.db.cursor msgs)) = s.db :=
    hfirst.symm.trans (h.1 1)
  have hnewest : newest s.db.cursor msgs = s.db.cursor := by
    rw [← Db.cursor_setCell_render s.db (newest s.db.cursor msgs), hdb]
  refine ⟨newest_eq_self_iff.1 hnewest, ?_⟩
  rw [hnewest] at hdb
  exact (congrArg Db.cursorCell hdb).symm

/-- **What a dry run leaves behind.** It is free of side effects exactly if its first poll gives it
nothing to save. -/
theorem sideEffectFree_iff (K : Crates) (P : Platform) (E : Surroundings P) (cli : Cfg)
    (args : RunArgs) (s : Session P) :
    SideEffectFree K E cli args s ↔ NothingToSave K E cli args s :=
  ⟨nothingToSave_of_sideEffectFree, sideEffectFree_of_nothingToSave⟩

/-- Over a well-formed queue file, that is to say that the cursor is past every message already. -/
theorem sideEffectFree_iff_of_messages {path text : String} {msgs : List DeliveryMsg}
    (hsource : stripPrefix "file:" cli.deliverySource = some path) (hfile : E.files path = .ok text)
    (hmsgs : messages K text = some msgs) {s : Session P} :
    SideEffectFree K E cli args s ↔ ∀ m ∈ msgs, m.seq ≤ s.db.cursor := by
  have hpoll : pollResult K E cli.deliverySource args.topic s.db.cursor args.batchSize =
      .ok (sortBySeq ((msgs.filter (s.db.cursor < ·.seq)).take (max args.batchSize 1))) := by
    rw [pollResult_of_file K E hsource hfile]
    exact pollText_of_messages K hmsgs _ _
  constructor
  · intro hfree m hm
    by_contra hnot
    have hnew : m ∈ msgs.filter (s.db.cursor < ·.seq) :=
      List.mem_filter.2 ⟨hm, decide_eq_true (UInt64.not_le.1 hnot)⟩
    -- the poll returns the first message above the cursor at least
    obtain ⟨n, rest, hcons⟩ := List.exists_cons_of_ne_nil (List.ne_nil_of_mem hnew)
    obtain ⟨k, hk⟩ : ∃ k, max args.batchSize 1 = k + 1 := ⟨max args.batchSize 1 - 1, by omega⟩
    have hpolled :
        n ∈ sortBySeq ((msgs.filter (s.db.cursor < ·.seq)).take (max args.batchSize 1)) := by
      rw [sortBySeq, List.mem_mergeSort, hcons, hk, List.take_succ_cons]
      exact List.mem_cons_self
    have hn : n ∈ msgs.filter (s.db.cursor < ·.seq) := by
      rw [hcons]
      exact List.mem_cons_self
    have hlt : s.db.cursor < n.seq := of_decide_eq_true (List.mem_filter.1 hn).2
    rcases nothingToSave_of_sideEffectFree hfree _ hpoll with hnil | ⟨hseen, -⟩
    · exact absurd hpolled (by rw [hnil]; exact List.not_mem_nil)
    · exact absurd hlt (hseen n hpolled).not_gt
  · intro hseen
    refine sideEffectFree_of_nothingToSave fun polled hpolled ↦ Or.inl ?_
    have hnone : msgs.filter (s.db.cursor < ·.seq) = [] :=
      List.filter_eq_nil_iff.2 fun m hm ↦ by simpa using hseen m hm
    rw [hpoll, hnone, List.take_nil] at hpolled
    exact (Except.ok.inj hpolled).symm.trans List.mergeSort_nil

/-! ### A dry run over a fresh state DB -/

theorem pollResult_quietQueue (after : UInt64) :
    pollResult sampleCrates (quietSurroundings quietQueue) queueCfg.deliverySource
      (onceArgs 50).topic after (onceArgs 50).batchSize =
        .ok (if after < 7 then [quietMessage] else []) := by
  have hsource : stripPrefix "file:" queueCfg.deliverySource = some "queue" := by decide +kernel
  rw [pollResult, hsource]
  exact pollText_singleton sampleCrates messages_quietQueue after 50

/-- **The message is lost to the registry.** A run on its own records it; after a dry run, the same
run does not see it. -/
theorem not_sideEffectFree_quietQueue :
    ¬ SideEffectFree sampleCrates (quietSurroundings quietQueue) queueCfg (onceArgs 50)
        quietSession ∧
      sampleCid ∈ (after sampleCrates (quietSurroundings quietQueue) queueCfg (onceArgs 50) 1
        quietSession).db.anchored ∧
      sampleCid ∉ (after sampleCrates (quietSurroundings quietQueue) queueCfg (onceArgs 50) 1
        (after sampleCrates (quietSurroundings quietQueue) queueCfg (onceArgs 50).asDryRun 1
          quietSession).restart).db.anchored := by
  have hgo : ¬ ((onceArgs 50).maxBatches > 0 ∧ 0 ≥ (onceArgs 50).maxBatches) := by decide
  have hnewest : newest 0 [quietMessage] = 7 := by decide
  have hcursor : quietSession.db.cursor = 0 := Db.cursor_fresh
  have hpoll : pollResult sampleCrates (quietSurroundings quietQueue) queueCfg.deliverySource
      (onceArgs 50).topic quietSession.db.cursor (onceArgs 50).batchSize = .ok [quietMessage] := by
    rw [hcursor, pollResult_quietQueue, if_pos (by decide)]
  have hdry : (after sampleCrates (quietSurroundings quietQueue) queueCfg (onceArgs 50).asDryRun 1
      quietSession).db = quietSession.db.setCell (Decimal.render 7) := by
    rw [← hnewest, ← hcursor]
    exact db_after_one_dry rfl hpoll (List.cons_ne_nil _ _)
  refine ⟨fun hfree ↦ ?_, ?_, ?_⟩
  · have hcell := congrArg Db.cursorCell (hdry.symm.trans (hfree.1 1))
    rw [Db.cursorCell_setCell] at hcell
    cases hcell
  · exact anchored_after_one_real rfl (spelSucceeds_quietSurroundings quietQueue) hpoll
      List.mem_cons_self ⟨_, decodeCid_sampleCid⟩
  · generalize after sampleCrates (quietSurroundings quietQueue) queueCfg (onceArgs 50).asDryRun 1
      quietSession = s at hdry ⊢
    have hmoved : s.restart.db.cursor = 7 := by
      rw [Session.restart_db, hdry, Db.cursor_setCell_render]
    have hpast : pollResult sampleCrates (quietSurroundings quietQueue) queueCfg.deliverySource
        (onceArgs 50).topic s.restart.db.cursor (onceArgs 50).batchSize = .ok [] := by
      rw [hmoved, pollResult_quietQueue, if_neg (by decide)]
    rw [after_one, eval_iteration_of_ok hgo hpast, if_pos rfl, Session.restart_db, hdry,
      Db.anchored_setCell]
    exact Finset.notMem_empty sampleCid

end Whistleblower.BatchAnchor
