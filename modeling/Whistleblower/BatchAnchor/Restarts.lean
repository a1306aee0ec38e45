import Whistleblower.BatchAnchor.Session

/-!
# Runs that are restarted

The batch anchor over time, one loop iteration after another: a process ends when `run` returns or
fails, it may be stopped between two iterations, and whenever none is running the next one is
started on what the ones before it have left behind. The schedule of the stops is arbitrary.

`tick_advances` is the step lemma for real runs: the state DB's cursor moves to the newest message
the poll returned, and the messages that can be decoded are in the `anchored` table. The loop
variable and the persisted cursor agree at every tick (`Moment.Synced`), so a restart changes
nothing about the next poll.
-/

namespace Whistleblower.BatchAnchor

variable {P : Platform}

/-- The time between two iterations: what is left behind so far, and the loop variables of the
process that is running, if one is. -/
structure Moment (P : Platform) where
  session : Session P
  running : Option (UInt64 × ℕ)

namespace Moment

/-- No process has been started yet. -/
def start (s : Session P) : Moment P :=
  ⟨s.restart, none⟩

/-- What an iteration has ended with. -/
def ofNext : Except String Next × Session P → Moment P
  | (.ok (.again cursor batchesSubmitted), s) => ⟨s, some (cursor, batchesSubmitted)⟩
  | (.ok .done, s) => ⟨s, none⟩
  | (.error _, s) => ⟨s, none⟩

/-- The loop variables of the process that makes the next iteration, unless it has to be started. -/
def survivor (restart : Bool) (c : Moment P) : Option (UInt64 × ℕ) :=
  if restart then none else c.running

/-- The loop variables of the next iteration. A new process loads the cursor. -/
def vars (restart : Bool) (c : Moment P) : UInt64 × ℕ :=
  (c.survivor restart).getD (c.session.db.cursor, 0)

/-- The session the next iteration starts in. -/
def resumed (restart : Bool) (c : Moment P) : Session P :=
  if c.survivor restart = none then c.session.restart else c.session

/-- The running process has persisted its cursor. -/
def Synced (c : Moment P) : Prop :=
  ∀ vars ∈ c.running, vars.1 = c.session.db.cursor

variable {c : Moment P} {restart : Bool}

theorem synced_of_not_running (h : c.running = none) : c.Synced := by
  intro vars hvars
  rw [h] at hvars
  exact absurd hvars (Option.not_mem_none vars)

theorem synced_start (s : Session P) : (start s).Synced :=
  synced_of_not_running rfl

@[simp] theorem resumed_db : (c.resumed restart).db = c.session.db := by
  rw [resumed]
  split <;> rfl

@[simp] theorem resumed_submitted : (c.resumed restart).submitted = c.session.submitted := by
  rw [resumed]
  split <;> rfl

theorem Synced.vars_fst (h : c.Synced) : (c.vars restart).1 = c.session.db.cursor := by
  rw [vars, survivor]
  split
  · rfl
  · cases hrunning : c.running with
    | none => rfl
    | some vars => exact h vars hrunning

theorem vars_of_not_running (h : c.running = none) : c.vars restart = (c.session.db.cursor, 0) := by
  rw [vars, survivor, h, ite_self]
  rfl

theorem synced_ofNext_unlessOnce {args : RunArgs} {cursor : UInt64} {s : Session P} (b : ℕ)
    (h : s.db.cursor = cursor) :
    (ofNext (.ok (Next.unlessOnce args cursor b), s)).Synced := by
  rw [Next.unlessOnce]
  split
  · exact synced_of_not_running rfl
  · intro vars hvars
    obtain rfl := Option.some.inj hvars
    exact h.symm

theorem ofNext_ok_session (next : Next) (s : Session P) : (ofNext (.ok next, s)).session = s := by
  cases next <;> rfl

end Moment

variable (K : Crates) (E : Surroundings P) (cli : Cfg) (args : RunArgs)

/-- One iteration, after a restart where one is asked for or no process is running. -/
def tick (restart : Bool) (c : Moment P) : Moment P :=
  .ofNext ((iteration K cli args (c.vars restart).1 (c.vars restart).2).eval E.answer
    (c.resumed restart))

/-- The moments of a schedule. -/
def moment (restarts : ℕ → Bool) (s : Session P) : ℕ → Moment P
  | 0 => .start s
  | n + 1 => tick K E cli args (restarts n) (moment restarts s n)

/-- The iteration ends the process, since it has submitted `--max-batches`. -/
def Stops (restart : Bool) (c : Moment P) : Prop :=
  args.maxBatches > 0 ∧ (c.vars restart).2 ≥ args.maxBatches

instance (restart : Bool) (c : Moment P) : Decidable (Stops args restart c) :=
  inferInstanceAs (Decidable (_ ∧ _))

/-- The messages that `poll_delivery` returns in an iteration: none if it is not called or fails. -/
def polled (restart : Bool) (c : Moment P) : List DeliveryMsg :=
  if Stops args restart c then []
  else
    (pollResult K E cli.deliverySource args.topic (c.vars restart).1
      args.batchSize).toOption.getD []

variable {K E cli args}

/-! ### One process -/

theorem exists_tick_eq_runLoop (n : ℕ) (s : Session P) (cursor : UInt64) (batchesSubmitted : ℕ) :
    ∃ k ≤ n, ((runLoop K cli args n cursor batchesSubmitted).eval E.answer s).2 =
      ((tick K E cli args false)^[k] ⟨s, some (cursor, batchesSubmitted)⟩).session := by
  induction n generalizing s cursor batchesSubmitted with
  | zero => exact ⟨0, Nat.le_refl 0, rfl⟩
  | succ n ih =>
    have htick : tick K E cli args false ⟨s, some (cursor, batchesSubmitted)⟩ =
      .ofNext ((iteration K cli args cursor batchesSubmitted).eval E.answer s) := rfl
    rw [runLoop, Process.eval_bind]
    generalize (iteration K cli args cursor batchesSubmitted).eval E.answer s = r at htick ⊢
    match r with
    | (.error e, s') => exact ⟨1, by omega, congrArg Moment.session htick.symm⟩
    | (.ok .done, s') => exact ⟨1, by omega, congrArg Moment.session htick.symm⟩
    | (.ok (.again cursor' b'), s') =>
      obtain ⟨k, hk, heq⟩ := ih s' cursor' b'
      refine ⟨k + 1, by omega, ?_⟩
      rw [Function.iterate_succ_apply, htick]
      exact heq

/-- **A run that nobody stops** goes through the moments without restarts. -/
theorem exists_moment_eq_run (n : ℕ) (s : Session P) :
    ∃ k ≤ n, ((run K cli args n).eval E.answer s.restart).2 =
      (moment K E cli args (fun _ ↦ false) s k).session := by
  have hmoment : ∀ k, moment K E cli args (fun _ ↦ false) s k =
      (tick K E cli args false)^[k] (.start s) := by
    intro k
    induction k with
    | zero => rfl
    | succ k ih => rw [Function.iterate_succ_apply', moment, ih]
  rw [eval_run, Session.restart_db]
  obtain ⟨k, hk, heq⟩ := exists_tick_eq_runLoop n s.restart s.db.cursor 0
  refine ⟨k, hk, heq.trans ?_⟩
  rw [hmoment]
  cases k with
  | zero => rfl
  | succ k => rfl

/-! ### One tick -/

/-- **What an iteration can do.** Without a message it leaves everything as it is; the messages of a
non-empty poll it processes. -/
theorem tick_cases {c : Moment P} (hsynced : c.Synced) (restart : Bool) :
    polled K E cli args restart c = [] ∧ (tick K E cli args restart c).Synced ∧
        (tick K E cli args restart c).session = c.resumed restart ∨
      polled K E cli args restart c ≠ [] ∧
        tick K E cli args restart c = .ofNext ((process K cli args c.session.db.cursor
          (c.vars restart).2 (polled K E cli args restart c)).eval E.answer
            (c.resumed restart)) := by
  have hcursor : (c.vars restart).1 = c.session.db.cursor := hsynced.vars_fst
  rw [polled, tick]
  by_cases hstops : Stops args restart c
  · rw [if_pos hstops, eval_iteration_of_enough hstops]
    exact Or.inl ⟨rfl, Moment.synced_of_not_running rfl, rfl⟩
  · rw [if_neg hstops]
    cases hpoll : pollResult K E cli.deliverySource args.topic (c.vars restart).1
        args.batchSize with
    | error e =>
      rw [eval_iteration_of_error hstops hpoll]
      exact Or.inl ⟨rfl, Moment.synced_of_not_running rfl, rfl⟩
    | ok msgs =>
      rw [eval_iteration_of_ok hstops hpoll, hcursor]
      show msgs = [] ∧ _ ∨ msgs ≠ [] ∧ _
      rcases eq_or_ne msgs [] with rfl | hne
      · rw [if_pos rfl]
        refine Or.inl ⟨rfl, Moment.synced_ofNext_unlessOnce _ ?_, Moment.ofNext_ok_session _ _⟩
        rw [Moment.resumed_db]
      · rw [if_neg hne]
        exact Or.inr ⟨hne, rfl⟩

/-- The entries that an iteration collects from what it polls. -/
def collected (K : Crates) (E : Surroundings P) (cli : Cfg) (args : RunArgs) (restart : Bool)
    (c : Moment P) : List AnchorEntry :=
  match ((gather K (polled K E cli args restart c) (c.vars restart).1 []).eval E.answer
      (c.resumed restart)).1 with
  | .ok (_, entries) => entries
  | .error _ => []

theorem collected_eq (restart : Bool) (c : Moment P) :
    collected K E cli args restart c =
      (polled K E cli args restart c).filterMap (entryOf K c.session.db.anchored) := by
  rw [collected, eval_gather, List.nil_append, Moment.resumed_db]

/-- **One tick of a real run.** What is collected is submitted. The state DB stays as it is, unless
there are messages and they have been dealt with. -/
theorem tick_real (hdry : args.dryRun = false) {c : Moment P} (hsynced : c.Synced)
    (restart : Bool) :
    (tick K E cli args restart c).Synced ∧
      (tick K E cli args restart c).session.submitted = c.session.submitted ++
        submission cli (collected K E cli args restart c)
          (E.clock (c.resumed restart).readings) ∧
      ((tick K E cli args restart c).session.db = c.session.db ∧
          (polled K E cli args restart c = [] ∨ ¬ E.SpelSucceeds) ∨
        (tick K E cli args restart c).session.db =
          c.session.db.recorded K c.session.db.cursor (polled K E cli args restart c)) := by
  rw [collected_eq]
  rcases tick_cases hsynced restart with ⟨hpolled, hsynced', hsession⟩ | ⟨-, htick⟩
  · rw [hsession, hpolled, Moment.resumed_db, Moment.resumed_submitted, List.filterMap_nil,
      submission, if_pos rfl, List.append_nil]
    exact ⟨hsynced', rfl, Or.inl ⟨rfl, Or.inl rfl⟩⟩
  · obtain ⟨r, s', heval, hsubmitted, hends⟩ :=
      eval_process_real hdry c.session.db.cursor (c.vars restart).2 (c.resumed restart)
    rw [htick, heval]
    rw [Moment.resumed_db] at hsubmitted hends
    rw [Moment.resumed_submitted] at hsubmitted
    rcases hends with ⟨-, ⟨b, rfl⟩, hdb⟩ | ⟨⟨command, -, hfails⟩, ⟨e, rfl⟩, hdb⟩
    · have hsession := Moment.ofNext_ok_session (Next.unlessOnce args
        (newest c.session.db.cursor (polled K E cli args restart c)) b) s'
      refine ⟨Moment.synced_ofNext_unlessOnce b ?_, ?_, Or.inr ?_⟩
      · rw [hdb, cursor_recorded]
      · rw [hsession, hsubmitted]
      · rw [hsession, hdb]
    · exact ⟨Moment.synced_of_not_running rfl, hsubmitted,
        Or.inl ⟨hdb, Or.inr fun hspel ↦ hfails (hspel _ command)⟩⟩

/-- **One tick of a dry run** submits nothing, and of the state DB it changes the cursor at most. -/
theorem tick_dry (hdry : args.dryRun = true) {c : Moment P} (hsynced : c.Synced)
    (restart : Bool) :
    (tick K E cli args restart c).Synced ∧
      (tick K E cli args restart c).session.submitted = c.session.submitted ∧
      ((tick K E cli args restart c).session.db = c.session.db ∨
        (tick K E cli args restart c).session.db = c.session.db.setCell (Decimal.render
          (newest c.session.db.cursor (polled K E cli args restart c)))) := by
  rcases tick_cases hsynced restart with ⟨-, hsynced', hsession⟩ | ⟨-, htick⟩
  · rw [hsession, Moment.resumed_db, Moment.resumed_submitted]
    exact ⟨hsynced', rfl, Or.inl rfl⟩
  · obtain ⟨b, readings, heval⟩ := eval_process_dry hdry c.session.db.cursor (c.vars restart).2
      (c.resumed restart)
    rw [htick, heval, Moment.ofNext_ok_session, Moment.resumed_db, Moment.resumed_submitted]
    exact ⟨Moment.synced_ofNext_unlessOnce b (Db.cursor_setCell_render _ _), rfl, Or.inr rfl⟩

/-- What an iteration that polls these messages does. -/
structure Advances (K : Crates) (msgs : List DeliveryMsg) (c c' : Moment P) : Prop where
  synced : c'.Synced
  cursor : c'.session.db.cursor = newest c.session.db.cursor msgs
  anchored_subset : c.session.db.anchored ⊆ c'.session.db.anchored
  anchored : ∀ m ∈ msgs, Decodable K m.payload.cid → m.payload.cid ∈ c'.session.db.anchored

theorem tick_advances (hdry : args.dryRun = false) (hspel : E.SpelSucceeds) {c : Moment P}
    (hsynced : c.Synced) (restart : Bool) :
    Advances K (polled K E cli args restart c) c (tick K E cli args restart c) := by
  obtain ⟨hsynced', -, hdb⟩ := tick_real hdry hsynced restart
  rcases hdb with ⟨hdb, hnone⟩ | hdb
  · have hnil := hnone.resolve_right fun hfails ↦ hfails hspel
    rw [hnil]
    exact ⟨hsynced', by rw [hdb, newest_nil], by rw [hdb], nofun⟩
  · refine ⟨hsynced', by rw [hdb, cursor_recorded], ?_, fun m hm hdecodable ↦ ?_⟩
    · rw [hdb]
      exact anchored_subset_recorded
    · rw [hdb]
      exact mem_anchored_recorded_of_mem hm hdecodable

/-- After an iteration that has stopped the process, the next one polls. -/
theorem not_stops_of_stops {c : Moment P} {restart : Bool} (h : Stops args restart c)
    (restart' : Bool) : ¬ Stops args restart' (tick K E cli args restart c) := by
  have hnone : (tick K E cli args restart c).running = none := by
    rw [tick, eval_iteration_of_enough h]
    rfl
  rw [Stops, Moment.vars_of_not_running hnone]
  have hmax : args.maxBatches > 0 := h.1
  show ¬ (args.maxBatches > 0 ∧ 0 ≥ args.maxBatches)
  omega

/-! ### All moments of a schedule -/

section Real

variable (hdry : args.dryRun = false) (hspel : E.SpelSucceeds) (restarts : ℕ → Bool)
  (s : Session P)

include hdry hspel

theorem synced_moment (n : ℕ) : (moment K E cli args restarts s n).Synced := by
  induction n with
  | zero => exact Moment.synced_start s
  | succ n ih => exact (tick_advances hdry hspel ih (restarts n)).synced

theorem moment_advances (n : ℕ) :
    Advances K (polled K E cli args (restarts n) (moment K E cli args restarts s n))
      (moment K E cli args restarts s n) (moment K E cli args restarts s (n + 1)) :=
  tick_advances hdry hspel (synced_moment hdry hspel restarts s n) (restarts n)

/-- Rows are never taken out. -/
theorem anchored_moment_subset {n m : ℕ} (hle : n ≤ m) :
    (moment K E cli args restarts s n).session.db.anchored ⊆
      (moment K E cli args restarts s m).session.db.anchored := by
  induction hle with
  | refl => exact Finset.Subset.refl _
  | @step m _ ih => exact ih.trans (moment_advances hdry hspel restarts s m).anchored_subset

end Real

end Whistleblower.BatchAnchor
