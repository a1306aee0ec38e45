import Whistleblower.BatchAnchor.Restarts

/-!
# Many runs over one state DB

A state DB outlives the processes that use it. A `Schedule` is what happens to one over time:
iteration after iteration, each by a process with a command line of its own, and each in
surroundings of its own, since the queue, the bridge, the clock and `spel` do not stand still
between two iterations. The topic, the source, the batch size and the flags may be different in
every process, so this covers runs that alternate between sources as well as dry runs in between.

`Outcome` says what a single turn does to a state DB, and `Schedule.outcome` that every turn of a
schedule does so. That the cursor and the table only grow follows for whole schedules.
-/

namespace Whistleblower.BatchAnchor

variable {P : Platform}

/-- One iteration: what is around it, and the command line of the process that makes it. -/
structure Turn (P : Platform) where
  surroundings : Surroundings P
  cli : Cfg
  args : RunArgs
  /-- The process has just been started. -/
  restart : Bool

/-- One iteration after another. A process that goes on keeps its command line. -/
structure Schedule (P : Platform) where
  turn : ℕ → Turn P
  goes_on : ∀ n, (turn (n + 1)).restart = false →
    (turn (n + 1)).cli = (turn n).cli ∧ (turn (n + 1)).args = (turn n).args

namespace Turn

variable (K : Crates) (t : Turn P) (c : Moment P)

/-- The moment after the turn. -/
def next : Moment P :=
  tick K t.surroundings t.cli t.args t.restart c

/-- The messages that `poll_delivery` returns in the turn. -/
def polled : List DeliveryMsg :=
  BatchAnchor.polled K t.surroundings t.cli t.args t.restart c

/-- The entries that the turn hands to `anchor_via_spel`: what it has collected, unless it is
dry. -/
def handed : List AnchorEntry :=
  if t.args.dryRun then [] else collected K t.surroundings t.cli t.args t.restart c

/-- What the clock says when they are handed over. -/
def timestamp : UInt64 :=
  t.surroundings.clock (c.resumed t.restart).readings

/-- What a turn does. -/
structure Outcome (c' : Moment P) : Prop where
  synced : c'.Synced
  submitted : c'.session.submitted =
    c.session.submitted ++ submission t.cli (t.handed K c) (t.timestamp c)
  cursor : c'.session.db.cursor = c.session.db.cursor ∨
    c'.session.db.cursor = newest c.session.db.cursor (t.polled K c)
  anchored : c.session.db.anchored ⊆ c'.session.db.anchored
  rows : ∀ cid ∈ c'.session.db.anchored,
    cid ∈ c.session.db.anchored ∨ ∃ m ∈ t.polled K c, m.payload.cid = cid

variable {K t c}

/-- What is polled has been returned by `poll_delivery`. -/
theorem pollResult_of_polled (hne : t.polled K c ≠ []) :
    ¬ Stops t.args t.restart c ∧
      pollResult K t.surroundings t.cli.deliverySource t.args.topic (c.vars t.restart).1
        t.args.batchSize = .ok (t.polled K c) := by
  rw [polled, BatchAnchor.polled] at *
  split at hne
  · exact absurd rfl hne
  · next hgo =>
    rw [if_neg hgo]
    cases hpoll : pollResult K t.surroundings t.cli.deliverySource t.args.topic
        (c.vars t.restart).1 t.args.batchSize with
    | error e =>
      rw [hpoll] at hne
      exact absurd rfl hne
    | ok msgs => exact ⟨hgo, rfl⟩

theorem handed_of_real (hdry : t.args.dryRun = false) :
    t.handed K c = (t.polled K c).filterMap (entryOf K c.session.db.anchored) := by
  rw [handed, hdry, if_neg Bool.false_ne_true, collected_eq, polled]

/-- **One turn.** -/
theorem outcome_next (hsynced : c.Synced) : t.Outcome K c (t.next K c) := by
  cases hdry : t.args.dryRun with
  | false =>
    obtain ⟨hsynced', hsubmitted, hdb⟩ : (t.next K c).Synced ∧ _ :=
      tick_real hdry hsynced t.restart
    rw [← show t.handed K c = _ from if_neg (by rw [hdry]; exact Bool.false_ne_true)] at hsubmitted
    refine ⟨hsynced', hsubmitted, ?_, ?_, fun cid hcid ↦ ?_⟩ <;> rcases hdb with ⟨hdb, -⟩ | hdb
    · exact Or.inl (congrArg Db.cursor hdb)
    · exact Or.inr ((congrArg Db.cursor hdb).trans cursor_recorded)
    · exact (congrArg Db.anchored hdb).ge
    · exact anchored_subset_recorded.trans (congrArg Db.anchored hdb).ge
    · exact Or.inl ((congrArg Db.anchored hdb).le hcid)
    · refine (mem_anchored_recorded.1 ((congrArg Db.anchored hdb).le hcid)).imp_right ?_
      rintro ⟨e, he, rfl⟩
      obtain ⟨m, hm, hentry⟩ := List.mem_filterMap.1 he
      exact ⟨m, hm, (congrArg Prod.snd ((entryOf_eq_some K).1 hentry).2.2).symm⟩
  | true =>
    obtain ⟨hsynced', hsubmitted, hdb⟩ : (t.next K c).Synced ∧ _ :=
      tick_dry hdry hsynced t.restart
    have hnone : submission t.cli (t.handed K c) (t.timestamp c) = [] := by
      rw [handed, hdry, if_pos rfl, submission, if_pos rfl]
    have hrows : (t.next K c).session.db.anchored = c.session.db.anchored := by
      rcases hdb with hdb | hdb
      · exact congrArg Db.anchored hdb
      · exact (congrArg Db.anchored hdb).trans (Db.anchored_setCell _ _)
    refine ⟨hsynced', ?_, ?_, hrows.ge, fun cid hcid ↦ Or.inl (hrows.le hcid)⟩
    · rw [hnone, List.append_nil]
      exact hsubmitted
    · rcases hdb with hdb | hdb
      · exact Or.inl (congrArg Db.cursor hdb)
      · exact Or.inr ((congrArg Db.cursor hdb).trans (Db.cursor_setCell_render _ _))

/-- The cursor never moves back. -/
theorem Outcome.le {c' : Moment P} (h : t.Outcome K c c') :
    c.session.db.cursor ≤ c'.session.db.cursor := by
  rcases h.cursor with heq | heq
  · exact heq.ge
  · exact (le_newest _ _).trans heq.ge

/-- Where the cursor has moved to, there is a message. -/
theorem Outcome.exists_of_lt {c' : Moment P} (h : t.Outcome K c c')
    (hlt : c.session.db.cursor < c'.session.db.cursor) :
    ∃ m ∈ t.polled K c, c'.session.db.cursor = m.seq := by
  have hcursor := h.cursor.resolve_left hlt.ne'
  rcases newest_eq c.session.db.cursor (t.polled K c) with hsame | ⟨m, hm, heq⟩
  · exact absurd (hcursor.trans hsame) hlt.ne'
  · exact ⟨m, hm, hcursor.trans heq⟩

end Turn

/-! ### All turns of a schedule -/

namespace Schedule

variable (K : Crates) (S : Schedule P) (s : Session P)

/-- The moments of a schedule, each before the turn of that number. -/
def moment : ℕ → Moment P
  | 0 => .start s
  | n + 1 => (S.turn n).next K (moment n)

theorem moment_zero : S.moment K s 0 = .start s := rfl

theorem moment_succ (n : ℕ) : S.moment K s (n + 1) = (S.turn n).next K (S.moment K s n) := rfl

-- no turn is to be evaluated where only its outcome is spoken of
attribute [irreducible] moment

/-- The state DB that turn `n` finds. -/
def db (n : ℕ) : Db :=
  (S.moment K s n).session.db

/-- The messages that `poll_delivery` returns in turn `n`. -/
def polled (n : ℕ) : List DeliveryMsg :=
  (S.turn n).polled K (S.moment K s n)

/-- The entries that turn `n` hands to anchoring. -/
def handed (n : ℕ) : List AnchorEntry :=
  (S.turn n).handed K (S.moment K s n)

@[simp] theorem db_zero : S.db K s 0 = s.db := by
  rw [db, moment_zero]
  rfl

theorem synced_moment (n : ℕ) : (S.moment K s n).Synced := by
  induction n with
  | zero =>
    rw [moment_zero]
    exact Moment.synced_start s
  | succ n ih =>
    rw [moment_succ]
    exact (Turn.outcome_next ih).synced

theorem outcome (n : ℕ) :
    (S.turn n).Outcome K (S.moment K s n) (S.moment K s (n + 1)) := by
  rw [moment_succ]
  exact Turn.outcome_next (S.synced_moment K s n)

/-- A new row is of a message that has been polled. -/
theorem mem_anchored_succ {n : ℕ} {cid : String} (h : cid ∈ (S.db K s (n + 1)).anchored) :
    cid ∈ (S.db K s n).anchored ∨ ∃ m ∈ S.polled K s n, m.payload.cid = cid :=
  (S.outcome K s n).rows cid h

/-- A real turn hands over what it has polled, but for messages with a row and those that cannot be
decoded. -/
theorem handed_of_real {n : ℕ} (hreal : (S.turn n).args.dryRun = false) :
    S.handed K s n = (S.polled K s n).filterMap (entryOf K (S.db K s n).anchored) :=
  Turn.handed_of_real hreal

/-- Where `spel` succeeds, a real turn records what it polls. -/
theorem advances {n : ℕ} (hreal : (S.turn n).args.dryRun = false)
    (hspel : (S.turn n).surroundings.SpelSucceeds) :
    Advances K (S.polled K s n) (S.moment K s n) (S.moment K s (n + 1)) := by
  rw [moment_succ]
  exact tick_advances hreal hspel (S.synced_moment K s n) (S.turn n).restart

/-- Without `--max-batches`, every turn polls at the persisted cursor. -/
theorem polled_eq {n : ℕ} (hmax : (S.turn n).args.maxBatches = 0) :
    S.polled K s n = (pollResult K (S.turn n).surroundings (S.turn n).cli.deliverySource
      (S.turn n).args.topic (S.db K s n).cursor (S.turn n).args.batchSize).toOption.getD [] := by
  have hpolls : ¬ Stops (S.turn n).args (S.turn n).restart (S.moment K s n) :=
    fun hstops ↦ absurd hstops.1 (by omega)
  rw [polled, Turn.polled, BatchAnchor.polled, if_neg hpolls, (S.synced_moment K s n).vars_fst]
  rfl

theorem cursor_mono {n m : ℕ} (hle : n ≤ m) : (S.db K s n).cursor ≤ (S.db K s m).cursor :=
  monotone_nat_of_le_succ (f := fun n ↦ (S.db K s n).cursor) (fun n ↦ (S.outcome K s n).le) hle

/-- Rows are never taken out. -/
theorem anchored_mono {n m : ℕ} (hle : n ≤ m) : (S.db K s n).anchored ⊆ (S.db K s m).anchored :=
  monotone_nat_of_le_succ (f := fun n ↦ (S.db K s n).anchored) (fun n ↦ (S.outcome K s n).anchored)
    hle

/-- The commands that turn `n` gives to `spel`. -/
def commands (n : ℕ) : List SpelCommand :=
  (S.moment K s (n + 1)).session.submitted.drop (S.moment K s n).session.submitted.length

/-- **A turn gives `spel` what it hands to anchoring**, in one command, if there is an entry. -/
theorem commands_eq (n : ℕ) :
    S.commands K s n = submission (S.turn n).cli (S.handed K s n)
      ((S.turn n).timestamp (S.moment K s n)) := by
  rw [commands, (S.outcome K s n).submitted, List.drop_left]
  rfl

end Schedule

/-- The same command line in the same surroundings, over and over, by a new process each time. -/
def Schedule.always (E : Surroundings P) (cli : Cfg) (args : RunArgs) : Schedule P where
  turn _ := ⟨E, cli, args, true⟩
  goes_on _ := nofun

end Whistleblower.BatchAnchor
