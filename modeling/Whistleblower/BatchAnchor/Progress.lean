import Whistleblower.BatchAnchor.QueueFile
import Whistleblower.BatchAnchor.Restarts
import Mathlib.Data.Nat.Count

/-!
# How long a process is busy

The polling loop has no end of its own, but over a queue file that stays as it is it runs out of
messages. What it runs down is the set of the numbers above the cursor (`above`): a poll that
returns something moves the cursor onto one of them. So there are no more such polls than numbers,
and no more transactions than such polls (`lifetime_bounded`).
-/

namespace Whistleblower.BatchAnchor

variable {P : Platform}

/-! ### One process -/

namespace Moment

/-- A process has been started, and has loaded the cursor. -/
def launch (s : Session P) : Moment P :=
  ⟨s.restart, some (s.db.cursor, 0)⟩

end Moment

section Lifetime

variable (K : Crates) (E : Surroundings P) (cli : Cfg) (args : RunArgs)

/-- One iteration of the process that is running. No other is started after it. -/
def goOn (c : Moment P) : Moment P :=
  if c.running = none then c else tick K E cli args false c

/-- The moments of one process. -/
def lifetime (s : Session P) (n : ℕ) : Moment P :=
  (goOn K E cli args)^[n] (.launch s)

/-- The process makes another iteration, and polls something in it. -/
def Busy (c : Moment P) : Prop :=
  c.running ≠ none ∧ polled K E cli args false c ≠ []

instance (c : Moment P) : Decidable (Busy K E cli args c) :=
  inferInstanceAs (Decidable (_ ∧ _))

variable {K E cli args}

theorem goOn_of_running {s : Session P} {cursor : UInt64} {b : ℕ} :
    goOn K E cli args ⟨s, some (cursor, b)⟩ =
      .ofNext ((iteration K cli args cursor b).eval E.answer s) := rfl

theorem goOn_of_ended {s : Session P} : goOn K E cli args ⟨s, none⟩ = ⟨s, none⟩ := rfl

/-- **The loop goes through the moments of a process**, where no iteration fails. -/
theorem eval_runLoop_eq
    (hok : ∀ cursor b s, ∃ next s',
      (iteration K cli args cursor b).eval E.answer s = (.ok next, s'))
    (n : ℕ) (s : Session P) (cursor : UInt64) (b : ℕ) :
    (runLoop K cli args n cursor b).eval E.answer s =
      (.ok (if ((goOn K E cli args)^[n] ⟨s, some (cursor, b)⟩).running = none then some ()
        else none), ((goOn K E cli args)^[n] ⟨s, some (cursor, b)⟩).session) := by
  induction n generalizing s cursor b with
  | zero => rfl
  | succ n ih =>
    obtain ⟨next, s', heval⟩ := hok cursor b s
    rw [runLoop, Process.eval_bind_of_ok _ heval, Function.iterate_succ_apply, goOn_of_running,
      heval]
    cases next with
    | done =>
      rw [Moment.ofNext, Function.iterate_fixed goOn_of_ended]
      rfl
    | again cursor' b' => exact ih s' cursor' b'

end Lifetime

/-! ### Processing, counted -/

variable {K : Crates} {E : Surroundings P} {cli : Cfg} {args : RunArgs} {msgs : List DeliveryMsg}

/-- **What processing a poll costs**: a batch at most, and a transaction at most for each batch. -/
theorem eval_process_of_spelSucceeds (hspel : E.SpelSucceeds) (cursor : UInt64) (b : ℕ)
    (s : Session P) :
    ∃ d s', (process K cli args cursor b msgs).eval E.answer s =
        (.ok (Next.unlessOnce args (newest cursor msgs) (b + d)), s') ∧
      d ≤ 1 ∧ s'.db.cursor = newest cursor msgs ∧
      s'.submitted.length ≤ s.submitted.length + d := by
  rw [process, Process.eval_bind_of_ok _ (eval_gather K E msgs cursor [] s), List.nil_append]
  generalize msgs.filterMap (entryOf K s.db.anchored) = entries
  rcases eq_or_ne entries [] with rfl | hne
  · exact ⟨0, _, rfl, Nat.zero_le 1, Db.cursor_setCell_render _ _, Nat.le_refl _⟩
  · have hnow : now.eval E.answer s =
        (.ok (E.clock s.readings), { s with readings := s.readings + 1 }) := rfl
    simp only [if_neg hne]
    rw [Process.eval_bind_of_ok _ hnow]
    cases hdry : args.dryRun with
    | true =>
      exact ⟨1, _, rfl, Nat.le_refl 1, Db.cursor_setCell_render _ _, Nat.le_succ _⟩
    | false =>
      obtain ⟨r, hanchor, hr⟩ := eval_anchorViaSpel cli entries (E.clock s.readings)
        { s with readings := s.readings + 1 }
      obtain ⟨-, rfl⟩ := hr.resolve_right fun hfails ↦ hfails.1 (hspel _ _)
      simp only [Bool.false_eq_true, if_false]
      rw [Process.eval_bind_of_ok _ hanchor, Process.eval_bind_of_ok _ (eval_markAll E entries _)]
      refine ⟨1, _, rfl, Nat.le_refl 1, Db.cursor_setCell_render _ _, ?_⟩
      exact (List.length_append ..).le

/-! ### The numbers above the cursor -/

/-- The distinct numbers of a queue above a cursor. -/
def above (msgs : List DeliveryMsg) (cursor : UInt64) : Finset UInt64 :=
  (msgs.map DeliveryMsg.seq).toFinset.filter (cursor < ·)

theorem mem_above {cursor seq : UInt64} :
    seq ∈ above msgs cursor ↔ (∃ m ∈ msgs, m.seq = seq) ∧ cursor < seq := by
  rw [above, Finset.mem_filter, List.mem_toFinset, List.mem_map]

/-- **A number is used up** when the cursor moves onto it. -/
theorem card_above_lt {cursor seq : UInt64} (h : seq ∈ above msgs cursor) :
    (above msgs seq).card < (above msgs cursor).card := by
  have hlt : cursor < seq := (mem_above.1 h).2
  refine Finset.card_lt_card ⟨fun other hother ↦ ?_, fun hsubset ↦ ?_⟩
  · obtain ⟨hqueue, hgreater⟩ := mem_above.1 hother
    exact mem_above.2 ⟨hqueue, hlt.trans hgreater⟩
  · exact lt_irrefl seq (mem_above.1 (hsubset h)).2

/-- A poll of a well-formed queue file returns messages of the file that are above the cursor. -/
theorem mem_of_pollText {text : String} (hmsgs : messages K text = some msgs) {after : UInt64}
    {limit : ℕ} {out : List DeliveryMsg} (h : pollText K text after limit = .ok out) :
    ∀ m ∈ out, m ∈ msgs ∧ after < m.seq := by
  intro m hm
  rw [pollText_of_messages K hmsgs] at h
  obtain rfl := Except.ok.inj h
  obtain ⟨hmem, hnew⟩ := List.mem_filter.1 (List.mem_of_mem_take (mem_sortBySeq.1 hm))
  exact ⟨hmem, of_decide_eq_true hnew⟩

theorem newest_mem_above {cursor : UInt64} {out : List DeliveryMsg} (hne : out ≠ [])
    (hout : ∀ m ∈ out, m ∈ msgs ∧ cursor < m.seq) : newest cursor out ∈ above msgs cursor := by
  rcases newest_eq cursor out with heq | ⟨m, hm, heq⟩
  · obtain ⟨m, hm⟩ := List.exists_mem_of_ne_nil _ hne
    exact absurd (newest_eq_self_iff.1 heq m hm) (hout m hm).2.not_ge
  · rw [heq]
    exact mem_above.2 ⟨⟨m, (hout m hm).1, rfl⟩, (hout m hm).2⟩

/-! ### One iteration -/

theorem busy_iff {s : Session P} {cursor : UInt64} {b : ℕ} {out : List DeliveryMsg}
    (hpoll : pollResult K E cli.deliverySource args.topic cursor args.batchSize = .ok out) :
    Busy K E cli args ⟨s, some (cursor, b)⟩ ↔
      ¬ (args.maxBatches > 0 ∧ b ≥ args.maxBatches) ∧ out ≠ [] := by
  have hpolled : polled K E cli args false ⟨s, some (cursor, b)⟩ =
      if args.maxBatches > 0 ∧ b ≥ args.maxBatches then []
      else (pollResult K E cli.deliverySource args.topic cursor
        args.batchSize).toOption.getD [] := rfl
  rw [Busy, hpolled, hpoll]
  by_cases hstop : args.maxBatches > 0 ∧ b ≥ args.maxBatches
  · rw [if_pos hstop]
    exact iff_of_false (fun h ↦ h.2 rfl) (fun h ↦ h.1 hstop)
  · rw [if_neg hstop]
    exact ⟨fun h ↦ ⟨hstop, h.2⟩, fun h ↦ ⟨Option.some_ne_none _, h.2⟩⟩

section File

variable {path text : String} (hsource : stripPrefix "file:" cli.deliverySource = some path)
  (hfile : E.files path = .ok text) (hmsgs : messages K text = some msgs)

include hsource hfile hmsgs

/-- A poll of the queue file does not fail. -/
theorem exists_poll (args : RunArgs) (cursor : UInt64) :
    ∃ out, pollResult K E cli.deliverySource args.topic cursor args.batchSize = .ok out ∧
      ∀ m ∈ out, m ∈ msgs ∧ cursor < m.seq := by
  have htext := pollText_of_messages K hmsgs cursor args.batchSize
  exact ⟨_, (pollResult_of_file K E hsource hfile _ _ _).trans htext, mem_of_pollText hmsgs htext⟩

variable (hspel : E.SpelSucceeds)

include hspel

/-- **What an iteration of the process can do.** Where nothing is polled, all that can happen is
that the process ends. What is polled is processed, at the cost of a batch at most. -/
theorem goOn_cases {c : Moment P} (hsynced : c.Synced) :
    ¬ Busy K E cli args c ∧ (goOn K E cli args c).session = c.session ∧
        (∀ vars ∈ (goOn K E cli args c).running, vars ∈ c.running) ∨
      ∃ b d seq s', c.running = some (c.session.db.cursor, b) ∧ Busy K E cli args c ∧
        ¬ (args.maxBatches > 0 ∧ b ≥ args.maxBatches) ∧
        goOn K E cli args c = .ofNext (.ok (Next.unlessOnce args seq (b + d)), s') ∧
        d ≤ 1 ∧ seq ∈ above msgs c.session.db.cursor ∧ s'.db.cursor = seq ∧
        s'.submitted.length ≤ c.session.submitted.length + d := by
  obtain ⟨s, running⟩ := c
  cases running with
  | none => exact Or.inl ⟨fun h ↦ h.1 rfl, rfl, fun vars hvars ↦ hvars⟩
  | some vars =>
    obtain ⟨cursor, b⟩ := vars
    obtain rfl : cursor = s.db.cursor := hsynced _ rfl
    obtain ⟨out, hpoll, hout⟩ := exists_poll hsource hfile hmsgs args s.db.cursor
    rw [busy_iff hpoll, goOn_of_running]
    by_cases hstop : args.maxBatches > 0 ∧ b ≥ args.maxBatches
    · rw [eval_iteration_of_enough hstop]
      exact Or.inl ⟨fun h ↦ h.1 hstop, rfl, nofun⟩
    · rw [eval_iteration_of_ok hstop hpoll]
      rcases eq_or_ne out [] with hempty | hne
      · rw [if_pos hempty]
        refine Or.inl ⟨fun h ↦ h.2 hempty, Moment.ofNext_ok_session _ _, fun vars hvars ↦ ?_⟩
        rw [Next.unlessOnce] at hvars
        split at hvars
        · cases hvars
        · exact hvars
      · obtain ⟨d, s', hprocess, hd, hcursor, hsubmitted⟩ :=
          eval_process_of_spelSucceeds hspel s.db.cursor b s
        rw [if_neg hne, hprocess]
        exact Or.inr ⟨b, d, _, s', rfl, ⟨hstop, hne⟩, hstop, rfl, hd,
          newest_mem_above hne hout, hcursor, hsubmitted⟩

end File

/-! ### All iterations -/

/-- What holds of a process after so many polls that have returned something. -/
structure Bounded (args : RunArgs) (msgs : List DeliveryMsg) (s : Session P) (polls : ℕ)
    (c : Moment P) : Prop where
  synced : c.Synced
  rank : polls + (above msgs c.session.db.cursor).card ≤ (above msgs s.db.cursor).card
  submitted_le : c.session.submitted.length ≤ s.submitted.length + polls
  batches : ∀ vars ∈ c.running, c.session.submitted.length ≤ s.submitted.length + vars.2
  capped : args.maxBatches > 0 →
    c.session.submitted.length ≤ s.submitted.length + args.maxBatches

theorem bounded_launch (args : RunArgs) (msgs : List DeliveryMsg) (s : Session P) :
    Bounded args msgs s 0 (.launch s) where
  synced vars hvars := by
    obtain rfl := Option.some.inj hvars
    rfl
  rank := (Nat.zero_add _).le
  submitted_le := Nat.le_refl _
  batches _ _ := Nat.le_add_right _ _
  capped _ := Nat.le_add_right _ _

section File

variable {path text : String} (hsource : stripPrefix "file:" cli.deliverySource = some path)
  (hfile : E.files path = .ok text) (hmsgs : messages K text = some msgs)
  (hspel : E.SpelSucceeds)

include hsource hfile hmsgs hspel

/-- **One iteration.** -/
theorem Bounded.goOn {s : Session P} {polls : ℕ} {c : Moment P}
    (h : Bounded args msgs s polls c) :
    Bounded args msgs s (if Busy K E cli args c then polls + 1 else polls)
        (goOn K E cli args c) ∧
      (Busy K E cli args c →
        c.session.db.cursor < (BatchAnchor.goOn K E cli args c).session.db.cursor) := by
  rcases goOn_cases hsource hfile hmsgs hspel h.synced with
    ⟨hidle, hsession, hrunning⟩ | ⟨b, d, seq, s', hvars, hbusy, hgo, hgoOn, hd, hseq, hcursor, hle⟩
  · rw [if_neg hidle]
    refine ⟨⟨fun vars hvars ↦ ?_, ?_, ?_, fun vars hvars ↦ ?_, ?_⟩, fun hbusy ↦ absurd hbusy hidle⟩
    all_goals rw [hsession]
    · exact h.synced vars (hrunning vars hvars)
    · exact h.rank
    · exact h.submitted_le
    · exact h.batches vars (hrunning vars hvars)
    · exact h.capped
  · have hbatches : c.session.submitted.length ≤ s.submitted.length + b := h.batches _ hvars
    have hrank := card_above_lt hseq
    have hrank' := h.rank
    have hsubmitted := h.submitted_le
    rw [if_pos hbusy, hgoOn]
    refine ⟨⟨Moment.synced_ofNext_unlessOnce _ hcursor, ?_, ?_, fun vars hvars' ↦ ?_,
      fun hmax ↦ ?_⟩, fun _ ↦ ?_⟩
    all_goals rw [Moment.ofNext_ok_session]
    · rw [hcursor]
      omega
    · omega
    · rw [Next.unlessOnce] at hvars'
      split at hvars'
      · cases hvars'
      · obtain rfl := Option.some.inj hvars'
        show s'.submitted.length ≤ s.submitted.length + (b + d)
        omega
    · omega
    · rw [hcursor]
      exact (mem_above.1 hseq).2

/-- **All iterations.** -/
theorem bounded_lifetime (s : Session P) (n : ℕ) :
    Bounded args msgs s (Nat.count (fun i ↦ Busy K E cli args (lifetime K E cli args s i)) n)
      (lifetime K E cli args s n) := by
  induction n with
  | zero => exact bounded_launch args msgs s
  | succ n ih =>
    have hnext : lifetime K E cli args s (n + 1) =
        goOn K E cli args (lifetime K E cli args s n) := Function.iterate_succ_apply' _ _ _
    have hstep := (ih.goOn hsource hfile hmsgs hspel).1
    rw [hnext, Nat.count_succ]
    split at hstep
    · next hbusy => rwa [if_pos hbusy]
    · next hidle => rwa [if_neg hidle]

/-- No iteration of the process fails. -/
theorem exists_eval_iteration (cursor : UInt64) (b : ℕ) (s : Session P) :
    ∃ next s', (iteration K cli args cursor b).eval E.answer s = (.ok next, s') := by
  obtain ⟨out, hpoll, -⟩ := exists_poll hsource hfile hmsgs args cursor
  by_cases hstop : args.maxBatches > 0 ∧ b ≥ args.maxBatches
  · exact ⟨_, _, eval_iteration_of_enough hstop s⟩
  · rw [eval_iteration_of_ok hstop hpoll]
    split
    · exact ⟨_, _, rfl⟩
    · obtain ⟨d, s', hprocess, -⟩ := eval_process_of_spelSucceeds hspel cursor b s
      exact ⟨_, _, hprocess⟩

/-- After as many polls that return something as there are numbers, there is no further one. -/
theorem exists_not_busy (args : RunArgs) (s : Session P) :
    ∃ n ≤ (above msgs s.db.cursor).card, ¬ Busy K E cli args (lifetime K E cli args s n) ∧
      ∀ i < n, Busy K E cli args (lifetime K E cli args s i) := by
  have hidle : ∃ n, ¬ Busy K E cli args (lifetime K E cli args s n) := by
    by_contra hnone
    simp only [not_exists, not_not] at hnone
    have hbounded : Bounded args msgs s _ _ := bounded_lifetime hsource hfile hmsgs hspel s
      ((above msgs s.db.cursor).card + 1)
    have hrank := hbounded.rank
    rw [Nat.count_of_forall fun i _ ↦ hnone i] at hrank
    omega
  have hbefore : ∀ i < Nat.find hidle, Busy K E cli args (lifetime K E cli args s i) :=
    fun i hi ↦ not_not.1 (Nat.find_min hidle hi)
  have hbounded : Bounded args msgs s _ _ :=
    bounded_lifetime hsource hfile hmsgs hspel s (Nat.find hidle)
  have hrank := hbounded.rank
  rw [Nat.count_of_forall hbefore] at hrank
  exact ⟨Nat.find hidle, by omega, Nat.find_spec hidle, hbefore⟩

end File

/-- **A process is busy for a while.** Over a well-formed queue file that stays as it is, and with
`spel` succeeding, `run` goes through the moments of `lifetime`. After at most as many polls that
return something as there are distinct numbers above the cursor, it has ended, ends, or polls
nothing; there are never more such polls than that, and each of them moves the cursor on. There are
no more transactions than such polls, and no more than `--max-batches`. -/
theorem lifetime_bounded (K : Crates) (P : Platform) (E : Surroundings P) (cli : Cfg)
    (args : RunArgs) (hspel : E.SpelSucceeds) {path text : String}
    (hsource : stripPrefix "file:" cli.deliverySource = some path) (hfile : E.files path = .ok text)
    {msgs : List DeliveryMsg} (hmsgs : messages K text = some msgs) (s : Session P) :
    (∃ n ≤ (above msgs s.db.cursor).card,
      (∀ i < n, Busy K E cli args (lifetime K E cli args s i)) ∧
        ((lifetime K E cli args s n).running = none ∨
          Stops args false (lifetime K E cli args s n) ∨
          pollResult K E cli.deliverySource args.topic (lifetime K E cli args s n).session.db.cursor
            args.batchSize = .ok [])) ∧
    ∀ n,
      (run K cli args n).eval E.answer s.restart =
        (.ok (if (lifetime K E cli args s n).running = none then some () else none),
          (lifetime K E cli args s n).session) ∧
      Nat.count (fun i ↦ Busy K E cli args (lifetime K E cli args s i)) n ≤
        (above msgs s.db.cursor).card ∧
      (Busy K E cli args (lifetime K E cli args s n) →
        (lifetime K E cli args s n).session.db.cursor <
          (lifetime K E cli args s (n + 1)).session.db.cursor) ∧
      (lifetime K E cli args s n).session.submitted.length ≤ s.submitted.length +
        Nat.count (fun i ↦ Busy K E cli args (lifetime K E cli args s i)) n ∧
      (args.maxBatches > 0 →
        (lifetime K E cli args s n).session.submitted.length ≤
          s.submitted.length + args.maxBatches) := by
  constructor
  · obtain ⟨n, hn, hidle, hbusy⟩ := exists_not_busy hsource hfile hmsgs hspel args s
    refine ⟨n, hn, hbusy, ?_⟩
    have hbounded : Bounded args msgs s _ _ := bounded_lifetime hsource hfile hmsgs hspel s n
    have hsynced := hbounded.synced
    generalize lifetime K E cli args s n = c at hidle hsynced ⊢
    obtain ⟨t, running⟩ := c
    cases running with
    | none => exact Or.inl rfl
    | some vars =>
      obtain ⟨cursor, b⟩ := vars
      obtain rfl : cursor = t.db.cursor := hsynced _ rfl
      obtain ⟨out, hpoll, -⟩ := exists_poll hsource hfile hmsgs args t.db.cursor
      rw [busy_iff hpoll, not_and_or, not_not, not_not] at hidle
      rcases hidle with hstops | rfl
      · exact Or.inr (Or.inl hstops)
      · exact Or.inr (Or.inr hpoll)
  · intro n
    have hbounded : Bounded args msgs s _ _ := bounded_lifetime hsource hfile hmsgs hspel s n
    have hnext : lifetime K E cli args s (n + 1) =
        goOn K E cli args (lifetime K E cli args s n) := Function.iterate_succ_apply' _ _ _
    refine ⟨?_, ?_, fun hbusy ↦ ?_, hbounded.submitted_le, hbounded.capped⟩
    · rw [eval_run]
      exact eval_runLoop_eq (exists_eval_iteration hsource hfile hmsgs hspel) n s.restart _ 0
    · have hrank := hbounded.rank
      omega
    · rw [hnext]
      exact (hbounded.goOn hsource hfile hmsgs hspel).2 hbusy

/-- Two messages, pages that are to be empty, and one batch at most. -/
theorem lifetime_bounded_numberedMessages :
    (∃ n ≤ 2, (lifetime sampleCrates (quietSurroundings (printedQueue (numberedMessages 2)))
        queueCfg ⟨"topic", 0, 1, false, false⟩ quietSession n).running = none ∨
      Stops ⟨"topic", 0, 1, false, false⟩ false (lifetime sampleCrates
        (quietSurroundings (printedQueue (numberedMessages 2))) queueCfg
        ⟨"topic", 0, 1, false, false⟩ quietSession n) ∨
      pollResult sampleCrates (quietSurroundings (printedQueue (numberedMessages 2))) "file:queue"
        "topic" (lifetime sampleCrates (quietSurroundings (printedQueue (numberedMessages 2)))
          queueCfg ⟨"topic", 0, 1, false, false⟩ quietSession n).session.db.cursor 0 = .ok []) ∧
    (lifetime sampleCrates (quietSurroundings (printedQueue (numberedMessages 2))) queueCfg
      ⟨"topic", 0, 1, false, false⟩ quietSession 5).session.submitted.length ≤ 1 := by
  have hsource : stripPrefix "file:" queueCfg.deliverySource = some "queue" := by decide +kernel
  have hcard : (above (numberedMessages 2) quietSession.db.cursor).card = 2 := by
    rw [show quietSession.db.cursor = 0 from Db.cursor_fresh]
    rfl
  obtain ⟨⟨n, hn, -, hends⟩, hall⟩ := lifetime_bounded sampleCrates Account.samplePlatform
    (quietSurroundings (printedQueue (numberedMessages 2))) queueCfg ⟨"topic", 0, 1, false, false⟩
    (spelSucceeds_quietSurroundings _) hsource rfl (messages_printedQueue sampleCrates _)
    quietSession
  obtain ⟨-, -, -, -, hcapped⟩ := hall 5
  exact ⟨⟨n, hn.trans_eq hcard, hends⟩, hcapped Nat.one_pos⟩

end Whistleblower.BatchAnchor
