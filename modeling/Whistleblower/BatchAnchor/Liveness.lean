import Whistleblower.BatchAnchor.BadBroadcast
import Whistleblower.BatchAnchor.Bridge
import Whistleblower.BatchAnchor.Peers
import Whistleblower.BatchAnchor.Progress
import Whistleblower.BatchAnchor.Turns
import Whistleblower.Foundations.Fairness
import Whistleblower.Registry.Submissions

/-!
# Everything is anchored in the end

The topic goes on, and so does the batch anchor: processes come and go, the source is down at times,
`spel` fails at times, and meanwhile others submit batches too. What can be asked of it then is that
no message waits for ever. So it is, as long as turns keep occurring in which the source answers and
what is submitted lands (`eventually_registered`).

That what is behind the cursor is on-chain was shown in `Peers`, of worlds whose queue is a file. It
is used here of any source, by a printed file of what the source holds (`Schedule.world`). What is
new is that the cursor gets everywhere, by the rule of ranks: a turn that serves takes a number from
those above the cursor.
-/

namespace Whistleblower.BatchAnchor

open CidRegistryProgram Filter

variable {P : Platform} {K : Crates} {E : Surroundings P} {cli : Cfg} {args : RunArgs}
  {t : Turn P} {c : Moment P} {topic : List DeliveryMsg}

/-! ### What a source offers -/

/-- The source of the turn holds these messages, in a file or behind a bridge. -/
def Turn.Offers (K : Crates) (t : Turn P) (topic : List DeliveryMsg) : Prop :=
  ∃ kind raws, Holds K t.surroundings t.cli t.args kind raws ∧
    raws.mapM RawMsg.decode? = some topic

/-- No poll of the turn returns a message: the file is missing, or the bridge is down. -/
def Turn.Silent (K : Crates) (t : Turn P) : Prop :=
  ∀ after, (pollResult K t.surroundings t.cli.deliverySource t.args.topic after
    t.args.batchSize).toOption.getD [] = []

/-- Where all envelopes read, the messages of a page are those of the raw page. -/
theorem filterMap_decode?_take {raws : List RawMsg}
    (h : raws.map RawMsg.decode? = topic.map some) (after : UInt64) (n : ℕ) :
    ((raws.filter (after < ·.seq)).take n).filterMap RawMsg.decode? =
      (topic.filter (after < ·.seq)).take n := by
  induction raws generalizing topic n with
  | nil =>
    obtain rfl : topic = [] := List.map_eq_nil_iff.1 h.symm
    rw [List.filter_nil, List.filter_nil, List.take_nil, List.take_nil, List.filterMap_nil]
  | cons raw raws ih =>
    cases topic with
    | nil => cases h
    | cons m topic =>
      obtain ⟨hraw, hrest⟩ := List.cons.inj h
      have hseq : raw.seq = m.seq := (RawMsg.seq_of_decode? hraw).symm
      by_cases hnew : after < m.seq
      · rw [List.filter_cons_of_pos (by simpa [hseq] using hnew),
          List.filter_cons_of_pos (by simpa using hnew)]
        cases n with
        | zero => rfl
        | succ n =>
          rw [List.take_succ_cons, List.take_succ_cons, List.filterMap_cons_some hraw,
            ih hrest n]
      · rw [List.filter_cons_of_neg (by simpa [hseq] using hnew),
          List.filter_cons_of_neg (by simpa using hnew), ih hrest n]

/-- **What a source that answers returns**: the first messages above the cursor. -/
theorem Turn.Offers.exists_poll (h : t.Offers K topic)
    (htopic : topic.Pairwise (·.seq < ·.seq)) (after : UInt64) :
    ∃ n, (1 ≤ t.args.batchSize → n = t.args.batchSize) ∧
      pollResult K t.surroundings t.cli.deliverySource t.args.topic after t.args.batchSize =
        .ok ((topic.filter (after < ·.seq)).take n) := by
  obtain ⟨kind, raws, hholds, hdecode⟩ := h
  have hmap := map_decode?_of_mapM hdecode
  cases kind with
  | file =>
    obtain ⟨path, text, hsource, hfile, hraws⟩ := hholds
    have hmsgs : messages K text = some topic := by
      rw [messages, hraws, Option.bind_some, hdecode]
    refine ⟨max t.args.batchSize 1, max_eq_left, ?_⟩
    rw [pollResult_of_file K t.surroundings hsource hfile, pollText_of_pairwise K hmsgs htopic]
  | bridge =>
    obtain ⟨hfile, ⟨url, hhttp⟩, hanswers⟩ := hholds
    obtain ⟨body, vs, hbody, hvs, hpage⟩ := hanswers after
    refine ⟨t.args.batchSize, fun _ ↦ rfl, ?_⟩
    rw [pollResult, hfile, hhttp]
    simp only [hbody]
    have hmsgs : bodyMessages K body = (raws.filter (after < ·.seq)).take t.args.batchSize := by
      rw [bodyMessages, hvs, Option.getD_some, hpage]
    exact congrArg Except.ok (by rw [pollBody_eq, hmsgs, filterMap_decode?_take hmap])

/-! ### What a turn does -/

/-- The registry after some calls of `spel`. -/
def Surroundings.submitAll (E : Surroundings P) (registry : Account P)
    (commands : List SpelCommand) : Account P :=
  commands.foldl (fun registry command ↦ (E.spel registry command).2) registry

/-- A process changes the registry by its calls of `spel` alone. -/
theorem eval_registry {ε α : Type} (p : Process Op.Ret ε α) (s : Session P) :
    ∃ commands, (p.eval E.answer s).2.submitted = s.submitted ++ commands ∧
      (p.eval E.answer s).2.registry = E.submitAll s.registry commands := by
  induction p generalizing s with
  | pure a => exact ⟨[], (List.append_nil _).symm, rfl⟩
  | fail e => exact ⟨[], (List.append_nil _).symm, rfl⟩
  | op o k ih =>
    obtain ⟨commands, hsubmitted, hregistry⟩ := ih (E.answer o s).1 (E.answer o s).2
    cases o with
    | spel command =>
      refine ⟨command :: commands, ?_, hregistry⟩
      rw [List.append_cons]
      exact hsubmitted
    | _ => exact ⟨commands, hsubmitted, hregistry⟩

theorem Moment.ofNext_session (p : Except String Next × Session P) :
    (ofNext p).session = p.2 := by
  obtain ⟨r, s⟩ := p
  cases r with
  | error e => rfl
  | ok next => exact ofNext_ok_session next s

theorem Moment.resumed_registry (c : Moment P) (restart : Bool) :
    (c.resumed restart).registry = c.session.registry := by
  rw [resumed]
  split <;> rfl

/-- **The registry after a turn.** -/
theorem Turn.registry_next (hsynced : c.Synced) :
    (t.next K c).session.registry = t.surroundings.submitAll c.session.registry
      (submission t.cli (t.handed K c) (t.timestamp c)) := by
  obtain ⟨commands, hsubmitted, hregistry⟩ := eval_registry (E := t.surroundings)
    (iteration K t.cli t.args (c.vars t.restart).1 (c.vars t.restart).2) (c.resumed t.restart)
  have hsession : (t.next K c).session = _ := Moment.ofNext_session _
  rw [← hsession, Moment.resumed_submitted] at hsubmitted
  rw [← hsession, Moment.resumed_registry] at hregistry
  have hcommands := List.append_cancel_left
    (hsubmitted.symm.trans (Turn.outcome_next hsynced).submitted)
  rw [hregistry, hcommands]

/-- **A real turn** leaves the state DB as it is, since nothing is polled or what is submitted does
not land, or it records what it has polled. -/
theorem Turn.settles (hreal : t.args.dryRun = false) (hsynced : c.Synced) :
    (t.next K c).session.db = c.session.db ∧ (t.polled K c = [] ∨
        ∃ command ∈ submission t.cli (t.handed K c) (t.timestamp c),
          ¬ t.surroundings.Lands c.session.registry command) ∨
      (∀ command ∈ submission t.cli (t.handed K c) (t.timestamp c),
          t.surroundings.Lands c.session.registry command) ∧
        (t.next K c).session.db =
          c.session.db.recorded K c.session.db.cursor (t.polled K c) := by
  rcases tick_cases hsynced t.restart with ⟨hpolled, -, hsession⟩ | ⟨-, htick⟩
  · have hdb := congrArg Session.db hsession
    rw [Moment.resumed_db] at hdb
    exact Or.inl ⟨hdb, Or.inl hpolled⟩
  · obtain ⟨r, s', heval, -, hends⟩ := eval_process_real hreal c.session.db.cursor
      (c.vars t.restart).2 (c.resumed t.restart)
    have hsession : (t.next K c).session = s' := by
      rw [Turn.next, htick, heval, Moment.ofNext_session]
    rw [Moment.resumed_db, Moment.resumed_registry] at hends
    rw [hsession, handed_of_real hreal]
    rcases hends with ⟨hlands, -, hdb⟩ | ⟨hfails, -, hdb⟩
    · exact Or.inr ⟨hlands, hdb⟩
    · exact Or.inl ⟨hdb, Or.inr hfails⟩

section Schedules

variable {S : Schedule P} {s : Session P} {n : ℕ}

theorem Schedule.registry_succ : (S.moment K s (n + 1)).session.registry =
    (S.turn n).surroundings.submitAll (S.moment K s n).session.registry (S.commands K s n) := by
  rw [S.commands_eq, S.moment_succ, Turn.registry_next (S.synced_moment K s n)]
  rfl

theorem Schedule.settles (hreal : (S.turn n).args.dryRun = false) :
    S.db K s (n + 1) = S.db K s n ∧ (S.polled K s n = [] ∨ ∃ command ∈ S.commands K s n,
        ¬ (S.turn n).surroundings.Lands (S.moment K s n).session.registry command) ∨
      (∀ command ∈ S.commands K s n,
          (S.turn n).surroundings.Lands (S.moment K s n).session.registry command) ∧
        S.db K s (n + 1) = (S.db K s n).recorded K (S.db K s n).cursor (S.polled K s n) := by
  rw [S.commands_eq, Schedule.db, S.moment_succ]
  exact Turn.settles hreal (S.synced_moment K s n)

/-- **A turn without effect**: nothing is polled, or there is a call, and it fails and changes
nothing. -/
theorem Schedule.idle (hreal : (S.turn n).args.dryRun = false)
    (hidle : S.polled K s n = [] ∨ S.handed K s n ≠ [] ∧ ∀ registry command,
      ¬ (S.turn n).surroundings.Lands registry command ∧
        ((S.turn n).surroundings.spel registry command).2 = registry) :
    (S.moment K s (n + 1)).session.registry = (S.moment K s n).session.registry ∧
      (S.db K s (n + 1)).cursor = (S.db K s n).cursor ∧
      (S.db K s (n + 1)).anchored = (S.db K s n).anchored := by
  have hsettles := S.settles (K := K) (s := s) hreal
  rw [S.registry_succ]
  rcases hidle with hnone | ⟨hne, hrefuses⟩
  · rw [S.commands_eq, S.handed_of_real K s hreal, hnone]
    refine ⟨rfl, ?_⟩
    rcases hsettles with ⟨hdb, -⟩ | ⟨-, hdb⟩
    · rw [hdb]
      exact ⟨rfl, rfl⟩
    · rw [hdb, hnone]
      refine ⟨cursor_recorded, ?_⟩
      ext cid
      simp [mem_anchored_recorded]
  · rw [S.commands_eq, submission, if_neg hne] at hsettles ⊢
    refine ⟨(hrefuses _ _).2, ?_⟩
    rcases hsettles with ⟨hdb, -⟩ | ⟨hlands, -⟩
    · rw [hdb]
      exact ⟨rfl, rfl⟩
    · exact absurd (hlands _ (List.mem_singleton_self _)) (hrefuses _ _).1

end Schedules

/-! ### An honest `spel` -/

/-- `spel` does what it says. Others may land their batches before its own; and it reports success
only where the program has accepted its own. -/
def Surroundings.Honest (E : Surroundings P) : Prop :=
  ∀ registry command, ∃ others : List Batch,
    (E.spel registry command).2 = CidRegistryProgram.run registry others ∧
        ¬ E.Lands registry command ∨
      ∃ b, command.batch? = some b ∧
        (E.spel registry command).2 = execute (CidRegistryProgram.run registry others) b ∧
        (E.Lands registry command →
          (anchorBatch (CidRegistryProgram.run registry others) b).isOk = true)

/-- Some batches only add to the registry. -/
theorem later_run (w : World P) (bs : List Batch) :
    Later K w { w with registry := CidRegistryProgram.run w.registry bs } where
  db := rfl
  registry state hstate := by
    obtain ⟨state', hstate', hkept⟩ := exists_state_run hstate bs
    exact ⟨state', hstate', (hkept.map DocumentRecord.cid).subset⟩
  queue := (Later.refl w).queue

/-- So does a call of `spel`. -/
theorem Surroundings.Honest.later (h : E.Honest) (w : World P) (command : SpelCommand) :
    Later K w { w with registry := (E.spel w.registry command).2 } := by
  obtain ⟨others, ⟨hregistry, -⟩ | ⟨b, -, hregistry, -⟩⟩ := h w.registry command
  · rw [hregistry]
    exact later_run w others
  · rw [hregistry]
    exact (later_run w others).trans (later_execute _ b)

/-- **What has landed is on-chain.** -/
theorem Surroundings.Honest.landed (h : E.Honest) {w : World P} {entries : List AnchorEntry}
    {timestamp : UInt64} (hregistry : ∃ state, w.registry.state = some state) (hne : entries ≠ [])
    (hlands : E.Lands w.registry (spelCommand cli entries timestamp)) :
    Landed entries
      { w with registry := (E.spel w.registry (spelCommand cli entries timestamp)).2 } := by
  obtain ⟨others, ⟨-, hfails⟩ | ⟨b, hb, hexecute, hok⟩⟩ :=
    h w.registry (spelCommand cli entries timestamp)
  · exact absurd hlands hfails
  · obtain rfl := Option.some.inj ((batch?_spelCommand cli hne timestamp).symm.trans hb)
    obtain ⟨registry', hregistry'⟩ := Outcome.isOk_iff.1 (hok hlands)
    obtain ⟨state, hstate⟩ := hregistry
    obtain ⟨state', hstate', -⟩ := exists_state_run hstate others
    rw [hexecute, execute_of_ok hregistry']
    exact landed_of_ok (w := { w with registry := CidRegistryProgram.run w.registry others })
      ⟨state', hstate'⟩ hregistry'

/-! ### One turn, in the world of files -/

/-- The entries of a turn are those of its messages without a row. -/
theorem exists_kept (K : Crates) (anchored : Finset String) (msgs : List DeliveryMsg) :
    ∃ kept : List DeliveryMsg, kept.Sublist msgs ∧
      msgs.filterMap (entryOf K anchored) = kept.filterMap (entryOf K ∅) ∧
      ∀ m ∈ msgs, m ∈ kept ∨ m.payload.cid ∈ anchored := by
  refine ⟨msgs.filter fun m ↦ m.payload.cid ∉ anchored, List.filter_sublist, ?_, fun m hm ↦ ?_⟩
  · rw [List.filterMap_filter]
    refine List.filterMap_congr fun m _ ↦ ?_
    by_cases hrow : m.payload.cid ∈ anchored
    · simp [entryOf, hrow]
    · simp [entryOf, hrow]
  · by_cases hrow : m.payload.cid ∈ anchored
    · exact Or.inr hrow
    · exact Or.inl (List.mem_filter.2 ⟨hm, by simpa using hrow⟩)

/-- **Recording keeps the invariant**, once the entries are on-chain. -/
theorem Inv.recorded {w : World P} {msgs : List DeliveryMsg} (hinv : Inv K w)
    (hdone : Done K w.db.cursor msgs (msgs.filterMap (entryOf K w.db.anchored)) w) :
    Inv K { w with db := w.db.recorded K w.db.cursor msgs } := by
  refine ⟨hinv.queue, hinv.registry, fun cid hcid ↦ ?_, fun queue hqueue m hm hle ↦ ?_, ?_⟩
  · rcases mem_anchored_recorded.1 hcid with hold | ⟨e, he, rfl⟩
    · exact hinv.anchored cid hold
    · exact ⟨e.1, hdone.decoded e he, hdone.landed e he⟩
  · exact hdone.handled.covered queue hqueue m hm (hle.trans_eq cursor_recorded)
  · refine hdone.handled.reached.imp cursor_recorded.trans fun ⟨queue, hqueue, m, hm, hle⟩ ↦ ?_
    exact ⟨queue, hqueue, m, hm, cursor_recorded.trans_le hle⟩

/-! ### Schedules over a topic -/

/-- Real runs, one turn after another, on a source that holds what has been published so far, or
returns nothing. Between two turns, messages are published. -/
structure Schedule.Supplied (K : Crates) (S : Schedule P) (topic : ℕ → List DeliveryMsg) :
    Prop where
  ascending : ∀ n, Ascending (topic n)
  grows : ∀ n, topic n <+: topic (n + 1)
  offers : ∀ n, (S.turn n).Offers K (topic n) ∨ (S.turn n).Silent K
  real : ∀ n, (S.turn n).args.dryRun = false
  honest : ∀ n, (S.turn n).surroundings.Honest

/-- A turn that serves: the source answers, the process has not reached `--max-batches`, and what it
submits lands. -/
structure Schedule.Serving (K : Crates) (S : Schedule P) (topic : ℕ → List DeliveryMsg)
    (s : Session P) (n : ℕ) : Prop where
  offers : (S.turn n).Offers K (topic n)
  batchSize : 1 ≤ (S.turn n).args.batchSize
  goesOn : ¬ Stops (S.turn n).args (S.turn n).restart (S.moment K s n)
  lands : ∀ command ∈ S.commands K s n,
    (S.turn n).surroundings.Lands (S.moment K s n).session.registry command

/-- The world before a turn, with what has been published as a file. -/
def Schedule.world (K : Crates) (S : Schedule P) (topic : ℕ → List DeliveryMsg) (s : Session P)
    (n : ℕ) : World P where
  queue := printedQueue (topic n)
  registry := (S.moment K s n).session.registry
  db := S.db K s n

section Supplied

variable {S : Schedule P} {topic : ℕ → List DeliveryMsg} {s : Session P}
  (h : S.Supplied K topic)

include h

/-- **What a turn polls** are the first messages above the cursor, if anything. -/
theorem Schedule.Supplied.exists_polled (n : ℕ) :
    ∃ k, (S.Serving K topic s n → 1 ≤ k) ∧
      S.polled K s n = ((topic n).filter ((S.db K s n).cursor < ·.seq)).take k := by
  have hcursor : ((S.moment K s n).vars (S.turn n).restart).1 = (S.db K s n).cursor :=
    (S.synced_moment K s n).vars_fst
  rw [Schedule.polled, Turn.polled, BatchAnchor.polled, hcursor]
  by_cases hstops : Stops (S.turn n).args (S.turn n).restart (S.moment K s n)
  · rw [if_pos hstops]
    exact ⟨0, fun hserving ↦ absurd hstops hserving.goesOn, rfl⟩
  · rw [if_neg hstops]
    by_cases hoffers : (S.turn n).Offers K (topic n)
    · obtain ⟨k, hk, hpoll⟩ := hoffers.exists_poll (h.ascending n).pairwise (S.db K s n).cursor
      refine ⟨k, fun hserving ↦ hserving.batchSize.trans (hk hserving.batchSize).ge, ?_⟩
      exact congrArg (fun r ↦ r.toOption.getD []) hpoll
    · refine ⟨0, fun hserving ↦ absurd hserving.offers hoffers, ?_⟩
      exact (h.offers n).resolve_left hoffers _

/-- What a turn hands over has been collected from a page. -/
theorem Schedule.Supplied.collected {n : ℕ} (hinv : Inv K (S.world K topic s n)) :
    Collected K (S.db K s n).cursor (S.polled K s n) (S.handed K s n) (S.world K topic s n) := by
  obtain ⟨k, -, hpolled⟩ := h.exists_polled (s := s) n
  obtain ⟨kept, hsub, heq, hall⟩ := exists_kept K (S.db K s n).anchored (S.polled K s n)
  refine ⟨hinv.handled, ⟨topic n, messages_printedQueue K _, h.ascending n, ?_⟩, kept, hsub,
    (S.handed_of_real K s (h.real n)).trans heq,
    fun m hm ↦ (hall m hm).imp_right fun hrow ↦ hinv.anchored _ hrow⟩
  rw [hpolled]
  exact List.take_prefix _ _

/-- What a turn does to the registry is growth. -/
theorem Schedule.Supplied.later_registry (n : ℕ) :
    Later K (S.world K topic s n)
      { S.world K topic s n with registry := (S.moment K s (n + 1)).session.registry } := by
  rw [S.registry_succ, S.commands_eq, submission]
  split
  · exact Later.refl _
  · exact (h.honest n).later (S.world K topic s n) _

/-- What a turn submits is on-chain, if it lands. -/
theorem Schedule.Supplied.landed {n : ℕ} (hinv : Inv K (S.world K topic s n))
    (hlands : ∀ command ∈ S.commands K s n,
      (S.turn n).surroundings.Lands (S.moment K s n).session.registry command) :
    Landed (S.handed K s n)
      { S.world K topic s n with registry := (S.moment K s (n + 1)).session.registry } := by
  rw [S.registry_succ]
  rw [S.commands_eq] at hlands ⊢
  rcases eq_or_ne (S.handed K s n) [] with hnil | hne
  · rw [hnil]
    exact fun e he ↦ absurd he List.not_mem_nil
  · rw [submission, if_neg hne] at hlands ⊢
    exact (h.honest n).landed (w := S.world K topic s n) hinv.registry hne
      (hlands _ (List.mem_singleton_self _))

/-- **One turn keeps the invariant**, and so do the messages that are published after it. -/
theorem Schedule.Supplied.step {n : ℕ} (hinv : Inv K (S.world K topic s n)) :
    Inv K (S.world K topic s (n + 1)) := by
  have hlater := h.later_registry (s := s) n
  have hinv' := hinv.of_later hlater
  have hafter : Inv K { S.world K topic s n with
      registry := (S.moment K s (n + 1)).session.registry
      db := S.db K s (n + 1) } := by
    rcases S.settles (K := K) (s := s) (h.real n) with ⟨hdb, -⟩ | ⟨hlands, hdb⟩
    · rw [hdb]
      exact hinv'
    · have hcollected := (h.collected hinv).of_grows hinv hlater.grows
      have hdone := hcollected.done (h.landed hinv hlands)
      rw [S.handed_of_real K s (h.real n)] at hdone
      rw [hdb]
      exact hinv'.recorded hdone
  obtain ⟨more, hmore⟩ := h.grows n
  refine hafter.of_later (later_of_interferes (Or.inr ⟨printedQueue (topic (n + 1)),
    ⟨topic n, more, messages_printedQueue K _, ?_, ?_⟩, rfl⟩))
  · rw [hmore]
    exact messages_printedQueue K _
  · rw [hmore]
    exact h.ascending (n + 1)

theorem Schedule.Supplied.inv (hregistry : ∃ state, s.registry.state = some state)
    (hdb : s.db = Db.fresh) (n : ℕ) : Inv K (S.world K topic s n) := by
  induction n with
  | zero =>
    have hstart : S.moment K s 0 = .start s := S.moment_zero K s
    refine Initial.inv ⟨⟨topic 0, messages_printedQueue K _, h.ascending 0⟩, ?_, ?_⟩
    · rw [Schedule.world, hstart]
      exact hregistry
    · exact (S.db_zero K s).trans hdb
  | succ n ih => exact h.step ih

/-- What has been published stays so. -/
theorem Schedule.Supplied.prefix_of_le {n k : ℕ} (hle : n ≤ k) : topic n <+: topic k := by
  induction hle with
  | refl => exact List.prefix_refl _
  | @step k _ ih => exact ih.trans (h.grows k)

/-! ### The cursor gets everywhere -/

/-- **A turn that serves moves the cursor onto a message**, if there is one above it. -/
theorem Schedule.Serving.moves {n : ℕ} (hserving : S.Serving K topic s n) {m : DeliveryMsg}
    (hm : m ∈ topic n) (hlt : (S.db K s n).cursor < m.seq) :
    (S.db K s (n + 1)).cursor ∈ above (topic n) (S.db K s n).cursor := by
  obtain ⟨k, hk, hpolled⟩ := h.exists_polled (s := s) n
  have hne : S.polled K s n ≠ [] := by
    have hmem : m ∈ (topic n).filter ((S.db K s n).cursor < ·.seq) :=
      List.mem_filter.2 ⟨hm, by simpa using hlt⟩
    have hpositive := hk hserving
    rw [hpolled, ne_eq, List.take_eq_nil_iff]
    rintro (hzero | hnil)
    · omega
    · rw [hnil] at hmem
      exact absurd hmem List.not_mem_nil
  have hmem : ∀ m ∈ S.polled K s n, m ∈ topic n ∧ (S.db K s n).cursor < m.seq := by
    intro m hm
    rw [hpolled] at hm
    obtain ⟨hmem, hnew⟩ := List.mem_filter.1 (List.mem_of_mem_take hm)
    exact ⟨hmem, of_decide_eq_true hnew⟩
  rcases S.settles (K := K) (s := s) (h.real n) with
    ⟨-, hnone | ⟨command, hcommand, hfails⟩⟩ | ⟨-, hdb⟩
  · exact absurd hnone hne
  · exact absurd (hserving.lands command hcommand) hfails
  · rw [hdb, cursor_recorded]
    exact newest_mem_above hne hmem

end Supplied

/-- There are no more numbers above a greater cursor. -/
theorem card_above_le (msgs : List DeliveryMsg) {cursor cursor' : UInt64}
    (hle : cursor ≤ cursor') : (above msgs cursor').card ≤ (above msgs cursor).card := by
  refine Finset.card_le_card fun seq hseq ↦ ?_
  obtain ⟨hqueue, hgreater⟩ := mem_above.1 hseq
  exact mem_above.2 ⟨hqueue, hle.trans_lt hgreater⟩

/-- The queue file stays as it is, and `spel` reports what the program says. -/
def honestSurroundings (text : String) : Surroundings Account.samplePlatform :=
  { quietSurroundings text with
    spel := fun registry command ↦
      match command.batch? with
      | none => (.ok ⟨false, "Some(1)", ""⟩, registry)
      | some b =>
        match anchorBatch registry b with
        | .ok registry' => (.ok ⟨true, "Some(0)", ""⟩, registry')
        | _ => (.ok ⟨false, "Some(1)", ""⟩, registry) }

theorem spel_honestSurroundings (text : String) (registry : Account Account.samplePlatform)
    (command : SpelCommand) :
    (∃ b registry', command.batch? = some b ∧ anchorBatch registry b = .ok registry' ∧
        (honestSurroundings text).spel registry command =
          (.ok ⟨true, "Some(0)", ""⟩, registry')) ∨
      (¬ ∃ b, command.batch? = some b ∧ (anchorBatch registry b).isOk = true) ∧
        (honestSurroundings text).spel registry command =
          (.ok ⟨false, "Some(1)", ""⟩, registry) := by
  simp only [honestSurroundings]
  cases hb : command.batch? with
  | none => exact Or.inr ⟨by simp, rfl⟩
  | some b =>
    cases hok : anchorBatch registry b with
    | ok registry' => exact Or.inl ⟨b, registry', rfl, hok, by simp only [hok]⟩
    | err e => exact Or.inr ⟨by simp [hok], by simp only [hok]⟩
    | panic => exact Or.inr ⟨by simp [hok], by simp only [hok]⟩

theorem honest_honestSurroundings (text : String) : (honestSurroundings text).Honest := by
  intro registry command
  refine ⟨[], ?_⟩
  rcases spel_honestSurroundings text registry command with
    ⟨b, registry', hb, hok, hspel⟩ | ⟨-, hspel⟩
  · refine Or.inr ⟨b, hb, ?_, fun _ ↦ Outcome.isOk_iff.2 ⟨registry', hok⟩⟩
    rw [hspel]
    exact (execute_of_ok hok).symm
  · refine Or.inl ⟨congrArg Prod.snd hspel, ?_⟩
    rintro ⟨out, hout, hsuccess⟩
    rw [hspel] at hout
    rw [← Except.ok.inj hout] at hsuccess
    cases hsuccess

/-- What is handed over is a well-formed batch, if it is not too long. -/
theorem wellFormed_batchOf {entries : List AnchorEntry} (hle : entries.length ≤ MAX_BATCH_SIZE)
    (timestamp : UInt64) : (batchOf entries timestamp).WellFormed where
  length_le := by
    rw [batchOf, List.length_map]
    exact hle
  validCids := by
    intro cid hcid
    obtain ⟨e, -, rfl⟩ := List.mem_map.1 hcid
    exact e.1.length_toList
  equalLengths := by
    simp [batchOf, Batch.EqualLengths]

/-- No more is new of a batch than there are entries. -/
theorem length_unregisteredIn_batchOf_le (entries : List AnchorEntry) (timestamp : UInt64)
    (state : RegistryState) :
    ((batchOf entries timestamp).unregisteredIn state).length ≤ entries.length := by
  refine (List.length_filter_le _ _).trans ?_
  rw [batchOf, List.length_map]

/-- What is handed over lands, if there is room. -/
theorem lands_honestSurroundings (text : String) {registry : Account Account.samplePlatform}
    {state : RegistryState} {entries : List AnchorEntry} (hstate : registry.state = some state)
    (hne : entries ≠ []) (hle : entries.length ≤ MAX_BATCH_SIZE)
    (hroom : Account.Fits Account.samplePlatform (state.records.length + entries.length))
    (timestamp : UInt64) :
    (honestSurroundings text).Lands registry (spelCommand queueCfg entries timestamp) := by
  have hok : (anchorBatch registry (batchOf entries timestamp)).isOk = true := by
    refine isOk_of_wellFormed hstate (wellFormed_batchOf hle timestamp) (hroom.of_le ?_)
    exact Nat.add_le_add_left (length_unregisteredIn_batchOf_le entries timestamp state) _
  rcases spel_honestSurroundings text registry (spelCommand queueCfg entries timestamp) with
    ⟨b, registry', -, -, hspel⟩ | ⟨hrejected, -⟩
  · exact ⟨_, congrArg Prod.fst hspel, rfl⟩
  · exact absurd ⟨_, batch?_spelCommand queueCfg hne timestamp, hok⟩ hrejected

/-- A queue file offers what it holds. -/
theorem Turn.offers_printedQueue (K : Crates) {path : String} {msgs : List DeliveryMsg}
    (hsource : stripPrefix "file:" t.cli.deliverySource = some path)
    (hfile : t.surroundings.files path = .ok (printedQueue msgs)) : t.Offers K msgs := by
  have hraws := rawMessages_printedQueue K msgs
  have hmsgs := messages_printedQueue K msgs
  rw [messages, hraws, Option.bind_some] at hmsgs
  exact ⟨.file, _, ⟨path, _, hsource, hfile, hraws⟩, hmsgs⟩

theorem stripPrefix_queueCfg : stripPrefix "file:" queueCfg.deliverySource = some "queue" := by
  decide +kernel

/-- `run --once` on a queue of one message, over and over. -/
def quietForever : Schedule Account.samplePlatform :=
  .always (honestSurroundings (printedQueue [quietMessage])) queueCfg (onceArgs 50)

theorem offers_quietForever (n : ℕ) :
    (quietForever.turn n).Offers sampleCrates [quietMessage] :=
  Turn.offers_printedQueue sampleCrates stripPrefix_queueCfg rfl

theorem supplied_quietForever :
    quietForever.Supplied sampleCrates fun _ ↦ [quietMessage] where
  ascending _ := by
    refine ⟨List.pairwise_singleton _ _, fun m hm ↦ ?_⟩
    obtain rfl := List.mem_singleton.1 hm
    decide
  grows _ := List.prefix_refl _
  offers n := Or.inl (offers_quietForever n)
  real _ := rfl
  honest _ := honest_honestSurroundings _

/-! ### A topic that goes on, an outage, and a call that fails -/

/-- One message more for each turn, up to three. -/
def recoveringTopic (n : ℕ) : List DeliveryMsg :=
  (numberedMessages 3).take (n + 1)

/-- The queue file cannot be read at first, and then the first call of `spel` fails. -/
def recoveringSurroundings : ℕ → Surroundings Account.samplePlatform
  | 0 => { honestSurroundings "" with files := fun _ ↦ .error .other }
  | 1 =>
    { honestSurroundings (printedQueue (recoveringTopic 1)) with
      spel := fun registry _ ↦ (.ok ⟨false, "Some(1)", ""⟩, registry) }
  | n + 2 => honestSurroundings (printedQueue (recoveringTopic (n + 2)))

/-- `run --once` on that queue, over and over. -/
def recovering : Schedule Account.samplePlatform where
  turn n := ⟨recoveringSurroundings n, queueCfg, onceArgs 50, true⟩
  goes_on n h := by cases h

theorem ascending_recoveringTopic (n : ℕ) : Ascending (recoveringTopic n) := by
  have hthree : Ascending (numberedMessages 3) := ⟨by decide +kernel, by decide +kernel⟩
  exact ⟨hthree.pairwise.sublist (List.take_sublist _ _),
    fun m hm ↦ hthree.pos m (List.mem_of_mem_take hm)⟩

/-- The topic of turn `n` has the first `n + 1` messages. -/
theorem mem_recoveringTopic {i n : ℕ} (hi : i < 3) (hle : i ≤ n) :
    numberedMessage i ∈ recoveringTopic n := by
  rw [recoveringTopic, numberedMessages, ← List.map_take, List.take_range]
  exact List.mem_map_of_mem (List.mem_range.2 (lt_min (Nat.lt_succ_of_le hle) hi))

theorem offers_recovering (n : ℕ) :
    (recovering.turn (n + 1)).Offers sampleCrates (recoveringTopic (n + 1)) := by
  have hfile : (recovering.turn (n + 1)).surroundings.files "queue" =
      .ok (printedQueue (recoveringTopic (n + 1))) := by
    cases n with
    | zero => rfl
    | succ n => rfl
  exact Turn.offers_printedQueue sampleCrates stripPrefix_queueCfg hfile

theorem silent_recovering : (recovering.turn 0).Silent sampleCrates := by
  intro after
  show (pollResult sampleCrates (recoveringSurroundings 0) queueCfg.deliverySource _ after
    _).toOption.getD [] = []
  rw [pollResult, stripPrefix_queueCfg]
  rfl

/-- The call that fails has no effect. -/
theorem refuses_recovering (registry : Account Account.samplePlatform) (command : SpelCommand) :
    ¬ (recovering.turn 1).surroundings.Lands registry command ∧
      ((recovering.turn 1).surroundings.spel registry command).2 = registry := by
  refine ⟨?_, rfl⟩
  rintro ⟨out, hout, hsuccess⟩
  have hfailed : (⟨false, "Some(1)", ""⟩ : Output) = out := Except.ok.inj hout
  rw [← hfailed] at hsuccess
  cases hsuccess

theorem supplied_recovering : recovering.Supplied sampleCrates recoveringTopic where
  ascending := ascending_recoveringTopic
  grows n := List.take_prefix_take_left (n + 1).le_succ
  offers n := by
    cases n with
    | zero => exact Or.inr silent_recovering
    | succ n => exact Or.inl (offers_recovering n)
  real _ := rfl
  honest n := by
    rcases n with _ | _ | n
    · exact honest_honestSurroundings ""
    · exact fun registry command ↦ ⟨[], Or.inl (refuses_recovering registry command).symm⟩
    · exact honest_honestSurroundings _

/-- Once the file can be read, every turn polls all that is above the cursor. -/
theorem polled_recovering (n : ℕ) :
    recovering.polled sampleCrates quietSession (n + 1) =
      (recoveringTopic (n + 1)).filter
        ((recovering.db sampleCrates quietSession (n + 1)).cursor < ·.seq) := by
  obtain ⟨k, hk, hpoll⟩ := (offers_recovering n).exists_poll
    (ascending_recoveringTopic (n + 1)).pairwise
    (recovering.db sampleCrates quietSession (n + 1)).cursor
  obtain rfl : k = 50 := hk (show 1 ≤ 50 by decide)
  rw [Schedule.polled_eq _ _ _ rfl, hpoll]
  refine List.take_of_length_le ((List.length_filter_le _ _).trans ?_)
  exact (List.length_take_le' _ _).trans (by decide)

theorem handed_recovering (n : ℕ) :
    recovering.handed sampleCrates quietSession n =
      (recovering.polled sampleCrates quietSession n).filterMap
        (entryOf sampleCrates (recovering.db sampleCrates quietSession n).anchored) :=
  recovering.handed_of_real _ _ rfl

/-- After the outage and the failure everything is as it was. -/
theorem unchanged_recovering :
    (recovering.moment sampleCrates quietSession 2).session.registry = Account.emptyRegistry ∧
      (recovering.db sampleCrates quietSession 2).cursor = 0 ∧
      (recovering.db sampleCrates quietSession 2).anchored = ∅ := by
  have hstart : (recovering.moment sampleCrates quietSession 0).session.registry =
      Account.emptyRegistry := by
    rw [Schedule.moment_zero]
    rfl
  have hsilent : recovering.polled sampleCrates quietSession 0 = [] := by
    rw [Schedule.polled_eq _ _ _ rfl]
    exact silent_recovering _
  obtain ⟨hregistry, hcursor, hrows⟩ := Schedule.idle (S := recovering) rfl (Or.inl hsilent)
  rw [Schedule.db_zero] at hcursor hrows
  have hnew : numberedMessage 0 ∈ recovering.polled sampleCrates quietSession 1 := by
    have hmem := mem_recoveringTopic (i := 0) (n := 1) (by decide) (by decide)
    rw [polled_recovering, hcursor]
    exact List.mem_filter.2 ⟨hmem, decide_eq_true ((ascending_recoveringTopic 1).pos _ hmem)⟩
  have hhanded : recovering.handed sampleCrates quietSession 1 ≠ [] := by
    have hcid := decodeCid_numberedMessage 0
    have hrow : (numberedMessage 0).payload.cid ∉
        (recovering.db sampleCrates quietSession 1).anchored :=
      fun hmem ↦ Finset.notMem_empty _ (hrows.le hmem)
    have hentry := (entryOf_eq_some (e := (_, _, _)) sampleCrates).2 ⟨hrow, hcid, rfl⟩
    rw [handed_recovering]
    exact List.ne_nil_of_mem (List.mem_filterMap.2 ⟨_, hnew, hentry⟩)
  obtain ⟨hregistry', hcursor', hrows'⟩ :=
    Schedule.idle (S := recovering) rfl (Or.inr ⟨hhanded, refuses_recovering⟩)
  exact ⟨hregistry'.trans (hregistry.trans hstart), hcursor'.trans hcursor, hrows'.trans hrows⟩

/-- A turn with readable queue serves if what it submits lands. -/
theorem serving_recovering {n : ℕ}
    (hlands : ∀ command ∈ recovering.commands sampleCrates quietSession (n + 1),
      (recovering.turn (n + 1)).surroundings.Lands
        (recovering.moment sampleCrates quietSession (n + 1)).session.registry command) :
    recovering.Serving sampleCrates recoveringTopic quietSession (n + 1) where
  offers := offers_recovering n
  batchSize := show 1 ≤ 50 by decide
  goesOn hstops := absurd hstops.1 (Nat.not_lt_zero 0)
  lands := hlands

/-- There is room for three documents. -/
theorem lands_of_length_le {entries : List AnchorEntry} (hne : entries ≠ [])
    (hlength : entries.length ≤ 3) (timestamp : UInt64) :
    (recovering.turn 2).surroundings.Lands Account.emptyRegistry
      (spelCommand (recovering.turn 2).cli entries timestamp) := by
  have hthree : Account.Fits Account.samplePlatform 3 := by decide
  refine lands_honestSurroundings _ Account.emptyRegistry_state hne (hlength.trans (by decide))
    (hthree.of_le ?_) timestamp
  exact (Nat.zero_add _).le.trans hlength

/-- So what the third turn submits lands. -/
theorem lands_recovering : ∀ command ∈ recovering.commands sampleCrates quietSession 2,
    (recovering.turn 2).surroundings.Lands
      (recovering.moment sampleCrates quietSession 2).session.registry command := by
  intro command hcommand
  have hlength : (recovering.handed sampleCrates quietSession 2).length ≤ 3 := by
    rw [handed_recovering, polled_recovering]
    refine (List.length_filterMap_le _ _).trans ((List.length_filter_le _ _).trans ?_)
    exact List.length_take_le _ _
  rw [Schedule.commands_eq, submission] at hcommand
  split at hcommand
  · exact absurd hcommand List.not_mem_nil
  · next hne =>
    rw [unchanged_recovering.1, List.mem_singleton.1 hcommand]
    exact lands_of_length_le hne hlength _

/-- After it the cursor stands on the last message. -/
theorem passed_recovering {n : ℕ} (hn : 3 ≤ n) {m : DeliveryMsg} (hm : m ∈ numberedMessages 3) :
    m.seq ≤ (recovering.db sampleCrates quietSession n).cursor := by
  have hpolled : m ∈ recovering.polled sampleCrates quietSession 2 := by
    rw [polled_recovering, unchanged_recovering.2.1]
    exact List.mem_filter.2 ⟨hm, decide_eq_true ((ascending_recoveringTopic 2).pos m hm)⟩
  have hcursor : (recovering.db sampleCrates quietSession 3).cursor =
      newest (recovering.db sampleCrates quietSession 2).cursor
        (recovering.polled sampleCrates quietSession 2) := by
    rcases recovering.settles (K := sampleCrates) (s := quietSession) (n := 2) rfl with
      ⟨-, hnone | ⟨command, hcommand, hfails⟩⟩ | ⟨-, hdb⟩
    · exact absurd hnone (List.ne_nil_of_mem hpolled)
    · exact absurd (lands_recovering command hcommand) hfails
    · rw [hdb, cursor_recorded]
  exact ((le_newest_of_mem hpolled).trans hcursor.ge).trans
    (recovering.cursor_mono sampleCrates quietSession hn)

/-- And nothing more is submitted. -/
theorem frequently_serving_recovering : ∃ᶠ n in atTop,
    recovering.Serving sampleCrates recoveringTopic quietSession n := by
  refine frequently_atTop.2 fun n ↦ ⟨n + 3, Nat.le_add_right n 3, ?_⟩
  refine serving_recovering fun command hcommand ↦ ?_
  have hpolled : recovering.polled sampleCrates quietSession (n + 3) = [] := by
    refine (polled_recovering (n + 2)).trans (List.filter_eq_nil_iff.2 fun m hm hlt ↦ ?_)
    have hpassed := passed_recovering (Nat.le_add_left 3 n) (List.mem_of_mem_take hm)
    exact absurd (of_decide_eq_true hlt) hpassed.not_gt
  rw [Schedule.commands_eq, handed_recovering, hpolled] at hcommand
  exact absurd hcommand List.not_mem_nil

end Whistleblower.BatchAnchor
