import Whistleblower.BatchAnchor.Session
import Whistleblower.BatchAnchor.WireFormat

/-!
# Reading a queue file to its end

Two promises about a queue file, and what they take.

**A poll leaves nothing behind the cursor.** `run` moves the cursor to the largest number that a
poll has returned, so what the poll has left out had better be above it. The page is cut off in file
order, though, and put into the order of the numbers only afterwards. So the promise is kept exactly
if what comes behind the page in the file is above all of it (`completePoll_iff`), and a file in
ascending order is one where it is.

**`--once` processes what is there.** The loop is left after its first iteration, whatever has been
polled, so that is one page at most (`drained_iff`).
-/

namespace Whistleblower.BatchAnchor

variable {P : Platform} {K : Crates}

/-! ### What a poll leaves behind -/

/-- What a poll at a cursor is to return of the messages of a file: a sorted list within the limit,
above the cursor, without a gap up to the newest of them. -/
structure CompletePoll (msgs : List DeliveryMsg) (after : UInt64) (limit : ℕ)
    (out : List DeliveryMsg) : Prop where
  sorted : out.Pairwise (·.seq ≤ ·.seq)
  length_le : out.length ≤ limit
  new : ∀ m ∈ out, after < m.seq
  complete : ∀ m ∈ msgs, after < m.seq → m.seq ≤ newest after out → m ∈ out

/-- The messages above a cursor that come first in the file. -/
def kept (msgs : List DeliveryMsg) (after : UInt64) (limit : ℕ) : List DeliveryMsg :=
  (msgs.filter (after < ·.seq)).take limit

/-- The other messages above the cursor. -/
def left (msgs : List DeliveryMsg) (after : UInt64) (limit : ℕ) : List DeliveryMsg :=
  (msgs.filter (after < ·.seq)).drop limit

theorem mem_kept_or_left {msgs : List DeliveryMsg} {after : UInt64} {m : DeliveryMsg}
    (limit : ℕ) (hm : m ∈ msgs) (hnew : after < m.seq) :
    m ∈ kept msgs after limit ∨ m ∈ left msgs after limit := by
  rw [← List.mem_append, kept, left, List.take_append_drop]
  exact List.mem_filter.2 ⟨hm, decide_eq_true hnew⟩

theorem mem_sortBySeq {l : List DeliveryMsg} {m : DeliveryMsg} : m ∈ sortBySeq l ↔ m ∈ l :=
  List.mem_mergeSort

theorem sorted_sortBySeq (l : List DeliveryMsg) : (sortBySeq l).Pairwise (·.seq ≤ ·.seq) := by
  refine (List.pairwise_mergeSort ?_ ?_ l).imp fun h ↦ of_decide_eq_true h
  · intro a b c hab hbc
    exact decide_eq_true ((of_decide_eq_true hab).trans (of_decide_eq_true hbc))
  · intro a b
    rw [Bool.or_eq_true, decide_eq_true_iff, decide_eq_true_iff]
    exact le_total _ _

/-- The page, sorted, is complete exactly if what is left is above it, repetitions apart. -/
theorem completePoll_sortBySeq_iff {msgs : List DeliveryMsg} {after : UInt64} {limit : ℕ} :
    CompletePoll msgs after limit (sortBySeq (kept msgs after limit)) ↔
      ∀ m ∈ left msgs after limit,
        m ∈ kept msgs after limit ∨ ∀ k ∈ kept msgs after limit, k.seq < m.seq := by
  have hnew : ∀ m ∈ kept msgs after limit, m ∈ msgs ∧ after < m.seq := fun m hm ↦
    (List.mem_filter.1 (List.mem_of_mem_take hm)).imp_right of_decide_eq_true
  constructor
  · intro hcomplete m hm
    refine or_iff_not_imp_left.2 fun hdropped k hk ↦ ?_
    obtain ⟨hmem, habove⟩ := List.mem_filter.1 (List.mem_of_mem_drop hm)
    by_contra hnot
    -- the message is behind the newest of the page, and not on it
    have hbehind : m.seq ≤ newest after (sortBySeq (kept msgs after limit)) :=
      (le_of_not_gt hnot).trans (le_newest_of_mem (mem_sortBySeq.2 hk))
    exact hdropped (mem_sortBySeq.1
      (hcomplete.complete m hmem (of_decide_eq_true habove) hbehind))
  · intro habove
    refine ⟨sorted_sortBySeq _, ?_, fun m hm ↦ (hnew m (mem_sortBySeq.1 hm)).2, ?_⟩
    · rw [sortBySeq, List.length_mergeSort]
      exact List.length_take_le _ _
    · intro m hm hm' hle
      rcases mem_kept_or_left limit hm hm' with hkept | hleft
      · exact mem_sortBySeq.2 hkept
      · refine mem_sortBySeq.2 ((habove m hleft).resolve_right fun hgreater ↦ ?_)
        rcases newest_eq after (sortBySeq (kept msgs after limit)) with heq | ⟨k, hk, heq⟩
        · exact absurd hm' (hle.trans_eq heq).not_gt
        · exact absurd (hgreater k (mem_sortBySeq.1 hk)) (hle.trans_eq heq).not_gt

/-- **What a poll of a queue file skips.** It returns a sorted page above the cursor, and the page
is complete up to the newest message on it exactly if every message above the cursor that comes
behind the first `limit` of them in the file is a repetition of one of these, or newer than all of
them. -/
theorem completePoll_iff (K : Crates) {source path text : String}
    (hsource : stripPrefix "file:" source = some path) {msgs : List DeliveryMsg}
    (hmsgs : messages K text = some msgs) (topic : String) (after : UInt64) {limit : ℕ}
    (hlimit : 1 ≤ limit) :
    ∃ out k, pollDelivery K source topic after limit = .op (.readToString path) k ∧
      k (.ok text) = .pure out ∧
      (CompletePoll msgs after limit out ↔
        ∀ m ∈ left msgs after limit,
          m ∈ kept msgs after limit ∨ ∀ k ∈ kept msgs after limit, k.seq < m.seq) := by
  obtain ⟨k, hpoll, hread⟩ := pollDelivery_of_messages K hsource hmsgs topic after limit
  rw [max_eq_left hlimit] at hread
  exact ⟨sortBySeq (kept msgs after limit), k, hpoll, hread, completePoll_sortBySeq_iff⟩

/-- A file in ascending order has nothing to lose. -/
theorem completePoll_of_ascending {msgs : List DeliveryMsg} {after : UInt64} {limit : ℕ}
    (hmsgs : msgs.Pairwise (·.seq < ·.seq)) :
    CompletePoll msgs after limit (sortBySeq (kept msgs after limit)) := by
  refine completePoll_sortBySeq_iff.2 fun m hm ↦ Or.inr fun k hk ↦ ?_
  have hnew : (msgs.filter (after < ·.seq)).Pairwise (·.seq < ·.seq) := hmsgs.filter _
  rw [← List.take_append_drop limit (msgs.filter _)] at hnew
  exact (List.pairwise_append.1 hnew).2.2 k hk m hm

/-- Two messages, the newer one first. -/
def descendingMessages : List DeliveryMsg :=
  [{ quietMessage with seq := 9 }, quietMessage]

/-- With pages of one message, the poll returns number 9 and leaves number 7 behind. -/
theorem not_completePoll_descendingMessages :
    ∃ k, pollDelivery sampleCrates "file:queue" "topic" 0 1 = .op (.readToString "queue") k ∧
      k (.ok (printedQueue descendingMessages)) = .pure [{ quietMessage with seq := 9 }] ∧
      ¬ CompletePoll descendingMessages 0 1 [{ quietMessage with seq := 9 }] := by
  have hsource : stripPrefix "file:" "file:queue" = some "queue" := by decide +kernel
  obtain ⟨k, hpoll, hread⟩ := pollDelivery_of_messages sampleCrates hsource
    (messages_printedQueue sampleCrates descendingMessages) "topic" 0 1
  have hkept : (descendingMessages.filter (0 < ·.seq)).take (max 1 1) =
      [{ quietMessage with seq := 9 }] := rfl
  rw [hkept, sortBySeq, List.mergeSort_singleton] at hread
  refine ⟨k, hpoll, hread, fun hcomplete ↦ ?_⟩
  have hmem := hcomplete.complete quietMessage (List.mem_cons_of_mem _ List.mem_cons_self)
    (show (0 : UInt64) < 7 by decide) (show (7 : UInt64) ≤ 9 by decide)
  exact absurd (congrArg DeliveryMsg.seq (List.mem_singleton.1 hmem))
    (show (7 : UInt64) ≠ 9 by decide)

/-- In ascending order, the same two messages are polled one after the other. -/
theorem completePoll_ascendingMessages :
    ∃ out k, pollDelivery sampleCrates "file:queue" "topic" 0 1 = .op (.readToString "queue") k ∧
      k (.ok (printedQueue descendingMessages.reverse)) = .pure out ∧
      CompletePoll descendingMessages.reverse 0 1 out := by
  have hsource : stripPrefix "file:" "file:queue" = some "queue" := by decide +kernel
  obtain ⟨out, k, hpoll, hread, hiff⟩ := completePoll_iff sampleCrates hsource
    (messages_printedQueue sampleCrates descendingMessages.reverse) "topic" 0 (Nat.le_refl 1)
  refine ⟨out, k, hpoll, hread, hiff.2 fun m hm ↦ Or.inr fun k hk ↦ ?_⟩
  have hleft : left descendingMessages.reverse 0 1 = [{ quietMessage with seq := 9 }] := rfl
  have hkept : kept descendingMessages.reverse 0 1 = [quietMessage] := rfl
  rw [hleft, List.mem_singleton] at hm
  rw [hkept, List.mem_singleton] at hk
  rw [hm, hk]
  exact show (7 : UInt64) < 9 by decide

/-! ### One iteration -/

/-- **The queue is drained**: what was above the cursor is recorded, unless its CID cannot be
decoded, and the cursor is the number of the newest message. -/
structure Drained (K : Crates) (msgs : List DeliveryMsg) (cursor : UInt64) (db : Db) : Prop where
  recorded : ∀ m ∈ msgs, cursor < m.seq → Decodable K m.payload.cid →
    m.payload.cid ∈ db.anchored
  cursor : ∀ m ∈ msgs, (∀ k ∈ msgs, k.seq ≤ m.seq) → db.cursor = m.seq

/-- One page holds what is above the cursor, and the cursor is not past the whole queue. -/
def FitsOnePage (msgs : List DeliveryMsg) (cursor : UInt64) (batchSize : ℕ) : Prop :=
  (msgs.filter (cursor < ·.seq)).length ≤ batchSize ∧ (msgs = [] ∨ ∃ m ∈ msgs, cursor ≤ m.seq)

variable {E : Surroundings P} {cli : Cfg} {args : RunArgs} {msgs : List DeliveryMsg}

/-- **`--once` makes one iteration**, and ends. -/
theorem eval_run_once (honce : args.once = true) (hmax : args.maxBatches = 0)
    (hdry : args.dryRun = false) (hspel : E.SpelSucceeds) {s : Session P}
    (hpoll : pollResult K E cli.deliverySource args.topic s.db.cursor args.batchSize = .ok msgs)
    (n : ℕ) :
    ∃ s', (run K cli args (n + 1)).eval E.answer s = (.ok (some ()), s') ∧
      s'.db.cursor = newest s.db.cursor msgs ∧
      ∀ m ∈ msgs, Decodable K m.payload.cid → m.payload.cid ∈ s'.db.anchored := by
  have hgo : ¬ (args.maxBatches > 0 ∧ 0 ≥ args.maxBatches) := by omega
  have hiteration := eval_iteration_of_ok hgo hpoll s
  have hdone : ∀ (cursor : UInt64) (b : ℕ), Next.unlessOnce args cursor b = .done :=
    fun cursor b ↦ if_pos honce
  rw [eval_run, runLoop]
  rcases eq_or_ne msgs [] with rfl | hne
  · rw [if_pos rfl, hdone] at hiteration
    rw [Process.eval_bind_of_ok _ hiteration]
    exact ⟨s, rfl, newest_nil _, nofun⟩
  · obtain ⟨b, s', heval, hdb⟩ := eval_process_recorded hdry hspel s.db.cursor 0 s
    rw [if_neg hne, heval, hdone] at hiteration
    rw [Process.eval_bind_of_ok _ hiteration]
    refine ⟨s', rfl, ?_, fun m hm hdecodable ↦ ?_⟩
    · rw [hdb, cursor_recorded]
    · rw [hdb]
      exact mem_anchored_recorded_of_mem hm hdecodable

/-- A poll of a queue in ascending order returns the page as it is. -/
theorem pollText_of_ascending {text : String} (hmsgs : messages K text = some msgs)
    (hascending : msgs.Pairwise (·.seq < ·.seq)) (after : UInt64) {limit : ℕ} (hlimit : 1 ≤ limit) :
    pollText K text after limit = .ok (kept msgs after limit) := by
  rw [pollText_of_pairwise K hmsgs hascending, max_eq_left hlimit]
  rfl

/-- In ascending order, the last message is the newest. -/
theorem exists_greatest (hascending : msgs.Pairwise (·.seq < ·.seq)) (hne : msgs ≠ []) :
    ∃ m ∈ msgs, ∀ k ∈ msgs, k.seq ≤ m.seq := by
  obtain ⟨init, m, rfl⟩ := (List.eq_nil_or_concat' msgs).resolve_left hne
  refine ⟨m, by simp, fun k hk ↦ ?_⟩
  rcases List.mem_append.1 hk with hold | hlast
  · exact ((List.pairwise_append.1 hascending).2.2 k hold m List.mem_cons_self).le
  · rw [List.mem_singleton.1 hlast]

/-- A page that does not hold everything above the cursor leaves the cursor below a message. -/
theorem exists_newest_lt (hascending : msgs.Pairwise (·.seq < ·.seq)) {cursor : UInt64} {b : ℕ}
    (hmore : b < (msgs.filter (cursor < ·.seq)).length) :
    ∃ m ∈ msgs, newest cursor (kept msgs cursor b) < m.seq := by
  obtain ⟨m, hm⟩ := List.exists_mem_of_ne_nil _
    (List.ne_nil_of_length_pos (l := left msgs cursor b) (by rw [left, List.length_drop]; omega))
  obtain ⟨hmem, hnew⟩ := List.mem_filter.1 (List.mem_of_mem_drop hm)
  refine ⟨m, hmem, ?_⟩
  have hsplit : (msgs.filter (cursor < ·.seq)).Pairwise (·.seq < ·.seq) := hascending.filter _
  rw [← List.take_append_drop b (msgs.filter _)] at hsplit
  rcases newest_eq cursor (kept msgs cursor b) with heq | ⟨k, hk, heq⟩
  · rw [heq]
    exact of_decide_eq_true hnew
  · rw [heq]
    exact (List.pairwise_append.1 hsplit).2.2 k hk m hm

/-- **What one page drains.** -/
theorem drained_iff_fitsOnePage (hascending : msgs.Pairwise (·.seq < ·.seq)) {cursor : UInt64}
    {b : ℕ} {db : Db} (hcursor : db.cursor = newest cursor (kept msgs cursor b))
    (hrows : ∀ m ∈ kept msgs cursor b, Decodable K m.payload.cid → m.payload.cid ∈ db.anchored) :
    Drained K msgs cursor db ↔ FitsOnePage msgs cursor b := by
  constructor
  · intro hdrained
    rcases eq_or_ne msgs [] with hempty | hne
    · rw [hempty]
      exact ⟨Nat.zero_le b, Or.inl rfl⟩
    · obtain ⟨m, hm, hgreatest⟩ := exists_greatest hascending hne
      have hnewest := hcursor.symm.trans (hdrained.cursor m hm hgreatest)
      refine ⟨?_, Or.inr ⟨m, hm, (le_newest _ _).trans_eq hnewest⟩⟩
      by_contra hmore
      obtain ⟨k, hk, hlt⟩ := exists_newest_lt hascending (Nat.lt_of_not_le hmore)
      rw [hnewest] at hlt
      exact absurd (hgreatest k hk) hlt.not_ge
  · rintro ⟨hfits, hreached⟩
    have hall : ∀ m ∈ msgs, cursor < m.seq → m ∈ kept msgs cursor b := by
      intro m hm hnew
      rw [kept, List.take_of_length_le hfits]
      exact List.mem_filter.2 ⟨hm, decide_eq_true hnew⟩
    have hkept : ∀ m ∈ kept msgs cursor b, m ∈ msgs :=
      fun m hm ↦ (List.mem_filter.1 (List.mem_of_mem_take hm)).1
    refine ⟨fun m hm hnew ↦ hrows m (hall m hm hnew), fun m hm hgreatest ↦ ?_⟩
    obtain ⟨k, hk, hle⟩ := hreached.resolve_left (List.ne_nil_of_mem hm)
    have hpast : cursor ≤ m.seq := hle.trans (hgreatest k hk)
    rw [hcursor]
    rcases hpast.eq_or_lt with heq | hnew
    · -- nothing is above the cursor
      rw [newest_eq_self_iff.2 fun j hj ↦ (hgreatest j (hkept j hj)).trans_eq heq.symm, heq]
    · exact newest_eq_of_greatest (hall m hm hnew) (fun j hj ↦ hgreatest j (hkept j hj)) hpast

/-- **What `--once` drains.** A run over a well-formed queue in ascending order ends, and has
drained the queue exactly if one page holds all messages above the starting cursor, and the starting
cursor is not past the whole queue. -/
theorem drained_iff (K : Crates) (P : Platform) (E : Surroundings P) (cli : Cfg) (args : RunArgs)
    (honce : args.once = true) (hmax : args.maxBatches = 0) (hdry : args.dryRun = false)
    (hbatchSize : 1 ≤ args.batchSize) (hspel : E.SpelSucceeds) {path text : String}
    (hsource : stripPrefix "file:" cli.deliverySource = some path) (hfile : E.files path = .ok text)
    {msgs : List DeliveryMsg} (hmsgs : messages K text = some msgs)
    (hascending : msgs.Pairwise (·.seq < ·.seq)) (s : Session P) (n : ℕ) :
    ∃ s', (run K cli args (n + 1)).eval E.answer s = (.ok (some ()), s') ∧
      (Drained K msgs s.db.cursor s'.db ↔ FitsOnePage msgs s.db.cursor args.batchSize) := by
  have hpoll : pollResult K E cli.deliverySource args.topic s.db.cursor args.batchSize =
      .ok (kept msgs s.db.cursor args.batchSize) := by
    rw [pollResult_of_file K E hsource hfile]
    exact pollText_of_ascending hmsgs hascending _ hbatchSize
  obtain ⟨s', heval, hcursor, hrows⟩ := eval_run_once honce hmax hdry hspel hpoll n
  exact ⟨s', heval, drained_iff_fitsOnePage hascending hcursor hrows⟩

/-- **Two messages and pages of one**: the run ends with the second message untouched. -/
theorem not_drained_numberedMessages :
    ∃ s', (run sampleCrates queueCfg (onceArgs 1) 1).eval
        (quietSurroundings (printedQueue (numberedMessages 2))).answer quietSession =
          (.ok (some ()), s') ∧
      ¬ Drained sampleCrates (numberedMessages 2) quietSession.db.cursor s'.db := by
  have hsource : stripPrefix "file:" queueCfg.deliverySource = some "queue" := by decide +kernel
  have hcursor : quietSession.db.cursor = 0 := Db.cursor_fresh
  have hascending : (numberedMessages 2).Pairwise (·.seq < ·.seq) :=
    List.pairwise_pair.2 (show (1 : UInt64) < 2 by decide)
  have hlength : ((numberedMessages 2).filter (0 < ·.seq)).length = 2 := rfl
  have hpoll : pollResult sampleCrates (quietSurroundings (printedQueue (numberedMessages 2)))
      queueCfg.deliverySource (onceArgs 1).topic quietSession.db.cursor (onceArgs 1).batchSize =
        .ok (kept (numberedMessages 2) quietSession.db.cursor 1) := by
    rw [pollResult_of_file _ _ hsource rfl]
    exact pollText_of_ascending (messages_printedQueue sampleCrates _) hascending _ (Nat.le_refl 1)
  obtain ⟨s', heval, hcursor', hrows⟩ := eval_run_once rfl rfl rfl
    (spelSucceeds_quietSurroundings _) hpoll 0
  refine ⟨s', heval, fun hdrained ↦ ?_⟩
  have hfits := ((drained_iff_fitsOnePage hascending hcursor' hrows).1 hdrained).1
  rw [hcursor, hlength] at hfits
  exact absurd hfits (by decide)

/-- A queue of one message is drained. -/
theorem drained_quietQueue :
    ∃ s', (run sampleCrates queueCfg (onceArgs 50) 1).eval (quietSurroundings quietQueue).answer
        quietSession = (.ok (some ()), s') ∧
      Drained sampleCrates [quietMessage] quietSession.db.cursor s'.db := by
  have hsource : stripPrefix "file:" queueCfg.deliverySource = some "queue" := by decide +kernel
  have hcursor : quietSession.db.cursor = 0 := Db.cursor_fresh
  obtain ⟨s', heval, hiff⟩ := drained_iff sampleCrates Account.samplePlatform
    (quietSurroundings quietQueue) queueCfg (onceArgs 50) rfl rfl rfl (by decide)
    (spelSucceeds_quietSurroundings quietQueue) hsource rfl messages_quietQueue
    (List.pairwise_singleton _ _) quietSession 0
  refine ⟨s', heval, hiff.2 ⟨?_, Or.inr ⟨quietMessage, List.mem_cons_self, ?_⟩⟩⟩
  · exact (List.length_filter_le _ _).trans (by decide)
  · rw [hcursor]
    exact UInt64.zero_le

end Whistleblower.BatchAnchor
