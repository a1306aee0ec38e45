import Whistleblower.BatchAnchor.Restarts
import Whistleblower.BatchAnchor.WireFormat
import Whistleblower.Foundations.Paging

/-!
# Bad broadcasts

Anyone can publish on the topic, so the queue may hold messages whose envelope does not read. One of
them is enough to stop the batch anchor for good: the file source fails the whole poll, and the
cursor is never moved past the message. The bridge source drops such messages, but the cursor moves
only with what is returned, so a page of nothing else is polled again and again.

What is delivered in spite of this is settled exactly, for every queue in ascending order, every
batch size and every schedule of restarts (`allHandled_iff`). `Clear` cuts the queue into pages:
none may stop the source before the last good message, and none may end inside the messages of one
number and leave a good one of them behind, since the next page starts above that number.

Where no number is used twice the pages can be counted, from the messages above the cursor at the
start.

* From a file, a message is delivered if no message with a malformed envelope is on its page or an
  earlier one.
* From the bridge, a message is delivered if a page full of malformed ones, at whatever position,
  does not come before it.

A CID that cannot be decoded does no harm: its message is returned, and skipped.
-/

namespace Whistleblower.BatchAnchor

variable {P : Platform}

/-- The two kinds of delivery source. -/
inductive SourceKind where
  | file
  | bridge

namespace RawMsg

/-- The envelope does not read, as a test. -/
def isMalformed (m : RawMsg) : Bool :=
  decide m.Malformed

/-- The message is well-formed and its CID can be decoded. -/
def Good (K : Crates) (m : RawMsg) : Prop :=
  ∃ msg, m.decode? = some msg ∧ Decodable K msg.payload.cid

@[simp] theorem isMalformed_iff {m : RawMsg} : m.isMalformed ↔ m.Malformed :=
  decide_eq_true_iff

theorem isMalformed_of_decode? {m : RawMsg} {msg : DeliveryMsg} (h : m.decode? = some msg) :
    m.isMalformed = false := by
  rw [isMalformed, decide_eq_false_iff_not, Malformed, h]
  exact Option.some_ne_none msg

end RawMsg

variable (K : Crates) (E : Surroundings P) (cli : Cfg) (args : RunArgs)

/-- The delivery source holds these messages. Of the bridge, what is assumed is that it answers with
the first `limit` messages above `after`. -/
def Holds : SourceKind → List RawMsg → Prop
  | .file, raws => ∃ path text, stripPrefix "file:" cli.deliverySource = some path ∧
      E.files path = .ok text ∧ rawMessages K text = some raws
  | .bridge, raws => stripPrefix "file:" cli.deliverySource = none ∧
      (∃ url, stripPrefix "http:" cli.deliverySource = some url) ∧
      ∀ after, ∃ body vs,
        E.http (messagesUrl cli.deliverySource args.topic after args.batchSize) = .ok body ∧
        (K.json.fromStr body.toList).bind Json.Value.asArray = some vs ∧
        vs.map RawMsg.ofValue = (raws.filter (after < ·.seq)).take args.batchSize

/-- A delivery source that serves a queue in ascending order, which may use a number more than once,
to real runs with a batch size of at least one, beside a `spel` that succeeds. -/
structure Serves (kind : SourceKind) (raws : List RawMsg) : Prop where
  holds : Holds K E cli args kind raws
  ascending : raws.Pairwise (·.seq ≤ ·.seq)
  batchSize : 1 ≤ args.batchSize
  real : args.dryRun = false
  spel : E.SpelSucceeds

/-- **Every good message is handled**: after some number of iterations, it has been returned by a
poll and its CID is recorded as anchored. Messages up to the cursor at the start have had their turn
before, except one numbered 0, which no poll returns. -/
def AllHandled (restarts : ℕ → Bool) (raws : List RawMsg) (s : Session P) : Prop :=
  ∃ N, ∀ m ∈ raws, m.seq = 0 ∨ s.db.cursor < m.seq →
    ∀ msg, m.decode? = some msg → Decodable K msg.payload.cid →
      (∃ n < N, msg ∈ polled K E cli args (restarts n) (moment K E cli args restarts s n)) ∧
        msg.payload.cid ∈ (moment K E cli args restarts s N).session.db.anchored

/-- The messages above the cursor. -/
def pending (raws : List RawMsg) (s : Session P) : List RawMsg :=
  raws.filter (s.db.cursor < ·.seq)

/-- The message a source comes to with a page. From a file it is the last one, where no envelope of
the page is malformed; from the bridge it is the last one whose envelope is not. There may be
none. -/
def SourceKind.Ends : SourceKind → List RawMsg → RawMsg → Prop
  | .file => Paging.StrictEnds RawMsg.Malformed
  | .bridge => Paging.LenientEnds RawMsg.Malformed

/-- The message is already there, with the same number and the same payload. -/
def Repeats (page : List RawMsg) (m : RawMsg) : Prop :=
  ∃ n ∈ page, n.decode? = m.decode?

/-- **The queue is clear**: cut into pages from the front, the source gets to the end of each as
long as there is a good message left. The next page starts above the message the source has come to,
and what is behind a page under the number of that message has been on the page too, if it is
good. -/
def Clear (b : ℕ) (kind : SourceKind) : List RawMsg → Prop :=
  Paging.Passes kind.Ends b RawMsg.seq (RawMsg.Good K) Repeats

/-- No malformed envelope is in the way of a good message. -/
def Unblocked (b : ℕ) (l : List RawMsg) : SourceKind → Prop
  | .file => Paging.StrictClear RawMsg.Malformed (RawMsg.Good K) b l
  | .bridge => Paging.LenientClear RawMsg.Malformed (RawMsg.Good K) b l

/-- **Where no number is used twice**, the queue is clear if no malformed envelope is in the way. -/
theorem clear_iff_unblocked {K : Crates} {b : ℕ} (hb : 1 ≤ b) {l : List RawMsg}
    (hl : l.Pairwise (·.seq < ·.seq)) (kind : SourceKind) :
    Clear K b kind l ↔ Unblocked K b l kind := by
  cases kind with
  | file => exact Paging.passes_strict_iff hl hb
  | bridge =>
    refine Paging.passes_lenient_iff hl ?_
    rintro m ⟨msg, hmsg, -⟩ hbad
    exact absurd (hmsg.symm.trans hbad) (Option.some_ne_none msg)

/-! ### What a poll returns -/

/-- What a source makes of a page. -/
def SourceKind.read (page : List RawMsg) : SourceKind → List DeliveryMsg
  | .file => if page.any RawMsg.isMalformed then [] else page.filterMap RawMsg.decode?
  | .bridge => page.filterMap RawMsg.decode?

/-- Reading a list of envelopes fails if one of them does. -/
theorem mapM_decode (l : List RawMsg) :
    l.mapM RawMsg.decode = if l.any RawMsg.isMalformed then .error "malformed envelope payload"
      else .ok (l.filterMap RawMsg.decode?) := by
  induction l with
  | nil => rfl
  | cons m l ih =>
    rw [List.mapM_cons, List.any_cons, ih]
    cases hm : m.decode? with
    | none =>
      have hbad : m.isMalformed = true := RawMsg.isMalformed_iff.2 hm
      rw [hbad, Bool.true_or, if_pos rfl, RawMsg.decode, hm]
      rfl
    | some msg =>
      rw [RawMsg.isMalformed_of_decode? hm, Bool.false_or, RawMsg.decode_of_decode? hm,
        List.filterMap_cons_some hm]
      split <;> rfl

theorem sortBySeq_filterMap {l : List RawMsg} (hl : l.Pairwise (·.seq ≤ ·.seq)) :
    sortBySeq (l.filterMap RawMsg.decode?) = l.filterMap RawMsg.decode? := by
  refine List.mergeSort_of_pairwise (hl.filterMap _ fun m n hle msg hmsg msg' hmsg' ↦ ?_)
  rw [RawMsg.seq_of_decode? hmsg, RawMsg.seq_of_decode? hmsg']
  exact decide_eq_true hle

variable {K E cli args} {kind : SourceKind} {raws : List RawMsg}

/-- **What a poll returns** is what the source makes of the page. -/
theorem toOption_pollResult (hserves : Serves K E cli args kind raws) (after : UInt64) :
    (pollResult K E cli.deliverySource args.topic after args.batchSize).toOption.getD [] =
      kind.read (page after args.batchSize raws) := by
  have hmax : max args.batchSize 1 = args.batchSize := max_eq_left hserves.batchSize
  cases kind with
  | file =>
    obtain ⟨path, text, hsource, hfile, hraws⟩ := hserves.holds
    have hpage : (page after args.batchSize raws).Pairwise (·.seq ≤ ·.seq) :=
      (hserves.ascending.filter _).sublist (List.take_sublist _ _)
    rw [pollResult_of_file K E hsource hfile, pollText_eq K hraws, mapM_decode, SourceKind.read]
    split
    · rfl
    · exact sortBySeq_filterMap hpage
  | bridge =>
    obtain ⟨hfile, ⟨url, hhttp⟩, hanswers⟩ := hserves.holds
    obtain ⟨body, vs, hbody, hvs, hmap⟩ := hanswers after
    rw [pollResult, hfile, hhttp]
    simp only [hbody]
    show pollBody K body = _
    rw [pollBody, hvs, Option.getD_some, SourceKind.read, page, hmax, ← hmap, List.filterMap_map]
    rfl

/-! ### How a page moves the cursor -/

section Page

variable {p : List RawMsg} {m : RawMsg}

/-- A file is read to the end of a page, or not at all. -/
theorem SourceKind.read_of_ends (h : kind.Ends p m) :
    kind.read p = p.filterMap RawMsg.decode? := by
  cases kind with
  | file =>
    refine if_neg fun hany ↦ ?_
    obtain ⟨n, hn, hbad⟩ := List.any_eq_true.1 hany
    exact h.2 n hn (RawMsg.isMalformed_iff.1 hbad)
  | bridge => rfl

/-- A page that brings something ends somewhere. -/
theorem SourceKind.exists_ends (h : kind.read p ≠ []) : ∃ m, kind.Ends p m := by
  cases kind with
  | file =>
    have hgood : ∀ n ∈ p, ¬ n.Malformed := by
      refine fun n hn hbad ↦ h (if_pos ?_)
      exact List.any_eq_true.2 ⟨n, hn, RawMsg.isMalformed_iff.2 hbad⟩
    refine Paging.exists_strictEnds ?_ hgood
    rintro rfl
    exact h rfl
  | bridge =>
    obtain ⟨msg, hmsg⟩ := List.exists_mem_of_ne_nil _ h
    obtain ⟨n, hn, hdecode⟩ := List.mem_filterMap.1 hmsg
    exact Paging.exists_lenientEnds ⟨n, hn, fun hbad ↦
      absurd (hdecode.symm.trans hbad) (Option.some_ne_none msg)⟩

/-- Where a file is read to, the bridge is read to as well. -/
theorem SourceKind.Ends.lenient (h : kind.Ends p m) :
    Paging.LenientEnds RawMsg.Malformed p m := by
  cases kind with
  | file => exact Paging.StrictEnds.lenient h
  | bridge => exact h

/-- **The cursor moves to where the page ends.** -/
theorem newest_read {cursor : UInt64} (h : kind.Ends p m) (hp : p.Pairwise (·.seq ≤ ·.seq))
    (hcursor : ∀ n ∈ p, cursor < n.seq) : newest cursor (kind.read p) = m.seq := by
  rw [SourceKind.read_of_ends h]
  obtain ⟨front, rest, rfl, hgood, hrest⟩ := h.lenient
  obtain ⟨msg, hmsg⟩ := Option.ne_none_iff_exists'.1 hgood
  have hm : m ∈ front ++ m :: rest := List.mem_append_right front List.mem_cons_self
  rw [← RawMsg.seq_of_decode? hmsg]
  refine newest_eq_of_greatest (List.mem_filterMap.2 ⟨m, hm, hmsg⟩) (fun n hn ↦ ?_) ?_
  · obtain ⟨raw, hraw, hn⟩ := List.mem_filterMap.1 hn
    rw [RawMsg.seq_of_decode? hn, RawMsg.seq_of_decode? hmsg]
    rcases List.mem_append.1 hraw with hfront | hlast
    · exact (List.pairwise_append.1 hp).2.2 raw hfront m List.mem_cons_self
    · rcases List.mem_cons.1 hlast with rfl | hafter
      · exact le_refl _
      · exact absurd (hn.symm.trans (hrest raw hafter)) (Option.some_ne_none n)
  · rw [RawMsg.seq_of_decode? hmsg]
    exact (hcursor m hm).le

end Page

/-- Above a later cursor, there are fewer messages. -/
theorem filter_filter_of_le {cursor cursor' : UInt64} (hle : cursor ≤ cursor')
    (raws : List RawMsg) :
    (raws.filter (cursor < ·.seq)).filter (cursor' < ·.seq) = raws.filter (cursor' < ·.seq) := by
  rw [List.filter_filter]
  refine List.filter_congr fun m _ ↦ ?_
  by_cases hm : cursor' < m.seq
  · simp [hm, hle.trans_lt hm]
  · simp [hm]

/-! ### Poll after poll -/

section Walk

variable (hserves : Serves K E cli args kind raws) (restarts : ℕ → Bool) (s : Session P)

include hserves

theorem Serves.advances (n : ℕ) :
    Advances K (polled K E cli args (restarts n) (moment K E cli args restarts s n))
      (moment K E cli args restarts s n) (moment K E cli args restarts s (n + 1)) :=
  moment_advances hserves.real hserves.spel restarts s n

theorem cursor_mono {n k : ℕ} (hle : n ≤ k) :
    (moment K E cli args restarts s n).session.db.cursor ≤
      (moment K E cli args restarts s k).session.db.cursor := by
  refine monotone_nat_of_le_succ
    (f := fun n ↦ (moment K E cli args restarts s n).session.db.cursor) (fun n ↦ ?_) hle
  exact (le_newest _ _).trans_eq (hserves.advances restarts s n).cursor.symm

/-- **A poll** reads the first page above the cursor. -/
theorem polled_eq_read {n : ℕ} {l : List RawMsg}
    (habove : raws.filter ((moment K E cli args restarts s n).session.db.cursor < ·.seq) = l)
    (hpolls : ¬ Stops args (restarts n) (moment K E cli args restarts s n)) :
    polled K E cli args (restarts n) (moment K E cli args restarts s n) =
      kind.read (l.take args.batchSize) := by
  have hsynced : (moment K E cli args restarts s n).Synced :=
    synced_moment hserves.real hserves.spel restarts s n
  have hmax : max args.batchSize 1 = args.batchSize := max_eq_left hserves.batchSize
  rw [polled, if_neg hpolls, hsynced.vars_fst]
  refine (toOption_pollResult hserves _).trans ?_
  rw [page, hmax, habove]

/-- What a poll returns is above the cursor before it, and not above the one after it. -/
theorem seq_of_mem_polled {n : ℕ} {msg : DeliveryMsg}
    (hmsg : msg ∈ polled K E cli args (restarts n) (moment K E cli args restarts s n)) :
    (moment K E cli args restarts s n).session.db.cursor < msg.seq ∧
      msg.seq ≤ (moment K E cli args restarts s (n + 1)).session.db.cursor := by
  constructor
  · by_cases hstops : Stops args (restarts n) (moment K E cli args restarts s n)
    · rw [polled, if_pos hstops] at hmsg
      exact absurd hmsg List.not_mem_nil
    · rw [polled_eq_read hserves restarts s rfl hstops] at hmsg
      obtain ⟨m, hends⟩ := SourceKind.exists_ends (List.ne_nil_of_mem hmsg)
      rw [SourceKind.read_of_ends hends] at hmsg
      obtain ⟨raw, hraw, hdecode⟩ := List.mem_filterMap.1 hmsg
      rw [RawMsg.seq_of_decode? hdecode]
      exact of_decide_eq_true (List.mem_filter.1 (List.mem_of_mem_take hraw)).2
  · rw [(hserves.advances restarts s n).cursor]
    exact le_newest_of_mem hmsg

/-- Of two iterations in a row, one polls, and nothing has been polled before it. -/
theorem exists_polls (n : ℕ) : ∃ k, n ≤ k ∧
    ¬ Stops args (restarts k) (moment K E cli args restarts s k) ∧
    (moment K E cli args restarts s k).session.db.cursor =
      (moment K E cli args restarts s n).session.db.cursor ∧
    ∀ j, n ≤ j → j < k →
      polled K E cli args (restarts j) (moment K E cli args restarts s j) = [] := by
  by_cases hstops : Stops args (restarts n) (moment K E cli args restarts s n)
  · have hnone : polled K E cli args (restarts n) (moment K E cli args restarts s n) = [] :=
      if_pos hstops
    refine ⟨n + 1, n.le_succ, not_stops_of_stops hstops (restarts (n + 1)), ?_, fun j hle hlt ↦ ?_⟩
    · rw [(hserves.advances restarts s n).cursor, hnone, newest_nil]
    · obtain rfl : j = n := by omega
      exact hnone
  · exact ⟨n, Nat.le_refl n, hstops, rfl, fun j hle hlt ↦ absurd hlt hle.not_gt⟩

/-- What is above the cursor at the end of a page is above the message the page ends with. -/
theorem filter_cursor_succ {n : ℕ} {l : List RawMsg} {m : RawMsg}
    (habove : raws.filter ((moment K E cli args restarts s n).session.db.cursor < ·.seq) = l)
    (hpolls : ¬ Stops args (restarts n) (moment K E cli args restarts s n))
    (hends : kind.Ends (l.take args.batchSize) m) :
    (moment K E cli args restarts s (n + 1)).session.db.cursor = m.seq ∧
      raws.filter ((moment K E cli args restarts s (n + 1)).session.db.cursor < ·.seq) =
        l.filter (m.seq < ·.seq) := by
  have hsorted : (l.take args.batchSize).Pairwise (·.seq ≤ ·.seq) := by
    rw [← habove]
    exact (hserves.ascending.filter _).sublist (List.take_sublist _ _)
  have hnew : ∀ x ∈ l, (moment K E cli args restarts s n).session.db.cursor < x.seq := by
    intro x hx
    rw [← habove] at hx
    exact of_decide_eq_true (List.mem_filter.1 hx).2
  have hcursor : (moment K E cli args restarts s (n + 1)).session.db.cursor = m.seq := by
    rw [(hserves.advances restarts s n).cursor, polled_eq_read hserves restarts s habove hpolls]
    exact newest_read hends hsorted fun x hx ↦ hnew x (List.mem_of_mem_take hx)
  refine ⟨hcursor, ?_⟩
  have hle : (moment K E cli args restarts s n).session.db.cursor ≤ m.seq :=
    (hnew m (List.mem_of_mem_take hends.lenient.mem)).le
  rw [hcursor, ← habove, filter_filter_of_le hle]

/-- What comes before a later message of the queue is not numbered higher. -/
theorem le_of_mem_drop {n : ℕ} {l : List RawMsg} {m : RawMsg}
    (habove : raws.filter ((moment K E cli args restarts s n).session.db.cursor < ·.seq) = l)
    (hm : m ∈ l.take args.batchSize) {x : RawMsg} (hx : x ∈ l.drop args.batchSize) :
    m.seq ≤ x.seq := by
  have hsorted : (l.take args.batchSize ++ l.drop args.batchSize).Pairwise (·.seq ≤ ·.seq) := by
    rw [List.take_append_drop, ← habove]
    exact hserves.ascending.filter _
  exact (List.pairwise_append.1 hsorted).2.2 m hm x hx

/-- **A clear queue is handled.** By induction on its pages, from any moment at which it is what
there is above the cursor. -/
theorem handled_of_clear {l : List RawMsg} (hclear : Clear K args.batchSize kind l) (n : ℕ)
    (habove : raws.filter ((moment K E cli args restarts s n).session.db.cursor < ·.seq) = l) :
    ∃ N, ∀ x ∈ l, ∀ msg, x.decode? = some msg → Decodable K msg.payload.cid →
      (∃ k < N, msg ∈ polled K E cli args (restarts k) (moment K E cli args restarts s k)) ∧
        msg.payload.cid ∈ (moment K E cli args restarts s N).session.db.anchored := by
  induction hclear generalizing n with
  | done hnone =>
    refine ⟨n, fun x hx msg hmsg hdecodable ↦ ?_⟩
    exact absurd ⟨msg, hmsg, hdecodable⟩ (hnone x hx)
  | @page l m hends hseen _ ih =>
    obtain ⟨k, -, hpolls, hcursor, -⟩ := exists_polls hserves restarts s n
    have habove' : raws.filter
        ((moment K E cli args restarts s k).session.db.cursor < ·.seq) = l := by
      rw [hcursor, habove]
    obtain ⟨-, hrest⟩ := filter_cursor_succ hserves restarts s habove' hpolls hends
    obtain ⟨N, hN⟩ := ih (k + 1) hrest
    have hread := polled_eq_read hserves restarts s habove' hpolls
    rw [SourceKind.read_of_ends hends] at hread
    -- what is on the page is returned by this poll, and its CID is recorded from then on
    have hpage : ∀ y ∈ l.take args.batchSize, ∀ msg, y.decode? = some msg →
        Decodable K msg.payload.cid →
        msg ∈ polled K E cli args (restarts k) (moment K E cli args restarts s k) ∧
          msg.payload.cid ∈ (moment K E cli args restarts s (k + 1)).session.db.anchored := by
      intro y hy msg hmsg hdecodable
      have hmem : msg ∈ polled K E cli args (restarts k) (moment K E cli args restarts s k) := by
        rw [hread]
        exact List.mem_filterMap.2 ⟨y, hy, hmsg⟩
      exact ⟨hmem, (hserves.advances restarts s k).anchored msg hmem hdecodable⟩
    refine ⟨max N (k + 1), fun x hx msg hmsg hdecodable ↦ ?_⟩
    have hhandled : (∃ y ∈ l.take args.batchSize, y.decode? = some msg) ∨
        x ∈ l.filter (m.seq < ·.seq) := by
      rw [← List.take_append_drop args.batchSize l] at hx
      rcases List.mem_append.1 hx with htake | hdrop
      · exact Or.inl ⟨x, htake, hmsg⟩
      · have hle := le_of_mem_drop hserves restarts s habove' hends.lenient.mem hdrop
        rcases eq_or_lt_of_le hle with heq | hlt
        · obtain ⟨y, hy, hsame⟩ := hseen x hdrop heq.symm ⟨msg, hmsg, hdecodable⟩
          exact Or.inl ⟨y, hy, hsame.trans hmsg⟩
        · exact Or.inr (List.mem_filter.2 ⟨List.mem_of_mem_drop hdrop, decide_eq_true hlt⟩)
    rcases hhandled with ⟨y, hy, hmsg'⟩ | hlater
    · obtain ⟨hpolled, hrow⟩ := hpage y hy msg hmsg' hdecodable
      exact ⟨⟨k, (Nat.lt_succ_self k).trans_le (le_max_right N (k + 1)), hpolled⟩,
        anchored_moment_subset hserves.real hserves.spel restarts s (le_max_right N (k + 1)) hrow⟩
    · obtain ⟨⟨j, hj, hpolled⟩, hrow⟩ := hN x hlater msg hmsg hdecodable
      exact ⟨⟨j, hj.trans_le (le_max_left N (k + 1)), hpolled⟩,
        anchored_moment_subset hserves.real hserves.spel restarts s (le_max_left N (k + 1)) hrow⟩

/-- **A page that brings nothing** is met again for ever. -/
theorem polled_eq_nil_of_stuck {n : ℕ} {l : List RawMsg}
    (habove : raws.filter ((moment K E cli args restarts s n).session.db.cursor < ·.seq) = l)
    (hstuck : kind.read (l.take args.batchSize) = []) {k : ℕ} (hle : n ≤ k) :
    polled K E cli args (restarts k) (moment K E cli args restarts s k) = [] := by
  have hcursor : ∀ {k}, raws.filter
      ((moment K E cli args restarts s k).session.db.cursor < ·.seq) = l →
      polled K E cli args (restarts k) (moment K E cli args restarts s k) = [] := by
    intro k habove
    by_cases hstops : Stops args (restarts k) (moment K E cli args restarts s k)
    · exact if_pos hstops
    · rw [polled_eq_read hserves restarts s habove hstops, hstuck]
  refine hcursor ?_
  induction hle with
  | refl => exact habove
  | @step k _ ih => rw [(hserves.advances restarts s k).cursor, hcursor ih, newest_nil, ih]

/-- **What is handled is clear.** By induction on the length of the queue: the page of the next poll
ends somewhere, and no later poll returns what it has left behind. -/
theorem clear_of_polled {l : List RawMsg} (n : ℕ)
    (habove : raws.filter ((moment K E cli args restarts s n).session.db.cursor < ·.seq) = l)
    (hpolled : ∀ x ∈ l, ∀ msg, x.decode? = some msg → Decodable K msg.payload.cid →
      ∃ k, msg ∈ polled K E cli args (restarts k) (moment K E cli args restarts s k)) :
    Clear K args.batchSize kind l := by
  induction hlength : l.length using Nat.strongRecOn generalizing l n with
  | _ length ih =>
    by_cases hnone : ∀ x ∈ l, ¬ x.Good K
    · exact .done hnone
    · push Not at hnone
      obtain ⟨x, hx, msg, hmsg, hdecodable⟩ := hnone
      -- a message above the cursor is not returned before
      have hlater : ∀ y ∈ l, ∀ msg, y.decode? = some msg → Decodable K msg.payload.cid →
          ∃ k, n ≤ k ∧
            msg ∈ polled K E cli args (restarts k) (moment K E cli args restarts s k) := by
        intro y hy msg hmsg hdecodable
        obtain ⟨k, hk⟩ := hpolled y hy msg hmsg hdecodable
        refine ⟨k, ?_, hk⟩
        by_contra hlt
        have hle := (seq_of_mem_polled hserves restarts s hk).2.trans
          (cursor_mono hserves restarts s (Nat.not_le.1 hlt))
        rw [← habove] at hy
        rw [RawMsg.seq_of_decode? hmsg] at hle
        exact absurd (of_decide_eq_true (List.mem_filter.1 hy).2) hle.not_gt
      have hbrings : kind.read (l.take args.batchSize) ≠ [] := by
        intro hstuck
        obtain ⟨k, hle, hk⟩ := hlater x hx msg hmsg hdecodable
        rw [polled_eq_nil_of_stuck hserves restarts s habove hstuck hle] at hk
        exact absurd hk List.not_mem_nil
      obtain ⟨m, hends⟩ := SourceKind.exists_ends hbrings
      obtain ⟨k, hnk, hpolls, hcursor, hnothing⟩ := exists_polls hserves restarts s n
      have habove' : raws.filter
          ((moment K E cli args restarts s k).session.db.cursor < ·.seq) = l := by
        rw [hcursor, habove]
      obtain ⟨hnext, hrest⟩ := filter_cursor_succ hserves restarts s habove' hpolls hends
      refine .page hends (fun y hy hseq hgood ↦ ?_) ?_
      · obtain ⟨msg, hmsg, hdecodable⟩ := hgood
        obtain ⟨j, hnj, hj⟩ := hlater y (List.mem_of_mem_drop hy) msg hmsg hdecodable
        -- it is this poll that has returned it
        have hjk : j = k := by
          rcases Nat.lt_trichotomy j k with hlt | heq | hgt
          · rw [hnothing j hnj hlt] at hj
            exact absurd hj List.not_mem_nil
          · exact heq
          · have habsurd := (seq_of_mem_polled hserves restarts s hj).1
            rw [RawMsg.seq_of_decode? hmsg, hseq, ← hnext] at habsurd
            exact absurd habsurd (cursor_mono hserves restarts s hgt).not_gt
        rw [hjk, polled_eq_read hserves restarts s habove' hpolls,
          SourceKind.read_of_ends hends] at hj
        obtain ⟨z, hz, hdecode⟩ := List.mem_filterMap.1 hj
        exact ⟨z, hz, hdecode.trans hmsg.symm⟩
      · refine ih _ ?_ (k + 1) hrest (fun y hy ↦ hpolled y (List.mem_of_mem_filter hy)) rfl
        rw [← hlength]
        refine List.length_filter_lt_length_iff_exists.2
          ⟨m, List.mem_of_mem_take hends.lenient.mem, ?_⟩
        simp

end Walk

/-! ### The result -/

/-- Every good message is handled exactly if none of them is numbered 0 and the queue is clear. -/
theorem allHandled_iff_clear (hserves : Serves K E cli args kind raws) (restarts : ℕ → Bool)
    (s : Session P) :
    AllHandled K E cli args restarts raws s ↔
      (∀ m ∈ raws, m.Good K → m.seq ≠ 0) ∧ Clear K args.batchSize kind (pending raws s) := by
  constructor
  · rintro ⟨N, hN⟩
    refine ⟨?_, ?_⟩
    · rintro m hm ⟨msg, hmsg, hdecodable⟩ hzero
      obtain ⟨⟨n, -, hpolled⟩, -⟩ := hN m hm (Or.inl hzero) msg hmsg hdecodable
      -- what a poll returns is numbered above a cursor
      have hnew := (seq_of_mem_polled hserves restarts s hpolled).1
      rw [RawMsg.seq_of_decode? hmsg, hzero] at hnew
      exact absurd hnew UInt64.not_lt_zero
    · refine clear_of_polled hserves restarts s 0 rfl fun x hx msg hmsg hdecodable ↦ ?_
      obtain ⟨hmem, hnew⟩ := List.mem_filter.1 hx
      obtain ⟨⟨k, -, hpolled⟩, -⟩ :=
        hN x hmem (Or.inr (of_decide_eq_true hnew)) msg hmsg hdecodable
      exact ⟨k, hpolled⟩
  · rintro ⟨hzero, hclear⟩
    obtain ⟨N, hN⟩ := handled_of_clear hserves restarts s hclear 0 rfl
    refine ⟨N, fun m hm howed msg hmsg hdecodable ↦ ?_⟩
    have hnew : s.db.cursor < m.seq :=
      howed.resolve_left (hzero m hm ⟨msg, hmsg, hdecodable⟩)
    exact hN m (List.mem_filter.2 ⟨hm, decide_eq_true hnew⟩) msg hmsg hdecodable

/-- **What bad broadcasts can block.** Under any schedule of restarts, every good message is handled
exactly if none of them is numbered 0 and the queue is clear. Where no number is used twice, it is
clear if no malformed envelope is in the way of a good message. -/
theorem allHandled_iff (K : Crates) (P : Platform) (E : Surroundings P) (cli : Cfg) (args : RunArgs)
    (kind : SourceKind) (raws : List RawMsg) (hserves : Serves K E cli args kind raws)
    (restarts : ℕ → Bool) (s : Session P) :
    (AllHandled K E cli args restarts raws s ↔
        (∀ m ∈ raws, m.Good K → m.seq ≠ 0) ∧ Clear K args.batchSize kind (pending raws s)) ∧
      (raws.Pairwise (·.seq < ·.seq) →
        (Clear K args.batchSize kind (pending raws s) ↔
          Unblocked K args.batchSize (pending raws s) kind)) :=
  ⟨allHandled_iff_clear hserves restarts s,
    fun hstrict ↦ clear_iff_unblocked hserves.batchSize (hstrict.filter _) kind⟩

/-! ### A good message and a malformed one -/

/-- A message without an envelope. -/
def spoiledMembers : List (String × Json.Value) :=
  [("seq", .number (.posInt 9))]

def spoiledQueue : String :=
  String.ofList ([Json.render (.object quietMembers), Json.render (.object spoiledMembers)].flatMap
    (· ++ ['\n']))

def spoiledRaws : List RawMsg :=
  [.ofValue (.object quietMembers), .ofValue (.object spoiledMembers)]

theorem rawMessages_spoiledQueue : rawMessages sampleCrates spoiledQueue = some spoiledRaws := by
  have hobjects : ∀ o ∈ [(Json.render (.object quietMembers), quietMembers),
      (Json.render (.object spoiledMembers), spoiledMembers)],
      '\n' ∉ o.1 ∧ Json.Text o.1 (.object o.2) ∧
        (Json.Value.object o.2).Within sampleCrates.json.finite sampleCrates.json.maxDepth := by
    intro o ho
    rcases List.mem_cons.1 ho with rfl | ho
    · exact ⟨by decide +kernel, Json.text_render (within_quietMembers Json.IsOtherLiteral 0),
        within_quietMembers _ 124⟩
    · obtain rfl := List.mem_singleton.1 ho
      have hwithin : ∀ (finite : List Char → Prop) (d : ℕ),
          (Json.Value.object spoiledMembers).Within finite (d + 1) := by
        refine fun finite d ↦ Json.Value.Within.object fun m hm ↦ ?_
        obtain rfl := List.mem_singleton.1 hm
        exact Json.Value.Within.posInt
      exact ⟨by decide +kernel, Json.text_render (hwithin Json.IsOtherLiteral 0), hwithin _ 126⟩
  refine rawMessages_of_objects hobjects (Or.inl ?_)
  rw [spoiledQueue, String.toList_ofList]
  rfl

/-- The first message is well-formed, and the second is not. -/
theorem decode?_spoiledRaws (h0 : 0 < spoiledRaws.length) (h1 : 1 < spoiledRaws.length) :
    spoiledRaws[0].decode? = some quietMessage ∧ spoiledRaws[1].decode? = none :=
  ⟨carries_quietMembers.decode?_ofValue, rfl⟩

theorem good_spoiledRaws (h0 : 0 < spoiledRaws.length) : spoiledRaws[0].Good sampleCrates :=
  ⟨quietMessage, (decode?_spoiledRaws h0 (by decide)).1, _, decodeCid_sampleCid⟩

theorem seq_spoiledRaws : spoiledRaws.map RawMsg.seq = [7, 9] := by
  decide +kernel

theorem pairwise_spoiledRaws : spoiledRaws.Pairwise (·.seq < ·.seq) := by
  have hseq : (spoiledRaws.map RawMsg.seq).Pairwise (· < ·) := by
    rw [seq_spoiledRaws]
    decide
  exact List.pairwise_map.1 hseq

theorem serves_spoiledQueue {b : ℕ} (hb : 1 ≤ b) :
    Serves sampleCrates (quietSurroundings spoiledQueue) queueCfg (onceArgs b) .file
      spoiledRaws where
  holds := ⟨"queue", spoiledQueue, by decide +kernel, rfl, rawMessages_spoiledQueue⟩
  ascending := pairwise_spoiledRaws.imp le_of_lt
  batchSize := hb
  real := rfl
  spel := spelSucceeds_quietSurroundings spoiledQueue

theorem pending_spoiledRaws : pending spoiledRaws quietSession = spoiledRaws := by
  refine List.filter_eq_self.2 fun m hm ↦ decide_eq_true ?_
  have hseq : m.seq ∈ spoiledRaws.map RawMsg.seq := List.mem_map_of_mem hm
  rw [seq_spoiledRaws] at hseq
  show quietSession.db.cursor < m.seq
  rw [show quietSession.db.cursor = 0 from Db.cursor_fresh]
  rcases List.mem_cons.1 hseq with h7 | h9
  · rw [h7]
    decide
  · rw [List.mem_singleton.1 h9]
    decide

/-- With the default batch size, the good message is never handled, whatever is restarted. -/
theorem not_allHandled_spoiledQueue :
    ¬ ∃ restarts, AllHandled sampleCrates (quietSurroundings spoiledQueue) queueCfg
      (onceArgs 50) restarts spoiledRaws quietSession := by
  rintro ⟨restarts, hhandled⟩
  have hserves := serves_spoiledQueue (show 1 ≤ 50 by decide)
  have hclear := ((allHandled_iff_clear hserves restarts quietSession).1 hhandled).2
  rw [pending_spoiledRaws] at hclear
  have h0 : 0 < spoiledRaws.length := by decide
  have h1 : 1 < spoiledRaws.length := by decide
  have hpages : 0 / 50 < 1 / 50 := (clear_iff_unblocked hserves.batchSize pairwise_spoiledRaws
    .file).1 hclear 0 1 h0 h1 (good_spoiledRaws h0) (decode?_spoiledRaws h0 h1).2
  exact absurd hpages (by decide)

/-- With pages of one message, it is handled. -/
theorem allHandled_spoiledQueue :
    AllHandled sampleCrates (quietSurroundings spoiledQueue) queueCfg (onceArgs 1)
      (fun _ ↦ false) spoiledRaws quietSession := by
  obtain ⟨hiff, hstrict⟩ := allHandled_iff sampleCrates _ (quietSurroundings spoiledQueue) queueCfg
    (onceArgs 1) .file spoiledRaws (serves_spoiledQueue (Nat.le_refl 1)) (fun _ ↦ false)
    quietSession
  refine hiff.2 ⟨fun m hm _ hzero ↦ ?_, (hstrict pairwise_spoiledRaws).2 ?_⟩
  · have hseq : m.seq ∈ spoiledRaws.map RawMsg.seq := List.mem_map_of_mem hm
    rw [seq_spoiledRaws, hzero] at hseq
    exact absurd hseq (by decide)
  · rw [pending_spoiledRaws]
    rintro i j hi hj ⟨msg, hmsg, -⟩ hbad
    have hlength : spoiledRaws.length = 2 := rfl
    obtain ⟨hgood, hspoiled⟩ := decode?_spoiledRaws (by decide) (by decide)
    have hi0 : i = 0 := by
      by_contra hne
      obtain rfl : i = 1 := by omega
      rw [hspoiled] at hmsg
      cases hmsg
    have hj1 : j = 1 := by
      by_contra hne
      obtain rfl : j = 0 := by omega
      exact absurd (hgood.symm.trans hbad) (Option.some_ne_none _)
    rw [hi0, hj1]
    decide

end Whistleblower.BatchAnchor
