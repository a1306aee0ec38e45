import Whistleblower.BatchAnchor.BadBroadcast
import Whistleblower.BatchAnchor.Bridge

/-!
# Streams that share a state DB

A state DB has one cursor, under the key `cursor`, whatever source and topic it was moved by. Each
delivery stream numbers its messages on its own, so a run on one stream can put the cursor past
messages of another that nobody has looked at yet, and a later run on that other stream does not
see them.

What it takes is settled exactly (`independent_iff`), in terms of what lies in the streams and what
each turn finds: a message that is still to be anchored when a turn comes to its stream must be
above the cursor that the first turn has found, and no turn on another stream may have had a message
with that number or a higher one on its page, and had its batch taken by `spel`. A stream with a
state DB of its own loses nothing (`independent_of_one_stream`).
-/

namespace Whistleblower.BatchAnchor

variable {P : Platform}

/-- A delivery stream: a source, and a topic on it. -/
abbrev Stream := String × String

/-- The stream a turn is made on. -/
def Turn.stream (t : Turn P) : Stream :=
  (t.cli.deliverySource, t.args.topic)

/-- The turn has called `poll_delivery`, and got an answer. -/
def Turn.Reads (K : Crates) (t : Turn P) (c : Moment P) : Prop :=
  ¬ Stops t.args t.restart c ∧
    ∃ msgs, pollResult K t.surroundings t.cli.deliverySource t.args.topic (c.vars t.restart).1
      t.args.batchSize = .ok msgs

variable (K : Crates) (S : Schedule P) (kind : ℕ → SourceKind) (raws : ℕ → List RawMsg)
  (s : Session P)

/-- Real runs on streams that each number their messages from 1 upwards: in turn `n`, the stream of
the turn holds `raws n`. A stream is only ever appended to. -/
structure Feeds : Prop where
  holds : ∀ n, Holds K (S.turn n).surroundings (S.turn n).cli (S.turn n).args (kind n) (raws n)
  ascending : ∀ n, (raws n).Pairwise (·.seq < ·.seq)
  numbered : ∀ n, ∀ m ∈ raws n, 1 ≤ m.seq
  grows : ∀ k n, k ≤ n → (S.turn k).stream = (S.turn n).stream → raws k <+: raws n
  real : ∀ n, (S.turn n).args.dryRun = false

/-- Turn `n` passes the message by: the message is not above the cursor, or it is returned and
not handed to anchoring. -/
def Skips (n : ℕ) (m : DeliveryMsg) : Prop :=
  m.seq ≤ (S.db K s n).cursor ∨
    m ∈ S.polled K s n ∧ ∀ e ∈ S.handed K s n, e.2.2 ≠ m.payload.cid

/-- A turn before turn `n`, on the same stream, has moved the cursor over the number. -/
def Covered (n : ℕ) (seq : UInt64) : Prop :=
  ∃ k < n, (S.turn k).stream = (S.turn n).stream ∧
    (S.db K s k).cursor < seq ∧ seq ≤ (S.db K s (k + 1)).cursor

/-- **The streams do not interfere**: a message that a run on its own stream passes by is recorded
as anchored, or cannot be decoded, or earlier runs on the stream have come as far already. -/
def Independent : Prop :=
  ∀ n, (S.turn n).Reads K (S.moment K s n) → ∀ raw ∈ raws n, ∀ m, raw.decode? = some m →
    Skips K S s n m →
      m.payload.cid ∈ (S.db K s n).anchored ∨ ¬ Decodable K m.payload.cid ∨ Covered K S s n m.seq

/-- The messages a source looks at: the first above the cursor. The file source takes at least
one. -/
def SourceKind.page (after : UInt64) (limit : ℕ) (raws : List RawMsg) : SourceKind → List RawMsg
  | .file => BatchAnchor.page after limit raws
  | .bridge => (raws.filter (after < ·.seq)).take limit

/-- **Turn `k` overtakes the number**: it polls, the page above the cursor that it finds brings a
message with this number or a higher one, and `spel` takes what is submitted of it, if anything
is. -/
structure Overtakes (k : ℕ) (seq : UInt64) : Prop where
  polls : ¬ Stops (S.turn k).args (S.turn k).restart (S.moment K s k)
  reads : ∃ m ∈ (kind k).read
    ((kind k).page (S.db K s k).cursor (S.turn k).args.batchSize (raws k)), seq ≤ m.seq
  lands : (S.turn k).Lands K (S.moment K s k)

/-- What turn `n` finds on its stream and has still to anchor is above the cursor that there was at
the start, and has not been overtaken on another stream. -/
def NotOvertaken (n : ℕ) : Prop :=
  (S.turn n).Reads K (S.moment K s n) → ∀ raw ∈ raws n, ∀ m, raw.decode? = some m →
    Fresh K (S.db K s n).anchored m →
      s.db.cursor < m.seq ∧
        ∀ k < n, (S.turn k).stream ≠ (S.turn n).stream → ¬ Overtakes K S kind raws s k m.seq

variable {K S kind raws s}

/-! ### What a turn reads -/

/-- **What a poll returns** is what the source makes of its page. -/
theorem mem_pollResult_iff {E : Surroundings P} {cli : Cfg} {args : RunArgs}
    {kind : SourceKind} {raws : List RawMsg} (hholds : Holds K E cli args kind raws)
    {after : UInt64} {m : DeliveryMsg} :
    m ∈ (pollResult K E cli.deliverySource args.topic after args.batchSize).toOption.getD [] ↔
      m ∈ kind.read (kind.page after args.batchSize raws) := by
  cases kind with
  | file =>
    obtain ⟨path, text, hsource, hfile, hraws⟩ := hholds
    rw [pollResult_of_file K E hsource hfile, pollText_eq K hraws, mapM_decode, SourceKind.read,
      SourceKind.page]
    split
    · exact Iff.rfl
    · exact List.mem_mergeSort
  | bridge =>
    obtain ⟨hfile, ⟨url, hhttp⟩, hanswers⟩ := hholds
    obtain ⟨body, vs, hbody, hvs, hmap⟩ := hanswers after
    rw [pollResult, hfile, hhttp]
    simp only [hbody]
    show m ∈ pollBody K body ↔ _
    rw [pollBody, hvs, Option.getD_some, SourceKind.read, SourceKind.page, ← hmap,
      List.filterMap_map]
    exact Iff.rfl

/-- A page is the beginning of what is above the cursor. -/
theorem exists_page_eq (kind : SourceKind) (after : UInt64) (limit : ℕ) (raws : List RawMsg) :
    ∃ b, kind.page after limit raws = (raws.filter (after < ·.seq)).take b := by
  cases kind with
  | file => exact ⟨max limit 1, rfl⟩
  | bridge => exact ⟨limit, rfl⟩

theorem exists_of_mem_read {kind : SourceKind} {page : List RawMsg} {m : DeliveryMsg}
    (hm : m ∈ kind.read page) :
    kind.read page = page.filterMap RawMsg.decode? ∧ ∃ raw ∈ page, raw.decode? = some m := by
  obtain ⟨last, hends⟩ := SourceKind.exists_ends (List.ne_nil_of_mem hm)
  have hread := SourceKind.read_of_ends hends
  rw [hread] at hm
  exact ⟨hread, List.mem_filterMap.1 hm⟩

/-- **What a turn polls** is what its source makes of the page above the cursor it finds. -/
theorem mem_polled_iff (hfeeds : Feeds K S kind raws) {k : ℕ} {m : DeliveryMsg} :
    m ∈ S.polled K s k ↔ ¬ Stops (S.turn k).args (S.turn k).restart (S.moment K s k) ∧
      m ∈ (kind k).read
        ((kind k).page (S.db K s k).cursor (S.turn k).args.batchSize (raws k)) := by
  rw [Schedule.polled, Turn.polled, BatchAnchor.polled, ← mem_pollResult_iff (hfeeds.holds k),
    (S.synced_moment K s k).vars_fst]
  split
  · next hstops => exact iff_of_false List.not_mem_nil fun h ↦ h.1 hstops
  · next hpolls => exact (and_iff_right hpolls).symm

/-- A turn that takes the cursor over a number overtakes it. -/
theorem overtakes_of_moves (hfeeds : Feeds K S kind raws) {k : ℕ} {seq : UInt64}
    (hlt : (S.db K s k).cursor < seq) (hle : seq ≤ (S.db K s (k + 1)).cursor) :
    Overtakes K S kind raws s k seq := by
  have hmoves : (S.db K s k).cursor < (S.db K s (k + 1)).cursor := hlt.trans_le hle
  obtain ⟨m, hm, heq⟩ := (S.outcome K s k).exists_of_lt hmoves
  obtain ⟨hpolls, hread⟩ := (mem_polled_iff hfeeds).1 hm
  refine ⟨hpolls, ⟨m, hread, hle.trans_eq heq⟩, ?_⟩
  have hnext := Turn.cursor_next (S.synced_moment K s k) (List.ne_nil_of_mem hm)
  rw [← Schedule.moment_succ] at hnext
  rcases hnext with ⟨hlands, -⟩ | ⟨-, hstays⟩
  · exact hlands
  · exact absurd hstays hmoves.ne'

/-- The cursor is not below a number that has been overtaken. -/
theorem Overtakes.le_cursor (hfeeds : Feeds K S kind raws) {k : ℕ} {seq : UInt64}
    (h : Overtakes K S kind raws s k seq) : seq ≤ (S.db K s (k + 1)).cursor := by
  obtain ⟨hpolls, ⟨m, hread, hle⟩, hlands⟩ := h
  have hm : m ∈ S.polled K s k := (mem_polled_iff hfeeds).2 ⟨hpolls, hread⟩
  have hnext := Turn.cursor_next (S.synced_moment K s k) (List.ne_nil_of_mem hm)
  rw [← Schedule.moment_succ] at hnext
  rcases hnext with ⟨-, hmoves⟩ | ⟨hfails, -⟩
  · exact (hle.trans (le_newest_of_mem hm)).trans_eq hmoves.symm
  · exact absurd hlands hfails

/-! ### What the stream's own turns cover -/

/-- What is numbered below a message that was there is older than it. -/
theorem mem_of_seq_le (hfeeds : Feeds K S kind raws) {k n : ℕ} (hle : k ≤ n)
    (hstream : (S.turn k).stream = (S.turn n).stream) {raw raw' : RawMsg} (hraw : raw ∈ raws n)
    (hraw' : raw' ∈ raws k) (hseq : raw.seq ≤ raw'.seq) : raw ∈ raws k := by
  obtain ⟨rest, hrest⟩ := hfeeds.grows k n hle hstream
  have hascending := hfeeds.ascending n
  rw [← hrest] at hraw hascending
  refine (List.mem_append.1 hraw).resolve_right fun hnewer ↦ ?_
  exact absurd ((List.pairwise_append.1 hascending).2.2 raw' hraw' raw hnewer) hseq.not_gt

/-- What is numbered below a message of a page is on it too. -/
theorem mem_take_of_seq_le {l : List RawMsg} (hl : l.Pairwise (·.seq < ·.seq)) {b : ℕ}
    {raw raw' : RawMsg} (hraw : raw ∈ l) (hraw' : raw' ∈ l.take b) (hseq : raw.seq ≤ raw'.seq) :
    raw ∈ l.take b := by
  rw [← List.take_append_drop b l] at hraw hl
  refine (List.mem_append.1 hraw).resolve_right fun hdrop ↦ ?_
  exact absurd ((List.pairwise_append.1 hl).2.2 raw' hraw' raw hdrop) hseq.not_gt

/-- A real turn that moves the cursor records what it polls. -/
theorem mem_anchored_of_moves (hfeeds : Feeds K S kind raws) {k : ℕ}
    (hlt : (S.db K s k).cursor < (S.db K s (k + 1)).cursor) {m : DeliveryMsg}
    (hm : m ∈ S.polled K s k) (hdecodable : Decodable K m.payload.cid) :
    m.payload.cid ∈ (S.db K s (k + 1)).anchored := by
  obtain ⟨-, -, hdb⟩ : ((S.turn k).next K (S.moment K s k)).Synced ∧ _ :=
    tick_real (hfeeds.real k) (S.synced_moment K s k) (S.turn k).restart
  rw [Schedule.db, Schedule.db, Schedule.moment_succ] at hlt
  rw [Schedule.db, Schedule.moment_succ]
  rcases hdb with ⟨hsame, -⟩ | hrecorded
  · exact absurd (congrArg Db.cursor hsame) hlt.ne'
  · exact (congrArg Db.anchored hrecorded).ge (mem_anchored_recorded_of_mem hm hdecodable)

/-- **What a stream's own turn covers** is recorded: the message was there, on the page of that
turn. -/
theorem Covered.mem_anchored (hfeeds : Feeds K S kind raws) {n : ℕ} {raw : RawMsg}
    (hraw : raw ∈ raws n) {m : DeliveryMsg} (hm : raw.decode? = some m)
    (hdecodable : Decodable K m.payload.cid) (h : Covered K S s n m.seq) :
    m.payload.cid ∈ (S.db K s n).anchored := by
  obtain ⟨k, hk, hstream, hlt, hle⟩ := h
  obtain ⟨hpolls, ⟨m', hread, hle'⟩, -⟩ := overtakes_of_moves hfeeds hlt hle
  obtain ⟨hall, raw', hraw', hm'⟩ := exists_of_mem_read hread
  obtain ⟨b, hpage⟩ := exists_page_eq (kind k) (S.db K s k).cursor (S.turn k).args.batchSize
    (raws k)
  have hseq : raw.seq ≤ raw'.seq := by
    rw [← RawMsg.seq_of_decode? hm, ← RawMsg.seq_of_decode? hm']
    exact hle'
  have hmem : raw ∈ (kind k).page (S.db K s k).cursor (S.turn k).args.batchSize (raws k) := by
    rw [hpage] at hraw' ⊢
    have hold : raw ∈ raws k := mem_of_seq_le hfeeds hk.le hstream hraw
      (List.mem_of_mem_filter (List.mem_of_mem_take hraw')) hseq
    have habove : (S.db K s k).cursor < raw.seq := by
      rw [← RawMsg.seq_of_decode? hm]
      exact hlt
    exact mem_take_of_seq_le ((hfeeds.ascending k).filter _)
      (List.mem_filter.2 ⟨hold, decide_eq_true habove⟩) hraw' hseq
  have hpolled : m ∈ S.polled K s k := by
    refine (mem_polled_iff hfeeds).2 ⟨hpolls, ?_⟩
    rw [hall]
    exact List.mem_filterMap.2 ⟨raw, hmem, hm⟩
  exact S.anchored_mono K s hk (mem_anchored_of_moves hfeeds (hlt.trans_le hle) hpolled hdecodable)

/-! ### The result -/

/-- A message that is returned and not handed over has a row, or cannot be decoded. -/
theorem not_fresh_of_dropped (hfeeds : Feeds K S kind raws) {n : ℕ} {m : DeliveryMsg}
    (hm : m ∈ S.polled K s n) (hdropped : ∀ e ∈ S.handed K s n, e.2.2 ≠ m.payload.cid) :
    ¬ Fresh K (S.db K s n).anchored m := by
  intro hfresh
  obtain ⟨e, he⟩ := Option.isSome_iff_exists.1 ((isSome_entryOf K).2 hfresh)
  have hhanded : e ∈ S.handed K s n := by
    rw [S.handed_of_real K s (hfeeds.real n)]
    exact List.mem_filterMap.2 ⟨m, hm, he⟩
  exact hdropped e hhanded (congrArg Prod.snd ((entryOf_eq_some K).1 he).2.2)

/-- The cursor gets over a number in one of the turns. -/
theorem exists_moves_over {n : ℕ} {seq : UInt64} (hlt : s.db.cursor < seq)
    (hle : seq ≤ (S.db K s n).cursor) :
    ∃ k < n, (S.db K s k).cursor < seq ∧ seq ≤ (S.db K s (k + 1)).cursor := by
  induction n with
  | zero =>
    rw [Schedule.db_zero] at hle
    exact absurd hlt hle.not_gt
  | succ n ih =>
    rcases le_or_gt seq (S.db K s n).cursor with hbefore | hafter
    · obtain ⟨k, hk, hmoves⟩ := ih hbefore
      exact ⟨k, hk.trans n.lt_succ_self, hmoves⟩
    · exact ⟨n, n.lt_succ_self, hafter, hle⟩

/-- **When streams do not interfere.** Messages are passed by for a reason of their own stream
exactly if, in every turn, no message of the turn's stream that is still to be anchored was at or
below the cursor at the start, or has been overtaken by an earlier turn on another stream. -/
theorem independent_iff (K : Crates) (P : Platform) (S : Schedule P) (kind : ℕ → SourceKind)
    (raws : ℕ → List RawMsg) (hfeeds : Feeds K S kind raws) (s : Session P) :
    Independent K S raws s ↔ ∀ n, NotOvertaken K S kind raws s n := by
  constructor
  · intro hindependent n hreads raw hraw m hm hfresh
    -- what is not above the cursor would be covered, and so recorded
    have habove : (S.db K s n).cursor < m.seq := by
      by_contra hnot
      rcases hindependent n hreads raw hraw m hm (Or.inl (le_of_not_gt hnot)) with
        hrow | hundecodable | hcovered
      · exact hfresh.1 hrow
      · exact hundecodable hfresh.2
      · exact hfresh.1 (hcovered.mem_anchored hfeeds hraw hm hfresh.2)
    refine ⟨?_, fun k hk _ hovertakes ↦ ?_⟩
    · rw [← Schedule.db_zero K S s]
      exact (S.cursor_mono K s n.zero_le).trans_lt habove
    · have hle := (hovertakes.le_cursor hfeeds).trans (S.cursor_mono K s hk)
      exact absurd habove hle.not_gt
  · intro hnot n hreads raw hraw m hm hskips
    by_cases hfresh : Fresh K (S.db K s n).anchored m
    · rcases hskips with hpassed | ⟨hpolled, hdropped⟩
      · obtain ⟨hstart, hothers⟩ := hnot n hreads raw hraw m hm hfresh
        obtain ⟨k, hk, hlt, hle⟩ := exists_moves_over hstart hpassed
        by_cases hstream : (S.turn k).stream = (S.turn n).stream
        · exact Or.inr (Or.inr ⟨k, hk, hstream, hlt, hle⟩)
        · exact absurd (overtakes_of_moves hfeeds hlt hle) (hothers k hk hstream)
      · exact absurd hfresh (not_fresh_of_dropped hfeeds hpolled hdropped)
    · rcases not_and_or.1 hfresh with hrow | hundecodable
      · exact Or.inl (not_not.1 hrow)
      · exact Or.inr (Or.inl hundecodable)

/-- **A stream with a state DB of its own** loses nothing. -/
theorem independent_of_one_stream (hfeeds : Feeds K S kind raws) (hcursor : s.db.cursor = 0)
    {X : Stream} (hstream : ∀ n, (S.turn n).stream = X) : Independent K S raws s := by
  refine (independent_iff K P S kind raws hfeeds s).2 fun n _ raw hraw m hm _ ↦ ⟨?_, ?_⟩
  · have hnumbered := hfeeds.numbered n raw hraw
    rw [hcursor, RawMsg.seq_of_decode? hm]
    exact UInt64.lt_of_lt_of_le (by decide) hnumbered
  · exact fun k _ hother ↦ absurd ((hstream k).trans (hstream n).symm) hother

/-! ### Two queue files in turn -/

/-- A message on a queue of its own. -/
def otherMessage (seq : UInt64) : DeliveryMsg :=
  ⟨seq, ⟨cidOf (Bytes.replicate CID_BYTES 1), ⟨"", "", "", 0, 0, []⟩⟩⟩

/-- Two queue files, of a message each. -/
def twoFiles (seq : UInt64) : Surroundings Account.samplePlatform :=
  { quietSurroundings "" with
    files path := .ok (printedQueue [if path = "queue" then quietMessage else otherMessage seq]) }

/-- The command line of the even turns, and of the odd ones. -/
def alternatingCfg (n : ℕ) : Cfg :=
  if n % 2 = 0 then queueCfg else { queueCfg with deliverySource := "file:other" }

/-- The message that turn `n` finds on its queue. -/
def alternatingMessage (seq : UInt64) (n : ℕ) : DeliveryMsg :=
  if n % 2 = 0 then quietMessage else otherMessage seq

/-- `run --once`, alternately on the one queue and on the other. -/
def alternating (seq : UInt64) : Schedule Account.samplePlatform where
  turn n := ⟨twoFiles seq, alternatingCfg n, onceArgs 50, true⟩
  goes_on _ := nofun

theorem exists_file_alternating (seq : UInt64) (n : ℕ) :
    ∃ path, stripPrefix "file:" (alternatingCfg n).deliverySource = some path ∧
      (twoFiles seq).files path = .ok (printedQueue [alternatingMessage seq n]) := by
  have hqueue : stripPrefix "file:" "file:queue" = some "queue" := by decide +kernel
  have hother : stripPrefix "file:" "file:other" = some "other" := by decide +kernel
  rw [alternatingCfg, alternatingMessage]
  split
  · exact ⟨_, hqueue, rfl⟩
  · exact ⟨_, hother, rfl⟩

theorem feeds_alternating {seq : UInt64} (hseq : 1 ≤ seq) :
    Feeds sampleCrates (alternating seq) (fun _ ↦ .file)
      fun n ↦ [(alternatingMessage seq n).raw] where
  holds n := by
    obtain ⟨path, hsource, hfile⟩ := exists_file_alternating seq n
    exact ⟨path, _, hsource, hfile, rawMessages_printedQueue sampleCrates _⟩
  ascending n := List.pairwise_singleton _ _
  numbered n raw hraw := by
    rw [List.mem_singleton.1 hraw, DeliveryMsg.seq_raw, alternatingMessage]
    split
    · decide
    · exact hseq
  grows k n _ hstream := by
    have hsource : (alternatingCfg k).deliverySource = (alternatingCfg n).deliverySource :=
      congrArg Prod.fst hstream
    have hne : queueCfg.deliverySource ≠ "file:other" := by decide +kernel
    have hparity : k % 2 = 0 ↔ n % 2 = 0 := by
      rw [alternatingCfg, alternatingCfg] at hsource
      split at hsource <;> split at hsource
      · tauto
      · exact absurd hsource hne
      · exact absurd hsource.symm hne
      · tauto
    rw [alternatingMessage, alternatingMessage, if_congr hparity rfl rfl]
  real _ := rfl

variable (seq : UInt64)

/-- Every turn reads its queue. -/
theorem pollResult_alternating (n : ℕ) (after : UInt64) :
    pollResult sampleCrates (twoFiles seq) (alternatingCfg n).deliverySource (onceArgs 50).topic
        after (onceArgs 50).batchSize =
      .ok (if after < (alternatingMessage seq n).seq then [alternatingMessage seq n] else []) := by
  obtain ⟨path, hsource, hfile⟩ := exists_file_alternating seq n
  rw [pollResult_of_file _ _ hsource hfile]
  exact pollText_singleton sampleCrates (messages_printedQueue sampleCrates _) _ _

theorem reads_alternating (n : ℕ) :
    ((alternating seq).turn n).Reads sampleCrates
      ((alternating seq).moment sampleCrates quietSession n) :=
  ⟨fun hstops ↦ absurd hstops.1 (Nat.not_lt_zero 0), _, pollResult_alternating seq n _⟩

theorem polled_alternating (n : ℕ) :
    (alternating seq).polled sampleCrates quietSession n =
      if ((alternating seq).db sampleCrates quietSession n).cursor < (alternatingMessage seq n).seq
        then [alternatingMessage seq n] else [] := by
  have hpoll := pollResult_alternating seq n
    ((alternating seq).db sampleCrates quietSession n).cursor
  rw [Schedule.polled_eq _ _ _ rfl]
  exact congrArg (fun r ↦ r.toOption.getD []) hpoll

/-- A turn moves the cursor to its message, if it is below. -/
theorem cursor_alternating (n : ℕ) :
    ((alternating seq).db sampleCrates quietSession (n + 1)).cursor =
      max ((alternating seq).db sampleCrates quietSession n).cursor
        (alternatingMessage seq n).seq := by
  have hadvances := (alternating seq).advances sampleCrates quietSession (n := n) rfl
    (spelSucceeds_quietSurroundings "")
  have hcursor := hadvances.cursor
  rw [polled_alternating] at hcursor
  refine hcursor.trans ?_
  split
  · rfl
  · next hnot => exact (max_eq_left (le_of_not_gt hnot)).symm

theorem cursor_alternating_zero :
    ((alternating seq).db sampleCrates quietSession 0).cursor = 0 := by
  rw [Schedule.db_zero]
  exact Db.cursor_fresh

theorem cursor_alternating_one :
    ((alternating seq).db sampleCrates quietSession 1).cursor = 7 := by
  rw [cursor_alternating, cursor_alternating_zero]
  rfl

theorem cid_otherMessage_ne : (otherMessage seq).payload.cid ≠ quietMessage.payload.cid := by
  intro heq
  have hbytes := cidOf_inj.1 (heq.trans sampleCid_eq)
  have hfirst := congrArg (fun cid : CidBytes ↦ cid.toList.head?) hbytes
  exact absurd hfirst (by decide)

/-- A message numbered 3 on the second queue is never recorded: the first turn has put the cursor
to 7. -/
theorem not_mem_anchored_alternating (n : ℕ) :
    (otherMessage 3).payload.cid ∉
      ((alternating 3).db sampleCrates quietSession n).anchored := by
  induction n with
  | zero =>
    rw [Schedule.db_zero]
    exact Finset.notMem_empty _
  | succ n ih =>
    intro hrow
    obtain ⟨m, hm, hcid⟩ :=
      ((alternating 3).mem_anchored_succ sampleCrates quietSession hrow).resolve_left ih
    rw [polled_alternating] at hm
    split at hm
    · next hnew =>
      rw [List.mem_singleton.1 hm, alternatingMessage] at hcid
      rw [alternatingMessage] at hnew
      split at hcid
      · exact cid_otherMessage_ne 3 hcid.symm
      · next hodd =>
        rw [if_neg hodd] at hnew
        have hpast : (7 : UInt64) ≤ ((alternating 3).db sampleCrates quietSession n).cursor := by
          rw [← cursor_alternating_one 3]
          exact (alternating 3).cursor_mono sampleCrates quietSession (by omega)
        have habsurd : (7 : UInt64) < 3 := hpast.trans_lt hnew
        exact absurd habsurd (by decide)
    · exact absurd hm List.not_mem_nil

/-- **A message is lost to another stream's numbers.** The queue of the odd turns holds a message
numbered 3, which is never recorded. -/
theorem not_independent_alternating :
    Feeds sampleCrates (alternating 3) (fun _ ↦ .file)
        (fun n ↦ [(alternatingMessage 3 n).raw]) ∧
      ¬ Independent sampleCrates (alternating 3) (fun n ↦ [(alternatingMessage 3 n).raw])
        quietSession ∧
      ∀ n, (otherMessage 3).payload.cid ∉
        ((alternating 3).db sampleCrates quietSession n).anchored := by
  refine ⟨feeds_alternating (by decide), fun hindependent ↦ ?_, not_mem_anchored_alternating⟩
  have hmessage : alternatingMessage 3 1 = otherMessage 3 := if_neg (by decide)
  have hskips : Skips sampleCrates (alternating 3) quietSession 1 (alternatingMessage 3 1) := by
    refine Or.inl ?_
    rw [cursor_alternating_one, hmessage]
    exact show (3 : UInt64) ≤ 7 by decide
  have hexcused := hindependent 1 (reads_alternating 3 1) _ (List.mem_singleton.2 rfl) _
    (DeliveryMsg.decode?_raw _) hskips
  rw [hmessage] at hexcused
  rcases hexcused with hrow | hundecodable | hcovered
  · exact not_mem_anchored_alternating 1 hrow
  · exact hundecodable ⟨_, decodeCid_cidOf _⟩
  · obtain ⟨k, hk, hstream, -, -⟩ := hcovered
    obtain rfl : k = 0 := by omega
    have hne : queueCfg.deliverySource ≠ "file:other" := by decide +kernel
    exact hne (congrArg Prod.fst hstream)

/-- After two turns, the messages of both streams are recorded. -/
theorem anchored_alternating (n : ℕ) :
    (alternatingMessage 9 n).payload.cid ∈
      ((alternating 9).db sampleCrates quietSession (n + 2)).anchored := by
  have hrecorded : ∀ k, ((alternating 9).db sampleCrates quietSession k).cursor <
      (alternatingMessage 9 k).seq → (alternatingMessage 9 k).payload.cid ∈
        ((alternating 9).db sampleCrates quietSession (k + 1)).anchored := by
    intro k hnew
    have hadvances := (alternating 9).advances sampleCrates quietSession (n := k) rfl
      (spelSucceeds_quietSurroundings "")
    refine hadvances.anchored _ ?_ ?_
    · rw [polled_alternating, if_pos hnew]
      exact List.mem_singleton_self _
    · rw [alternatingMessage]
      split
      · exact ⟨_, decodeCid_sampleCid⟩
      · exact ⟨_, decodeCid_cidOf _⟩
  rcases Nat.mod_two_eq_zero_or_one n with heven | hodd
  · have hmessage : alternatingMessage 9 n = alternatingMessage 9 0 := if_pos heven
    rw [hmessage]
    refine (alternating 9).anchored_mono sampleCrates quietSession (by omega) (hrecorded 0 ?_)
    rw [cursor_alternating_zero]
    exact show (0 : UInt64) < 7 by decide
  · have hmessage : alternatingMessage 9 n = alternatingMessage 9 1 := if_neg (by omega)
    rw [hmessage]
    refine (alternating 9).anchored_mono sampleCrates quietSession (by omega) (hrecorded 1 ?_)
    rw [cursor_alternating_one]
    exact show (7 : UInt64) < 9 by decide

/-- A message numbered 9 is above what the first turn reads, and nothing is lost. -/
theorem independent_alternating :
    Independent sampleCrates (alternating 9) (fun n ↦ [(alternatingMessage 9 n).raw])
      quietSession := by
  have hcursor : quietSession.db.cursor = 0 := Db.cursor_fresh
  refine (independent_iff sampleCrates Account.samplePlatform (alternating 9) (fun _ ↦ .file) _
    (feeds_alternating (by decide)) quietSession).2 fun n _ raw hraw m hm hfresh ↦ ?_
  rw [List.mem_singleton.1 hraw, DeliveryMsg.decode?_raw] at hm
  obtain rfl := Option.some.inj hm
  rw [hcursor]
  rcases n with - | - | n
  · refine ⟨show (0 : UInt64) < 7 by decide, fun k hk ↦ absurd hk (Nat.not_lt_zero k)⟩
  · refine ⟨show (0 : UInt64) < 9 by decide, fun k hk _ hovertakes ↦ ?_⟩
    obtain rfl : k = 0 := by omega
    obtain ⟨m, hread, hle⟩ := hovertakes.reads
    obtain ⟨-, raw, hmem, hm⟩ := exists_of_mem_read hread
    obtain rfl := List.mem_singleton.1 (List.mem_of_mem_filter (List.mem_of_mem_take hmem))
    rw [DeliveryMsg.decode?_raw] at hm
    obtain rfl := Option.some.inj hm
    exact absurd hle (show ¬ (9 : UInt64) ≤ 7 by decide)
  · have hmessage : alternatingMessage 9 (n + 2) = alternatingMessage 9 n := by
      rw [alternatingMessage, alternatingMessage, Nat.add_mod_right]
    rw [hmessage] at hfresh
    exact absurd (anchored_alternating n) hfresh.1

end Whistleblower.BatchAnchor
