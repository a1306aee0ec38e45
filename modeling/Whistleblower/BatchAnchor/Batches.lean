import Whistleblower.BatchAnchor.Bridge

/-!
# What is submitted

A turn submits the messages of its poll that are still to be anchored. Two things the registry would
like to hold of a batch are left to the source by `run`.

* It takes the batch for as large as the poll makes it. The program rejects more than
  `MAX_BATCH_SIZE` entries, and `Indexer::anchor_batch` checks for it, but here the batch size is
  whatever the command line says, and the bridge may not even keep to that.
* It compares a CID with the `anchored` table only. Rows are written after the submission, so a CID
  that comes twice in one poll is submitted twice.

For both, what has to be asked of the source is settled exactly, over whole schedules. `Supplies` is
what a source has for a turn, read off the queue file or the body of the response, whatever the
lines of the file are behind the page.
-/

namespace Whistleblower.BatchAnchor

open CidRegistryProgram Json Lines

variable {P : Platform} (K : Crates)

/-! ### What a source has for a turn -/

/-- The first messages above a cursor, `n` at most, in the lines with something on them: the lines
that have been read are JSON, the envelopes of the messages read, and there are `n` messages or no
line is left. What the other lines are does not matter. -/
def FirstMessages (after : UInt64) (n : ℕ) (content : List (List Char))
    (msgs : List DeliveryMsg) : Prop :=
  ∃ front rest raws, content = front ++ rest ∧
    front.mapM (fun line ↦ (K.json.fromStr line).map RawMsg.ofValue) = some raws ∧
    (raws.filter (after < ·.seq)).mapM RawMsg.decode? = some msgs ∧
    msgs.length ≤ n ∧ (rest = [] ∨ msgs.length = n)

variable {K} {after : UInt64} {n : ℕ} {content : List (List Char)} {msgs : List DeliveryMsg}

theorem firstMessages_nil : FirstMessages K after n [] msgs ↔ msgs = [] := by
  constructor
  · rintro ⟨front, rest, raws, heq, hread, hdecode, -⟩
    obtain ⟨rfl, rfl⟩ := List.append_eq_nil_iff.1 heq.symm
    obtain rfl := Option.some.inj hread
    exact (Option.some.inj hdecode).symm
  · rintro rfl
    exact ⟨[], [], [], rfl, rfl, rfl, Nat.zero_le n, Or.inl rfl⟩

theorem firstMessages_zero : FirstMessages K after 0 content msgs ↔ msgs = [] := by
  constructor
  · rintro ⟨front, rest, raws, -, -, -, hle, -⟩
    exact List.eq_nil_of_length_eq_zero (Nat.le_zero.1 hle)
  · rintro rfl
    exact ⟨[], content, [], rfl, rfl, rfl, Nat.le_refl 0, Or.inr rfl⟩

/-- One line more: it is passed over, or it is the first message. -/
theorem firstMessages_cons {line : List Char} :
    FirstMessages K after (n + 1) (line :: content) msgs ↔
      ∃ v, K.json.fromStr line = some v ∧
        ((RawMsg.ofValue v).seq ≤ after ∧ FirstMessages K after (n + 1) content msgs ∨
          after < (RawMsg.ofValue v).seq ∧ ∃ msg msgs', (RawMsg.ofValue v).decode? = some msg ∧
            msgs = msg :: msgs' ∧ FirstMessages K after n content msgs') := by
  constructor
  · rintro ⟨front, rest, raws, heq, hread, hdecode, hle, hend⟩
    cases front with
    | nil =>
      obtain rfl := Option.some.inj hread
      obtain rfl := Option.some.inj hdecode
      rcases hend with rfl | hfull
      · cases heq
      · cases hfull
    | cons line' front =>
      obtain ⟨rfl, rfl⟩ := List.cons.inj heq
      rw [List.mapM_cons] at hread
      obtain ⟨m, hm, hread⟩ := Option.bind_eq_some_iff.1 hread
      obtain ⟨v, hv, rfl⟩ := Option.map_eq_some_iff.1 hm
      obtain ⟨raws', hraws', heq⟩ := Option.bind_eq_some_iff.1 hread
      obtain rfl := Option.some.inj heq
      refine ⟨v, hv, ?_⟩
      rcases le_or_gt (RawMsg.ofValue v).seq after with hseen | hnew
      · rw [List.filter_cons_of_neg (by simpa using hseen)] at hdecode
        exact Or.inl ⟨hseen, front, rest, raws', rfl, hraws', hdecode, hle, hend⟩
      · rw [List.filter_cons_of_pos (by simpa using hnew), List.mapM_cons] at hdecode
        obtain ⟨msg, hmsg, hdecode⟩ := Option.bind_eq_some_iff.1 hdecode
        obtain ⟨msgs', hmsgs', heq⟩ := Option.bind_eq_some_iff.1 hdecode
        obtain rfl := Option.some.inj heq
        rw [List.length_cons] at hle hend
        exact Or.inr ⟨hnew, msg, msgs', hmsg, rfl, front, rest, raws', rfl, hraws', hmsgs',
          Nat.le_of_succ_le_succ hle, hend.imp_right Nat.succ.inj⟩
  · rintro ⟨v, hv, ⟨hseen, front, rest, raws, rfl, hread, hdecode, hle, hend⟩ |
      ⟨hnew, msg, msgs', hmsg, rfl, front, rest, raws, rfl, hread, hdecode, hle, hend⟩⟩
    · refine ⟨line :: front, rest, RawMsg.ofValue v :: raws, rfl, ?_, ?_, hle, hend⟩
      · rw [List.mapM_cons, hv, hread]
        rfl
      · rw [List.filter_cons_of_neg (by simpa using hseen)]
        exact hdecode
    · refine ⟨line :: front, rest, RawMsg.ofValue v :: raws, rfl, ?_, ?_, Nat.succ_le_succ hle,
        hend.imp_right (congrArg Nat.succ)⟩
      · rw [List.mapM_cons, hv, hread]
        rfl
      · rw [List.filter_cons_of_pos (by simpa using hnew), List.mapM_cons, hmsg, hdecode]
        rfl

/-- **The line loop, on any lines**: it ends well exactly if there are first messages. -/
theorem readLines_eq_ok_iff {limit : ℕ} {ls : List (List Char)} {out res : List DeliveryMsg}
    (hroom : max limit 1 = out.length + (n + 1)) :
    readLines K after limit ls out = .ok res ↔
      ∃ msgs, FirstMessages K after (n + 1) ((ls.map trim).filter (· ≠ [])) msgs ∧
        res = out ++ msgs := by
  induction ls generalizing out n with
  | nil =>
    rw [readLines, List.map_nil, List.filter_nil]
    simp only [firstMessages_nil, exists_eq_left, List.append_nil, Except.ok.injEq]
    exact eq_comm
  | cons line rest ih =>
    rw [readLines, List.map_cons]
    rcases eq_or_ne (trim line) [] with hempty | hcontent
    · rw [if_pos hempty, List.filter_cons_of_neg (by simpa using hempty)]
      exact ih hroom
    · rw [if_neg hcontent, List.filter_cons_of_pos (by simpa using hcontent)]
      simp only [firstMessages_cons]
      cases hv : K.json.fromStr (trim line) with
      | none => simp
      | some v =>
        simp only [Option.some.injEq, exists_eq_left']
        rcases le_or_gt (RawMsg.ofValue v).seq after with hseen | hnew
        · rw [if_pos hseen, ih hroom]
          simp only [hseen, true_and, hseen.not_gt, false_and, or_false]
        · rw [if_neg hnew.not_ge]
          simp only [hnew, true_and, hnew.not_ge, false_and, false_or]
          cases hmsg : (RawMsg.ofValue v).decode? with
          | none => simp [RawMsg.decode, hmsg]
          | some msg =>
            rw [RawMsg.decode_of_decode? hmsg]
            simp only [List.length_append, List.length_singleton, Option.some.injEq]
            -- the page is full now, or has room for another message
            cases n with
            | zero =>
              rw [if_pos (by omega)]
              simp only [firstMessages_zero, Except.ok.injEq]
              constructor
              · rintro rfl
                exact ⟨[msg], ⟨msg, [], rfl, rfl, rfl⟩, rfl⟩
              · rintro ⟨_, ⟨_, _, rfl, rfl, rfl⟩, rfl⟩
                rfl
            | succ n =>
              have hroom' : max limit 1 = (out ++ [msg]).length + (n + 1) := by
                rw [List.length_append, List.length_singleton]
                omega
              rw [if_neg (by omega), ih hroom']
              constructor
              · rintro ⟨msgs', hfirst, rfl⟩
                exact ⟨msg :: msgs', ⟨msg, msgs', rfl, rfl, hfirst⟩, by simp⟩
              · rintro ⟨_, ⟨_, msgs', rfl, rfl, hfirst⟩, rfl⟩
                exact ⟨msgs', hfirst, by simp⟩

/-- **A poll of a queue file** returns the first messages above the cursor, by `seq`, and it fails
if there are none of that kind. -/
theorem pollText_eq_ok_iff {text : String} {limit : ℕ} {out : List DeliveryMsg} :
    pollText K text after limit = .ok out ↔
      ∃ msgs, FirstMessages K after (max limit 1) (contentLines text.toList) msgs ∧
        out = sortBySeq msgs := by
  obtain ⟨n, hn⟩ : ∃ n, max limit 1 = ([] : List DeliveryMsg).length + (n + 1) :=
    ⟨max limit 1 - 1, by rw [List.length_nil]; omega⟩
  have hread : ∀ res, readLines K after limit (lines text.toList) [] = .ok res ↔
      ∃ msgs, FirstMessages K after (n + 1) (contentLines text.toList) msgs ∧ res = [] ++ msgs :=
    fun res ↦ readLines_eq_ok_iff hn
  rw [List.length_nil, Nat.zero_add] at hn
  rw [pollText, hn]
  cases hloop : readLines K after limit (lines text.toList) [] with
  | error e =>
    refine iff_of_false (fun h ↦ by cases h) ?_
    rintro ⟨msgs, hfirst, -⟩
    have hok := (hread _).2 ⟨msgs, hfirst, rfl⟩
    rw [hloop] at hok
    cases hok
  | ok res =>
    constructor
    · intro hout
      obtain ⟨msgs, hfirst, heq⟩ := (hread res).1 hloop
      rw [List.nil_append] at heq
      exact ⟨msgs, hfirst, heq ▸ (Except.ok.inj hout).symm⟩
    · rintro ⟨msgs, hfirst, rfl⟩
      have hok := (hread _).2 ⟨msgs, hfirst, rfl⟩
      obtain rfl := Except.ok.inj (hloop.symm.trans hok)
      rfl

/-- **What the source of a turn has** above a cursor: of a queue file, the first messages, as many
as the batch size says and at least one; of a bridge, whatever can be read of its answer. -/
inductive Turn.Supplies (K : Crates) (t : Turn P) (after : UInt64) : List DeliveryMsg → Prop
  | file {path text : String} {msgs : List DeliveryMsg} :
      stripPrefix "file:" t.cli.deliverySource = some path →
      t.surroundings.files path = .ok text →
      FirstMessages K after (max t.args.batchSize 1) (contentLines text.toList) msgs →
      Supplies K t after msgs
  | bridge {rest body : String} : stripPrefix "http:" t.cli.deliverySource = some rest →
      t.surroundings.http (messagesUrl t.cli.deliverySource t.args.topic after t.args.batchSize) =
        .ok body →
      Supplies K t after ((bodyMessages K body).filterMap RawMsg.decode?)

/-- **A poll returns what the source has**, in an order of its own. -/
theorem Turn.Supplies.exists_poll {t : Turn P} {msgs : List DeliveryMsg}
    (h : t.Supplies K after msgs) :
    ∃ out, pollResult K t.surroundings t.cli.deliverySource t.args.topic after t.args.batchSize =
      .ok out ∧ out.Perm msgs := by
  cases h with
  | file hsource hfile hfirst =>
    refine ⟨sortBySeq msgs, ?_, List.mergeSort_perm msgs _⟩
    rw [pollResult_of_file K _ hsource hfile]
    exact pollText_eq_ok_iff.2 ⟨msgs, hfirst, rfl⟩
  | @bridge rest body hsource hget =>
    refine ⟨pollBody K body, ?_, by rw [pollBody_eq]⟩
    rw [pollResult, stripPrefix_file_of_http hsource, hsource]
    simp only [hget]
    rfl

/-- What is returned, the source has. -/
theorem Turn.exists_supplies {t : Turn P} {out : List DeliveryMsg} (hne : out ≠ [])
    (h : pollResult K t.surroundings t.cli.deliverySource t.args.topic after t.args.batchSize =
      .ok out) : ∃ msgs, t.Supplies K after msgs ∧ out.Perm msgs := by
  rw [pollResult] at h
  cases hsource : stripPrefix "file:" t.cli.deliverySource with
  | some path =>
    simp only [hsource] at h
    split at h
    · next text hfile =>
      obtain ⟨msgs, hfirst, rfl⟩ := pollText_eq_ok_iff.1 h
      exact ⟨msgs, .file hsource hfile hfirst, List.mergeSort_perm msgs _⟩
    · exact absurd (Except.ok.inj h).symm hne
    · cases h
  | none =>
    cases hhttp : stripPrefix "http:" t.cli.deliverySource with
    | none =>
      simp only [hsource, hhttp] at h
      cases h
    | some rest =>
      simp only [hsource, hhttp] at h
      cases hget : t.surroundings.http (messagesUrl t.cli.deliverySource t.args.topic after
          t.args.batchSize) with
      | error e =>
        rw [hget] at h
        cases h
      | ok body =>
        rw [hget] at h
        obtain rfl := Except.ok.inj h
        exact ⟨_, .bridge hhttp hget, by rw [pollBody_eq]⟩

variable (K)

/-! ### The keys of a batch -/

/-- The registry key of a message that is still to be anchored. -/
def freshKey (anchored : Finset String) (m : DeliveryMsg) : Option CidBytes :=
  if m.payload.cid ∈ anchored then none else (decodeCid K m.payload.cid).toOption

variable {K} in
theorem freshKey_eq_some {anchored : Finset String} {m : DeliveryMsg} {key : CidBytes} :
    freshKey K anchored m = some key ↔
      m.payload.cid ∉ anchored ∧ decodeCid K m.payload.cid = .ok key := by
  rw [freshKey]
  split
  · next hrow => simp [hrow]
  · next hrow =>
    cases decodeCid K m.payload.cid with
    | error e => simp [Except.toOption]
    | ok key' => simp [Except.toOption, hrow]

variable {K} in
theorem isSome_freshKey {anchored : Finset String} {m : DeliveryMsg} :
    (freshKey K anchored m).isSome ↔ Fresh K anchored m := by
  rw [Option.isSome_iff_exists, Fresh, Decodable, ← exists_and_left]
  simp only [freshKey_eq_some]

/-- The keys of the messages that are still to be anchored, in the order of the poll. -/
def freshKeys (anchored : Finset String) (msgs : List DeliveryMsg) : List CidBytes :=
  msgs.filterMap (freshKey K anchored)

/-- The keys of the entries that are collected are the fresh ones. -/
theorem map_fst_entryOf (anchored : Finset String) (msgs : List DeliveryMsg) :
    (msgs.filterMap (entryOf K anchored)).map Prod.fst = freshKeys K anchored msgs := by
  rw [List.map_filterMap, freshKeys]
  refine List.filterMap_congr fun m _ ↦ ?_
  rw [entryOf, freshKey]
  split
  · rfl
  · cases decodeCid K m.payload.cid <;> rfl

theorem length_freshKeys_le (anchored : Finset String) (msgs : List DeliveryMsg) :
    (freshKeys K anchored msgs).length ≤ msgs.length :=
  List.length_filterMap_le _ _

/-- Where every message is still to be anchored, so many keys are fresh. -/
theorem length_freshKeys_eq {anchored : Finset String} {msgs : List DeliveryMsg}
    (h : ∀ m ∈ msgs, Fresh K anchored m) : (freshKeys K anchored msgs).length = msgs.length := by
  rw [freshKeys, List.filterMap_length_eq_length]
  intro m hm
  obtain ⟨hrow, cid, hcid⟩ := h m hm
  rw [freshKey, if_neg hrow, hcid]
  rfl

theorem perm_freshKeys {anchored : Finset String} {l l' : List DeliveryMsg} (h : l.Perm l') :
    (freshKeys K anchored l).Perm (freshKeys K anchored l') :=
  h.filterMap _

variable (S : Schedule P) (s : Session P)

/-- **What is handed to anchoring** has the keys of what is polled and has still to be anchored. -/
theorem map_fst_handed {n : ℕ} (hreal : (S.turn n).args.dryRun = false) :
    (S.handed K s n).map Prod.fst = freshKeys K (S.db K s n).anchored (S.polled K s n) := by
  rw [S.handed_of_real K s hreal, map_fst_entryOf]

/-- What does not depend on an order holds of what a turn polls exactly if it holds of what the
source has for it. -/
theorem forall_supplies_iff {n : ℕ} (good : List DeliveryMsg → Prop) (hnil : good [])
    (hperm : ∀ l l' : List DeliveryMsg, l.Perm l' → good l → good l') :
    good (S.polled K s n) ↔
      (¬ Stops (S.turn n).args (S.turn n).restart (S.moment K s n) →
        ∀ msgs, (S.turn n).Supplies K (S.db K s n).cursor msgs → good msgs) := by
  have hcursor : ((S.moment K s n).vars (S.turn n).restart).1 = (S.db K s n).cursor :=
    (S.synced_moment K s n).vars_fst
  constructor
  · intro hgood hpolls msgs hsupplies
    obtain ⟨out, hpoll, hsame⟩ := hsupplies.exists_poll
    rw [Schedule.polled, Turn.polled, BatchAnchor.polled, if_neg hpolls, hcursor, hpoll] at hgood
    exact hperm out msgs hsame hgood
  · intro hsupplied
    rcases eq_or_ne (S.polled K s n) [] with hnone | hne
    · rw [hnone]
      exact hnil
    · obtain ⟨hpolls, hpoll⟩ := Turn.pollResult_of_polled hne
      rw [hcursor] at hpoll
      obtain ⟨msgs, hsupplies, hsame⟩ := Turn.exists_supplies hne hpoll
      exact hperm msgs _ hsame.symm (hsupplied hpolls msgs hsupplies)

theorem handed_of_dry {n : ℕ} (hdry : (S.turn n).args.dryRun = true) : S.handed K s n = [] := by
  rw [Schedule.handed, Turn.handed, if_pos hdry]

/-! ### The size of a batch -/

/-- **What turn `n` submits is within the limit**: between one entry and `MAX_BATCH_SIZE`, so that
no registry rejects it for its size. -/
def WithinLimit (n : ℕ) : Prop :=
  ∀ command ∈ S.commands K s n, ∃ b, command.batch? = some b ∧
    1 ≤ b.entriesCids.length ∧ b.entriesCids.length ≤ MAX_BATCH_SIZE ∧
    ∀ registry : Account P, anchorBatch registry b ≠ .err CidRegistry.errBatchTooLarge

variable {K S s}

/-- **The batch of a turn** has an entry for each key, and at least one. -/
theorem batch?_of_mem_commands {n : ℕ} {command : SpelCommand} (h : command ∈ S.commands K s n) :
    S.handed K s n ≠ [] ∧ ∃ b, command.batch? = some b ∧
      b.entriesCids = (S.handed K s n).map fun e ↦ e.1.toList := by
  rw [S.commands_eq, submission] at h
  split at h
  · exact absurd h List.not_mem_nil
  · next hne =>
    rw [List.mem_singleton.1 h]
    exact ⟨hne, _, batch?_spelCommand _ hne _, rfl⟩

theorem withinLimit_iff_length {n : ℕ} :
    WithinLimit K S s n ↔ (S.handed K s n).length ≤ MAX_BATCH_SIZE := by
  constructor
  · intro hwithin
    rcases eq_or_ne (S.handed K s n) [] with hnone | hne
    · rw [hnone]
      exact Nat.zero_le _
    · have hcommand : spelCommand (S.turn n).cli (S.handed K s n)
          ((S.turn n).timestamp (S.moment K s n)) ∈ S.commands K s n := by
        rw [S.commands_eq, submission, if_neg hne]
        exact List.mem_singleton_self _
      obtain ⟨b, hb, -, hle, -⟩ := hwithin _ hcommand
      obtain ⟨-, b', hb', hcids⟩ := batch?_of_mem_commands hcommand
      obtain rfl := Option.some.inj (hb'.symm.trans hb)
      rwa [hcids, List.length_map] at hle
  · intro hle command hcommand
    obtain ⟨hne, b, hb, hcids⟩ := batch?_of_mem_commands hcommand
    have hlength : b.entriesCids.length = (S.handed K s n).length := by
      rw [hcids, List.length_map]
    refine ⟨b, hb, ?_, by omega, fun registry h ↦ ?_⟩
    · rw [hlength]
      exact List.length_pos_iff.2 hne
    · exact absurd (anchorBatch_eq_errBatchTooLarge.1 h) (by omega)

/-- The number of fresh keys is that of the messages that are still to be anchored. -/
theorem length_freshKeys_le_iff {anchored : Finset String} {msgs : List DeliveryMsg} {b : ℕ} :
    (freshKeys K anchored msgs).length ≤ b ↔
      ∀ l : List DeliveryMsg, l.Sublist msgs → (∀ m ∈ l, Fresh K anchored m) → l.length ≤ b := by
  constructor
  · intro hle l hl hfresh
    rw [← length_freshKeys_eq K hfresh]
    exact (hl.filterMap _).length_le.trans hle
  · intro hle
    rw [freshKeys, List.length_filterMap_eq_countP, List.countP_eq_length_filter]
    refine hle _ List.filter_sublist fun m hm ↦ ?_
    exact isSome_freshKey.1 (List.mem_filter.1 hm).2

/-- **When every batch is within the limit**: exactly when in no real turn the source has more than
`MAX_BATCH_SIZE` messages that are still to be anchored, among the first above the cursor from a
file, and in the whole answer from a bridge. -/
theorem withinLimit_iff (K : Crates) (P : Platform) (S : Schedule P) (s : Session P) :
    (∀ n, WithinLimit K S s n) ↔
      ∀ n, (S.turn n).args.dryRun = false →
        ¬ Stops (S.turn n).args (S.turn n).restart (S.moment K s n) →
        ∀ msgs, (S.turn n).Supplies K (S.db K s n).cursor msgs →
          ∀ l : List DeliveryMsg, l.Sublist msgs → (∀ m ∈ l, Fresh K (S.db K s n).anchored m) →
            l.length ≤ MAX_BATCH_SIZE := by
  refine forall_congr' fun n ↦ withinLimit_iff_length.trans ?_
  cases hdry : (S.turn n).args.dryRun with
  | true =>
    rw [handed_of_dry K S s hdry]
    exact iff_of_true (Nat.zero_le _) fun h ↦ by cases h
  | false =>
    rw [← List.length_map Prod.fst, map_fst_handed K S s hdry]
    refine (forall_supplies_iff K S s
      (fun l ↦ (freshKeys K (S.db K s n).anchored l).length ≤ MAX_BATCH_SIZE)
      (Nat.zero_le _) fun l l' hsame hle ↦ (perm_freshKeys K hsame).length_eq ▸ hle).trans ?_
    simp only [length_freshKeys_le_iff, forall_const]

/-- From a queue file, no poll brings more than the batch size. -/
theorem length_polled_le_of_file {n : ℕ} {path : String}
    (hsource : stripPrefix "file:" (S.turn n).cli.deliverySource = some path) :
    (S.polled K s n).length ≤ max (S.turn n).args.batchSize 1 := by
  rcases eq_or_ne (S.polled K s n) [] with hnone | hne
  · rw [hnone]
    exact Nat.zero_le _
  · rcases pollResult_cases (Turn.pollResult_of_polled hne).2 with
      ⟨_, -, hmsgs⟩ | ⟨_, _, hhttp, -⟩
    · obtain ⟨text, htext⟩ := hmsgs.resolve_left hne
      exact length_le_of_pollText K htext
    · rw [stripPrefix_file_of_http hhttp] at hsource
      cases hsource

/-- From a queue file, a batch size within the limit is enough. -/
theorem withinLimit_of_file {n : ℕ} {path : String}
    (hsource : stripPrefix "file:" (S.turn n).cli.deliverySource = some path)
    (hsize : (S.turn n).args.batchSize ≤ MAX_BATCH_SIZE) : WithinLimit K S s n := by
  refine withinLimit_iff_length.2 ?_
  cases hdry : (S.turn n).args.dryRun with
  | true =>
    rw [handed_of_dry K S s hdry]
    exact Nat.zero_le _
  | false =>
    rw [← List.length_map Prod.fst, map_fst_handed K S s hdry]
    calc (freshKeys K (S.db K s n).anchored (S.polled K s n)).length
      _ ≤ (S.polled K s n).length := length_freshKeys_le K _ _
      _ ≤ max (S.turn n).args.batchSize 1 := length_polled_le_of_file hsource
      _ ≤ MAX_BATCH_SIZE := max_le hsize (by decide)

/-- The first poll of a printed queue that fits a page brings all of it. -/
theorem polled_always_printedQueue {msgs : List DeliveryMsg} {b : ℕ} (hnew : ∀ m ∈ msgs, 0 < m.seq)
    (hfits : msgs.length ≤ b) :
    (Schedule.always (quietSurroundings (printedQueue msgs)) queueCfg (onceArgs b)).polled
      sampleCrates quietSession 0 = sortBySeq msgs := by
  have hsource : stripPrefix "file:" queueCfg.deliverySource = some "queue" := by decide +kernel
  have hcursor : quietSession.db.cursor = 0 := Db.cursor_fresh
  have hall : msgs.filter (0 < ·.seq) = msgs :=
    List.filter_eq_self.2 fun m hm ↦ decide_eq_true (hnew m hm)
  have hpoll : pollResult sampleCrates (quietSurroundings (printedQueue msgs))
      queueCfg.deliverySource "topic" 0 b = .ok (sortBySeq msgs) := by
    rw [pollResult_of_file _ _ hsource rfl,
      pollText_of_messages _ (messages_printedQueue sampleCrates msgs), hall,
      List.take_of_length_le (hfits.trans (le_max_left b 1))]
  rw [Schedule.polled_eq _ _ _ rfl, Schedule.db_zero, hcursor]
  exact congrArg (fun r ↦ r.toOption.getD []) hpoll

/-- **51 messages make a batch of 51**, where the command line asks for it. -/
theorem not_withinLimit_numberedMessages :
    ¬ ∀ n, WithinLimit sampleCrates (Schedule.always
      (quietSurroundings (printedQueue (numberedMessages 51))) queueCfg (onceArgs 51))
        quietSession n := by
  intro hwithin
  have hle := withinLimit_iff_length.1 (hwithin 0)
  have hnew : ∀ m ∈ numberedMessages 51, 0 < m.seq := by
    intro m hm
    obtain ⟨i, hi, rfl⟩ := List.mem_map.1 hm
    have hpos : ∀ i < 51, 0 < UInt64.ofNat (i + 1) := by decide
    exact hpos i (List.mem_range.1 hi)
  have hlength : (numberedMessages 51).length = 51 := by
    rw [numberedMessages, List.length_map, List.length_range]
  have hrows : quietSession.db.anchored = ∅ := rfl
  rw [← List.length_map Prod.fst, map_fst_handed sampleCrates _ _ rfl,
    Schedule.db_zero, hrows, polled_always_printedQueue hnew hlength.le,
    length_freshKeys_eq sampleCrates fun m hm ↦ ⟨Finset.notMem_empty _, ?_⟩, sortBySeq,
    List.length_mergeSort, hlength] at hle
  · exact absurd hle (by decide)
  · rw [sortBySeq, List.mem_mergeSort] at hm
    exact decodable_of_mem_numberedMessages hm

/-! ### Repeated CIDs -/

variable (K S s) in
/-- **What turn `n` hands to anchoring is deduplicated**: the keys are pairwise distinct, and no CID
string has a row. -/
def Deduplicated (n : ℕ) : Prop :=
  ((S.handed K s n).map Prod.fst).Nodup ∧
    ∀ e ∈ S.handed K s n, e.2.2 ∉ (S.db K s n).anchored

/-- What has a row is not handed over again. -/
theorem notMem_anchored_of_mem_handed {n : ℕ} {e : AnchorEntry} (he : e ∈ S.handed K s n) :
    e.2.2 ∉ (S.db K s n).anchored := by
  cases hdry : (S.turn n).args.dryRun with
  | true =>
    rw [handed_of_dry K S s hdry] at he
    exact absurd he List.not_mem_nil
  | false =>
    rw [S.handed_of_real K s hdry] at he
    obtain ⟨m, -, hentry⟩ := List.mem_filterMap.1 he
    obtain ⟨hrow, -, hrest⟩ := (entryOf_eq_some K).1 hentry
    rw [hrest]
    exact hrow

/-- Keys are repeated by two messages that are both still to be anchored, and decode alike. -/
theorem nodup_freshKeys_iff {anchored : Finset String} {msgs : List DeliveryMsg} :
    (freshKeys K anchored msgs).Nodup ↔ msgs.Pairwise fun m m' ↦
      Fresh K anchored m → Fresh K anchored m' →
        decodeCid K m.payload.cid ≠ decodeCid K m'.payload.cid := by
  rw [freshKeys, List.Nodup, List.pairwise_filterMap]
  refine List.Pairwise.iff fun m m' ↦ ?_
  simp only [freshKey_eq_some]
  constructor
  · rintro hdistinct ⟨hrow, key, hkey⟩ ⟨hrow', key', hkey'⟩ heq
    have hsame : key = key' := Except.ok.inj (hkey.symm.trans (heq.trans hkey'))
    exact hdistinct key ⟨hrow, hkey⟩ key' ⟨hrow', hkey'⟩ hsame
  · rintro hdistinct key ⟨hrow, hkey⟩ key' ⟨hrow', hkey'⟩ rfl
    exact hdistinct ⟨hrow, key, hkey⟩ ⟨hrow', key, hkey'⟩ (hkey.trans hkey'.symm)

/-- **When every batch is deduplicated**: exactly when in no real turn the source has two messages
that are still to be anchored and decode to the same key, among the first above the cursor from a
file, and in the whole answer from a bridge. -/
theorem deduplicated_iff (K : Crates) (P : Platform) (S : Schedule P) (s : Session P) :
    (∀ n, Deduplicated K S s n) ↔
      ∀ n, (S.turn n).args.dryRun = false →
        ¬ Stops (S.turn n).args (S.turn n).restart (S.moment K s n) →
        ∀ msgs, (S.turn n).Supplies K (S.db K s n).cursor msgs →
          msgs.Pairwise fun m m' ↦
            Fresh K (S.db K s n).anchored m → Fresh K (S.db K s n).anchored m' →
              decodeCid K m.payload.cid ≠ decodeCid K m'.payload.cid := by
  refine forall_congr' fun n ↦
    (and_iff_left fun e he ↦ notMem_anchored_of_mem_handed he).trans ?_
  cases hdry : (S.turn n).args.dryRun with
  | true =>
    rw [handed_of_dry K S s hdry]
    exact iff_of_true List.nodup_nil fun h ↦ by cases h
  | false =>
    rw [map_fst_handed K S s hdry]
    refine (forall_supplies_iff K S s
      (fun l ↦ (freshKeys K (S.db K s n).anchored l).Nodup)
      List.nodup_nil fun l l' hsame hnodup ↦ (perm_freshKeys K hsame).nodup_iff.1 hnodup).trans ?_
    simp only [nodup_freshKeys_iff, forall_const]

/-- One document, broadcast twice. -/
def repeatedMessages : List DeliveryMsg :=
  [quietMessage, { quietMessage with seq := 8 }]

/-- **A CID that comes twice in a poll** is submitted twice. -/
theorem not_deduplicated_repeatedMessages :
    ¬ ∀ n, Deduplicated sampleCrates (Schedule.always
      (quietSurroundings (printedQueue repeatedMessages)) queueCfg (onceArgs 50))
        quietSession n := by
  intro hdeduplicated
  have hnodup := (hdeduplicated 0).1
  have hnew : ∀ m ∈ repeatedMessages, 0 < m.seq := by
    intro m hm
    rcases List.mem_cons.1 hm with rfl | hm
    · exact show (0 : UInt64) < 7 by decide
    · rw [List.mem_singleton.1 hm]
      exact show (0 : UInt64) < 8 by decide
  have hsorted : sortBySeq repeatedMessages = repeatedMessages := by
    refine List.mergeSort_of_pairwise (List.pairwise_pair.2 ?_)
    exact show decide ((7 : UInt64) ≤ 8) = true by decide
  have hkeys : freshKeys sampleCrates ∅ repeatedMessages =
      [Bytes.replicate CID_BYTES 0, Bytes.replicate CID_BYTES 0] := by
    have hkey : ∀ m : DeliveryMsg, m.payload.cid = sampleCid →
        freshKey sampleCrates ∅ m = some (Bytes.replicate CID_BYTES 0) := by
      intro m hm
      rw [freshKey, if_neg (Finset.notMem_empty _), hm, decodeCid_sampleCid]
      rfl
    rw [freshKeys, repeatedMessages, List.filterMap_cons_some (hkey _ rfl),
      List.filterMap_cons_some (hkey _ rfl), List.filterMap_nil]
  have hrows : quietSession.db.anchored = ∅ := rfl
  rw [map_fst_handed sampleCrates _ _ rfl, Schedule.db_zero, hrows,
    polled_always_printedQueue hnew (by decide), hsorted, hkeys] at hnodup
  exact absurd hnodup (by decide)

end Whistleblower.BatchAnchor
