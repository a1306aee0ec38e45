import Whistleblower.BatchAnchor.QueueFile
import Whistleblower.BatchAnchor.Turns

/-!
# What the bridge is trusted with

`poll_delivery` promises messages above a cursor, up to a limit, in the order of their numbers. The
file source sees to all of it. The bridge source asks for it in its URL, and takes what it is given.

**Whatever the bridge answers.** What is returned is the readable part of the body, as it stands. So
the promise is kept where the bridge keeps it, and an iteration whose batch is taken gets on where
the bridge has put something above the cursor into its body (`inContract_iff`).

**A bridge that answers as asked.** It has to be asked first. The scheme of the source argument is
taken off as often as it is there, so that the URL of a plain HTTP bridge loses its own. And a page
in the order of the queue is not put into the order of the numbers (`agree_iff`).
-/

namespace Whistleblower.BatchAnchor

open Json

variable {P : Platform} (K : Crates)

/-! ### The body of a response -/

/-- The elements of a body, in its order. A body that is no array has none. -/
def bodyMessages (body : String) : List RawMsg :=
  (((K.json.fromStr body.toList).bind Value.asArray).getD []).map RawMsg.ofValue

/-- **The bridge source returns what can be read**, and gives it no other order. -/
theorem pollBody_eq (body : String) :
    pollBody K body = (bodyMessages K body).filterMap RawMsg.decode? := by
  rw [pollBody, bodyMessages, List.filterMap_map]
  rfl

/-- What a poll is to return: messages above the cursor, up to the limit, in ascending order. -/
structure InContract (after : UInt64) (limit : ℕ) (out : List DeliveryMsg) : Prop where
  new : ∀ m ∈ out, after < m.seq
  length_le : out.length ≤ limit
  ascending : out.Pairwise (·.seq ≤ ·.seq)

/-- A body that answers what it has been asked: of its elements whose envelopes read, each has a
number above the cursor, there are no more than the limit, and they are in ascending order. An
element without a number has the number zero, which is above no cursor. -/
structure AsAsked (after : UInt64) (limit : ℕ) (raws : List RawMsg) : Prop where
  new : ∀ r ∈ raws, ¬ r.Malformed → after < r.seq
  countP_le : raws.countP (fun r ↦ ¬ r.Malformed) ≤ limit
  ascending : raws.Pairwise fun r t ↦ ¬ r.Malformed → ¬ t.Malformed → r.seq ≤ t.seq

variable {K}

theorem RawMsg.not_malformed_iff {r : RawMsg} : ¬ r.Malformed ↔ ∃ m, r.decode? = some m :=
  Option.ne_none_iff_exists'

/-- A property of numbers is one of the readable elements. -/
theorem forall_mem_filterMap_decode? {raws : List RawMsg} {p : UInt64 → Prop} :
    (∀ m ∈ raws.filterMap RawMsg.decode?, p m.seq) ↔ ∀ r ∈ raws, ¬ r.Malformed → p r.seq := by
  constructor
  · intro h r hr hread
    obtain ⟨m, hm⟩ := RawMsg.not_malformed_iff.1 hread
    rw [← RawMsg.seq_of_decode? hm]
    exact h m (List.mem_filterMap.2 ⟨r, hr, hm⟩)
  · intro h m hm
    obtain ⟨r, hr, hdecode⟩ := List.mem_filterMap.1 hm
    rw [RawMsg.seq_of_decode? hdecode]
    exact h r hr (RawMsg.not_malformed_iff.2 ⟨m, hdecode⟩)

theorem pairwise_filterMap_decode? {raws : List RawMsg} :
    (raws.filterMap RawMsg.decode?).Pairwise (·.seq ≤ ·.seq) ↔
      raws.Pairwise fun r t ↦ ¬ r.Malformed → ¬ t.Malformed → r.seq ≤ t.seq := by
  rw [List.pairwise_filterMap]
  refine List.Pairwise.iff fun r t ↦ ?_
  constructor
  · intro h hr ht
    obtain ⟨m, hm⟩ := RawMsg.not_malformed_iff.1 hr
    obtain ⟨n, hn⟩ := RawMsg.not_malformed_iff.1 ht
    rw [← RawMsg.seq_of_decode? hm, ← RawMsg.seq_of_decode? hn]
    exact h m hm n hn
  · intro h m hm n hn
    rw [RawMsg.seq_of_decode? hm, RawMsg.seq_of_decode? hn]
    exact h (RawMsg.not_malformed_iff.2 ⟨m, hm⟩) (RawMsg.not_malformed_iff.2 ⟨n, hn⟩)

theorem inContract_filterMap_iff {after : UInt64} {limit : ℕ} {raws : List RawMsg} :
    InContract after limit (raws.filterMap RawMsg.decode?) ↔ AsAsked after limit raws := by
  have hcount : (raws.filterMap RawMsg.decode?).length =
      raws.countP (fun r ↦ ¬ r.Malformed) := by
    rw [List.length_filterMap_eq_countP]
    refine List.countP_congr fun r _ ↦ ?_
    rw [Option.isSome_iff_ne_none, decide_eq_true_iff]
    rfl
  constructor
  · intro h
    exact ⟨forall_mem_filterMap_decode?.1 h.new, hcount.symm.trans_le h.length_le,
      pairwise_filterMap_decode?.1 h.ascending⟩
  · intro h
    exact ⟨forall_mem_filterMap_decode?.2 h.new, hcount.trans_le h.countP_le,
      pairwise_filterMap_decode?.2 h.ascending⟩

/-! ### The source argument -/

theorem trimStart_append (pat s : List Char) (n : ℕ) :
    trimStart pat (n + 1) (pat ++ s) = trimStart pat n s := by
  rw [trimStart, List.isPrefixOf?_eq_some_iff_append_eq.2 rfl]

theorem trimStart_of_none {pat s : List Char} (h : pat.isPrefixOf? s = none) (n : ℕ) :
    trimStart pat n s = s := by
  cases n with
  | zero => rfl
  | succ n => rw [trimStart, h]

/-- The URL of an HTTPS bridge is what follows `http:`. -/
theorem trimStartMatches_https (rest : String) :
    trimStartMatches "http:" ("http:" ++ ("https://" ++ rest)) = "https://" ++ rest := by
  have hlength : ("http:" ++ ("https://" ++ rest)).length =
      ("https://" ++ rest).length + 4 + 1 := by
    rw [String.length_append, Nat.add_comm]
    rfl
  have hother : "http:".toList.isPrefixOf? ("https://" ++ rest).toList = none := by
    rw [String.toList_append]
    rfl
  rw [trimStartMatches, hlength, String.toList_append, trimStart_append,
    trimStart_of_none hother, String.ofList_toList]

/-- The URL of a plain HTTP bridge loses its own scheme to the same pattern. -/
theorem trimStartMatches_http (rest : String) :
    trimStartMatches "http:" ("http:" ++ ("http://" ++ rest)) = "//" ++ rest := by
  have hlength : ("http:" ++ ("http://" ++ rest)).length = rest.length + 10 + 1 + 1 := by
    have hsource : "http:".length = 5 := rfl
    have hscheme : "http://".length = 7 := rfl
    rw [String.length_append, String.length_append]
    omega
  have hsplit : ("http:" ++ ("http://" ++ rest)).toList =
      "http:".toList ++ ("http:".toList ++ ("//" ++ rest).toList) := by
    simp only [String.toList_append]
    rfl
  have hother : "http:".toList.isPrefixOf? ("//" ++ rest).toList = none := by
    rw [String.toList_append]
    rfl
  rw [trimStartMatches, hlength, hsplit, trimStart_append, trimStart_append,
    trimStart_of_none hother, String.ofList_toList]

/-! ### A turn that gets on -/

theorem lt_newest_iff {cursor : UInt64} {msgs : List DeliveryMsg} :
    cursor < newest cursor msgs ↔ ∃ m ∈ msgs, cursor < m.seq := by
  rw [(le_newest cursor msgs).lt_iff_ne, ne_comm, Ne, newest_eq_self_iff]
  simp only [not_forall, not_le, exists_prop]

/-- Whatever the file is, the line loop pushes only what is above the cursor. -/
theorem new_of_readLines {after : UInt64} {limit : ℕ} {ls : List (List Char)}
    {out msgs : List DeliveryMsg} (hout : ∀ m ∈ out, after < m.seq)
    (h : readLines K after limit ls out = .ok msgs) : ∀ m ∈ msgs, after < m.seq := by
  induction ls generalizing out with
  | nil =>
    obtain rfl : out = msgs := Except.ok.inj h
    exact hout
  | cons line rest ih =>
    rw [readLines] at h
    split at h
    · exact ih hout h
    split at h
    · cases h
    next v _ =>
    split at h
    · exact ih hout h
    next hseen =>
    cases hdecode : (RawMsg.ofValue v).decode? with
    | none =>
      rw [RawMsg.decode, hdecode] at h
      cases h
    | some msg =>
      rw [RawMsg.decode_of_decode? hdecode] at h
      have hpushed : ∀ m ∈ out ++ [msg], after < m.seq := by
        intro m hm
        rcases List.mem_append.1 hm with hold | hlast
        · exact hout m hold
        · rw [List.mem_singleton.1 hlast, RawMsg.seq_of_decode? hdecode]
          exact UInt64.not_le.1 hseen
      simp only at h
      split at h
      · obtain rfl := Except.ok.inj h
        exact hpushed
      · exact ih hpushed h

theorem new_of_pollText {text : String} {after : UInt64} {limit : ℕ} {msgs : List DeliveryMsg}
    (h : pollText K text after limit = .ok msgs) : ∀ m ∈ msgs, after < m.seq := by
  rw [pollText] at h
  cases hread : readLines K after limit (Lines.lines text.toList) [] with
  | error e =>
    rw [hread] at h
    cases h
  | ok out =>
    rw [hread] at h
    obtain rfl : sortBySeq out = msgs := Except.ok.inj h
    have hempty : ∀ m ∈ ([] : List DeliveryMsg), after < m.seq :=
      fun m hm ↦ absurd hm List.not_mem_nil
    exact fun m hm ↦ new_of_readLines hempty hread m (mem_sortBySeq.1 hm)

/-- What is returned of a body is above a cursor somewhere exactly if a readable element is. -/
theorem exists_mem_pollBody_iff {body : String} {cursor : UInt64} :
    (∃ m ∈ pollBody K body, cursor < m.seq) ↔
      ∃ r ∈ bodyMessages K body, ¬ r.Malformed ∧ cursor < r.seq := by
  have hall : (∀ m ∈ (bodyMessages K body).filterMap RawMsg.decode?, m.seq ≤ cursor) ↔
      ∀ r ∈ bodyMessages K body, ¬ r.Malformed → r.seq ≤ cursor :=
    forall_mem_filterMap_decode? (p := (· ≤ cursor))
  rw [← pollBody_eq, ← not_iff_not] at hall
  simpa only [not_forall, not_le, exists_prop] using hall

namespace Turn

variable (K) (t : Turn P) (c : Moment P)

/-- What the turn hands to `spel`, if it hands it anything, lands. -/
def Lands : Prop :=
  ∀ command ∈ submission t.cli (t.handed K c) (t.timestamp c),
    t.surroundings.Lands (c.resumed t.restart).registry command

/-- The turn reads a queue file, or a bridge whose answer has something readable above the
cursor. -/
def HasNews : Prop :=
  (∃ path, stripPrefix "file:" t.cli.deliverySource = some path) ∨
    ∃ body, t.surroundings.http (messagesUrl t.cli.deliverySource t.args.topic c.session.db.cursor
        t.args.batchSize) = .ok body ∧
      ∃ r ∈ bodyMessages K body, ¬ r.Malformed ∧ c.session.db.cursor < r.seq

variable {K t c}

/-- **What a turn with messages does to the cursor**: it is at the newest of them, unless `spel` has
not taken the batch. -/
theorem cursor_next (hsynced : c.Synced) (hne : t.polled K c ≠ []) :
    t.Lands K c ∧
        (t.next K c).session.db.cursor = newest c.session.db.cursor (t.polled K c) ∨
      ¬ t.Lands K c ∧ (t.next K c).session.db.cursor = c.session.db.cursor := by
  obtain ⟨hgo, hpoll⟩ := pollResult_of_polled hne
  rw [← hsynced.vars_fst]
  rw [Turn.next, tick, eval_iteration_of_ok hgo hpoll, if_neg hne, Lands]
  cases hdry : t.args.dryRun with
  | true =>
    obtain ⟨b, readings, hprocess⟩ := eval_process_dry hdry (c.vars t.restart).1
      (c.vars t.restart).2 (c.resumed t.restart)
    rw [hprocess, Moment.ofNext_ok_session, handed, hdry, if_pos rfl, submission, if_pos rfl]
    exact Or.inl ⟨fun command h ↦ absurd h List.not_mem_nil, Db.cursor_setCell_render _ _⟩
  | false =>
    obtain ⟨r, s, hprocess, -, hends⟩ := eval_process_real hdry (c.vars t.restart).1
      (c.vars t.restart).2 (c.resumed t.restart)
    rw [Moment.resumed_db, ← handed_of_real hdry] at hends
    rw [hprocess]
    rcases hends with ⟨hlands, ⟨b, rfl⟩, hdb⟩ | ⟨⟨command, hcommand, hfails⟩, ⟨e, rfl⟩, hdb⟩
    · refine Or.inl ⟨hlands, ?_⟩
      rw [Moment.ofNext_ok_session, hdb, cursor_recorded]
    · refine Or.inr ⟨fun hlands ↦ hfails (hlands command hcommand), ?_⟩
      show s.db.cursor = _
      rw [hdb, hsynced.vars_fst]

/-- **What is polled has news** exactly if a file is read, or the bridge has news. -/
theorem hasNews_iff (hsynced : c.Synced) (hne : t.polled K c ≠ []) :
    t.HasNews K c ↔ ∃ m ∈ t.polled K c, c.session.db.cursor < m.seq := by
  obtain ⟨-, hpoll⟩ := pollResult_of_polled hne
  rw [hsynced.vars_fst] at hpoll
  rw [HasNews]
  rcases pollResult_cases hpoll with ⟨path, hfile, hmsgs⟩ | ⟨rest, body, hhttp, hget, hmsgs⟩
  · obtain ⟨text, htext⟩ := hmsgs.resolve_left hne
    obtain ⟨m, hm⟩ := List.exists_mem_of_ne_nil _ hne
    exact iff_of_true (Or.inl ⟨path, hfile⟩) ⟨m, hm, new_of_pollText htext m hm⟩
  · rw [← hmsgs, exists_mem_pollBody_iff, stripPrefix_file_of_http hhttp, hget]
    constructor
    · rintro (⟨path, h⟩ | ⟨body', heq, h⟩)
      · cases h
      · obtain rfl := Except.ok.inj heq
        exact h
    · exact fun h ↦ Or.inr ⟨body, rfl, h⟩

end Turn

/-! ### Whatever the bridge answers -/

/-- **What the bridge has to see to.** A poll of the bridge keeps the promise exactly if the body is
as asked. In every run, an iteration with something polled moves the cursor on exactly if `spel`
takes what it is handed, and a file is read, or the bridge has answered with something above the
cursor. -/
theorem inContract_iff (K : Crates) (P : Platform) :
    (∀ (source rest topic : String) (after : UInt64) (limit : ℕ) (body : String),
      stripPrefix "http:" source = some rest →
        ∃ out k, pollDelivery K source topic after limit =
            .op (.httpGet (messagesUrl source topic after limit)) k ∧
          k (.ok body) = .pure out ∧
          (InContract after limit out ↔ AsAsked after limit (bodyMessages K body))) ∧
    ∀ (S : Schedule P) (s : Session P) (n : ℕ),
      S.polled K s n ≠ [] →
        ((S.db K s n).cursor < (S.db K s (n + 1)).cursor ↔
          (S.turn n).Lands K (S.moment K s n) ∧ (S.turn n).HasNews K (S.moment K s n)) := by
  constructor
  · intro source rest topic after limit body hsource
    obtain ⟨k, hpoll, hread⟩ := pollDelivery_of_http K hsource topic after limit
    refine ⟨pollBody K body, k, hpoll, hread body, ?_⟩
    rw [pollBody_eq]
    exact inContract_filterMap_iff
  · intro S s n hne
    have hsynced := S.synced_moment K s n
    have hnews := Turn.hasNews_iff hsynced hne
    rw [Schedule.db, Schedule.db, Schedule.moment_succ]
    rcases Turn.cursor_next hsynced hne with ⟨hlands, hcursor⟩ | ⟨hfails, hcursor⟩
    · rw [hcursor, lt_newest_iff, ← hnews]
      exact (and_iff_right hlands).symm
    · rw [hcursor]
      exact iff_of_false (lt_irrefl _) fun h ↦ hfails h.1

/-! ### Printed bodies -/

/-- The body of a response that lists these messages. -/
def printedBody (msgs : List DeliveryMsg) : String :=
  String.ofList (render (.array (msgs.map fun m ↦ .object m.members)))

theorem fromStr_printedBody (K : Crates) (msgs : List DeliveryMsg) :
    K.json.fromStr (printedBody msgs).toList =
      some (.array (msgs.map fun m ↦ .object m.members)) := by
  have hwithin : ∀ (finite : List Char → Prop) (d : ℕ),
      (Value.array (msgs.map fun m ↦ .object m.members)).Within finite (d + 4) := by
    intro finite d
    refine Value.Within.array fun v hv ↦ ?_
    obtain ⟨m, -, rfl⟩ := List.mem_map.1 hv
    exact m.within_members finite d
  rw [printedBody, String.toList_ofList]
  refine K.json.fromStr_of_text (text_render (hwithin IsOtherLiteral 0)) ?_
  rw [K.json_maxDepth]
  exact hwithin _ 123

theorem bodyMessages_printedBody (K : Crates) (msgs : List DeliveryMsg) :
    bodyMessages K (printedBody msgs) = msgs.map DeliveryMsg.raw := by
  rw [bodyMessages, fromStr_printedBody, Option.bind_some, Value.asArray, Option.getD_some,
    List.map_map]
  rfl

/-- **A printed body** is returned as it was printed. -/
theorem pollBody_printedBody (K : Crates) (msgs : List DeliveryMsg) :
    pollBody K (printedBody msgs) = msgs := by
  have hraw : RawMsg.decode? ∘ DeliveryMsg.raw = some := funext DeliveryMsg.decode?_raw
  rw [pollBody_eq, bodyMessages_printedBody, List.filterMap_map, hraw, List.filterMap_some]

/-- A bridge that answers with the same messages, whatever it is asked, and runs that poll it. -/
def deafBridge (msgs : List DeliveryMsg) : Schedule Account.samplePlatform :=
  .always { quietSurroundings "" with http := fun _ ↦ .ok (printedBody msgs) }
    ⟨"http:https://bridge", "spel", "idl", "."⟩ (onceArgs 50)

theorem deafBridge_turn (msgs : List DeliveryMsg) (s : Session Account.samplePlatform) :
    (deafBridge msgs).polled sampleCrates s 0 = msgs ∧
      ((deafBridge msgs).turn 0).Lands sampleCrates
        ((deafBridge msgs).moment sampleCrates s 0) := by
  have hpoll : pollResult sampleCrates ((deafBridge msgs).turn 0).surroundings
      "http:https://bridge" "topic" ((deafBridge msgs).db sampleCrates s 0).cursor 50 =
        .ok msgs := by
    have hsource : stripPrefix "http:" "http:https://bridge" = some "https://bridge" := by
      decide +kernel
    rw [pollResult, stripPrefix_file_of_http hsource, hsource]
    exact congrArg Except.ok (pollBody_printedBody sampleCrates msgs)
  refine ⟨?_, fun command _ ↦ ⟨_, rfl, rfl⟩⟩
  rw [Schedule.polled_eq _ _ _ rfl]
  exact congrArg (·.toOption.getD []) hpoll

/-- A session that is behind the message of the queue. -/
def caughtUpSession : Session Account.samplePlatform :=
  { quietSession with db := Db.fresh.setCell (Decimal.render 7) }

/-- Asked for what is above 7, the bridge answers with number 7 again. It is returned, and the run
processes it without getting any further. -/
theorem not_inContract_deafBridge :
    (∃ out k, pollDelivery sampleCrates "http:https://bridge" "topic" 7 50 =
        .op (.httpGet (messagesUrl "http:https://bridge" "topic" 7 50)) k ∧
      k (.ok (printedBody [quietMessage])) = .pure out ∧ ¬ InContract 7 50 out) ∧
    (deafBridge [quietMessage]).polled sampleCrates caughtUpSession 0 ≠ [] ∧
    ((deafBridge [quietMessage]).turn 0).Lands sampleCrates
      ((deafBridge [quietMessage]).moment sampleCrates caughtUpSession 0) ∧
    ¬ ((deafBridge [quietMessage]).db sampleCrates caughtUpSession 0).cursor <
      ((deafBridge [quietMessage]).db sampleCrates caughtUpSession 1).cursor := by
  have hsource : stripPrefix "http:" "http:https://bridge" = some "https://bridge" := by
    decide +kernel
  obtain ⟨hpolled, hlands⟩ := deafBridge_turn [quietMessage] caughtUpSession
  have hne : (deafBridge [quietMessage]).polled sampleCrates caughtUpSession 0 ≠ [] := by
    rw [hpolled]
    exact List.cons_ne_nil _ _
  refine ⟨?_, hne, hlands, ?_⟩
  · obtain ⟨k, hpoll, hread⟩ := pollDelivery_of_http sampleCrates hsource "topic" 7 50
    refine ⟨[quietMessage], k, hpoll, ?_, fun h ↦ ?_⟩
    · rw [hread, pollBody_printedBody]
    · exact absurd (h.new quietMessage List.mem_cons_self) (show ¬ (7 : UInt64) < 7 by decide)
  · have hcursor : ((deafBridge [quietMessage]).db sampleCrates caughtUpSession 0).cursor = 7 := by
      rw [Schedule.db_zero]
      exact Db.cursor_setCell_render _ _
    obtain ⟨-, hnext⟩ := (Turn.cursor_next (Schedule.synced_moment _ _ _ 0) hne).resolve_right
      fun hfails ↦ hfails.1 hlands
    rw [← Schedule.moment_succ, ← Schedule.db, ← Schedule.db, ← Schedule.polled, hpolled,
      hcursor] at hnext
    rw [hnext, hcursor]
    exact show ¬ (7 : UInt64) < newest 7 [quietMessage] by decide

/-- Asked for what is above 3, the same answer is as it should be, and moves the cursor of a fresh
state DB. -/
theorem inContract_iff_deafBridge :
    (∃ out k, pollDelivery sampleCrates "http:https://bridge" "topic" 3 50 =
        .op (.httpGet (messagesUrl "http:https://bridge" "topic" 3 50)) k ∧
      k (.ok (printedBody [quietMessage])) = .pure out ∧ InContract 3 50 out) ∧
    ((deafBridge [quietMessage]).db sampleCrates quietSession 0).cursor <
      ((deafBridge [quietMessage]).db sampleCrates quietSession 1).cursor := by
  obtain ⟨hpolls, hturns⟩ := inContract_iff sampleCrates Account.samplePlatform
  have hsource : stripPrefix "http:" "http:https://bridge" = some "https://bridge" := by
    decide +kernel
  have hbody := bodyMessages_printedBody sampleCrates [quietMessage]
  have hseq : quietMessage.raw.seq = 7 := quietMessage.seq_raw
  constructor
  · obtain ⟨out, k, hpoll, hread, hiff⟩ :=
      hpolls "http:https://bridge" "https://bridge" "topic" 3 50 (printedBody [quietMessage])
        hsource
    refine ⟨out, k, hpoll, hread, hiff.2 ?_⟩
    rw [hbody]
    refine ⟨fun r hr _ ↦ ?_, List.countP_le_length.trans (by decide), List.pairwise_singleton _ _⟩
    rw [List.mem_singleton.1 hr, hseq]
    decide
  · obtain ⟨hpolled, hlands⟩ := deafBridge_turn [quietMessage] quietSession
    refine (hturns (deafBridge [quietMessage]) quietSession 0 ?_).2 ⟨hlands, ?_⟩
    · rw [hpolled]
      exact List.cons_ne_nil _ _
    · refine Or.inr ⟨printedBody [quietMessage], rfl, quietMessage.raw, ?_, ?_, ?_⟩
      · rw [hbody]
        exact List.mem_singleton.2 rfl
      · exact RawMsg.not_malformed_iff.2 ⟨_, quietMessage.decode?_raw⟩
      · rw [hseq]
        show ((deafBridge [quietMessage]).db sampleCrates quietSession 0).cursor < 7
        rw [Schedule.db_zero, show quietSession.db.cursor = 0 from Db.cursor_fresh]
        decide

/-! ### A bridge that answers as asked -/

/-- What is to be requested of the bridge at `url`. -/
def bridgeUrl (url topic : String) (after : UInt64) (limit : ℕ) : String :=
  url ++ "/messages/" ++ topic ++ "?after=" ++ Decimal.render after ++ "&limit=" ++ toString limit

theorem bridgeUrl_inj {url url' topic : String} {after : UInt64} {limit : ℕ} :
    bridgeUrl url topic after limit = bridgeUrl url' topic after limit ↔ url = url' := by
  simp only [bridgeUrl, String.append_left_inj]

/-- **The two sources agree**: the bridge at `url` is asked for its messages, and what comes of this
body is what comes of that queue file. -/
def Agree (K : Crates) (url path topic : String) (after : UInt64) (limit : ℕ)
    (body text : String) : Prop :=
  ∃ k k', pollDelivery K ("http:" ++ url) topic after limit =
      .op (.httpGet (bridgeUrl url topic after limit)) k ∧
    pollDelivery K ("file:" ++ path) topic after limit = .op (.readToString path) k' ∧
    k (.ok body) = k' (.ok text)

theorem op_httpGet_inj {α : Type} {url url' : String} {k k' : Except String String → Proc α}
    (h : (.op (.httpGet url) k : Proc α) = .op (.httpGet url') k') : url = url' ∧ k = k' := by
  cases h
  exact ⟨rfl, rfl⟩

/-- Sorting leaves a page as it is exactly if it is in ascending order. -/
theorem eq_sortBySeq_iff {l : List DeliveryMsg} :
    l = sortBySeq l ↔ l.Pairwise (·.seq ≤ ·.seq) := by
  constructor
  · intro h
    rw [h]
    exact sorted_sortBySeq l
  · intro h
    exact (List.mergeSort_of_pairwise (h.imp decide_eq_true)).symm

/-- Where all elements of a body read, they are what is returned. -/
theorem pollBody_of_map_decode? {body : String} {msgs : List DeliveryMsg}
    (h : (bodyMessages K body).map RawMsg.decode? = msgs.map some) : pollBody K body = msgs := by
  have hid : (bodyMessages K body).filterMap RawMsg.decode? =
      ((bodyMessages K body).map RawMsg.decode?).filterMap id := by
    rw [List.filterMap_map]
    rfl
  rw [pollBody_eq, hid, h, List.filterMap_map]
  exact List.filterMap_some

/-- The sources agree exactly if the right URL is requested, and the bodies come to the same. -/
theorem agree_iff_of_polls {url path topic : String} {after : UInt64} {limit : ℕ}
    {body text : String} {out out' : List DeliveryMsg} (hbody : pollBody K body = out)
    (htext : pollText K text after limit = .ok out') :
    Agree K url path topic after limit body text ↔
      trimStartMatches "http:" ("http:" ++ url) = url ∧ out = out' := by
  obtain ⟨k, hpoll, hk⟩ := pollDelivery_of_http K
    (stripPrefix_eq_some.2 (rfl : "http:" ++ url = _)) topic after limit
  obtain ⟨k', hpoll', hk'⟩ := pollDelivery_of_file K
    (stripPrefix_eq_some.2 (rfl : "file:" ++ path = _)) topic after limit
  have hurl : messagesUrl ("http:" ++ url) topic after limit =
      bridgeUrl (trimStartMatches "http:" ("http:" ++ url)) topic after limit := rfl
  rw [hurl] at hpoll
  have hread : k (.ok body) = .pure out := by rw [hk, hbody]
  have hread' : k' (.ok text) = .pure out' := by rw [hk', htext, Process.ofExcept_ok]
  constructor
  · rintro ⟨l, l', hl, hl', heq⟩
    obtain ⟨hsame, rfl⟩ := op_httpGet_inj (hpoll.symm.trans hl)
    obtain rfl : k' = l' := eq_of_heq (Process.op.inj (hpoll'.symm.trans hl')).2
    exact ⟨bridgeUrl_inj.1 hsame, Process.pure.inj (hread.symm.trans (heq.trans hread'))⟩
  · rintro ⟨hsame, rfl⟩
    rw [hsame] at hpoll
    exact ⟨k, k', hpoll, hpoll', hread.trans hread'.symm⟩

/-- **When the two sources agree.** Take a queue file of well-formed messages, and a bridge whose
body lists the first `limit` of those above the cursor, in the order of the file. The two sources
agree exactly if the bridge is an HTTPS one, and the page is in ascending order. -/
theorem agree_iff (K : Crates) {url : String}
    (hurl : (∃ rest, url = "http://" ++ rest) ∨ ∃ rest, url = "https://" ++ rest)
    {text : String} {msgs : List DeliveryMsg} (hmsgs : messages K text = some msgs)
    (path topic : String) (after : UInt64) {limit : ℕ} (hlimit : 1 ≤ limit) {body : String}
    (hbody : (bodyMessages K body).map RawMsg.decode? = (kept msgs after limit).map some) :
    Agree K url path topic after limit body text ↔
      (∃ rest, url = "https://" ++ rest) ∧
        (kept msgs after limit).Pairwise (·.seq ≤ ·.seq) := by
  have htext := pollText_of_messages K hmsgs after limit
  rw [max_eq_left hlimit] at htext
  rw [agree_iff_of_polls (pollBody_of_map_decode? hbody) htext, ← eq_sortBySeq_iff]
  refine and_congr ?_ Iff.rfl
  rcases hurl with ⟨rest, rfl⟩ | ⟨rest, rfl⟩
  · -- the scheme is gone, and the URL with it
    rw [trimStartMatches_http]
    refine iff_of_false (fun heq ↦ ?_) ?_
    · have hlength : ("//" ++ rest).length = ("http://" ++ rest).length := congrArg _ heq
      rw [String.length_append, String.length_append] at hlength
      exact absurd (Nat.add_right_cancel hlength) (by decide)
    · rintro ⟨rest', heq⟩
      have htail := congrArg String.toList heq
      rw [String.toList_append, String.toList_append] at htail
      cases htail
  · rw [trimStartMatches_https]
    exact iff_of_true rfl ⟨rest, rfl⟩

/-- A plain HTTP bridge is not asked for its messages, and from an HTTPS one the two messages of a
queue come in the order of the queue. -/
theorem not_agree_http :
    ¬ Agree sampleCrates "http://127.0.0.1:9090" "queue" "topic" 0 50
        (printedBody [quietMessage]) (printedQueue [quietMessage]) ∧
      ¬ Agree sampleCrates "https://bridge" "queue" "topic" 0 50
        (printedBody descendingMessages) (printedQueue descendingMessages) := by
  have hpolls : ∀ (url : String) (msgs : List DeliveryMsg),
      Agree sampleCrates url "queue" "topic" 0 50 (printedBody msgs) (printedQueue msgs) →
        trimStartMatches "http:" ("http:" ++ url) = url ∧ msgs = sortBySeq (kept msgs 0 50) := by
    intro url msgs hagree
    have htext := pollText_of_messages sampleCrates (messages_printedQueue sampleCrates msgs) 0 50
    exact (agree_iff_of_polls (pollBody_printedBody sampleCrates msgs) htext).1 hagree
  constructor
  · intro hagree
    have hsame := (hpolls _ _ hagree).1
    rw [show "http://127.0.0.1:9090" = "http://" ++ "127.0.0.1:9090" from rfl,
      trimStartMatches_http] at hsame
    exact absurd hsame (by decide)
  · intro hagree
    have hkept : kept descendingMessages 0 50 = descendingMessages := rfl
    have hascending := (hpolls _ _ hagree).2
    rw [hkept, eq_sortBySeq_iff] at hascending
    exact absurd (List.pairwise_pair.1 hascending) (show ¬ (9 : UInt64) ≤ 7 by decide)

/-- From an HTTPS bridge, the same two messages in ascending order come as from the file. -/
theorem agree_https :
    Agree sampleCrates "https://bridge" "queue" "topic" 0 50
      (printedBody descendingMessages.reverse) (printedQueue descendingMessages.reverse) := by
  have hkept : kept descendingMessages.reverse 0 50 = descendingMessages.reverse := rfl
  have hbody : (bodyMessages sampleCrates (printedBody descendingMessages.reverse)).map
      RawMsg.decode? = (kept descendingMessages.reverse 0 50).map some := by
    rw [bodyMessages_printedBody, hkept, List.map_map]
    exact List.map_congr_left fun m _ ↦ m.decode?_raw
  refine (agree_iff sampleCrates (Or.inr ⟨"bridge", rfl⟩) (messages_printedQueue sampleCrates _)
    "queue" "topic" 0 (by decide) hbody).2 ⟨⟨"bridge", rfl⟩, ?_⟩
  rw [hkept]
  exact List.pairwise_pair.2 (show (7 : UInt64) ≤ 9 by decide)

end Whistleblower.BatchAnchor
