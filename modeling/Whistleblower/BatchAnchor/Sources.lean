import Whistleblower.BatchAnchor.Liveness

/-!
# Where the messages come from

The batch anchor reads its messages from a queue file or from a bridge, and only `poll_delivery`
asks which of them it is. So a history of runs over a queue file and one over a bridge, of the same
messages, are the same history: the same transactions with the same timestamps, the same state DB
and the same registry at every moment, through restarts, failures and turns in which the source is
down.

Two things go into it. The rest of an iteration does not call the source (`callsOnly_process`), and
a file and a bridge that offer the same messages give the same polls (`Turn.Offers.exists_poll`) —
if the batch size is not 0, which a file takes for 1.
-/

namespace Whistleblower.BatchAnchor

variable {P : Platform} {K : Crates} {t t' : Turn P} {topic : List DeliveryMsg}

/-! ### Calls of the source -/

/-- The call is one of the source. -/
def Op.AsksSource : Op → Prop
  | readToString _ => True
  | httpGet _ => True
  | _ => False

theorem callsOnly_gather (msgs : List DeliveryMsg) (cursor : UInt64) (entries : List AnchorEntry) :
    (gather K msgs cursor entries).CallsOnly fun o ↦ ¬ o.AsksSource := by
  induction msgs generalizing cursor entries with
  | nil => exact trivial
  | cons m msgs ih =>
    rw [gather]
    refine Process.CallsOnly.bind ⟨id, fun n ↦ ?_⟩ fun row ↦ ?_
    · cases n <;> exact trivial
    · split
      · exact ih _ _
      · split
        · exact ih _ _
        · exact ih _ _

theorem callsOnly_markAll (entries : List AnchorEntry) :
    (markAll entries).CallsOnly fun o ↦ ¬ o.AsksSource := by
  induction entries with
  | nil => exact trivial
  | cons e entries ih =>
    rw [markAll]
    refine Process.CallsOnly.bind ⟨id, fun r ↦ ?_⟩ fun _ ↦ ih
    cases r <;> exact trivial

theorem callsOnly_saveCursor (cursor : UInt64) :
    (saveCursor cursor).CallsOnly fun o ↦ ¬ o.AsksSource := by
  refine ⟨id, fun r ↦ ?_⟩
  cases r <;> exact trivial

theorem callsOnly_anchorViaSpel (cli : Cfg) (entries : List AnchorEntry) (timestamp : UInt64) :
    (anchorViaSpel cli entries timestamp).CallsOnly fun o ↦ ¬ o.AsksSource := by
  refine ⟨id, fun r ↦ ?_⟩
  cases r with
  | error e => exact trivial
  | ok out =>
    show (if out.success then _ else _ : Proc Unit).CallsOnly _
    split <;> exact trivial

/-- **What comes after the poll does not call the source.** -/
theorem callsOnly_process (cli : Cfg) (args : RunArgs) (cursor : UInt64) (b : ℕ)
    (msgs : List DeliveryMsg) :
    (process K cli args cursor b msgs).CallsOnly fun o ↦ ¬ o.AsksSource := by
  rw [process]
  refine (callsOnly_gather msgs cursor []).bind fun gathered ↦ ?_
  obtain ⟨newCursor, entries⟩ := gathered
  show (if entries = [] then _ else _ : Proc Next).CallsOnly _
  split
  · exact (callsOnly_saveCursor newCursor).bind fun _ ↦ trivial
  · refine Process.CallsOnly.bind ⟨id, fun _ ↦ trivial⟩ fun now ↦ ?_
    split
    · exact (callsOnly_saveCursor newCursor).bind fun _ ↦ trivial
    · exact (callsOnly_anchorViaSpel cli entries now).bind fun _ ↦
        (callsOnly_markAll entries).bind fun _ ↦
          (callsOnly_saveCursor newCursor).bind fun _ ↦ trivial

/-! ### Turns that differ in their source -/

/-- The turns differ in the source that is polled, and in what is to be found there, at most. -/
structure Turn.AlikeButSource (t t' : Turn P) : Prop where
  cli : t'.cli = { t.cli with deliverySource := t'.cli.deliverySource }
  args : t'.args = { t.args with topic := t'.args.topic }
  restart : t'.restart = t.restart
  clock : t'.surroundings.clock = t.surroundings.clock
  spel : t'.surroundings.spel = t.surroundings.spel

/-- Every poll of the turn fails. -/
def Turn.Down (K : Crates) (t : Turn P) : Prop :=
  ∀ after, ∃ e, pollResult K t.surroundings t.cli.deliverySource t.args.topic after
    t.args.batchSize = .error e

/-- The source of the turn is a queue file that is not there yet. -/
def Turn.Missing (t : Turn P) : Prop :=
  ∃ path, stripPrefix "file:" t.cli.deliverySource = some path ∧
    t.surroundings.files path = .error .notFound

/-- What the source of the turn has, if it is up: these messages, or no file, if there are none. -/
def Turn.Gives (K : Crates) (t : Turn P) (topic : List DeliveryMsg) : Prop :=
  t.Offers K topic ∨ topic = [] ∧ t.Missing

theorem Turn.Gives.pollResult_eq (h : t.Gives K topic) (htopic : topic.Pairwise (·.seq < ·.seq))
    (hbatch : 1 ≤ t.args.batchSize) (after : UInt64) :
    pollResult K t.surroundings t.cli.deliverySource t.args.topic after t.args.batchSize =
      .ok ((topic.filter (after < ·.seq)).take t.args.batchSize) := by
  rcases h with hoffers | ⟨rfl, path, hsource, hmissing⟩
  · obtain ⟨n, hn, hpoll⟩ := hoffers.exists_poll htopic after
    rw [hpoll, hn hbatch]
  · rw [pollResult, hsource]
    simp only [hmissing, List.filter_nil, List.take_nil]

namespace Turn.AlikeButSource

variable (h : t.AlikeButSource t')

include h

theorem answer_eq (o : Op) (s : Session P) (ho : ¬ o.AsksSource) :
    t'.surroundings.answer o s = t.surroundings.answer o s := by
  cases o with
  | readToString path => exact absurd trivial ho
  | httpGet url => exact absurd trivial ho
  | now => simp only [Surroundings.answer, h.clock]
  | spel command => simp only [Surroundings.answer, h.spel]
  | _ => rfl

theorem anchorViaSpel_eq (entries : List AnchorEntry) (timestamp : UInt64) :
    anchorViaSpel t'.cli entries timestamp = anchorViaSpel t.cli entries timestamp := by
  have hbin : t'.cli.spelBin = t.cli.spelBin := by rw [h.cli]
  have hcommand : spelCommand t'.cli = spelCommand t.cli := by
    rw [h.cli]
    rfl
  rw [anchorViaSpel, anchorViaSpel, hbin, hcommand]
  refine congrArg (Process.op _) (funext fun r ↦ ?_)
  cases r with
  | error e => rfl
  | ok out => rfl

theorem unlessOnce_eq : Next.unlessOnce t'.args = Next.unlessOnce t.args := by
  rw [h.args]
  rfl

/-- What comes after the poll is the same. -/
theorem eval_process_eq (cursor : UInt64) (b : ℕ) (msgs : List DeliveryMsg) (s : Session P) :
    (process K t'.cli t'.args cursor b msgs).eval t'.surroundings.answer s =
      (process K t.cli t.args cursor b msgs).eval t.surroundings.answer s := by
  have hdry : t'.args.dryRun = t.args.dryRun := by rw [h.args]
  have hprocess : process K t'.cli t'.args cursor b msgs =
      process K t.cli t.args cursor b msgs := by
    simp only [process, hdry, h.unlessOnce_eq, h.anchorViaSpel_eq]
  rw [hprocess]
  exact (callsOnly_process t.cli t.args cursor b msgs).eval_congr _
    (fun o s ho ↦ h.answer_eq o s ho) s

/-- **One turn.** If the polls are the same, or fail both, so is what the turn does. -/
theorem next_eq
    (hpolls : ∀ after,
      (pollResult K t'.surroundings t'.cli.deliverySource t'.args.topic after
          t'.args.batchSize).toOption =
        (pollResult K t.surroundings t.cli.deliverySource t.args.topic after
          t.args.batchSize).toOption) (c : Moment P) : t'.next K c = t.next K c := by
  have hmax : t'.args.maxBatches = t.args.maxBatches := by rw [h.args]
  rw [next, next, tick, tick, h.restart]
  generalize c.vars t.restart = vars
  by_cases hstops : t.args.maxBatches > 0 ∧ vars.2 ≥ t.args.maxBatches
  · rw [eval_iteration_of_enough hstops, eval_iteration_of_enough (by rwa [hmax])]
  · have hstops' : ¬ (t'.args.maxBatches > 0 ∧ vars.2 ≥ t'.args.maxBatches) := by rwa [hmax]
    have hpoll := hpolls vars.1
    cases hleft : pollResult K t.surroundings t.cli.deliverySource t.args.topic vars.1
        t.args.batchSize with
    | error e =>
      cases hright : pollResult K t'.surroundings t'.cli.deliverySource t'.args.topic vars.1
          t'.args.batchSize with
      | error e' =>
        -- the errors may differ: either ends the process
        rw [eval_iteration_of_error hstops hleft, eval_iteration_of_error hstops' hright]
        rfl
      | ok msgs =>
        rw [hleft, hright] at hpoll
        cases hpoll
    | ok msgs =>
      cases hright : pollResult K t'.surroundings t'.cli.deliverySource t'.args.topic vars.1
          t'.args.batchSize with
      | error e' =>
        rw [hleft, hright] at hpoll
        cases hpoll
      | ok msgs' =>
        rw [hleft, hright] at hpoll
        obtain rfl : msgs' = msgs := Option.some.inj hpoll
        rw [eval_iteration_of_ok hstops hleft, eval_iteration_of_ok hstops' hright,
          h.unlessOnce_eq, h.eval_process_eq]

end Turn.AlikeButSource

/-! ### Histories -/

/-- **Where the messages come from does not show.** Take two histories of runs that differ only in
the source of each turn. If at every turn both sources have the same messages, in whatever form, or
are both down, then the histories are the same at every moment. -/
theorem moment_eq_of_sources (K : Crates) (P : Platform) (S S' : Schedule P)
    (topic : ℕ → List DeliveryMsg) (htopic : ∀ n, (topic n).Pairwise (·.seq < ·.seq))
    (halike : ∀ n, (S.turn n).AlikeButSource (S'.turn n))
    (hsources : ∀ n,
      1 ≤ (S.turn n).args.batchSize ∧ (S.turn n).Gives K (topic n) ∧
          (S'.turn n).Gives K (topic n) ∨
        (S.turn n).Down K ∧ (S'.turn n).Down K) (s : Session P) (n : ℕ) :
    S'.moment K s n = S.moment K s n := by
  induction n with
  | zero => rw [Schedule.moment_zero, Schedule.moment_zero]
  | succ n ih =>
    rw [Schedule.moment_succ, Schedule.moment_succ, ih]
    refine (halike n).next_eq (fun after ↦ ?_) _
    rcases hsources n with ⟨hbatch, hgives, hgives'⟩ | ⟨hdown, hdown'⟩
    · have hsize : (S'.turn n).args.batchSize = (S.turn n).args.batchSize := by
        rw [(halike n).args]
      rw [hgives.pollResult_eq (htopic n) hbatch, hgives'.pollResult_eq (htopic n) (by rwa [hsize]),
        hsize]
    · obtain ⟨e, he⟩ := hdown after
      obtain ⟨e', he'⟩ := hdown' after
      rw [he, he']
      rfl

/-! ### A bridge that answers as asked -/

/-- The number that a request asks for messages above. -/
def afterOf (source topic url : String) : Option UInt64 :=
  (stripPrefix (trimStartMatches "http:" source ++ "/messages/" ++ topic ++ "?after=") url).bind
    fun rest ↦ Decimal.parse (String.ofList (rest.toList.takeWhile (· ≠ '&')))

theorem afterOf_messagesUrl (source topic : String) (after : UInt64) (limit : ℕ) :
    afterOf source topic (messagesUrl source topic after limit) = some after := by
  have hurl : messagesUrl source topic after limit =
      trimStartMatches "http:" source ++ "/messages/" ++ topic ++ "?after=" ++
        (Decimal.render after ++ ("&limit=" ++ toString limit)) := by
    rw [messagesUrl]
    simp only [String.append_assoc]
  have hdigits : ∀ c ∈ (Decimal.render after).toList, decide (c ≠ '&') = true := by
    intro c hc
    rw [Decimal.render, String.toList_ofList] at hc
    refine decide_eq_true fun hamp ↦ ?_
    have hdigit := Nat.isDigit_of_mem_toDigits (by decide) (by decide) hc
    rw [hamp] at hdigit
    exact absurd hdigit (by decide)
  have hlimit : ("&limit=" ++ toString limit).toList =
      '&' :: ("limit=" ++ toString limit).toList := by
    simp only [String.toList_append]
    rfl
  rw [afterOf, stripPrefix_eq_some.2 hurl, Option.bind_some, String.toList_append, hlimit,
    List.takeWhile_append_of_pos hdigits, List.takeWhile_cons_of_neg (by decide), List.append_nil,
    String.ofList_toList, Decimal.parse_render]

/-- A bridge that holds these messages. -/
def bridgeOf (source topic : String) (limit : ℕ) (msgs : List DeliveryMsg) (url : String) :
    Except String String :=
  match afterOf source topic url with
  | some after => .ok (printedBody ((msgs.filter (after < ·.seq)).take limit))
  | none => .error "404 Not Found"

/-- It answers as it is asked. -/
theorem offers_bridgeOf {url : String}
    (hsource : stripPrefix "http:" t.cli.deliverySource = some url)
    (hhttp : t.surroundings.http =
      bridgeOf t.cli.deliverySource t.args.topic t.args.batchSize topic) : t.Offers K topic := by
  have hdecode : (topic.map DeliveryMsg.raw).mapM RawMsg.decode? = some topic := by
    have hmessages := messages_printedQueue K topic
    rwa [messages, rawMessages_printedQueue, Option.bind_some] at hmessages
  refine ⟨.bridge, topic.map DeliveryMsg.raw, ⟨stripPrefix_file_of_http hsource, ⟨url, hsource⟩,
    fun after ↦ ?_⟩, hdecode⟩
  refine ⟨printedBody ((topic.filter (after < ·.seq)).take t.args.batchSize),
    ((topic.filter (after < ·.seq)).take t.args.batchSize).map fun m ↦ .object m.members,
    ?_, ?_, ?_⟩
  · rw [hhttp, bridgeOf, afterOf_messagesUrl]
  · rw [fromStr_printedBody, Option.bind_some, Json.Value.asArray]
  · rw [List.map_map, List.filter_map, ← List.map_take]
    simp only [Function.comp_def, DeliveryMsg.seq_raw]
    rfl

/-- `run --once` on a bridge that holds one message, over and over. -/
def bridgeForever : Schedule Account.samplePlatform :=
  .always { honestSurroundings (printedQueue [quietMessage]) with
      http := bridgeOf "http:https://bridge" "topic" 50 [quietMessage] }
    ⟨"http:https://bridge", "spel", "idl", "."⟩ (onceArgs 50)

theorem offers_bridgeForever (n : ℕ) :
    (bridgeForever.turn n).Offers sampleCrates [quietMessage] := by
  have hsource : (bridgeForever.turn n).cli.deliverySource = "http:https://bridge" := rfl
  have htopic : (bridgeForever.turn n).args.topic = "topic" := rfl
  have hbatch : (bridgeForever.turn n).args.batchSize = 50 := rfl
  have hurl : stripPrefix "http:" "http:https://bridge" = some "https://bridge" := by
    decide +kernel
  refine offers_bridgeOf (hsource ▸ hurl) ?_
  rw [hsource, htopic, hbatch]
  rfl

/-- It goes as on a queue file with the same message. -/
theorem moment_eq_of_sources_bridgeForever :
    bridgeForever.moment sampleCrates quietSession =
      quietForever.moment sampleCrates quietSession := by
  funext n
  refine moment_eq_of_sources sampleCrates Account.samplePlatform quietForever bridgeForever
    (fun _ ↦ [quietMessage]) (fun _ ↦ List.pairwise_singleton _ _)
    (fun _ ↦ ⟨rfl, rfl, rfl, rfl, rfl⟩) (fun k ↦ Or.inl ⟨?_, Or.inl (offers_quietForever k),
      Or.inl (offers_bridgeForever k)⟩) quietSession n
  show 1 ≤ 50
  decide

end Whistleblower.BatchAnchor
