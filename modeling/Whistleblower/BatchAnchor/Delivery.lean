import Whistleblower.BatchAnchor.Machine
import Whistleblower.Foundations.Lines
import Whistleblower.Indexer.Envelope

/-!
# Polling the delivery source

`poll_delivery` of `batch-anchor-cli/src/main.rs`, with its two sources. The two differ in what they
do with a message whose envelope does not read: the file source fails the whole poll, the bridge
source leaves the message out. They also differ in who applies `after` and `limit`: the file source
does it itself, line by line, while the bridge is trusted to have done it.

`readLines_eq` is the meaning of the line loop. On a file all of whose lines are JSON, the poll
takes the first `limit` messages above `after` in file order, and returns them if all their
envelopes read.
-/

namespace Whistleblower.BatchAnchor

open Json Lines

/-- One delivery message: the cursor key and the envelope. -/
structure DeliveryMsg where
  seq : UInt64
  payload : BroadcastPayload
  deriving DecidableEq

/-- A message before its envelope is read. -/
structure RawMsg where
  seq : UInt64
  payload : Value

namespace RawMsg

/-- `v["seq"].as_u64().unwrap_or(0)` and `v["payload"]`. -/
def ofValue (v : Value) : RawMsg :=
  ⟨(v.get "seq").asU64.getD 0, v.get "payload"⟩

/-- The message, if its envelope reads. -/
def decode? (m : RawMsg) : Option DeliveryMsg :=
  (BroadcastPayload.fromValue m.payload).map (⟨m.seq, ·⟩)

/-- The message, or the error a poll of the file source fails with. -/
def decode (m : RawMsg) : Except String DeliveryMsg :=
  match m.decode? with
  | some msg => .ok msg
  | none => .error "malformed envelope payload"

/-- The envelope does not read. -/
def Malformed (m : RawMsg) : Prop :=
  m.decode? = none

instance (m : RawMsg) : Decidable m.Malformed :=
  inferInstanceAs (Decidable (m.decode? = none))

end RawMsg

/-! ### Prefixes of the source argument -/

/-- `str::strip_prefix`. -/
def stripPrefix (pat s : String) : Option String :=
  (pat.toList.isPrefixOf? s.toList).map String.ofList

theorem stripPrefix_eq_some {pat s rest : String} :
    stripPrefix pat s = some rest ↔ s = pat ++ rest := by
  rw [stripPrefix, Option.map_eq_some_iff]
  constructor
  · rintro ⟨t, ht, rfl⟩
    rw [← String.toList_inj, String.toList_append, String.toList_ofList]
    exact (List.isPrefixOf?_eq_some_iff_append_eq.1 ht).symm
  · rintro rfl
    exact ⟨rest.toList, List.isPrefixOf?_eq_some_iff_append_eq.2 String.toList_append.symm,
      String.ofList_toList⟩

/-- A source argument has one form at most. -/
theorem stripPrefix_file_of_http {source rest : String}
    (h : stripPrefix "http:" source = some rest) : stripPrefix "file:" source = none := by
  rw [stripPrefix_eq_some.1 h, stripPrefix, String.toList_append]
  rfl

/-- Take a pattern off the front as often as it is there, at most so many times. -/
def trimStart (pat : List Char) : ℕ → List Char → List Char
  | 0, s => s
  | n + 1, s =>
    match pat.isPrefixOf? s with
    | some rest => trimStart pat n rest
    | none => s

/-- `str::trim_start_matches` with a non-empty pattern. -/
def trimStartMatches (pat s : String) : String :=
  String.ofList (trimStart pat.toList s.length s.toList)

/-- The bridge URL of a source argument that starts with `http:`. -/
def messagesUrl (source topic : String) (after : UInt64) (limit : ℕ) : String :=
  trimStartMatches "http:" source ++ "/messages/" ++ topic ++ "?after=" ++ Decimal.render after ++
    "&limit=" ++ toString limit

/-! ### The two sources -/

variable (K : Crates)

/-- The `for line in text.lines()` loop, `out` being what it has pushed. -/
def readLines (after : UInt64) (limit : ℕ) :
    List (List Char) → List DeliveryMsg → Except String (List DeliveryMsg)
  | [], out => .ok out
  | line :: rest, out =>
    if trim line = [] then readLines after limit rest out
    else
      match K.json.fromStr (trim line) with
      | none => .error "malformed delivery line"
      | some v =>
        if (RawMsg.ofValue v).seq ≤ after then readLines after limit rest out
        else
          match (RawMsg.ofValue v).decode with
          -- `?`: what has been pushed so far is lost
          | .error e => .error e
          | .ok msg =>
            if limit ≤ (out ++ [msg]).length then .ok (out ++ [msg])
            else readLines after limit rest (out ++ [msg])

/-- `out.sort_by_key(|m| m.seq)`, which is stable. -/
def sortBySeq (out : List DeliveryMsg) : List DeliveryMsg :=
  out.mergeSort fun m n ↦ m.seq ≤ n.seq

/-- The file source, on the text of the file. -/
def pollText (text : String) (after : UInt64) (limit : ℕ) : Except String (List DeliveryMsg) :=
  (readLines K after limit (lines text.toList) []).map sortBySeq

/-- The bridge source, on the body of the response: a body that is no array has no messages. -/
def pollBody (body : String) : List DeliveryMsg :=
  (((K.json.fromStr body.toList).bind Value.asArray).getD []).filterMap
    fun v ↦ (RawMsg.ofValue v).decode?

/-- `poll_delivery`. -/
def pollDelivery (source topic : String) (after : UInt64) (limit : ℕ) : Proc (List DeliveryMsg) :=
  match stripPrefix "file:" source with
  | some path =>
    .op (.readToString path) fun
      | .ok text => .ofExcept (pollText K text after limit)
      | .error .notFound => .pure []
      | .error .other => .fail "reading delivery queue"
  | none =>
    match stripPrefix "http:" source with
    | some _ =>
      .op (.httpGet (messagesUrl source topic after limit)) fun
        | .ok body => .pure (pollBody K body)
        | .error e => .fail e
    | none =>
      .fail ("unknown --delivery-source '" ++ source ++ "' (use file:<path> or http:<url>)")

/-- **A poll of the bridge** asks once, and returns what can be read of the answer. -/
theorem pollDelivery_of_http {source rest : String}
    (hsource : stripPrefix "http:" source = some rest) (topic : String) (after : UInt64)
    (limit : ℕ) :
    ∃ k : Except String String → Proc (List DeliveryMsg),
      pollDelivery K source topic after limit =
        .op (.httpGet (messagesUrl source topic after limit)) k ∧
      ∀ body, k (.ok body) = .pure (pollBody K body) := by
  rw [pollDelivery, stripPrefix_file_of_http hsource, hsource]
  exact ⟨_, rfl, fun _ ↦ rfl⟩

/-- **A poll of a queue file** reads it once. -/
theorem pollDelivery_of_file {source path : String}
    (hsource : stripPrefix "file:" source = some path) (topic : String) (after : UInt64)
    (limit : ℕ) :
    ∃ k, pollDelivery K source topic after limit = .op (.readToString path) k ∧
      ∀ text, k (.ok text) = .ofExcept (pollText K text after limit) := by
  rw [pollDelivery, hsource]
  exact ⟨_, rfl, fun _ ↦ rfl⟩

/-! ### The meaning of the line loop -/

/-- The messages of a file, in file order, if every line with something on it is JSON. -/
def rawMessages (text : String) : Option (List RawMsg) :=
  (contentLines text.toList).mapM fun line ↦ (K.json.fromStr line).map RawMsg.ofValue

/-- What a poll takes: the first messages above the cursor, at least one. -/
def page (after : UInt64) (limit : ℕ) (raws : List RawMsg) : List RawMsg :=
  (raws.filter (after < ·.seq)).take (max limit 1)

/-- **The line loop.** By induction on the lines, with `out` shorter than a page. -/
theorem readLines_eq {after : UInt64} {limit : ℕ} {ls : List (List Char)} {raws : List RawMsg}
    (hraws : ((ls.map trim).filter (· ≠ [])).mapM
      (fun line ↦ (K.json.fromStr line).map RawMsg.ofValue) = some raws)
    {out : List DeliveryMsg} (hout : out.length < max limit 1) :
    readLines K after limit ls out =
      ((((raws.filter (after < ·.seq)).take (max limit 1 - out.length)).mapM
        RawMsg.decode).map (out ++ ·)) := by
  induction ls generalizing raws out with
  | nil =>
    obtain rfl : [] = raws := Option.some.inj hraws
    rw [readLines, List.filter_nil, List.take_nil, List.mapM_nil]
    exact congrArg Except.ok (List.append_nil out).symm
  | cons line rest ih =>
    rw [readLines]
    rcases eq_or_ne (trim line) [] with hempty | hcontent
    · rw [List.map_cons, List.filter_cons_of_neg (by simpa using hempty)] at hraws
      rw [if_pos hempty]
      exact ih hraws hout
    · rw [List.map_cons, List.filter_cons_of_pos (by simpa using hcontent), List.mapM_cons] at hraws
      obtain ⟨m, hm, hraws⟩ := Option.bind_eq_some_iff.1 hraws
      obtain ⟨v, hv, rfl⟩ := Option.map_eq_some_iff.1 hm
      obtain ⟨raws', hraws', heq⟩ := Option.bind_eq_some_iff.1 hraws
      obtain rfl := Option.some.inj heq
      rw [if_neg hcontent, hv]
      show (if (RawMsg.ofValue v).seq ≤ after then readLines K after limit rest out else _) = _
      by_cases hseen : (RawMsg.ofValue v).seq ≤ after
      · have hnot : ¬ after < (RawMsg.ofValue v).seq := UInt64.not_lt.2 hseen
        rw [if_pos hseen, List.filter_cons_of_neg (by simpa using hnot)]
        exact ih hraws' hout
      · -- a message of the page, which has room for at least one more
        have hnew : after < (RawMsg.ofValue v).seq := UInt64.not_le.1 hseen
        obtain ⟨k, hk⟩ : ∃ k, max limit 1 - out.length = k + 1 :=
          ⟨max limit 1 - out.length - 1, by omega⟩
        rw [if_neg hseen, List.filter_cons_of_pos (by simpa using hnew), hk, List.take_succ_cons,
          List.mapM_cons]
        cases hdecode : (RawMsg.ofValue v).decode with
        | error e => rfl
        | ok msg =>
          show (if limit ≤ (out ++ [msg]).length then _ else _) = _
          rw [List.length_append, List.length_singleton]
          by_cases hfull : limit ≤ out.length + 1
          · obtain rfl : k = 0 := by omega
            rw [if_pos hfull, List.take_zero, List.mapM_nil]
            rfl
          · have hout' : (out ++ [msg]).length < max limit 1 := by
              rw [List.length_append, List.length_singleton]
              omega
            have hk' : max limit 1 - (out ++ [msg]).length = k := by
              rw [List.length_append, List.length_singleton]
              omega
            rw [if_neg hfull, ih hraws' hout', hk']
            cases hrest : ((raws'.filter (after < ·.seq)).take k).mapM RawMsg.decode with
            | error e => rfl
            | ok msgs =>
              show Except.ok (out ++ [msg] ++ msgs) = Except.ok (out ++ msg :: msgs)
              rw [List.append_assoc, List.singleton_append]

/-- Whatever the lines are, the loop stops at a page. -/
theorem length_le_of_readLines {after : UInt64} {limit : ℕ} {ls : List (List Char)}
    {out msgs : List DeliveryMsg} (hout : out.length < max limit 1)
    (h : readLines K after limit ls out = .ok msgs) : msgs.length ≤ max limit 1 := by
  induction ls generalizing out with
  | nil =>
    obtain rfl : out = msgs := Except.ok.inj h
    exact hout.le
  | cons line rest ih =>
    rw [readLines] at h
    split at h
    · exact ih hout h
    split at h
    · cases h
    split at h
    · exact ih hout h
    split at h
    · cases h
    · next msg _ =>
      rw [List.length_append, List.length_singleton] at h
      split at h
      · obtain rfl := Except.ok.inj h
        rw [List.length_append, List.length_singleton]
        omega
      · refine ih ?_ h
        rw [List.length_append, List.length_singleton]
        omega

/-- **The file source keeps to the limit**, or to one message where the limit is zero. -/
theorem length_le_of_pollText {text : String} {after : UInt64} {limit : ℕ}
    {msgs : List DeliveryMsg} (h : pollText K text after limit = .ok msgs) :
    msgs.length ≤ max limit 1 := by
  rw [pollText] at h
  cases hread : readLines K after limit (lines text.toList) [] with
  | error e =>
    rw [hread] at h
    cases h
  | ok out =>
    rw [hread] at h
    obtain rfl : sortBySeq out = msgs := Except.ok.inj h
    rw [sortBySeq, List.length_mergeSort]
    exact length_le_of_readLines K (by rw [List.length_nil]; omega) hread

/-- **A poll of a file of JSON lines** returns the page if all its envelopes read, by `seq`. -/
theorem pollText_eq {text : String} {raws : List RawMsg} (hraws : rawMessages K text = some raws)
    (after : UInt64) (limit : ℕ) :
    pollText K text after limit =
      ((page after limit raws).mapM RawMsg.decode).map sortBySeq := by
  have hempty : ([] : List DeliveryMsg).length < max limit 1 := by
    rw [List.length_nil]
    omega
  rw [pollText, readLines_eq K hraws hempty, page, List.length_nil, Nat.sub_zero]
  cases ((raws.filter (after < ·.seq)).take (max limit 1)).mapM RawMsg.decode <;> rfl

/-! ### Messages that all read -/

theorem RawMsg.seq_of_decode? {m : RawMsg} {msg : DeliveryMsg} (h : m.decode? = some msg) :
    msg.seq = m.seq := by
  obtain ⟨payload, -, rfl⟩ := Option.map_eq_some_iff.1 h
  rfl

theorem RawMsg.decode_of_decode? {m : RawMsg} {msg : DeliveryMsg} (h : m.decode? = some msg) :
    m.decode = .ok msg := by
  rw [RawMsg.decode, h]

/-- The messages of a well-formed file: every line is JSON, and every envelope reads. -/
def messages (text : String) : Option (List DeliveryMsg) :=
  (rawMessages K text).bind (·.mapM RawMsg.decode?)

theorem map_decode?_of_mapM {raws : List RawMsg} {msgs : List DeliveryMsg}
    (h : raws.mapM RawMsg.decode? = some msgs) : raws.map RawMsg.decode? = msgs.map some := by
  induction raws generalizing msgs with
  | nil =>
    obtain rfl := Option.some.inj h
    rfl
  | cons m raws ih =>
    rw [List.mapM_cons] at h
    obtain ⟨msg, hmsg, h⟩ := Option.bind_eq_some_iff.1 h
    obtain ⟨msgs', hmsgs', h⟩ := Option.bind_eq_some_iff.1 h
    obtain rfl := Option.some.inj h
    rw [List.map_cons, List.map_cons, hmsg, ih hmsgs']

/-- Where every envelope reads, so does every page. -/
theorem mapM_decode_page {raws : List RawMsg} {msgs : List DeliveryMsg}
    (h : raws.map RawMsg.decode? = msgs.map some) (after : UInt64) (limit : ℕ) :
    (page after limit raws).mapM RawMsg.decode =
      .ok ((msgs.filter (after < ·.seq)).take (max limit 1)) := by
  rw [page]
  generalize max limit 1 = n
  induction raws generalizing msgs n with
  | nil =>
    obtain rfl : msgs = [] := List.map_eq_nil_iff.1 h.symm
    rw [List.filter_nil, List.filter_nil, List.take_nil, List.take_nil]
    rfl
  | cons m raws ih =>
    cases msgs with
    | nil => cases h
    | cons msg msgs =>
      obtain ⟨hm, hrest⟩ := List.cons.inj h
      have hseq : msg.seq = m.seq := RawMsg.seq_of_decode? hm
      by_cases hnew : after < m.seq
      · rw [List.filter_cons_of_pos (by simpa using hnew),
          List.filter_cons_of_pos (by simpa [hseq] using hnew)]
        cases n with
        | zero => rfl
        | succ n =>
          rw [List.take_succ_cons, List.take_succ_cons, List.mapM_cons,
            RawMsg.decode_of_decode? hm, ih hrest]
          rfl
      · rw [List.filter_cons_of_neg (by simpa using hnew),
          List.filter_cons_of_neg (by simpa [hseq] using hnew)]
        exact ih hrest n

/-- **A poll of a well-formed file** returns the first messages above the cursor, by `seq`. -/
theorem pollText_of_messages {text : String} {msgs : List DeliveryMsg}
    (hmsgs : messages K text = some msgs) (after : UInt64) (limit : ℕ) :
    pollText K text after limit =
      .ok (sortBySeq ((msgs.filter (after < ·.seq)).take (max limit 1))) := by
  obtain ⟨raws, hraws, hdecode⟩ := Option.bind_eq_some_iff.1 hmsgs
  rw [pollText_eq K hraws, mapM_decode_page (map_decode?_of_mapM hdecode)]
  rfl

/-- In ascending order, they are the page as it stands there. -/
theorem pollText_of_pairwise {text : String} {msgs : List DeliveryMsg}
    (hmsgs : messages K text = some msgs) (hascending : msgs.Pairwise (·.seq < ·.seq))
    (after : UInt64) (limit : ℕ) :
    pollText K text after limit = .ok ((msgs.filter (after < ·.seq)).take (max limit 1)) := by
  have hpage : ((msgs.filter (after < ·.seq)).take (max limit 1)).Pairwise (·.seq < ·.seq) :=
    (hascending.filter _).sublist (List.take_sublist _ _)
  rw [pollText_of_messages K hmsgs after limit]
  exact congrArg Except.ok (List.mergeSort_of_pairwise (hpage.imp fun h ↦
    decide_eq_true (UInt64.le_of_lt h)))

/-- The same of the whole poll, whose source argument names the file. -/
theorem pollDelivery_of_messages {source path text : String}
    (hsource : stripPrefix "file:" source = some path) {msgs : List DeliveryMsg}
    (hmsgs : messages K text = some msgs) (topic : String) (after : UInt64) (limit : ℕ) :
    ∃ k, pollDelivery K source topic after limit = .op (.readToString path) k ∧
      k (.ok text) = .pure (sortBySeq ((msgs.filter (after < ·.seq)).take (max limit 1))) := by
  obtain ⟨k, hpoll, hk⟩ := pollDelivery_of_file K hsource topic after limit
  refine ⟨k, hpoll, ?_⟩
  rw [hk, pollText_of_messages K hmsgs, Process.ofExcept_ok]

/-- A file of one message. -/
theorem pollText_singleton {text : String} {m : DeliveryMsg} (hmsgs : messages K text = some [m])
    (after : UInt64) (limit : ℕ) :
    pollText K text after limit = .ok (if after < m.seq then [m] else []) := by
  obtain ⟨k, hk⟩ : ∃ k, max limit 1 = k + 1 := ⟨max limit 1 - 1, by omega⟩
  rw [pollText_of_messages K hmsgs, hk]
  by_cases hnew : after < m.seq
  · rw [if_pos hnew, List.filter_cons_of_pos (by simpa using hnew), List.filter_nil,
      List.take_succ_cons, List.take_nil, sortBySeq, List.mergeSort_singleton]
  · rw [if_neg hnew, List.filter_cons_of_neg (by simpa using hnew), List.filter_nil, List.take_nil,
      sortBySeq, List.mergeSort_nil]

end Whistleblower.BatchAnchor
