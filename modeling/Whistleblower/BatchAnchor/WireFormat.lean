import Whistleblower.BatchAnchor.Delivery
import Whistleblower.BatchAnchor.MetadataHash
import Whistleblower.Indexer.Wire

/-!
# From the broadcast to the hash

A payload travels from the indexer, which writes it as JSON, through a delivery queue, which may
write the same object in any other way, to the batch anchor, which reads it and hashes its own JSON
text of what it has read. The hash is worth something only if this comes back to the bytes that were
broadcast.

The argument has two halves. Reading undoes every way of writing: that is the law of the JSON reader
(it reads every text of a value) together with `BroadcastPayload.fromValue_of_denotes` (members are
taken by name). And the JSON text of a payload determines the payload, so hashing it loses nothing.
-/

namespace Whistleblower.BatchAnchor

open Json Lines

variable {K : Crates}

/-- The object a message is delivered as: any object with the message's two members, and any object
with the payload's members for the second, each key once. -/
structure Carries (msg : DeliveryMsg) (members : List (String × Value)) : Prop where
  unique : Value.UniqueKeys members
  seq : ("seq", .number (.posInt msg.seq)) ∈ members
  payload : ∃ ms, ("payload", .object ms) ∈ members ∧ msg.payload.Denotes ms

/-- A line of the queue file that delivers the message: one line, and any text of such an object,
within the limits of the reader. -/
def DeliveryLine (K : Crates) (line : List Char) (msg : DeliveryMsg) : Prop :=
  '\n' ∉ line ∧ ∃ members, Carries msg members ∧ Text line (.object members) ∧
    (Value.object members).Within K.json.finite K.json.maxDepth

theorem Carries.decode?_ofValue {msg : DeliveryMsg} {members : List (String × Value)}
    (h : Carries msg members) : (RawMsg.ofValue (.object members)).decode? = some msg := by
  obtain ⟨ms, hmem, hdenotes⟩ := h.payload
  have hseq := Value.get_of_mem h.unique h.seq
  have hpayload := Value.get_of_mem h.unique hmem
  have hread := BroadcastPayload.fromValue_of_denotes hdenotes
  rw [RawMsg.ofValue, RawMsg.decode?, hseq, hpayload, hread]
  rfl

theorem isWhitespace_of_isSpace {c : Char} (h : isSpace c) : isWhitespace c := by
  simp only [isSpace, Bool.or_eq_true, beq_iff_eq] at h
  rcases h with ((rfl | rfl) | rfl) | rfl <;> decide

/-- An object starts with a brace and ends with one. -/
theorem braces_of_denotes {members : List (String × Value)} {body : List Char}
    (h : Denotes (.value (.object members)) body) : ∃ inside, body = '{' :: (inside ++ ['}']) := by
  cases h with
  | emptyObject => exact ⟨_, rfl⟩
  | object => exact ⟨_, rfl⟩

/-- Trimming takes off exactly the white space around the object. -/
theorem text_trim {line : List Char} {members : List (String × Value)}
    (h : Text line (.object members)) : Text (trim line) (.object members) ∧ trim line ≠ [] := by
  obtain ⟨w, body, w', hw, hbody, hw', rfl⟩ := h
  obtain ⟨inside, rfl⟩ := braces_of_denotes hbody
  have hopen : ∀ c ∈ ('{' :: (inside ++ ['}'])).head?, isWhitespace c = false := by
    intro c hc
    obtain rfl : '{' = c := Option.some.inj hc
    decide
  have hclose : ∀ c ∈ ('{' :: (inside ++ ['}'])).getLast?, isWhitespace c = false := by
    intro c hc
    rw [← List.cons_append, List.getLast?_append] at hc
    obtain rfl : '}' = c := Option.some.inj hc
    decide
  rw [trim_append (fun c hc ↦ isWhitespace_of_isSpace (hw c hc))
    (fun c hc ↦ isWhitespace_of_isSpace (hw' c hc)) hopen hclose]
  refine ⟨⟨[], _, [], space_nil, hbody, space_nil, ?_⟩, List.cons_ne_nil _ _⟩
  rw [List.append_nil, List.nil_append]

/-- **A file of objects**, one on a line, holds what the objects say. -/
theorem rawMessages_of_objects {objects : List (List Char × List (String × Value))}
    (hobjects : ∀ o ∈ objects, '\n' ∉ o.1 ∧ Text o.1 (.object o.2) ∧
      (Value.object o.2).Within K.json.finite K.json.maxDepth) {text : String}
    (htext : IsFileOf (objects.map Prod.fst) text.toList) :
    rawMessages K text = some (objects.map fun o ↦ RawMsg.ofValue (.object o.2)) := by
  have hnewline : ∀ l ∈ objects.map Prod.fst, '\n' ∉ l := by
    intro l hl
    obtain ⟨o, ho, rfl⟩ := List.mem_map.1 hl
    exact (hobjects o ho).1
  rw [rawMessages, contentLines_of_isFileOf hnewline htext]
  clear htext hnewline
  induction objects with
  | nil => rfl
  | cons o objects ih =>
    have hrest := ih fun o' ho' ↦ hobjects o' (List.mem_cons_of_mem _ ho')
    obtain ⟨-, htext, hwithin⟩ := hobjects o List.mem_cons_self
    obtain ⟨htrim, hne⟩ := text_trim htext
    have hread : K.json.fromStr (trim o.1) = some (.object o.2) :=
      K.json.fromStr_of_text htrim hwithin
    rw [List.map_cons, List.map_cons, List.filter_cons_of_pos (by simpa using hne),
      List.mapM_cons, hread, hrest]
    rfl

/-- **A file of delivery lines** is well-formed, and holds their messages. -/
theorem messages_of_deliveryLines {deliveries : List (List Char × DeliveryMsg)}
    (hlines : ∀ d ∈ deliveries, DeliveryLine K d.1 d.2) {text : String}
    (htext : IsFileOf (deliveries.map Prod.fst) text.toList) :
    messages K text = some (deliveries.map Prod.snd) := by
  have hmembers : ∀ d ∈ deliveries, ∃ members, Carries d.2 members ∧ '\n' ∉ d.1 ∧
      Text d.1 (.object members) ∧ (Value.object members).Within K.json.finite K.json.maxDepth := by
    intro d hd
    obtain ⟨hnewline, members, hcarries, hline⟩ := hlines d hd
    exact ⟨members, hcarries, hnewline, hline⟩
  -- one object for each line, with the message it carries
  choose! members hcarries hobject using hmembers
  have hobjects : ∀ o ∈ deliveries.map fun d ↦ (d.1, members d), '\n' ∉ o.1 ∧
      Text o.1 (.object o.2) ∧ (Value.object o.2).Within K.json.finite K.json.maxDepth := by
    intro o ho
    obtain ⟨d, hd, rfl⟩ := List.mem_map.1 ho
    exact hobject d hd
  have hfile : (deliveries.map fun d ↦ (d.1, members d)).map Prod.fst =
      deliveries.map Prod.fst := by
    rw [List.map_map]
    rfl
  rw [messages, rawMessages_of_objects hobjects (by rw [hfile]; exact htext), List.map_map,
    Option.bind_some]
  clear htext hfile hobjects hobject hlines
  induction deliveries with
  | nil => rfl
  | cons d deliveries ih =>
    have hdecode := (hcarries d List.mem_cons_self).decode?_ofValue
    have hrest := ih fun d' hd' ↦ hcarries d' (List.mem_cons_of_mem _ hd')
    rw [List.map_cons, List.mapM_cons, hrest]
    show (RawMsg.ofValue (.object (members d))).decode?.bind _ = _
    rw [hdecode]
    rfl

/-- The hashed bytes determine the payload. -/
theorem metadataHashInput_inj {p q : BroadcastPayload} :
    metadataHashInput p = metadataHashInput q ↔ p = q := by
  rw [metadataHashInput, metadataHashInput, String.utf8_inj, BroadcastPayload.toString_inj]

/-- **What is hashed is what was broadcast.** A poll of a file of delivery lines, whatever texts
they deliver their payloads in, gives the payloads back; the bytes hashed for a payload are the
ones whose hexadecimal digits a broadcast of it puts on the wire; and different payloads are hashed
as different bytes. -/
theorem hashes_what_was_broadcast (K : Crates) {source path : String}
    (hsource : stripPrefix "file:" source = some path)
    {deliveries : List (List Char × DeliveryMsg)}
    (hlines : ∀ d ∈ deliveries, DeliveryLine K d.1 d.2) {text : String}
    (htext : IsFileOf (deliveries.map Prod.fst) text.toList) (topic : String) (after : UInt64)
    (limit : ℕ) :
    (∃ k, pollDelivery K source topic after limit = .op (.readToString path) k ∧
      k (.ok text) = .pure (sortBySeq
        (((deliveries.map Prod.snd).filter (after < ·.seq)).take (max limit 1)))) ∧
    (∀ (payload : BroadcastPayload) (deliveryTopic expr : String),
      Indexer.broadcastExpr deliveryTopic payload = .ok expr →
        ∃ wire, expr = "send(\"" ++ deliveryTopic ++ "\", \"" ++ String.ofList wire ++ "\")" ∧
          hexDecode wire = some payload.toString.utf8 ∧
          metadataHashFromPayload K.sha256 payload = K.sha256 payload.toString.utf8) ∧
    ∀ p q : BroadcastPayload, metadataHashInput p = metadataHashInput q → p = q := by
  refine ⟨?_, fun payload deliveryTopic expr hexpr ↦ ?_, fun p q ↦ metadataHashInput_inj.1⟩
  · exact pollDelivery_of_messages K hsource (messages_of_deliveryLines hlines htext) topic after
      limit
  · rw [Indexer.broadcastExpr] at hexpr
    split at hexpr
    · cases hexpr
    · exact ⟨Indexer.wirePayload payload, (Except.ok.inj hexpr).symm, hexDecode_hexEncode _, rfl⟩

/-- A payload with text that needs escaping. -/
def samplePayload : BroadcastPayload :=
  ⟨sampleCid, ⟨"a \"quoted\" title", "two\nlines", "text/plain", 1, 1700000000, ["x", "y"]⟩⟩

/-- Its delivery, with the members in another order and one that nobody asked for. -/
def sampleMembers : List (String × Value) :=
  [("payload", .object (("note", .null) :: samplePayload.members.reverse)),
    ("seq", .number (.posInt 7))]

theorem within_sampleMembers (finite : List Char → Prop) (d : ℕ) :
    (Value.object sampleMembers).Within finite (d + 3) := by
  refine Value.Within.object fun m hm ↦ ?_
  rcases List.mem_cons.1 hm with rfl | hm
  · refine Value.Within.object fun m' hm' ↦ ?_
    rcases List.mem_cons.1 hm' with rfl | hm'
    · exact Value.Within.null
    · exact BroadcastPayload.within_of_mem_members (List.mem_reverse.1 hm') finite d
  · obtain rfl := List.mem_singleton.1 hm
    exact Value.Within.posInt

theorem carries_sampleMembers : Carries ⟨7, samplePayload⟩ sampleMembers where
  unique := show ["payload", "seq"].Nodup by decide
  seq := List.mem_cons_of_mem _ List.mem_cons_self
  payload := by
    have hkeys : ["note", "tags", "timestamp", "size_bytes", "content_type", "description",
        "title", "cid"].Nodup := by decide
    exact ⟨_, List.mem_cons_self, hkeys, fun m hm ↦
      List.mem_cons_of_mem _ (List.mem_reverse.2 hm)⟩

/-- That delivery, on a line of its own, is read back, and above the cursor 3 it is returned. -/
theorem hashes_what_was_broadcast_sample :
    ∃ k, pollDelivery sampleCrates "file:queue" "topic" 3 50 = .op (.readToString "queue") k ∧
      k (.ok (String.ofList (render (.object sampleMembers) ++ ['\n']))) =
        .pure [⟨7, samplePayload⟩] := by
  have hlines : ∀ d ∈ [(render (.object sampleMembers), (⟨7, samplePayload⟩ : DeliveryMsg))],
      DeliveryLine sampleCrates d.1 d.2 := by
    intro d hd
    obtain rfl := List.mem_singleton.1 hd
    exact ⟨by decide +kernel, sampleMembers, carries_sampleMembers,
      text_render (within_sampleMembers IsOtherLiteral 0), within_sampleMembers _ 124⟩
  have htext : IsFileOf [render (.object sampleMembers)]
      (String.ofList (render (.object sampleMembers) ++ ['\n'])).toList := by
    rw [String.toList_ofList]
    exact Or.inl (List.append_nil _).symm
  have hsource : stripPrefix "file:" "file:queue" = some "queue" := by decide +kernel
  obtain ⟨⟨k, hpoll, hread⟩, -, -⟩ :=
    hashes_what_was_broadcast sampleCrates hsource hlines htext "topic" 3 50
  refine ⟨k, hpoll, hread.trans ?_⟩
  exact congrArg Process.pure (List.mergeSort_singleton _)

/-! ### Printed queues -/

/-- The members of the object a message is printed as. -/
def DeliveryMsg.members (msg : DeliveryMsg) : List (String × Value) :=
  [("seq", .number (.posInt msg.seq)), ("payload", msg.payload.toValue)]

theorem DeliveryMsg.within_members (msg : DeliveryMsg) (finite : List Char → Prop) (d : ℕ) :
    (Value.object msg.members).Within finite (d + 3) := by
  refine Value.Within.object fun m hm ↦ ?_
  rcases List.mem_cons.1 hm with rfl | hm
  · exact Value.Within.posInt
  · obtain rfl := List.mem_singleton.1 hm
    exact msg.payload.within_toValue finite d

theorem DeliveryMsg.carries_members (msg : DeliveryMsg) : Carries msg msg.members where
  unique := show ["seq", "payload"].Nodup by decide
  seq := List.mem_cons_self
  payload := ⟨_, List.mem_cons_of_mem _ List.mem_cons_self, msg.payload.denotes_members⟩

theorem DeliveryMsg.deliveryLine (K : Crates) (msg : DeliveryMsg) :
    DeliveryLine K (render (.object msg.members)) msg := by
  refine ⟨newline_notMem_render (msg.within_members IsOtherLiteral 0), msg.members,
    msg.carries_members, text_render (msg.within_members IsOtherLiteral 0), ?_⟩
  rw [K.json_maxDepth]
  exact msg.within_members _ 124

/-- The queue file that holds these messages, one on a line. -/
def printedQueue (msgs : List DeliveryMsg) : String :=
  String.ofList (msgs.flatMap fun msg ↦ render (.object msg.members) ++ ['\n'])

/-- A printed message before its envelope is read. -/
def DeliveryMsg.raw (msg : DeliveryMsg) : RawMsg :=
  .ofValue (.object msg.members)

@[simp] theorem DeliveryMsg.decode?_raw (msg : DeliveryMsg) : msg.raw.decode? = some msg :=
  msg.carries_members.decode?_ofValue

theorem DeliveryMsg.seq_raw (msg : DeliveryMsg) : msg.raw.seq = msg.seq :=
  (RawMsg.seq_of_decode? msg.decode?_raw).symm

theorem rawMessages_printedQueue (K : Crates) (msgs : List DeliveryMsg) :
    rawMessages K (printedQueue msgs) = some (msgs.map DeliveryMsg.raw) := by
  have hobjects : ∀ o ∈ msgs.map fun msg ↦ (render (.object msg.members), msg.members),
      '\n' ∉ o.1 ∧ Text o.1 (.object o.2) ∧
        (Value.object o.2).Within K.json.finite K.json.maxDepth := by
    intro o ho
    obtain ⟨msg, -, rfl⟩ := List.mem_map.1 ho
    refine ⟨newline_notMem_render (msg.within_members IsOtherLiteral 0),
      text_render (msg.within_members IsOtherLiteral 0), ?_⟩
    rw [K.json_maxDepth]
    exact msg.within_members _ 124
  rw [rawMessages_of_objects hobjects (Or.inl ?_), List.map_map]
  · rfl
  · rw [printedQueue, String.toList_ofList, List.map_map, List.flatMap_map]
    rfl

/-- **A printed queue is well-formed**, and holds its messages. -/
theorem messages_printedQueue (K : Crates) (msgs : List DeliveryMsg) :
    messages K (printedQueue msgs) = some msgs := by
  rw [messages, rawMessages_printedQueue, Option.bind_some]
  induction msgs with
  | nil => rfl
  | cons msg msgs ih =>
    rw [List.map_cons, List.mapM_cons, ih, msg.decode?_raw]
    rfl

/-! ### A queue of one message -/

/-- One message, from a document with empty fields. -/
def quietMessage : DeliveryMsg :=
  ⟨7, ⟨sampleCid, ⟨"", "", "", 0, 0, []⟩⟩⟩

def quietMembers : List (String × Value) :=
  [("seq", .number (.posInt quietMessage.seq)), ("payload", quietMessage.payload.toValue)]

/-- A queue of that one message. -/
def quietQueue : String :=
  String.ofList (render (.object quietMembers))

theorem within_quietMembers (finite : List Char → Prop) (d : ℕ) :
    (Value.object quietMembers).Within finite (d + 3) :=
  quietMessage.within_members finite d

theorem carries_quietMembers : Carries quietMessage quietMembers :=
  quietMessage.carries_members

theorem messages_quietQueue : messages sampleCrates quietQueue = some [quietMessage] := by
  have hlines : ∀ d ∈ [(render (.object quietMembers), quietMessage)],
      DeliveryLine sampleCrates d.1 d.2 := by
    intro d hd
    obtain rfl := List.mem_singleton.1 hd
    exact quietMessage.deliveryLine sampleCrates
  refine messages_of_deliveryLines hlines (Or.inr ?_)
  rw [quietQueue, String.toList_ofList]
  exact (List.append_nil _).symm

/-! ### Queues of many messages -/

/-- A message with a CID of its own for each number below 256. -/
def numberedMessage (i : ℕ) : DeliveryMsg :=
  ⟨UInt64.ofNat (i + 1),
    ⟨cidOf (Bytes.replicate CID_BYTES (UInt8.ofNat i)), ⟨"", "", "", 0, 0, []⟩⟩⟩

/-- Messages numbered from 1 to `n`. -/
def numberedMessages (n : ℕ) : List DeliveryMsg :=
  (List.range n).map numberedMessage

theorem decodeCid_numberedMessage (i : ℕ) :
    decodeCid sampleCrates (numberedMessage i).payload.cid =
      .ok (Bytes.replicate CID_BYTES (UInt8.ofNat i)) :=
  decodeCid_cidOf _

theorem decodable_of_mem_numberedMessages {n : ℕ} {m : DeliveryMsg}
    (hm : m ∈ numberedMessages n) : Decodable sampleCrates m.payload.cid := by
  obtain ⟨i, -, rfl⟩ := List.mem_map.1 hm
  exact ⟨_, decodeCid_numberedMessage i⟩

end Whistleblower.BatchAnchor
