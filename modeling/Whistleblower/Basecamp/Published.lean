import Whistleblower.BatchAnchor.WireFormat
import Whistleblower.Basecamp.Uploads

/-!
# What the app publishes, read at the other end

The app writes its envelopes in code of its own, as a `QJsonObject`, and the Rust side reads them by
name into a `BroadcastPayload`. The two fit: whatever the module has posted is read, and says what
the form has said, the CID that the storage has answered, and the hour.

So a document the app has published can be anchored: on any line of the delivery queue that carries
its envelope, in whatever order the members of the objects stand there, the batch anchor finds this
payload (`published_delivered`).

There is one thing that is not read. A clock that stands an hour or more before 1970 gives a
negative timestamp, which is no `u64` (`fromValue_envelope`).
-/

namespace Whistleblower.Basecamp

open Json Lines BatchAnchor

variable {m : WhistleblowerModule} {es : List Event} {out : List Output}

/-! ### Numbers -/

theorem tdiv_natCast (k : ℕ) : (k : ℤ).tdiv 3600 = (k / 3600 : ℕ) := rfl

/-- Before the epoch the hour is negative from one hour on. -/
theorem hourBucket_nonneg_iff (now : ℤ) : 0 ≤ hourBucket now ↔ -3600 < now := by
  rw [hourBucket]
  rcases Int.le_total 0 now with hpos | hneg
  · have hquot := Int.tdiv_nonneg hpos (by decide : (0 : ℤ) ≤ 3600)
    omega
  · obtain ⟨k, hk⟩ := Int.eq_ofNat_of_zero_le (Int.neg_nonneg_of_nonpos hneg)
    obtain rfl : now = -(k : ℤ) := by omega
    rw [Int.neg_tdiv, tdiv_natCast]
    omega

/-- The hour is the one that has begun last. -/
theorem hourBucket_spec {now : ℤ} (h : 0 ≤ now) :
    3600 ∣ hourBucket now ∧ hourBucket now ≤ now ∧ now < hourBucket now + 3600 := by
  obtain ⟨k, rfl⟩ := Int.eq_ofNat_of_zero_le h
  rw [hourBucket, tdiv_natCast]
  refine ⟨Dvd.intro_left _ rfl, ?_, ?_⟩
  · omega
  · omega

/-- A time before 2^63 has its hour there. -/
theorem hourBucket_lt {now : ℤ} (h : now < 2 ^ 63) : hourBucket now < 2 ^ 63 := by
  rcases Int.le_total 0 now with hpos | hneg
  · exact (hourBucket_spec hpos).2.1.trans_lt h
  · have hquot := Int.tdiv_nonneg (Int.neg_nonneg_of_nonpos hneg) (by decide : (0 : ℤ) ≤ 3600)
    rw [Int.neg_tdiv] at hquot
    rw [hourBucket]
    omega

/-- A number that is in the range of a `u64` is kept by one. -/
theorem toNat_ofNat_toNat {n : ℤ} (hnonneg : 0 ≤ n) (hlt : n < 2 ^ 64) :
    ((UInt64.ofNat n.toNat).toNat : ℤ) = n := by
  have hsize : UInt64.size = 2 ^ 64 := rfl
  rw [UInt64.toNat_ofNat_of_lt' (by omega)]
  exact Int.toNat_of_nonneg hnonneg

theorem asU64_jsonOfInt (n : ℤ) :
    (jsonOfInt n).asU64 = if 0 ≤ n then some (UInt64.ofNat n.toNat) else none := by
  cases n with
  | ofNat k => rfl
  | negSucc k => rfl

/-! ### The envelope -/

/-- The payload an envelope is read as. -/
def payloadOf (cid : String) (form : Form) (size now : ℤ) : BroadcastPayload :=
  ⟨cid, ⟨form.title, form.description, "application/octet-stream", UInt64.ofNat size.toNat,
    UInt64.ofNat (hourBucket now).toNat, form.tags⟩⟩

/-- **Reading an envelope of the app.** -/
theorem fromValue_envelope (cid : String) (form : Form) (size now : ℤ) :
    BroadcastPayload.fromValue (envelope cid form size now) =
      if 0 ≤ size ∧ -3600 < now then some (payloadOf cid form size now) else none := by
  have hcid : (envelope cid form size now).get "cid" = .string cid := rfl
  have htitle : (envelope cid form size now).get "title" = .string form.title := rfl
  have hdescription : (envelope cid form size now).get "description" =
    .string form.description := rfl
  have hcontentType : (envelope cid form size now).get "content_type" =
    .string "application/octet-stream" := rfl
  have hsizeBytes : (envelope cid form size now).get "size_bytes" = jsonOfInt size := rfl
  have htimestamp : (envelope cid form size now).get "timestamp" =
    jsonOfInt (hourBucket now) := rfl
  have htags : (envelope cid form size now).get "tags" = .array (form.tags.map .string) := rfl
  rw [BroadcastPayload.fromValue, hcid, htitle, hdescription, hcontentType, hsizeBytes, htimestamp,
    htags]
  simp only [Value.asStr, Value.asArray, BroadcastPayload.mapM_asStr_map_string, asU64_jsonOfInt,
    hourBucket_nonneg_iff, Option.bind_eq_bind, Option.bind_some, Option.pure_def]
  by_cases hsize : 0 ≤ size
  · by_cases hnow : -3600 < now
    · simp [hsize, hnow, payloadOf]
    · simp [hsize, hnow]
  · simp [hsize]

/-- The members of an envelope, where its numbers are unsigned. -/
theorem exists_denotes_envelope {size now : ℤ} (hsize : 0 ≤ size) (hnow : -3600 < now)
    (cid : String) (form : Form) :
    ∃ ms, envelope cid form size now = .object ms ∧ (payloadOf cid form size now).Denotes ms ∧
      ∀ finite d, (Value.object ms).Within finite (d + 2) := by
  have hnumber : ∀ {n : ℤ}, 0 ≤ n → jsonOfInt n = .number (.posInt (UInt64.ofNat n.toNat)) := by
    intro n hn
    obtain ⟨k, rfl⟩ := Int.eq_ofNat_of_zero_le hn
    rfl
  have hkeys : ["cid", "content_type", "description", "size_bytes", "tags", "timestamp",
      "title"].Nodup := by decide
  rw [envelope, hnumber hsize, hnumber ((hourBucket_nonneg_iff now).2 hnow)]
  refine ⟨_, rfl, ⟨hkeys, fun member hmember ↦ ?_⟩, fun finite d ↦
    Value.Within.object fun member hmember ↦ ?_⟩
  · simp only [BroadcastPayload.members, MetadataEnvelope.members, payloadOf, List.mem_cons,
      List.not_mem_nil, or_false] at hmember ⊢
    rcases hmember with rfl | rfl | rfl | rfl | rfl | rfl | rfl <;> simp
  · refine BroadcastPayload.within_of_mem_members (p := payloadOf cid form size now) ?_ finite d
    simp only [BroadcastPayload.members, MetadataEnvelope.members, payloadOf, List.mem_cons,
      List.not_mem_nil, or_false] at hmember ⊢
    rcases hmember with rfl | rfl | rfl | rfl | rfl | rfl | rfl <;> simp

/-- The object says what another one says: it has its members, each key once. Their order does not
matter, and there may be more of them. -/
def Says (members ms : List (String × Value)) : Prop :=
  Value.UniqueKeys members ∧ ∀ member ∈ ms, member ∈ members

/-- A line of the delivery queue: one line, and any text of an object with a sequence number and a
payload, which says what this object says, within the limits of the reader. -/
structure LineOf (K : Crates) (line : List Char) (seq : UInt64) (ms : List (String × Value)) :
    Prop where
  newline : '\n' ∉ line
  text : ∃ members payload, Text line (.object members) ∧
    Says members [("seq", .number (.posInt seq)), ("payload", .object payload)] ∧
    Says payload ms ∧ (Value.object members).Within K.json.finite K.json.maxDepth

/-- A line that carries an envelope delivers its payload. -/
theorem LineOf.deliveryLine {K : Crates} {line : List Char} {seq : UInt64}
    {ms : List (String × Value)} (h : LineOf K line seq ms) {p : BroadcastPayload}
    (hp : p.Denotes ms) : DeliveryLine K line ⟨seq, p⟩ := by
  obtain ⟨members, payload, htext, ⟨hunique, hmembers⟩, ⟨hunique', hpayload⟩, hwithin⟩ := h.text
  have hcarries : Carries ⟨seq, p⟩ members :=
    ⟨hunique, hmembers _ List.mem_cons_self, payload,
      hmembers _ (List.mem_cons_of_mem _ List.mem_cons_self), hunique',
      fun member hmember ↦ hpayload member (hp.2 member hmember)⟩
  exact ⟨h.newline, members, hcarries, htext, hwithin⟩

/-! ### From the form to the batch anchor -/

/-- The sizes and the clock of a machine, both `qint64`: no file has a negative size, and the clock
does not stand an hour or more before 1970. -/
def Event.InRange : Event → Prop
  | .storageFinished _ _ size now => 0 ≤ size ∧ size < 2 ^ 63 ∧ -3600 < now ∧ now < 2 ^ 63
  | _ => True

/-- A line of the delivery queue that carries an envelope the module has posted, under a sequence
number of the queue's own, written in any way. -/
def Relays (K : Crates) (out : List Output) (line : List Char) (seq : UInt64) (body : Value) :
    Prop :=
  .post (publishRequest body) ∈ out ∧ ∃ ms, body = .object ms ∧ LineOf K line seq ms

/-- The payload says what the module has been told of a document: what stood in the form of one of
the uploads, under the CID that the storage has answered to this upload, and the size of the file
and the hour at the time of the answer. -/
def Tells (es : List Event) (p : BroadcastPayload) : Prop :=
  ∃ u localFile form contents answer size now,
    (booksOf es).uploads[u]? = some ⟨localFile, form, some contents⟩ ∧
    (u, Answer.mk (.ok answer) size now) ∈ (booksOf es).answers ∧
    p.cid = cidOfBody answer ∧ p.cid ≠ "" ∧
    p.metadata.title = form.title ∧ p.metadata.description = form.description ∧
    p.metadata.tags = form.tags ∧ (p.metadata.sizeBytes.toNat : ℤ) = size ∧
    (p.metadata.timestamp.toNat : ℤ) = hourBucket now

/-- **What is posted is an envelope of a document**, and it is read as it was meant. -/
theorem exists_tells_of_post (h : app.run .new es = some (m, out))
    (hrange : ∀ e ∈ es, e.InRange) {body : Value} (hpost : .post (publishRequest body) ∈ out) :
    ∃ cid form size now, body = envelope cid form size now ∧ 0 ≤ size ∧ -3600 < now ∧
      Tells es (payloadOf cid form size now) := by
  obtain ⟨hbalanced, htraced⟩ := balanced_of_run h
  obtain ⟨u, cid, anchor, hposted⟩ := htraced.posted body hpost
  obtain ⟨localFile, form, contents, answer, size, now, hupload, hanswer, hcid, rfl, -⟩ :=
    hposted.origin
  -- the answer has come with an event, whose numbers are in range
  have hstored : Answer.mk (.ok answer) size now ∈ es.filterMap Event.answer? := by
    rw [← hbalanced.answers]
    exact List.mem_map_of_mem hanswer
  obtain ⟨e, he, heq⟩ := List.mem_filterMap.1 hstored
  obtain ⟨hsize, hsizeLt, hpast, hnow⟩ :
      0 ≤ size ∧ size < 2 ^ 63 ∧ -3600 < now ∧ now < 2 ^ 63 := by
    cases e with
    | uploadFile localFile form contents => cases heq
    | storageFinished i answer size now =>
      obtain ⟨-, rfl, rfl⟩ := Answer.mk.inj (Option.some.inj heq)
      exact hrange _ he
    | deliveryFinished i answer => cases heq
    | runBatchAnchor => cases heq
  have hhour := (hourBucket_nonneg_iff now).2 hpast
  have hhourLt := hourBucket_lt hnow
  have hsizeBytes := toNat_ofNat_toNat hsize (by omega)
  have htimestamp := toNat_ofNat_toNat hhour (by omega)
  exact ⟨cid, form, size, now, rfl, hsize, hpast, u, localFile, form, contents, answer, size, now,
    hupload, hanswer, hcid.symm, hposted.cid_ne, rfl, rfl, rfl, hsizeBytes, htimestamp⟩

/-- What is posted can be read, and a line that carries it delivers what is read. -/
theorem Relays.deliveryLine {K : Crates} (h : app.run .new es = some (m, out))
    (hrange : ∀ e ∈ es, e.InRange) {line : List Char} {seq : UInt64} {body : Value}
    (hline : Relays K out line seq body) :
    ∃ p, BroadcastPayload.fromValue body = some p ∧ Tells es p ∧ DeliveryLine K line ⟨seq, p⟩ := by
  obtain ⟨hpost, ms, hms, hline⟩ := hline
  obtain ⟨cid, form, size, now, rfl, hsize, hnow, htells⟩ := exists_tells_of_post h hrange hpost
  obtain ⟨ms', hms', hdenotes, -⟩ := exists_denotes_envelope hsize hnow cid form
  obtain rfl : ms' = ms := Value.object.inj (hms'.symm.trans hms)
  have hread : BroadcastPayload.fromValue (envelope cid form size now) =
      some (payloadOf cid form size now) := by
    rw [fromValue_envelope, if_pos ⟨hsize, hnow⟩]
  exact ⟨_, hread, htells, hline.deliveryLine hdenotes⟩

/-- **What the app publishes can be anchored.** After every run of the module on a machine with a
sound clock, a delivery queue whose lines carry envelopes that the module has posted, in any
order, any number of times and written in any way, holds one message for each line, with its number
and the payload that the envelope on the line is read as, which says what the module has been told
of one of its uploads. No poll of the batch anchor fails on it: each takes the first of the messages
above its cursor. -/
theorem published_delivered (K : Crates) (h : app.run .new es = some (m, out))
    (hrange : ∀ e ∈ es, e.InRange) {lines : List (List Char × UInt64 × Value)}
    (hlines : ∀ l ∈ lines, Relays K out l.1 l.2.1 l.2.2) {text : String}
    (htext : IsFileOf (lines.map Prod.fst) text.toList) :
    ∃ msgs : List DeliveryMsg,
      List.Forall₂ (fun l msg ↦ msg.seq = l.2.1 ∧
        BroadcastPayload.fromValue l.2.2 = some msg.payload ∧ Tells es msg.payload) lines msgs ∧
      ∀ after limit, pollText K text after limit =
        .ok (sortBySeq ((msgs.filter (after < ·.seq)).take (max limit 1))) := by
  have hread : ∀ l ∈ lines, ∃ p, BroadcastPayload.fromValue l.2.2 = some p ∧ Tells es p ∧
      DeliveryLine K l.1 ⟨l.2.1, p⟩ :=
    fun l hl ↦ (hlines l hl).deliveryLine h hrange
  have : Nonempty BroadcastPayload := ⟨payloadOf "" ⟨"", "", [], false⟩ 0 0⟩
  choose! payload hpayload htells hdelivers using hread
  have hdeliveries : ∀ d ∈ lines.map fun l ↦ (l.1, DeliveryMsg.mk l.2.1 (payload l)),
      DeliveryLine K d.1 d.2 := by
    intro d hd
    obtain ⟨l, hl, rfl⟩ := List.mem_map.1 hd
    exact hdelivers l hl
  have hfile : (lines.map fun l ↦ (l.1, DeliveryMsg.mk l.2.1 (payload l))).map Prod.fst =
      lines.map Prod.fst := by
    rw [List.map_map]
    rfl
  have hmessages := messages_of_deliveryLines hdeliveries (by rw [hfile]; exact htext)
  rw [List.map_map] at hmessages
  refine ⟨_, ?_, pollText_of_messages K hmessages⟩
  rw [List.forall₂_map_right_iff]
  exact List.forall₂_same.2 fun l hl ↦ ⟨rfl, hpayload l hl, htells l hl⟩

/-- What is posted of the sample. -/
def sampleBody : Value :=
  envelope "zQm" ⟨"title", "", ["tag"], true⟩ 0 1700000000

theorem exists_post_sampleEvents : ∃ m out, app.run .new sampleEvents = some (m, out) ∧
    .post (publishRequest sampleBody) ∈ out := by
  refine ⟨_, _, rfl, ?_⟩
  iterate 5 refine List.mem_cons_of_mem _ ?_
  exact List.mem_cons_self

/-- A line that a queue may hold of it: the members of both objects stand in another order. -/
def sampleLine (ms : List (String × Value)) : List Char :=
  render (.object [("payload", .object ms.reverse), ("seq", .number (.posInt 7))])

theorem exists_relays_sampleLine (K : Crates) {out : List Output}
    (h : .post (publishRequest sampleBody) ∈ out) :
    ∃ ms, Relays K out (sampleLine ms) 7 sampleBody := by
  obtain ⟨ms, hms, ⟨hunique, -⟩, hwithin⟩ := exists_denotes_envelope (le_refl 0)
    (by decide : (-3600 : ℤ) < 1700000000) "zQm" ⟨"title", "", ["tag"], true⟩
  have hline : ∀ finite d, (Value.object [("payload", .object ms.reverse),
      ("seq", .number (.posInt 7))]).Within finite (d + 3) := by
    refine fun finite d ↦ Value.Within.object fun member hmember ↦ ?_
    rcases List.mem_cons.1 hmember with rfl | hmember
    · cases hwithin finite d with
      | object hmembers =>
        exact Value.Within.object fun member hmember ↦ hmembers member (List.mem_reverse.1 hmember)
    · obtain rfl := List.mem_singleton.1 hmember
      exact Value.Within.posInt
  have hkeys : ["payload", "seq"].Nodup := by decide
  have hreverse : Value.UniqueKeys ms.reverse := by
    rw [Value.UniqueKeys, List.map_reverse]
    exact List.nodup_reverse.2 hunique
  refine ⟨ms, h, ms, hms, newline_notMem_render (hline IsOtherLiteral 0), _, ms.reverse,
    text_render (hline IsOtherLiteral 0), ⟨hkeys, fun member hmember ↦ ?_⟩,
    ⟨hreverse, fun member ↦ List.mem_reverse.2⟩, ?_⟩
  · exact List.mem_reverse.1 hmember
  · rw [K.json_maxDepth]
    exact hline _ 124

/-- The batch anchor reads the sample from a queue of that line. -/
theorem published_delivered_sampleEvents : ∃ ms msgs,
    List.Forall₂ (fun l (msg : DeliveryMsg) ↦ msg.seq = l.2.1 ∧
        BroadcastPayload.fromValue l.2.2 = some msg.payload ∧ Tells sampleEvents msg.payload)
      [(sampleLine ms, (7 : UInt64), sampleBody)] msgs ∧
    ∀ after limit, pollText sampleCrates (String.ofList (sampleLine ms)) after limit =
      .ok (sortBySeq ((msgs.filter (after < ·.seq)).take (max limit 1))) := by
  obtain ⟨m, out, hrun, hpost⟩ := exists_post_sampleEvents
  obtain ⟨ms, hrelays⟩ := exists_relays_sampleLine sampleCrates hpost
  have hrange : ∀ e ∈ sampleEvents, e.InRange := by
    simp [sampleEvents, Event.InRange]
  have hlines : ∀ l ∈ [(sampleLine ms, (7 : UInt64), sampleBody)],
      Relays sampleCrates out l.1 l.2.1 l.2.2 := by
    intro l hl
    obtain rfl := List.mem_singleton.1 hl
    exact hrelays
  refine ⟨ms, published_delivered sampleCrates hrun hrange hlines (Or.inr ?_)⟩
  rw [String.toList_ofList]
  exact (List.append_nil _).symm

end Whistleblower.Basecamp
