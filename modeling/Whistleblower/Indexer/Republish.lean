import Whistleblower.Indexer.Dedup
import Whistleblower.Indexer.Upload

/-!
# Publishing the same document again

`upload_and_broadcast`, called any number of times on one indexer, one call after another, with any
documents and any answers from outside.

The set of the indexer knows CIDs, not envelopes. Storage is addressed by content, so a document
published again, with other metadata, has the CID it had before; its broadcast finds the CID in the
set and sends nothing, and the call returns the hash of an envelope that nobody has been sent.
`describes_iff` says that nothing else can come between a result and what has been sent.
-/

namespace Whistleblower.Indexer

variable (K : Crates) {config : IndexerConfig} {outside : Session.Outside} {s t : Session}

/-! ### What is in the set -/

theorem delivered_append {call : Call} {p : BroadcastPayload} :
    Session.Delivered config { s with history := s.history ++ [call] } p ↔
      s.Delivered config p ∨ Delivers config p call := by
  simp only [Session.Delivered, List.mem_append, List.mem_singleton, or_and_right, exists_or,
    exists_eq_left]

variable (config) in
/-- Between the two, nothing has been sent, and the set is as it was. -/
structure Unsent (s t : Session) : Prop where
  broadcasted : t.broadcasted = s.broadcasted
  delivered : ∀ p, t.Delivered config p ↔ s.Delivered config p

theorem Unsent.refl (s : Session) : Unsent config s s :=
  ⟨rfl, fun _ ↦ Iff.rfl⟩

theorem Unsent.trans {u : Session} (h : Unsent config s t) (h' : Unsent config t u) :
    Unsent config s u :=
  ⟨h'.broadcasted.trans h.broadcasted, fun p ↦ (h'.delivered p).trans (h.delivered p)⟩

/-- A call that sends nothing. -/
theorem Unsent.append {call : Call} (h : ∀ p, ¬ Delivers config p call) :
    Unsent config s { s with history := s.history ++ [call] } :=
  ⟨rfl, fun p ↦ by rw [delivered_append, or_iff_left (h p)]⟩

variable (config) in
/-- The set holds the CIDs of the envelopes sent. -/
def Session.Settled (s : Session) : Prop :=
  ∀ cid, cid ∈ s.broadcasted ↔ ∃ m, s.Delivered config ⟨cid, m⟩

theorem Session.settled_new : Session.new.Settled config := by
  intro cid
  refine iff_of_false (Finset.notMem_empty cid) ?_
  rintro ⟨m, call, hcall, -⟩
  exact absurd hcall List.not_mem_nil

theorem Session.Settled.of_unsent (h : s.Settled config) (ht : Unsent config s t) :
    t.Settled config := by
  intro cid
  rw [ht.broadcasted, h cid]
  exact exists_congr fun m ↦ (ht.delivered _).symm

/-- Sending an envelope enters its CID. -/
theorem Session.Settled.send (h : s.Settled config) {p : BroadcastPayload} {call : Call}
    (hcall : Delivers config p call) :
    Session.Settled config ⟨insert p.cid s.broadcasted, s.history ++ [call]⟩ := by
  intro cid
  show cid ∈ insert p.cid s.broadcasted ↔ ∃ m,
    Session.Delivered config { s with history := s.history ++ [call] } ⟨cid, m⟩
  simp only [delivered_append, exists_or, ← h cid, Finset.mem_insert, or_comm (a := cid = p.cid)]
  refine or_congr_right ⟨fun hcid ↦ ⟨p.metadata, hcid ▸ hcall⟩, fun ⟨m, hm⟩ ↦ ?_⟩
  rw [← hm.unique hcall]

/-! ### One broadcast -/

variable (config outside) in
/-- A CID in the set is not broadcast again. -/
theorem eval_broadcast_of_mem (p : BroadcastPayload) (h : p.cid ∈ s.broadcasted) :
    (broadcast config p).eval (Session.respond outside) s = (.ok (), s) := by
  have hcheck : Session.respond outside (.insertBroadcasted p.cid) s = (false, s) := by
    show (decide (p.cid ∉ s.broadcasted), { s with broadcasted := insert p.cid s.broadcasted }) = _
    rw [decide_eq_false (not_not.2 h), Finset.insert_eq_of_mem h]
  rw [broadcast_eq, Process.eval_op, hcheck]
  rfl

/-- What the check of a new CID leaves to be done. -/
theorem eval_broadcast_of_notMem {p : BroadcastPayload} (h : p.cid ∉ s.broadcasted) :
    (broadcast config p).eval (Session.respond outside) s =
      (result (send config p) >>= settle p.cid).eval (Session.respond outside)
        { s with broadcasted := insert p.cid s.broadcasted } := by
  have hcheck : Session.respond outside (.insertBroadcasted p.cid) s =
      (true, { s with broadcasted := insert p.cid s.broadcasted }) := by
    show (decide (p.cid ∉ s.broadcasted), _) = _
    rw [decide_eq_true h]
    rfl
  rw [broadcast_eq, Process.eval_op, hcheck]
  rfl

variable (config outside) in
/-- A broadcast of a new CID sends the envelope, or nothing, and says which. -/
theorem eval_broadcast_cases (p : BroadcastPayload)
    (h : p.cid ∉ s.broadcasted) :
    (∃ call, Delivers config p call ∧
      (broadcast config p).eval (Session.respond outside) s =
        (.ok (), ⟨insert p.cid s.broadcasted, s.history ++ [call]⟩)) ∨
    ∃ text t, Unsent config s t ∧
      (broadcast config p).eval (Session.respond outside) s = (.error (.error text), t) := by
  rw [eval_broadcast_of_notMem h]
  cases ho : sendOp config p with
  | none =>
    obtain ⟨text, hsend⟩ := send_of_none ho
    refine .inr ⟨text, s, .refl s, ?_⟩
    rw [hsend]
    show (_, { s with broadcasted := (insert p.cid s.broadcasted).erase p.cid }) = _
    rw [Finset.erase_insert h]
  | some o =>
    obtain ⟨k, hsend, hk⟩ := send_of_some ho
    -- the session in which the send is answered, and the answer
    let entered : Session := { s with broadcasted := insert p.cid s.broadcasted }
    let r := (Session.respond outside o entered).1
    have hsent : (result (send config p) >>= settle p.cid).eval (Session.respond outside) entered =
        (result (k r) >>= settle p.cid).eval (Session.respond outside) (entered.after o r) := by
      rw [hsend]
      rfl
    rw [hsent, after_of_sendOp ho]
    cases hr : succeeded o r with
    | true =>
      rw [(hk r).1 hr]
      exact .inl ⟨⟨o, r⟩, ⟨ho, hr⟩, rfl⟩
    | false =>
      obtain ⟨text, htext⟩ := (hk r).2 hr
      have hnot : ∀ q, ¬ Delivers config q ⟨o, r⟩ :=
        fun q hq ↦ absurd (hq.2.symm.trans hr) (by simp)
      rw [htext]
      refine .inr ⟨text, { s with history := s.history ++ [⟨o, r⟩] }, .append hnot, ?_⟩
      · show (_, Session.mk ((insert p.cid s.broadcasted).erase p.cid) _) = _
        rw [Finset.erase_insert h]

/-! ### Uploads -/

/-- The operations of an upload. -/
def Uploads : Op → Prop
  | .insertBroadcasted _ => False
  | .removeBroadcasted _ => False
  | .postPayload _ _ => False
  | .logoscore command => command.module = "agent_module"
  | _ => True

theorem UploadStep.uploads {o : Op} (h : UploadStep o) : Uploads o := by
  cases o with
  | logoscore command => exact h
  | insertBroadcasted cid => exact h
  | removeBroadcasted cid => exact h
  | postPayload url payload => exact h
  | _ => exact trivial

/-- An upload sends no envelope and leaves the set alone. -/
theorem unsent_after {o : Op} (h : Uploads o) (r : o.Ret) : Unsent config s (s.after o r) := by
  have hnot : ∀ p, ¬ Delivers config p ⟨o, r⟩ := by
    rintro p ⟨ho, -⟩
    obtain ⟨bin, dir, expr, -, -, rfl⟩ | ⟨-, rfl⟩ := sendOp_cases ho
    · exact absurd (show "delivery_module" = "agent_module" from h) (by decide)
    · exact h
  cases o with
  | insertBroadcasted cid => exact h.elim
  | removeBroadcasted cid => exact h.elim
  | _ => exact .append hnot

variable (config)

variable (outside) in
/-- **An upload sends nothing**, however often it is tried. -/
theorem unsent_uploadWithRetry (data : List UInt8) (maxAttempts : ℕ) (s : Session) :
    Unsent config s
      ((uploadWithRetry K config data maxAttempts).eval (Session.respond outside) s).2 :=
  ((callsOnly_uploadWithRetry K config data maxAttempts).mono fun _ ↦ UploadStep.uploads).eval _
    Unsent.refl Unsent.trans (fun _ _ ho ↦ unsent_after ho _) s

/-! ### One call after another -/

/-- What `upload_and_broadcast` is called with. -/
structure Publication where
  data : List UInt8
  metadata : MetadataEnvelope

/-- One call: what it returns, and the session after it. -/
def publish (outside : Session.Outside) (s : Session) (doc : Publication) :
    Except Failure IndexResult × Session :=
  (uploadAndBroadcast K config doc.data doc.metadata).eval (Session.respond outside) s

/-- The session after calls on a new indexer, one after another. -/
def sessionAfter (outside : Session.Outside) (docs : List Publication) : Session :=
  docs.foldl (fun s doc ↦ (publish K config outside s doc).2) Session.new

/-- Storage gives the document this CID, at one of the attempts. -/
def Assigns (outside : Session.Outside) (s : Session) (data : List UInt8) (cid : String) : Prop :=
  ((uploadWithRetry K config data 3).eval (Session.respond outside) s).1 = .ok cid

theorem sessionAfter_concat (docs : List Publication) (doc : Publication) :
    sessionAfter K config outside (docs ++ [doc]) =
      (publish K config outside (sessionAfter K config outside docs) doc).2 := by
  rw [sessionAfter, List.foldl_append]
  rfl

/-- **What one call can do**: fail without having sent anything, in which case the CID, if there is
one, is not in the set; find its CID in the set, and send nothing; or send its envelope. -/
theorem publish_cases (outside : Session.Outside) (s : Session) (doc : Publication) :
    (∃ e t, Unsent config s t ∧
      (∀ cid, Assigns K config outside s doc.data cid → cid ∉ s.broadcasted) ∧
      publish K config outside s doc = (.error e, t)) ∨
    ∃ cid t, Assigns K config outside s doc.data cid ∧ Unsent config s t ∧
      (cid ∈ s.broadcasted ∧
        publish K config outside s doc = (.ok ⟨cid, hashEnvelope K.sha256 cid doc.metadata⟩, t) ∨
      cid ∉ s.broadcasted ∧ ∃ call, Delivers config ⟨cid, doc.metadata⟩ call ∧
        publish K config outside s doc = (.ok ⟨cid, hashEnvelope K.sha256 cid doc.metadata⟩,
          ⟨insert cid t.broadcasted, t.history ++ [call]⟩)) := by
  have hunsent := unsent_uploadWithRetry K config outside doc.data 3 s
  simp only [Assigns]
  rw [publish, uploadAndBroadcast]
  cases hupload : (uploadWithRetry K config doc.data 3).eval (Session.respond outside) s with
  | mk outcome t =>
    rw [hupload] at hunsent
    cases outcome with
    | error e => exact .inl ⟨e, t, hunsent, nofun, Process.eval_bind_of_error _ hupload _⟩
    | ok cid =>
      rw [Process.eval_bind_of_ok _ hupload, ← hunsent.broadcasted]
      by_cases hmem : cid ∈ t.broadcasted
      · have heval := eval_broadcast_of_mem config outside ⟨cid, doc.metadata⟩ hmem
        refine .inr ⟨cid, t, rfl, hunsent, .inl ⟨hmem, ?_⟩⟩
        rw [Process.eval_bind_of_ok _ heval, Process.eval_pure]
      · obtain ⟨call, hcall, heval⟩ | ⟨text, u, hu, heval⟩ :=
          eval_broadcast_cases config outside ⟨cid, doc.metadata⟩ hmem
        · refine .inr ⟨cid, t, rfl, hunsent, .inr ⟨hmem, call, hcall, ?_⟩⟩
          rw [Process.eval_bind_of_ok _ heval, Process.eval_pure]
        · refine .inl ⟨.error text, u, hunsent.trans hu, fun cid' hcid' ↦ ?_, ?_⟩
          · rw [← Except.ok.inj hcid']
            exact hmem
          · rw [Process.eval_bind_of_error _ heval]

theorem settled_publish (h : s.Settled config) (doc : Publication) :
    (publish K config outside s doc).2.Settled config := by
  obtain ⟨e, t, ht, -, heq⟩ | ⟨cid, t, -, ht, ⟨-, heq⟩ | ⟨-, call, hcall, heq⟩⟩ :=
    publish_cases K config outside s doc
  · rw [heq]
    exact h.of_unsent ht
  · rw [heq]
    exact h.of_unsent ht
  · rw [heq]
    exact (h.of_unsent ht).send hcall

/-- **Between calls, the set holds the CIDs of the envelopes sent.** -/
theorem settled_sessionAfter (docs : List Publication) :
    (sessionAfter K config outside docs).Settled config := by
  induction docs using List.reverseRecOn with
  | nil => exact Session.settled_new
  | append_singleton docs doc ih =>
    rw [sessionAfter_concat]
    exact settled_publish K config ih doc

/-! ### What a result says -/

/-- If the call returns `Ok`, the hash is that of the envelope it was given, and that envelope has
been sent in the session. -/
def Describes (outside : Session.Outside) (s : Session) (doc : Publication) : Prop :=
  ∀ r, (publish K config outside s doc).1 = .ok r →
    r.metadataHash = hashEnvelope K.sha256 r.cid doc.metadata ∧
      (publish K config outside s doc).2.Delivered config ⟨r.cid, doc.metadata⟩

/-- If the call returns `Ok`, an envelope with its CID has been sent in the session; and if none had
been before the call, it is the envelope the call was given, and the hash is that of it. -/
def Backs (outside : Session.Outside) (s : Session) (doc : Publication) : Prop :=
  ∀ r, (publish K config outside s doc).1 = .ok r →
    (∃ m, (publish K config outside s doc).2.Delivered config ⟨r.cid, m⟩) ∧
      ((∀ m, ¬ s.Delivered config ⟨r.cid, m⟩) →
        r.metadataHash = hashEnvelope K.sha256 r.cid doc.metadata ∧
          (publish K config outside s doc).2.Delivered config ⟨r.cid, doc.metadata⟩)

/-- The envelope that a call has sent at last. -/
theorem delivered_last {p : BroadcastPayload} {call : Call} (hcall : Delivers config p call)
    (seen : Finset String) (history : List Call) :
    Session.Delivered config ⟨seen, history ++ [call]⟩ p :=
  ⟨call, List.mem_append_right _ (List.mem_singleton_self call), hcall⟩

theorem backs (h : s.Settled config) (doc : Publication) : Backs K config outside s doc := by
  intro r hr
  obtain ⟨e, t, -, -, heq⟩ | ⟨cid, t, -, ht, ⟨hmem, heq⟩ | ⟨-, call, hcall, heq⟩⟩ :=
    publish_cases K config outside s doc
  · rw [heq] at hr
    cases hr
  · rw [heq] at hr ⊢
    obtain rfl := Except.ok.inj hr
    obtain ⟨m, hm⟩ := (h cid).1 hmem
    exact ⟨⟨m, (ht.delivered _).2 hm⟩, fun hnone ↦ absurd hm (hnone m)⟩
  · rw [heq] at hr ⊢
    obtain rfl := Except.ok.inj hr
    exact ⟨⟨_, delivered_last config hcall _ _⟩, fun _ ↦ ⟨rfl, delivered_last config hcall _ _⟩⟩

/-- **When a result describes what was sent**: exactly if the document does not get a CID for which
only other metadata has been sent before. -/
theorem describes_iff (h : s.Settled config) (doc : Publication) :
    Describes K config outside s doc ↔
      ∀ cid, Assigns K config outside s doc.data cid → (∃ m, s.Delivered config ⟨cid, m⟩) →
        s.Delivered config ⟨cid, doc.metadata⟩ := by
  rw [Describes]
  obtain ⟨e, t, -, hnew, heq⟩ | ⟨cid, t, hcid, ht, ⟨hmem, heq⟩ | ⟨hnew, call, hcall, heq⟩⟩ :=
    publish_cases K config outside s doc
  · rw [heq]
    exact iff_of_true nofun fun cid hcid hsent ↦ absurd ((h cid).2 hsent) (hnew cid hcid)
  · rw [heq]
    constructor
    · intro hdescribes cid' hcid' _
      obtain rfl := Except.ok.inj (hcid.symm.trans hcid')
      exact (ht.delivered _).1 (hdescribes _ rfl).2
    · intro hsent r hr
      obtain rfl := Except.ok.inj hr
      exact ⟨rfl, (ht.delivered _).2 (hsent cid hcid ((h cid).1 hmem))⟩
  · rw [heq]
    refine iff_of_true (fun r hr ↦ ?_) fun cid' hcid' hsent ↦ ?_
    · obtain rfl := Except.ok.inj hr
      exact ⟨rfl, delivered_last config hcall _ _⟩
    · obtain rfl := Except.ok.inj (hcid.symm.trans hcid')
      exact absurd ((h cid).2 hsent) hnew

/-- **Results are backed**: of every call, whatever calls have been made before it. -/
theorem backs_of_calls (outside : Session.Outside) (earlier : List Publication)
    (doc : Publication) : Backs K config outside (sessionAfter K config outside earlier) doc :=
  backs K config (settled_sessionAfter K config earlier) doc

/-! ### A corrected title -/

/-- Services that are there: storage gives every document the same CID, and delivery accepts every
envelope. -/
def sampleServices : Session.Outside
  | _, .postFile _ _ => .ok ⟨true, "200 OK", .ok (.object [("cid", .string "QmFresh")])⟩
  | _, .postPayload _ _ => .ok ⟨true, "200 OK", .ok .null⟩
  | history, o => unreachable history o

/-- The envelope of a document, and the same with another title. -/
def correctedEnvelope : MetadataEnvelope :=
  { sampleEnvelope with title := "corrected" }

/-- What is done when the document is published and published again: two uploads, and a send after
the first. -/
def republishedHistory : List Call :=
  [⟨.postFile "http://127.0.0.1:8080/upload" [],
      .ok ⟨true, "200 OK", .ok (.object [("cid", .string "QmFresh")])⟩⟩,
    ⟨.postPayload "http://127.0.0.1:1/publish/whistleblower/v1/documents"
        ⟨"QmFresh", sampleEnvelope⟩, .ok ⟨true, "200 OK", .ok .null⟩⟩,
    ⟨.postFile "http://127.0.0.1:8080/upload" [],
      .ok ⟨true, "200 OK", .ok (.object [("cid", .string "QmFresh")])⟩⟩]

theorem publish_again :
    publish sampleCrates testConfig sampleServices
        (sessionAfter sampleCrates testConfig sampleServices [⟨[], sampleEnvelope⟩])
        ⟨[], correctedEnvelope⟩ =
      (.ok ⟨"QmFresh", hashEnvelope sampleCrates.sha256 "QmFresh" correctedEnvelope⟩,
        ⟨{"QmFresh"}, republishedHistory⟩) :=
  rfl

/-- **A hash of what was never sent**: the corrected envelope is not in what has been done. -/
theorem not_describes_again :
    ¬ Describes sampleCrates testConfig sampleServices
        (sessionAfter sampleCrates testConfig sampleServices [⟨[], sampleEnvelope⟩])
        ⟨[], correctedEnvelope⟩ := by
  have hnone : ∀ call ∈ republishedHistory,
      call.1 ≠ .postPayload "http://127.0.0.1:1/publish/whistleblower/v1/documents"
        ⟨"QmFresh", correctedEnvelope⟩ := by
    simp [republishedHistory, correctedEnvelope, sampleEnvelope]
  intro hdescribes
  rw [Describes, publish_again] at hdescribes
  obtain ⟨-, call, hcall, hsends, -⟩ := hdescribes _ rfl
  exact hnone call hcall (Option.some.inj hsends).symm

end Whistleblower.Indexer
