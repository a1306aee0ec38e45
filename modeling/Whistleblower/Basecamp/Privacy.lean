import Whistleblower.Basecamp.Uploads

/-!
# What leaves the machine

The file is uploaded under a generic name, so as not to give away where it lies, and the timestamp
is coarsened to the hour, so as not to give away when it has been published. Both are statements
about two runs: whatever the paths, and whatever the minutes, the requests are the same
(`requests_eq_of_alike`).

So they are for the wish to anchor. The box on the page changes what the status says at the end, and
nothing that is sent.
-/

namespace Whistleblower.Basecamp

open Json

/-- The form without the wish to anchor. -/
def Form.plain (form : Form) : Form :=
  { form with anchorOnChain := false }

def Reply.plain : Reply → Reply
  | .storage form => .storage form.plain
  | .delivery body cid _ => .delivery body cid false

/-- An event without what is to be kept: where the file lies, the time within the hour, and the wish
to anchor. -/
def Event.plain : Event → Event
  | .uploadFile _ form contents => .uploadFile "" form.plain contents
  | .storageFinished i answer size now => .storageFinished i answer size (hourBucket now)
  | .deliveryFinished i answer => .deliveryFinished i answer
  | .runBatchAnchor => .runBatchAnchor

/-- Two events that differ in what is to be kept. -/
def Event.Alike (e e' : Event) : Prop :=
  e.plain = e'.plain

/-- Two modules that differ in the status and in the wish to anchor. -/
structure Alike (m n : WhistleblowerModule) : Prop where
  lastCid : m.lastCid = n.lastCid
  uploading : m.uploading = n.uploading
  replies : m.replies.map Reply.plain = n.replies.map Reply.plain

/-- What is sent. -/
def Output.request? : Output → Option Request
  | .post request => some request
  | .emit _ => none

variable {m n m' : WhistleblowerModule} {e e' : Event} {out : List Output} {i : ℕ}

/-! ### Related replies -/

/-- Where one of the modules waits for a reply, the other waits for a related one. -/
theorem Alike.getElem? (h : Alike m n) {reply : Reply} (hreply : m.replies[i]? = some reply) :
    ∃ reply', n.replies[i]? = some reply' ∧ reply'.plain = reply.plain := by
  have hplain : (n.replies.map Reply.plain)[i]? = some reply.plain := by
    rw [← h.replies, List.getElem?_map, hreply, Option.map_some]
  rw [List.getElem?_map, Option.map_eq_some_iff] at hplain
  exact hplain

theorem Alike.storage (h : Alike m n) {form : Form}
    (hreply : m.replies[i]? = some (.storage form)) :
    ∃ form' : Form, n.replies[i]? = some (.storage form') ∧ form'.plain = form.plain := by
  obtain ⟨reply, hreply', hplain⟩ := h.getElem? hreply
  cases reply with
  | storage form' => exact ⟨form', hreply', Reply.storage.inj hplain⟩
  | delivery body cid anchor => cases hplain

theorem Alike.delivery (h : Alike m n) {body : Value} {cid : String} {anchor : Bool}
    (hreply : m.replies[i]? = some (.delivery body cid anchor)) :
    ∃ anchor', n.replies[i]? = some (.delivery body cid anchor') := by
  obtain ⟨reply, hreply', hplain⟩ := h.getElem? hreply
  cases reply with
  | storage form => cases hplain
  | delivery body' cid' anchor' =>
    obtain ⟨rfl, rfl, -⟩ := Reply.delivery.inj hplain
    exact ⟨anchor', hreply'⟩

/-- The end of an upload leaves them alike, whatever the status. -/
theorem Alike.eraseIdx (h : Alike m n) (i : ℕ) (status status' : String) :
    Alike { m with uploading := false, replies := m.replies.eraseIdx i, status := status }
      { n with uploading := false, replies := n.replies.eraseIdx i, status := status' } := by
  refine ⟨h.lastCid, rfl, ?_⟩
  rw [← List.eraseIdx_map, ← List.eraseIdx_map, h.replies]

/-- The envelope shows the hour, and no wish. -/
theorem envelope_eq_of_plain {form form' : Form} (hform : form'.plain = form.plain) (cid : String)
    (size : ℤ) {now now' : ℤ} (hnow : hourBucket now' = hourBucket now) :
    envelope cid form' size now' = envelope cid form size now := by
  obtain ⟨title, description, tags, anchor⟩ := form
  obtain ⟨title', description', tags', anchor'⟩ := form'
  obtain ⟨rfl, rfl, rfl, -⟩ := Form.mk.inj hform
  rw [envelope, envelope, hnow]

/-! ### One step -/

/-- An upload that fails in one of them fails in the other, at the same place. -/
theorem Ends.of_alike (h : Alike m n) (he : e.Alike e') {cid status error : String}
    (hends : Ends m e i cid status error) : Ends n e' i cid status error := by
  cases hends with
  | @upload _ form text size now hreply =>
    obtain ⟨form', hreply', -⟩ := h.storage hreply
    cases e' with
    | storageFinished i' answer size' now' =>
      obtain ⟨rfl, rfl, -⟩ := Event.storageFinished.inj he
      exact .upload hreply'
    | _ => cases he
  | @noCid _ form body size now hreply hcid =>
    obtain ⟨form', hreply', -⟩ := h.storage hreply
    cases e' with
    | storageFinished i' answer size' now' =>
      obtain ⟨rfl, rfl, -⟩ := Event.storageFinished.inj he
      exact .noCid hreply' hcid
    | _ => cases he
  | @broadcast _ body cid anchor text hreply =>
    obtain ⟨anchor', hreply'⟩ := h.delivery hreply
    cases e' with
    | deliveryFinished i' answer =>
      obtain ⟨rfl, rfl⟩ := Event.deliveryFinished.inj he
      exact .broadcast hreply'
    | _ => cases he

/-- **Alike modules react to alike events with the same requests.** -/
theorem Alike.step (h : Alike m n) (he : e.Alike e') (hstep : m.react e = some (m', out)) :
    ∃ n' out', n.react e' = some (n', out') ∧ Alike m' n' ∧
      out'.filterMap Output.request? = out.filterMap Output.request? := by
  have hreact := reacts_of_react hstep
  cases hreact with
  | notOpened =>
    cases e' with
    | uploadFile localFile' form' contents' =>
      obtain ⟨-, -, rfl⟩ := Event.uploadFile.inj he
      exact ⟨n, _, react_of_reacts .notOpened, h, rfl⟩
    | _ => cases he
  | @uploads localFile form contents =>
    cases e' with
    | uploadFile localFile' form' contents' =>
      obtain ⟨-, hform, rfl⟩ := Event.uploadFile.inj he
      refine ⟨_, _, react_of_reacts .uploads, ⟨h.lastCid, rfl, ?_⟩, rfl⟩
      rw [List.map_append, List.map_append, h.replies, List.map_singleton, List.map_singleton,
        Reply.plain, Reply.plain, hform]
    | _ => cases he
  | @fails _ i cid status error hends =>
    exact ⟨_, _, react_of_reacts (.fails (hends.of_alike h he)), h.eraseIdx i _ _, rfl⟩
  | @publishes i form body size now hreply hcid =>
    obtain ⟨form', hreply', hform⟩ := h.storage hreply
    cases e' with
    | storageFinished i' answer size' now' =>
      obtain ⟨rfl, rfl, rfl, hnow⟩ := Event.storageFinished.inj he
      have henvelope := envelope_eq_of_plain hform (cidOfBody body) size hnow.symm
      refine ⟨_, _, react_of_reacts (.publishes hreply' hcid), ⟨rfl, h.uploading, ?_⟩, ?_⟩
      · rw [List.map_set, List.map_set, h.replies, Reply.plain, Reply.plain, henvelope]
      · rw [henvelope]
    | _ => cases he
  | @finishes i body cid anchor hreply =>
    obtain ⟨anchor', hreply'⟩ := h.delivery hreply
    cases e' with
    | deliveryFinished i' answer =>
      obtain ⟨rfl, rfl⟩ := Event.deliveryFinished.inj he
      refine ⟨_, _, react_of_reacts (.finishes hreply'), h.eraseIdx i _ _, ?_⟩
      cases anchor <;> cases anchor' <;> rfl
    | _ => cases he
  | anchors =>
    cases e' with
    | runBatchAnchor =>
      exact ⟨_, _, react_of_reacts .anchors, ⟨h.lastCid, h.uploading, h.replies⟩, rfl⟩
    | _ => cases he

/-! ### Two runs -/

/-- **What is sent gives nothing away.** Of two runs of the module on events that differ only in
where the files lie, in the time within the hour, and in whether anchoring is asked for, one goes
through as far as the other, and the same requests leave the machine in the same order. -/
theorem requests_eq_of_alike {es es' : List Event} (halike : List.Forall₂ Event.Alike es es')
    (h : app.run m es = some (m', out)) :
    ∃ n' out', app.run m es' = some (n', out') ∧
      out'.filterMap Output.request? = out.filterMap Output.request? := by
  obtain ⟨n', out', hrun, -, hsame⟩ := Reactor.simulates (R := Alike)
    (fun hrelated hevent hstep ↦ hrelated.step hevent hstep) (⟨rfl, rfl, rfl⟩ : Alike m m) halike h
  exact ⟨n', out', hrun, hsame⟩

/-- The document from another place, some minutes later, and not to be anchored. -/
def sampleEventsLater : List Event :=
  [.uploadFile "/media/usb/leak.pdf" ⟨"title", "", ["tag"], false⟩ (some []),
    .storageFinished 0 (.ok (some (.object [("cid", .string "zQm")]))) 0 1700000600,
    .deliveryFinished 0 (.ok ())]

/-- The same two requests leave the machine. -/
theorem requests_eq_of_alike_sampleEvents : ∃ m out n out',
    app.run .new sampleEvents = some (m, out) ∧ app.run .new sampleEventsLater = some (n, out') ∧
      out'.filterMap Output.request? = out.filterMap Output.request? := by
  obtain ⟨m, out, hrun, -⟩ := exists_run_sampleEvents
  have halike : List.Forall₂ Event.Alike sampleEvents sampleEventsLater :=
    .cons rfl (.cons rfl (.cons rfl .nil))
  obtain ⟨n, out', hrun', hsame⟩ := requests_eq_of_alike halike hrun
  exact ⟨m, out, n, out', hrun, hrun', hsame⟩

end Whistleblower.Basecamp
