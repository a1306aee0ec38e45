import Whistleblower.BatchAnchor.Provenance
import Whistleblower.Basecamp.Published

/-!
# From the form to the registry

The whole way of a document: somebody fills in the form and uploads a file, the storage answers with
a CID, the app posts an envelope, the delivery carries it to the queues of any number of sites, and
any number of batch anchors there submit what they read. At the end stands a record in the registry.

What the parts guarantee adds up (`registry_tells`). Nothing is made up on the way: every record is
the anchor of a payload that one of the apps has posted for one of its uploads, under the CID its
storage has answered to this upload and with the hash of what its form has said. And nothing is
passed over: what lies in a queue up to the cursor of its site is in the registry.
-/

namespace Whistleblower.Basecamp

open Json BatchAnchor

variable {α δ ι : Type}

/-- Any number of apps, and what each of them has been through. -/
structure Apps (α : Type) where
  events : α → List Event
  outputs : α → List Output
  runs : ∀ a, ∃ m, app.run .new (events a) = some (m, outputs a)
  inRange : ∀ a, ∀ e ∈ events a, e.InRange

/-- The payload is what an envelope of one of the apps is read as. -/
def Apps.Published (A : Apps α) (p : BroadcastPayload) : Prop :=
  ∃ a body, .post (publishRequest body) ∈ A.outputs a ∧ BroadcastPayload.fromValue body = some p

/-- What is published tells of an upload of the app that has posted it. -/
theorem Apps.Published.tells {A : Apps α} {p : BroadcastPayload} (h : A.Published p) :
    ∃ a body, .post (publishRequest body) ∈ A.outputs a ∧
      BroadcastPayload.fromValue body = some p ∧ Tells (A.events a) p := by
  obtain ⟨a, body, hpost, hread⟩ := h
  obtain ⟨m, hrun⟩ := A.runs a
  obtain ⟨cid, form, size, now, rfl, hsize, hnow, htells⟩ :=
    exists_tells_of_post hrun (A.inRange a) hpost
  have hsame := hread
  rw [fromValue_envelope, if_pos ⟨hsize, hnow⟩] at hsame
  exact ⟨a, _, hpost, hread, Option.some.inj hsame ▸ htells⟩

variable [DecidableEq δ] [DecidableEq ι]

/-- **The registry tells of documents, and of all of them.** Any number of apps, sites and batch
anchors, interleaved in any way, with calls that fail and runs that are cut off, and a delivery that
carries to each queue nothing but what the apps have posted: every record is the anchor of a payload
that an app has posted, and that says what it has been told of one of its uploads, and everything in
a queue up to the cursor of its site whose CID can be decoded has a record. -/
theorem registry_tells [Nonempty δ] (K : Crates) (P : Platform) (A : Apps α) (path : δ → String)
    (home : ι → δ) {c : Parties.Config Op.Ret String (Option Unit) (Network P δ) ι}
    (hreach : (network (publishes K A.Published) path home).Reachable
      (fun i ↦ StartsRun K (path (home i)))
      (fun n ↦ n.registry.state = some ⟨[]⟩ ∧
        ∀ d, Initial K (n.worldAt d) ∧ QueueOf K A.Published (n.site d).queue) c) :
    ∃ state, c.1.registry.state = some state ∧
      (∀ r ∈ state.records, ∃ a body p, .post (publishRequest body) ∈ A.outputs a ∧
        BroadcastPayload.fromValue body = some p ∧ Tells (A.events a) p ∧ Anchors K r p) ∧
      ∀ d msgs, messages K (c.1.site d).queue = some msgs → ∀ m ∈ msgs,
        m.seq ≤ (c.1.site d).db.cursor → ∀ cid, decodeCid K m.payload.cid = .ok cid →
          ∃ r ∈ state.records, r.cid = cid := by
  have hinitial : ∀ n : Network P δ, (n.registry.state = some ⟨[]⟩ ∧
      ∀ d, Initial K (n.worldAt d) ∧ QueueOf K A.Published (n.site d).queue) →
      ∀ d, Initial K (n.worldAt d) ∧ Backed K A.Published (n.worldAt d) := by
    rintro n ⟨hempty, hsites⟩ d
    refine ⟨(hsites d).1, (hsites d).2, fun state hstate r hr ↦ ?_⟩
    obtain rfl := Option.some.inj (hempty.symm.trans hstate)
    exact absurd hr List.not_mem_nil
  obtain ⟨hinv, -⟩ := (backed K P A.Published).sound hinitial hreach
  obtain ⟨d₀⟩ := ‹Nonempty δ›
  obtain ⟨state, hstate⟩ := (hinv d₀).1.registry
  have hbacked : Backed K A.Published (c.1.worldAt d₀) := (hinv d₀).2
  refine ⟨state, hstate, fun r hr ↦ ?_, fun d msgs hmsgs m hm hle cid hcid ↦ ?_⟩
  · obtain ⟨p, hpublished, hanchors⟩ := hbacked.registry state hstate r hr
    obtain ⟨a, body, hpost, hread, htells⟩ := hpublished.tells
    exact ⟨a, body, p, hpost, hread, htells, hanchors⟩
  · obtain ⟨state', hstate', hmem⟩ := (hinv d).1.covered msgs hmsgs m hm hle cid hcid
    obtain rfl := Option.some.inj (hstate.symm.trans hstate')
    exact List.mem_map.1 hmem

/-! ### One app and one batch anchor -/

def leakForm : Form :=
  ⟨"title", "", ["tag"], true⟩

/-- A document is uploaded, and the storage answers with a CID of the right length. -/
def leakEvents : List Event :=
  [.uploadFile "/home/a/leak.pdf" leakForm (some []),
    .storageFinished 0 (.ok (some (.object [("cid", .string sampleCid)]))) 0 1700000000,
    .deliveryFinished 0 (.ok ())]

/-- What is sent of it. -/
def leakOutputs : List Output :=
  [.emit .uploadingChanged, .emit .statusChanged, .post (uploadRequest []),
    .emit .lastCidChanged, .emit .statusChanged,
    .post (publishRequest (envelope sampleCid leakForm 0 1700000000)),
    .emit .uploadingChanged, .emit .statusChanged, .emit (.uploadFinished sampleCid true ""),
    .emit .statusChanged]

def oneApp : Apps Unit where
  events _ := leakEvents
  outputs _ := leakOutputs
  runs _ := ⟨_, rfl⟩
  inRange _ := by simp [leakEvents, Event.InRange]

/-- The message that the delivery makes of it. -/
def leakMessage : DeliveryMsg :=
  ⟨7, payloadOf sampleCid leakForm 0 1700000000⟩

theorem published_leakMessage : oneApp.Published leakMessage.payload := by
  refine ⟨(), envelope sampleCid leakForm 0 1700000000, ?_, rfl⟩
  iterate 5 refine List.mem_cons_of_mem _ ?_
  exact List.mem_cons_self

/-- One site, whose queue holds the message, and an empty registry. -/
def leakNetwork : Network Account.samplePlatform Unit where
  registry := Account.emptyRegistry
  site _ := ⟨printedQueue [leakMessage], Db.fresh⟩

/-- How a run ends there. Irreducible, so that it is evaluated only on request. -/
@[irreducible] def leakOutcome : Except String (Option Unit) × World Account.samplePlatform :=
  (run sampleCrates queueCfg (onceArgs 50) 1).eval undisturbed (leakNetwork.worldAt ())

theorem cursor_leakOutcome : leakOutcome.2.db.cursor = 7 := by
  decide +kernel

theorem exists_reachable_leakNetwork : ∃ n : Network Account.samplePlatform Unit,
    (n.worldAt ()).db.cursor = 7 ∧
      ∀ (others : World Account.samplePlatform → World Account.samplePlatform → Prop)
        (Initial : Network Account.samplePlatform Unit → Prop), Initial leakNetwork →
        (network others (fun _ : Unit ↦ "queue") fun _ : Unit ↦ ()).Reachable
          (fun _ ↦ StartsRun sampleCrates "queue") Initial
            (n, Function.update (fun _ ↦ none) () none) := by
  have houtcome : (run sampleCrates queueCfg (onceArgs 50) 1).eval undisturbed
      (leakNetwork.worldAt ()) = leakOutcome := by
    unfold leakOutcome
    rfl
  have hworld := (Network.worldAt_eval_answerAt undisturbed ()
    (run sampleCrates queueCfg (onceArgs 50) 1) leakNetwork).trans (congrArg Prod.snd houtcome)
  refine ⟨_, (congrArg (fun w ↦ w.db.cursor) hworld).trans cursor_leakOutcome,
    fun others Initial hinitial ↦ ⟨leakNetwork, hinitial, ?_⟩⟩
  refine .head (.start (i := ()) rfl (startsRun_once 1))
    (Parties.reaches_eval _ _ () (fun o n ↦ ?_) _ _ _)
  exact ⟨_, performs_undisturbed o _, rfl⟩

/-- The registry tells of the document. -/
theorem registry_tells_leak : ∃ n : Network Account.samplePlatform Unit,
    (n.site ()).db.cursor = 7 ∧ ∃ state, n.registry.state = some state ∧
      ∀ r ∈ state.records, ∃ a body p, .post (publishRequest body) ∈ oneApp.outputs a ∧
        BroadcastPayload.fromValue body = some p ∧ Tells (oneApp.events a) p ∧
        Anchors sampleCrates r p := by
  have hqueue : messages sampleCrates (printedQueue [leakMessage]) = some [leakMessage] :=
    messages_printedQueue sampleCrates _
  have hinitial : leakNetwork.registry.state = some ⟨[]⟩ ∧
      ∀ d, Initial sampleCrates (leakNetwork.worldAt d) ∧
        QueueOf sampleCrates oneApp.Published (leakNetwork.site d).queue := by
    refine ⟨Account.emptyRegistry_state, fun d ↦ ⟨⟨⟨_, hqueue, List.pairwise_singleton _ _,
      fun m hm ↦ ?_⟩, ⟨_, Account.emptyRegistry_state⟩, rfl⟩, fun msgs hmsgs m hm ↦ ?_⟩⟩
    · obtain rfl := List.mem_singleton.1 hm
      decide
    · obtain rfl := Option.some.inj (hqueue.symm.trans hmsgs)
      obtain rfl := List.mem_singleton.1 hm
      exact published_leakMessage
  obtain ⟨n, hcursor, hreach⟩ := exists_reachable_leakNetwork
  obtain ⟨state, hstate, htells, -⟩ := registry_tells sampleCrates Account.samplePlatform oneApp
    (fun _ : Unit ↦ "queue") (fun _ : Unit ↦ ())
    (hreach _ (fun n ↦ n.registry.state = some ⟨[]⟩ ∧ ∀ d, Initial sampleCrates (n.worldAt d) ∧
      QueueOf sampleCrates oneApp.Published (n.site d).queue) hinitial)
  exact ⟨n, hcursor, state, hstate, htells⟩

end Whistleblower.Basecamp
