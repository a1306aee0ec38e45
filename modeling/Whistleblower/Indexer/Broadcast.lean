import Whistleblower.Indexer.Machine
import Whistleblower.Indexer.Wire

/-!
# Broadcasting

`broadcast` of `document-indexer/src/lib.rs`, over its two backends. A CID is broadcast once in a
session: the call enters the CID into the set before it sends, and takes it out again if the send
fails. Between the two, the set says that a CID has been broadcast that is still being sent.
-/

namespace Whistleblower.Indexer

variable (config : IndexerConfig)

/-- `broadcast_via_logoscore`. -/
def broadcastViaLogoscore (payload : BroadcastPayload) (logoscoreBin modulesDir : String) :
    Proc Unit := do
  let expr ← question (broadcastExpr config.deliveryTopic payload)
  let out ← runLogoscore ⟨logoscoreBin, modulesDir, "delivery_module", expr⟩
  if out.success then .pure ()
  else bail ("delivery_module send failed: " ++ out.stderr)

/-- `broadcast_via_http`. -/
def broadcastViaHttp (payload : BroadcastPayload) : Proc Unit :=
  .op (.postPayload (config.deliveryUrl ++ "/publish/" ++ config.deliveryTopic) payload) fun
    | .error text => bail text
    | .ok response =>
      if response.success then .pure ()
      else bail ("delivery broadcast failed: " ++ response.status)

/-- The send of a broadcast, by the backend. -/
def send (payload : BroadcastPayload) : Proc Unit :=
  match config.backend with
  | .logosCore logoscoreBin modulesDir =>
    broadcastViaLogoscore config payload logoscoreBin modulesDir
  | .http => broadcastViaHttp config payload

/-- What a broadcast does with the result of its send. -/
def settle (cid : String) : Except String Unit → Proc Unit
  | .ok () => .pure ()
  | .error text => do
    -- a failed broadcast does not poison the set
    removeBroadcasted cid
    bail text

/-- `broadcast`. -/
def broadcast (payload : BroadcastPayload) : Proc Unit := do
  if ← insertBroadcasted payload.cid then
    settle payload.cid (← result (send config payload))
  else .pure ()

/-! ### The send of a broadcast -/

/-- The operation by which an envelope is sent. There is none if the topic cannot be written into
an expression. -/
def sendOp (payload : BroadcastPayload) : Option Op :=
  match config.backend with
  | .logosCore logoscoreBin modulesDir =>
    match broadcastExpr config.deliveryTopic payload with
    | .ok expr => some (.logoscore ⟨logoscoreBin, modulesDir, "delivery_module", expr⟩)
    | .error _ => none
  | .http => some (.postPayload (config.deliveryUrl ++ "/publish/" ++ config.deliveryTopic) payload)

/-- The command has exited with success, or the service has answered with success. -/
def succeeded : (o : Op) → o.Ret → Bool
  | .logoscore _, .ok out => out.success
  | .postPayload _ _, .ok response => response.success
  | _, _ => false

variable {config}

/-- The two operations that send. -/
theorem sendOp_cases {p : BroadcastPayload} {o : Op} (h : sendOp config p = some o) :
    (∃ logoscoreBin modulesDir expr, config.backend = .logosCore logoscoreBin modulesDir ∧
      broadcastExpr config.deliveryTopic p = .ok expr ∧
      o = .logoscore ⟨logoscoreBin, modulesDir, "delivery_module", expr⟩) ∨
    (config.backend = .http ∧
      o = .postPayload (config.deliveryUrl ++ "/publish/" ++ config.deliveryTopic) p) := by
  rw [sendOp] at h
  cases hbackend : config.backend with
  | logosCore logoscoreBin modulesDir =>
    simp only [hbackend] at h
    cases hexpr : broadcastExpr config.deliveryTopic p with
    | error text => simp [hexpr] at h
    | ok expr =>
      simp only [hexpr, Option.some.injEq] at h
      exact .inl ⟨logoscoreBin, modulesDir, expr, rfl, rfl, h.symm⟩
  | http =>
    simp only [hbackend, Option.some.injEq] at h
    exact .inr ⟨rfl, h.symm⟩

/-- **An operation sends one envelope at most.** -/
theorem sendOp_inj {p q : BroadcastPayload} {o : Op} (hp : sendOp config p = some o)
    (hq : sendOp config q = some o) : p = q := by
  obtain ⟨bin, dir, expr, -, hexpr, rfl⟩ | ⟨-, rfl⟩ := sendOp_cases hp
  · obtain ⟨bin', dir', expr', -, hexpr', heq⟩ | ⟨-, heq⟩ := sendOp_cases hq
    · rw [Op.logoscore.injEq, LogoscoreCommand.mk.injEq] at heq
      exact broadcastExpr_inj hexpr (heq.2.2.2 ▸ hexpr')
    · cases heq
  · obtain ⟨bin', dir', expr', -, hexpr', heq⟩ | ⟨-, heq⟩ := sendOp_cases hq
    · cases heq
    · rw [Op.postPayload.injEq] at heq
      exact heq.2

/-- A broadcast with no operation to send by fails before anything is run. -/
theorem send_of_none {p : BroadcastPayload} (h : sendOp config p = none) :
    ∃ text, send config p = bail text := by
  rw [sendOp] at h
  rw [send]
  cases hbackend : config.backend with
  | logosCore logoscoreBin modulesDir =>
    simp only [hbackend] at h
    cases hexpr : broadcastExpr config.deliveryTopic p with
    | ok expr => simp [hexpr] at h
    | error text => exact ⟨text, by simp [broadcastViaLogoscore, hexpr, question, bail]⟩
  | http => simp [hbackend] at h

/-- A send is its operation, and what comes of it is what the operation says. -/
theorem send_of_some {p : BroadcastPayload} {o : Op} (h : sendOp config p = some o) :
    ∃ k, send config p = .op o k ∧
      ∀ r, (succeeded o r = true → k r = .pure ()) ∧
        (succeeded o r = false → ∃ text, k r = bail text) := by
  rw [send]
  obtain ⟨bin, dir, expr, hbackend, hexpr, rfl⟩ | ⟨hbackend, rfl⟩ := sendOp_cases h
  · have hsend : broadcastViaLogoscore config p bin dir =
        .op (.logoscore ⟨bin, dir, "delivery_module", expr⟩) fun r ↦
          question r >>= fun out ↦
            if out.success then .pure ()
            else bail ("delivery_module send failed: " ++ out.stderr) := by
      rw [broadcastViaLogoscore, hexpr]
      rfl
    rw [hbackend]
    refine ⟨_, hsend, fun r ↦ ?_⟩
    cases r with
    | error text => exact ⟨fun hok ↦ absurd hok (by simp [succeeded]), fun _ ↦ ⟨text, rfl⟩⟩
    | ok out => exact ⟨fun hok ↦ if_pos hok, fun hfail ↦ ⟨_, if_neg (Bool.eq_false_iff.1 hfail)⟩⟩
  · rw [hbackend]
    refine ⟨_, rfl, fun r ↦ ?_⟩
    cases r with
    | error text => exact ⟨fun hok ↦ absurd hok (by simp [succeeded]), fun _ ↦ ⟨text, rfl⟩⟩
    | ok response =>
      exact ⟨fun hok ↦ if_pos hok, fun hfail ↦ ⟨_, if_neg (Bool.eq_false_iff.1 hfail)⟩⟩

variable (config) in
/-- **What a send can be**: an error, or its operation, behind which there is nothing but an error
at most. -/
theorem send_cases (p : BroadcastPayload) :
    (∃ text, send config p = bail text) ∨ ∃ o k, sendOp config p = some o ∧
      send config p = .op o k ∧ ∀ r, k r = .pure () ∨ ∃ text, k r = bail text := by
  cases ho : sendOp config p with
  | none => exact .inl (send_of_none ho)
  | some o =>
    obtain ⟨k, hsend, hk⟩ := send_of_some ho
    refine .inr ⟨o, k, rfl, hsend, fun r ↦ ?_⟩
    cases hok : succeeded o r with
    | true => exact .inl ((hk r).1 hok)
    | false => exact .inr ((hk r).2 hok)

end Whistleblower.Indexer
