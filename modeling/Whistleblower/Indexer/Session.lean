import Whistleblower.Indexer.Broadcast
import Mathlib.Data.Finset.Insert

/-!
# A session of the indexer

The world of one `Indexer`: the set it keeps, and everything it has done outside so far, with the
answers. Only the set answers by a rule (`Answers`); whatever is outside may answer anything at any
time.

What has been sent can be read off the history. `Delivered` says that an operation that sends the
envelope has been answered with success.
-/

namespace Whistleblower.Indexer

/-- A call that has been made, with its answer. -/
abbrev Call := (o : Op) × o.Ret

structure Session where
  broadcasted : Finset String
  /-- The calls to the outside, in order. -/
  history : List Call

namespace Session

/-- The session of `Indexer::new`. -/
def new : Session := ⟨∅, []⟩

/-- What an operation may be answered. -/
def Answers (s : Session) : (o : Op) → o.Ret → Prop
  | .insertBroadcasted cid, fresh => fresh = decide (cid ∉ s.broadcasted)
  | _, _ => True

/-- The session after a call has been answered. -/
def after (s : Session) : (o : Op) → o.Ret → Session
  | .insertBroadcasted cid, _ => { s with broadcasted := insert cid s.broadcasted }
  | .removeBroadcasted cid, _ => { s with broadcasted := s.broadcasted.erase cid }
  | o, r => { s with history := s.history ++ [⟨o, r⟩] }

/-- A call may be answered so, and leaves this session. -/
def performs (o : Op) (s : Session) (r : o.Ret) (t : Session) : Prop :=
  s.Answers o r ∧ t = s.after o r

/-- The outside, as a strategy: its answer to each call, by what has happened before. -/
abbrev Outside := List Call → (o : Op) → o.Ret

/-- The answer to a call, and the session after it. -/
def respond (outside : Outside) (o : Op) (s : Session) : o.Ret × Session :=
  let r : o.Ret := match o with
    | .insertBroadcasted cid => decide (cid ∉ s.broadcasted)
    | o => outside s.history o
  (r, s.after o r)

theorem performs_respond (outside : Outside) (o : Op) (s : Session) :
    performs o s (respond outside o s).1 (respond outside o s).2 := by
  refine ⟨?_, rfl⟩
  cases o with
  | insertBroadcasted cid => exact rfl
  | _ => exact trivial

end Session

/-! ### What has been sent -/

variable (config : IndexerConfig)

/-- The call has sent the envelope. -/
def Delivers (payload : BroadcastPayload) (call : Call) : Prop :=
  sendOp config payload = some call.1 ∧ succeeded call.1 call.2 = true

/-- The envelope has been sent in the session. -/
def Session.Delivered (s : Session) (payload : BroadcastPayload) : Prop :=
  ∃ call ∈ s.history, Delivers config payload call

variable {config} {p : BroadcastPayload} {o : Op} {s : Session}

theorem Delivers.unique {q : BroadcastPayload} {call : Call} (hp : Delivers config p call)
    (hq : Delivers config q call) : p = q :=
  sendOp_inj hp.1 hq.1

/-- Sending leaves the set alone. -/
theorem after_of_sendOp (h : sendOp config p = some o) (r : o.Ret) :
    s.after o r = { s with history := s.history ++ [⟨o, r⟩] } := by
  obtain ⟨bin, dir, expr, -, -, rfl⟩ | ⟨-, rfl⟩ := sendOp_cases h
  · rfl
  · rfl

end Whistleblower.Indexer
