import Whistleblower.Indexer.Envelope

/-!
# The broadcast on the wire

`broadcast_via_logoscore` of `document-indexer/src/lib.rs` sends an envelope by handing `logoscore`
an expression with two string literals in it, the topic and the envelope. The envelope is sent as
the hexadecimal digits of its JSON text.
-/

namespace Whistleblower.Indexer

/-- The bytes a topic may have. -/
def isTopicByte (b : UInt8) : Bool :=
  let c := Char.ofNat b.toNat
  c.isAlphanum || c == '/' || c == '.' || c == '-' || c == '_'

/-- The wire payload: the envelope JSON in hexadecimal. -/
def wirePayload (payload : BroadcastPayload) : List Char :=
  hexEncode payload.toString.utf8

/-- The expression `broadcast_via_logoscore` runs, or its error before anything is run. -/
def broadcastExpr (deliveryTopic : String) (payload : BroadcastPayload) : Except String String :=
  if deliveryTopic = "" ∨ !deliveryTopic.utf8.all isTopicByte then
    .error "delivery_topic must be [A-Za-z0-9._/-]+"
  else
    .ok ("send(\"" ++ deliveryTopic ++ "\", \"" ++ String.ofList (wirePayload payload) ++ "\")")

theorem wirePayload_inj {p q : BroadcastPayload} : wirePayload p = wirePayload q ↔ p = q := by
  refine ⟨fun h ↦ ?_, congrArg wirePayload⟩
  have hbytes := hexDecode_hexEncode p.toString.utf8
  rw [show hexEncode p.toString.utf8 = hexEncode q.toString.utf8 from h,
    hexDecode_hexEncode] at hbytes
  exact BroadcastPayload.toString_inj.1 (String.utf8_inj.1 (Option.some.inj hbytes).symm)

/-- **Different envelopes have different expressions.** -/
theorem broadcastExpr_inj {topic expr : String} {p q : BroadcastPayload}
    (hp : broadcastExpr topic p = .ok expr) (hq : broadcastExpr topic q = .ok expr) : p = q := by
  rw [broadcastExpr] at hp hq
  split at hp
  · cases hp
  · rename_i htopic
    rw [if_neg htopic] at hq
    have heq := congrArg String.toList (Except.ok.inj (hp.trans hq.symm))
    simp only [String.toList_append, List.append_cancel_left_eq, List.append_cancel_right_eq,
      String.toList_ofList] at heq
    exact wirePayload_inj.1 heq

end Whistleblower.Indexer
