import Whistleblower.Foundations.CallSyntax
import Whistleblower.Indexer.Upload

/-!
# What `logoscore` is told to do

Two calls of the indexer put foreign text into an expression: `broadcast_via_logoscore` the topic
and the envelope, `upload_via_logoscore` the path of the document. They defend themselves in two
ways. The topic has to be made of certain characters, and the envelope is sent in hexadecimal; of
the path, only the two characters that can end a literal or change it are refused.

Either is enough (`expressions_read`): in any grammar of calls, an expression that is run denotes
the call it was meant to be, and no other.
-/

namespace Whistleblower.Indexer

open CallSyntax

/-! ### The texts that are put in -/

/-- A text that is put between quotes. -/
theorem plain_of_notMem {t : List Char} (hquote : '"' ∉ t) (hbackslash : '\\' ∉ t) : Plain t := by
  intro c hc
  constructor
  · rintro rfl
    exact hquote hc
  · rintro rfl
    exact hbackslash hc

/-- The bytes of a character are among those of the string. -/
theorem mem_utf8_of_mem {s : String} {c : Char} (hc : c ∈ s.toList) {b : UInt8}
    (hb : b ∈ (String.singleton c).utf8) : b ∈ s.utf8 := by
  obtain ⟨before, after, hsplit⟩ := List.append_of_mem hc
  have hs : s = String.ofList before ++ (String.singleton c ++ String.ofList after) := by
    rw [← String.toList_inj, hsplit]
    simp
  rw [hs, String.utf8_append, String.utf8_append]
  exact List.mem_append_right _ (List.mem_append_left _ hb)

theorem utf8_of_fromUTF8? {bs : List UInt8} {s : String}
    (h : String.fromUTF8? ⟨bs.toArray⟩ = some s) : s.utf8 = bs := by
  rw [String.fromUTF8?] at h
  split at h
  · obtain rfl := Option.some.inj h
    rfl
  · cases h

/-- A topic that has been let through stays where it is put. -/
theorem plain_topic {topic : String} (h : topic.utf8.all isTopicByte = true) :
    Plain topic.toList := by
  rw [List.all_eq_true] at h
  refine plain_of_notMem (fun hquote ↦ ?_) (fun hbackslash ↦ ?_)
  · exact absurd (h 34 (mem_utf8_of_mem hquote (by decide))) (by decide)
  · exact absurd (h 92 (mem_utf8_of_mem hbackslash (by decide))) (by decide)

/-- The hexadecimal digits. -/
def hexDigits : List Char :=
  "0123456789abcdef".toList

theorem mem_hexDigits_of_mem_hexEncode {bs : List UInt8} {c : Char} (hc : c ∈ hexEncode bs) :
    c ∈ hexDigits := by
  have hdigit : ∀ n < 16, Nat.digitChar n ∈ hexDigits := by decide
  obtain ⟨b, -, hb⟩ := List.mem_flatMap.1 hc
  have hlt := b.toNat_lt
  rcases List.mem_cons.1 hb with rfl | hlow
  · exact hdigit _ (by omega)
  · rw [List.mem_singleton.1 hlow]
    exact hdigit _ (by omega)

theorem plain_wirePayload (payload : BroadcastPayload) : Plain (wirePayload payload) := by
  refine plain_of_notMem (fun hquote ↦ ?_) (fun hbackslash ↦ ?_)
  · exact absurd (mem_hexDigits_of_mem_hexEncode hquote) (by decide)
  · exact absurd (mem_hexDigits_of_mem_hexEncode hbackslash) (by decide)

/-! ### The expressions -/

variable (G : CallSyntax)

theorem reads_broadcastExpr {topic expr : String} {payload : BroadcastPayload}
    (h : broadcastExpr topic payload = .ok expr) :
    G.Reads expr.toList ⟨"send".toList, [topic.toList, wirePayload payload]⟩ := by
  rw [broadcastExpr] at h
  split at h
  · cases h
  · next hallowed =>
    rw [not_or, Bool.not_eq_true, Bool.not_eq_false'] at hallowed
    obtain rfl := Except.ok.inj h
    have htext : ("send(\"" ++ topic ++ "\", \"" ++ String.ofList (wirePayload payload) ++
        "\")").toList = "send".toList ++ ('(' :: '"' :: (topic.toList ++
          ('"' :: ',' :: ' ' :: '"' :: (wirePayload payload ++ ['"', ')'])))) := by
      have hopen : "send(\"".toList = "send".toList ++ ['(', '"'] := by decide +kernel
      have hbetween : "\", \"".toList = ['"', ',', ' ', '"'] := by decide +kernel
      have hclose : "\")".toList = ['"', ')'] := by decide +kernel
      simp only [String.toList_append, String.toList_ofList, hopen, hbetween, hclose,
        List.append_assoc, List.cons_append, List.nil_append]
    rw [htext]
    exact G.reads_two (by decide) (List.all_iff_forall_prop.1 (by decide))
      (plain_topic hallowed.2) (plain_wirePayload payload)

theorem reads_uploadExpr {tmp : List UInt8} {expr : String} (h : uploadExpr tmp = .ok expr) :
    ∃ path : String, path.utf8 = tmp ∧
      G.Reads expr.toList
        ⟨"storage.upload".toList, [path.toList, "whistleblower-doc".toList]⟩ := by
  rw [uploadExpr] at h
  cases hpath : String.fromUTF8? ⟨tmp.toArray⟩ with
  | none =>
    rw [hpath] at h
    cases h
  | some path =>
    simp only [hpath] at h
    split at h
    · cases h
    · next hallowed =>
      rw [not_or] at hallowed
      obtain rfl := Except.ok.inj h
      refine ⟨path, utf8_of_fromUTF8? hpath, ?_⟩
      have htext : ("storage.upload(\"" ++ path ++ "\", \"whistleblower-doc\")").toList =
          "storage.upload".toList ++ ('(' :: '"' :: (path.toList ++ ('"' :: ',' :: ' ' :: '"' ::
            ("whistleblower-doc".toList ++ ['"', ')'])))) := by
        have hopen : "storage.upload(\"".toList = "storage.upload".toList ++ ['(', '"'] := by
          decide +kernel
        have hclose : "\", \"whistleblower-doc\")".toList =
            '"' :: ',' :: ' ' :: '"' :: ("whistleblower-doc".toList ++ ['"', ')']) := by
          decide +kernel
        simp only [String.toList_append, hopen, hclose, List.append_assoc, List.cons_append,
          List.nil_append]
      rw [htext]
      exact G.reads_two (by decide) (List.all_iff_forall_prop.1 (by decide))
        (plain_of_notMem hallowed.1 hallowed.2) (plain_of_notMem (by decide) (by decide))

/-! ### Running a command -/

/-- The operation runs a command. -/
def Op.Spawns : Op → Prop
  | .logoscore _ => True
  | .spel _ => True
  | _ => False

/-- Before it has run a command, a process fails, or runs one of these; after it, it runs no
other. -/
def SpawnsOnce {α : Type} (A : Op → Prop) : Proc α → Prop
  | .pure _ => False
  | .fail _ => True
  | .op o k =>
    (o.Spawns → A o ∧ ∀ answer, (k answer).CallsOnly fun o ↦ ¬ o.Spawns) ∧
      (¬ o.Spawns → ∀ answer, SpawnsOnce A (k answer))

/-- A command is run, and what follows runs none. -/
theorem spawnsOnce_logoscore {α : Type} {A : Op → Prop} {command : LogoscoreCommand}
    {k : Except String Output → Proc α} (hA : A (.logoscore command))
    (hk : ∀ answer, (k answer).CallsOnly fun o ↦ ¬ o.Spawns) :
    SpawnsOnce A (.op (.logoscore command) k) :=
  ⟨fun _ ↦ ⟨hA, hk⟩, fun hother ↦ absurd trivial hother⟩

/-- Another operation comes first. -/
theorem spawnsOnce_op {α : Type} {A : Op → Prop} {o : Op} {k : o.Ret → Proc α} (ho : ¬ o.Spawns)
    (hk : ∀ answer, SpawnsOnce A (k answer)) : SpawnsOnce A (.op o k) :=
  ⟨fun hspawns ↦ absurd hspawns ho, fun _ ↦ hk⟩

/-- **`logoscore` is told what was meant.** In any grammar of calls: a broadcast fails before
anything is run, or runs the expression that sends exactly the topic and the hexadecimal digits of
the envelope's text. An upload fails before anything is run, or runs the expression that uploads
exactly the path it has written to. -/
theorem expressions_read (G : CallSyntax) (K : Crates) (config : IndexerConfig)
    (logoscoreBin modulesDir : String) :
    (∀ payload : BroadcastPayload,
      SpawnsOnce (fun o ↦ ∃ expr wire,
        o = .logoscore ⟨logoscoreBin, modulesDir, "delivery_module", expr⟩ ∧
        G.Reads expr.toList ⟨"send".toList, [config.deliveryTopic.toList, wire]⟩ ∧
        (∀ c ∈ wire, c ∈ hexDigits) ∧ hexDecode wire = some payload.toString.utf8)
        (broadcastViaLogoscore config payload logoscoreBin modulesDir)) ∧
    ∀ data : List UInt8, ∃ k, uploadViaLogoscore K data logoscoreBin modulesDir = .op .tempDir k ∧
      ∀ tempDir, SpawnsOnce (fun o ↦ ∃ expr path : String,
        o = .logoscore ⟨logoscoreBin, modulesDir, "agent_module", expr⟩ ∧
        path.utf8 = tempPath K tempDir data ∧
        G.Reads expr.toList ⟨"storage.upload".toList, [path.toList, "whistleblower-doc".toList]⟩)
        (k tempDir) := by
  constructor
  · intro payload
    rw [broadcastViaLogoscore]
    cases hexpr : broadcastExpr config.deliveryTopic payload with
    | error text => exact trivial
    | ok expr =>
      refine spawnsOnce_logoscore ⟨expr, wirePayload payload, rfl, reads_broadcastExpr G hexpr,
        fun c ↦ mem_hexDigits_of_mem_hexEncode, hexDecode_hexEncode _⟩ fun answer ↦ ?_
      refine (callsOnly_question answer).bind fun out ↦ ?_
      split
      · exact trivial
      · exact trivial
  · intro data
    rw [uploadViaLogoscore_eq]
    refine ⟨_, rfl, fun tempDir ↦ spawnsOnce_op id fun written ↦ ?_⟩
    cases written with
    | error text => exact trivial
    | ok _ =>
      show SpawnsOnce _ (uploadWritten logoscoreBin modulesDir (tempPath K tempDir data))
      rw [uploadWritten]
      cases hexpr : uploadExpr (tempPath K tempDir data) with
      | error text => exact trivial
      | ok expr =>
        obtain ⟨path, hpath, hreads⟩ := reads_uploadExpr G hexpr
        refine spawnsOnce_logoscore ⟨expr, path, rfl, hpath, hreads⟩ fun answer ↦ ?_
        cases answer with
        | error text => exact trivial
        | ok out => exact ⟨id, fun _ ↦ callsOnly_question _⟩

end Whistleblower.Indexer
