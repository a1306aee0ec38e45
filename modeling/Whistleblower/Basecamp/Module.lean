import Whistleblower.Foundations.Json.Grammar
import Whistleblower.Foundations.Reactor

/-!
# The app's module

`WhistleblowerModule` of `basecamp-app/src/whistleblower_impl.cpp`, which the QML pages talk to. It
runs on one event loop: a call from a page and the `finished` signal of a network reply are events,
and the slot of each runs to its end before the next. In between there are the replies that have not
finished, each with what its slot has captured.

A slot changes the three properties, emits signals and posts requests, in the order in which they
are listed here.
-/

namespace Whistleblower.Basecamp

open Json

def STORAGE_URL : String := "http://127.0.0.1:8080"
def DELIVERY_URL : String := "http://127.0.0.1:9090"
def DELIVERY_TOPIC : String := "whistleblower/v1/documents"

/-- The arguments of `uploadFile` behind the file. -/
structure Form where
  title : String
  description : String
  tags : List String
  anchorOnChain : Bool
  deriving DecidableEq

inductive Signal where
  | lastCidChanged
  | uploadingChanged
  | statusChanged
  | uploadFinished (cid : String) (success : Bool) (error : String)
  deriving DecidableEq

/-- A request that leaves the machine. -/
inductive Request where
  /-- A form of one part, with this content disposition and the bytes of a file. -/
  | postFile (url disposition : String) (contents : List UInt8)
  | postJson (url contentType : String) (body : Value)

inductive Output where
  | emit (signal : Signal)
  | post (request : Request)

/-- A reply that has not finished, with what its slot has captured. -/
inductive Reply where
  /-- The answer of the storage to a file. -/
  | storage (form : Form)
  /-- The answer of the delivery to an envelope. The envelope is what has been posted; the slot has
  no use for it. -/
  | delivery (envelope : Value) (cid : String) (anchorOnChain : Bool)

structure WhistleblowerModule where
  lastCid : String
  uploading : Bool
  status : String
  replies : List Reply

/-- The module as it is constructed. -/
def WhistleblowerModule.new : WhistleblowerModule := ⟨"", false, "", []⟩

inductive Event where
  /-- `uploadFile`, for the local file of a URL, and what is read from it if it can be opened. -/
  | uploadFile (localFile : String) (form : Form) (contents : Option (List UInt8))
  /-- The storage has answered: with an error, or with a body, if that is JSON. The size of the file
  and the seconds since the epoch are read then. -/
  | storageFinished (i : ℕ) (answer : Except String (Option Value)) (size now : ℤ)
  /-- The delivery has answered: with an error, or without one. -/
  | deliveryFinished (i : ℕ) (answer : Except String Unit)
  | runBatchAnchor

/-! ### The slots -/

/-- A `qint64` in a JSON object. -/
def jsonOfInt (n : ℤ) : Value :=
  .number (match n with
    | .ofNat k => .posInt (UInt64.ofNat k)
    | .negSucc k => .other ('-' :: Nat.toDigits 10 (k + 1)))

/-- One hour, to which the timestamp is coarsened. C++ divides towards zero. -/
def hourBucket (now : ℤ) : ℤ :=
  now.tdiv 3600 * 3600

/-- The envelope, as a `QJsonObject`: sorted by key. -/
def envelope (cid : String) (form : Form) (size now : ℤ) : Value :=
  .object [("cid", .string cid),
    ("content_type", .string "application/octet-stream"),
    ("description", .string form.description),
    ("size_bytes", jsonOfInt size),
    ("tags", .array (form.tags.map .string)),
    ("timestamp", jsonOfInt (hourBucket now)),
    ("title", .string form.title)]

/-- The request that uploads a file. -/
def uploadRequest (contents : List UInt8) : Request :=
  .postFile (STORAGE_URL ++ "/upload") "form-data; name=\"file\"; filename=\"document.bin\""
    contents

/-- The request that broadcasts an envelope. -/
def publishRequest (body : Value) : Request :=
  .postJson (DELIVERY_URL ++ "/publish/" ++ DELIVERY_TOPIC) "application/json" body

/-- `doc.object().value("cid").toString()`: empty where there is no such string. -/
def cidOfBody (body : Option Value) : String :=
  ((body.getD .null).get "cid").asStr.getD ""

namespace WhistleblowerModule

variable (m : WhistleblowerModule)

/-- `setStatus`, and what is put out after it. -/
def setStatus (s : String) (rest : List Output) : WhistleblowerModule × List Output :=
  ({ m with status := s }, .emit .statusChanged :: rest)

/-- `uploadFile` -/
def uploadFile (localFile : String) (form : Form) :
    Option (List UInt8) → WhistleblowerModule × List Output
  | none => (m, [.emit (.uploadFinished "" false ("Cannot open file: " ++ localFile))])
  | some contents =>
    let m := { m with uploading := true, replies := m.replies ++ [Reply.storage form] }
    let (m, out) := m.setStatus "Uploading to Logos Storage..." [.post (uploadRequest contents)]
    (m, .emit .uploadingChanged :: out)

/-- The end of an upload, without a success: the status, and what `uploadFinished` says. -/
def fail (i : ℕ) (cid status error : String) : WhistleblowerModule × List Output :=
  let m := { m with uploading := false, replies := m.replies.eraseIdx i }
  let (m, out) := m.setStatus status [.emit (.uploadFinished cid false error)]
  (m, .emit .uploadingChanged :: out)

/-- `runBatchAnchor` -/
def runBatchAnchor : WhistleblowerModule × List Output :=
  m.setStatus "Running batch anchor... (see batch-anchor CLI for details)" []

/-- The slot of the reply to a file. -/
def storageSlot (i : ℕ) (form : Form) (answer : Except String (Option Value)) (size now : ℤ) :
    WhistleblowerModule × List Output :=
  match answer with
  | .error e => m.fail i "" ("Upload failed: " ++ e) e
  | .ok body =>
    let cid := cidOfBody body
    if cid = "" then m.fail i "" "Upload response missing CID" "missing CID"
    else
      let body := envelope cid form size now
      let m := { m with
        lastCid := cid, replies := m.replies.set i (.delivery body cid form.anchorOnChain) }
      let (m, out) := m.setStatus ("Uploaded. CID: " ++ cid ++ ". Broadcasting...")
        [.post (publishRequest body)]
      (m, .emit .lastCidChanged :: out)

/-- The slot of the reply to an envelope. -/
def deliverySlot (i : ℕ) (cid : String) (anchorOnChain : Bool) (answer : Except String Unit) :
    WhistleblowerModule × List Output :=
  match answer with
  | .error e => m.fail i cid ("Broadcast failed: " ++ e) e
  | .ok () =>
    let m := { m with uploading := false, replies := m.replies.eraseIdx i }
    let (m, out) := m.setStatus ("Published. CID: " ++ cid)
      [.emit (.uploadFinished cid true "")]
    if anchorOnChain then
      let (m, out') := m.runBatchAnchor
      (m, .emit .uploadingChanged :: (out ++ out'))
    else (m, .emit .uploadingChanged :: out)

/-- The reaction to an event. A reply that is not there cannot finish. -/
def react : Event → Option (WhistleblowerModule × List Output)
  | .uploadFile localFile form contents => some (m.uploadFile localFile form contents)
  | .storageFinished i answer size now =>
    match m.replies[i]? with
    | some (.storage form) => some (m.storageSlot i form answer size now)
    | _ => none
  | .deliveryFinished i answer =>
    match m.replies[i]? with
    | some (.delivery _ cid anchorOnChain) => some (m.deliverySlot i cid anchorOnChain answer)
    | _ => none
  | .runBatchAnchor => some m.runBatchAnchor

end WhistleblowerModule

/-- The module on its event loop. -/
def app : Reactor WhistleblowerModule Event Output :=
  ⟨WhistleblowerModule.react⟩

/-- The module behind `UploadPage.qml`, whose button is disabled while an upload is in flight, as
far as `uploading` says. -/
def page : Reactor WhistleblowerModule Event Output where
  step m e := match e with
    | .uploadFile localFile form contents =>
      if m.uploading then none else m.react (.uploadFile localFile form contents)
    | e => m.react e

/-! ### What a reaction can be -/

/-- The ways in which an upload ends without a success: the reply it was waiting for, the CID and
the error that are reported, and the status. -/
inductive Ends (m : WhistleblowerModule) : Event → ℕ → String → String → String → Prop
  | upload {i form text size now} : m.replies[i]? = some (.storage form) →
      Ends m (.storageFinished i (.error text) size now) i "" ("Upload failed: " ++ text) text
  | noCid {i form body size now} : m.replies[i]? = some (.storage form) → cidOfBody body = "" →
      Ends m (.storageFinished i (.ok body) size now) i "" "Upload response missing CID"
        "missing CID"
  | broadcast {i body cid anchor text} : m.replies[i]? = some (.delivery body cid anchor) →
      Ends m (.deliveryFinished i (.error text)) i cid ("Broadcast failed: " ++ text) text

/-- Every way in which the module reacts. -/
inductive Reacts (m : WhistleblowerModule) :
    Event → WhistleblowerModule → List Output → Prop
  | notOpened {localFile form} : Reacts m (.uploadFile localFile form none) m
      [.emit (.uploadFinished "" false ("Cannot open file: " ++ localFile))]
  | uploads {localFile form contents} : Reacts m (.uploadFile localFile form (some contents))
      { m with
        uploading := true
        replies := m.replies ++ [.storage form]
        status := "Uploading to Logos Storage..." }
      [.emit .uploadingChanged, .emit .statusChanged, .post (uploadRequest contents)]
  | fails {e i cid status error} : Ends m e i cid status error →
      Reacts m e
        { m with uploading := false, replies := m.replies.eraseIdx i, status := status }
        [.emit .uploadingChanged, .emit .statusChanged, .emit (.uploadFinished cid false error)]
  | publishes {i form body size now} : m.replies[i]? = some (.storage form) →
      cidOfBody body ≠ "" → Reacts m (.storageFinished i (.ok body) size now)
        { m with
          lastCid := cidOfBody body
          replies := m.replies.set i
            (.delivery (envelope (cidOfBody body) form size now) (cidOfBody body)
              form.anchorOnChain)
          status := "Uploaded. CID: " ++ cidOfBody body ++ ". Broadcasting..." }
        [.emit .lastCidChanged, .emit .statusChanged,
          .post (publishRequest (envelope (cidOfBody body) form size now))]
  | finishes {i body cid anchor} : m.replies[i]? = some (.delivery body cid anchor) →
      Reacts m (.deliveryFinished i (.ok ()))
        { m with
          uploading := false
          replies := m.replies.eraseIdx i
          status := if anchor then "Running batch anchor... (see batch-anchor CLI for details)"
            else "Published. CID: " ++ cid }
        ([.emit .uploadingChanged, .emit .statusChanged, .emit (.uploadFinished cid true "")] ++
          if anchor then [.emit .statusChanged] else [])
  | anchors : Reacts m .runBatchAnchor
      { m with status := "Running batch anchor... (see batch-anchor CLI for details)" }
      [.emit .statusChanged]

theorem reacts_of_react {m m' : WhistleblowerModule} {e : Event} {out : List Output}
    (h : m.react e = some (m', out)) : Reacts m e m' out := by
  cases e with
  | uploadFile localFile form contents =>
    cases contents with
    | none =>
      obtain ⟨rfl, rfl⟩ := Prod.mk.inj (Option.some.inj h)
      exact .notOpened
    | some contents =>
      obtain ⟨rfl, rfl⟩ := Prod.mk.inj (Option.some.inj h)
      exact .uploads
  | storageFinished i answer size now =>
    rw [WhistleblowerModule.react] at h
    split at h
    · next form hreply =>
      cases answer with
      | error text =>
        obtain ⟨rfl, rfl⟩ := Prod.mk.inj (Option.some.inj h)
        exact .fails (.upload hreply)
      | ok body =>
        rw [WhistleblowerModule.storageSlot] at h
        by_cases hcid : cidOfBody body = ""
        · simp only [hcid, if_true] at h
          obtain ⟨rfl, rfl⟩ := Prod.mk.inj (Option.some.inj h)
          exact .fails (.noCid hreply hcid)
        · simp only [if_neg hcid] at h
          obtain ⟨rfl, rfl⟩ := Prod.mk.inj (Option.some.inj h)
          exact .publishes hreply hcid
    · cases h
  | deliveryFinished i answer =>
    rw [WhistleblowerModule.react] at h
    split at h
    · next body cid anchor hreply =>
      cases answer with
      | error text =>
        obtain ⟨rfl, rfl⟩ := Prod.mk.inj (Option.some.inj h)
        exact .fails (.broadcast hreply)
      | ok _ =>
        cases anchor with
        | false =>
          obtain ⟨rfl, rfl⟩ := Prod.mk.inj (Option.some.inj h)
          exact .finishes hreply
        | true =>
          obtain ⟨rfl, rfl⟩ := Prod.mk.inj (Option.some.inj h)
          exact .finishes hreply
    · cases h
  | runBatchAnchor =>
    obtain ⟨rfl, rfl⟩ := Prod.mk.inj (Option.some.inj h)
    exact .anchors

/-- It does react in these ways. -/
theorem react_of_reacts {m m' : WhistleblowerModule} {e : Event} {out : List Output}
    (h : Reacts m e m' out) : m.react e = some (m', out) := by
  cases h with
  | notOpened => rfl
  | uploads => rfl
  | fails hends =>
    cases hends with
    | upload hreply =>
      simp only [WhistleblowerModule.react, hreply]
      rfl
    | noCid hreply hcid =>
      simp only [WhistleblowerModule.react, hreply, WhistleblowerModule.storageSlot, if_pos hcid]
      rfl
    | broadcast hreply =>
      simp only [WhistleblowerModule.react, hreply]
      rfl
  | publishes hreply hcid =>
    simp only [WhistleblowerModule.react, hreply, WhistleblowerModule.storageSlot, if_neg hcid]
    rfl
  | @finishes i body cid anchor hreply =>
    simp only [WhistleblowerModule.react, hreply]
    cases anchor with
    | false => rfl
    | true => rfl
  | anchors => rfl

end Whistleblower.Basecamp
