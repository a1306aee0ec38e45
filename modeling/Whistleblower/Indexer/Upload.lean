import Whistleblower.Indexer.Broadcast
import Whistleblower.Indexer.EnvelopeHash
import Whistleblower.Indexer.Cid

/-!
# Uploading

`upload_with_retry` of `document-indexer/src/lib.rs`, over its two backends, and
`upload_and_broadcast`, the pipeline of the crate: upload, hash the envelope, broadcast it.

The `logoscore` backend puts the document into a file in the temp directory for the time of the
upload. The file is named by the digest of the document.
-/

namespace Whistleblower.Indexer

open Json

/-- Result returned by `upload_and_broadcast`. -/
structure IndexResult where
  cid : String
  metadataHash : Hash

variable (K : Crates) (config : IndexerConfig)

/-! ### One upload -/

/-- `Path::join` with a relative name. -/
def joinPath (dir : List UInt8) (name : String) : List UInt8 :=
  match dir.getLast? with
  | none => name.utf8
  | some b => if b = 47 then dir ++ name.utf8 else dir ++ 47 :: name.utf8

/-- Where `upload_via_logoscore` puts the document. -/
def tempPath (tempDir data : List UInt8) : List UInt8 :=
  joinPath tempDir ("whistleblower-upload-" ++ String.ofList (hexEncode (K.sha256 data).toList))

/-- The expression `upload_via_logoscore` runs, or its error before anything is run. -/
def uploadExpr (tmp : List UInt8) : Except String String :=
  match String.fromUTF8? ⟨tmp.toArray⟩ with
  | none => .error "temp path is not valid UTF-8"
  | some tmp =>
    if '"' ∈ tmp.toList ∨ '\\' ∈ tmp.toList then
      .error "temp path contains characters unsafe for the logoscore expression"
    else .ok ("storage.upload(\"" ++ tmp ++ "\", \"whistleblower-doc\")")

/-- The CID in a response of `storage_module`. -/
def storageModuleCid (body : Value) : Except String String :=
  match (body.get "cid").asStr <|> ((body.get "result").get "cid").asStr with
  | some cid => .ok cid
  | none => .error ("missing cid in storage_module response: " ++ String.ofList (render body))

/-- `upload_via_logoscore`. -/
def uploadViaLogoscore (data : List UInt8) (logoscoreBin modulesDir : String) : Proc String :=
  .op .tempDir fun dir ↦ do
    let tmp := tempPath K dir data
    writeFile tmp data
    let expr ← question (uploadExpr tmp)
    let out ← runLogoscore ⟨logoscoreBin, modulesDir, "agent_module", expr⟩
    removeFile tmp
    if out.success then
      match out.json with
      | .error e => bail ("storage_module response not JSON: " ++ e ++ ": " ++ out.stdout)
      | .ok body => question (storageModuleCid body)
    else bail ("storage_module upload failed: " ++ out.stderr)

/-- `upload_via_http`. -/
def uploadViaHttp (data : List UInt8) : Proc String :=
  .op (.postFile (config.storageUrl ++ "/upload") data) fun
    | .error e => bail e
    | .ok resp =>
      if resp.success then do
        let body ← question resp.json
        match (body.get "cid").asStr with
        | some cid => .pure cid
        | none => bail "missing cid in storage response"
      else bail ("storage upload failed: " ++ resp.status)

/-- `upload_once`. -/
def uploadOnce (data : List UInt8) : Proc String :=
  match config.backend with
  | .logosCore logoscoreBin modulesDir => uploadViaLogoscore K data logoscoreBin modulesDir
  | .http => uploadViaHttp config data

/-- What `upload_via_logoscore` makes of the output of `logoscore`. -/
def uploadedCid (out : Output) : Except String String :=
  if out.success then
    match out.json with
    | .error e => .error ("storage_module response not JSON: " ++ e ++ ": " ++ out.stdout)
    | .ok body => storageModuleCid body
  else .error ("storage_module upload failed: " ++ out.stderr)

/-- The steps of `upload_via_logoscore` behind its write. -/
def uploadWritten (logoscoreBin modulesDir : String) (tmp : List UInt8) : Proc String :=
  match uploadExpr tmp with
  | .error text => bail text
  | .ok expr =>
    .op (.logoscore ⟨logoscoreBin, modulesDir, "agent_module", expr⟩) fun
      | .error text => bail text
      | .ok out => .op (.removeFile tmp) fun _ ↦ question (uploadedCid out)

/-- **The steps of `upload_via_logoscore`**, one after another. -/
theorem uploadViaLogoscore_eq (data : List UInt8) (logoscoreBin modulesDir : String) :
    uploadViaLogoscore K data logoscoreBin modulesDir =
      .op .tempDir fun dir ↦ .op (.writeFile (tempPath K dir data) data) fun written ↦
        question written >>= fun _ ↦
          uploadWritten logoscoreBin modulesDir (tempPath K dir data) := by
  have hread : ∀ out : Output,
      (if out.success then
        match out.json with
        | .error e => bail ("storage_module response not JSON: " ++ e ++ ": " ++ out.stdout)
        | .ok body => question (storageModuleCid body)
      else bail ("storage_module upload failed: " ++ out.stderr)) =
        question (uploadedCid out) := by
    intro out
    rw [uploadedCid]
    split
    · cases out.json with
      | error e => rfl
      | ok body => rfl
    · rfl
  have hwritten : ∀ tmp : List UInt8,
      (question (uploadExpr tmp) >>= fun expr ↦
        runLogoscore ⟨logoscoreBin, modulesDir, "agent_module", expr⟩ >>= fun out ↦
          removeFile tmp >>= fun _ ↦ question (uploadedCid out)) =
        uploadWritten logoscoreBin modulesDir tmp := by
    intro tmp
    rw [uploadWritten]
    cases uploadExpr tmp with
    | error text => rfl
    | ok expr =>
      refine congrArg (Process.op _) (funext fun answer ↦ ?_)
      cases answer with
      | error text => rfl
      | ok out => rfl
  simp only [uploadViaLogoscore, hread, hwritten]
  rfl

/-! ### Retrying -/

/-- `delay *= 2`, in milliseconds. A `Duration` holds fewer than 2^64 seconds. -/
def doubled (delay : ℕ) : Proc ℕ :=
  if delay * 2 < 1000 * 2 ^ 64 then .pure (delay * 2)
  else .fail (.panic "overflow when multiplying duration by scalar")

/-- The loop of `upload_with_retry`, over the attempts that are left. -/
def uploadAttempts (data : List UInt8) (maxAttempts : ℕ) : List ℕ → ℕ → Proc String
  | [], _ => .fail (.panic "internal error: entered unreachable code")
  | attempt :: attempts, delay => do
    match ← result (uploadOnce K config data) with
    | .ok cid => .pure cid
    | .error e =>
      if attempt < maxAttempts then
        sleep delay
        let delay ← doubled delay
        uploadAttempts data maxAttempts attempts delay
      else bail e

/-- `upload_with_retry`. -/
def uploadWithRetry (data : List UInt8) (maxAttempts : ℕ) : Proc String :=
  uploadAttempts K config data maxAttempts (List.range' 1 maxAttempts) 200

/-- `upload_and_broadcast`. -/
def uploadAndBroadcast (data : List UInt8) (metadata : MetadataEnvelope) : Proc IndexResult := do
  let cid ← uploadWithRetry K config data 3
  let metadataHash := hashEnvelope K.sha256 cid metadata
  broadcast config ⟨cid, metadata⟩
  .pure ⟨cid, metadataHash⟩

/-! ### One attempt -/

/-- The operations of an attempt. -/
def AttemptStep : Op → Prop
  | .tempDir => True
  | .writeFile _ _ => True
  | .removeFile _ => True
  | .logoscore command => command.module = "agent_module"
  | .postFile _ _ => True
  | _ => False

theorem callsOnly_uploadViaLogoscore (data : List UInt8) (logoscoreBin modulesDir : String) :
    (uploadViaLogoscore K data logoscoreBin modulesDir).CallsOnly AttemptStep := by
  refine ⟨trivial, fun dir ↦ .bind ⟨trivial, callsOnly_question⟩ fun _ ↦
    .bind (callsOnly_question _) fun expr ↦ .bind ⟨rfl, callsOnly_question⟩ fun out ↦
      .bind ⟨trivial, fun _ ↦ trivial⟩ fun _ ↦ ?_⟩
  split
  · split
    · exact trivial
    · exact callsOnly_question _
  · exact trivial

theorem callsOnly_uploadViaHttp (data : List UInt8) :
    (uploadViaHttp config data).CallsOnly AttemptStep := by
  refine ⟨trivial, fun response ↦ ?_⟩
  cases response with
  | error e => exact trivial
  | ok resp =>
    show (if resp.success then _ else _ : Proc String).CallsOnly AttemptStep
    split
    · refine .bind (callsOnly_question _) fun body ↦ ?_
      split
      · exact trivial
      · exact trivial
    · exact trivial

/-- **An attempt does not pause**, whatever its backend. -/
theorem callsOnly_uploadOnce (data : List UInt8) :
    (uploadOnce K config data).CallsOnly AttemptStep := by
  rw [uploadOnce]
  split
  · exact callsOnly_uploadViaLogoscore K data _ _
  · exact callsOnly_uploadViaHttp config data

/-- **An attempt does not panic**: it ends with a CID or with an error. -/
theorem failsOnly_uploadOnce (data : List UInt8) :
    (uploadOnce K config data).FailsOnly IsError := by
  rw [uploadOnce]
  split
  · rw [uploadViaLogoscore_eq]
    refine fun tempDir written ↦ (failsOnly_question written).bind fun _ ↦ ?_
    rw [uploadWritten]
    split
    · exact trivial
    · intro answer
      cases answer with
      | error text => exact trivial
      | ok out => exact fun _ ↦ failsOnly_question _
  · intro answer
    cases answer with
    | error text => exact trivial
    | ok resp =>
      show (if resp.success then _ else _ : Proc String).FailsOnly IsError
      split
      · refine (failsOnly_question _).bind fun body ↦ ?_
        split
        · exact trivial
        · exact trivial
      · exact trivial

/-! ### What an upload calls -/

/-- The operations of an upload. -/
def UploadStep : Op → Prop
  | .tempDir => True
  | .writeFile _ _ => True
  | .removeFile _ => True
  | .logoscore command => command.module = "agent_module"
  | .postFile _ _ => True
  | .sleep _ => True
  | _ => False

theorem AttemptStep.uploadStep {o : Op} (h : AttemptStep o) : UploadStep o := by
  cases o <;> first | exact h | exact absurd h id

theorem callsOnly_uploadAttempts (data : List UInt8) (maxAttempts : ℕ) (attempts : List ℕ)
    (delay : ℕ) :
    (uploadAttempts K config data maxAttempts attempts delay).CallsOnly UploadStep := by
  induction attempts generalizing delay with
  | nil => exact trivial
  | cons attempt attempts ih =>
    have honce : (uploadOnce K config data).CallsOnly UploadStep :=
      (callsOnly_uploadOnce K config data).mono fun _ ↦ AttemptStep.uploadStep
    rw [uploadAttempts]
    refine .bind honce.attempt fun outcome ↦ ?_
    cases outcome with
    | ok cid => exact trivial
    | error e =>
      show (if attempt < maxAttempts then _ else _ : Proc String).CallsOnly UploadStep
      split
      · refine .bind ⟨trivial, fun _ ↦ trivial⟩ fun _ ↦ .bind ?_ ih
        rw [doubled]
        split
        · exact trivial
        · exact trivial
      · exact trivial

/-- **An upload calls its own operations only**, however often it is tried. -/
theorem callsOnly_uploadWithRetry (data : List UInt8) (maxAttempts : ℕ) :
    (uploadWithRetry K config data maxAttempts).CallsOnly UploadStep :=
  callsOnly_uploadAttempts K config data maxAttempts _ _

end Whistleblower.Indexer
