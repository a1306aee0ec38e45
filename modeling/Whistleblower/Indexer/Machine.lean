import Whistleblower.Foundations.Process
import Whistleblower.Foundations.TextBytes
import Whistleblower.Indexer.Envelope

/-!
# What the indexer does to the outside

The operations through which `Indexer` of `document-indexer/src/lib.rs` touches the world: its
session set, the temp directory, `logoscore` and `spel`, the HTTP services, the environment and the
clock. Each is answered with what the Rust call returns.

The set of CIDs broadcast in the session is shared by all calls on one indexer, behind a mutex. What
is done under one lock is one operation: the check and the insertion (`insertBroadcasted`), and the
removal.

An outside answer that the code reads as JSON is given as what is read, with `serde_json`'s verdict
on the bytes.
-/

namespace Whistleblower.Indexer

/-- Where the indexer puts bytes and broadcasts envelopes. -/
inductive StorageBackend where
  /-- The path of the `logoscore` binary, and the directory of the built modules. -/
  | logosCore (logoscoreBin modulesDir : String)
  | http

structure IndexerConfig where
  storageUrl : String
  deliveryUrl : String
  deliveryTopic : String
  backend : StorageBackend

/-- A call of `logoscore -m <modules_dir> -l <module> -c <expr> --quit-on-finish --json-output`. -/
structure LogoscoreCommand where
  logoscoreBin : String
  modulesDir : String
  module : String
  expr : String
  deriving DecidableEq

/-- A call of `spel`: binary, working directory, and arguments. -/
structure SpelInvocation where
  spel : String
  workdir : String
  args : List String

/-- What running a command gave. -/
structure Output where
  success : Bool
  /-- `serde_json::from_slice(&stdout)`, or the text of its error. -/
  json : Except String Json.Value
  /-- `String::from_utf8_lossy(&stdout)`. -/
  stdout : String
  /-- `String::from_utf8_lossy(&stderr)`. -/
  stderr : String

/-- What an HTTP service has answered. -/
structure Response where
  /-- The status is one of success. -/
  success : Bool
  /-- The text of the status. -/
  status : String
  /-- The body read as JSON, or the text of the error. -/
  json : Except String Json.Value

inductive Op where
  /-- `std::env::var`, if it gives a value. -/
  | envVar (name : String)
  /-- The bytes of `std::env::temp_dir()`. -/
  | tempDir
  /-- `tokio::fs::write` -/
  | writeFile (path data : List UInt8)
  /-- `tokio::fs::remove_file` -/
  | removeFile (path : List UInt8)
  | logoscore (command : LogoscoreCommand)
  /-- POST of a multipart form whose one part is the data. -/
  | postFile (url : String) (data : List UInt8)
  /-- POST of a payload as JSON. -/
  | postPayload (url : String) (payload : BroadcastPayload)
  | spel (invocation : SpelInvocation)
  /-- `tokio::time::sleep` -/
  | sleep (milliseconds : ℕ)
  /-- Under one lock: has the session broadcast the CID not yet? Then enter it. -/
  | insertBroadcasted (cid : String)
  /-- Under one lock: take the CID out. -/
  | removeBroadcasted (cid : String)

/-- What an operation answers. -/
abbrev Op.Ret : Op → Type
  | envVar _ => Option String
  | tempDir => List UInt8
  | writeFile _ _ => Except String Unit
  | removeFile _ => Except String Unit
  | logoscore _ => Except String Output
  | postFile _ _ => Except String Response
  | postPayload _ _ => Except String Response
  | spel _ => Except String Output
  | sleep _ => Unit
  | insertBroadcasted _ => Bool
  | removeBroadcasted _ => Unit

/-- Why a function has not returned a value: an error, with its text, or a panic. -/
inductive Failure where
  | error (text : String)
  | panic (message : String)

/-- A program of the indexer. -/
abbrev Proc (α : Type) := Process Op.Ret Failure α

/-- `bail!` -/
def bail {α : Type} (text : String) : Proc α :=
  .fail (.error text)

/-- An error, and no panic. -/
def IsError : Failure → Prop
  | .error _ => True
  | .panic _ => False

/-- `?` on the answer of an operation. -/
def question {α : Type} : Except String α → Proc α
  | .ok a => .pure a
  | .error text => bail text

/-- An answer that `?` lets through. -/
theorem mapError_eq_ok {α : Type} {x : Except String α} {a : α} :
    x.mapError Failure.error = .ok a ↔ x = .ok a := by
  cases x <;> simp [Except.mapError]

theorem mapError_ne_panic {α : Type} (x : Except String α) (message : String) :
    x.mapError Failure.error ≠ .error (.panic message) := by
  cases x <;> simp [Except.mapError]

@[simp] theorem eval_question {α σ : Type} (h : (o : Op) → σ → o.Ret × σ) (x : Except String α)
    (s : σ) : (question x).eval h s = (x.mapError .error, s) := by
  cases x <;> rfl

/-- An answer is passed on without another operation. -/
theorem callsOnly_question {α : Type} {A : Op → Prop} (x : Except String α) :
    (question x).CallsOnly A := by
  cases x with
  | ok a => exact trivial
  | error text => exact trivial

theorem failsOnly_question {α : Type} (x : Except String α) : (question x).FailsOnly IsError := by
  cases x with
  | ok a => exact trivial
  | error text => exact trivial

/-- The `Result` that a function returns. A panic is not caught. -/
def result {α : Type} (p : Proc α) : Proc (Except String α) :=
  p.attempt fun
    | .error text => some text
    | .panic _ => none

theorem eval_result {α σ : Type} (h : (o : Op) → σ → o.Ret × σ) (p : Proc α) (s : σ) :
    (result p).eval h s = match p.eval h s with
      | (.ok a, t) => (.ok (.ok a), t)
      | (.error (.error text), t) => (.ok (.error text), t)
      | (.error (.panic message), t) => (.error (.panic message), t) := by
  rw [result, Process.eval_attempt]
  rcases p.eval h s with ⟨(text | message) | a, t⟩ <;> rfl

theorem eval_result_of_ok {α σ : Type} {h : (o : Op) → σ → o.Ret × σ} {p : Proc α} {s t : σ} {a : α}
    (hp : p.eval h s = (.ok a, t)) : (result p).eval h s = (.ok (.ok a), t) := by
  rw [eval_result, hp]

theorem eval_result_of_error {α σ : Type} {h : (o : Op) → σ → o.Ret × σ} {p : Proc α} {s t : σ}
    {text : String} (hp : p.eval h s = (.error (.error text), t)) :
    (result p).eval h s = (.ok (.error text), t) := by
  rw [eval_result, hp]

/-- What does not panic has a result, and no failure is left. -/
theorem failsOnly_result {α : Type} {p : Proc α} (hp : p.FailsOnly IsError)
    {F : Failure → Prop} : (result p).FailsOnly F := by
  refine hp.attempt.mono fun e he ↦ ?_
  cases e with
  | error text => cases he.2
  | panic message => exact absurd he.1 id

/-- What does not panic evaluates to a result. -/
theorem exists_eval_result {α σ : Type} (h : (o : Op) → σ → o.Ret × σ) {p : Proc α}
    (hp : p.FailsOnly IsError) (s : σ) :
    ∃ x t, (result p).eval h s = (.ok x, t) ∧ p.eval h s = (x.mapError .error, t) := by
  rcases heval : p.eval h s with ⟨(text | message) | a, t⟩
  · exact ⟨_, t, eval_result_of_error heval, rfl⟩
  · exact absurd (hp.eval h heval) id
  · exact ⟨_, t, eval_result_of_ok heval, rfl⟩

/-- `std::env::var(name).unwrap_or_else(|_| default.into())` -/
def envVarOr (name default : String) : Proc String :=
  .op (.envVar name) fun value ↦ .pure (value.getD default)

def envVar (name : String) : Proc (Option String) :=
  .op (.envVar name) .pure

/-- `tokio::fs::write(path, data).await?` -/
def writeFile (path data : List UInt8) : Proc Unit :=
  .op (.writeFile path data) question

/-- `let _ = tokio::fs::remove_file(path).await` -/
def removeFile (path : List UInt8) : Proc Unit :=
  .op (.removeFile path) fun _ ↦ .pure ()

def sleep (milliseconds : ℕ) : Proc Unit :=
  .op (.sleep milliseconds) .pure

def runLogoscore (command : LogoscoreCommand) : Proc Output :=
  .op (.logoscore command) question

def runSpel (invocation : SpelInvocation) : Proc Output :=
  .op (.spel invocation) question

def insertBroadcasted (cid : String) : Proc Bool :=
  .op (.insertBroadcasted cid) .pure

def removeBroadcasted (cid : String) : Proc Unit :=
  .op (.removeBroadcasted cid) .pure

end Whistleblower.Indexer
