import Whistleblower.Indexer.Encoders
import Whistleblower.Indexer.Retry

/-!
# The C interface

`document_indexer_upload_and_anchor` of `document-indexer/src/ffi.rs`, through which the app uploads
a document, broadcasts it, and has it anchored where that is asked for. What comes of it is folded
into one flag.

The flag is right about the upload and the broadcast, and does not speak of the anchoring: its
result is dropped. Nor is the time of the call what is anchored; that is the constant zero. So the
promise is kept if no anchoring is asked for, or it does not come to that, or the clock says zero
and the anchoring succeeds (`faithful_iff`).
-/

namespace Whistleblower.Indexer

variable (K : Crates)

/-! ### The function -/

/-- `IndexerConfig::default`, with the backend from the environment. -/
def defaultConfig : Proc IndexerConfig := do
  let logoscoreBin ← envVarOr "LOGOSCORE_BIN" "logoscore"
  let modulesDir ← envVarOr "LOGOS_MODULES_DIR" "./modules"
  .pure {
    storageUrl := "http://127.0.0.1:8080"
    deliveryUrl := "http://127.0.0.1:9090"
    deliveryTopic := "whistleblower/v1/documents"
    backend := .logosCore logoscoreBin modulesDir }

/-- The bytes of a string in a C array: cut off before the last place, and padded with zeros. -/
def cArray (n : ℕ) (s : String) : Bytes (n + 1) :=
  ⟨s.utf8.take n ++ List.replicate (n + 1 - (s.utf8.take n).length) 0, by
    rw [List.length_append, List.length_replicate, List.length_take]
    omega⟩

namespace Ffi

/-- Result type exposed over FFI. -/
structure IndexResult where
  cid : Bytes 64
  metadataHash : Hash
  success : ℕ
  errorMsg : Bytes 256

/-- `IndexResult::ok`. -/
def IndexResult.ok (cid : String) (hash : Hash) : IndexResult where
  cid := cArray 63 cid
  metadataHash := hash
  success := 1
  errorMsg := Bytes.replicate 256 0

/-- `IndexResult::err`. -/
def IndexResult.err (msg : String) : IndexResult where
  cid := Bytes.replicate 64 0
  metadataHash := Bytes.replicate 32 0
  success := 0
  errorMsg := cArray 255 msg

/-- A call: its arguments, and what it finds before it starts. -/
structure Call where
  data : List UInt8
  /-- The text at a pointer, read lossily. A null pointer has none. -/
  title : Option String
  description : Option String
  contentType : Option String
  anchorOnChain : Int32
  /-- `SystemTime::now().duration_since(UNIX_EPOCH)` in seconds, unless it is an error. -/
  now : Option UInt64
  /-- `Runtime::new()`, or the text of its error. -/
  runtime : Except String Unit

/-- `cstr_to_string`. -/
def cstrToString (p : Option String) : String :=
  p.getD ""

/-- The Unix time the call reads. -/
def Call.timestamp (c : Call) : UInt64 :=
  c.now.getD 0

def Call.metadata (c : Call) : MetadataEnvelope where
  title := cstrToString c.title
  description := cstrToString c.description
  contentType := cstrToString c.contentType
  sizeBytes := UInt64.ofNat c.data.length
  timestamp := c.timestamp
  tags := []

/-- `indexer.upload_and_broadcast(&data_slice, metadata)` on `Indexer::default()`. -/
def upload (c : Call) : Proc Indexer.IndexResult := do
  let config ← defaultConfig
  uploadAndBroadcast K config c.data c.metadata

/-- `indexer.anchor_batch(entries, 0)`, with the one entry of the upload. -/
def anchor (r : Indexer.IndexResult) : Proc String :=
  anchorBatch K [(r.cid, r.metadataHash)] 0

/-- The arms of the `match` on the result of the upload. -/
def report (c : Call) : Except String Indexer.IndexResult → Proc IndexResult
  | .ok r =>
    if c.anchorOnChain ≠ 0 then do
      -- `let _ =`
      let _ ← result (anchor K r)
      .pure (.ok r.cid r.metadataHash)
    else .pure (.ok r.cid r.metadataHash)
  | .error e => .pure (.err e)

/-- `document_indexer_upload_and_anchor`. -/
def uploadAndAnchor (c : Call) : Proc IndexResult :=
  match c.runtime with
  | .error e => .pure (.err ("tokio runtime: " ++ e))
  | .ok () => do report K c (← result (upload K c))

end Ffi

/-! ### Nothing panics -/

variable {K} {config : IndexerConfig}

theorem failsOnly_send (payload : BroadcastPayload) :
    (send config payload).FailsOnly IsError := by
  rcases send_cases config payload with ⟨text, hsend⟩ | ⟨o, k, -, hsend, hk⟩
  · rw [hsend]
    exact trivial
  · rw [hsend]
    intro answer
    rcases hk answer with hdone | ⟨text, htext⟩
    · rw [hdone]
      exact trivial
    · rw [htext]
      exact trivial

theorem failsOnly_uploadAndBroadcast (data : List UInt8) (metadata : MetadataEnvelope) :
    (uploadAndBroadcast K config data metadata).FailsOnly IsError := by
  refine (failsOnly_isError_uploadWithRetry (by decide) (by decide)).bind fun cid ↦ ?_
  refine Process.FailsOnly.bind (fun fresh ↦ ?_) fun _ ↦ trivial
  cases fresh with
  | false => exact trivial
  | true =>
    refine (failsOnly_result (failsOnly_send _)).bind fun outcome ↦ ?_
    cases outcome with
    | ok _ => exact trivial
    | error text => exact fun _ ↦ trivial

theorem failsOnly_anchorBatch (entries : List (String × Hash)) (timestamp : UInt64) :
    (anchorBatch K entries timestamp).FailsOnly IsError := by
  rw [anchorBatch]
  split
  · exact trivial
  · split
    · exact trivial
    · refine (failsOnly_question _).bind fun cids _ _ _ answer ↦ ?_
      refine (failsOnly_question answer).bind fun out ↦ ?_
      split
      · exact trivial
      · exact trivial

/-! ### What is handed to `spel` -/

/-- The operation does not run `spel`. -/
def NotSpel (o : Op) : Prop :=
  ∀ invocation, o ≠ .spel invocation

theorem UploadStep.notSpel {o : Op} (h : UploadStep o) : NotSpel o := by
  rintro invocation rfl
  exact h

theorem callsOnly_send (payload : BroadcastPayload) :
    (send config payload).CallsOnly NotSpel := by
  rcases send_cases config payload with ⟨text, hsend⟩ | ⟨o, k, ho, hsend, hk⟩
  · rw [hsend]
    exact trivial
  · rw [hsend]
    refine ⟨fun invocation heq ↦ ?_, fun answer ↦ ?_⟩
    · obtain ⟨bin, dir, expr, -, -, rfl⟩ | ⟨-, rfl⟩ := sendOp_cases ho
      · cases heq
      · cases heq
    · rcases hk answer with hdone | ⟨text, htext⟩
      · rw [hdone]
        exact trivial
      · rw [htext]
        exact trivial

/-- **An upload and a broadcast** run no `spel`. -/
theorem callsOnly_uploadAndBroadcast (data : List UInt8) (metadata : MetadataEnvelope) :
    (uploadAndBroadcast K config data metadata).CallsOnly NotSpel := by
  refine ((callsOnly_uploadWithRetry K config data 3).mono fun _ ↦ UploadStep.notSpel).bind
    fun cid ↦ ?_
  refine Process.CallsOnly.bind ⟨nofun, fun fresh ↦ ?_⟩ fun _ ↦ trivial
  cases fresh with
  | false => exact trivial
  | true =>
    refine (callsOnly_send _).attempt.bind fun outcome ↦ ?_
    cases outcome with
    | ok _ => exact trivial
    | error text => exact ⟨nofun, fun _ ↦ trivial⟩

/-- The numbers of `--entries-timestamps`, which is the last argument. -/
def timestampsOf (invocation : SpelInvocation) : Option (List UInt64) :=
  invocation.args.getLast?.bind parseNumbers

/-- **Every entry is handed over with the time the function is given.** -/
theorem callsOnly_anchorBatch (entries : List (String × Hash)) (timestamp : UInt64) :
    (anchorBatch K entries timestamp).CallsOnly fun o ↦ ∀ invocation, o = .spel invocation →
      timestampsOf invocation = some (entries.map fun _ ↦ timestamp) := by
  rw [anchorBatch]
  split
  · exact trivial
  · next hne =>
    split
    · exact trivial
    · have hvar : ∀ name, ∀ invocation, Op.envVar name = .spel invocation →
          timestampsOf invocation = some (entries.map fun _ ↦ timestamp) := by
        intro name invocation heq
        cases heq
      refine (callsOnly_question _).bind fun cids ↦ ⟨hvar _, fun spel ↦ ⟨hvar _, fun idl ↦
        ⟨hvar _, fun workdir ↦ ⟨fun invocation heq ↦ ?_, fun answer ↦ ?_⟩⟩⟩⟩
      · obtain rfl := Op.spel.inj heq
        exact parseNumbers_joinCommas timestamp hne
      · refine (callsOnly_question answer).bind fun out ↦ ?_
        split
        · exact trivial
        · exact trivial

variable {σ : Type} {h : (o : Op) → σ → o.Ret × σ}

/-- Entries are not anchored without `spel`. -/
theorem exists_spel_of_anchorBatch {entries : List (String × Hash)} (hne : entries ≠ [])
    {timestamp : UInt64} {s t : σ} {tx : String}
    (heval : (anchorBatch K entries timestamp).eval h s = (.ok tx, t)) :
    ∃ invocation, .spel invocation ∈ (anchorBatch K entries timestamp).calls h s := by
  rw [anchorBatch, if_neg hne] at heval ⊢
  split at heval
  · cases heval
  · next hlen =>
    rw [if_neg hlen]
    cases hcids : decodeEntries K entries with
    | error text =>
      rw [hcids] at heval
      cases heval
    | ok cids =>
      exact ⟨_, List.mem_cons_of_mem _ (List.mem_cons_of_mem _
        (List.mem_cons_of_mem _ List.mem_cons_self))⟩

/-! ### The flag and the time -/

namespace Ffi

variable (K) (h) (c : Call) (s : σ)

/-- The upload and the broadcast have succeeded. -/
def Published (r : Indexer.IndexResult) (t : σ) : Prop :=
  c.runtime = .ok () ∧ (upload K c).eval h s = (.ok r, t)

/-- The anchoring has succeeded. -/
def Anchored (r : Indexer.IndexResult) (t : σ) : Prop :=
  ∃ tx u, (anchor K r).eval h t = (.ok tx, u)

/-- Every step that is asked for has succeeded. -/
def Succeeds : Prop :=
  ∃ r t, Published K h c s r t ∧ (c.anchorOnChain ≠ 0 → Anchored K h r t)

/-- The flag says whether every step has succeeded, and what is handed over for anchoring has the
time of the call. -/
structure Faithful : Prop where
  flag : ∃ res t, (uploadAndAnchor K c).eval h s = (.ok res, t) ∧
    (res.success = 1 ↔ Succeeds K h c s)
  time : ∀ invocation, .spel invocation ∈ (uploadAndAnchor K c).calls h s →
    ∃ times, timestampsOf invocation = some times ∧ ∀ time ∈ times, time = c.timestamp

variable {K h c s}

theorem failsOnly_upload : (upload K c).FailsOnly IsError :=
  fun _ _ ↦ failsOnly_uploadAndBroadcast _ _

theorem callsOnly_upload : (upload K c).CallsOnly NotSpel :=
  ⟨nofun, fun _ ↦ ⟨nofun, fun _ ↦ callsOnly_uploadAndBroadcast _ _⟩⟩

/-- **What a call can do**: fail, or return what has been uploaded and broadcast. Then `spel` is run
by the anchoring only, and what comes of the anchoring makes no difference. -/
theorem uploadAndAnchor_cases :
    (∃ text t, (∀ r t, ¬ Published K h c s r t) ∧
      (uploadAndAnchor K c).eval h s = (.ok (.err text), t) ∧
      ∀ o ∈ (uploadAndAnchor K c).calls h s, NotSpel o) ∨
    ∃ r t u, Published K h c s r t ∧
      (uploadAndAnchor K c).eval h s = (.ok (.ok r.cid r.metadataHash), u) ∧
      ∀ invocation, .spel invocation ∈ (uploadAndAnchor K c).calls h s ↔
        c.anchorOnChain ≠ 0 ∧ .spel invocation ∈ (anchor K r).calls h t := by
  cases hruntime : c.runtime with
  | error e =>
    have hends : uploadAndAnchor K c = .pure (.err ("tokio runtime: " ++ e)) := by
      rw [uploadAndAnchor, hruntime]
    rw [hends]
    refine Or.inl ⟨_, s, fun r t hpublished ↦ ?_, rfl, fun o ho ↦ absurd ho List.not_mem_nil⟩
    cases hruntime.symm.trans hpublished.1
  | ok _ =>
    have hgoes : uploadAndAnchor K c = result (upload K c) >>= report K c := by
      rw [uploadAndAnchor, hruntime]
    have hcalls : ∀ o ∈ (result (upload K c)).calls h s, NotSpel o :=
      fun o ho ↦ callsOnly_upload.attempt.of_mem_calls h ho
    obtain ⟨x, t, hresult, hupload⟩ := exists_eval_result h (failsOnly_upload (K := K)) s
    have hspel : ∀ invocation, .spel invocation ∈ (uploadAndAnchor K c).calls h s ↔
        .spel invocation ∈ (report K c x).calls h t := by
      intro invocation
      rw [hgoes, Process.calls_bind_of_ok _ hresult, List.mem_append]
      exact or_iff_right fun hupload ↦ hcalls _ hupload invocation rfl
    rw [hgoes, Process.eval_bind_of_ok _ hresult, ← hgoes]
    cases x with
    | error text =>
      refine Or.inl ⟨text, t, fun r t' hpublished ↦ ?_, rfl, fun o ho ↦ ?_⟩
      · cases hupload.symm.trans hpublished.2
      · rintro invocation rfl
        exact absurd ((hspel invocation).1 ho) List.not_mem_nil
    | ok r =>
      by_cases hanchor : c.anchorOnChain ≠ 0
      · have hreport : report K c (.ok r) =
            result (anchor K r) >>= fun _ ↦ .pure (.ok r.cid r.metadataHash) := if_pos hanchor
        obtain ⟨y, u, hdropped, -⟩ :=
          exists_eval_result h (p := anchor K r) (failsOnly_anchorBatch _ _) t
        refine Or.inr ⟨r, t, u, ⟨hruntime, hupload⟩, ?_, fun invocation ↦ ?_⟩
        · rw [hreport, Process.eval_bind_of_ok _ hdropped]
          rfl
        · have hcalled : (report K c (.ok r)).calls h t = (anchor K r).calls h t := by
            rw [hreport, Process.calls_bind_of_ok _ hdropped]
            exact (List.append_nil _).trans (Process.calls_attempt _ _ _ _)
          rw [hspel, hcalled]
          exact (and_iff_right hanchor).symm
      · have hreport : report K c (.ok r) = .pure (.ok r.cid r.metadataHash) := if_neg hanchor
        refine Or.inr ⟨r, t, t, ⟨hruntime, hupload⟩, ?_, fun invocation ↦ ?_⟩
        · rw [hreport]
          rfl
        · rw [hspel, hreport]
          exact iff_of_false List.not_mem_nil fun hboth ↦ hanchor hboth.1

theorem Published.unique {r r' : Indexer.IndexResult} {t t' : σ} (hr : Published K h c s r t)
    (hr' : Published K h c s r' t') : r' = r ∧ t' = t := by
  obtain ⟨hok, ht⟩ := Prod.mk.inj (hr'.2.symm.trans hr.2)
  exact ⟨Except.ok.inj hok, ht⟩

theorem succeeds_iff {r : Indexer.IndexResult} {t : σ} (hr : Published K h c s r t) :
    Succeeds K h c s ↔ (c.anchorOnChain ≠ 0 → Anchored K h r t) := by
  constructor
  · rintro ⟨r', t', hr', hanchored⟩
    obtain ⟨rfl, rfl⟩ := hr.unique hr'
    exact hanchored
  · exact fun hanchored ↦ ⟨r, t, hr, hanchored⟩

/-- What is anchored is dated with zero. -/
theorem timestampsOf_of_mem_calls {r : Indexer.IndexResult} {t : σ} {invocation : SpelInvocation}
    (hcalled : .spel invocation ∈ (anchor K r).calls h t) : timestampsOf invocation = some [0] :=
  (callsOnly_anchorBatch _ _).of_mem_calls h hcalled invocation rfl

/-- **Where it comes to anchoring**, it has to succeed, at the time zero. -/
theorem Faithful.dated (hfaithful : Faithful K h c s) (hanchor : c.anchorOnChain ≠ 0)
    {r : Indexer.IndexResult} {t : σ} (hr : Published K h c s r t) :
    Anchored K h r t ∧ c.timestamp = 0 := by
  rcases uploadAndAnchor_cases (K := K) (h := h) (c := c) (s := s) with
    ⟨text, t', hnot, -⟩ | ⟨r', t', u, hr', heval, hcalls⟩
  · exact absurd hr (hnot r t)
  · obtain ⟨rfl, rfl⟩ := hr.unique hr'
    obtain ⟨res, t'', hres, hiff⟩ := hfaithful.flag
    obtain ⟨hok, -⟩ := Prod.mk.inj (heval.symm.trans hres)
    obtain rfl := Except.ok.inj hok
    obtain ⟨tx, u', htx⟩ := (succeeds_iff hr).1 (hiff.1 rfl) hanchor
    -- the anchoring has run `spel`, and has dated its entry
    obtain ⟨invocation, hspel⟩ := exists_spel_of_anchorBatch (List.cons_ne_nil _ _) htx
    obtain ⟨times, htimes, hall⟩ := hfaithful.time invocation
      ((hcalls invocation).2 ⟨hanchor, hspel⟩)
    rw [timestampsOf_of_mem_calls hspel] at htimes
    obtain rfl := Option.some.inj htimes
    exact ⟨⟨tx, u', htx⟩, (hall 0 List.mem_cons_self).symm⟩

/-- **When a call keeps its promise**: it is not asked to anchor, or it does not come to that, or
the anchoring succeeds while the clock says zero. -/
theorem faithful_iff (K : Crates) (h : (o : Op) → σ → o.Ret × σ) (c : Call) (s : σ) :
    Faithful K h c s ↔ c.anchorOnChain = 0 ∨ (∀ r t, ¬ Published K h c s r t) ∨
      ∃ r t, Published K h c s r t ∧ Anchored K h r t ∧ c.timestamp = 0 := by
  constructor
  · intro hfaithful
    refine or_iff_not_imp_left.2 fun hanchor ↦ or_iff_not_imp_left.2 fun hpublished ↦ ?_
    simp only [not_forall, not_not] at hpublished
    obtain ⟨r, t, hr⟩ := hpublished
    exact ⟨r, t, hr, hfaithful.dated hanchor hr⟩
  · intro hcond
    rcases uploadAndAnchor_cases (K := K) (h := h) (c := c) (s := s) with
      ⟨text, t, hnot, heval, hcalls⟩ | ⟨r, t, u, hr, heval, hcalls⟩
    · refine ⟨⟨_, t, heval, iff_of_false (show ¬ (0 : ℕ) = 1 by decide) ?_⟩,
        fun invocation hspel ↦ absurd rfl (hcalls _ hspel invocation)⟩
      rintro ⟨r, t', hr, -⟩
      exact hnot r t' hr
    · have hdated : c.anchorOnChain ≠ 0 → Anchored K h r t ∧ c.timestamp = 0 := by
        intro hanchor
        rcases hcond with hzero | hnot | ⟨r', t', hr', hanchored, hclock⟩
        · exact absurd hzero hanchor
        · exact absurd hr (hnot r t)
        · obtain ⟨rfl, rfl⟩ := hr.unique hr'
          exact ⟨hanchored, hclock⟩
      have hsucceeds := (succeeds_iff hr).2 fun hanchor ↦ (hdated hanchor).1
      refine ⟨⟨_, u, heval, iff_of_true rfl hsucceeds⟩, fun invocation hspel ↦ ?_⟩
      obtain ⟨hanchor, hcalled⟩ := (hcalls invocation).1 hspel
      refine ⟨[0], timestampsOf_of_mem_calls hcalled, fun time htime ↦ ?_⟩
      rw [List.mem_singleton.1 htime, (hdated hanchor).2]

/-! ### A document that is not anchored, and one that is dated wrongly -/

/-- Everything works, apart from `spel` in one case. -/
def answering (anchors : Bool) : (o : Op) → Unit → o.Ret × Unit
  | .envVar _, s => (none, s)
  | .tempDir, s => ("/tmp".utf8, s)
  | .writeFile _ _, s => (.ok (), s)
  | .removeFile _, s => (.ok (), s)
  | .logoscore _, s => (.ok ⟨true, .ok (.object [("cid", .string sampleCid)]), "", ""⟩, s)
  | .postFile _ _, s => (.error "connection refused", s)
  | .postPayload _ _, s => (.error "connection refused", s)
  | .spel _, s =>
    (if anchors then .ok ⟨true, .error "expected value", "tx_hash: 7", ""⟩
      else .error "No such file or directory (os error 2)", s)
  | .sleep _, s => ((), s)
  | .insertBroadcasted _, s => (true, s)
  | .removeBroadcasted _, s => ((), s)

/-- An empty document is to be anchored, on 14 November 2023. -/
def sampleCall : Call :=
  ⟨[], none, none, none, 1, some 1700000000, .ok ()⟩

theorem exists_published (anchors : Bool) :
    ∃ r t, Published sampleCrates (answering anchors) sampleCall () r t := by
  have hok : ((upload sampleCrates sampleCall).eval (answering anchors) ()).1.isOk = true := by
    cases anchors with
    | false => decide +kernel
    | true => decide +kernel
  rcases heval : (upload sampleCrates sampleCall).eval (answering anchors) () with ⟨e | r, t⟩
  · rw [heval] at hok
    cases hok
  · exact ⟨r, t, rfl, heval⟩

/-- Without `spel`, the call reports success and nothing is anchored. With it, the document is dated
with 1 January 1970. -/
theorem not_faithful_sampleCall :
    ¬ Faithful sampleCrates (answering false) sampleCall () ∧
      ¬ Faithful sampleCrates (answering true) sampleCall () := by
  have hanchor : sampleCall.anchorOnChain ≠ 0 := by decide
  constructor
  · intro hfaithful
    obtain ⟨r, t, hr⟩ := exists_published false
    obtain ⟨⟨tx, u, htx⟩, -⟩ := hfaithful.dated hanchor hr
    have hlen : ¬ [(r.cid, r.metadataHash)].length > MAX_BATCH_SIZE :=
      show ¬ 1 > MAX_BATCH_SIZE by decide
    rw [anchor, anchorBatch, if_neg (List.cons_ne_nil _ _), if_neg hlen] at htx
    cases hcids : decodeEntries sampleCrates [(r.cid, r.metadataHash)] with
    | error text =>
      rw [hcids] at htx
      cases htx
    | ok cids =>
      rw [hcids] at htx
      cases htx
  · intro hfaithful
    obtain ⟨r, t, hr⟩ := exists_published true
    exact absurd (hfaithful.dated hanchor hr).2 (by decide)

end Ffi

end Whistleblower.Indexer
