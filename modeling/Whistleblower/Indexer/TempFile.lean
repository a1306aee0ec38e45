import Whistleblower.Indexer.Republish

/-!
# What an upload leaves on disk

While `upload_via_logoscore` runs, the document it uploads lies in the temp directory. The file is
removed behind the call of `logoscore`, on the one path that gets there: a temp path that cannot be
written into an expression and a binary that cannot be started both return before it, and so does a
write that fails halfway.

A temp directory is a map from paths to contents. What the steps of an attempt come to is given from
outside, attempt by attempt (`AttemptOutcome`), and `afterAttempts` says when the temp path is free
after so many of them. The attempts of `upload_with_retry` share that path, so that a later one
removes what an earlier one has left.
-/

namespace Whistleblower.Indexer

/-! ### The temp directory -/

/-- The files there are, by path. -/
abbrev Files := List UInt8 → Option (List UInt8)

/-- What comes of a write. -/
inductive WriteOutcome where
  | written
  /-- The file could not be opened. -/
  | notOpened (text : String)
  /-- So many bytes have got through. -/
  | cutOff (text : String) (bytes : ℕ)

/-- What `tokio::fs::write` returns. -/
def WriteOutcome.answer : WriteOutcome → Except String Unit
  | written => .ok ()
  | notOpened text => .error text
  | cutOff text _ => .error text

/-- What the file holds afterwards. -/
def WriteOutcome.content (data : List UInt8) (before : Option (List UInt8)) :
    WriteOutcome → Option (List UInt8)
  | written => some data
  | notOpened _ => before
  | cutOff _ bytes => some (data.take bytes)

/-- What comes of the steps of one attempt. -/
structure AttemptOutcome where
  write : WriteOutcome
  logoscore : Except String Output

/-- The files, and how many attempts have been slept over. -/
structure Disk where
  files : Files
  attempt : ℕ

/-- The steps of an upload in one temp directory. A removal is taken to succeed. -/
def Disk.respond (tempDir : List UInt8) (outcomes : ℕ → AttemptOutcome) :
    (o : Op) → Disk → o.Ret × Disk
  | .tempDir, s => (tempDir, s)
  | .writeFile path data, s =>
    let write := (outcomes s.attempt).write
    (write.answer,
      { s with files := Function.update s.files path (write.content data (s.files path)) })
  | .removeFile path, s => (.ok (), { s with files := Function.update s.files path none })
  | .logoscore _, s => ((outcomes s.attempt).logoscore, s)
  | .sleep _, s => ((), { s with attempt := s.attempt + 1 })
  -- an upload by `logoscore` makes no other call
  | o, s => (unreachable [] o, s)

/-! ### When the temp path is free -/

/-- The attempt gets as far as a running `logoscore`, if it gets past its write. -/
def AttemptOutcome.Spawns (tmp : List UInt8) (x : AttemptOutcome) : Prop :=
  (∃ expr, uploadExpr tmp = .ok expr) ∧ ∃ out, x.logoscore = .ok out

/-- The attempt gets a CID. -/
def AttemptOutcome.Succeeds (tmp : List UInt8) (x : AttemptOutcome) : Prop :=
  x.write = .written ∧ (∃ expr, uploadExpr tmp = .ok expr) ∧ ∃ out, x.logoscore = .ok out ∧
    ∃ cid, uploadedCid out = .ok cid

/-- The temp path is free after the attempt, where `free` says whether it was before. -/
def AttemptOutcome.Frees (tmp : List UInt8) (free : Prop) (x : AttemptOutcome) : Prop :=
  match x.write with
  | .written => x.Spawns tmp
  | .notOpened _ => free
  | .cutOff _ _ => False

/-- The temp path is free after so many attempts. -/
def FreeAfter (tmp : List UInt8) (free : Prop) (outcomes : ℕ → AttemptOutcome) : ℕ → Prop
  | 0 => free
  | n + 1 => (outcomes n).Frees tmp (FreeAfter tmp free outcomes n)

theorem AttemptOutcome.Succeeds.frees {tmp : List UInt8} {x : AttemptOutcome}
    (h : x.Succeeds tmp) (free : Prop) : x.Frees tmp free := by
  obtain ⟨hwrite, hexpr, out, hout, -⟩ := h
  rw [Frees, hwrite]
  exact ⟨hexpr, out, hout⟩

theorem AttemptOutcome.frees_congr {tmp : List UInt8} {free free' : Prop} (h : free ↔ free')
    (x : AttemptOutcome) : x.Frees tmp free ↔ x.Frees tmp free' := by
  rw [propext h]

variable (K : Crates) (tempDir : List UInt8) (outcomes : ℕ → AttemptOutcome) (data : List UInt8)
  (logoscoreBin modulesDir : String)

/-- What comes of an attempt behind its write. -/
theorem eval_uploadWritten (tmp : List UInt8) (files : Files) (n : ℕ) :
    ∃ r content,
      (uploadWritten logoscoreBin modulesDir tmp).eval (Disk.respond tempDir outcomes) ⟨files, n⟩ =
        (r, ⟨Function.update files tmp content, n⟩) ∧
      ((outcomes n).Spawns tmp → content = none) ∧
      (¬ (outcomes n).Spawns tmp → content = files tmp) ∧
      ((∃ cid, r = .ok cid) ↔ (∃ expr, uploadExpr tmp = .ok expr) ∧
        ∃ out, (outcomes n).logoscore = .ok out ∧ ∃ cid, uploadedCid out = .ok cid) ∧
      ∀ message, r ≠ .error (.panic message) := by
  have hstay : Disk.mk (Function.update files tmp (files tmp)) n = ⟨files, n⟩ := by
    rw [Function.update_eq_self]
  rw [uploadWritten]
  cases hexpr : uploadExpr tmp with
  | error text =>
    refine ⟨.error (.error text), files tmp, by rw [hstay]; rfl, ?_, fun _ ↦ rfl, ?_, ?_⟩
    · rintro ⟨⟨expr, h⟩, -⟩
      cases hexpr.symm.trans h
    · simp
    · simp
  | ok expr =>
    have hanswer : ∀ command, Disk.respond tempDir outcomes (.logoscore command) ⟨files, n⟩ =
        ((outcomes n).logoscore, ⟨files, n⟩) := fun _ ↦ rfl
    rw [Process.eval_op, hanswer]
    cases hout : (outcomes n).logoscore with
    | error text =>
      refine ⟨.error (.error text), files tmp, by rw [hstay]; rfl, ?_, fun _ ↦ rfl, ?_, ?_⟩
      · rintro ⟨-, out, h⟩
        cases hout.symm.trans h
      · simp
      · simp
    | ok out =>
      refine ⟨(uploadedCid out).mapError .error, none, eval_question _ _ _, fun _ ↦ rfl,
        fun h ↦ absurd ⟨⟨expr, hexpr⟩, out, hout⟩ h, ?_, mapError_ne_panic _⟩
      simp [mapError_eq_ok]

/-- **One attempt**: the temp path is all it changes, and it is free afterwards, or not, by what
came of the steps. -/
theorem eval_uploadViaLogoscore (files : Files) (n : ℕ) :
    ∃ r content,
      (uploadViaLogoscore K data logoscoreBin modulesDir).eval (Disk.respond tempDir outcomes)
          ⟨files, n⟩ =
        (r, ⟨Function.update files (tempPath K tempDir data) content, n⟩) ∧
      (content = none ↔ (outcomes n).Frees (tempPath K tempDir data)
        (files (tempPath K tempDir data) = none)) ∧
      ((∃ cid, r = .ok cid) ↔ (outcomes n).Succeeds (tempPath K tempDir data)) ∧
      ∀ message, r ≠ .error (.panic message) := by
  rw [uploadViaLogoscore_eq, Process.eval_op, Process.eval_op]
  show ∃ r content, (question (outcomes n).write.answer >>= fun _ ↦
    uploadWritten logoscoreBin modulesDir (tempPath K tempDir data)).eval
      (Disk.respond tempDir outcomes) ⟨Function.update files (tempPath K tempDir data)
        ((outcomes n).write.content data (files (tempPath K tempDir data))), n⟩ = _ ∧ _
  generalize tempPath K tempDir data = tmp
  rw [AttemptOutcome.Frees, AttemptOutcome.Succeeds]
  cases hwrite : (outcomes n).write with
  | written =>
    obtain ⟨r, content, heval, hspawns, hnot, hok, hpanic⟩ := eval_uploadWritten tempDir outcomes
      logoscoreBin modulesDir tmp (Function.update files tmp (some data)) n
    rw [Function.update_idem] at heval
    refine ⟨r, content, heval, ⟨fun hnone ↦ ?_, hspawns⟩, hok.trans (by simp), hpanic⟩
    by_contra hfail
    rw [hnot hfail, Function.update_self] at hnone
    cases hnone
  | notOpened text =>
    exact ⟨.error (.error text), files tmp, rfl, Iff.rfl, by simp, by simp⟩
  | cutOff text bytes =>
    exact ⟨.error (.error text), some (data.take bytes), rfl, by simp, by simp, by simp⟩

/-! ### Attempt after attempt -/

/-- The temp path of the document is free. -/
def Disk.Clean (s : Disk) : Prop :=
  s.files (tempPath K tempDir data) = none

variable {K tempDir outcomes data logoscoreBin modulesDir} {config : IndexerConfig}

theorem clean_update {files : Files} {content : Option (List UInt8)} {n : ℕ} :
    Disk.Clean K tempDir data ⟨Function.update files (tempPath K tempDir data) content, n⟩ ↔
      content = none := by
  simp [Disk.Clean]

/-- **The loop**, from the attempt it has got to on: `k` attempts have failed. -/
theorem clean_uploadAttempts (hbackend : config.backend = .logosCore logoscoreBin modulesDir)
    {free : Prop} {m k maxAttempts delay : ℕ} (hmax : k + m = maxAttempts) {files : Files}
    (hfree : files (tempPath K tempDir data) = none ↔
      FreeAfter (tempPath K tempDir data) free outcomes k)
    (hfailed : ∀ n < k, ¬ (outcomes n).Succeeds (tempPath K tempDir data))
    {r : Except Failure String} {t : Disk}
    (heval : (uploadAttempts K config data maxAttempts (List.range' (k + 1) m) delay).eval
      (Disk.respond tempDir outcomes) ⟨files, k⟩ = (r, t))
    (hreturns : ∀ message, r ≠ .error (.panic message)) :
    t.Clean K tempDir data ↔
      (∃ n < maxAttempts, (outcomes n).Succeeds (tempPath K tempDir data)) ∨
        FreeAfter (tempPath K tempDir data) free outcomes maxAttempts := by
  induction m generalizing k delay files with
  | zero =>
    obtain ⟨rfl, -⟩ := Prod.mk.inj heval
    exact absurd rfl (hreturns _)
  | succ m ih =>
    obtain ⟨r', content, hone, hcontent, hok, hpanic⟩ :=
      eval_uploadViaLogoscore K tempDir outcomes data logoscoreBin modulesDir files k
    have hnext : content = none ↔ FreeAfter (tempPath K tempDir data) free outcomes (k + 1) :=
      hcontent.trans (AttemptOutcome.frees_congr hfree _)
    have hresult :=
      eval_result (Disk.respond tempDir outcomes) (uploadOnce K config data) ⟨files, k⟩
    rw [uploadOnce, hbackend] at hresult
    simp only [hone] at hresult
    rw [List.range'_succ, uploadAttempts, uploadOnce, hbackend] at heval
    cases r' with
    | ok cid =>
      rw [Process.eval_bind_of_ok _ hresult] at heval
      obtain ⟨-, rfl⟩ := Prod.mk.inj heval
      have hsucceeds := hok.1 ⟨cid, rfl⟩
      exact iff_of_true (clean_update.2 (hcontent.2 (hsucceeds.frees _)))
        (.inl ⟨k, by omega, hsucceeds⟩)
    | error e =>
      have hfails : ¬ (outcomes k).Succeeds (tempPath K tempDir data) := fun h ↦ by
        obtain ⟨cid, hcid⟩ := hok.2 h
        cases hcid
      have hfailed' : ∀ n < k + 1, ¬ (outcomes n).Succeeds (tempPath K tempDir data) := by
        intro n hn
        rcases Nat.lt_succ_iff_lt_or_eq.1 hn with hn | rfl
        · exact hfailed n hn
        · exact hfails
      cases e with
      | panic message => exact absurd rfl (hpanic message)
      | error text =>
        rw [Process.eval_bind_of_ok _ hresult] at heval
        by_cases hlast : k + 1 < maxAttempts
        · -- the loop sleeps, and goes on
          simp only [if_pos hlast, doubled] at heval
          split at heval
          · exact ih (by omega) (clean_update.trans hnext) hfailed' heval
          · obtain ⟨rfl, -⟩ := Prod.mk.inj heval
            exact absurd rfl (hreturns _)
        · have hk : k + 1 = maxAttempts := by omega
          simp only [if_neg hlast] at heval
          obtain ⟨-, rfl⟩ := Prod.mk.inj heval
          rw [clean_update, hnext, hk]
          refine ⟨.inr, fun h ↦ h.resolve_left ?_⟩
          rintro ⟨n, hn, hsucceeds⟩
          exact hfailed' n (by omega) hsucceeds

/-- **When no plaintext is left behind.** After one attempt the temp path is free exactly when the
document was written, the temp path can be put into an expression and `logoscore` was started; or
nothing was written, and the path was free before. After the retries it is free exactly when an
attempt has succeeded, or the last of those that opened the file was one of this kind. -/
theorem clean_iff (files : Files) :
    (Disk.Clean K tempDir data ((uploadViaLogoscore K data logoscoreBin modulesDir).eval
        (Disk.respond tempDir outcomes) ⟨files, 0⟩).2 ↔
      FreeAfter (tempPath K tempDir data) (files (tempPath K tempDir data) = none) outcomes 1) ∧
    ∀ (config : IndexerConfig) (maxAttempts : ℕ) (r : Except Failure String) (t : Disk),
      config.backend = .logosCore logoscoreBin modulesDir →
      (uploadWithRetry K config data maxAttempts).eval (Disk.respond tempDir outcomes)
        ⟨files, 0⟩ = (r, t) →
      (∀ message, r ≠ .error (.panic message)) →
      (t.Clean K tempDir data ↔
        (∃ n < maxAttempts, (outcomes n).Succeeds (tempPath K tempDir data)) ∨
          FreeAfter (tempPath K tempDir data) (files (tempPath K tempDir data) = none) outcomes
            maxAttempts) := by
  constructor
  · obtain ⟨r, content, heval, hcontent, -⟩ :=
      eval_uploadViaLogoscore K tempDir outcomes data logoscoreBin modulesDir files 0
    rw [heval, clean_update, hcontent]
    exact Iff.rfl
  · intro config maxAttempts r t hbackend heval hreturns
    exact clean_uploadAttempts hbackend (Nat.zero_add _) Iff.rfl
      (fun n hn ↦ absurd hn n.not_lt_zero) heval hreturns

/-! ### A binary that is not there -/

/-- The document is written, and `logoscore` cannot be started, attempt after attempt. -/
def noBinary (_ : ℕ) : AttemptOutcome where
  write := .written
  logoscore := .error "No such file or directory (os error 2)"

/-- A document. -/
def leaked : List UInt8 := "the leaked document".utf8

/-- `/tmp` -/
def slashTmp : List UInt8 := "/tmp".utf8

/-- The indexer that uploads by `logoscore`. -/
def logoscoreConfig : IndexerConfig :=
  { testConfig with backend := .logosCore "logoscore" "./modules" }

/-- **The document stays on disk**, after one attempt and after all three. -/
theorem not_clean_noBinary :
    ((uploadViaLogoscore sampleCrates leaked "logoscore" "./modules").eval
        (Disk.respond slashTmp noBinary) ⟨fun _ ↦ none, 0⟩).2.files
          (tempPath sampleCrates slashTmp leaked) = some leaked ∧
      ((uploadWithRetry sampleCrates logoscoreConfig leaked 3).eval
        (Disk.respond slashTmp noBinary) ⟨fun _ ↦ none, 0⟩).2.files
          (tempPath sampleCrates slashTmp leaked) = some leaked := by
  decide +kernel

/-- The disk is full at the first attempt, and has room again afterwards. -/
def fullDisk : ℕ → AttemptOutcome
  | 0 => ⟨.cutOff "No space left on device (os error 28)" 10, .error "not started"⟩
  | _ => ⟨.written, .ok ⟨true, .ok (.object [("cid", .string sampleCid)]), "", ""⟩⟩

/-- The first attempt leaves the beginning of the document behind. The second one writes it over,
gets its CID, and removes it. -/
theorem clean_fullDisk :
    ((uploadViaLogoscore sampleCrates leaked "logoscore" "./modules").eval
        (Disk.respond slashTmp fullDisk) ⟨fun _ ↦ none, 0⟩).2.files
          (tempPath sampleCrates slashTmp leaked) = some (leaked.take 10) ∧
      ∃ t, (uploadWithRetry sampleCrates logoscoreConfig leaked 3).eval
          (Disk.respond slashTmp fullDisk) ⟨fun _ ↦ none, 0⟩ = (.ok sampleCid, t) ∧
        t.Clean sampleCrates slashTmp leaked := by
  have hok : ((uploadWithRetry sampleCrates logoscoreConfig leaked 3).eval
      (Disk.respond slashTmp fullDisk) ⟨fun _ ↦ none, 0⟩).1.toOption = some sampleCid := by
    decide +kernel
  have hexpr : (uploadExpr (tempPath sampleCrates slashTmp leaked)).toOption.isSome := by
    decide +kernel
  have hspawns : (fullDisk 2).Spawns (tempPath sampleCrates slashTmp leaked) := by
    refine ⟨?_, _, rfl⟩
    cases h : uploadExpr (tempPath sampleCrates slashTmp leaked) with
    | ok expr => exact ⟨expr, rfl⟩
    | error text =>
      rw [h] at hexpr
      cases hexpr
  refine ⟨by decide +kernel, ?_⟩
  generalize hresult : (uploadWithRetry sampleCrates logoscoreConfig leaked 3).eval
    (Disk.respond slashTmp fullDisk) ⟨fun _ ↦ none, 0⟩ = result at hok ⊢
  obtain ⟨r, t⟩ := result
  cases r with
  | error e => cases hok
  | ok cid =>
    obtain rfl := Option.some.inj hok
    refine ⟨t, rfl, ((clean_iff fun _ ↦ none).2 logoscoreConfig 3 _ _ rfl hresult ?_).2
      (.inr hspawns)⟩
    intro message h
    cases h

end Whistleblower.Indexer
