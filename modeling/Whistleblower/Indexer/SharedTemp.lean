import Whistleblower.Foundations.Typestate
import Whistleblower.Indexer.TempFile

/-!
# Uploads that share a temp directory

Any number of uploads at the same time, in one temp directory. Each writes its document, lets
`logoscore` read it, and removes it.

The file is named by the digest of the document, so two uploads of one document have one file
between them, and the one that is done first removes it from under the other. The file an upload
owns is a matter of the document alone; `intact_iff` says that nothing else can go wrong.
-/

namespace Whistleblower.Indexer

/-! ### The files -/

/-- What a call does in a temp directory, in one step. A write is one step that is done or not done:
one that fails has not touched the file, and what is left of a document when it is cut off in the
middle (`WriteOutcome.cutOff`) is not looked at here. A removal is taken to succeed. -/
def Files.performs (tempDir : List UInt8) : (o : Op) → Files → o.Ret → Files → Prop
  | .tempDir, s, r, t => r = tempDir ∧ t = s
  | .writeFile path data, s, .ok (), t => t = Function.update s path (some data)
  | .removeFile path, s, _, t => t = Function.update s path none
  | _, s, _, t => t = s

variable (K : Crates) (tempDir : List UInt8)

/-- **Different digests have different files.** -/
theorem tempPath_inj {d d' : List UInt8} (h : tempPath K tempDir d = tempPath K tempDir d') :
    K.sha256 d = K.sha256 d' := by
  have hname : ∀ name name', joinPath tempDir name = joinPath tempDir name' → name = name' := by
    intro name name' hjoin
    rw [joinPath, joinPath] at hjoin
    split at hjoin
    · exact String.utf8_inj.1 hjoin
    · split at hjoin
      · exact String.utf8_inj.1 (List.append_cancel_left hjoin)
      · exact String.utf8_inj.1 (List.cons.inj (List.append_cancel_left hjoin)).2
  have hdigits := congrArg String.toList (hname _ _ h)
  simp only [String.toList_append, String.toList_ofList, List.append_cancel_left_eq] at hdigits
  have hhex := hexDecode_hexEncode (K.sha256 d).toList
  rw [hdigits, hexDecode_hexEncode] at hhex
  exact Bytes.ext (Option.some.inj hhex).symm

/-! ### The discipline of an upload -/

/-- The document lies in its file, as far as the upload knows. -/
inductive FileStage where
  | absent
  | written
  deriving DecidableEq

/-- What an upload of the document does with files: it writes and removes its own, and lets
`logoscore` read it once it has written it. -/
def uploadTypestate (data : List UInt8) : Typestate Op.Ret FileStage where
  answers
    | .tempDir, r => r = tempDir
    | _, _ => True
  allowed q
    | .writeFile path d => path = tempPath K tempDir data ∧ d = data
    | .logoscore command => q = .written ∧ uploadExpr (tempPath K tempDir data) = .ok command.expr
    | .removeFile path => path = tempPath K tempDir data
    | _ => True
  next _
    | .writeFile _ _, .ok () => .written
    | _, _ => .absent

variable {K tempDir} {data : List UInt8}

theorem follows_question {α : Type} (x : Except String α) (q : FileStage) :
    (question x).Follows (uploadTypestate K tempDir data) q := by
  cases x <;> exact trivial

theorem follows_uploadViaLogoscore (logoscoreBin modulesDir : String) (q : FileStage) :
    (uploadViaLogoscore K data logoscoreBin modulesDir).Follows
      (uploadTypestate K tempDir data) q := by
  rw [uploadViaLogoscore_eq]
  refine ⟨trivial, ?_⟩
  rintro dir rfl
  refine ⟨⟨rfl, rfl⟩, fun written _ ↦ ?_⟩
  cases written with
  | error text => exact trivial
  | ok _ =>
    show (uploadWritten logoscoreBin modulesDir (tempPath K dir data)).Follows
      (uploadTypestate K dir data) .written
    rw [uploadWritten]
    cases hexpr : uploadExpr (tempPath K dir data) with
    | error text => exact trivial
    | ok expr =>
      refine ⟨⟨rfl, hexpr⟩, fun answer _ ↦ ?_⟩
      cases answer with
      | error text => exact trivial
      | ok out => exact ⟨rfl, fun _ _ ↦ follows_question _ _⟩

theorem follows_uploadViaHttp (config : IndexerConfig) (q : FileStage) :
    (uploadViaHttp config data).Follows (uploadTypestate K tempDir data) q := by
  refine ⟨trivial, fun response _ ↦ ?_⟩
  cases response with
  | error e => exact trivial
  | ok resp =>
    show (if resp.success then _ else _ : Proc String).Follows _ _
    split
    · refine .bind (follows_question _ _) fun body q' ↦ ?_
      split
      · exact trivial
      · exact trivial
    · exact trivial

theorem follows_uploadAttempts (config : IndexerConfig) (maxAttempts : ℕ) (attempts : List ℕ)
    (delay : ℕ) (q : FileStage) :
    (uploadAttempts K config data maxAttempts attempts delay).Follows
      (uploadTypestate K tempDir data) q := by
  induction attempts generalizing delay q with
  | nil => exact trivial
  | cons attempt attempts ih =>
    have honce : (uploadOnce K config data).Follows (uploadTypestate K tempDir data) q := by
      rw [uploadOnce]
      split
      · exact follows_uploadViaLogoscore _ _ q
      · exact follows_uploadViaHttp config q
    rw [uploadAttempts]
    refine .bind honce.attempt fun outcome q' ↦ ?_
    cases outcome with
    | ok cid => exact trivial
    | error e =>
      show (if attempt < maxAttempts then _ else _ : Proc String).Follows _ _
      split
      · refine .bind ⟨trivial, fun _ _ ↦ trivial⟩ fun _ q₁ ↦ .bind ?_ fun delay q₂ ↦ ih delay q₂
        rw [doubled]
        split
        · exact trivial
        · exact trivial
      · exact trivial

/-! ### Uploads at the same time -/

variable (K) in
/-- A call that uploads the document: once, or with retries. -/
inductive UploadCall (data : List UInt8) : Proc String → Prop
  | once (logoscoreBin modulesDir : String) :
      UploadCall data (uploadViaLogoscore K data logoscoreBin modulesDir)
  | retried (config : IndexerConfig) (maxAttempts : ℕ) :
      UploadCall data (uploadWithRetry K config data maxAttempts)

theorem UploadCall.follows {p : Proc String} (h : UploadCall K data p) (q : FileStage) :
    p.Follows (uploadTypestate K tempDir data) q := by
  cases h with
  | once bin dir => exact follows_uploadViaLogoscore bin dir q
  | retried config maxAttempts => exact follows_uploadAttempts config maxAttempts _ _ q

/-- The call is at the point where `logoscore` reads its file. -/
def atRead : Proc String → Bool
  | .op (.logoscore _) _ => true
  | _ => false

/-- The call is about to remove its file. -/
def atRemoval : Proc String → Bool
  | .op (.removeFile _) _ => true
  | _ => false

theorem exists_of_atRead {p : Proc String} (h : atRead p = true) :
    ∃ command k, p = .op (.logoscore command) k := by
  unfold atRead at h
  split at h
  · exact ⟨_, _, rfl⟩
  · cases h

theorem exists_of_atRemoval {p : Proc String} (h : atRemoval p = true) :
    ∃ path k, p = .op (.removeFile path) k := by
  unfold atRemoval at h
  split at h
  · exact ⟨_, _, rfl⟩
  · cases h

variable {ι : Type} {document : ι → List UInt8}

/-- Calls in one temp directory. -/
abbrev SharingTemp (ι : Type) := Pool Op.Ret Failure String Files ι

variable (K tempDir document) in
/-- What `logoscore` is about to read for a call is the document of the call. -/
def Intact (c : SharingTemp ι) : Prop :=
  ∀ i, atRead (c.process i) = true →
    c.world (tempPath K tempDir (document i)) = some (document i)

variable [DecidableEq ι]

variable (tempDir) in
/-- A call makes its next step. -/
abbrev SharingTemp.Moves : ι → SharingTemp ι → SharingTemp ι → Prop :=
  Pool.Moves (Files.performs tempDir)

theorem answers_of_performs {o : Op} {s t : Files} {r : o.Ret}
    (h : Files.performs tempDir o s r t) : (uploadTypestate K tempDir data).answers o r := by
  cases o with
  | tempDir => exact h.1
  | _ => exact trivial

/-- A call at its read knows its file to be written. -/
theorem eq_written_of_atRead {p : Proc String} {q : FileStage}
    (h : p.Follows (uploadTypestate K tempDir data) q) (hread : atRead p = true) :
    q = .written := by
  obtain ⟨command, k, rfl⟩ := exists_of_atRead hread
  exact h.1.1

/-- **What a step of an upload does to the files**: it touches none but its own. -/
theorem performs_cases {o : Op} {s t : Files} {r : o.Ret} {q : FileStage}
    (hallowed : (uploadTypestate K tempDir data).allowed q o)
    (h : Files.performs tempDir o s r t) :
    (t = Function.update s (tempPath K tempDir data) (some data)) ∨
      (uploadTypestate K tempDir data).next q o r = .absent ∧
        (t = s ∨ t = Function.update s (tempPath K tempDir data) none ∧
          ∃ path, o = .removeFile path) := by
  cases o with
  | writeFile path d =>
    obtain ⟨rfl, rfl⟩ := hallowed
    cases r with
    | ok _ => exact .inl h
    | error text => exact .inr ⟨rfl, .inl h⟩
  | removeFile path =>
    obtain rfl := hallowed
    exact .inr ⟨rfl, .inr ⟨h, _, rfl⟩⟩
  | tempDir => exact .inr ⟨rfl, .inl h.2⟩
  | _ => exact .inr ⟨rfl, .inl h⟩

/-- **One step**: it leaves what is to be read intact, unless it removes a file that is to be
read. -/
theorem intact_step {c d : SharingTemp ι} {i : ι} {q : ι → FileStage}
    (hmoves : SharingTemp.Moves tempDir i c d)
    (hfollows : ∀ j, (c.process j).Follows (uploadTypestate K tempDir (document j)) (q j))
    (hcollision : ∀ i j, K.sha256 (document i) = K.sha256 (document j) →
      document i = document j)
    (hremoval : atRemoval (c.process i) = true →
      ∀ j, document j = document i → atRead (c.process j) = false)
    (hc : Intact K tempDir document c) : Intact K tempDir document d := by
  obtain ⟨o, k, r, hprocess, hallowed, hperforms, hprocesses, hnext⟩ :=
    hmoves.follows answers_of_performs hfollows
  intro j hread
  have hwritten := eq_written_of_atRead (hnext j) hread
  by_cases hji : j = i
  · -- the call that moves has just written its file
    subst hji
    rw [Function.update_self] at hwritten
    rcases performs_cases hallowed hperforms with hwrite | ⟨habsent, -⟩
    · rw [hwrite, Function.update_self]
    · exact nomatch hwritten.symm.trans habsent
  · rw [hprocesses, Function.update_of_ne hji] at hread
    have hfile := hc j hread
    rcases performs_cases hallowed hperforms with hwrite | ⟨-, hstay | ⟨hremove, path, rfl⟩⟩
    · rw [hwrite]
      by_cases htmp : tempPath K tempDir (document j) = tempPath K tempDir (document i)
      · rw [htmp, Function.update_self, hcollision j i (tempPath_inj K tempDir htmp)]
      · rw [Function.update_of_ne htmp, hfile]
    · rw [hstay, hfile]
    · have htmp : tempPath K tempDir (document j) ≠ tempPath K tempDir (document i) := by
        intro htmp
        have hsame := hcollision j i (tempPath_inj K tempDir htmp)
        rw [hremoval (by rw [hprocess]; rfl) j hsame] at hread
        cases hread
      rw [hremove, Function.update_of_ne htmp, hfile]

/-! ### Runs -/

variable {run : ℕ → SharingTemp ι} {actor : ℕ → Option ι}

theorem follows_of_run (hrun : IsRun (SharingTemp.Moves tempDir) run actor)
    (hbegins : ∀ i, UploadCall K (document i) ((run 0).process i)) (n : ℕ) :
    ∃ q : ι → FileStage, ∀ j,
      ((run n).process j).Follows (uploadTypestate K tempDir (document j)) (q j) :=
  hrun.follows answers_of_performs (fun j ↦ (hbegins j).follows .absent) n

/-- **The run**: `logoscore` reads what the call has written, if no call removes its file while
another call with the same document is at its read. -/
theorem intact_of_run
    (hcollision : ∀ i j, K.sha256 (document i) = K.sha256 (document j) →
      document i = document j)
    (hrun : IsRun (SharingTemp.Moves tempDir) run actor)
    (hbegins : ∀ i, UploadCall K (document i) ((run 0).process i))
    (hremovals : ∀ n i, actor n = some i → atRemoval ((run n).process i) = true →
      ∀ j, document j = document i → atRead ((run n).process j) = false) (n : ℕ) :
    Intact K tempDir document (run n) := by
  induction n with
  | zero =>
    -- nobody has got to a read yet
    intro i hread
    have hfollows : ((run 0).process i).Follows (uploadTypestate K tempDir (document i)) .absent :=
      (hbegins i).follows .absent
    exact nomatch eq_written_of_atRead hfollows hread
  | succ n ih =>
    cases hactor : actor n with
    | none =>
      rw [hrun.idle hactor]
      exact ih
    | some i =>
      obtain ⟨q, hfollows⟩ := follows_of_run hrun hbegins n
      exact intact_step (hrun.move hactor) hfollows hcollision (hremovals n i hactor) ih

/-- **Uploads of different documents** never get into each other's way. -/
theorem intact_of_injective
    (hcollision : ∀ i j, K.sha256 (document i) = K.sha256 (document j) →
      document i = document j)
    (hdifferent : Function.Injective document)
    (hrun : IsRun (SharingTemp.Moves tempDir) run actor)
    (hbegins : ∀ i, UploadCall K (document i) ((run 0).process i)) (n : ℕ) :
    Intact K tempDir document (run n) := by
  refine intact_of_run hcollision hrun hbegins (fun n i _ hremoval j hsame ↦ ?_) n
  obtain rfl := hdifferent hsame
  obtain ⟨path, k, hprocess⟩ := exists_of_atRemoval hremoval
  rw [hprocess]
  rfl

/-- **When uploads leave each other alone.** In a run, `logoscore` always reads the document of the
call it was started for if and only if no call removes its file while another call with the same
document is at its read. -/
theorem intact_iff
    (hcollision : ∀ i j, K.sha256 (document i) = K.sha256 (document j) →
      document i = document j)
    (hrun : IsRun (SharingTemp.Moves tempDir) run actor)
    (hbegins : ∀ i, UploadCall K (document i) ((run 0).process i)) :
    (∀ n, Intact K tempDir document (run n)) ↔
      ∀ n i, actor n = some i → atRemoval ((run n).process i) = true →
        ∀ j, document j = document i → atRead ((run n).process j) = false := by
  constructor
  · intro hintact n i hactor hremoval j hsame
    by_contra hread
    rw [Bool.not_eq_false] at hread
    obtain ⟨q, hfollows⟩ := follows_of_run hrun hbegins n
    obtain ⟨o, k, r, hprocess, hallowed, hperforms, hprocesses, -⟩ :=
      (hrun.move hactor).follows answers_of_performs hfollows
    obtain ⟨path, k', hremove⟩ := exists_of_atRemoval hremoval
    obtain ⟨rfl, -⟩ := Process.op.inj (hremove.symm.trans hprocess)
    obtain rfl : path = tempPath K tempDir (document i) := hallowed
    have hji : j ≠ i := by
      rintro rfl
      obtain ⟨command, k'', hcommand⟩ := exists_of_atRead hread
      exact nomatch (Process.op.inj (hcommand.symm.trans hremove)).1
    -- the other call is still at its read, and its file is gone
    have hfile := hintact (n + 1) j (by rw [hprocesses, Function.update_of_ne hji, hread])
    have hgone : (run (n + 1)).world =
        Function.update (run n).world (tempPath K tempDir (document i)) none := hperforms
    rw [hgone, hsame, Function.update_self] at hfile
    cases hfile
  · exact intact_of_run hcollision hrun hbegins

/-! ### One document, uploaded twice -/

/-- The temp directory where every step succeeds. -/
def Files.respond (tempDir : List UInt8) (out : Output) : (o : Op) → Files → o.Ret × Files
  | .tempDir, s => (tempDir, s)
  | .writeFile path data, s => (.ok (), Function.update s path (some data))
  | .removeFile path, s => (.ok (), Function.update s path none)
  | .logoscore _, s => (.ok out, s)
  | o, s => (unreachable [] o, s)

theorem performs_respond (tempDir : List UInt8) (out : Output) (o : Op) (s : Files) :
    Files.performs tempDir o s (Files.respond tempDir out o s).1
      (Files.respond tempDir out o s).2 := by
  cases o with
  | tempDir => exact ⟨rfl, rfl⟩
  | _ => exact rfl

/-- What `storage_module` prints for an upload. -/
def uploaded : Output where
  success := true
  json := .ok (.object [("cid", .string "zDvZRwzm")])
  stdout := "\x7b\"cid\":\"zDvZRwzm\"\x7d"
  stderr := ""

/-- Both calls write the document. Then the first goes on to the end, and only then has the second
its document read. -/
def removalSchedule : ℕ → Option Bool
  | 0 => some false
  | 1 => some false
  | 2 => some true
  | 3 => some true
  | 4 => some false
  | 5 => some false
  | 6 => some true
  | _ => none

/-- Two uploads of one document in that order. -/
def removalRun : ℕ → SharingTemp Bool :=
  Pool.play (Files.respond slashTmp uploaded)
    ⟨fun _ ↦ none, fun _ ↦ uploadViaLogoscore sampleCrates leaked "logoscore" "./modules"⟩
    removalSchedule

/-- Who moves in it. -/
def removalActor (n : ℕ) : Option Bool :=
  (removalSchedule n).filter (removalRun n).running

theorem isRun_removalRun : IsRun (SharingTemp.Moves slashTmp) removalRun removalActor :=
  Pool.isRun_play (performs_respond slashTmp uploaded) _ _

/-- **Nothing left to read**: the second call has its document read when the first has removed the
file. -/
theorem not_intact_removalRun :
    IsRun (SharingTemp.Moves slashTmp) removalRun removalActor ∧
      (∀ i, UploadCall sampleCrates leaked ((removalRun 0).process i)) ∧
      removalActor 6 = some true ∧ atRead ((removalRun 6).process true) = true ∧
      (removalRun 6).world (tempPath sampleCrates slashTmp leaked) = none := by
  refine ⟨isRun_removalRun, fun i ↦ .once _ _, ?_, ?_, ?_⟩
  · decide +kernel
  · decide +kernel
  · decide +kernel

/-- The law on that run. -/
theorem intact_iff_removalRun :
    (∀ n, Intact sampleCrates slashTmp (fun _ : Bool ↦ leaked) (removalRun n)) ↔
      ∀ n i, removalActor n = some i → atRemoval ((removalRun n).process i) = true →
        ∀ j : Bool, leaked = leaked → atRead ((removalRun n).process j) = false :=
  intact_iff (fun _ _ _ ↦ rfl) isRun_removalRun fun _ ↦ .once _ _

end Whistleblower.Indexer
