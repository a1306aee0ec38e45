import Whistleblower.Indexer.Dedup
import Whistleblower.Indexer.Upload

/-!
# Retrying an upload

What the loop of `upload_with_retry` comes to. The attempts and pauses that would follow one another
if every attempt failed form one sequence of states of the world (`attemptState`). The loop goes
along it, up to the first attempt that succeeds or to the last that it may make
(`uploadWithRetry_stopsAt`), and what it returns is the outcome of the attempt it has stopped at.

Attempts are counted from zero here, and from one in the source.
-/

namespace Whistleblower.Indexer

variable (K : Crates) (config : IndexerConfig) {σ : Type} (h : (o : Op) → σ → o.Ret × σ)
  (data : List UInt8) (s : σ)

/-! ### The sequence of attempts -/

/-- The pause behind an attempt that has failed, in milliseconds. -/
def pause (i : ℕ) : ℕ :=
  200 * 2 ^ i

/-- The delay fits into a `Duration`. -/
def Fits (milliseconds : ℕ) : Prop :=
  milliseconds < 1000 * 2 ^ 64

instance : DecidablePred Fits :=
  fun milliseconds ↦ inferInstanceAs (Decidable (milliseconds < 1000 * 2 ^ 64))

/-- The world that an attempt finds. -/
def attemptState : ℕ → σ
  | 0 => s
  | i + 1 => (h (.sleep (pause i)) ((uploadOnce K config data).eval h (attemptState i)).2).2

/-- What an attempt returns. -/
def outcome (i : ℕ) : Except Failure String :=
  ((uploadOnce K config data).eval h (attemptState K config h data s i)).1

/-- The world that an attempt leaves. -/
def stateAfter (i : ℕ) : σ :=
  ((uploadOnce K config data).eval h (attemptState K config h data s i)).2

/-- The operations of an attempt. -/
def attemptCalls (i : ℕ) : List Op :=
  (uploadOnce K config data).calls h (attemptState K config h data s i)

def Succeeded (i : ℕ) : Prop :=
  ∃ cid, outcome K config h data s i = .ok cid

def Failed (i : ℕ) : Prop :=
  ∃ text, outcome K config h data s i = .error (.error text)

theorem eval_uploadOnce (i : ℕ) :
    (uploadOnce K config data).eval h (attemptState K config h data s i) =
      (outcome K config h data s i, stateAfter K config h data s i) :=
  rfl

/-- **Every attempt succeeds or fails**, and does not panic. -/
theorem succeeded_or_failed (i : ℕ) :
    Succeeded K config h data s i ∨ Failed K config h data s i := by
  have heval := eval_uploadOnce K config h data s i
  rcases houtcome : outcome K config h data s i with (text | message) | cid
  · exact Or.inr ⟨text, houtcome⟩
  · rw [houtcome] at heval
    exact absurd ((failsOnly_uploadOnce K config data).eval h heval) id
  · exact Or.inl ⟨cid, houtcome⟩

variable {K config h data s} in
theorem Succeeded.eval_result {i : ℕ} (hi : Succeeded K config h data s i) :
    ∃ cid, outcome K config h data s i = .ok cid ∧
      (result (uploadOnce K config data)).eval h (attemptState K config h data s i) =
        (.ok (.ok cid), stateAfter K config h data s i) := by
  obtain ⟨cid, hcid⟩ := hi
  have heval := eval_uploadOnce K config h data s i
  rw [hcid] at heval
  exact ⟨cid, hcid, eval_result_of_ok heval⟩

variable {K config h data s} in
theorem Failed.eval_result {i : ℕ} (hi : Failed K config h data s i) :
    ∃ text, outcome K config h data s i = .error (.error text) ∧
      (result (uploadOnce K config data)).eval h (attemptState K config h data s i) =
        (.ok (.error text), stateAfter K config h data s i) := by
  obtain ⟨text, htext⟩ := hi
  have heval := eval_uploadOnce K config h data s i
  rw [htext] at heval
  exact ⟨text, htext, eval_result_of_error heval⟩

/-- An attempt that has failed, with its pause. -/
def failedCalls (i : ℕ) : List Op :=
  attemptCalls K config h data s i ++ [.sleep (pause i)]

/-- The pause an operation makes. -/
def sleepOf : Op → Option ℕ
  | .sleep milliseconds => some milliseconds
  | _ => none

/-- The run goes from the world that one attempt finds to the end of another, with whose outcome it
ends, and calls these operations. -/
structure RunsTo (p : Proc String) (i n : ℕ) (ops : List Op) : Prop where
  eval : p.eval h (attemptState K config h data s i) =
    (outcome K config h data s n, stateAfter K config h data s n)
  calls : p.calls h (attemptState K config h data s i) = ops

/-- The run makes the attempts up to this one, with a pause behind each but this, and returns what
this one returns. -/
structure StopsAt (maxAttempts n : ℕ) : Prop where
  eval : (uploadWithRetry K config data maxAttempts).eval h s =
    (outcome K config h data s n, stateAfter K config h data s n)
  calls : (uploadWithRetry K config data maxAttempts).calls h s =
    (List.range n).flatMap (failedCalls K config h data s) ++ attemptCalls K config h data s n
  pauses : ((uploadWithRetry K config data maxAttempts).calls h s).filterMap sleepOf =
    (List.range n).map pause

variable {K config h data s}

theorem pause_succ (i : ℕ) : pause i * 2 = pause (i + 1) := by
  rw [pause, pause, Nat.pow_succ, Nat.mul_assoc]

theorem Fits.of_le {i n : ℕ} (hfits : Fits (pause n)) (hle : i ≤ n) : Fits (pause i) :=
  lt_of_le_of_lt (Nat.mul_le_mul_left _ (Nat.pow_le_pow_right (by decide) hle)) hfits

theorem doubled_pause {i : ℕ} (hfits : Fits (pause (i + 1))) :
    doubled (pause i) = .pure (pause (i + 1)) := by
  rw [doubled, pause_succ]
  exact if_pos hfits

theorem doubled_pause_of_not_fits {i : ℕ} (hfits : ¬ Fits (pause (i + 1))) :
    doubled (pause i) = .fail (.panic "overflow when multiplying duration by scalar") := by
  rw [doubled, pause_succ]
  exact if_neg hfits

/-! ### One round of the loop -/

variable {maxAttempts attempt delay i n : ℕ} {attempts : List ℕ} {ops : List Op}

/-- An attempt that succeeds is the last. -/
theorem runsTo_of_succeeded (hi : Succeeded K config h data s i) :
    RunsTo K config h data s
      (uploadAttempts K config data maxAttempts (attempt :: attempts) delay) i i
      (attemptCalls K config h data s i) := by
  obtain ⟨cid, hcid, hresult⟩ := hi.eval_result
  constructor
  · rw [uploadAttempts, Process.eval_bind_of_ok h hresult, hcid]
    rfl
  · rw [uploadAttempts, Process.calls_bind_of_ok h hresult]
    exact (List.append_nil _).trans (Process.calls_attempt _ _ _ _)

/-- An attempt that fails is the last if no other may be made. -/
theorem runsTo_of_failed (hi : Failed K config h data s i) (hlast : ¬ attempt < maxAttempts) :
    RunsTo K config h data s
      (uploadAttempts K config data maxAttempts (attempt :: attempts) delay) i i
      (attemptCalls K config h data s i) := by
  obtain ⟨text, htext, hresult⟩ := hi.eval_result
  constructor
  · rw [uploadAttempts, Process.eval_bind_of_ok h hresult, htext]
    show (if attempt < maxAttempts then _ else _ : Proc String).eval h _ = _
    rw [if_neg hlast]
    rfl
  · rw [uploadAttempts, Process.calls_bind_of_ok h hresult]
    show _ ++ (if attempt < maxAttempts then _ else _ : Proc String).calls h _ = _
    rw [if_neg hlast]
    exact (List.append_nil _).trans (Process.calls_attempt _ _ _ _)

/-- **An attempt that fails is followed by the next**, after its pause. -/
theorem RunsTo.cons (hi : Failed K config h data s i) (hmore : attempt < maxAttempts)
    (hfits : Fits (pause (i + 1)))
    (hrest : RunsTo K config h data s
      (uploadAttempts K config data maxAttempts attempts (pause (i + 1))) (i + 1) n ops) :
    RunsTo K config h data s
      (uploadAttempts K config data maxAttempts (attempt :: attempts) (pause i)) i n
      (failedCalls K config h data s i ++ ops) := by
  obtain ⟨text, htext, hresult⟩ := hi.eval_result
  constructor
  · rw [uploadAttempts, Process.eval_bind_of_ok h hresult]
    show (if attempt < maxAttempts then _ else _ : Proc String).eval h _ = _
    rw [if_pos hmore, doubled_pause hfits]
    exact hrest.eval
  · rw [uploadAttempts, Process.calls_bind_of_ok h hresult, failedCalls, List.append_assoc]
    show _ ++ (if attempt < maxAttempts then _ else _ : Proc String).calls h _ = _
    rw [if_pos hmore, doubled_pause hfits]
    exact congrArg₂ (· ++ Op.sleep (pause i) :: ·) (Process.calls_attempt _ _ _ _) hrest.calls

/-! ### The whole loop -/

/-- **The loop from any attempt on.** The induction is on the attempts up to the one that ends the
run; those before it have failed, and it has succeeded or is the last. -/
theorem runsTo_uploadAttempts {m : ℕ} (hn : n < maxAttempts)
    (hfailed : ∀ i < n, Failed K config h data s i)
    (hends : Succeeded K config h data s n ∨ n + 1 = maxAttempts) (hfits : Fits (pause n)) {d : ℕ}
    (hd : i + d = n) (hm : i + m = maxAttempts) :
    RunsTo K config h data s
      (uploadAttempts K config data maxAttempts (List.range' (i + 1) m) (pause i)) i n
      ((List.range' i d).flatMap (failedCalls K config h data s) ++
        attemptCalls K config h data s n) := by
  obtain ⟨m, rfl⟩ : ∃ m', m = m' + 1 := ⟨m - 1, by omega⟩
  rw [List.range'_succ]
  induction d generalizing i m with
  | zero =>
    obtain rfl : i = n := hd
    rcases hends with hsucceeded | hlast
    · exact runsTo_of_succeeded hsucceeded
    · rcases succeeded_or_failed K config h data s i with hsucceeded | hfails
      · exact runsTo_of_succeeded hsucceeded
      · exact runsTo_of_failed hfails (by omega)
  | succ d ih =>
    obtain ⟨m, rfl⟩ : ∃ m', m = m' + 1 := ⟨m - 1, by omega⟩
    rw [List.range'_succ, List.range'_succ, List.flatMap_cons, List.append_assoc]
    exact .cons (hfailed i (by omega)) (by omega) (hfits.of_le (by omega))
      (ih (by omega) m (by omega))

/-- The pauses of a run are those between its attempts. -/
theorem filterMap_attemptCalls (i : ℕ) :
    (attemptCalls K config h data s i).filterMap sleepOf = [] := by
  refine List.filterMap_eq_nil_iff.2 fun o ho ↦ ?_
  have hstep := (callsOnly_uploadOnce K config data).of_mem_calls h ho
  cases o <;> first | rfl | exact absurd hstep id

theorem filterMap_failedCalls (n : ℕ) :
    ((List.range n).flatMap (failedCalls K config h data s)).filterMap sleepOf =
      (List.range n).map pause := by
  induction n with
  | zero => rfl
  | succ n ih =>
    rw [List.range_succ, List.flatMap_append, List.filterMap_append, ih, List.map_append,
      List.flatMap_singleton, failedCalls, List.filterMap_append, filterMap_attemptCalls]
    rfl

/-- **The loop stops** at the first attempt that succeeds, or at the last it may make. -/
theorem stopsAt (hn : n < maxAttempts) (hfailed : ∀ i < n, Failed K config h data s i)
    (hends : Succeeded K config h data s n ∨ n + 1 = maxAttempts) (hfits : Fits (pause n)) :
    StopsAt K config h data s maxAttempts n := by
  have hrun := runsTo_uploadAttempts hn hfailed hends hfits (Nat.zero_add n)
    (Nat.zero_add maxAttempts)
  rw [← List.range_eq_range'] at hrun
  refine ⟨hrun.eval, hrun.calls, ?_⟩
  rw [show (uploadWithRetry K config data maxAttempts).calls h s = _ from hrun.calls,
    List.filterMap_append, filterMap_failedCalls, filterMap_attemptCalls, List.append_nil]

/-! ### Panics -/

/-- What a run can fail with: an error, or a delay that has grown out of range. -/
def RetryFailure (maxAttempts : ℕ) : Failure → Prop
  | .error _ => True
  | .panic message =>
    message = "overflow when multiplying duration by scalar" ∧ ¬ Fits (pause (maxAttempts - 1))

/-- The end of the list of attempts is not reached, since the last of them is not followed by
another round. -/
theorem failsOnly_uploadAttempts {m : ℕ} (hm : i + (m + 1) = maxAttempts) :
    (uploadAttempts K config data maxAttempts (List.range' (i + 1) (m + 1)) (pause i)).FailsOnly
      (RetryFailure maxAttempts) := by
  induction m generalizing i with
  | zero =>
    refine (failsOnly_result (failsOnly_uploadOnce K config data)).bind fun x ↦ ?_
    cases x with
    | ok cid => exact trivial
    | error text =>
      show (if i + 1 < maxAttempts then _ else _ : Proc String).FailsOnly _
      rw [if_neg (by omega)]
      exact trivial
  | succ m ih =>
    refine (failsOnly_result (failsOnly_uploadOnce K config data)).bind fun x ↦ ?_
    cases x with
    | ok cid => exact trivial
    | error text =>
      show (if i + 1 < maxAttempts then _ else _ : Proc String).FailsOnly _
      rw [if_pos (by omega)]
      intro _
      show (doubled (pause i) >>= _ : Proc String).FailsOnly _
      by_cases hfits : Fits (pause (i + 1))
      · rw [doubled_pause hfits]
        exact ih (by omega)
      · rw [doubled_pause_of_not_fits hfits]
        exact ⟨rfl, fun hlast ↦ hfits (hlast.of_le (by omega))⟩

/-- **A retried upload panics only when its delay overflows.** -/
theorem failsOnly_uploadWithRetry (hmax : 1 ≤ maxAttempts) :
    (uploadWithRetry K config data maxAttempts).FailsOnly (RetryFailure maxAttempts) := by
  obtain ⟨m, rfl⟩ := Nat.exists_eq_add_of_le' hmax
  exact failsOnly_uploadAttempts (Nat.zero_add (m + 1))

/-- Nothing panics as long as the delays fit. -/
theorem failsOnly_isError_uploadWithRetry (hmax : 1 ≤ maxAttempts)
    (hfits : Fits (pause (maxAttempts - 1))) :
    (uploadWithRetry K config data maxAttempts).FailsOnly IsError := by
  refine (failsOnly_uploadWithRetry hmax).mono fun e he ↦ ?_
  cases e with
  | error text => exact trivial
  | panic message => exact he.2 hfits

/-! ### The loop is right -/

/-- **Retrying returns the first success, or the last error**, with the pauses that lie between.
The code behind the loop is not reached. -/
theorem uploadWithRetry_stopsAt (K : Crates) (config : IndexerConfig)
    (h : (o : Op) → σ → o.Ret × σ) (data : List UInt8) (s : σ) {maxAttempts : ℕ}
    (hmax : 1 ≤ maxAttempts) :
    (∀ n < maxAttempts, (∀ i < n, Failed K config h data s i) →
      Succeeded K config h data s n → Fits (pause n) →
        StopsAt K config h data s maxAttempts n) ∧
    ((∀ i < maxAttempts, Failed K config h data s i) → Fits (pause (maxAttempts - 1)) →
      StopsAt K config h data s maxAttempts (maxAttempts - 1)) ∧
    (∀ i, Succeeded K config h data s i ∨ Failed K config h data s i) ∧
    ∀ message t, (uploadWithRetry K config data maxAttempts).eval h s =
      (.error (.panic message), t) →
        message = "overflow when multiplying duration by scalar" ∧
          ¬ Fits (pause (maxAttempts - 1)) := by
  refine ⟨fun n hn hfailed hsucceeded hfits ↦ stopsAt hn hfailed (.inl hsucceeded) hfits,
    fun hfailed hfits ↦ ?_, succeeded_or_failed K config h data s, fun message t heval ↦ ?_⟩
  · exact stopsAt (by omega) (fun i hi ↦ hfailed i (by omega)) (.inr (by omega)) hfits
  · exact (failsOnly_uploadWithRetry hmax).eval h heval

/-- A storage service that is up from the third request on. -/
def upFromThird : (o : Op) → ℕ → o.Ret × ℕ
  | .postFile _ _, n =>
    (if n < 2 then .error "error sending request"
      else .ok ⟨true, "200 OK", .ok (.object [("cid", .string sampleCid)])⟩, n + 1)
  | o, n => (unreachable [] o, n)

/-- The third attempt returns the CID, after pauses of 200 and 400 milliseconds. -/
theorem stopsAt_upFromThird :
    StopsAt sampleCrates testConfig upFromThird [] 0 3 2 ∧
      outcome sampleCrates testConfig upFromThird [] 0 2 = .ok sampleCid := by
  have hsucceeded : outcome sampleCrates testConfig upFromThird [] 0 2 = .ok sampleCid := rfl
  have hfailed : ∀ i < 2, Failed sampleCrates testConfig upFromThird [] 0 i := by
    intro i hi
    obtain rfl | rfl : i = 0 ∨ i = 1 := by omega
    · exact ⟨"error sending request", rfl⟩
    · exact ⟨"error sending request", rfl⟩
  obtain ⟨hfirst, -⟩ := uploadWithRetry_stopsAt sampleCrates testConfig upFromThird [] 0
    (show 1 ≤ 3 by decide)
  exact ⟨hfirst 2 (by decide) hfailed ⟨_, hsucceeded⟩ (by decide), hsucceeded⟩

end Whistleblower.Indexer
