import Whistleblower.BatchAnchor.Delivery
import Whistleblower.BatchAnchor.MetadataHash
import Whistleblower.BatchAnchor.Spel
import Whistleblower.Foundations.WordOrder

/-!
# The polling loop

`run` of `batch-anchor-cli/src/main.rs`: poll, gather what is to be anchored, submit it, record it,
move the cursor, repeat. Three stores are written one after the other in an iteration: the registry
(through `spel`), the `anchored` table, and the persisted cursor.

The loop has no end of its own, so `runLoop` is given a number of iterations and says with `none`
that it has used them up. Every finite stretch of the real loop is a stretch of `runLoop n` for
large `n`.
-/

namespace Whistleblower.BatchAnchor

/-- The arguments of the `run` subcommand. -/
structure RunArgs where
  topic : String
  batchSize : ℕ
  /-- Stop after anchoring so many batches (0 = run indefinitely). -/
  maxBatches : ℕ
  /-- Print what would be anchored without submitting any transactions. -/
  dryRun : Bool
  /-- Process the currently-available messages once, then exit. -/
  once : Bool

variable (K : Crates) (cli : Cfg) (args : RunArgs)

/-- The `for m in &messages` loop: advance the cursor over all messages, and collect the entries
that are neither recorded as anchored nor undecodable. -/
def gather : List DeliveryMsg → UInt64 → List AnchorEntry → Proc (UInt64 × List AnchorEntry)
  | [], newCursor, entries => .pure (newCursor, entries)
  | m :: messages, newCursor, entries => do
    if ← isAnchored m.payload.cid then
      gather messages (max newCursor m.seq) entries
    else
      match decodeCid K m.payload.cid with
      -- `skip invalid cid`
      | .error _ => gather messages (max newCursor m.seq) entries
      | .ok cid =>
        gather messages (max newCursor m.seq)
          (entries ++ [(cid, metadataHashFromPayload K.sha256 m.payload, m.payload.cid)])

/-- `for (_, _, cid) in &entries { mark_anchored(db, cid)?; }` -/
def markAll : List AnchorEntry → Proc Unit
  | [] => .pure ()
  | e :: entries => do
    markAnchored e.2.2
    markAll entries

/-- How an iteration ends: with the loop variables of the next one, or with a `break`. -/
inductive Next where
  | again (cursor : UInt64) (batchesSubmitted : ℕ)
  | done
  deriving DecidableEq

/-- Go on, or stop where `--once` says so. -/
def Next.unlessOnce (cursor : UInt64) (batchesSubmitted : ℕ) : Next :=
  if args.once then .done else .again cursor batchesSubmitted

theorem Next.cursor_of_unlessOnce {args : RunArgs} {cursor cursor' : UInt64} {b b' : ℕ}
    (h : Next.unlessOnce args cursor b = .again cursor' b') : cursor' = cursor := by
  rw [Next.unlessOnce] at h
  split at h
  · cases h
  · exact (Next.again.inj h).1.symm

/-- What an iteration does with the messages of a non-empty poll. -/
def process (cursor : UInt64) (batchesSubmitted : ℕ) (messages : List DeliveryMsg) : Proc Next := do
  let (newCursor, entries) ← gather K messages cursor []
  if entries = [] then
    saveCursor newCursor
    .pure (Next.unlessOnce args newCursor batchesSubmitted)
  else
    let now ← now
    if args.dryRun then .pure ()
    else
      anchorViaSpel cli entries now
      markAll entries
    -- behind the branch, so in a dry run too
    saveCursor newCursor
    .pure (Next.unlessOnce args newCursor (batchesSubmitted + 1))

/-- One iteration of the loop. -/
def iteration (cursor : UInt64) (batchesSubmitted : ℕ) : Proc Next :=
  if args.maxBatches > 0 ∧ batchesSubmitted ≥ args.maxBatches then .pure .done
  else do
    let messages ← pollDelivery K cli.deliverySource args.topic cursor args.batchSize
    if messages = [] then
      if args.once then .pure .done
      else
        sleep 2
        .pure (.again cursor batchesSubmitted)
    else process K cli args cursor batchesSubmitted messages

/-- The loop, for at most so many iterations. -/
def runLoop : ℕ → UInt64 → ℕ → Proc (Option Unit)
  | 0, _, _ => .pure none
  | n + 1, cursor, batchesSubmitted => do
    match ← iteration K cli args cursor batchesSubmitted with
    | .done => .pure (some ())
    | .again cursor batchesSubmitted => runLoop n cursor batchesSubmitted

/-- `run`, for at most so many iterations of its loop. -/
def run (n : ℕ) : Proc (Option Unit) := do
  let cursor ← loadCursor
  runLoop K cli args n cursor 0

/-! ### Arguments for concrete runs -/

/-- A queue file as the source. -/
def queueCfg : Cfg :=
  ⟨"file:queue", "spel", "idl", "."⟩

/-- `run --once`. -/
def onceArgs (batchSize : ℕ) : RunArgs :=
  ⟨"topic", batchSize, 0, false, true⟩

/-! ### The newest message -/

/-- The cursor after a list of messages. -/
def newest (cursor : UInt64) (msgs : List DeliveryMsg) : UInt64 :=
  msgs.foldl (fun c m ↦ max c m.seq) cursor

@[simp] theorem newest_nil (cursor : UInt64) : newest cursor [] = cursor := rfl

@[simp] theorem newest_cons (cursor : UInt64) (m : DeliveryMsg) (msgs : List DeliveryMsg) :
    newest cursor (m :: msgs) = newest (max cursor m.seq) msgs := rfl

theorem le_newest (cursor : UInt64) (msgs : List DeliveryMsg) : cursor ≤ newest cursor msgs := by
  induction msgs generalizing cursor with
  | nil => exact le_refl _
  | cons m msgs ih => exact (le_max_left _ _).trans (ih _)

theorem le_newest_of_mem {cursor : UInt64} {msgs : List DeliveryMsg} {m : DeliveryMsg}
    (hm : m ∈ msgs) : m.seq ≤ newest cursor msgs := by
  induction msgs generalizing cursor with
  | nil => exact absurd hm List.not_mem_nil
  | cons n msgs ih =>
    rcases List.mem_cons.1 hm with rfl | hm
    · exact (le_max_right _ _).trans (le_newest _ _)
    · exact ih hm

theorem newest_eq (cursor : UInt64) (msgs : List DeliveryMsg) :
    newest cursor msgs = cursor ∨ ∃ m ∈ msgs, newest cursor msgs = m.seq := by
  induction msgs generalizing cursor with
  | nil => exact Or.inl rfl
  | cons m msgs ih =>
    rw [newest_cons]
    rcases ih (max cursor m.seq) with heq | ⟨n, hn, heq⟩
    · rcases max_choice cursor m.seq with hmax | hmax
      · exact Or.inl (heq.trans hmax)
      · exact Or.inr ⟨m, List.mem_cons_self, heq.trans hmax⟩
    · exact Or.inr ⟨n, List.mem_cons_of_mem _ hn, heq⟩

/-- The cursor stays where it is if no message is above it. -/
theorem newest_eq_self_iff {cursor : UInt64} {msgs : List DeliveryMsg} :
    newest cursor msgs = cursor ↔ ∀ m ∈ msgs, m.seq ≤ cursor := by
  refine ⟨fun h m hm ↦ (le_newest_of_mem hm).trans_eq h, fun h ↦ ?_⟩
  rcases newest_eq cursor msgs with heq | ⟨m, hm, heq⟩
  · exact heq
  · exact le_antisymm (heq.trans_le (h m hm)) (le_newest cursor msgs)

/-- The newest of some messages is the cursor after them. -/
theorem newest_eq_of_greatest {cursor : UInt64} {msgs : List DeliveryMsg} {m : DeliveryMsg}
    (hm : m ∈ msgs) (hle : ∀ n ∈ msgs, n.seq ≤ m.seq) (hcursor : cursor ≤ m.seq) :
    newest cursor msgs = m.seq := by
  refine le_antisymm ?_ (le_newest_of_mem hm)
  rcases newest_eq cursor msgs with heq | ⟨n, hn, heq⟩
  · exact heq.trans_le hcursor
  · exact heq.trans_le (hle n hn)

end Whistleblower.BatchAnchor
