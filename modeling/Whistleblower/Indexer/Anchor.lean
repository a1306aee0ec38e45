import Whistleblower.BatchAnchor.Spel
import Whistleblower.Foundations.Lines
import Whistleblower.Indexer.Machine

/-!
# Anchoring from the indexer

`Indexer::anchor_batch` of `document-indexer/src/lib.rs`, the convenience path to the registry for a
batch of its own. It decodes the CIDs, writes the batch into the three list arguments of
`spel -- anchor-batch`, and takes the transaction hash from what `spel` prints.

A CID that cannot be decoded fails the whole batch, before anything is run.
-/

namespace Whistleblower.Indexer

open BatchAnchor (joinCommas)

variable (K : Crates)

/-- The decoded CIDs of the entries, in hexadecimal, or the first error. -/
def decodeEntries (entries : List (String × Hash)) : Except String (List (List Char)) :=
  entries.mapM fun e ↦ (decodeCid K e.1).map fun cid ↦ hexEncode cid.toList

/-- `str::split_whitespace`. -/
def splitWhitespace (l : List Char) : List (List Char) :=
  (l.splitOnP Lines.isWhitespace).filter (· ≠ [])

/-- The transaction hash in what `spel` has printed. -/
def txHash (stdout : String) : String :=
  match (Lines.lines stdout.toList).find? fun l ↦ decide ("tx_hash".toList <:+: l) with
  | some l => ((splitWhitespace l).getLast?.map String.ofList).getD "submitted"
  | none => "submitted"

/-- `Indexer::anchor_batch`. -/
def anchorBatch (entries : List (String × Hash)) (timestamp : UInt64) : Proc String :=
  if entries = [] then .pure "no-op"
  else if entries.length > MAX_BATCH_SIZE then
    bail s!"batch size {entries.length} exceeds MAX_BATCH_SIZE {MAX_BATCH_SIZE}"
  else do
    let cids ← question (decodeEntries K entries)
    let metas := entries.map fun e ↦ hexEncode e.2.toList
    let times := entries.map fun _ ↦ (Decimal.render timestamp).toList
    let spel ← envVarOr "SPEL_BIN" "spel"
    let idl ← envVarOr "SPEL_IDL" "cid-registry/cid-registry.idl.json"
    let workdir ← envVarOr "SPEL_WORKDIR" "."
    let out ← runSpel ⟨spel, workdir,
      ["--idl", idl, "--", "anchor-batch", "--entries-cids", joinCommas cids,
        "--entries-meta-hashes", joinCommas metas, "--entries-timestamps", joinCommas times]⟩
    if out.success then .pure (txHash out.stdout)
    else bail ("spel anchor-batch failed: " ++ out.stderr)

/-- One entry that cannot be decoded is enough. -/
theorem decodeEntries_eq_error {entries : List (String × Hash)} {e : String × Hash}
    (he : e ∈ entries) (h : ¬ Decodable K e.1) : ∃ text, decodeEntries K entries = .error text := by
  induction entries with
  | nil => exact absurd he List.not_mem_nil
  | cons e' entries ih =>
    rw [decodeEntries, List.mapM_cons]
    cases hcid : decodeCid K e'.1 with
    | error text => exact ⟨text, rfl⟩
    | ok cid =>
      have hmem : e ∈ entries := by
        refine (List.mem_cons.1 he).resolve_left ?_
        rintro rfl
        exact h ⟨cid, hcid⟩
      obtain ⟨text, htext⟩ := ih hmem
      refine ⟨text, ?_⟩
      show (decodeEntries K entries >>= _) = _
      rw [htext]
      rfl

/-- **A batch with a CID that cannot be decoded fails before `spel` is run.** -/
theorem anchorBatch_of_not_decodable {entries : List (String × Hash)} {e : String × Hash}
    (he : e ∈ entries) (h : ¬ Decodable K e.1) (timestamp : UInt64) :
    ∃ text, anchorBatch K entries timestamp = bail text := by
  rw [anchorBatch, if_neg (List.ne_nil_of_mem he)]
  split
  · exact ⟨_, rfl⟩
  · obtain ⟨text, htext⟩ := decodeEntries_eq_error K he h
    refine ⟨text, ?_⟩
    rw [htext]
    rfl

end Whistleblower.Indexer
