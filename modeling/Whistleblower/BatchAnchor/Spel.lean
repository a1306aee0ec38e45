import Whistleblower.BatchAnchor.Machine
import Whistleblower.Registry.Program

/-!
# Submitting a batch through `spel`

`anchor_via_spel` of `batch-anchor-cli/src/main.rs` writes a batch into three comma-separated
arguments: CIDs and hashes in hexadecimal, timestamps in decimal. On the other side, `spel` splits
each argument at the commas and decodes the pieces (`SpelCommand.batch?`).

Nothing is lost on the way (`batch?_spelCommand`), as long as there is an entry at all: of an empty
list, the arguments say that there is one empty piece.
-/

namespace Whistleblower.BatchAnchor

open CidRegistryProgram

/-- The non-subcommand part of the command line. -/
structure Cfg where
  deliverySource : String
  spelBin : String
  idl : String
  workdir : String

/-- An entry to be anchored: the decoded CID, the metadata hash, and the CID string. -/
abbrev AnchorEntry := CidBytes × Hash × String

/-- `.collect::<Vec<_>>().join(",")`. -/
def joinCommas (pieces : List (List Char)) : String :=
  String.ofList ([','].intercalate pieces)

/-- The command line of one call. -/
def spelCommand (cli : Cfg) (entries : List AnchorEntry) (timestamp : UInt64) : SpelCommand where
  spelBin := cli.spelBin
  workdir := cli.workdir
  idl := cli.idl
  entriesCids := joinCommas (entries.map fun e ↦ hexEncode e.1.toList)
  entriesMetaHashes := joinCommas (entries.map fun e ↦ hexEncode e.2.1.toList)
  entriesTimestamps := joinCommas (entries.map fun _ ↦ (Decimal.render timestamp).toList)

/-- `anchor_via_spel`. -/
def anchorViaSpel (cli : Cfg) (entries : List AnchorEntry) (timestamp : UInt64) : Proc Unit :=
  .op (.spel (spelCommand cli entries timestamp)) fun
    | .error _ => .fail ("spawning spel (" ++ cli.spelBin ++ ")")
    | .ok out =>
      if out.success then .pure ()
      else .fail ("spel anchor-batch failed (exit " ++ out.code ++ "): " ++ out.stderr)

/-! ### What `spel` reads -/

/-- The values of a comma-separated argument. -/
def splitArg {α : Type} (parse : List Char → Option α) (arg : String) : Option (List α) :=
  (arg.toList.splitOn ',').mapM parse

/-- The batch a command line stands for. -/
def SpelCommand.batch? (command : SpelCommand) : Option Batch := do
  let entriesCids ← splitArg hexDecode command.entriesCids
  let entriesMetaHashes ←
    splitArg (fun piece ↦ (hexDecode piece).bind (Bytes.ofList? 32)) command.entriesMetaHashes
  let entriesTimestamps ←
    splitArg (fun piece ↦ Decimal.parse (String.ofList piece)) command.entriesTimestamps
  return ⟨entriesCids, entriesMetaHashes, entriesTimestamps⟩

/-- The batch an entry list stands for. -/
def batchOf (entries : List AnchorEntry) (timestamp : UInt64) : Batch where
  entriesCids := entries.map fun e ↦ e.1.toList
  entriesMetaHashes := entries.map fun e ↦ e.2.1
  entriesTimestamps := entries.map fun _ ↦ timestamp

theorem comma_notMem_hexEncode (bs : List UInt8) : ',' ∉ hexEncode bs := by
  have hdigit : ∀ n < 16, ',' ≠ Nat.digitChar n := by decide
  intro h
  obtain ⟨b, -, hb⟩ := List.mem_flatMap.1 h
  have hlt := b.toNat_lt
  rcases List.mem_cons.1 hb with hhigh | hlow
  · exact hdigit _ (by omega) hhigh
  · exact hdigit _ (by omega) (List.mem_singleton.1 hlow)

theorem comma_notMem_render (n : UInt64) : ',' ∉ (Decimal.render n).toList := by
  rw [Decimal.render, String.toList_ofList]
  intro h
  exact absurd (Nat.isDigit_of_mem_toDigits (by decide) (by decide) h) (by decide)

/-- One argument comes back, if every piece does and none has a comma in it. -/
theorem splitArg_joinCommas {α β : Type} (parse : List Char → Option β) (print : α → List Char)
    (value : α → β) (hparse : ∀ a, parse (print a) = some (value a)) (hcomma : ∀ a, ',' ∉ print a)
    {l : List α} (hne : l ≠ []) :
    splitArg parse (joinCommas (l.map print)) = some (l.map value) := by
  have hpieces : ∀ piece ∈ l.map print, ',' ∉ piece := by
    intro piece hpiece
    obtain ⟨a, -, rfl⟩ := List.mem_map.1 hpiece
    exact hcomma a
  have hne' : l.map print ≠ [] := by simpa using hne
  rw [splitArg, joinCommas, String.toList_ofList, List.splitOn_intercalate ',' hpieces hne']
  clear hpieces hne hne'
  induction l with
  | nil => rfl
  | cons a l ih =>
    rw [List.map_cons, List.mapM_cons, hparse, ih]
    rfl

/-- **The arguments are lossless.** -/
theorem batch?_spelCommand (cli : Cfg) {entries : List AnchorEntry} (hne : entries ≠ [])
    (timestamp : UInt64) :
    (spelCommand cli entries timestamp).batch? = some (batchOf entries timestamp) := by
  have hhash : ∀ e : AnchorEntry,
      (hexDecode (hexEncode e.2.1.toList)).bind (Bytes.ofList? 32) = some e.2.1 := by
    intro e
    rw [hexDecode_hexEncode, Option.bind_some]
    exact Bytes.ofList?_eq_some.2 rfl
  have htime : ∀ _ : AnchorEntry,
      Decimal.parse (String.ofList (Decimal.render timestamp).toList) = some timestamp := by
    intro _
    rw [String.ofList_toList, Decimal.parse_render]
  have hcids := splitArg_joinCommas hexDecode (fun e : AnchorEntry ↦ hexEncode e.1.toList)
    (fun e ↦ e.1.toList) (fun e ↦ hexDecode_hexEncode e.1.toList)
    (fun e ↦ comma_notMem_hexEncode e.1.toList) hne
  have hhashes := splitArg_joinCommas (fun piece ↦ (hexDecode piece).bind (Bytes.ofList? 32))
    (fun e : AnchorEntry ↦ hexEncode e.2.1.toList) (fun e ↦ e.2.1) hhash
    (fun e ↦ comma_notMem_hexEncode e.2.1.toList) hne
  have htimes := splitArg_joinCommas (fun piece ↦ Decimal.parse (String.ofList piece))
    (fun _ : AnchorEntry ↦ (Decimal.render timestamp).toList) (fun _ ↦ timestamp) htime
    (fun _ ↦ comma_notMem_render timestamp) hne
  simp only [SpelCommand.batch?, spelCommand, hcids, hhashes, htimes, Option.bind_eq_bind,
    Option.bind_some, Option.pure_def, batchOf]

end Whistleblower.BatchAnchor
