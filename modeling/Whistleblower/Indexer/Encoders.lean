import Whistleblower.BatchAnchor.Run
import Whistleblower.Indexer.Anchor
import Whistleblower.Indexer.Expressions

/-!
# Two encoders, one decoder

`Indexer::anchor_batch` and `anchor_via_spel` of the batch anchor write a batch into the arguments
of `spel -- anchor-batch`, each in code of its own. `spel` takes the arguments apart with the arm of
`parse_vec` that `docs/LIVE_ANCHOR_PLAN.md` gives, and the program on-chain pairs the three vectors
by position.

The two write the same (`encoders_agree`), and what they write is read back in full, so the program
pairs each CID with its own hash. Trimming and the optional `0x` of the arm change nothing, since no
digit is white space or an `x`.
-/

namespace Whistleblower.Indexer

open BatchAnchor CidRegistry CidRegistryProgram

/-! ### Reading an argument -/

/-- `strip_prefix("0x")`, or else `strip_prefix("0X")`, or else nothing. -/
def strip0x (part : List Char) : List Char :=
  (("0x".toList.isPrefixOf? part).or ("0X".toList.isPrefixOf? part)).getD part

/-- The elements of a list argument, as `parse_vec` takes them apart. -/
def parseVec {α : Type} (parse : List Char → Option α) (raw : String) : Option (List α) :=
  if raw = "" then some []
  else splitArg (fun part ↦ parse (Lines.trim part)) raw

/-- The arm for `Vec<Vec<u8>>`. -/
def parseByteVecs (raw : String) : Option (List (List UInt8)) :=
  parseVec (fun part ↦ hexDecode (strip0x part)) raw

/-- The numbers of `--entries-timestamps`. -/
def parseNumbers (raw : String) : Option (List UInt64) :=
  parseVec (fun part ↦ Decimal.parse (String.ofList part)) raw

theorem trim_of_forall {part : List Char} (h : ∀ c ∈ part, Lines.isWhitespace c = false) :
    Lines.trim part = part := by
  have hnone : ∀ c ∈ ([] : List Char), Lines.isWhitespace c :=
    fun c hc ↦ absurd hc List.not_mem_nil
  have htrim : Lines.trim ([] ++ (part ++ [])) = part := Lines.trim_append hnone hnone
    (fun c hc ↦ h c (List.mem_of_mem_head? hc)) (fun c hc ↦ h c (List.mem_of_mem_getLast? hc))
  rwa [List.nil_append, List.append_nil] at htrim

/-- Without an `x`, there is no prefix to take off. -/
theorem strip0x_of_notMem {part : List Char} (hx : 'x' ∉ part) (hX : 'X' ∉ part) :
    strip0x part = part := by
  have hnone : ∀ {pat : List Char} {d : Char}, d ∈ pat → d ∉ part →
      pat.isPrefixOf? part = none := by
    intro pat d hpat hd
    refine Option.eq_none_iff_forall_ne_some.2 fun rest hrest ↦ hd ?_
    rw [← List.isPrefixOf?_eq_some_iff_append_eq.1 hrest]
    exact List.mem_append_left _ hpat
  rw [strip0x, hnone (by decide) hx, hnone (by decide) hX]
  rfl

theorem joinCommas_ne_empty {pieces : List (List Char)} (hne : pieces ≠ [])
    (hpieces : ∀ piece ∈ pieces, piece ≠ []) : joinCommas pieces ≠ "" := by
  rw [joinCommas, Ne, ← String.toList_inj, String.toList_ofList]
  cases pieces with
  | nil => exact absurd rfl hne
  | cons piece pieces =>
    cases pieces with
    | nil =>
      rw [List.intercalate_singleton]
      exact hpieces piece List.mem_cons_self
    | cons piece' pieces =>
      rw [List.intercalate_cons_cons]
      simp

/-- **A list argument comes back**, if each of its elements does, and no element is empty or has a
comma or white space in it. -/
theorem parseVec_joinCommas {α β : Type} (parse : List Char → Option β) (print : α → List Char)
    (value : α → β) (hparse : ∀ a, parse (print a) = some (value a))
    (hplain : ∀ a, ∀ c ∈ print a, c ≠ ',' ∧ Lines.isWhitespace c = false)
    (hprint : ∀ a, print a ≠ []) {l : List α} (hne : l ≠ []) :
    parseVec parse (joinCommas (l.map print)) = some (l.map value) := by
  have hpieces : ∀ piece ∈ l.map print, piece ≠ [] := by
    intro piece hpiece
    obtain ⟨a, -, rfl⟩ := List.mem_map.1 hpiece
    exact hprint a
  have hcomma : ∀ a, ',' ∉ print a := fun a ha ↦ (hplain a ',' ha).1 rfl
  have hread : ∀ a, parse (Lines.trim (print a)) = some (value a) := by
    intro a
    rw [trim_of_forall fun c hc ↦ (hplain a c hc).2]
    exact hparse a
  have hmap : l.map print ≠ [] := by simpa using hne
  rw [parseVec, if_neg (joinCommas_ne_empty hmap hpieces)]
  exact splitArg_joinCommas (fun part ↦ parse (Lines.trim part)) print value hread hcomma hne

/-! ### What is written -/

/-- Nothing in a digit is taken for something else. -/
theorem digit_plain {c : Char} (hc : c ∈ hexDigits) :
    (c ≠ ',' ∧ Lines.isWhitespace c = false) ∧ c ≠ 'x' ∧ c ≠ 'X' := by
  have hall : ∀ d ∈ hexDigits, (d ≠ ',' ∧ Lines.isWhitespace d = false) ∧ d ≠ 'x' ∧ d ≠ 'X' :=
    List.all_iff_forall_prop.1 (by decide)
  exact hall c hc

theorem hexDecode_strip0x_hexEncode (bs : List UInt8) :
    hexDecode (strip0x (hexEncode bs)) = some bs := by
  have hx : 'x' ∉ hexEncode bs :=
    fun hc ↦ (digit_plain (mem_hexDigits_of_mem_hexEncode hc)).2.1 rfl
  have hX : 'X' ∉ hexEncode bs :=
    fun hc ↦ (digit_plain (mem_hexDigits_of_mem_hexEncode hc)).2.2 rfl
  rw [strip0x_of_notMem hx hX, hexDecode_hexEncode]

theorem hexEncode_ne_nil {n : ℕ} (hn : n ≠ 0) (bs : Bytes n) : hexEncode bs.toList ≠ [] := by
  intro h
  have hread := hexDecode_hexEncode bs.toList
  rw [h] at hread
  have hlength : bs.toList.length = n := bs.2
  rw [← Option.some.inj hread] at hlength
  exact hn hlength.symm

theorem mem_hexDigits_of_mem_render {n : UInt64} {c : Char} (hc : c ∈ (Decimal.render n).toList) :
    c ∈ hexDigits := by
  have hdigits : ∀ k < 58, 48 ≤ k → Char.ofNat k ∈ hexDigits := by decide
  rw [Decimal.render, String.toList_ofList] at hc
  have hdigit := Nat.isDigit_of_mem_toDigits (by decide) (by decide) hc
  rw [Char.isDigit, Bool.and_eq_true, decide_eq_true_iff, decide_eq_true_iff] at hdigit
  have hlow : 48 ≤ c.toNat := hdigit.1
  have hhigh : c.toNat ≤ 57 := hdigit.2
  rw [← Char.ofNat_toNat c]
  exact hdigits c.toNat (by omega) hlow

/-- **A byte string for each entry** comes back. -/
theorem parseByteVecs_joinCommas {n : ℕ} (hn : n ≠ 0) (bytes : AnchorEntry → Bytes n)
    {entries : List AnchorEntry} (hne : entries ≠ []) :
    parseByteVecs (joinCommas (entries.map fun e ↦ hexEncode (bytes e).toList)) =
      some (entries.map fun e ↦ (bytes e).toList) :=
  parseVec_joinCommas _ (fun e ↦ hexEncode (bytes e).toList) (fun e ↦ (bytes e).toList)
    (fun _ ↦ hexDecode_strip0x_hexEncode _)
    (fun _ _ hc ↦ (digit_plain (mem_hexDigits_of_mem_hexEncode hc)).1)
    (fun e ↦ hexEncode_ne_nil hn (bytes e)) hne

/-- **A number for each entry** comes back. -/
theorem parseNumbers_joinCommas {α : Type} (timestamp : UInt64) {l : List α} (hne : l ≠ []) :
    parseNumbers (joinCommas (l.map fun _ ↦ (Decimal.render timestamp).toList)) =
      some (l.map fun _ ↦ timestamp) := by
  refine parseVec_joinCommas _ (fun _ ↦ (Decimal.render timestamp).toList) (fun _ ↦ timestamp)
    (fun _ ↦ ?_) (fun _ _ hc ↦ (digit_plain (mem_hexDigits_of_mem_render hc)).1) (fun _ ↦ ?_) hne
  · rw [String.ofList_toList, Decimal.parse_render]
  · rw [Decimal.render, String.toList_ofList]
    exact Nat.toDigits_ne_nil

/-! ### The two encoders -/

variable (K : Crates)

/-- The entries as `Indexer::anchor_batch` takes them. -/
def undecoded (entries : List AnchorEntry) : List (String × Hash) :=
  entries.map fun e ↦ (e.2.2, e.2.1)

/-- The arguments of `spel`, in the order both callers give them. -/
def spelArgs (idl : String) (command : SpelCommand) : List String :=
  ["--idl", idl, "--", "anchor-batch", "--entries-cids", command.entriesCids,
    "--entries-meta-hashes", command.entriesMetaHashes,
    "--entries-timestamps", command.entriesTimestamps]

variable {K} {entries : List AnchorEntry}

theorem decodeEntries_undecoded (h : ∀ e ∈ entries, decodeCid K e.2.2 = .ok e.1) :
    decodeEntries K (undecoded entries) = .ok (entries.map fun e ↦ hexEncode e.1.toList) := by
  induction entries with
  | nil => rfl
  | cons e entries ih =>
    have hrest := ih fun e' he' ↦ h e' (List.mem_cons_of_mem _ he')
    rw [decodeEntries, undecoded] at hrest
    rw [decodeEntries, undecoded, List.map_cons, List.mapM_cons, hrest,
      h e List.mem_cons_self]
    rfl

/-- **The indexer writes what the batch anchor writes.** -/
theorem anchorBatch_undecoded (cli : Cfg) (hne : entries ≠ [])
    (hlen : entries.length ≤ MAX_BATCH_SIZE) (h : ∀ e ∈ entries, decodeCid K e.2.2 = .ok e.1)
    (timestamp : UInt64) :
    ∃ k : Except String Output → Proc String, Indexer.anchorBatch K (undecoded entries) timestamp =
      .op (.envVar "SPEL_BIN") fun spel ↦ .op (.envVar "SPEL_IDL") fun idl ↦
        .op (.envVar "SPEL_WORKDIR") fun workdir ↦
          .op (.spel ⟨spel.getD "spel", workdir.getD ".",
            spelArgs (idl.getD "cid-registry/cid-registry.idl.json")
              (spelCommand cli entries timestamp)⟩) k := by
  have hne' : undecoded entries ≠ [] := by simpa [undecoded] using hne
  have hlen' : ¬ (undecoded entries).length > MAX_BATCH_SIZE := by
    rw [undecoded, List.length_map]
    omega
  rw [Indexer.anchorBatch, if_neg hne', if_neg hlen', decodeEntries_undecoded h]
  have hmetas : (undecoded entries).map (fun e ↦ hexEncode e.2.toList) =
      entries.map fun e ↦ hexEncode e.2.1.toList := List.map_map
  have htimes : (undecoded entries).map (fun _ ↦ (Decimal.render timestamp).toList) =
      entries.map fun _ ↦ (Decimal.render timestamp).toList := List.map_map
  refine ⟨fun answer ↦ question answer >>= fun out ↦
    if out.success then .pure (txHash out.stdout)
    else bail ("spel anchor-batch failed: " ++ out.stderr), ?_⟩
  simp only [hmetas, htimes]
  rfl

/-! ### The program on-chain -/

/-- The records of the entries, each with its own hash. -/
def recordsFor (entries : List AnchorEntry) (timestamp : UInt64) : List DocumentRecord :=
  entries.map fun e ↦ ⟨e.1, e.2.1, timestamp⟩

theorem records_batchOf (entries : List AnchorEntry) (timestamp : UInt64) :
    (batchOf entries timestamp).records = recordsFor entries timestamp := by
  rw [Batch.records, Batch.entries, batchOf, recordsFor]
  induction entries with
  | nil => rfl
  | cons e entries ih =>
    rw [List.map_cons, List.map_cons, List.map_cons, List.map_cons, List.zip_cons_cons,
      List.zip_cons_cons, recordsOf_cons_of_valid e.1.2, ih]

/-- **The program pairs each CID with its own hash**, and does not index out of range. -/
theorem register_batchOf (entries : List AnchorEntry) (timestamp : UInt64)
    (state : RegistryState) :
    register state (batchOf entries timestamp) = .ok ⟨state.records ++
      (recordsFor entries timestamp).filter (·.cid ∉ state.cids)⟩ := by
  have hlengths : (batchOf entries timestamp).EqualLengths := by
    constructor
    · rw [batchOf, List.length_map, List.length_map]
    · rw [batchOf, List.length_map, List.length_map]
  have hvalid : ValidCids (batchOf entries timestamp).entriesCids := by
    intro c hc
    obtain ⟨e, -, rfl⟩ := List.mem_map.1 hc
    exact e.1.2
  refine register_eq_ok.2 ⟨hvalid, hlengths.coveredIn state, ?_⟩
  rw [Batch.freshIn, records_batchOf]
  simp only [List.mem_toFinset]

/-- A batch is read from a command line: three vectors, taken apart each on its own. -/
def ReadsAs (command : SpelCommand) (b : Batch) : Prop :=
  parseByteVecs command.entriesCids = some b.entriesCids ∧
    parseByteVecs command.entriesMetaHashes = some (b.entriesMetaHashes.map Bytes.toList) ∧
    parseNumbers command.entriesTimestamps = some b.entriesTimestamps

/-- **What is written is read** as the batch it has been written for, and as no other. -/
theorem readsAs_spelCommand_iff (cli : Cfg) (hne : entries ≠ []) (timestamp : UInt64) {b : Batch} :
    ReadsAs (spelCommand cli entries timestamp) b ↔ b = batchOf entries timestamp := by
  have hcids := parseByteVecs_joinCommas (by decide) (fun e : AnchorEntry ↦ e.1) hne
  have hhashes := parseByteVecs_joinCommas (by decide) (fun e : AnchorEntry ↦ e.2.1) hne
  have htimes := parseNumbers_joinCommas timestamp hne
  have hmap : entries.map (fun e ↦ e.2.1.toList) = (entries.map fun e ↦ e.2.1).map Bytes.toList :=
    List.map_map.symm
  rw [ReadsAs, spelCommand]
  simp only [hcids, hhashes, htimes, Option.some.injEq]
  constructor
  · rintro ⟨hcids, hhashes, htimes⟩
    obtain ⟨cids, hashes, times⟩ := b
    rw [hmap] at hhashes
    have hinj : Function.Injective (Bytes.toList : Hash → List UInt8) :=
      fun _ _ ↦ Bytes.toList_inj.1
    obtain rfl := List.map_injective_iff.2 hinj hhashes
    obtain rfl := hcids
    obtain rfl := htimes
    rfl
  · rintro rfl
    exact ⟨rfl, hmap, rfl⟩

/-! ### Both ends together -/

/-- **The arguments of `spel` are the same on both paths, lossless and aligned.** For entries whose
CIDs have been decoded, a batch of at most 50 is handed to `spel` by the indexer with the same three
arguments as by the batch anchor; each of them is read back element by element, and the program
makes of the batch one record for each entry whose CID is new, with the entry's own hash and time. A
batch with a CID that is not decoded, or with more than 50 entries, fails before `spel` is run. -/
theorem encoders_agree (K : Crates) (cli : Cfg) (timestamp : UInt64) :
    (∀ entries : List AnchorEntry, entries ≠ [] → (∀ e ∈ entries, decodeCid K e.2.2 = .ok e.1) →
      (entries.length ≤ MAX_BATCH_SIZE → ∃ k : Except String Output → Proc String,
        Indexer.anchorBatch K (undecoded entries) timestamp =
          .op (.envVar "SPEL_BIN") fun spel ↦ .op (.envVar "SPEL_IDL") fun idl ↦
            .op (.envVar "SPEL_WORKDIR") fun workdir ↦
              .op (.spel ⟨spel.getD "spel", workdir.getD ".",
                spelArgs (idl.getD "cid-registry/cid-registry.idl.json")
                  (spelCommand cli entries timestamp)⟩) k) ∧
      (∃ k, anchorViaSpel cli entries timestamp =
        .op (.spel (spelCommand cli entries timestamp)) k) ∧
      parseByteVecs (spelCommand cli entries timestamp).entriesCids =
        some (entries.map fun e ↦ e.1.toList) ∧
      parseByteVecs (spelCommand cli entries timestamp).entriesMetaHashes =
        some (entries.map fun e ↦ e.2.1.toList) ∧
      parseNumbers (spelCommand cli entries timestamp).entriesTimestamps =
        some (entries.map fun _ ↦ timestamp) ∧
      ∀ b, ReadsAs (spelCommand cli entries timestamp) b → ∀ state, register state b =
        .ok ⟨state.records ++ (recordsFor entries timestamp).filter (·.cid ∉ state.cids)⟩) ∧
    ∀ entries : List (String × Hash),
      (∃ e ∈ entries, ¬ Decodable K e.1) ∨ entries.length > MAX_BATCH_SIZE →
        ∃ text, Indexer.anchorBatch K entries timestamp = bail text := by
  constructor
  · intro entries hne hdecoded
    refine ⟨fun hlen ↦ anchorBatch_undecoded cli hne hlen hdecoded timestamp, ⟨_, rfl⟩,
      parseByteVecs_joinCommas (by decide) (fun e : AnchorEntry ↦ e.1) hne,
      parseByteVecs_joinCommas (by decide) (fun e : AnchorEntry ↦ e.2.1) hne,
      parseNumbers_joinCommas timestamp hne, fun b hb state ↦ ?_⟩
    rw [(readsAs_spelCommand_iff cli hne timestamp).1 hb]
    exact register_batchOf entries timestamp state
  · rintro entries (⟨e, he, hnot⟩ | hlong)
    · exact anchorBatch_of_not_decodable K he hnot timestamp
    · have hne : entries ≠ [] := by
        rintro rfl
        exact absurd hlong (by decide)
      rw [Indexer.anchorBatch, if_neg hne, if_pos hlong]
      exact ⟨_, rfl⟩

/-- Two documents, each with a hash of its own. -/
def twoEntries : List AnchorEntry :=
  [(Bytes.replicate CID_BYTES 0, Bytes.replicate 32 7, sampleCid),
    (Bytes.replicate CID_BYTES 1, Bytes.replicate 32 9, cidOf (Bytes.replicate CID_BYTES 1))]

/-- Two entries are read back in their order from all three arguments, and recorded each with its
own hash; 51 entries are too many. -/
theorem encoders_agree_sampleCid :
    parseByteVecs (spelCommand queueCfg twoEntries 1700000000).entriesCids =
      some [List.replicate CID_BYTES 0, List.replicate CID_BYTES 1] ∧
    parseByteVecs (spelCommand queueCfg twoEntries 1700000000).entriesMetaHashes =
      some [List.replicate 32 7, List.replicate 32 9] ∧
    parseNumbers (spelCommand queueCfg twoEntries 1700000000).entriesTimestamps =
      some [1700000000, 1700000000] ∧
    (∀ b, ReadsAs (spelCommand queueCfg twoEntries 1700000000) b →
      register ⟨[]⟩ b = .ok ⟨[⟨Bytes.replicate CID_BYTES 0, Bytes.replicate 32 7, 1700000000⟩,
        ⟨Bytes.replicate CID_BYTES 1, Bytes.replicate 32 9, 1700000000⟩]⟩) ∧
    ∃ text, Indexer.anchorBatch sampleCrates
      (List.replicate 51 (sampleCid, Bytes.replicate 32 7)) 1700000000 = bail text := by
  obtain ⟨hread, hfail⟩ := encoders_agree sampleCrates queueCfg 1700000000
  have hdecoded : ∀ e ∈ twoEntries, decodeCid sampleCrates e.2.2 = .ok e.1 := by
    intro e he
    rcases List.mem_pair.1 he with rfl | rfl
    · exact decodeCid_sampleCid
    · exact decodeCid_cidOf _
  obtain ⟨-, -, hcids, hhashes, htimes, hregister⟩ :=
    hread twoEntries (List.cons_ne_nil _ _) hdecoded
  exact ⟨hcids, hhashes, htimes, fun b hb ↦ hregister b hb ⟨[]⟩,
    hfail _ (Or.inr (by rw [List.length_replicate]; decide))⟩

end Whistleblower.Indexer
