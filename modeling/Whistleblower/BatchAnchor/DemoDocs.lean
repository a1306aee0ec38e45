import Whistleblower.BatchAnchor.Outages
import Whistleblower.Foundations.Json.Dumps

/-!
# The documents of the demo

`scripts/publish-demo-docs.sh` writes a delivery queue of `N` documents, and `demo.sh` has the batch
anchor run on it, twice. Between the two there is nothing but the text of a file: it is written by
Python, with its own base58 and its own JSON, and read by Rust.

`messages_queue` says that they agree, for every `N`: the batch anchor reads what has been meant.
What the runs of the demo come to follows (`demo_registered`). The second run has nothing left to do
if one batch takes all documents. If there are more, it is not idle: it goes on with them.
-/

namespace Whistleblower.DemoDocs

open BatchAnchor Json Lines

/-! ### What the script writes -/

def alpha : List Char :=
  "123456789ABCDEFGHJKLMNPQRSTUVWXYZabcdefghijkmnopqrstuvwxyz".toList

/-- The loop of `b58`: `while n: n, r = divmod(n, 58); out = alpha[r:r+1] + out`. -/
def b58Loop (n : ℕ) (out : List Char) : List Char :=
  if _ : n = 0 then out else b58Loop (n / 58) ((alpha.drop (n % 58)).take 1 ++ out)
termination_by n
decreasing_by exact Nat.div_lt_self (Nat.pos_of_ne_zero ‹_›) (by decide)

/-- `b58`. A leading zero byte becomes a `1`. -/
def b58 (b : List UInt8) : String :=
  String.ofList (List.replicate (b.length - (b.dropWhile (· = 0)).length) '1' ++
    b58Loop (Base58.ofBigEndian b) [])

/-- The content of a document. -/
def content (i : ℕ) : String :=
  "whistleblower test document #" ++ toString i

/-- `cid_bytes`, 46 of them. -/
def cidBytes (i : ℕ) : List UInt8 :=
  (Sha256.digest (content i).utf8).toList ++
    (Sha256.digest ("codex".utf8 ++ (content i).utf8)).toList.take 14

/-- An `int` of Python as a JSON number. -/
def ofInt (n : ℕ) : Value :=
  .number (if n < 2 ^ 64 then .posInt (UInt64.ofNat n) else .other (renderNat n))

/-- The object that is printed for a document. -/
def envelope (i : ℕ) : Value :=
  .object [("seq", ofInt i), ("payload", .object [
    ("cid", .string (b58 (cidBytes i))), ("title", .string ("Document " ++ toString i)),
    ("description", .string "leaked material"), ("content_type", .string "text/plain"),
    ("size_bytes", ofInt (content i).length), ("timestamp", ofInt (1700000000 + i)),
    ("tags", .array [.string "leak", .string "demo"])])]

/-- The queue file, one document after another: `print(json.dumps(..))` for each `i` of
`seq 1 "$N"`. -/
def queue (N : ℕ) : String :=
  String.ofList ((List.range N).flatMap fun i ↦ dumps (envelope (i + 1)) ++ ['\n'])

/-! ### Base58 in Python -/

theorem b58Loop_eq (n : ℕ) (out : List Char) :
    b58Loop n out = (Nat.digits 58 n).reverse.map Base58.digitChar ++ out := by
  induction n using Nat.strongRecOn generalizing out with
  | _ n ih =>
    rw [b58Loop]
    split
    · next hzero =>
      rw [hzero, Nat.digits_zero]
      rfl
    · next hne =>
      have hdigit : ∀ r < 58, (alpha.drop r).take 1 = [Base58.digitChar r] := by decide
      rw [ih (n / 58) (Nat.div_lt_self (Nat.pos_of_ne_zero hne) (by decide)),
        hdigit _ (Nat.mod_lt n (by decide)),
        Nat.digits_def' (b := 58) (by decide) (Nat.pos_of_ne_zero hne), List.reverse_cons,
        List.map_append, List.append_assoc, List.map_singleton]

/-- **The script's `b58` is base58.** -/
theorem b58_eq (b : List UInt8) : b58 b = String.ofList (Base58.encode b) := by
  have hzeros : b.length - (b.dropWhile (· = 0)).length = (b.takeWhile (· = 0)).length := by
    have hsplit := congrArg List.length (List.takeWhile_append_dropWhile (p := (· = 0)) (l := b))
    rw [List.length_append] at hsplit
    omega
  rw [b58, b58Loop_eq, List.append_nil, Base58.encode, Base58.digitsOf, List.map_append,
    List.map_replicate, hzeros]
  rfl

theorem length_cidBytes (i : ℕ) : (cidBytes i).length = CID_BYTES := by
  rw [cidBytes, List.length_append, List.length_take, Bytes.length_toList, Bytes.length_toList]
  rfl

/-- The registry key of a document. -/
def key (i : ℕ) : CidBytes :=
  ⟨cidBytes i, length_cidBytes i⟩

/-! ### What the batch anchor reads -/

/-- The message of a document. -/
def message (i : ℕ) : DeliveryMsg :=
  ⟨UInt64.ofNat i, ⟨b58 (cidBytes i), ⟨"Document " ++ toString i, "leaked material", "text/plain",
    UInt64.ofNat (content i).length, UInt64.ofNat (1700000000 + i), ["leak", "demo"]⟩⟩⟩

/-- The messages of `N` documents. -/
def docs (N : ℕ) : List DeliveryMsg :=
  (List.range N).map fun i ↦ message (i + 1)

theorem length_docs (N : ℕ) : (docs N).length = N := by
  rw [docs, List.length_map, List.length_range]

theorem length_content (i : ℕ) : (content i).length = 29 + (Nat.repr i).length := by
  have htext : "whistleblower test document #".length = 29 := by decide +kernel
  rw [← htext]
  exact String.length_append _ _

theorem length_content_lt {i : ℕ} (h : 1700000000 + i < 2 ^ 64) : (content i).length < 2 ^ 64 := by
  have hlt : i < 10 ^ 20 := by omega
  have hdigits := (Nat.length_repr_le_iff (by decide)).2 hlt
  rw [length_content]
  omega

/-- The members come in the order in which a message is printed. -/
theorem envelope_eq {i : ℕ} (h : 1700000000 + i < 2 ^ 64) :
    envelope i = .object (message i).members := by
  have hofInt : ∀ {n : ℕ}, n < 2 ^ 64 → ofInt n = .number (.posInt (UInt64.ofNat n)) := by
    intro n hn
    rw [ofInt, if_pos hn]
  rw [envelope, hofInt (by omega : i < 2 ^ 64), hofInt (length_content_lt h), hofInt h]
  rfl

/-- **The batch anchor reads what the script has meant.** -/
theorem messages_queue (K : Crates) {N : ℕ} (h : 1700000000 + N < 2 ^ 64) :
    messages K (queue N) = some (docs N) := by
  have hlines : ∀ d ∈ (List.range N).map fun i ↦ (dumps (envelope (i + 1)), message (i + 1)),
      DeliveryLine K d.1 d.2 := by
    intro d hd
    obtain ⟨i, hi, rfl⟩ := List.mem_map.1 hd
    have hlt : 1700000000 + (i + 1) < 2 ^ 64 := by
      have := List.mem_range.1 hi
      omega
    have hwithin := (message (i + 1)).within_members IsOtherLiteral 0
    simp only [envelope_eq hlt]
    refine ⟨newline_notMem_dumps hwithin, _, (message (i + 1)).carries_members, text_dumps hwithin,
      ?_⟩
    rw [K.json_maxDepth]
    exact (message (i + 1)).within_members _ 124
  have htext : IsFileOf (((List.range N).map fun i ↦
      (dumps (envelope (i + 1)), message (i + 1))).map Prod.fst) (queue N).toList := by
    rw [queue, String.toList_ofList, IsFileOf, List.map_map, List.flatMap_map]
    exact Or.inl rfl
  rw [messages_of_deliveryLines hlines htext, List.map_map]
  rfl

theorem ascending_docs {N : ℕ} (h : 1700000000 + N < 2 ^ 64) : Ascending (docs N) := by
  have hlt : ∀ i < N, i + 1 < 2 ^ 64 := fun i hi ↦ by omega
  refine ⟨List.pairwise_map.2 ?_, fun m hm ↦ ?_⟩
  · refine List.Pairwise.imp_of_mem ?_ List.pairwise_lt_range
    intro i j hi hj hij
    rw [message, message, UInt64.lt_iff_toNat_lt]
    simp only [UInt64.toNat_ofNat_of_lt' (hlt i (List.mem_range.1 hi)),
      UInt64.toNat_ofNat_of_lt' (hlt j (List.mem_range.1 hj))]
    omega
  · obtain ⟨i, hi, rfl⟩ := List.mem_map.1 hm
    rw [message, UInt64.lt_iff_toNat_lt]
    simp only [UInt64.toNat_ofNat_of_lt' (hlt i (List.mem_range.1 hi))]
    exact Nat.succ_pos i

/-- The `bs58` crate decodes what has been encoded. -/
def Decodes (K : Crates) : Prop :=
  ∀ bytes, K.bs58Decode (String.ofList (Base58.encode bytes)) = .ok bytes

theorem decodeCid_message {K : Crates} (hK : Decodes K) (i : ℕ) :
    decodeCid K (message i).payload.cid = .ok (key i) := by
  have hdecode : K.bs58Decode (message i).payload.cid = .ok (cidBytes i) := by
    rw [message, b58_eq]
    exact hK _
  exact (decodeCid_eq_ok K).2 hdecode

theorem keys_docs {K : Crates} (hK : Decodes K) (N : ℕ) :
    keys K (docs N) = (List.range N).map fun i ↦ key (i + 1) := by
  rw [keys, docs, List.filterMap_map]
  refine List.filterMap_eq_map_iff_forall_eq_some.2 fun i _ ↦ ?_
  exact keyOf_eq_some.2 (decodeCid_message hK (i + 1))

/-- What the registry is to say of a document. -/
def anchor (K : Crates) (i : ℕ) : CidBytes × Hash :=
  (key i, metadataHashFromPayload K.sha256 (message i).payload)

theorem filterMap_entryOf_docs {K : Crates} (hK : Decodes K) (N : ℕ) :
    ((docs N).filterMap (entryOf K ∅)).map (fun e ↦ (e.1, e.2.1)) =
      (List.range N).map fun i ↦ anchor K (i + 1) := by
  have hentry : ∀ i, entryOf K ∅ (message i) =
      some (key i, metadataHashFromPayload K.sha256 (message i).payload,
        (message i).payload.cid) :=
    fun i ↦ (entryOf_eq_some K).2 ⟨Finset.notMem_empty _, decodeCid_message hK i, rfl⟩
  rw [docs, List.filterMap_map, List.map_filterMap]
  refine List.filterMap_eq_map_iff_forall_eq_some.2 fun i _ ↦ ?_
  rw [Function.comp_apply, hentry, Option.map_some, anchor]

theorem docs_succ (N : ℕ) : docs (N + 1) = docs N ++ [message (N + 1)] := by
  rw [docs, List.range_succ, List.map_append, List.map_singleton, docs]

theorem take_docs (k N : ℕ) : (docs N).take k = docs (min k N) := by
  rw [docs, ← List.map_take, List.take_range, docs]

/-- The cursor after `N` documents. -/
theorem newest_docs {N : ℕ} (h : N < 2 ^ 64) : newest 0 (docs N) = UInt64.ofNat N := by
  induction N with
  | zero => rfl
  | succ N ih =>
    have hlt : N < 2 ^ 64 := by omega
    rw [docs_succ, newest_append, ih hlt, newest_cons, newest_nil]
    refine max_eq_right ?_
    rw [message, UInt64.le_iff_toNat_le, UInt64.toNat_ofNat_of_lt' hlt,
      UInt64.toNat_ofNat_of_lt' h]
    exact N.le_succ

/-! ### The runs of the demo -/

section Runs

variable {P : Platform} {K : Crates} {S : Schedule P} {N b : ℕ} {s : Session P}
  {state : RegistryState}

/-- Runs on the queue file of `N` documents, as many as one likes. -/
structure Runs (S : Schedule P) (N b : ℕ) : Prop where
  source : ∀ n, ∃ path, stripPrefix "file:" (S.turn n).cli.deliverySource = some path ∧
    (S.turn n).surroundings.files path = .ok (queue N)
  direct : ∀ n, (S.turn n).surroundings.Direct
  real : ∀ n, (S.turn n).args.dryRun = false
  unlimited : ∀ n, (S.turn n).args.maxBatches = 0
  batchSize : ∀ n, (S.turn n).args.batchSize = b

/-- Everything is up. -/
def alwaysUp : Uptime :=
  ⟨fun _ ↦ true, fun _ ↦ true⟩

theorem Runs.operated (hruns : Runs S N b) (hK : Decodes K) (hN : 1700000000 + N < 2 ^ 64)
    (hkeys : ((List.range N).map fun i ↦ key (i + 1)).Nodup) (hb : 1 ≤ b ∧ b ≤ MAX_BATCH_SIZE) :
    S.Operated K (fun _ ↦ docs N) alwaysUp where
  ascending _ := ascending_docs hN
  distinct _ := by
    rw [keys_docs hK]
    exact hkeys
  grows _ := List.prefix_refl _
  offers n _ := by
    obtain ⟨path, hsource, hfile⟩ := hruns.source n
    obtain ⟨raws, hraws, hdecode⟩ := Option.bind_eq_some_iff.1 (messages_queue K hN)
    exact ⟨.file, raws, ⟨path, queue N, hsource, hfile, hraws⟩, hdecode⟩
  silent _ h := by cases h
  direct n _ := hruns.direct n
  refuses _ h := by cases h
  real := hruns.real
  unlimited := hruns.unlimited
  batchSize n := by
    rw [hruns.batchSize n]
    exact hb

/-- Where the batch anchor is after `n` runs. -/
theorem position_eq (hruns : Runs S N b) (h : S.Operated K (fun _ ↦ docs N) alwaysUp) (n : ℕ) :
    h.reader.position n = min (n * b) N := by
  have hposition := LogReader.position_of_accepts (R := h.reader) (l := docs N) (fun _ ↦ rfl)
    hruns.batchSize (fun _ _ ↦ rfl) n
  rwa [length_docs] at hposition

/-- What it has read. -/
theorem read_eq (hruns : Runs S N b) (h : S.Operated K (fun _ ↦ docs N) alwaysUp) (n : ℕ) :
    h.reader.read n = docs (min (n * b) N) := by
  have hread : h.reader.read n = (docs N).take (h.reader.position n) := rfl
  rw [hread, position_eq hruns h, take_docs, Nat.min_assoc, Nat.min_self]

/-- There is nothing left to read exactly if the runs so far have had room for all documents. -/
theorem page_eq_nil_iff (hruns : Runs S N b) (h : S.Operated K (fun _ ↦ docs N) alwaysUp)
    (hb : 1 ≤ b) (n : ℕ) : h.reader.page n = [] ↔ N ≤ n * b := by
  have hlength : (h.reader.page n).length = min b (N - min (n * b) N) := by
    have hpage : h.reader.page n =
        Paging.page (S.turn n).args.batchSize (docs N) (h.reader.position n) := rfl
    rw [hpage, Paging.length_page, hruns.batchSize n, position_eq hruns h, length_docs]
  rw [← List.length_eq_zero_iff, hlength]
  omega

/-- Every document can be decoded. -/
theorem keys_page_eq_nil_iff (hK : Decodes K) (h : S.Operated K (fun _ ↦ docs N) alwaysUp)
    (n : ℕ) : keys K (h.reader.page n) = [] ↔ h.reader.page n = [] := by
  refine ⟨fun hnil ↦ List.eq_nil_iff_forall_not_mem.2 fun m hm ↦ ?_, fun hnil ↦ by rw [hnil]; rfl⟩
  have hdocs : m ∈ docs N :=
    (LogReader.read_append_page_prefix_log (R := h.reader) n).subset (List.mem_append_right _ hm)
  obtain ⟨i, -, rfl⟩ := List.mem_map.1 hdocs
  have hkey : key (i + 1) ∈ keys K (h.reader.page n) :=
    List.mem_filterMap.2 ⟨_, hm, keyOf_eq_some.2 (decodeCid_message hK (i + 1))⟩
  rw [hnil] at hkey
  exact absurd hkey List.not_mem_nil

end Runs

/-- **The demo.** `publish-demo-docs.sh` has written a queue of `N` documents, whose CIDs are
different, and the batch anchor is run on it again and again, with `spel` working and room in the
account. After `n` runs with batches of `b`, the cursor is at the least of `n * b` and `N`, and
exactly the documents up to there have been added to the registry, but for those that were in it
before: in order, each once, each under its CID and with the hash of its metadata. The next run
submits nothing exactly if all documents have been taken. -/
theorem demo_registered (K : Crates) (hK : Decodes K) (P : Platform) (S : Schedule P) {N b : ℕ}
    (hN : 1700000000 + N < 2 ^ 64)
    (hkeys : ((List.range N).map fun i ↦ key (i + 1)).Nodup)
    (hb : 1 ≤ b ∧ b ≤ MAX_BATCH_SIZE) (hruns : Runs S N b) (s : Session P) (state : RegistryState)
    (hregistry : s.registry.state = some state) (hdb : s.db = Db.fresh)
    (hroom : Account.Fits P (state.records.length + N)) (n : ℕ) :
    (S.db K s n).cursor = UInt64.ofNat (min (n * b) N) ∧
      (∃ records, (S.moment K s n).session.registry.state = some ⟨state.records ++ records⟩ ∧
        records.map (fun r ↦ (r.cid, r.metadataHash)) =
          ((List.range (min (n * b) N)).map fun i ↦ anchor K (i + 1)).filter
            (·.1 ∉ state.cids)) ∧
      (S.commands K s n = [] ↔ N ≤ n * b) := by
  have h := hruns.operated hK hN hkeys hb
  have hat : h.At s state n := by
    refine h.at_of_room hregistry hdb n fun i _ ↦ ?_
    have hlength := congrArg List.length (keys_docs hK N)
    rw [List.length_map, List.length_range] at hlength
    simp only [hlength]
    exact hroom
  refine ⟨?_, ⟨_, hat.registry, ?_⟩, ?_⟩
  · rw [hat.cursor, read_eq hruns h, newest_docs (by omega)]
  · have hmap := h.map_newRecords (s := s) (fun cid hash ↦ (cid, hash)) n
    rw [read_eq hruns h, filterMap_entryOf_docs hK] at hmap
    rw [← hmap, List.filter_map]
    rfl
  · have hhanded : S.handed K s n = (h.reader.page n).filterMap (entryOf K ∅) := h.handed_eq hat
    rw [S.commands_eq, hhanded, ← page_eq_nil_iff hruns h hb.1 n, ← keys_page_eq_nil_iff hK h n,
      ← filterMap_entryOf_eq_nil_iff, submission, ite_eq_left_iff]
    exact ⟨fun hnil ↦ by_contra fun hne ↦ List.cons_ne_nil _ _ (hnil hne),
      fun hnil hne ↦ absurd hnil hne⟩

/-- Two documents, and batches of one. -/
def twoDocs : Schedule Account.samplePlatform :=
  .always (honestSurroundings (queue 2)) queueCfg (onceArgs 1)

theorem runs_twoDocs : Runs twoDocs 2 1 where
  source _ := by
    have hsource : stripPrefix "file:" queueCfg.deliverySource = some "queue" := by decide +kernel
    exact ⟨"queue", hsource, rfl⟩
  direct _ := direct_honestSurroundings _
  real _ := rfl
  unlimited _ := rfl
  batchSize _ := rfl

theorem key_one_ne_key_two : key 1 ≠ key 2 := by
  decide +kernel

/-- The second run is not idle, and the third is. -/
theorem demo_registered_twoDocs :
    twoDocs.commands sampleCrates quietSession 1 ≠ [] ∧
      twoDocs.commands sampleCrates quietSession 2 = [] ∧
      (twoDocs.db sampleCrates quietSession 2).cursor = 2 := by
  have hkeys : ((List.range 2).map fun i ↦ key (i + 1)).Nodup := by
    have hrange : ((List.range 2).map fun i ↦ key (i + 1)) = [key 1, key 2] := rfl
    rw [hrange]
    exact List.nodup_cons.2 ⟨fun h ↦ key_one_ne_key_two (List.mem_singleton.1 h),
      List.nodup_singleton _⟩
  have hdemo := demo_registered sampleCrates bs58Decode_encode Account.samplePlatform twoDocs
    (by decide) hkeys (by decide) runs_twoDocs quietSession ⟨[]⟩ Account.emptyRegistry_state rfl
    (by decide)
  obtain ⟨hcursor, -, hidle⟩ := hdemo 2
  exact ⟨mt (hdemo 1).2.2.1 (by decide), hidle.2 (by decide), hcursor⟩

end Whistleblower.DemoDocs
