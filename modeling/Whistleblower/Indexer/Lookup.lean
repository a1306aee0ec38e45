import Whistleblower.Indexer.Cid
import Whistleblower.Indexer.Dedup
import Whistleblower.Registry.Library

/-!
# Looking a document up

`Indexer::is_anchored` of `document-indexer/src/lib.rs` runs `spel inspect` on the registry, and
looks for the CID, in hexadecimal, among the records it prints. `query_by_cid` of the registry reads
the account itself.

The two agree on what a successful `spel inspect` shows. They part where it fails: its exit status
is not looked at, and what is not JSON counts as a registry without records. So a failure is taken
for "not anchored", unless `spel` cannot be started at all (`agrees_iff`).
-/

namespace Whistleblower.Indexer

open CidRegistry

/-! ### The function -/

/-- `hex::encode` of a registry key. -/
def cidHex (cid : CidBytes) : String :=
  String.ofList (hexEncode cid.toList)

/-- The call of `spel inspect`. -/
def inspection : Proc SpelInvocation := do
  let spel ← envVarOr "SPEL_BIN" "spel"
  let idl ← envVarOr "SPEL_IDL" "cid-registry/cid-registry.idl.json"
  let workdir ← envVarOr "SPEL_WORKDIR" "."
  let pda ← envVarOr "REGISTRY_PDA" "6QzQcyJn7LoYiSZkNoLmv5SbYCC4ba4BEDGt7KTeXCEM"
  .pure ⟨spel, workdir, ["inspect", pda, "--idl", idl, "--type", "RegistryState"]⟩

/-- The CID a printed record shows. -/
def shownCid (record : Json.Value) : Option String :=
  (record.get "cid").asStr

/-- `Indexer::is_anchored`. -/
def isAnchored (K : Crates) (cid : String) : Proc Bool := do
  let want ← question ((decodeCid K cid).map cidHex)
  let out ← runSpel (← inspection)
  -- `unwrap_or_default`
  let v := out.json.toOption.getD .null
  .pure (((v.get "records").asArray.map fun rs ↦ rs.any fun r ↦ shownCid r = some want).getD false)

/-! ### What `spel` answers -/

/-- What running `spel inspect` gave, or why it could not be started. -/
abbrev Inspection := Except String Output

/-- `spel inspect` alone. -/
def inspect : Proc Inspection := do
  .op (.spel (← inspection)) .pure

/-- The records array that has been printed, if one has. -/
def Inspection.records? (answer : Inspection) : Option (List Json.Value) :=
  answer.toOption.bind fun out ↦ out.json.toOption.bind fun v ↦ (v.get "records").asArray

theorem Inspection.records?_ok (out : Output) :
    Inspection.records? (.ok out) = ((out.json.toOption.getD .null).get "records").asArray := by
  show (out.json.toOption.bind fun v ↦ (v.get "records").asArray) = _
  cases out.json with
  | error text => rfl
  | ok v => rfl

/-- A record with this CID has been printed. -/
def Inspection.Lists (answer : Inspection) (cid : CidBytes) : Prop :=
  ∃ records ∈ answer.records?, ∃ r ∈ records, shownCid r = some (cidHex cid)

/-- `spel` has exited with success. -/
def Inspection.Succeeds (answer : Inspection) : Prop :=
  ∃ out, answer = .ok out ∧ out.success = true

/-- A successful inspection: the records show the CIDs of the state, in hexadecimal. -/
def Inspection.Shows (answer : Inspection) (state : RegistryState) : Prop :=
  answer.Succeeds ∧ ∃ records ∈ answer.records?,
    ∀ text, (∃ r ∈ records, shownCid r = some text) ↔ ∃ cid ∈ state.cids, cidHex cid = text

/-- Any other inspection: `spel` was not started, or has failed, or has printed no JSON or no
records array. -/
def Inspection.Fails (answer : Inspection) : Prop :=
  ¬ answer.Succeeds ∨ answer.records? = none

/-! ### Hexadecimal keys -/

theorem cidHex_inj {cid cid' : CidBytes} : cidHex cid = cidHex cid' ↔ cid = cid' := by
  refine ⟨fun heq ↦ ?_, congrArg cidHex⟩
  have hhex := congrArg hexDecode (String.ofList_injective heq)
  rw [hexDecode_hexEncode, hexDecode_hexEncode] at hhex
  exact Bytes.ext (Option.some.inj hhex)

/-- What is shown is looked up rightly. -/
theorem Inspection.Shows.lists_iff {answer : Inspection} {state : RegistryState}
    (hshows : answer.Shows state) {cid : CidBytes} : answer.Lists cid ↔ cid ∈ state.cids := by
  obtain ⟨-, records, hrecords, htexts⟩ := hshows
  have hlists : answer.Lists cid ↔ ∃ r ∈ records, shownCid r = some (cidHex cid) := by
    constructor
    · rintro ⟨records', hrecords', hmem⟩
      rwa [Option.mem_unique hrecords hrecords']
    · exact fun hmem ↦ ⟨records, hrecords, hmem⟩
  rw [hlists, htexts]
  constructor
  · rintro ⟨cid', hcid', heq⟩
    rwa [← cidHex_inj.1 heq]
  · exact fun hcid ↦ ⟨cid, hcid, rfl⟩

theorem Inspection.Shows.not_fails {answer : Inspection} {state : RegistryState}
    (hshows : answer.Shows state) : ¬ answer.Fails := by
  obtain ⟨hsucceeds, records, hrecords, -⟩ := hshows
  rintro (hfailed | hnone)
  · exact hfailed hsucceeds
  · rw [Option.mem_def, hnone] at hrecords
    cases hrecords

/-! ### What the function makes of it -/

variable {K : Crates} {σ : Type} {h : (o : Op) → σ → o.Ret × σ} {cidStr : String} {cid : CidBytes}
  {s : σ} {answer : Inspection}

/-- Behind the decoding, only the answer of `spel inspect` counts. -/
theorem isAnchored_eq (hcid : decodeCid K cidStr = .ok cid) :
    isAnchored K cidStr = inspect >>= fun answer ↦ question answer >>= fun out ↦
      .pure ((((out.json.toOption.getD .null).get "records").asArray.map fun rs ↦
        rs.any fun r ↦ shownCid r = some (cidHex cid)).getD false) := by
  rw [isAnchored, hcid]
  rfl

/-- A `spel` that cannot be started is an error. -/
theorem eval_isAnchored_of_error (hcid : decodeCid K cidStr = .ok cid) {text : String}
    (hanswer : (inspect.eval h s).1 = .ok (.error text)) :
    ((isAnchored K cidStr).eval h s).1 = .error (.error text) := by
  have heval : inspect.eval h s = (.ok (.error text), (inspect.eval h s).2) := by
    rw [← hanswer]
  rw [isAnchored_eq hcid, Process.eval_bind_of_ok h heval]
  rfl

/-- **Otherwise the result is whether a record with the CID has been printed**, whatever the exit
status. -/
theorem eval_isAnchored_of_ok (hcid : decodeCid K cidStr = .ok cid) {out : Output}
    (hanswer : (inspect.eval h s).1 = .ok (.ok out)) :
    ∃ found, ((isAnchored K cidStr).eval h s).1 = .ok found ∧
      (found = true ↔ Inspection.Lists (.ok out) cid) := by
  have heval : inspect.eval h s = (.ok (.ok out), (inspect.eval h s).2) := by
    rw [← hanswer]
  rw [isAnchored_eq hcid, Process.eval_bind_of_ok h heval]
  refine ⟨_, rfl, ?_⟩
  rw [Inspection.Lists, Inspection.records?_ok]
  cases ((out.json.toOption.getD .null).get "records").asArray with
  | none => simp
  | some records => simp

/-- **What is reported as not anchored**: every answer without a record that has the CID, except
that `spel` could not be started. -/
theorem eval_isAnchored_eq_false_iff (hcid : decodeCid K cidStr = .ok cid)
    (hanswer : (inspect.eval h s).1 = .ok answer) :
    ((isAnchored K cidStr).eval h s).1 = .ok false ↔
      ¬ ((∃ text, answer = .error text) ∨ answer.Lists cid) := by
  cases answer with
  | error text =>
    rw [eval_isAnchored_of_error hcid hanswer]
    exact iff_of_false (by simp) fun hnot ↦ hnot (.inl ⟨text, rfl⟩)
  | ok out =>
    obtain ⟨found, heval, hlists⟩ := eval_isAnchored_of_ok hcid hanswer
    rw [heval, Except.ok.injEq, ← Bool.not_eq_true, hlists]
    simp

/-! ### Where the two agree -/

/-- `is_anchored` agrees with `query_by_cid` on what a successful inspection shows, and after any
other inspection it does not deny what the registry holds. -/
def Agrees {P : Platform} (K : Crates) (h : (o : Op) → σ → o.Ret × σ) (account : Account P)
    (state : RegistryState) (cidStr : String) (cid : CidBytes) (s : σ) (answer : Inspection) :
    Prop :=
  ∃ found, queryByCid account cid = .ok found ∧
    (answer.Shows state → ((isAnchored K cidStr).eval h s).1 = .ok found.isSome) ∧
    (answer.Fails → found.isSome → ((isAnchored K cidStr).eval h s).1 ≠ .ok false)

variable {P : Platform} {account : Account P} {state : RegistryState}

/-- The registry finds the CIDs of its state. -/
theorem queryByCid_isSome (hstate : account.state = some state) (cid : CidBytes) :
    ∃ found, queryByCid account cid = .ok found ∧ (found.isSome ↔ cid ∈ state.cids) := by
  refine ⟨_, queryByCid_of_state hstate cid, ?_⟩
  rw [List.find?_isSome, RegistryState.cids, List.mem_map]
  simp

/-- **When the two lookups agree**: the CID is not in the registry, or the inspection has been
successful, or `spel` could not be started, or a record with the CID has been printed in spite of
the failure. -/
theorem agrees_iff (hstate : account.state = some state) (hcid : decodeCid K cidStr = .ok cid)
    (hanswer : (inspect.eval h s).1 = .ok answer) :
    Agrees K h account state cidStr cid s answer ↔
      (answer.Fails → cid ∈ state.cids →
        (∃ text, answer = .error text) ∨ answer.Lists cid) := by
  obtain ⟨found, hfound, hisSome⟩ := queryByCid_isSome hstate cid
  have hdenied := eval_isAnchored_eq_false_iff hcid hanswer
  constructor
  · rintro ⟨found', hfound', -, hnotDenied⟩ hfails hmem
    obtain rfl := Outcome.ok.inj (hfound.symm.trans hfound')
    exact not_not.1 fun hnot ↦ hnotDenied hfails (hisSome.2 hmem) (hdenied.2 hnot)
  · intro hcond
    refine ⟨found, hfound, fun hshows ↦ ?_, fun hfails hsome hfalse ↦ ?_⟩
    · obtain ⟨out, rfl, -⟩ := hshows.1
      obtain ⟨b, heval, hlists⟩ := eval_isAnchored_of_ok hcid hanswer
      have hb : b = found.isSome :=
        Bool.eq_iff_iff.2 (hlists.trans (hshows.lists_iff.trans hisSome.symm))
      rw [heval, hb]
    · exact hdenied.1 hfalse (hcond hfails (hisSome.1 hsome))

/-! ### A registry that cannot be read -/

/-- An account that holds one record, of the CID that is 46 zero bytes. -/
def oneRecord : Account Account.samplePlatform :=
  ⟨⟨1 :: List.replicate 89 0, by decide⟩⟩

/-- The record of that account. -/
def zeroRecord : DocumentRecord :=
  ⟨Bytes.replicate CID_BYTES 0, Bytes.replicate 32 0, 0⟩

theorem oneRecord_state : oneRecord.state = some ⟨[zeroRecord]⟩ := by
  decide +kernel

/-- Nothing is there but a `spel` that answers so. -/
def answeringSpel (answer : Inspection) : (o : Op) → Unit → o.Ret × Unit
  | .spel _, s => (answer, s)
  | o, s => (unreachable [] o, s)

/-- `spel inspect` has not reached the sequencer, and has printed nothing. -/
def notReached : Inspection :=
  .ok ⟨false, .error "EOF while parsing a value at line 1 column 0", "",
    "Error: error sending request"⟩

/-- A document in the registry is reported as not anchored. -/
theorem not_agrees_notReached :
    ((isAnchored sampleCrates sampleCid).eval (answeringSpel notReached) ()).1 = .ok false ∧
      ¬ Agrees sampleCrates (answeringSpel notReached) oneRecord ⟨[zeroRecord]⟩ sampleCid
        (Bytes.replicate CID_BYTES 0) () notReached := by
  have hdenied : ((isAnchored sampleCrates sampleCid).eval (answeringSpel notReached) ()).1 =
      .ok false := by
    refine (eval_isAnchored_eq_false_iff decodeCid_sampleCid rfl).2 ?_
    rintro (⟨text, htext⟩ | ⟨records, hrecords, -⟩)
    · cases htext
    · cases hrecords
  have hfails : notReached.Fails := .inr rfl
  refine ⟨hdenied, ?_⟩
  rintro ⟨found, hfound, -, hnotDenied⟩
  rw [queryByCid_of_state oneRecord_state] at hfound
  exact hnotDenied hfails (Outcome.ok.inj hfound ▸ rfl) hdenied

/-- `spel inspect` shows the record. -/
def shown : Inspection :=
  .ok ⟨true, .ok (.object [("records", .array [.object
    [("cid", .string (cidHex (Bytes.replicate CID_BYTES 0)))]])]), "", ""⟩

theorem shows_shown : shown.Shows ⟨[zeroRecord]⟩ := by
  refine ⟨⟨_, rfl, rfl⟩, _, rfl, fun text ↦ ?_⟩
  rw [RegistryState.cids_mk, List.map_singleton]
  simp only [List.mem_singleton, exists_eq_left]
  exact Option.some_inj

/-- The document is found where the registry is read. -/
theorem agrees_shown :
    shown.Shows ⟨[zeroRecord]⟩ ∧
      Agrees sampleCrates (answeringSpel shown) oneRecord ⟨[zeroRecord]⟩ sampleCid
        (Bytes.replicate CID_BYTES 0) () shown :=
  ⟨shows_shown, (agrees_iff oneRecord_state decodeCid_sampleCid rfl).2
    fun hfails ↦ absurd hfails shows_shown.not_fails⟩

end Whistleblower.Indexer
