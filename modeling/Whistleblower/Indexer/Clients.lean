import Whistleblower.Foundations.Parallel
import Whistleblower.Indexer.CidBuffer
import Whistleblower.Registry.Ledger

/-!
# Clients of one registry

Any number of programs link the indexer, and call its functions one after another while the others
do the same: they upload and broadcast, anchor batches, and look CIDs up, in Rust or through the C
interface. Batch anchors and whoever else submits transactions act in between.

What one of them is told holds for all. Once `anchor_batch` has returned a transaction hash, or a
lookup has found a CID, the record is in the registry, `query_by_cid` finds this record from there
on, and no `is_anchored` that is begun later, by anyone, says that it is not there, as long as no
inspection fails (`affirmed_for_good`). A lookup that has been under way may still say so: it has
inspected the registry before.
-/

namespace Whistleblower.Indexer

open BatchAnchor (AnchorEntry Cfg SpelCommand batchOf spelCommand joinCommas)
open CidRegistry CidRegistryProgram

/-! ### Requests and replies -/

/-- A call of one of the functions. -/
inductive Request where
  | uploadAndBroadcast (config : IndexerConfig) (data : List UInt8) (metadata : MetadataEnvelope)
  | anchorBatch (entries : List (String × Hash)) (timestamp : UInt64)
  | isAnchored (cid : String)
  | ffiUploadAndAnchor (call : Ffi.Call)
  | ffiIsAnchored (runtime : Except String Unit) (cid : Option String)

/-- What it has returned, together with what it has been asked. An error is no reply. -/
inductive Reply where
  | published (result : IndexResult)
  | anchored (entries : List (String × Hash)) (tx : String)
  | found (cid : String) (answer : Bool)
  | ffiResult (result : Ffi.IndexResult)
  | ffiFlag (cid : Option String) (flag : ℕ)

variable (K : Crates)

def Request.serve : Request → Proc Reply
  | .uploadAndBroadcast config data metadata => do
    .pure (.published (← Indexer.uploadAndBroadcast K config data metadata))
  | .anchorBatch entries timestamp => do
    .pure (.anchored entries (← Indexer.anchorBatch K entries timestamp))
  | .isAnchored cid => do .pure (.found cid (← Indexer.isAnchored K cid))
  | .ffiUploadAndAnchor call => do .pure (.ffiResult (← Ffi.uploadAndAnchor K call))
  | .ffiIsAnchored runtime cid => do .pure (.ffiFlag cid (← Ffi.isAnchored K runtime cid))

/-- The reply says that the CID is in the registry. -/
def Reply.Affirms (c : CidBytes) : Reply → Prop
  | .anchored entries _ => ∃ e ∈ entries, decodeCid K e.1 = .ok c
  | .found cid answer => answer = true ∧ decodeCid K cid = .ok c
  | .ffiFlag cid flag => flag = 1 ∧ decodeCid K (Ffi.cstrToString cid) = .ok c
  | .published _ => False
  | .ffiResult _ => False

/-- The reply says that the CID is not in the registry. The flag of the C interface does not, since
it stands for an error as well. -/
def Reply.Denies (c : CidBytes) : Reply → Prop
  | .found cid answer => answer = false ∧ decodeCid K cid = .ok c
  | .published _ => False
  | .anchored _ _ => False
  | .ffiResult _ => False
  | .ffiFlag _ _ => False

/-! ### The world of the clients -/

/-- Clients with an environment each. They all inspect one address, where the registry is. -/
structure Clients (ι : Type) where
  env : ι → String → Option String
  address : String
  env_registryPda : ∀ i, (env i "REGISTRY_PDA").getD
    "6QzQcyJn7LoYiSZkNoLmv5SbYCC4ba4BEDGt7KTeXCEM" = address

/-- `spel` is asked to inspect this address. -/
def SpelInvocation.Inspects (invocation : SpelInvocation) (address : String) : Prop :=
  ∃ idl, invocation.args = ["inspect", address, "--idl", idl, "--type", "RegistryState"]

/-- `spel` is asked to submit this batch. -/
def SpelInvocation.Submits (invocation : SpelInvocation) (b : Batch) : Prop :=
  ∃ idl command, invocation.args = spelArgs idl command ∧ ReadsAs command b

/-- What an inspection may answer: it shows the registry, or has not been started, or, where that
may happen, has failed and printed no records. -/
def Inspection.MayAnswer (fallible : Prop) (answer : Inspection) (state : RegistryState) : Prop :=
  answer.Shows state ∨ (∃ text, answer = .error text) ∨ fallible ∧ answer.records? = none

variable {P : Platform} {ι : Type}

/-- What a call of `spel` may do, as in the world of the batch anchor. -/
inductive SpelStep (S : Clients ι) (fallible : Prop) (invocation : SpelInvocation) :
    Account P → Except String Output → Account P → Prop
  | inspected {account answer} : invocation.Inspects S.address →
      (∀ state, account.state = some state → Inspection.MayAnswer fallible answer state) →
      SpelStep S fallible invocation account answer account
  | landed {account account' out b} : invocation.Submits b → out.success = true →
      CidRegistryProgram.anchorBatch account b = .ok account' →
      SpelStep S fallible invocation account (.ok out) account'
  | failed {account answer} : ¬ invocation.Inspects S.address →
      (∀ out, answer = .ok out → out.success = false) →
      SpelStep S fallible invocation account answer account
  | failedLate {account answer b} : invocation.Submits b →
      (∀ out, answer = .ok out → out.success = false) →
      SpelStep S fallible invocation account answer (execute account b)

/-- What the operations of a client may do to the registry. Whatever else is outside may answer
anything. -/
def Clients.performs (S : Clients ι) (fallible : Prop) (i : ι) :
    (o : Op) → Account P → o.Ret → Account P → Prop
  | .envVar name, account, value, account' => value = S.env i name ∧ account' = account
  | .spel invocation, account, answer, account' =>
    SpelStep S fallible invocation account answer account'
  | .tempDir, account, _, account' => account' = account
  | .writeFile _ _, account, _, account' => account' = account
  | .removeFile _, account, _, account' => account' = account
  | .logoscore _, account, _, account' => account' = account
  | .postFile _ _, account, _, account' => account' = account
  | .postPayload _ _, account, _, account' => account' = account
  | .sleep _, account, _, account' => account' = account
  | .insertBroadcasted _, account, _, account' => account' = account
  | .removeBroadcasted _, account, _, account' => account' = account

/-- The clients, among others who submit transactions. -/
def Clients.parties (S : Clients ι) (P : Platform) (fallible : Prop) :
    Parties Op.Ret (Account P) ι where
  performs := S.performs fallible
  interferes account account' := ∃ b, account' = execute account b

/-- A client may make any request. -/
def Serves (p : Proc Reply) : Prop :=
  ∃ request : Request, p = request.serve K

/-! ### What everybody keeps to -/

/-- The CID is in the registry. -/
def OnChain (account : Account P) (c : CidBytes) : Prop :=
  ∃ state, account.state = some state ∧ c ∈ state.cids

/-- Records are appended, and nothing else happens. -/
def Appends (account account' : Account P) : Prop :=
  ∀ state, account.state = some state →
    ∃ state', account'.state = some state' ∧ state.records <+: state'.records

theorem Appends.refl (account : Account P) : Appends account account :=
  fun state hstate ↦ ⟨state, hstate, List.prefix_refl _⟩

theorem Appends.trans {a a' a'' : Account P} (h : Appends a a') (h' : Appends a' a'') :
    Appends a a'' := by
  intro state hstate
  obtain ⟨state', hstate', hstart⟩ := h state hstate
  obtain ⟨state'', hstate'', hstart'⟩ := h' state' hstate'
  exact ⟨state'', hstate'', hstart.trans hstart'⟩

theorem appends_execute (account : Account P) (b : Batch) : Appends account (execute account b) :=
  fun _ hstate ↦ exists_state_execute hstate b

theorem Appends.onChain {a a' : Account P} {c : CidBytes} (h : Appends a a') (hc : OnChain a c) :
    OnChain a' c := by
  obtain ⟨state, hstate, hmem⟩ := hc
  obtain ⟨state', hstate', hstart⟩ := h state hstate
  exact ⟨state', hstate', (hstart.map DocumentRecord.cid).subset hmem⟩

/-- **A record that has been found is found from there on.** -/
theorem Appends.queryByCid {a a' : Account P} {c : CidBytes} {record : DocumentRecord}
    (h : Appends a a') (hfound : queryByCid a c = .ok (some record)) :
    CidRegistry.queryByCid a' c = .ok (some record) := by
  cases hstate : a.state with
  | none =>
    rw [CidRegistry.queryByCid, hstate] at hfound
    cases hfound
  | some state =>
    obtain ⟨state', hstate', hstart⟩ := h state hstate
    rw [queryByCid_of_state hstate, Outcome.ok.injEq] at hfound
    rw [queryByCid_of_state hstate', hstart.find?_eq_some hfound]

theorem OnChain.queryByCid {account : Account P} {c : CidBytes} (h : OnChain account c) :
    ∃ record, queryByCid account c = .ok (some record) := by
  obtain ⟨state, hstate, hmem⟩ := h
  obtain ⟨found, hfound, hisSome⟩ := queryByCid_isSome hstate c
  obtain ⟨record, rfl⟩ := Option.isSome_iff_exists.1 (hisSome.2 hmem)
  exact ⟨record, hfound⟩

/-- A call of `spel` appends at most. -/
theorem SpelStep.appends {S : Clients ι} {fallible : Prop} {invocation : SpelInvocation}
    {a a' : Account P} {answer : Except String Output}
    (h : SpelStep S fallible invocation a answer a') : Appends a a' := by
  cases h with
  | inspected => exact Appends.refl _
  | landed _ _ hok => exact execute_of_ok hok ▸ appends_execute _ _
  | failed => exact Appends.refl _
  | failedLate => exact appends_execute _ _

/-- So does every operation. -/
theorem Clients.performs_appends {S : Clients ι} {fallible : Prop} {i : ι} {o : Op}
    {a a' : Account P} {r : o.Ret} (h : S.performs fallible i o a r a') : Appends a a' := by
  cases o with
  | spel invocation => exact SpelStep.appends h
  | envVar name => exact h.2 ▸ Appends.refl _
  | _ =>
    obtain rfl : a' = a := h
    exact Appends.refl _

/-- What the clients agree on, where these CIDs are known to be in the registry. -/
def Clients.accord (S : Clients ι) (P : Platform) (fallible : Prop) (known : CidBytes → Prop) :
    Accord (S.parties P fallible) where
  Inv account := (∃ state, account.state = some state) ∧ ∀ c, known c → OnChain account c
  Evolves := Appends
  refl := Appends.refl
  trans := Appends.trans
  evolves_of_interferes := by
    rintro a a' - ⟨b, rfl⟩
    exact appends_execute a b
  inv_of_evolves := by
    rintro a a' ⟨⟨state, hstate⟩, hknown⟩ happends
    obtain ⟨state', hstate', -⟩ := happends state hstate
    exact ⟨⟨state', hstate'⟩, fun c hc ↦ happends.onChain (hknown c hc)⟩

/-! ### The functions -/

variable {K} {S : Clients ι} {fallible : Prop} {known : CidBytes → Prop} {i : ι}

theorem triple_serves {α : Type} (p : Proc α) :
    ((S.accord P fallible known).contract i).Triple (fun _ ↦ True) p fun _ _ ↦ True := by
  refine Contract.triple_of_performs (fun o a r a' hinv hperforms ↦ ?_) p
  have happends : Appends a a' := Clients.performs_appends hperforms
  exact ⟨(S.accord P fallible known).inv_of_evolves hinv happends, happends⟩

theorem stable_trivial : ((S.accord P fallible known).contract i).Stable fun _ ↦ True :=
  fun _ _ h ↦ h

theorem triple_envVarOr (name default : String) :
    ((S.accord P fallible known).contract i).Triple (fun _ ↦ True) (envVarOr name default)
      fun value _ ↦ value = (S.env i name).getD default := by
  refine Contract.triple_query (F := fun value _ ↦ value = S.env i name) stable_trivial
    (fun a value a' _ hperforms ↦ ?_) fun value ↦ Contract.triple_pure ?_
  · obtain ⟨hvalue, rfl⟩ : value = S.env i name ∧ a' = a := hperforms
    exact ⟨rfl, hvalue⟩
  · rintro a - ⟨-, rfl⟩
    rfl

/-- A call of `spel`, of which nothing is known before. -/
theorem triple_spel {α : Type} {invocation : SpelInvocation} {k : Except String Output → Proc α}
    {R : Except String Output → Account P → Prop} {Q : α → Account P → Prop}
    (h : ∀ a answer a', (∃ state, a.state = some state) ∧ (∀ c, known c → OnChain a c) →
      SpelStep S fallible invocation a answer a' → R answer a')
    (hk : ∀ answer, ((S.accord P fallible known).contract i).Triple (R answer) (k answer) Q) :
    ((S.accord P fallible known).contract i).Triple (fun _ ↦ True) (.op (.spel invocation) k)
      Q := by
  refine Contract.triple_op stable_trivial (fun a answer a' hinv _ hperforms ↦ ?_) hk
  have hstep : SpelStep S fallible invocation a answer a' := hperforms
  have hinv' := (S.accord P fallible known).inv_of_evolves hinv hstep.appends
  exact ⟨hinv', hstep.appends, h a answer a' hinv hstep⟩

/-! ### Anchoring -/

/-- Entries that can be decoded. -/
theorem exists_undecoded {entries : List (String × Hash)}
    (h : ∀ e ∈ entries, Decodable K e.1) :
    ∃ es : List AnchorEntry, undecoded es = entries ∧ ∀ e ∈ es, decodeCid K e.2.2 = .ok e.1 := by
  induction entries with
  | nil => exact ⟨[], rfl, fun e he ↦ absurd he List.not_mem_nil⟩
  | cons e entries ih =>
    obtain ⟨cid, hcid⟩ := h e List.mem_cons_self
    obtain ⟨es, rfl, hes⟩ := ih fun e' he' ↦ h e' (List.mem_cons_of_mem _ he')
    refine ⟨(cid, e.2, e.1) :: es, rfl, fun e' he' ↦ ?_⟩
    rcases List.mem_cons.1 he' with rfl | he'
    · exact hcid
    · exact hes e' he'

/-- The call of `spel anchor-batch`. -/
def submission (entries : List AnchorEntry) (timestamp : UInt64) : Proc Output := do
  let spel ← envVarOr "SPEL_BIN" "spel"
  let idl ← envVarOr "SPEL_IDL" "cid-registry/cid-registry.idl.json"
  let workdir ← envVarOr "SPEL_WORKDIR" "."
  runSpel ⟨spel, workdir, spelArgs idl (spelCommand ⟨"", spel, idl, workdir⟩ entries timestamp)⟩

theorem anchorBatch_eq {es : List AnchorEntry} (hne : es ≠ [])
    (hlen : es.length ≤ MAX_BATCH_SIZE) (hes : ∀ e ∈ es, decodeCid K e.2.2 = .ok e.1)
    (timestamp : UInt64) :
    Indexer.anchorBatch K (undecoded es) timestamp = submission es timestamp >>= fun out ↦
      if out.success then .pure (txHash out.stdout)
      else bail ("spel anchor-batch failed: " ++ out.stderr) := by
  have hne' : undecoded es ≠ [] := by simpa [undecoded] using hne
  have hlen' : ¬ (undecoded es).length > MAX_BATCH_SIZE := by
    rw [undecoded, List.length_map]
    omega
  rw [Indexer.anchorBatch, if_neg hne', if_neg hlen', decodeEntries_undecoded hes]
  have hmetas : (undecoded es).map (fun e ↦ hexEncode e.2.toList) =
      es.map fun e ↦ hexEncode e.2.1.toList := List.map_map
  have htimes : (undecoded es).map (fun _ ↦ (Decimal.render timestamp).toList) =
      es.map fun _ ↦ (Decimal.render timestamp).toList := List.map_map
  simp only [hmetas, htimes]
  rfl

/-- The arguments stand for the entries. -/
theorem submits_iff {cli : Cfg} {es : List AnchorEntry} (hne : es ≠ []) {timestamp : UInt64}
    {spel workdir idl : String} {b : Batch} :
    SpelInvocation.Submits ⟨spel, workdir, spelArgs idl (spelCommand cli es timestamp)⟩ b ↔
      b = batchOf es timestamp := by
  rw [← readsAs_spelCommand_iff cli hne]
  constructor
  · rintro ⟨idl', command, hargs, hreads⟩
    simp only [spelArgs, List.cons.injEq, true_and, and_true] at hargs
    obtain ⟨-, hcids, hhashes, htimes⟩ := hargs
    rw [ReadsAs, hcids, hhashes, htimes]
    exact hreads
  · exact fun hreads ↦ ⟨idl, _, rfl, hreads⟩

theorem not_submits_of_inspects {invocation : SpelInvocation} {address : String} {b : Batch}
    (h : invocation.Inspects address) : ¬ invocation.Submits b := by
  obtain ⟨idl, hargs⟩ := h
  rintro ⟨idl', command, hargs', -⟩
  rw [hargs] at hargs'
  exact absurd (List.cons.inj hargs').1 (by decide)

/-- **After a success the entries are in the registry.** -/
theorem onChain_of_landed {es : List AnchorEntry} {timestamp : UInt64} {a a' : Account P}
    (hstate : ∃ state, a.state = some state)
    (hok : CidRegistryProgram.anchorBatch a (batchOf es timestamp) = .ok a') {e : AnchorEntry}
    (he : e ∈ es) : OnChain a' e.1 := by
  obtain ⟨state, hstate⟩ := hstate
  obtain ⟨state', hstate', -⟩ := exists_state_execute hstate (batchOf es timestamp)
  have hmem : e.1.toList ∈ (batchOf es timestamp).entriesCids := List.mem_map_of_mem he
  obtain ⟨c, hc, hbytes⟩ :=
    exists_mem_cids_of_ok hstate (by rw [hok, Outcome.isOk_ok]) hstate' hmem
  rw [execute_of_ok hok] at hstate'
  exact ⟨state', hstate', Bytes.toList_inj.1 hbytes ▸ hc⟩

theorem triple_submission {es : List AnchorEntry} (hne : es ≠ []) (timestamp : UInt64) :
    ((S.accord P fallible known).contract i).Triple (fun _ ↦ True) (submission es timestamp)
      fun out a ↦ out.success = true → ∀ e ∈ es, OnChain a e.1 := by
  refine Contract.triple_bind (triple_envVarOr _ _) fun spel ↦ ?_
  refine Contract.triple_bind ((triple_envVarOr _ _).weaken (fun _ _ _ ↦ trivial)
    fun _ _ _ _ ↦ trivial) fun idl ↦ ?_
  refine Contract.triple_bind (triple_envVarOr _ _) fun workdir ↦ ?_
  refine Contract.Triple.weaken (triple_spel (R := fun answer a ↦ ∀ out, answer = .ok out →
    out.success = true → ∀ e ∈ es, OnChain a e.1) (fun a answer a' hinv hstep ↦ ?_) fun answer ↦ ?_)
    (fun _ _ _ ↦ trivial) fun _ _ _ h ↦ h
  · cases hstep with
    | inspected hinspects _ =>
      exact absurd ((submits_iff (b := batchOf es timestamp) hne).2 rfl)
        (not_submits_of_inspects hinspects)
    | landed hsubmits _ hok =>
      obtain rfl := (submits_iff hne).1 hsubmits
      exact fun _ _ _ e he ↦ onChain_of_landed hinv.1 hok he
    | failed _ hfailed =>
      intro out hout hsuccess
      rw [hfailed out hout] at hsuccess
      cases hsuccess
    | failedLate _ hfailed =>
      intro out hout hsuccess
      rw [hfailed out hout] at hsuccess
      cases hsuccess
  · cases answer with
    | error text => exact Contract.triple_fail
    | ok out => exact Contract.triple_pure fun a _ h ↦ h out rfl

/-- **`anchor_batch`.** -/
theorem triple_anchorBatch (entries : List (String × Hash)) (timestamp : UInt64) :
    ((S.accord P fallible known).contract i).Triple (fun _ ↦ True)
      (Indexer.anchorBatch K entries timestamp)
      fun _ a ↦ ∀ e ∈ entries, ∀ c, decodeCid K e.1 = .ok c → OnChain a c := by
  by_cases hne : entries = []
  · subst hne
    rw [Indexer.anchorBatch, if_pos rfl]
    exact Contract.triple_pure fun _ _ _ e he ↦ absurd he List.not_mem_nil
  by_cases hlen : entries.length > MAX_BATCH_SIZE
  · rw [Indexer.anchorBatch, if_neg hne, if_pos hlen]
    exact Contract.triple_fail
  by_cases hdecodable : ∀ e ∈ entries, Decodable K e.1
  · obtain ⟨es, rfl, hes⟩ := exists_undecoded hdecodable
    have hne' : es ≠ [] := by
      rintro rfl
      exact hne rfl
    rw [undecoded, List.length_map, not_lt] at hlen
    rw [anchorBatch_eq hne' hlen hes]
    refine Contract.triple_bind (triple_submission hne' timestamp) fun out ↦ ?_
    split
    · next hsuccess =>
      refine Contract.triple_pure fun a _ hlanded e he c hc ↦ ?_
      obtain ⟨e', he', rfl⟩ := List.mem_map.1 he
      obtain rfl := Except.ok.inj ((hes e' he').symm.trans hc)
      exact hlanded hsuccess e' he'
    · exact Contract.triple_fail
  · simp only [not_forall] at hdecodable
    obtain ⟨e, he, hnot⟩ := hdecodable
    obtain ⟨text, hbail⟩ := anchorBatch_of_not_decodable K he hnot timestamp
    rw [hbail]
    exact Contract.triple_fail

/-! ### Looking up -/

/-- The bool that `is_anchored` makes of what has been printed. -/
theorem any_shownCid_iff (out : Output) (c : CidBytes) :
    (((out.json.toOption.getD .null).get "records").asArray.map fun rs ↦
      rs.any fun r ↦ shownCid r = some (cidHex c)).getD false = true ↔
      Inspection.Lists (.ok out) c := by
  rw [Inspection.Lists, Inspection.records?_ok]
  cases ((out.json.toOption.getD .null).get "records").asArray with
  | none => simp
  | some records => simp

/-- What has been printed of a CID is right, unless the inspection has failed. -/
theorem Inspection.MayAnswer.lists_iff {answer : Inspection} {state : RegistryState}
    (h : answer.MayAnswer fallible state) {c : CidBytes} :
    (answer.Lists c → c ∈ state.cids) ∧
      (¬ fallible → (∃ out, answer = .ok out) → c ∈ state.cids → answer.Lists c) := by
  rcases h with hshows | ⟨text, rfl⟩ | ⟨hfallible, hnone⟩
  · exact ⟨hshows.lists_iff.1, fun _ _ ↦ hshows.lists_iff.2⟩
  · refine ⟨fun ⟨records, hrecords, _⟩ ↦ ?_, fun _ ⟨out, hout⟩ ↦ ?_⟩
    · cases hrecords
    · cases hout
  · refine ⟨fun ⟨records, hrecords, _⟩ ↦ ?_, fun hnot ↦ absurd hfallible hnot⟩
    rw [Option.mem_def, hnone] at hrecords
    cases hrecords

theorem triple_inspection :
    ((S.accord P fallible known).contract i).Triple (fun _ ↦ True) inspection
      fun invocation _ ↦ invocation.Inspects S.address := by
  refine Contract.triple_bind (triple_envVarOr _ _) fun spel ↦ ?_
  refine Contract.triple_bind ((triple_envVarOr _ _).weaken (fun _ _ _ ↦ trivial)
    fun _ _ _ _ ↦ trivial) fun idl ↦ ?_
  refine Contract.triple_bind ((triple_envVarOr _ _).weaken (fun _ _ _ ↦ trivial)
    fun _ _ _ _ ↦ trivial) fun workdir ↦ ?_
  refine Contract.triple_bind ((triple_envVarOr _ _).weaken (fun _ _ _ ↦ trivial)
    fun _ _ _ h ↦ h) fun pda ↦ Contract.triple_pure ?_
  rintro a - rfl
  exact ⟨idl, by rw [S.env_registryPda i]⟩

/-- What an inspection answers is what the registry holds then, with what is known to be there. -/
theorem triple_inspect :
    ((S.accord P fallible known).contract i).Triple (fun _ ↦ True) inspect
      fun answer a ↦ (∀ c, answer.Lists c → OnChain a c) ∧
        (¬ fallible → (∃ out, answer = .ok out) → ∀ c, known c → answer.Lists c) := by
  refine Contract.triple_bind triple_inspection fun invocation ↦ ?_
  refine Contract.triple_of_imp (P := fun _ ↦ True) (fun hinspects ↦ ?_) |>.weaken
    (fun _ _ h ↦ ⟨h, trivial⟩) fun _ _ _ h ↦ h
  refine triple_spel (fun a answer a' hinv hstep ↦ ?_) fun answer ↦
    Contract.triple_pure fun _ _ h ↦ h
  cases hstep with
  | inspected _ hanswers =>
    obtain ⟨⟨state, hstate⟩, hknown⟩ := hinv
    have hanswer := hanswers state hstate
    refine ⟨fun c hlists ↦ ⟨state, hstate, hanswer.lists_iff.1 hlists⟩, fun hnot hok c hc ↦ ?_⟩
    obtain ⟨state', hstate', hmem⟩ := hknown c hc
    obtain rfl := Option.some.inj (hstate.symm.trans hstate')
    exact hanswer.lists_iff.2 hnot hok hmem
  | landed hsubmits => exact absurd hsubmits (not_submits_of_inspects hinspects)
  | failed hnot => exact absurd hinspects hnot
  | failedLate hsubmits => exact absurd hsubmits (not_submits_of_inspects hinspects)

/-- **`is_anchored`.** -/
theorem triple_isAnchored (cid : String) :
    ((S.accord P fallible known).contract i).Triple (fun _ ↦ True) (Indexer.isAnchored K cid)
      fun answer a ↦ ∀ c, decodeCid K cid = .ok c → (answer = true → OnChain a c) ∧
        (¬ fallible → known c → answer = true) := by
  cases hcid : decodeCid K cid with
  | error text =>
    rw [isAnchored, hcid]
    exact Contract.triple_fail
  | ok c =>
    rw [isAnchored_eq hcid]
    refine Contract.triple_bind triple_inspect fun answer ↦ ?_
    cases answer with
    | error text => exact Contract.triple_fail
    | ok out =>
      refine Contract.triple_pure ?_
      rintro a - ⟨hlists, hknown⟩ c' hc'
      obtain rfl := Except.ok.inj hc'
      exact ⟨fun htrue ↦ hlists c ((any_shownCid_iff out c).1 htrue),
        fun hnot hc ↦ (any_shownCid_iff out c).2 (hknown hnot ⟨out, rfl⟩ c hc)⟩

/-- **`document_indexer_is_anchored`.** -/
theorem triple_ffiIsAnchored (runtime : Except String Unit) (cid : Option String) :
    ((S.accord P fallible known).contract i).Triple (fun _ ↦ True) (Ffi.isAnchored K runtime cid)
      fun flag a ↦ ∀ c, decodeCid K (Ffi.cstrToString cid) = .ok c → flag = 1 → OnChain a c := by
  cases runtime with
  | error text =>
    refine Contract.triple_pure fun a _ _ c _ hflag ↦ ?_
    exact absurd hflag Nat.zero_ne_one
  | ok _ =>
    refine Contract.triple_bind (triple_serves defaultConfig) fun config ↦ ?_
    have hlookup : ((S.accord P fallible known).contract i).Triple (fun _ ↦ True)
        (result (Indexer.isAnchored K (Ffi.cstrToString cid))) fun x a ↦ ∀ answer, x = .ok answer →
          ∀ c, decodeCid K (Ffi.cstrToString cid) = .ok c → answer = true → OnChain a c :=
      fun a hinv htrue ↦ (((triple_isAnchored _ a hinv htrue).mono fun answer _ _ h c hc ↦
        (h c hc).1).attempt)
    refine Contract.triple_bind hlookup fun x ↦ Contract.triple_pure fun a _ h c hc hflag ↦ ?_
    cases x with
    | error text => exact absurd hflag Nat.zero_ne_one
    | ok answer =>
      cases answer with
      | true => exact h true rfl c hc rfl
      | false => exact absurd hflag Nat.zero_ne_one

/-! ### What clients are told -/

/-- What a client is promised about its reply. -/
def Truthful (K : Crates) (fallible : Prop) (known : CidBytes → Prop) (reply : Reply)
    (account : Account P) : Prop :=
  ∀ c, (reply.Affirms K c → OnChain account c) ∧ (¬ fallible → known c → ¬ reply.Denies K c)

theorem stable_truthful (reply : Reply) :
    ((S.accord P fallible known).contract i).Stable (Truthful K fallible known reply) :=
  fun _ happends h c ↦ ⟨fun haffirms ↦ Appends.onChain happends ((h c).1 haffirms), (h c).2⟩

/-- **Every reply is truthful**, whatever is going on at the same time. -/
theorem triple_serve (request : Request) :
    ((S.accord P fallible known).contract i).Triple (fun _ ↦ True) (request.serve K)
      (Truthful K fallible known) := by
  cases request with
  | uploadAndBroadcast config data metadata =>
    exact Contract.triple_bind (triple_serves _) fun result ↦
      Contract.triple_pure fun _ _ _ c ↦ ⟨False.elim, fun _ _ ↦ id⟩
  | anchorBatch entries timestamp =>
    refine Contract.triple_bind (triple_anchorBatch entries timestamp) fun tx ↦
      Contract.triple_pure fun _ _ h c ↦ ⟨fun haffirms ↦ ?_, fun _ _ ↦ id⟩
    obtain ⟨e, he, hc⟩ := haffirms
    exact h e he c hc
  | isAnchored cid =>
    refine Contract.triple_bind (triple_isAnchored cid) fun answer ↦
      Contract.triple_pure fun _ _ h c ↦ ⟨fun haffirms ↦ ?_, fun hnot hknown hdenies ↦ ?_⟩
    · exact (h c haffirms.2).1 haffirms.1
    · have htrue := (h c hdenies.2).2 hnot hknown
      rw [hdenies.1] at htrue
      cases htrue
  | ffiUploadAndAnchor call =>
    exact Contract.triple_bind (triple_serves _) fun result ↦
      Contract.triple_pure fun _ _ _ c ↦ ⟨False.elim, fun _ _ ↦ id⟩
  | ffiIsAnchored runtime cid =>
    refine Contract.triple_bind (triple_ffiIsAnchored runtime cid) fun flag ↦
      Contract.triple_pure fun _ _ h c ↦ ⟨fun haffirms ↦ ?_, fun _ _ ↦ id⟩
    exact h c haffirms.2 haffirms.1

variable [DecidableEq ι]

/-- **What has been affirmed once, stays.** Let a client have got a reply that says a CID is in the
registry: a transaction hash for a batch it is in, or that it has been found. Then there is a record
of it, which `query_by_cid` finds in every later state; and where no inspection fails, no client
that is idle now will ever get a reply that denies it. -/
theorem affirmed_for_good (K : Crates) (P : Platform) (S : Clients ι) (fallible : Prop)
    {c : Parties.Config Op.Ret Failure Reply (Account P) ι}
    (hreach : (S.parties P fallible).Reachable (fun _ ↦ Serves K)
      (fun account ↦ ∃ state, account.state = some state) c)
    {i : ι} {reply : Reply} (hreply : c.2 i = some (.pure reply)) {cid : CidBytes}
    (haffirms : reply.Affirms K cid) :
    ∃ record, queryByCid c.1 cid = .ok (some record) ∧
      ∀ c', Relation.ReflTransGen ((S.parties P fallible).Step fun _ ↦ Serves K) c c' →
        queryByCid c'.1 cid = .ok (some record) ∧
        (¬ fallible → ∀ j reply', c.2 j = none → c'.2 j = some (.pure reply') →
          ¬ reply'.Denies K cid) := by
  obtain ⟨account, hstate, hrun⟩ := hreach
  -- up to now, nothing need be known to be there
  let A := S.accord P fallible fun _ ↦ False
  have hserves : ∀ j p, Serves K p → (A.contract j).Triple (fun _ ↦ True) p
      (Truthful K fallible fun _ ↦ False) := by
    rintro j p ⟨request, rfl⟩
    exact triple_serve request
  obtain ⟨hinv, hpromised, -⟩ := Accord.runs (fun _ ↦ stable_truthful) hserves
    ⟨hstate, fun _ ↦ False.elim⟩ (Accord.promised_none _ account) hrun
  have honChain : OnChain c.1 cid := (hpromised.result hreply cid).1 haffirms
  obtain ⟨record, hrecord⟩ := honChain.queryByCid
  refine ⟨record, hrecord, fun c' hlater ↦ ?_⟩
  -- from now on, the CID is
  let A' := S.accord P fallible (· = cid)
  have hserves' : ∀ j p, Serves K p → (A'.contract j).Triple (fun _ ↦ True) p
      fun reply account ↦ c.2 j = none → Truthful K fallible (· = cid) reply account := by
    rintro j p ⟨request, rfl⟩
    exact (triple_serve request).weaken (fun _ _ h ↦ h) fun _ _ _ h _ ↦ h
  have hinv' : A'.Inv c.1 := ⟨hinv.1, fun _ heq ↦ heq ▸ honChain⟩
  -- nothing is promised of what is under way, but to append
  have hpromised' : A'.Promised
      (fun j reply account ↦ c.2 j = none → Truthful K fallible (· = cid) reply account) c := by
    intro j p hp
    refine (triple_serves p c.1 hinv' trivial).mono fun reply _ _ _ hidle ↦ ?_
    rw [hidle] at hp
    cases hp
  have hstable : ∀ j reply, (A'.contract j).Stable
      fun account ↦ c.2 j = none → Truthful K fallible (· = cid) reply account := by
    intro j reply a a' hinv happends h hidle
    exact stable_truthful reply hinv happends (h hidle)
  obtain ⟨-, htruthful, happends⟩ := Accord.runs hstable hserves' hinv' hpromised' hlater
  refine ⟨Appends.queryByCid happends hrecord, fun hnot j reply' hidle hreply' ↦ ?_⟩
  exact (htruthful.result hreply' hidle cid).2 hnot rfl

/-! ### Two clients -/

/-- Two clients without anything in the environment. -/
def samplePair : Clients Bool where
  env _ _ := none
  address := "6QzQcyJn7LoYiSZkNoLmv5SbYCC4ba4BEDGt7KTeXCEM"
  env_registryPda _ := rfl

def sampleEntries : List AnchorEntry :=
  [(Bytes.replicate CID_BYTES 0, Bytes.replicate 32 7, sampleCid)]

def sampleArgs : List String :=
  spelArgs "cid-registry/cid-registry.idl.json"
    (spelCommand ⟨"", "spel", "cid-registry/cid-registry.idl.json", "."⟩ sampleEntries 0)

/-- `spel` submits one batch, and fails otherwise. Nothing else is there. -/
def submitting (o : Op) (account : Account Account.samplePlatform) :
    o.Ret × Account Account.samplePlatform :=
  match o with
  | .spel invocation =>
    if invocation.args = sampleArgs then
      match CidRegistryProgram.anchorBatch account (batchOf sampleEntries 0) with
      | .ok account' => (.ok ⟨true, .error "expected value", "tx_hash: 7", ""⟩, account')
      | _ => (.error "No such file or directory (os error 2)", account)
    else (.error "No such file or directory (os error 2)", account)
  | o => (unreachable [] o, account)

theorem performs_submitting (i : Bool) (o : Op) (account : Account Account.samplePlatform) :
    samplePair.performs False i o account (submitting o account).1 (submitting o account).2 := by
  cases o with
  | spel invocation =>
    have hfails : SpelStep samplePair False invocation account
        (.error "No such file or directory (os error 2)") account := by
      by_cases hinspects : invocation.Inspects samplePair.address
      · exact .inspected hinspects fun _ _ ↦ .inr (.inl ⟨_, rfl⟩)
      · exact .failed hinspects fun _ hout ↦ by cases hout
    show SpelStep samplePair False invocation account (submitting (.spel invocation) account).1
      (submitting (.spel invocation) account).2
    rw [submitting]
    split
    · next hargs =>
      split
      · next account' hok =>
        have hsubmits : invocation.Submits (batchOf sampleEntries 0) :=
          ⟨_, _, hargs, (readsAs_spelCommand_iff _ (List.cons_ne_nil _ _) 0).2 rfl⟩
        exact .landed hsubmits rfl hok
      · exact hfails
    · exact hfails
  | envVar name => exact ⟨rfl, rfl⟩
  | _ => exact rfl

/-- The document is anchored by one of them. -/
theorem exists_eval_submitting : ∃ tx account,
    ((Request.anchorBatch (undecoded sampleEntries) 0).serve sampleCrates).eval submitting
      Account.emptyRegistry = (.ok (.anchored (undecoded sampleEntries) tx), account) := by
  have hdecoded : ∀ e ∈ sampleEntries, decodeCid sampleCrates e.2.2 = .ok e.1 := by
    intro e he
    rw [List.mem_singleton.1 he]
    exact decodeCid_sampleCid
  have hne : sampleEntries ≠ [] := List.cons_ne_nil _ _
  have hisOk : (CidRegistryProgram.anchorBatch Account.emptyRegistry
    (batchOf sampleEntries 0)).isOk = true := by decide +kernel
  cases hok : CidRegistryProgram.anchorBatch Account.emptyRegistry (batchOf sampleEntries 0) with
  | ok account =>
    have hspel : submitting (.spel ⟨"spel", ".", sampleArgs⟩) Account.emptyRegistry =
        (.ok ⟨true, .error "expected value", "tx_hash: 7", ""⟩, account) := by
      rw [submitting, if_pos rfl, hok]
    have hsubmission : (submission sampleEntries 0).eval submitting Account.emptyRegistry =
        (.ok ⟨true, .error "expected value", "tx_hash: 7", ""⟩, account) := by
      show (question (submitting (.spel ⟨"spel", ".", sampleArgs⟩) Account.emptyRegistry).1).eval
        submitting (submitting (.spel ⟨"spel", ".", sampleArgs⟩) Account.emptyRegistry).2 = _
      rw [hspel]
      rfl
    have hanchored := Process.eval_bind_of_ok submitting hsubmission fun out ↦
      if out.success then (.pure (txHash out.stdout) : Proc String)
      else bail ("spel anchor-batch failed: " ++ out.stderr)
    rw [← anchorBatch_eq hne (by decide) hdecoded 0] at hanchored
    exact ⟨_, account, Process.eval_bind_of_ok submitting hanchored _⟩
  | err e =>
    rw [hok] at hisOk
    cases hisOk
  | panic =>
    rw [hok] at hisOk
    cases hisOk

/-- Then the record is there for good. -/
theorem affirmed_for_good_samplePair : ∃ account : Account Account.samplePlatform, ∃ record,
    queryByCid account (Bytes.replicate CID_BYTES 0) = .ok (some record) := by
  obtain ⟨tx, account, heval⟩ := exists_eval_submitting
  let ps : Bool → Option (Proc Reply) := fun _ ↦ none
  have hreach : (samplePair.parties Account.samplePlatform False).Reachable
      (fun _ ↦ Serves sampleCrates) (fun account ↦ ∃ state, account.state = some state)
      (account, Function.update ps true
        (some (.pure (.anchored (undecoded sampleEntries) tx)))) :=
    ⟨Account.emptyRegistry, ⟨_, Account.emptyRegistry_state⟩,
      .head (.start (i := true) rfl ⟨.anchorBatch (undecoded sampleEntries) 0, rfl⟩)
        (Parties.reaches_pure _ _ true (performs_submitting true) heval ps)⟩
  have haffirms : (Reply.anchored (undecoded sampleEntries) tx).Affirms sampleCrates
      (Bytes.replicate CID_BYTES 0) :=
    ⟨(sampleCid, Bytes.replicate 32 7), List.mem_cons_self, decodeCid_sampleCid⟩
  obtain ⟨record, hrecord, -⟩ := affirmed_for_good sampleCrates Account.samplePlatform samplePair
    False hreach (i := true) (Function.update_self true _ ps) haffirms
  exact ⟨account, record, hrecord⟩

end Whistleblower.Indexer
