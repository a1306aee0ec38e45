import Whistleblower.Foundations.Outcome
import Whistleblower.Foundations.Codec
import Mathlib.Data.Finset.Basic
import Mathlib.Data.List.Dedup

/-!
# The registry account and its contents

The data model of the `cid-registry` crate (`cid-registry/src/lib.rs`): document records, the
registry state, the crate's error codes, and the account whose data holds the borsh-encoded state.

Fixed-size arrays are `Bytes n`, so a `CidBytes` of the wrong length cannot be built: the
length check the code makes before `copy_from_slice` is what produces one. In the same way a `Data`
carries the size bound `Data::try_from` has checked.

`AccountWithMetadata` has further fields (id, authorisation, owner, balance, nonce). No function of
the crate reads them apart from one comparison with `Account::default()`, so an account is its data
here.
-/

namespace Whistleblower

/-- Batch exceeds the 50-CID limit per transaction. -/
def ERR_BATCH_TOO_LARGE : UInt32 := 4001

/-- CID is not 46 bytes (base58-encoded SHA256 multihash). -/
def ERR_INVALID_CID : UInt32 := 4002

def MAX_BATCH_SIZE : ℕ := 50

def CID_BYTES : ℕ := 46

/-- `[u8; CID_BYTES]`. -/
abbrev CidBytes := Bytes CID_BYTES

/-- `[u8; 32]`, the size of a SHA-256 digest. -/
abbrev Hash := Bytes 32

/-- Per-document record anchored on-chain. -/
structure DocumentRecord where
  cid : CidBytes
  metadataHash : Hash
  anchorTimestamp : UInt64
  deriving DecidableEq

/-- Global registry state: list of anchored documents. -/
@[ext] structure RegistryState where
  records : List DocumentRecord
  deriving DecidableEq

namespace RegistryState

/-- The registered CIDs, in record order. -/
def cids (state : RegistryState) : List CidBytes :=
  state.records.map DocumentRecord.cid

@[simp] theorem cids_mk (records : List DocumentRecord) :
    (RegistryState.mk records).cids = records.map DocumentRecord.cid := rfl

/-! ### Borsh -/

/-- A record is its three fields in declaration order. -/
def recordCodec : Codec DocumentRecord :=
  ((Codec.bytes CID_BYTES).pair ((Codec.bytes 32).pair Codec.u64)).map
    (fun r ↦ (r.cid, r.metadataHash, r.anchorTimestamp)) (fun p ↦ ⟨p.1, p.2.1, p.2.2⟩)
    fun _ ↦ rfl

/-- A record takes 46 + 32 + 8 bytes. -/
theorem recordCodec_hasWidth : recordCodec.HasWidth 86 :=
  Codec.map_hasWidth (Codec.pair_hasWidth (Codec.bytes_hasWidth _)
    (Codec.pair_hasWidth (Codec.bytes_hasWidth _) Codec.u64_hasWidth)) _ _ _

/-- The borsh format of the state: a 4-byte count and the records. -/
def codec : Codec RegistryState :=
  recordCodec.vec.map RegistryState.records RegistryState.mk fun _ ↦ rfl

/-- `borsh::to_vec`. -/
def toVec (state : RegistryState) : Option (List UInt8) :=
  codec.encode state

/-- `RegistryState::try_from_slice`. -/
def tryFromSlice (bs : List UInt8) : Option RegistryState :=
  codec.decodeAll bs

theorem tryFromSlice_toVec {state : RegistryState} {bs : List UInt8} (h : state.toVec = some bs) :
    tryFromSlice bs = some state :=
  codec.decodeAll_encode h

theorem toVec_of_lt {state : RegistryState} (h : state.records.length < 2 ^ 32) :
    ∃ bs, state.toVec = some bs ∧ bs.length = 4 + 86 * state.records.length :=
  Codec.encode_vec_of_hasWidth recordCodec_hasWidth h

end RegistryState

/-! ### Errors and accounts -/

/-- The two `SpelError` variants the crate returns. -/
inductive SpelError where
  | custom (code : UInt32) (message : String)
  | serializationError (message : String)
  deriving DecidableEq

/-- What the crate takes from `nssa_core` and `borsh`: the size limit of account data and the texts
of the two errors that it passes on. The guest is a 32-bit program, so no byte string it handles
reaches `2 ^ 32` bytes. -/
structure Platform where
  /-- The longest byte string `Data::try_from` accepts. -/
  dataMaxLength : ℕ
  dataMaxLength_lt : dataMaxLength < 2 ^ 32
  /-- The `Debug` text of the error of `Data::try_from`. -/
  dataError : String
  /-- The text of the error of `borsh::to_vec`. -/
  borshError : String

variable (P : Platform)

/-- Account data: a byte string within the size limit. -/
structure Data where
  bytes : List UInt8
  length_le : bytes.length ≤ P.dataMaxLength
  deriving DecidableEq

variable {P} in
/-- `Data::try_from`. -/
def Data.tryFrom (bs : List UInt8) : Option (Data P) :=
  if h : bs.length ≤ P.dataMaxLength then some ⟨bs, h⟩ else none

variable {P} in
theorem Data.tryFrom_eq_some {bs : List UInt8} {d : Data P} :
    Data.tryFrom bs = some d ↔ d.bytes = bs := by
  obtain ⟨ds, hds⟩ := d
  rw [Data.tryFrom]
  split
  · rw [Option.some.injEq, Data.mk.injEq, eq_comm]
  · next h =>
    simp only [reduceCtorEq, false_iff]
    exact fun heq ↦ h (heq ▸ hds)

/-- An account, by its data. -/
structure Account where
  data : Data P
  deriving DecidableEq

/-- `Account::default()`: no data yet. -/
def Account.default : Account P := ⟨⟨[], Nat.zero_le _⟩⟩

namespace Account

variable {P}

/-- The registry state an account's data decodes to, if any. -/
def state (account : Account P) : Option RegistryState :=
  RegistryState.tryFromSlice account.data.bytes

/-- Write a state into the account: `Data::try_from(borsh::to_vec(&state)?)?` with the errors
mapped as both `anchor_batch` functions map them. -/
def store (state : RegistryState) : Outcome SpelError (Account P) := do
  let bs ← Outcome.ofOption (.serializationError P.borshError) state.toVec
  let data ← Outcome.ofOption (.serializationError ("state too large: " ++ P.dataError))
    (Data.tryFrom bs)
  return ⟨data⟩

/-- Does a list of `n` records fit the account? -/
def Fits (P : Platform) (n : ℕ) : Prop :=
  4 + 86 * n ≤ P.dataMaxLength

instance (n : ℕ) : Decidable (Fits P n) :=
  inferInstanceAs (Decidable (_ ≤ _))

theorem Fits.of_le {n k : ℕ} (h : Fits P n) (hle : k ≤ n) : Fits P k := by
  rw [Fits] at *
  omega

/-- **What a store does**: the account then holds exactly the state that was written. -/
theorem state_of_store {state : RegistryState} {account : Account P}
    (h : store state = .ok account) : account.state = some state := by
  obtain ⟨bs, hbs, h⟩ := Outcome.bind_eq_ok.1 h
  obtain ⟨data, hdata, h⟩ := Outcome.bind_eq_ok.1 h
  rw [Outcome.ofOption_eq_ok] at hbs hdata
  rw [Outcome.pure_eq_ok, Outcome.ok.injEq] at h
  rw [← h, Account.state, Data.tryFrom_eq_some.1 hdata]
  exact RegistryState.tryFromSlice_toVec hbs

/-- **When a store succeeds**: exactly when the records fit. Otherwise it is a serialisation
error, never an abort. -/
theorem store_cases (P : Platform) (state : RegistryState) :
    (Fits P state.records.length ∧ ∃ account : Account P, store state = .ok account) ∨
      (¬ Fits P state.records.length ∧
        ∃ message, (store state : Outcome SpelError (Account P)) =
          .err (.serializationError message)) := by
  have hlimit := P.dataMaxLength_lt
  rw [Fits, store]
  by_cases hlt : state.records.length < 2 ^ 32
  · obtain ⟨bs, hbs, hlen⟩ := RegistryState.toVec_of_lt hlt
    rw [hbs, Outcome.ofOption_some, Outcome.ok_bind, ← hlen]
    by_cases hle : bs.length ≤ P.dataMaxLength
    · refine Or.inl ⟨hle, ⟨⟨⟨bs, hle⟩⟩, ?_⟩⟩
      rw [Data.tryFrom, dif_pos hle]
      rfl
    · refine Or.inr ⟨hle, "state too large: " ++ P.dataError, ?_⟩
      rw [Data.tryFrom, dif_neg hle]
      rfl
  · refine Or.inr ⟨by omega, P.borshError, ?_⟩
    rw [RegistryState.toVec, RegistryState.codec]
    exact congrArg (fun x ↦ Outcome.ofOption _ x >>= _) (Codec.encode_vec_eq_none hlt)

theorem store_isOk_iff {state : RegistryState} :
    (∃ account : Account P, store state = .ok account) ↔ Fits P state.records.length := by
  rcases store_cases P state with ⟨hfits, hok⟩ | ⟨hfits, message, herr⟩
  · exact ⟨fun _ ↦ hfits, fun _ ↦ hok⟩
  · refine ⟨fun ⟨account, hok⟩ ↦ ?_, fun h ↦ absurd h hfits⟩
    rw [herr] at hok
    cases hok

/-! ### A concrete account -/

/-- A platform with a limit of 100 KiB, for concrete runs. -/
def samplePlatform : Platform where
  dataMaxLength := 102400
  dataMaxLength_lt := by decide
  dataError := "DataTooBigError"
  borshError := "invalid data"

/-- An account that holds the empty registry. -/
def emptyRegistry : Account samplePlatform :=
  ⟨⟨[0, 0, 0, 0], by decide⟩⟩

theorem emptyRegistry_state : emptyRegistry.state = some ⟨[]⟩ := by decide

end Account

end Whistleblower
