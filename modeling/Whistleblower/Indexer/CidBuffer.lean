import Whistleblower.Foundations.CString
import Whistleblower.Indexer.Ffi
import Whistleblower.Indexer.Lookup

/-!
# A CID through the C interface

`document_indexer_upload_and_anchor` returns a CID in an array of 64 bytes, and
`document_indexer_is_anchored` takes one behind a pointer. The app hands the first to the second.

The array has 63 places before its closing zero. That is enough for every CID the registry can hold:
46 bytes are worth fewer than 63 base58 digits, and the digits are ASCII characters other than NUL
(`survives`).
-/

namespace Whistleblower.Indexer

variable (K : Crates)

/-- `document_indexer_is_anchored`. -/
def Ffi.isAnchored (runtime : Except String Unit) (cid : Option String) : Proc ℕ :=
  match runtime with
  | .error _ => .pure 0
  | .ok () => do
    let _ ← defaultConfig
    let anchored ← result (Indexer.isAnchored K (cstrToString cid))
    -- `unwrap_or(false)`
    .pure (if anchored.toOption.getD false then 1 else 0)

/-- What `bs58` decodes is base58. -/
def DecodesBase58 : Prop :=
  ∀ text bytes, K.bs58Decode text = .ok bytes → Base58.decode text.toList = some bytes

variable {K} {cidStr : String} {cid : CidBytes}

/-! ### The texts of registry keys -/

/-- An accepted CID is a base58 text of 46 bytes. -/
theorem decode_of_decodeCid (hK : DecodesBase58 K) (hcid : decodeCid K cidStr = .ok cid) :
    Base58.decode cidStr.toList = some cid.toList :=
  hK _ _ ((decodeCid_eq_ok K).1 hcid)

/-- Base58 digits are ASCII characters, and none is NUL. -/
theorem ascii_of_mem_alphabet : ∀ c ∈ Base58.alphabet, c.utf8Size = 1 ∧ c.toNat ≠ 0 :=
  List.all_iff_forall_prop.1 (by decide)

/-- **It has at most 63 bytes.** -/
theorem length_utf8_le (hK : DecodesBase58 K) (hcid : decodeCid K cidStr = .ok cid) :
    cidStr.utf8.length ≤ 63 := by
  have hdecode := decode_of_decodeCid hK hcid
  have hascii := String.length_utf8_of_ascii fun c hc ↦
    (ascii_of_mem_alphabet c (Base58.mem_alphabet_of_decode hdecode hc)).1
  rw [String.ofList_toList] at hascii
  rw [hascii]
  exact Base58.length_le_of_decode hdecode cid.length_toList (by decide)

/-- None of them is zero. -/
theorem zero_notMem_utf8 (hK : DecodesBase58 K) (hcid : decodeCid K cidStr = .ok cid) :
    0 ∉ cidStr.utf8 := by
  rw [← String.ofList_toList (s := cidStr)]
  exact String.zero_notMem_utf8 fun c hc ↦
    (ascii_of_mem_alphabet c (Base58.mem_alphabet_of_decode (decode_of_decodeCid hK hcid) hc)).2

/-! ### The array -/

/-- A short text is followed by a zero. -/
theorem toList_cArray {n : ℕ} {s : String} (h : s.utf8.length ≤ n) :
    (cArray n s).toList = s.utf8 ++ 0 :: List.replicate (n - s.utf8.length) 0 := by
  show s.utf8.take n ++ List.replicate (n + 1 - (s.utf8.take n).length) 0 = _
  rw [List.take_of_length_le h, Nat.succ_sub h, List.replicate_succ]

namespace Ffi

/-- What the array is read as. -/
theorem textAt_ok (hK : DecodesBase58 K) (hcid : decodeCid K cidStr = .ok cid) (hash : Hash) :
    CString.textAt (IndexResult.ok cidStr hash).cid.toList = some cidStr := by
  rw [IndexResult.ok, toList_cArray (length_utf8_le hK hcid)]
  exact CString.textAt_utf8 (zero_notMem_utf8 hK hcid) _

variable {σ : Type} {h : (o : Op) → σ → o.Ret × σ} {s : σ} {answer : Inspection}

/-- **The flag is set if a record with the key has been printed.** -/
theorem eval_isAnchored (hcid : decodeCid K cidStr = .ok cid)
    (hanswer : ((defaultConfig >>= fun _ ↦ inspect).eval h s).1 = .ok answer) :
    ∃ flag, ((isAnchored K (.ok ()) (some cidStr)).eval h s).1 = .ok flag ∧
      (flag = 1 ↔ answer.Lists cid) := by
  obtain ⟨config, t, hconfig⟩ : ∃ config t, defaultConfig.eval h s = (.ok config, t) := ⟨_, _, rfl⟩
  rw [Process.eval_bind_of_ok h hconfig] at hanswer
  rw [isAnchored, Process.eval_bind_of_ok h hconfig]
  cases answer with
  | error text =>
    have herror := eval_result_of_error (Prod.ext (eval_isAnchored_of_error hcid hanswer) rfl)
    rw [cstrToString, Option.getD_some, Process.eval_bind_of_ok h herror]
    refine ⟨0, rfl, iff_of_false Nat.zero_ne_one ?_⟩
    rintro ⟨records, hrecords, -⟩
    cases hrecords
  | ok out =>
    obtain ⟨found, hfound, hlists⟩ := eval_isAnchored_of_ok hcid hanswer
    have hresult := eval_result_of_ok (Prod.ext hfound rfl)
    rw [cstrToString, Option.getD_some, Process.eval_bind_of_ok h hresult]
    refine ⟨_, rfl, Iff.trans ?_ hlists⟩
    cases found with
    | true => exact iff_of_true rfl rfl
    | false => exact iff_of_false Nat.zero_ne_one Bool.false_ne_true

/-- **An accepted CID survives the array**: it fits in front of a zero, it is read back as it was,
and the lookup of what is read is for the key of the CID itself. -/
theorem survives (hK : DecodesBase58 K) (hcid : decodeCid K cidStr = .ok cid) (hash : Hash) :
    cidStr.utf8.length ≤ 63 ∧ 0 ∉ cidStr.utf8 ∧
      (IndexResult.ok cidStr hash).cid.toList =
        cidStr.utf8 ++ 0 :: List.replicate (63 - cidStr.utf8.length) 0 ∧
      CString.textAt (IndexResult.ok cidStr hash).cid.toList = some cidStr ∧
      ∀ {σ : Type} {h : (o : Op) → σ → o.Ret × σ} {s : σ} {answer : Inspection},
        ((defaultConfig >>= fun _ ↦ inspect).eval h s).1 = .ok answer →
          ∃ flag, ((isAnchored K (.ok ())
              (CString.textAt (IndexResult.ok cidStr hash).cid.toList)).eval h s).1 = .ok flag ∧
            (flag = 1 ↔ answer.Lists cid) := by
  refine ⟨length_utf8_le hK hcid, zero_notMem_utf8 hK hcid, toList_cArray (length_utf8_le hK hcid),
    textAt_ok hK hcid hash, fun hanswer ↦ ?_⟩
  rw [textAt_ok hK hcid hash]
  exact eval_isAnchored hcid hanswer

/-- The text of the greatest key. -/
def longestCid : String :=
  cidOf (Bytes.replicate CID_BYTES 255)

/-- It takes all 63 places, and survives. -/
theorem survives_longestCid :
    longestCid.toList.length = 63 ∧
      CString.textAt (IndexResult.ok longestCid (Bytes.replicate 32 0)).cid.toList =
        some longestCid := by
  have hlength : (Base58.encode (List.replicate CID_BYTES 255)).length = 63 := by decide +kernel
  obtain ⟨-, -, -, htext, -⟩ := survives (fun _ _ ↦ decode_of_bs58Decode)
    (decodeCid_cidOf (Bytes.replicate CID_BYTES 255)) (Bytes.replicate 32 0)
  exact ⟨(congrArg List.length (String.toList_ofList ..)).trans hlength, htext⟩

end Ffi

end Whistleblower.Indexer
