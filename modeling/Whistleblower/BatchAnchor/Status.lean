import Whistleblower.BatchAnchor.Peers
import Whistleblower.Indexer.CidBuffer
import Mathlib.Combinatorics.Enumerative.DoubleCounting

/-!
# What `status` says

`batch-anchor status` prints how many rows the state DB has, and the persisted cursor. It reads
nothing else, so whether its numbers can be trusted is a matter of what the runs have kept.

They never promise too much: different rows are different documents, because the base58 text of a
key is unique, and every row is on-chain.
-/

namespace Whistleblower.BatchAnchor

open Indexer (DecodesBase58 decode_of_decodeCid)

/-- The two numbers that `status` prints: `SELECT COUNT(*) FROM anchored` and the cursor. They are
read at one moment here, where the program makes two statements of it, one after the other. -/
def status (db : Db) : ℕ × UInt64 :=
  (db.anchored.card, db.cursor)

/-- `println!("anchored: {count} CIDs, cursor: {cursor}")`. -/
def statusLine (db : Db) : String :=
  s!"anchored: {(status db).1} CIDs, cursor: " ++ Decimal.render (status db).2

example : statusLine ((Db.fresh.mark "a").mark "b") = "anchored: 2 CIDs, cursor: 0" := by
  decide +kernel

variable {K : Crates}

/-- **A key has one text.** -/
theorem eq_of_decodeCid (hK : DecodesBase58 K) {cid cid' : String} {c : CidBytes}
    (h : decodeCid K cid = .ok c) (h' : decodeCid K cid' = .ok c) : cid = cid' := by
  have htext := Base58.encode_of_decode (decode_of_decodeCid hK h)
  have htext' := Base58.encode_of_decode (decode_of_decodeCid hK h')
  exact String.toList_inj.1 (htext.symm.trans htext')

/-- Rows that are all on-chain are no more than the documents there. -/
theorem card_le_of_decoded (hK : DecodesBase58 K) {rows : Finset String} {keys : Finset CidBytes}
    (h : ∀ cid ∈ rows, ∃ c ∈ keys, decodeCid K cid = .ok c) : rows.card ≤ keys.card := by
  refine Finset.card_le_card_of_forall_subsingleton (fun cid c ↦ decodeCid K cid = .ok c) h ?_
  rintro c - cid ⟨-, hcid⟩ cid' ⟨-, hcid'⟩
  exact eq_of_decodeCid hK hcid hcid'

variable {δ ι : Type} [DecidableEq δ] [DecidableEq ι]

/-- **`status` never promises too much.** Whatever runs there are and have been, at every site: the
registry holds at least as many different documents as `status` counts, and everything up to the
cursor it shows. -/
theorem status_le_registered (hK : DecodesBase58 K) (P : Platform) (path : δ → String)
    (home : ι → δ) {c : Parties.Config Op.Ret String (Option Unit) (Network P δ) ι}
    (hreach : (network (interferes K) path home).Reachable
      (fun i ↦ StartsRun K (path (home i))) (fun n ↦ ∀ d, Initial K (n.worldAt d)) c) (d : δ) :
    ∃ state, c.1.registry.state = some state ∧
      (status (c.1.site d).db).1 ≤ state.cids.toFinset.card ∧
      ∀ msgs, messages K (c.1.site d).queue = some msgs →
        ∀ m ∈ msgs, m.seq ≤ (status (c.1.site d).db).2 →
          ∀ b, decodeCid K m.payload.cid = .ok b → b ∈ state.cids := by
  have hinv : Inv K (c.1.worldAt d) :=
    (((Clause.none K P).sound (fun n hn d ↦ ⟨hn d, trivial⟩) hreach).1 d).1
  obtain ⟨state, hstate⟩ := hinv.registry
  have hmem : ∀ {b}, (c.1.worldAt d).Registered b → b ∈ state.cids := by
    rintro b ⟨state', hstate', hb⟩
    obtain rfl := Option.some.inj (hstate.symm.trans hstate')
    exact hb
  refine ⟨state, hstate, card_le_of_decoded hK fun cid hcid ↦ ?_, fun msgs hmsgs m hm hle b hb ↦ ?_⟩
  · obtain ⟨b, hb, hreg⟩ := hinv.anchored cid hcid
    exact ⟨b, List.mem_toFinset.2 (hmem hreg), hb⟩
  · exact hmem (hinv.covered msgs hmsgs m hm hle b hb)

/-- One document is counted after the run of one of two anchorers, and it is there. -/
theorem status_le_registered_pair : ∃ (n : Network Account.samplePlatform Unit)
    (state : RegistryState), sampleCid ∈ (n.worldAt ()).db.anchored ∧
      n.registry.state = some state ∧ (status (n.worldAt ()).db).1 ≤ state.cids.toFinset.card := by
  obtain ⟨n, ps, hrow, hreach⟩ := exists_reachable_pair
  obtain ⟨state, hstate, hcount, -⟩ := status_le_registered (fun _ _ ↦ decode_of_bs58Decode)
    Account.samplePlatform (fun _ : Unit ↦ "queue") (fun _ : Bool ↦ ())
    (hreach _ _ initial_quietNetwork) ()
  exact ⟨n, state, hrow, hstate, hcount⟩

end Whistleblower.BatchAnchor
