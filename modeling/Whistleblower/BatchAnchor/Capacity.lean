import Whistleblower.BatchAnchor.Duplicates
import Whistleblower.Registry.Format

/-!
# A full registry

The registry is one account, and an account has a size limit. What happens at the limit is decided
by the program, which turns down a batch that does not fit, and by the batch anchor, which gives up
on a batch that is turned down and keeps its cursor where it was.

So no cursor is ever past more documents than fit the account. And once the account has no room for
one more record, that is how it stays: no submission of anybody changes a byte of it, and no
anchorer anywhere gets past a message of a document that is not in it. Registering is open to
everybody, so it takes nobody's consent to bring this about.
-/

namespace Whistleblower

/-! ### The account -/

namespace Account

variable {P : Platform} {account : Account P} {state : RegistryState}

/-- An account that holds a state is what a store of the state writes. -/
theorem store_of_state (h : account.state = some state) : store state = .ok account := by
  have hbytes := RegistryState.tryFromSlice_eq_some.1 h
  have hdata : Data.tryFrom account.data.bytes = some account.data := Data.tryFrom_eq_some.2 rfl
  rw [store, hbytes, Outcome.ofOption_some, Outcome.ok_bind, hdata]
  rfl

/-- **What an account holds fits it.** -/
theorem fits_of_state (h : account.state = some state) : Fits P state.records.length :=
  store_isOk_iff.1 ⟨account, store_of_state h⟩

end Account

namespace CidRegistryProgram

variable {P : Platform} {registry : Account P} {state : RegistryState}

/-- There is no room for one more record. -/
def Full (registry : Account P) : Prop :=
  ∃ state, registry.state = some state ∧ ¬ Account.Fits P (state.records.length + 1)

/-- **A full account does not change.** A batch that is accepted has nothing new in it. -/
theorem execute_of_full (h : Full registry) (b : Batch) : execute registry b = registry := by
  obtain ⟨state, hstate, hfull⟩ := h
  rcases execute_cases hstate b with ⟨-, hsame⟩ | ⟨registry', -, hexecute, -, -, hafter⟩
  · exact hsame
  · have hfits := Account.fits_of_state hafter
    rw [List.length_append] at hfits
    have hnone : b.freshIn state = [] := by
      by_contra hne
      have hpos : 0 < (b.freshIn state).length := List.length_pos_iff.2 hne
      exact hfull (hfits.of_le (by omega))
    rw [hnone, List.append_nil] at hafter
    rw [hexecute]
    exact Account.eq_of_state hafter hstate

theorem run_of_full (h : Full registry) (batches : List Batch) :
    run registry batches = registry := by
  induction batches with
  | nil => rfl
  | cons b batches ih =>
    show run (execute registry b) batches = registry
    rw [execute_of_full h b]
    exact ih

end CidRegistryProgram

/-! ### The network -/

namespace BatchAnchor

open CidRegistryProgram

variable {P : Platform} {K : Crates} {w w' : World P} {δ ι : Type}

/-- A call does nothing to the registry but submit a batch to the program, at most. -/
theorem exists_run_of_performs {path : String} {o : Op} {r : o.Ret}
    (h : performs path o w r w') :
    ∃ batches, w'.registry = CidRegistryProgram.run w.registry batches := by
  cases o with
  | readToString p => exact ⟨[], congrArg World.registry h.1⟩
  | httpGet url => exact ⟨[], congrArg World.registry h⟩
  | countAnchored cid => exact ⟨[], congrArg World.registry h.1⟩
  | insertAnchored cid =>
    rcases h with ⟨-, rfl⟩ | ⟨e, -, rfl⟩ <;> exact ⟨[], rfl⟩
  | selectCursor => exact ⟨[], congrArg World.registry h.1⟩
  | replaceCursor value =>
    rcases h with ⟨-, rfl⟩ | ⟨e, -, rfl⟩ <;> exact ⟨[], rfl⟩
  | now => exact ⟨[], congrArg World.registry h⟩
  | sleep seconds => exact ⟨[], congrArg World.registry h⟩
  | spel command =>
    rcases h with ⟨out, b, registry, -, -, -, hok, rfl⟩ | ⟨-, rfl | ⟨b, -, rfl⟩⟩
    · exact ⟨[b], (execute_of_ok hok).symm⟩
    · exact ⟨[], rfl⟩
    · exact ⟨[b], rfl⟩

variable [DecidableEq δ] [DecidableEq ι]

/-- **What happens to the registry** in a network, whatever runs there: batches are submitted to the
program. -/
theorem exists_run_of_reaches {path : δ → String} {home : ι → δ}
    {Starts : ι → Proc (Option Unit) → Prop}
    {c c' : Parties.Config Op.Ret String (Option Unit) (Network P δ) ι}
    (hrun : Relation.ReflTransGen ((network (interferes K) path home).Step Starts) c c') :
    ∃ batches, c'.1.registry = CidRegistryProgram.run c.1.registry batches := by
  refine Parties.relates_of_performs (S := network (interferes K) path home)
    (R := fun n n' : Network P δ ↦
      ∃ batches, n'.registry = CidRegistryProgram.run n.registry batches)
    (fun n ↦ ⟨[], rfl⟩) ?_ ?_ ?_ hrun
  · rintro n n' n'' ⟨bs, hbs⟩ ⟨bs', hbs'⟩
    exact ⟨bs ++ bs', by rw [run_append, ← hbs, hbs']⟩
  · rintro n n' ⟨d, w, ⟨b, rfl⟩ | ⟨text, -, rfl⟩, rfl⟩
    · exact ⟨[b], rfl⟩
    · exact ⟨[], rfl⟩
  · rintro i o n r n' ⟨w, hperforms, rfl⟩
    exact exists_run_of_performs hperforms

/-- The keys of the messages up to the cursor are registered, so they are no more than there are
records. -/
theorem card_keys_le (hinv : Inv K w) {state : RegistryState}
    (hstate : w.registry.state = some state) {msgs : List DeliveryMsg}
    (hmsgs : messages K w.queue = some msgs) :
    (keys K (msgs.filter (·.seq ≤ w.db.cursor))).toFinset.card ≤ state.records.length := by
  have hsub : (keys K (msgs.filter (·.seq ≤ w.db.cursor))).toFinset ⊆ state.cids.toFinset := by
    intro c hc
    obtain ⟨m, hm, hkey⟩ := List.mem_filterMap.1 (List.mem_toFinset.1 hc)
    obtain ⟨hmem, hle⟩ := List.mem_filter.1 hm
    obtain ⟨state', hstate', hc⟩ := hinv.covered msgs hmsgs m hmem (of_decide_eq_true hle) c
      (keyOf_eq_some.1 hkey)
    obtain rfl := Option.some.inj (hstate.symm.trans hstate')
    exact List.mem_toFinset.2 hc
  have hcard := (Finset.card_le_card hsub).trans (List.toFinset_card_le state.cids)
  rwa [RegistryState.cids, List.length_map] at hcard

/-- **The account bounds what is ever anchored.** In every state that any runs at any sites lead to,
the documents up to a cursor fit the account. From a state on in which there is no room for one more
record, the account stays as it is, byte for byte, and every message of a document that is not in it
stays above the cursor of its site. -/
theorem full_for_good (K : Crates) (P : Platform) (path : δ → String) (home : ι → δ)
    {c : Parties.Config Op.Ret String (Option Unit) (Network P δ) ι}
    (hreach : (network (interferes K) path home).Reachable
      (fun i ↦ StartsRun K (path (home i))) (fun n ↦ ∀ d, Initial K (n.worldAt d)) c) :
    (∀ d msgs, messages K (c.1.site d).queue = some msgs →
      Account.Fits P (keys K (msgs.filter (·.seq ≤ (c.1.site d).db.cursor))).toFinset.card) ∧
    ∀ state, c.1.registry.state = some state → ¬ Account.Fits P (state.records.length + 1) →
      ∀ c', Relation.ReflTransGen ((network (interferes K) path home).Step
          fun i ↦ StartsRun K (path (home i))) c c' →
        c'.1.registry = c.1.registry ∧
          ∀ d msgs, messages K (c'.1.site d).queue = some msgs → ∀ m ∈ msgs,
            ∀ b, decodeCid K m.payload.cid = .ok b → b ∉ state.cids →
              (c'.1.site d).db.cursor < m.seq := by
  have hinitial : ∀ n : Network P δ, (∀ d, Initial K (n.worldAt d)) →
      ∀ d, Initial K (n.worldAt d) ∧ (Clause.none K P).Holds (n.worldAt d) :=
    fun n hn d ↦ ⟨hn d, trivial⟩
  refine ⟨fun d msgs hmsgs ↦ ?_, fun state hstate hfull c' hlater ↦ ?_⟩
  · have hinv := (((Clause.none K P).sound hinitial hreach).1 d).1
    obtain ⟨state, hstate⟩ := hinv.registry
    exact (Account.fits_of_state hstate).of_le (card_keys_le hinv hstate hmsgs)
  · obtain ⟨batches, hbatches⟩ := exists_run_of_reaches hlater
    have hsame : c'.1.registry = c.1.registry :=
      hbatches.trans (run_of_full ⟨state, hstate, hfull⟩ batches)
    refine ⟨hsame, fun d msgs hmsgs m hm b hb hnew ↦ ?_⟩
    obtain ⟨n, hn, hrun⟩ := hreach
    have hinv := (((Clause.none K P).sound hinitial ⟨n, hn, hrun.trans hlater⟩).1 d).1
    -- a message up to the cursor would be in the registry
    refine lt_of_not_ge fun hle ↦ hnew ?_
    obtain ⟨state', hstate', hmem⟩ := hinv.covered msgs hmsgs m hm hle b hb
    obtain rfl := Option.some.inj (hstate.symm.trans ((congrArg Account.state hsame).symm.trans
      hstate'))
    exact hmem

/-! ### A registry of one record -/

/-- A platform on which one record fits an account. -/
def oneRecordPlatform : Platform :=
  { Account.samplePlatform with
    dataMaxLength := 90
    dataMaxLength_lt := by decide }

/-- Another document than the one of the queue. -/
def otherRecord : DocumentRecord :=
  ⟨Bytes.replicate CID_BYTES 1, Bytes.replicate 32 0, 0⟩

/-- Its registry. -/
def fullRegistry : Account oneRecordPlatform :=
  ⟨⟨[1, 0, 0, 0] ++ List.replicate 46 1 ++ List.replicate 40 0, by decide⟩⟩

theorem state_fullRegistry : fullRegistry.state = some ⟨[otherRecord]⟩ := by
  decide +kernel

/-- One site, with a queue of one message, in front of a full registry. -/
def fullNetwork : Network oneRecordPlatform Unit where
  registry := fullRegistry
  site _ := ⟨quietQueue, Db.fresh⟩

theorem initial_fullNetwork (d : Unit) : Initial sampleCrates (fullNetwork.worldAt d) :=
  ⟨(initial_quietNetwork d).queue, ⟨_, state_fullRegistry⟩, rfl⟩

/-- The registry is full, and the message is never passed. -/
theorem full_for_good_fullNetwork : Full fullRegistry ∧
    ∀ c', Relation.ReflTransGen ((network (interferes sampleCrates) (fun _ : Unit ↦ "queue")
          fun _ : Bool ↦ ()).Step fun _ ↦ StartsRun sampleCrates "queue")
        (fullNetwork, fun _ ↦ none) c' →
      c'.1.registry = fullRegistry ∧
        ∀ msgs, messages sampleCrates (c'.1.site ()).queue = some msgs → quietMessage ∈ msgs →
          (c'.1.site ()).db.cursor < quietMessage.seq := by
  have hroom : ¬ Account.Fits oneRecordPlatform ([otherRecord].length + 1) := by decide
  refine ⟨⟨_, state_fullRegistry, hroom⟩, fun c' hlater ↦ ?_⟩
  have hfull := (full_for_good sampleCrates oneRecordPlatform (fun _ : Unit ↦ "queue")
    (fun _ : Bool ↦ ()) ⟨fullNetwork, initial_fullNetwork, .refl⟩).2 _ state_fullRegistry hroom c'
      hlater
  exact ⟨hfull.1, fun msgs hmsgs hm ↦
    hfull.2 () msgs hmsgs _ hm _ decodeCid_sampleCid (by decide)⟩

end BatchAnchor

end Whistleblower
