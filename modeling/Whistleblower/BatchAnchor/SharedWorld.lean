import Whistleblower.BatchAnchor.Run
import Whistleblower.Registry.Ledger

/-!
# The world of the batch anchor

The three stores a run of `batch-anchor` writes, and the delivery queue it reads, as a world it
shares with others. Anyone may submit an `anchor_batch` transaction of their own at any moment, and
the queue file grows under the reader.

Every operation may fail. A failed SQL statement has had no effect, since statements are atomic; a
failed `spel` may have failed before or after its transaction landed, and the caller cannot tell.
-/

namespace Whistleblower.BatchAnchor

open CidRegistryProgram

/-- The queue file, the registry account and the state DB. -/
structure World (P : Platform) where
  queue : String
  registry : Account P
  db : Db

variable {P : Platform} (K : Crates)

/-- The CID is in the on-chain registry. -/
def World.Registered (w : World P) (c : CidBytes) : Prop :=
  ∃ state, w.registry.state = some state ∧ c ∈ state.cids

/-- Strictly increasing sequence numbers, from 1 on. -/
structure Ascending (msgs : List DeliveryMsg) : Prop where
  pairwise : msgs.Pairwise fun m n ↦ m.seq < n.seq
  pos : ∀ m ∈ msgs, 0 < m.seq

/-- The second text is the first with more messages appended, in ascending order. -/
def Appended (text text' : String) : Prop :=
  ∃ msgs more, messages K text = some msgs ∧ messages K text' = some (msgs ++ more) ∧
    Ascending (msgs ++ more)

/-- What the operations of a run may do, where the queue file is at this path. -/
def performs (path : String) : (o : Op) → World P → o.Ret → World P → Prop
  | .readToString p, w, r, w' => w' = w ∧ ∀ text, r = .ok text → p = path → text = w.queue
  | .httpGet _, w, _, w' => w' = w
  | .countAnchored cid, w, r, w' =>
    w' = w ∧ ∀ n, r = .ok n → n = if cid ∈ w.db.anchored then 1 else 0
  | .insertAnchored cid, w, r, w' =>
    (r = .ok () ∧ w' = { w with db := w.db.mark cid }) ∨ ∃ e, r = .error e ∧ w' = w
  | .selectCursor, w, r, w' => w' = w ∧ ∀ cell, r = .ok cell → cell = w.db.cursorCell
  | .replaceCursor value, w, r, w' =>
    (r = .ok () ∧ w' = { w with db := w.db.setCell value }) ∨ ∃ e, r = .error e ∧ w' = w
  | .now, w, _, w' => w' = w
  | .sleep _, w, _, w' => w' = w
  | .spel command, w, r, w' =>
    (∃ out b registry, r = .ok out ∧ out.success = true ∧ command.batch? = some b ∧
      anchorBatch w.registry b = .ok registry ∧ w' = { w with registry := registry }) ∨
    ((∀ out, r = .ok out → out.success = false) ∧
      (w' = w ∨ ∃ b, command.batch? = some b ∧
        w' = { w with registry := execute w.registry b }))

/-- What others may do: land a transaction, or append to the queue. -/
def interferes (w w' : World P) : Prop :=
  (∃ b, w' = { w with registry := execute w.registry b }) ∨
    ∃ text, Appended K w.queue text ∧ w' = { w with queue := text }

/-- The shared world. -/
def shared (P : Platform) (path : String) : Shared Op.Ret (World P) where
  performs := performs path
  interferes := interferes K

/-! ### The invariant -/

/-- What holds at every moment, in the middle of an iteration as well.

`covered` is the point: the cursor is persisted only when everything below it is on-chain. `reached`
keeps the cursor from running ahead of the queue, so that what is appended later is above it. -/
structure Inv (w : World P) : Prop where
  queue : ∃ msgs, messages K w.queue = some msgs ∧ Ascending msgs
  registry : ∃ state, w.registry.state = some state
  anchored : ∀ cid ∈ w.db.anchored, ∃ c, decodeCid K cid = .ok c ∧ w.Registered c
  covered : ∀ msgs, messages K w.queue = some msgs → ∀ m ∈ msgs, m.seq ≤ w.db.cursor →
    ∀ c, decodeCid K m.payload.cid = .ok c → w.Registered c
  reached : w.db.cursor = 0 ∨
    ∃ msgs, messages K w.queue = some msgs ∧ ∃ m ∈ msgs, w.db.cursor ≤ m.seq

/-- What others may have done since: the DB is this process's alone, and the registry and the queue
only grow. -/
structure Later (w w' : World P) : Prop where
  db : w'.db = w.db
  registry : ∀ state, w.registry.state = some state →
    ∃ state', w'.registry.state = some state' ∧ state.cids ⊆ state'.cids
  queue : ∀ msgs, messages K w.queue = some msgs → Ascending msgs →
    ∃ more, messages K w'.queue = some (msgs ++ more) ∧ Ascending (msgs ++ more)

variable {K} {w w' w'' : World P}

theorem Later.refl (w : World P) : Later K w w where
  db := rfl
  registry state h := ⟨state, h, List.Subset.refl _⟩
  queue msgs h hasc := ⟨[], by rw [List.append_nil]; exact ⟨h, hasc⟩⟩

theorem Later.trans (h : Later K w w') (h' : Later K w' w'') : Later K w w'' where
  db := h'.db.trans h.db
  registry state hstate := by
    obtain ⟨state', hstate', hsub⟩ := h.registry state hstate
    obtain ⟨state'', hstate'', hsub'⟩ := h'.registry state' hstate'
    exact ⟨state'', hstate'', List.Subset.trans hsub hsub'⟩
  queue msgs hmsgs hasc := by
    obtain ⟨more, hmore, hasc'⟩ := h.queue msgs hmsgs hasc
    obtain ⟨more', hmore', hasc''⟩ := h'.queue _ hmore hasc'
    rw [List.append_assoc] at hmore' hasc''
    exact ⟨more ++ more', hmore', hasc''⟩

theorem Later.registered (h : Later K w w') {c : CidBytes} (hc : w.Registered c) :
    w'.Registered c := by
  obtain ⟨state, hstate, hmem⟩ := hc
  obtain ⟨state', hstate', hsub⟩ := h.registry state hstate
  exact ⟨state', hstate', hsub hmem⟩

/-- A transaction only adds to the registry, whether it succeeds or not. -/
theorem later_execute (w : World P) (b : Batch) :
    Later K w { w with registry := execute w.registry b } where
  db := rfl
  registry state hstate := by
    obtain ⟨state', hstate', hkept⟩ := exists_state_execute hstate b
    exact ⟨state', hstate', (hkept.map DocumentRecord.cid).subset⟩
  queue := (Later.refl w).queue

theorem later_of_interferes (h : interferes K w w') : Later K w w' := by
  rcases h with ⟨b, rfl⟩ | ⟨text, ⟨msgs, more, hmsgs, hmore, hasc⟩, rfl⟩
  · exact later_execute w b
  · refine ⟨rfl, fun state hstate ↦ ⟨state, hstate, List.Subset.refl _⟩, fun msgs' hmsgs' _ ↦ ?_⟩
    obtain rfl := Option.some.inj (hmsgs.symm.trans hmsgs')
    exact ⟨more, hmore, hasc⟩

/-- Everything appended is above everything before it. -/
theorem Ascending.lt_of_append {msgs more : List DeliveryMsg} (h : Ascending (msgs ++ more))
    {m n : DeliveryMsg} (hm : m ∈ msgs) (hn : n ∈ more) : m.seq < n.seq :=
  (List.pairwise_append.1 h.pairwise).2.2 m hm n hn

/-- The invariant is not disturbed by others: what they append is above the cursor. -/
theorem Inv.of_later (hinv : Inv K w) (h : Later K w w') : Inv K w' := by
  obtain ⟨msgs, hmsgs, hasc⟩ := hinv.queue
  obtain ⟨more, hmore, hasc'⟩ := h.queue msgs hmsgs hasc
  refine ⟨⟨msgs ++ more, hmore, hasc'⟩, ?_, fun cid hcid ↦ ?_, fun msgs' hmsgs' m hm hle c hc ↦ ?_,
    ?_⟩
  · obtain ⟨state, hstate⟩ := hinv.registry
    obtain ⟨state', hstate', -⟩ := h.registry state hstate
    exact ⟨state', hstate'⟩
  · rw [h.db] at hcid
    obtain ⟨c, hc, hreg⟩ := hinv.anchored cid hcid
    exact ⟨c, hc, h.registered hreg⟩
  · rw [h.db] at hle
    obtain rfl := Option.some.inj (hmore.symm.trans hmsgs')
    rcases List.mem_append.1 hm with hold | hnew
    · exact h.registered (hinv.covered msgs hmsgs m hold hle c hc)
    · -- an appended message is above 0 and above every message the cursor has reached
      exfalso
      have hpos : 0 < m.seq := hasc'.pos m hm
      rcases hinv.reached with hzero | ⟨msgs', hmsgs', n, hn, hreached⟩
      · rw [hzero] at hle
        exact absurd hpos hle.not_gt
      · obtain rfl := Option.some.inj (hmsgs.symm.trans hmsgs')
        have hlt : n.seq < m.seq := hasc'.lt_of_append hn hnew
        exact absurd (hle.trans hreached) hlt.not_ge
  · rw [h.db]
    refine hinv.reached.imp_right fun ⟨msgs', hmsgs', m, hm, hle⟩ ↦ ?_
    obtain rfl := Option.some.inj (hmsgs.symm.trans hmsgs')
    exact ⟨_, hmore, m, List.mem_append_left _ hm, hle⟩

/-- The contract every run is held to: the invariant, and a cursor that never decreases. -/
def contract (K : Crates) (P : Platform) (path : String) : Contract (shared K P path) where
  Inv := Inv K
  Rely := Later K
  Guarantee w w' := w.db.cursor ≤ w'.db.cursor
  rely_refl := Later.refl
  rely_trans := Later.trans
  rely_of_interferes _ := later_of_interferes
  inv_of_rely := Inv.of_later
  guarantee_refl _ := le_refl _
  guarantee_of_rely _ h := by rw [h.db]

end Whistleblower.BatchAnchor
