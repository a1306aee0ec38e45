import Whistleblower.BatchAnchor.SharedWorld
import Whistleblower.Foundations.Parallel

/-!
# Anchorers everywhere

`batch-anchor` is permissionless: anyone runs it, nobody coordinates. A `Network` is one registry
and any number of sites, each with a queue file and a state DB of its own. Any number of parties
runs `batch-anchor`, each at one of the sites, so that two parties may well share a state DB.

What a call does at a site is what it does in the world of `SharedWorld`; the other sites notice it
in the registry alone. So an agreement among all runs can be stated for one site: a `Pact`.
`Pact.sound` extends it to the network.
-/

namespace Whistleblower.BatchAnchor

variable {P : Platform} {δ ι : Type}

/-- The queue file and the state DB that the runs at a site use. -/
structure Site where
  queue : String
  db : Db

/-- One registry, and the sites. -/
structure Network (P : Platform) (δ : Type) where
  registry : Account P
  site : δ → Site

namespace Network

/-- The world of the runs at a site. -/
def worldAt (n : Network P δ) (d : δ) : World P :=
  ⟨(n.site d).queue, n.registry, (n.site d).db⟩

/-- The CID is in the registry. -/
def Registered (n : Network P δ) (c : CidBytes) : Prop :=
  ∃ state, n.registry.state = some state ∧ c ∈ state.cids

variable [DecidableEq δ]

/-- The network after something has happened at a site. -/
def put (n : Network P δ) (d : δ) (w : World P) : Network P δ :=
  ⟨w.registry, Function.update n.site d ⟨w.queue, w.db⟩⟩

@[simp] theorem worldAt_put (n : Network P δ) (d : δ) (w : World P) :
    (n.put d w).worldAt d = w := by
  have hsite : (n.put d w).site d = ⟨w.queue, w.db⟩ := Function.update_self ..
  rw [worldAt, hsite]
  rfl

/-- Elsewhere it is the registry that may have changed. -/
theorem worldAt_put_of_ne (n : Network P δ) {d d' : δ} (h : d' ≠ d) (w : World P) :
    (n.put d w).worldAt d' = { n.worldAt d' with registry := w.registry } := by
  have hsite : (n.put d w).site d' = n.site d' := Function.update_of_ne h ..
  rw [worldAt, hsite]
  rfl

/-- Answer the calls of a run at a site. -/
def answerAt (h : (o : Op) → World P → o.Ret × World P) (d : δ) (o : Op) (n : Network P δ) :
    o.Ret × Network P δ :=
  ((h o (n.worldAt d)).1, n.put d (h o (n.worldAt d)).2)

theorem worldAt_eval_answerAt {ε α : Type} (h : (o : Op) → World P → o.Ret × World P) (d : δ)
    (p : Process Op.Ret ε α) (n : Network P δ) :
    (p.eval (answerAt h d) n).2.worldAt d = (p.eval h (n.worldAt d)).2 :=
  (Process.eval_part (fun n : Network P δ ↦ n.worldAt d) (fun _ _ ↦ rfl)
    (fun _ _ ↦ worldAt_put ..) p n).2

end Network

/-- One site, and what outsiders may do there. -/
def locally (others : World P → World P → Prop) (path : String) : Shared Op.Ret (World P) where
  performs := performs path
  interferes := others

/-- The parties of a network, each at its home. -/
def network [DecidableEq δ] (others : World P → World P → Prop) (path : δ → String)
    (home : ι → δ) : Parties Op.Ret (Network P δ) ι where
  performs i o n r n' :=
    ∃ w, performs (path (home i)) o (n.worldAt (home i)) r w ∧ n' = n.put (home i) w
  interferes n n' := ∃ d w, others (n.worldAt d) w ∧ n' = n.put d w

/-- What the runs agree on, as it looks from one site. -/
structure Pact (others : World P → World P → Prop) where
  Inv : World P → Prop
  Evolves : World P → World P → Prop
  refl : ∀ w, Evolves w w
  trans : ∀ {w w' w''}, Evolves w w' → Evolves w' w'' → Evolves w w''
  inv_of_evolves : ∀ {w w'}, Inv w → Evolves w w' → Inv w'
  evolves_of_others : ∀ {w w'}, Inv w → others w w' → Evolves w w'
  /-- What happens at a site is in order at the others too, where the registry is all that shows. -/
  elsewhere : ∀ {w w' v}, Inv w → Evolves w w' → Inv v → v.registry = w.registry →
    Evolves v { v with registry := w'.registry }

namespace Pact

variable {others : World P → World P → Prop} (pact : Pact others)

/-- What the pact asks of a run at one site. -/
def contract (path : String) : Contract (locally others path) where
  Inv := pact.Inv
  Rely := pact.Evolves
  Guarantee := pact.Evolves
  rely_refl := pact.refl
  rely_trans := pact.trans
  rely_of_interferes := pact.evolves_of_others
  inv_of_rely := pact.inv_of_evolves
  guarantee_refl := pact.refl
  guarantee_of_rely _ h := h

variable [DecidableEq δ]

/-- What has evolved at one site has evolved at all. -/
theorem evolves_put {n : Network P δ} (hinv : ∀ d, pact.Inv (n.worldAt d)) {d : δ} {w : World P}
    (h : pact.Evolves (n.worldAt d) w) (d' : δ) :
    pact.Evolves (n.worldAt d') ((n.put d w).worldAt d') := by
  rcases eq_or_ne d' d with rfl | hne
  · rwa [Network.worldAt_put]
  · rw [Network.worldAt_put_of_ne n hne]
    exact pact.elsewhere (hinv d) h (hinv d') rfl

/-- The pact in the network: at every site. -/
def accord (path : δ → String) (home : ι → δ) : Accord (network others path home) where
  Inv n := ∀ d, pact.Inv (n.worldAt d)
  Evolves n n' := ∀ d, pact.Evolves (n.worldAt d) (n'.worldAt d)
  refl _ _ := pact.refl _
  trans h h' d := pact.trans (h d) (h' d)
  evolves_of_interferes := by
    rintro n n' hinv ⟨d, w, hothers, rfl⟩
    exact pact.evolves_put hinv (pact.evolves_of_others (hinv d) hothers)
  inv_of_evolves hinv h d := pact.inv_of_evolves (hinv d) (h d)

/-- **A run that keeps the pact at its home keeps it in the network.** -/
theorem triple_accord {ε α : Type} {path : δ → String} {home : ι → δ} {i : ι}
    {p : Process Op.Ret ε α}
    (h : (pact.contract (path (home i))).Triple (fun _ ↦ True) p fun _ _ ↦ True) :
    ((pact.accord path home).contract i).Triple (fun _ ↦ True) p fun _ _ ↦ True := by
  intro n hinv _
  refine Contract.Honours.lift (C := pact.contract (path (home i)))
    (fun n : Network P δ ↦ n.worldAt (home i)) ?_ ?_ ?_ hinv (h _ (hinv (home i)) trivial)
  · exact fun _ (hevolves : ∀ d, _) ↦ hevolves (home i)
  · rintro o n r n' ⟨w, hperforms, rfl⟩
    show performs _ o _ r _
    rwa [Network.worldAt_put]
  · rintro o n r n' hinv ⟨w, -, rfl⟩ - hevolves
    rw [Network.worldAt_put] at hevolves
    have hall := pact.evolves_put hinv hevolves
    exact ⟨fun d ↦ pact.inv_of_evolves (hinv d) (hall d), hall⟩

variable [DecidableEq ι] {path : δ → String} {home : ι → δ}
  {Starts : ι → Proc (Option Unit) → Prop} {Initial : Network P δ → Prop}

/-- **Runs that keep the pact, side by side.** In every state that is reached the invariant holds at
every site, and whatever comes after it the pact allows. -/
theorem sound
    (hstarts : ∀ i p, Starts i p →
      (pact.contract (path (home i))).Triple (fun _ ↦ True) p fun _ _ ↦ True)
    (hinitial : ∀ n, Initial n → ∀ d, pact.Inv (n.worldAt d))
    {c : Parties.Config Op.Ret String (Option Unit) (Network P δ) ι}
    (hreach : (network others path home).Reachable Starts Initial c) :
    (∀ d, pact.Inv (c.1.worldAt d)) ∧
      ∀ c', Relation.ReflTransGen ((network others path home).Step Starts) c c' →
        ∀ d, pact.Evolves (c.1.worldAt d) (c'.1.worldAt d) :=
  Accord.sound (A := pact.accord path home)
    (fun i p hstart ↦ pact.triple_accord (hstarts i p hstart)) hinitial hreach

end Pact

end Whistleblower.BatchAnchor
