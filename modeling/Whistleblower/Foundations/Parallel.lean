import Whistleblower.Foundations.Process
import Mathlib.Logic.Function.Basic

/-!
# Processes side by side

Any number of parties over one world. Each of them starts processes, one after another, and every
process may be cut off anywhere; the calls of different parties interleave in any order.
`Foundations.Process` has one such party, with the others as interference.

The rule here is the parallel rule of rely/guarantee reasoning, for parties that are held to the
same thing. An `Accord` is an invariant together with one relation `Evolves` that every step of
anyone keeps to, so it is at the same time what a party guarantees and what it relies on. A party
is verified on its own, against `Accord.contract`, and `Accord.sound` puts the parties together.
Where the processes end with results to be relied on, `Accord.runs` does so with the postconditions.

`Honours.lift` is the frame rule that goes with it: a process that works on a part of the world
alone is verified in a contract about that part.
-/

/-- A world shared by parties. What a call may do depends on whose call it is. -/
structure Parties {Op : Type} (Ret : Op → Type) (σ ι : Type) where
  /-- A call of this party in the first state may be answered so and leave the second. -/
  performs : ι → (o : Op) → σ → Ret o → σ → Prop
  /-- Outsiders may take the first state to the second. -/
  interferes : σ → σ → Prop

namespace Parties

variable {Op : Type} {Ret : Op → Type} {ε α σ ι : Type}

/-- The world as one of the parties has it. -/
def view (S : Parties Ret σ ι) (i : ι) : Shared Ret σ where
  performs := S.performs i
  interferes := S.interferes

/-- The world, and the process each party is running, if any. -/
abbrev Config (Ret : Op → Type) (ε α σ ι : Type) :=
  σ × (ι → Option (Process Ret ε α))

variable [DecidableEq ι]

/-- One step: outsiders interfere, or a party that runs nothing starts a process of its kind, or a
running process makes its next call, or one stops, at its end or before it. -/
inductive Step (S : Parties Ret σ ι) (Starts : ι → Process Ret ε α → Prop) :
    Config Ret ε α σ ι → Config Ret ε α σ ι → Prop
  | interfere {s t ps} : S.interferes s t → Step S Starts (s, ps) (t, ps)
  | start {s ps i p} : ps i = none → Starts i p →
      Step S Starts (s, ps) (s, Function.update ps i (some p))
  | perform {s t ps i o r} {k : Ret o → Process Ret ε α} : ps i = some (.op o k) →
      S.performs i o s r t → Step S Starts (s, ps) (t, Function.update ps i (some (k r)))
  | stop {s ps i} : Step S Starts (s, ps) (s, Function.update ps i none)

/-- A configuration some run leads to, from a world in which nobody is running anything yet. -/
def Reachable (S : Parties Ret σ ι) (Starts : ι → Process Ret ε α → Prop) (Initial : σ → Prop)
    (c : Config Ret ε α σ ι) : Prop :=
  ∃ s, Initial s ∧ Relation.ReflTransGen (S.Step Starts) (s, fun _ ↦ none) c

/-- What relates the world before and after every call, and every interference, relates it before
and after every run. -/
theorem relates_of_performs {S : Parties Ret σ ι} {Starts : ι → Process Ret ε α → Prop}
    {R : σ → σ → Prop} (hrefl : ∀ s, R s s) (htrans : ∀ {s t u}, R s t → R t u → R s u)
    (hinterferes : ∀ {s t}, S.interferes s t → R s t)
    (hperforms : ∀ {i o s r t}, S.performs i o s r t → R s t) {c c' : Config Ret ε α σ ι}
    (hrun : Relation.ReflTransGen (S.Step Starts) c c') : R c.1 c'.1 := by
  induction hrun with
  | refl => exact hrefl _
  | tail _ hstep ih =>
    cases hstep with
    | interfere h => exact htrans ih (hinterferes h)
    | start _ _ => exact ih
    | perform _ h => exact htrans ih (hperforms h)
    | stop => exact ih

/-- A process that is left alone runs against any handler that answers as the world may. -/
theorem reaches_eval (S : Parties Ret σ ι) (Starts : ι → Process Ret ε α → Prop) (i : ι)
    {h : (o : Op) → σ → Ret o × σ} (hperforms : ∀ o s, S.performs i o s (h o s).1 (h o s).2)
    (p : Process Ret ε α) (s : σ) (ps : ι → Option (Process Ret ε α)) :
    Relation.ReflTransGen (S.Step Starts) (s, Function.update ps i (some p))
      ((p.eval h s).2, Function.update ps i none) := by
  have hidem : ∀ q r : Option (Process Ret ε α),
      Function.update (Function.update ps i q) i r = Function.update ps i r := by
    intro q r
    rw [Function.update_idem]
  induction p generalizing s with
  | pure a => exact hidem (some (.pure a)) none ▸ .single .stop
  | fail e => exact hidem (some (.fail e)) none ▸ .single .stop
  | op o k ih =>
    refine .head (.perform (Function.update_self i _ ps) (hperforms o s)) ?_
    rw [hidem]
    exact ih _ _

/-- A process that is left alone ends with its result. -/
theorem reaches_pure (S : Parties Ret σ ι) (Starts : ι → Process Ret ε α → Prop) (i : ι)
    {h : (o : Op) → σ → Ret o × σ} (hperforms : ∀ o s, S.performs i o s (h o s).1 (h o s).2)
    {p : Process Ret ε α} {s t : σ} {a : α} (heval : p.eval h s = (.ok a, t))
    (ps : ι → Option (Process Ret ε α)) :
    Relation.ReflTransGen (S.Step Starts) (s, Function.update ps i (some p))
      (t, Function.update ps i (some (.pure a))) := by
  induction p generalizing s with
  | pure a' =>
    obtain ⟨ha, rfl⟩ := Prod.mk.inj heval
    obtain rfl := Except.ok.inj ha
    exact .refl
  | fail e => cases heval
  | op o k ih =>
    have hidem : ∀ q r : Option (Process Ret ε α),
        Function.update (Function.update ps i q) i r = Function.update ps i r := by
      intro q r
      rw [Function.update_idem]
    refine .head (.perform (Function.update_self i _ ps) (hperforms o s)) ?_
    rw [hidem]
    exact ih _ heval

end Parties

namespace Contract

variable {Op : Type} {Ret : Op → Type} {ε α σ : Type} {S : Shared Ret σ} {C : Contract S}

/-- Honouring a contract is stable if what is promised for the end is. -/
theorem Honours.of_rely_of_stable {p : Process Ret ε α} {Q : α → σ → Prop} {s t : σ}
    (h : C.Honours p Q s) (hstable : ∀ a, C.Stable (Q a)) (hrely : C.Rely s t) :
    C.Honours p Q t := by
  have hinv : C.Inv t := C.inv_of_rely h.inv hrely
  cases p with
  | pure a => exact ⟨hinv, hstable a h.1 hrely h.2⟩
  | fail e => exact hinv
  | op o k => exact ⟨hinv, fun u hu ↦ h.2 u (C.rely_trans hrely hu)⟩

/-- A caught error is a result of which nothing is promised. -/
theorem Honours.attempt {ε' : Type} {caught : ε → Option ε'} {p : Process Ret ε α}
    {Q : α → σ → Prop} {s : σ} (h : C.Honours p Q s) :
    C.Honours (p.attempt caught) (fun x t ↦ ∀ a, x = .ok a → Q a t) s := by
  induction p generalizing s with
  | pure a =>
    refine ⟨h.1, fun a' ha ↦ ?_⟩
    obtain rfl := Except.ok.inj ha
    exact h.2
  | fail e =>
    rw [Process.attempt]
    split
    · exact ⟨h, fun _ ha ↦ by cases ha⟩
    · exact h
  | op o k ih =>
    refine ⟨h.1, fun t ht r u hu ↦ ?_⟩
    obtain ⟨hguarantee, hrest⟩ := h.2 t ht r u hu
    exact ⟨hguarantee, ih r hrest⟩

/-- Where every operation keeps the contract, so does every process. -/
theorem triple_of_performs
    (h : ∀ o s r t, C.Inv s → S.performs o s r t → C.Inv t ∧ C.Guarantee s t)
    (p : Process Ret ε α) : C.Triple (fun _ ↦ True) p fun _ _ ↦ True := by
  intro s hinv _
  induction p generalizing s with
  | pure a => exact ⟨hinv, trivial⟩
  | fail e => exact hinv
  | op o k ih =>
    refine ⟨hinv, fun t ht r u hu ↦ ?_⟩
    obtain ⟨hinv', hguarantee⟩ := h o t r u (C.inv_of_rely hinv ht) hu
    exact ⟨hguarantee, ih r u hinv'⟩

end Contract

/-- What the parties agree on. -/
structure Accord {Op : Type} {Ret : Op → Type} {σ ι : Type} (S : Parties Ret σ ι) where
  /-- The invariant of the world. -/
  Inv : σ → Prop
  /-- What every step of anyone keeps to. -/
  Evolves : σ → σ → Prop
  refl : ∀ s, Evolves s s
  trans : ∀ {s t u}, Evolves s t → Evolves t u → Evolves s u
  evolves_of_interferes : ∀ {s t}, Inv s → S.interferes s t → Evolves s t
  inv_of_evolves : ∀ {s t}, Inv s → Evolves s t → Inv t

namespace Accord

variable {Op : Type} {Ret : Op → Type} {ε α σ ι : Type} {S : Parties Ret σ ι} (A : Accord S)

/-- What one party is held to, and what it may expect of the others. -/
def contract (i : ι) : Contract (S.view i) where
  Inv := A.Inv
  Rely := A.Evolves
  Guarantee := A.Evolves
  rely_refl := A.refl
  rely_trans := A.trans
  rely_of_interferes := A.evolves_of_interferes
  inv_of_rely := A.inv_of_evolves
  guarantee_refl := A.refl
  guarantee_of_rely _ h := h

/-- Every running process keeps its promise from here on, and what it ends with is as promised. -/
def Promised (A : Accord S) (Q : ι → α → σ → Prop) (c : Parties.Config Ret ε α σ ι) : Prop :=
  ∀ i, ∀ p ∈ c.2 i, (A.contract i).Honours p (Q i) c.1

variable {A} {Q : ι → α → σ → Prop}

/-- What a party has ended with is as promised. -/
theorem Promised.result {c : Parties.Config Ret ε α σ ι} (h : A.Promised Q c) {i : ι} {a : α}
    (ha : c.2 i = some (.pure a)) : Q i a c.1 := by
  obtain ⟨-, hQ⟩ := h i (.pure a) ha
  exact hQ

/-- Where nobody is running anything, nothing has been promised. -/
theorem promised_none (Q : ι → α → σ → Prop) (s : σ) :
    A.Promised Q ((s, fun _ ↦ none) : Parties.Config Ret ε α σ ι) :=
  fun _ _ hp ↦ absurd hp (Option.not_mem_none _)

variable [DecidableEq ι] {Starts : ι → Process Ret ε α → Prop} {Initial : σ → Prop}

/-- What a party does to its own process leaves the promises of the others as they are. -/
theorem Promised.update (hstable : ∀ i a, (A.contract i).Stable (Q i a)) {s t : σ}
    {ps : ι → Option (Process Ret ε α)} (h : A.Promised Q (s, ps)) (hevolves : A.Evolves s t)
    {i : ι} {q : Option (Process Ret ε α)} (hq : ∀ p ∈ q, (A.contract i).Honours p (Q i) t) :
    A.Promised Q (t, Function.update ps i q) := by
  intro j p hp
  replace hp : p ∈ Function.update ps i q j := hp
  rcases eq_or_ne j i with rfl | hne
  · rw [Function.update_self] at hp
    exact hq p hp
  · rw [Function.update_of_ne hne] at hp
    exact (h j p hp).of_rely_of_stable (hstable j) hevolves

/-- One step of anyone keeps the invariant and all promises, and keeps to the accord. -/
theorem step {c c' : Parties.Config Ret ε α σ ι} (hstable : ∀ i a, (A.contract i).Stable (Q i a))
    (hstarts : ∀ i p, Starts i p → (A.contract i).Triple (fun _ ↦ True) p (Q i))
    (hinv : A.Inv c.1) (hpromised : A.Promised Q c) (hstep : S.Step Starts c c') :
    A.Inv c'.1 ∧ A.Promised Q c' ∧ A.Evolves c.1 c'.1 := by
  cases hstep with
  | interfere hinterferes =>
    have hevolves := A.evolves_of_interferes hinv hinterferes
    exact ⟨A.inv_of_evolves hinv hevolves,
      fun i p hp ↦ (hpromised i p hp).of_rely_of_stable (hstable i) hevolves, hevolves⟩
  | start _ hstart =>
    refine ⟨hinv, hpromised.update hstable (A.refl _) fun p hp ↦ ?_, A.refl _⟩
    obtain rfl := Option.some.inj hp
    exact hstarts _ _ hstart _ hinv trivial
  | @perform s t ps i o r k hrunning hperforms =>
    obtain ⟨-, hcall⟩ := hpromised i _ hrunning
    obtain ⟨hevolves, hrest⟩ := hcall s (A.refl s) r t hperforms
    have hevolves : A.Evolves s t := hevolves
    refine ⟨hrest.inv, hpromised.update hstable hevolves fun p hp ↦ ?_, hevolves⟩
    obtain rfl := Option.some.inj hp
    exact hrest
  | stop =>
    exact ⟨hinv, hpromised.update hstable (A.refl _)
      fun p hp ↦ absurd hp (Option.not_mem_none p), A.refl _⟩

/-- **Runs**, from a state of the invariant in which all running processes keep their promises. -/
theorem runs {c c' : Parties.Config Ret ε α σ ι} (hstable : ∀ i a, (A.contract i).Stable (Q i a))
    (hstarts : ∀ i p, Starts i p → (A.contract i).Triple (fun _ ↦ True) p (Q i))
    (hinv : A.Inv c.1) (hpromised : A.Promised Q c)
    (hrun : Relation.ReflTransGen (S.Step Starts) c c') :
    A.Inv c'.1 ∧ A.Promised Q c' ∧ A.Evolves c.1 c'.1 := by
  induction hrun with
  | refl => exact ⟨hinv, hpromised, A.refl _⟩
  | tail _ hstep ih =>
    obtain ⟨hinv', hpromised', hevolves⟩ := step hstable hstarts ih.1 ih.2.1 hstep
    exact ⟨hinv', hpromised', A.trans ih.2.2 hevolves⟩

/-- **The parallel rule.** If every process that a party may start honours the party's contract, the
invariant holds in every reachable state, and whatever state is reached from it is one the accord
allows. -/
theorem sound
    (hstarts : ∀ i p, Starts i p → (A.contract i).Triple (fun _ ↦ True) p fun _ _ ↦ True)
    (hinitial : ∀ s, Initial s → A.Inv s) {c : Parties.Config Ret ε α σ ι}
    (hreach : S.Reachable Starts Initial c) :
    A.Inv c.1 ∧ ∀ c', Relation.ReflTransGen (S.Step Starts) c c' → A.Evolves c.1 c'.1 := by
  obtain ⟨s, hs, hrun⟩ := hreach
  have hstable : ∀ (i : ι) (_ : α), (A.contract i).Stable fun _ ↦ True := fun _ _ _ _ _ _ h ↦ h
  obtain ⟨hinv, hpromised, -⟩ :=
    runs hstable hstarts (hinitial s hs) (promised_none (fun _ _ _ ↦ True) s) hrun
  refine ⟨hinv, fun c' hlater ↦ ?_⟩
  obtain ⟨-, -, hevolves⟩ := runs hstable hstarts hinv hpromised hlater
  exact hevolves

end Accord

/-! ### Working on a part of the world -/

/-- Against a handler that answers from a part of the world, a run changes the part as it does where
there is nothing else. -/
theorem Process.eval_part {Op : Type} {Ret : Op → Type} {ε α σ τ : Type} (part : τ → σ)
    {h : (o : Op) → σ → Ret o × σ} {g : (o : Op) → τ → Ret o × τ}
    (hanswer : ∀ o w, (g o w).1 = (h o (part w)).1)
    (hpart : ∀ o w, part (g o w).2 = (h o (part w)).2) (p : Process Ret ε α) (w : τ) :
    (p.eval g w).1 = (p.eval h (part w)).1 ∧ part (p.eval g w).2 = (p.eval h (part w)).2 := by
  induction p generalizing w with
  | pure a => exact ⟨rfl, rfl⟩
  | fail e => exact ⟨rfl, rfl⟩
  | op o k ih =>
    rw [eval_op, eval_op, hanswer, ← hpart]
    exact ih _ _

namespace Contract

variable {Op : Type} {Ret : Op → Type} {ε α σ τ : Type} {S : Shared Ret σ} {T : Shared Ret τ}

/-- **Frame rule.** A process that honours a contract about its part of the world honours one about
the whole, if the part never leaves what the first contract foresees, and what the process does to
the part is allowed in the whole. -/
theorem Honours.lift {C : Contract S} {D : Contract T} (part : τ → σ)
    (hrely : ∀ {w w'}, D.Inv w → D.Rely w w' → C.Rely (part w) (part w'))
    (hperforms : ∀ {o w r w'}, T.performs o w r w' → S.performs o (part w) r (part w'))
    (hstep : ∀ {o w r w'}, D.Inv w → T.performs o w r w' → C.Inv (part w') →
      C.Guarantee (part w) (part w') → D.Inv w' ∧ D.Guarantee w w')
    {p : Process Ret ε α} {Q : α → σ → Prop} {w : τ} (hinv : D.Inv w)
    (h : C.Honours p Q (part w)) : D.Honours p (fun a w ↦ Q a (part w)) w := by
  induction p generalizing w with
  | pure a => exact ⟨hinv, h.2⟩
  | fail e => exact hinv
  | op o k ih =>
    refine ⟨hinv, fun t ht r u hu ↦ ?_⟩
    obtain ⟨hguarantee, hrest⟩ := h.2 (part t) (hrely hinv ht) r (part u) (hperforms hu)
    obtain ⟨hinv', hguarantee'⟩ := hstep (D.inv_of_rely hinv ht) hu hrest.inv hguarantee
    exact ⟨hguarantee', ih r hinv' hrest⟩

end Contract
