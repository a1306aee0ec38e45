import Mathlib.Logic.Relation

/-!
# Processes

A program whose effects are calls on a world it does not own: a tree of operations, branching on the
answers. `fail` ends the program with an error, which makes `bind` early return.

The tree says nothing about what an operation does. That is supplied from outside, in one of two
ways.

* `eval` runs a process against a *handler*, a function that answers every call. This is the
  reading for runs in a known, undisturbed world.
* `Shared.Step` runs it against a *shared* world: a call may be answered in several ways, others
  change the world between any two calls, and the process can stop for good at any point. What
  survives a stop is the world, and the next process starts from it.

For the second reading there is a rely/guarantee logic. A `Contract` names an invariant of the
world, what others may do to it, and what every step is held to. `Triple C P p Q` says that `p`,
started where `P` holds, honours the contract at each of its calls, and that `Q` holds where it
ends. `Contract.sound` is the reason to prove triples: if every process that may be started has one,
the invariant holds in **every** reachable state, including those where a process was cut off
between two calls, and every step meets the guarantee.
-/

/-- A program over operations `Op`, whose answers have the types `Ret`. -/
inductive Process {Op : Type} (Ret : Op → Type) (ε α : Type) where
  /-- End with a value. -/
  | pure (a : α)
  /-- End with an error. -/
  | fail (e : ε)
  /-- Call an operation and go on with its answer. -/
  | op (o : Op) (k : Ret o → Process Ret ε α)

namespace Process

variable {Op : Type} {Ret : Op → Type} {ε α β σ : Type}

/-- Go on with the value a process ends with; an error ends the whole. -/
protected def bind : Process Ret ε α → (α → Process Ret ε β) → Process Ret ε β
  | pure a, f => f a
  | fail e, _ => fail e
  | op o k, f => op o fun r ↦ (k r).bind f

instance : Monad (Process Ret ε) where
  pure := pure
  bind := Process.bind

/-- The value of a fallible computation, or its error. -/
def ofExcept : Except ε α → Process Ret ε α
  | .ok a => pure a
  | .error e => fail e

/-- Go on with the outcome of a process: its value, or its error, where that is one to be caught. -/
def attempt {ε' : Type} (caught : ε → Option ε') :
    Process Ret ε α → Process Ret ε (Except ε' α)
  | pure a => pure (.ok a)
  | fail e =>
    match caught e with
    | some e' => pure (.error e')
    | none => fail e
  | op o k => op o fun r ↦ (k r).attempt caught

@[simp] theorem pure_eq (a : α) : (Pure.pure a : Process Ret ε α) = pure a := rfl

@[simp] theorem pure_bind (a : α) (f : α → Process Ret ε β) : (pure a >>= f) = f a := rfl

@[simp] theorem fail_bind (e : ε) (f : α → Process Ret ε β) : (fail e >>= f) = fail e := rfl

@[simp] theorem op_bind (o : Op) (k : Ret o → Process Ret ε α) (f : α → Process Ret ε β) :
    (op o k >>= f) = op o fun r ↦ k r >>= f := rfl

@[simp] theorem ofExcept_ok (a : α) : (ofExcept (.ok a) : Process Ret ε α) = pure a := rfl

@[simp] theorem ofExcept_error (e : ε) : (ofExcept (.error e) : Process Ret ε α) = fail e := rfl

/-! ### Against a handler -/

/-- Answer every call, and return the outcome with the world at the end. -/
def eval (h : (o : Op) → σ → Ret o × σ) : Process Ret ε α → σ → Except ε α × σ
  | pure a, s => (.ok a, s)
  | fail e, s => (.error e, s)
  | op o k, s => (k (h o s).1).eval h (h o s).2

variable (h : (o : Op) → σ → Ret o × σ)

@[simp] theorem eval_pure (a : α) (s : σ) : (pure a : Process Ret ε α).eval h s = (.ok a, s) := rfl

@[simp] theorem eval_fail (e : ε) (s : σ) :
    (fail e : Process Ret ε α).eval h s = (.error e, s) := rfl

@[simp] theorem eval_op (o : Op) (k : Ret o → Process Ret ε α) (s : σ) :
    (op o k).eval h s = (k (h o s).1).eval h (h o s).2 := rfl

@[simp] theorem eval_ofExcept (x : Except ε α) (s : σ) :
    (ofExcept x : Process Ret ε α).eval h s = (x, s) := by
  cases x <;> rfl

theorem eval_bind (p : Process Ret ε α) (f : α → Process Ret ε β) (s : σ) :
    (p >>= f).eval h s = match p.eval h s with
      | (.ok a, t) => (f a).eval h t
      | (.error e, t) => (.error e, t) := by
  induction p generalizing s with
  | pure a => rfl
  | fail e => rfl
  | op o k ih => exact ih _ _

theorem eval_bind_of_ok {p : Process Ret ε α} {s t : σ} {a : α} (hp : p.eval h s = (.ok a, t))
    (f : α → Process Ret ε β) : (p >>= f).eval h s = (f a).eval h t := by
  rw [eval_bind, hp]

theorem eval_bind_of_error {p : Process Ret ε α} {s t : σ} {e : ε}
    (hp : p.eval h s = (.error e, t)) (f : α → Process Ret ε β) :
    (p >>= f).eval h s = (.error e, t) := by
  rw [eval_bind, hp]

/-- A caught error is a value from there on; any other ends the process. -/
theorem eval_attempt {ε' : Type} (caught : ε → Option ε') (p : Process Ret ε α) (s : σ) :
    (p.attempt caught).eval h s = match p.eval h s with
      | (.ok a, t) => (.ok (.ok a), t)
      | (.error e, t) => ((caught e).elim (.error e) fun e' ↦ .ok (.error e'), t) := by
  induction p generalizing s with
  | pure a => rfl
  | fail e =>
    cases hcaught : caught e with
    | some e' => simp [attempt, hcaught]
    | none => simp [attempt, hcaught]
  | op o k ih => exact ih _ _

/-! ### The operations called -/

/-- Whatever the answers are, the process calls none but these operations. -/
def CallsOnly (A : Op → Prop) : Process Ret ε α → Prop
  | pure _ => True
  | fail _ => True
  | op o k => A o ∧ ∀ r, (k r).CallsOnly A

variable {A : Op → Prop}

theorem CallsOnly.bind {p : Process Ret ε α} {f : α → Process Ret ε β} (hp : p.CallsOnly A)
    (hf : ∀ a, (f a).CallsOnly A) : (p >>= f).CallsOnly A := by
  induction p with
  | pure a => exact hf a
  | fail e => exact trivial
  | op o k ih => exact ⟨hp.1, fun r ↦ ih r (hp.2 r)⟩

theorem CallsOnly.attempt {ε' : Type} {caught : ε → Option ε'} {p : Process Ret ε α}
    (hp : p.CallsOnly A) : (p.attempt caught).CallsOnly A := by
  induction p with
  | pure a => exact trivial
  | fail e =>
    rw [Process.attempt]
    split
    · exact trivial
    · exact trivial
  | op o k ih => exact ⟨hp.1, fun r ↦ ih r (hp.2 r)⟩

theorem CallsOnly.mono {B : Op → Prop} {p : Process Ret ε α} (hp : p.CallsOnly A)
    (h : ∀ o, A o → B o) : p.CallsOnly B := by
  induction p with
  | pure a => exact trivial
  | fail e => exact trivial
  | op o k ih => exact ⟨h o hp.1, fun r ↦ ih r (hp.2 r)⟩

/-- **Frame rule.** What each of the operations does to the world, the whole process does. -/
theorem CallsOnly.eval {p : Process Ret ε α} (hp : p.CallsOnly A) {R : σ → σ → Prop}
    (hrefl : ∀ s, R s s) (htrans : ∀ {s t u}, R s t → R t u → R s u)
    (hA : ∀ o s, A o → R s (h o s).2) (s : σ) : R s (p.eval h s).2 := by
  induction p generalizing s with
  | pure a => exact hrefl s
  | fail e => exact hrefl s
  | op o k ih => exact htrans (hA o s hp.1) (ih _ (hp.2 _) _)

/-- A process cannot tell handlers apart that answer alike what it calls. -/
theorem CallsOnly.eval_congr {p : Process Ret ε α} (hp : p.CallsOnly A)
    {g : (o : Op) → σ → Ret o × σ} (hA : ∀ o s, A o → g o s = h o s) (s : σ) :
    p.eval g s = p.eval h s := by
  induction p generalizing s with
  | pure a => rfl
  | fail e => rfl
  | op o k ih =>
    rw [eval_op, eval_op, hA o s hp.1]
    exact ih _ (hp.2 _) _

/-- The operations a run calls, in order. -/
def calls (h : (o : Op) → σ → Ret o × σ) : Process Ret ε α → σ → List Op
  | pure _, _ => []
  | fail _, _ => []
  | op o k, s => o :: (k (h o s).1).calls h (h o s).2

theorem CallsOnly.of_mem_calls {p : Process Ret ε α} (hp : p.CallsOnly A) {s : σ} {o : Op}
    (ho : o ∈ p.calls h s) : A o := by
  induction p generalizing s with
  | pure a => exact absurd ho List.not_mem_nil
  | fail e => exact absurd ho List.not_mem_nil
  | op o' k ih =>
    rcases List.mem_cons.1 ho with rfl | hrest
    · exact hp.1
    · exact ih _ (hp.2 _) hrest

/-- What follows is called if the first part ends with a value. -/
theorem calls_bind (p : Process Ret ε α) (f : α → Process Ret ε β) (s : σ) :
    (p >>= f).calls h s = p.calls h s ++ match p.eval h s with
      | (.ok a, t) => (f a).calls h t
      | (.error _, _) => [] := by
  induction p generalizing s with
  | pure a => rfl
  | fail e => rfl
  | op o k ih => exact congrArg (o :: ·) (ih _ _)

theorem calls_bind_of_ok {p : Process Ret ε α} {s t : σ} {a : α} (hp : p.eval h s = (.ok a, t))
    (f : α → Process Ret ε β) : (p >>= f).calls h s = p.calls h s ++ (f a).calls h t := by
  rw [calls_bind, hp]

/-- Catching an error calls nothing. -/
theorem calls_attempt {ε' : Type} (caught : ε → Option ε') (p : Process Ret ε α) (s : σ) :
    (p.attempt caught).calls h s = p.calls h s := by
  induction p generalizing s with
  | pure a => rfl
  | fail e =>
    rw [attempt]
    split
    · rfl
    · rfl
  | op o k ih => exact congrArg (o :: ·) (ih _ _)

/-! ### The errors that end a process -/

/-- Whatever the answers are, the process ends with none but these errors. -/
def FailsOnly (F : ε → Prop) : Process Ret ε α → Prop
  | pure _ => True
  | fail e => F e
  | op _ k => ∀ r, (k r).FailsOnly F

variable {F : ε → Prop}

theorem FailsOnly.bind {p : Process Ret ε α} {f : α → Process Ret ε β} (hp : p.FailsOnly F)
    (hf : ∀ a, (f a).FailsOnly F) : (p >>= f).FailsOnly F := by
  induction p with
  | pure a => exact hf a
  | fail e => exact hp
  | op o k ih => exact fun r ↦ ih r (hp r)

/-- An error that is caught does not end the process. -/
theorem FailsOnly.attempt {ε' : Type} {caught : ε → Option ε'} {p : Process Ret ε α}
    (hp : p.FailsOnly F) : (p.attempt caught).FailsOnly fun e ↦ F e ∧ caught e = none := by
  induction p with
  | pure a => exact trivial
  | fail e =>
    rw [Process.attempt]
    cases hcaught : caught e with
    | some e' => exact trivial
    | none => exact ⟨hp, hcaught⟩
  | op o k ih => exact fun r ↦ ih r (hp r)

theorem FailsOnly.mono {G : ε → Prop} {p : Process Ret ε α} (hp : p.FailsOnly F)
    (hFG : ∀ e, F e → G e) : p.FailsOnly G := by
  induction p with
  | pure a => exact trivial
  | fail e => exact hFG e hp
  | op o k ih => exact fun r ↦ ih r (hp r)

theorem FailsOnly.eval {p : Process Ret ε α} (hp : p.FailsOnly F) {s t : σ} {e : ε}
    (heval : p.eval h s = (.error e, t)) : F e := by
  induction p generalizing s with
  | pure a => cases heval
  | fail e' =>
    obtain ⟨heq, -⟩ := Prod.mk.inj heval
    exact Except.error.inj heq ▸ hp
  | op o k ih => exact ih _ (hp _) heval

end Process

/-! ### In a shared world -/

/-- A world that a process shares with others. -/
structure Shared {Op : Type} (Ret : Op → Type) (σ : Type) where
  /-- A call in the first state may be answered so and leave the second. -/
  performs : (o : Op) → σ → Ret o → σ → Prop
  /-- Others may take the first state to the second. -/
  interferes : σ → σ → Prop

namespace Shared

variable {Op : Type} {Ret : Op → Type} {ε α σ : Type}

/-- The world, and the process that is running, if one is. -/
abbrev Config (Ret : Op → Type) (ε α σ : Type) :=
  σ × Option (Process Ret ε α)

/-- One step. A process of the given kind is started when none is running; it makes its calls in
order; it stops where it has ended or is cut off; and others interfere at any time. -/
inductive Step (S : Shared Ret σ) (Starts : Process Ret ε α → Prop) :
    Config Ret ε α σ → Config Ret ε α σ → Prop
  | interfere {s t p} : S.interferes s t → Step S Starts (s, p) (t, p)
  | start {s p} : Starts p → Step S Starts (s, none) (s, some p)
  | perform {s t o r} {k : Ret o → Process Ret ε α} : S.performs o s r t →
      Step S Starts (s, some (.op o k)) (t, some (k r))
  | stop {s p} : Step S Starts (s, some p) (s, none)

/-- A configuration some run leads to, from a world in which nothing is running yet. -/
def Reachable (S : Shared Ret σ) (Starts : Process Ret ε α → Prop) (Initial : σ → Prop)
    (c : Config Ret ε α σ) : Prop :=
  ∃ s, Initial s ∧ Relation.ReflTransGen (S.Step Starts) (s, none) c

/-- A run against a handler that answers as the shared world may is one of the runs in it. -/
theorem reaches_eval (S : Shared Ret σ) (Starts : Process Ret ε α → Prop)
    {h : (o : Op) → σ → Ret o × σ} (hperforms : ∀ o s, S.performs o s (h o s).1 (h o s).2)
    (p : Process Ret ε α) (s : σ) :
    Relation.ReflTransGen (S.Step Starts) (s, some p) ((p.eval h s).2, none) := by
  induction p generalizing s with
  | pure a => exact .single .stop
  | fail e => exact .single .stop
  | op o k ih => exact .head (.perform (hperforms o s)) (ih _ _)

end Shared

/-- What a process and the others agree on. -/
structure Contract {Op : Type} {Ret : Op → Type} {σ : Type} (S : Shared Ret σ) where
  /-- The invariant of the world. -/
  Inv : σ → Prop
  /-- What others may have done between two calls. -/
  Rely : σ → σ → Prop
  /-- What every step is held to. -/
  Guarantee : σ → σ → Prop
  rely_refl : ∀ s, Rely s s
  rely_trans : ∀ {s t u}, Rely s t → Rely t u → Rely s u
  rely_of_interferes : ∀ {s t}, Inv s → S.interferes s t → Rely s t
  inv_of_rely : ∀ {s t}, Inv s → Rely s t → Inv t
  guarantee_refl : ∀ s, Guarantee s s
  guarantee_of_rely : ∀ {s t}, Inv s → Rely s t → Guarantee s t

namespace Contract

variable {Op : Type} {Ret : Op → Type} {ε α β σ : Type} {S : Shared Ret σ} (C : Contract S)

/-- The process honours the contract from this state on, whatever the others do, and where it ends
with a value the postcondition holds. -/
def Honours : Process Ret ε α → (α → σ → Prop) → σ → Prop
  | .pure a, Q, s => C.Inv s ∧ Q a s
  | .fail _, _, s => C.Inv s
  | .op o k, Q, s => C.Inv s ∧ ∀ t, C.Rely s t → ∀ r u, S.performs o t r u →
      C.Guarantee t u ∧ Honours (k r) Q u

/-- Started where the precondition holds, the process honours the contract. -/
def Triple (P : σ → Prop) (p : Process Ret ε α) (Q : α → σ → Prop) : Prop :=
  ∀ s, C.Inv s → P s → C.Honours p Q s

/-- Others cannot invalidate the assertion. -/
def Stable (P : σ → Prop) : Prop :=
  ∀ {s t}, C.Inv s → C.Rely s t → P s → P t

variable {C}

theorem Honours.inv {p : Process Ret ε α} {Q : α → σ → Prop} {s : σ} (h : C.Honours p Q s) :
    C.Inv s := by
  cases p with
  | pure a => exact h.1
  | fail e => exact h
  | op o k => exact h.1

theorem Honours.mono {p : Process Ret ε α} {Q R : α → σ → Prop} {s : σ} (h : C.Honours p Q s)
    (hQR : ∀ a t, C.Inv t → Q a t → R a t) : C.Honours p R s := by
  induction p generalizing s with
  | pure a => exact ⟨h.1, hQR a s h.1 h.2⟩
  | fail e => exact h
  | op o k ih =>
    refine ⟨h.1, fun t ht r u hu ↦ ?_⟩
    obtain ⟨hguarantee, hrest⟩ := h.2 t ht r u hu
    exact ⟨hguarantee, ih r hrest⟩

theorem Honours.bind {p : Process Ret ε α} {f : α → Process Ret ε β} {Q : β → σ → Prop} {s : σ}
    (h : C.Honours p (fun a t ↦ C.Honours (f a) Q t) s) : C.Honours (p >>= f) Q s := by
  induction p generalizing s with
  | pure a => exact h.2
  | fail e => exact h
  | op o k ih =>
    refine ⟨h.1, fun t ht r u hu ↦ ?_⟩
    obtain ⟨hguarantee, hrest⟩ := h.2 t ht r u hu
    exact ⟨hguarantee, ih r hrest⟩

/-- Honouring a contract, with nothing left to be said at the end, is stable. -/
theorem Honours.of_rely {p : Process Ret ε α} {s t : σ} (h : C.Honours p (fun _ _ ↦ True) s)
    (hrely : C.Rely s t) : C.Honours p (fun _ _ ↦ True) t := by
  have hinv : C.Inv t := C.inv_of_rely h.inv hrely
  cases p with
  | pure a => exact ⟨hinv, trivial⟩
  | fail e => exact hinv
  | op o k => exact ⟨hinv, fun u hu ↦ h.2 u (C.rely_trans hrely hu)⟩

/-! ### Rules -/

theorem triple_pure {P : σ → Prop} {Q : α → σ → Prop} {a : α} (h : ∀ s, C.Inv s → P s → Q a s) :
    C.Triple P (Process.pure a : Process Ret ε α) Q :=
  fun s hinv hs ↦ ⟨hinv, h s hinv hs⟩

theorem triple_fail {P : σ → Prop} {Q : α → σ → Prop} {e : ε} :
    C.Triple P (Process.fail e : Process Ret ε α) Q :=
  fun _ hinv _ ↦ hinv

theorem triple_bind {P : σ → Prop} {R : α → σ → Prop} {Q : β → σ → Prop} {p : Process Ret ε α}
    {f : α → Process Ret ε β} (hp : C.Triple P p R) (hf : ∀ a, C.Triple (R a) (f a) Q) :
    C.Triple P (p >>= f) Q :=
  fun s hinv hs ↦ ((hp s hinv hs).mono fun a t ht hR ↦ hf a t ht hR).bind

/-- **One call.** The precondition has to be stable, since others act before the call does. -/
theorem triple_op {P : σ → Prop} {o : Op} {R : Ret o → σ → Prop} {Q : α → σ → Prop}
    {k : Ret o → Process Ret ε α} (hstable : C.Stable P)
    (hperform : ∀ s r t, C.Inv s → P s → S.performs o s r t →
      C.Inv t ∧ C.Guarantee s t ∧ R r t)
    (hk : ∀ r, C.Triple (R r) (k r) Q) : C.Triple P (.op o k) Q := by
  intro s hinv hs
  refine ⟨hinv, fun t ht r u hu ↦ ?_⟩
  have hinv' : C.Inv t := C.inv_of_rely hinv ht
  obtain ⟨hinv'', hguarantee, hR⟩ := hperform t r u hinv' (hstable hinv ht hs) hu
  exact ⟨hguarantee, hk r u hinv'' hR⟩

theorem Triple.weaken {P P' : σ → Prop} {Q Q' : α → σ → Prop} {p : Process Ret ε α}
    (h : C.Triple P p Q) (hP : ∀ s, C.Inv s → P' s → P s)
    (hQ : ∀ a s, C.Inv s → Q a s → Q' a s) : C.Triple P' p Q' :=
  fun s hinv hs ↦ (h s hinv (hP s hinv hs)).mono hQ

/-- A call that leaves the world as it is, and whose answers are all that is learnt. -/
theorem triple_query {P : σ → Prop} {o : Op} {F : Ret o → σ → Prop} {Q : α → σ → Prop}
    {k : Ret o → Process Ret ε α} (hstable : C.Stable P)
    (hperform : ∀ s r t, C.Inv s → S.performs o s r t → t = s ∧ F r s)
    (hk : ∀ r, C.Triple (fun s ↦ P s ∧ F r s) (k r) Q) : C.Triple P (.op o k) Q := by
  refine triple_op hstable (fun s r t hinv hs ht ↦ ?_) hk
  obtain ⟨rfl, hF⟩ := hperform s r t hinv ht
  exact ⟨hinv, C.guarantee_refl _, hs, hF⟩

/-- What the precondition says of no state can be taken out of it. -/
theorem triple_of_imp {φ : Prop} {P : σ → Prop} {Q : α → σ → Prop} {p : Process Ret ε α}
    (h : φ → C.Triple P p Q) : C.Triple (fun s ↦ φ ∧ P s) p Q :=
  fun s hinv hs ↦ h hs.1 s hinv hs.2

/-! ### Soundness -/

variable {Starts : Process Ret ε α → Prop} {Initial : σ → Prop}

/-- One step keeps the invariant and the promise of the running process, and meets the
guarantee. -/
theorem step {c c' : Shared.Config Ret ε α σ}
    (hstarts : ∀ p, Starts p → C.Triple (fun _ ↦ True) p fun _ _ ↦ True)
    (hinv : C.Inv c.1) (hp : ∀ p ∈ c.2, C.Honours p (fun _ _ ↦ True) c.1)
    (hstep : S.Step Starts c c') :
    C.Inv c'.1 ∧ (∀ p ∈ c'.2, C.Honours p (fun _ _ ↦ True) c'.1) ∧ C.Guarantee c.1 c'.1 := by
  cases hstep with
  | interfere hinterferes =>
    have hrely := C.rely_of_interferes hinv hinterferes
    exact ⟨C.inv_of_rely hinv hrely, fun p hmem ↦ (hp p hmem).of_rely hrely,
      C.guarantee_of_rely hinv hrely⟩
  | start hstart =>
    refine ⟨hinv, fun p hmem ↦ ?_, C.guarantee_refl _⟩
    obtain rfl := Option.some.inj hmem
    exact hstarts _ hstart _ hinv trivial
  | @perform s t o r k hperforms =>
    obtain ⟨-, hcall⟩ := hp _ rfl
    obtain ⟨hguarantee, hrest⟩ := hcall s (C.rely_refl s) r t hperforms
    refine ⟨hrest.inv, fun p hmem ↦ ?_, hguarantee⟩
    obtain rfl := Option.some.inj hmem
    exact hrest
  | stop => exact ⟨hinv, nofun, C.guarantee_refl _⟩

/-- **Soundness.** If every process that may be started honours the contract, the invariant holds in
every reachable state, and every step taken from one meets the guarantee. -/
theorem sound (hstarts : ∀ p, Starts p → C.Triple (fun _ ↦ True) p fun _ _ ↦ True)
    (hinitial : ∀ s, Initial s → C.Inv s) {c : Shared.Config Ret ε α σ}
    (hreach : S.Reachable Starts Initial c) :
    C.Inv c.1 ∧ ∀ c', S.Step Starts c c' → C.Guarantee c.1 c'.1 := by
  obtain ⟨s, hs, hrun⟩ := hreach
  have hall : C.Inv c.1 ∧ ∀ p ∈ c.2, C.Honours p (fun _ _ ↦ True) c.1 := by
    induction hrun with
    | refl => exact ⟨hinitial s hs, nofun⟩
    | tail _ hstep ih =>
      obtain ⟨hinv, hp, -⟩ := step hstarts ih.1 ih.2 hstep
      exact ⟨hinv, hp⟩
  refine ⟨hall.1, fun c' hstep ↦ ?_⟩
  obtain ⟨-, -, hguarantee⟩ := step hstarts hall.1 hall.2 hstep
  exact hguarantee

end Contract
