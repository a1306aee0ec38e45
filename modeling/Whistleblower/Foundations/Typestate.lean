import Whistleblower.Foundations.Interleaving

/-!
# Typestates

What a process may do next can depend on what it has done so far, and on how that was answered: a
file is read after it has been written, and a handle is not used once it is closed. A typestate is
the automaton behind such a discipline. `Process.Follows` says that a process keeps to it, whatever
it is answered; it is a property of the text of the process, proved by one walk along it.

In a pool every party has a discipline of its own. `Pool.Moves.follows` is the step: the call that
is made is one the discipline allows, and all parties go on keeping to theirs. So the states of the
automata need not be part of the pool. They are there at every moment of a run (`IsRun.follows`).
-/

variable {Op : Type} {Ret : Op → Type} {ε α β σ Q ι : Type}

/-- A discipline of calls. -/
structure Typestate (Ret : Op → Type) (Q : Type) where
  /-- What an operation may be answered. -/
  answers : (o : Op) → Ret o → Prop
  /-- The operation may be called in this state. -/
  allowed : Q → Op → Prop
  /-- The state after the answer. -/
  next : Q → (o : Op) → Ret o → Q

namespace Process

variable (T : Typestate Ret Q)

/-- From this state on, the process keeps to the discipline. -/
def Follows : Process Ret ε α → Q → Prop
  | pure _, _ => True
  | fail _, _ => True
  | op o k, q => T.allowed q o ∧ ∀ r, T.answers o r → (k r).Follows (T.next q o r)

variable {T}

/-- What comes second has to keep to the discipline from wherever the first part has led. -/
theorem Follows.bind {p : Process Ret ε α} {f : α → Process Ret ε β} {q : Q} (hp : p.Follows T q)
    (hf : ∀ a q', (f a).Follows T q') : (p >>= f).Follows T q := by
  induction p generalizing q with
  | pure a => exact hf a q
  | fail e => exact trivial
  | op o k ih => exact ⟨hp.1, fun r hr ↦ ih r (hp.2 r hr)⟩

theorem Follows.attempt {ε' : Type} {caught : ε → Option ε'} {p : Process Ret ε α} {q : Q}
    (hp : p.Follows T q) : (p.attempt caught).Follows T q := by
  induction p generalizing q with
  | pure a => exact trivial
  | fail e =>
    rw [Process.attempt]
    split
    · exact trivial
    · exact trivial
  | op o k ih => exact ⟨hp.1, fun r hr ↦ ih r (hp.2 r hr)⟩

end Process

/-! ### In a pool -/

variable [DecidableEq ι] {performs : (o : Op) → σ → Ret o → σ → Prop} {T : ι → Typestate Ret Q}

/-- **One move**: an allowed call, after which everyone still keeps to their discipline. -/
theorem Pool.Moves.follows {c d : Pool Ret ε α σ ι} {i : ι} (hmoves : Pool.Moves performs i c d)
    (hanswers : ∀ {o s r t}, performs o s r t → (T i).answers o r) {q : ι → Q}
    (hfollows : ∀ j, (c.process j).Follows (T j) (q j)) :
    ∃ o k r, c.process i = .op o k ∧ (T i).allowed (q i) o ∧ performs o c.world r d.world ∧
      d.process = Function.update c.process i (k r) ∧
      ∀ j, (d.process j).Follows (T j) (Function.update q i ((T i).next (q i) o r) j) := by
  obtain @⟨o, k, r, t, hprocess, hperforms⟩ := hmoves
  have hi := hfollows i
  rw [hprocess] at hi
  refine ⟨o, k, r, hprocess, hi.1, hperforms, rfl, fun j ↦ ?_⟩
  rw [Pool.process_advance]
  by_cases hj : j = i
  · subst hj
    rw [Function.update_self, Function.update_self]
    exact hi.2 r (hanswers hperforms)
  · rw [Function.update_of_ne hj, Function.update_of_ne hj]
    exact hfollows j

/-- **At every moment of a run** the parties keep to their disciplines. -/
theorem IsRun.follows {run : ℕ → Pool Ret ε α σ ι} {actor : ℕ → Option ι}
    (hrun : IsRun (Pool.Moves performs) run actor)
    (hanswers : ∀ {i o s r t}, performs o s r t → (T i).answers o r) {q : ι → Q}
    (hstart : ∀ j, ((run 0).process j).Follows (T j) (q j)) (n : ℕ) :
    ∃ q' : ι → Q, ∀ j, ((run n).process j).Follows (T j) (q' j) := by
  have hmove : ∀ (i : ι) (c d : Pool Ret ε α σ ι),
      (∃ q' : ι → Q, ∀ j, (c.process j).Follows (T j) (q' j)) → Pool.Moves performs i c d →
        ∃ q' : ι → Q, ∀ j, (d.process j).Follows (T j) (q' j) := by
    rintro i c d ⟨q', hq'⟩ hmoves
    obtain ⟨o, k, r, -, -, -, -, hnext⟩ := hmoves.follows hanswers hq'
    exact ⟨_, hnext⟩
  exact hrun.invariant ⟨q, hstart⟩ hmove n
