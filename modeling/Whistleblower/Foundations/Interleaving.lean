import Whistleblower.Foundations.Process
import Mathlib.Data.Nat.Notation
import Mathlib.Logic.Function.Basic

/-!
# Interleavings

Parties that take turns. A run says, for each moment, the state and the party that moves next, if
one does; what a party may do is a relation, so a run is any order of any moves. `IsRun.invariant`
is the induction along a run, and `IsRun.map` carries a run over to a coarser system.

The parties of a `Pool` are processes over one world. A move of a process is its next call,
whatever the answer; that all the others stay where they are is `Function.update`. `Pool.isRun_play`
gives concrete runs: every schedule is one, against a handler that answers as the world may.
-/

variable {ι σ τ : Type}

/-- A run: at each moment one party moves, or nothing happens. -/
structure IsRun (Move : ι → σ → σ → Prop) (s : ℕ → σ) (actor : ℕ → Option ι) : Prop where
  idle : ∀ {n}, actor n = none → s (n + 1) = s n
  move : ∀ {n i}, actor n = some i → Move i (s n) (s (n + 1))

namespace IsRun

variable {Move : ι → σ → σ → Prop} {s : ℕ → σ} {actor : ℕ → Option ι}

/-- What every move keeps holds all along, if it holds at the beginning. -/
theorem invariant (hrun : IsRun Move s actor) {Inv : σ → Prop} (hstart : Inv (s 0))
    (hmove : ∀ i s t, Inv s → Move i s t → Inv t) (n : ℕ) : Inv (s n) := by
  induction n with
  | zero => exact hstart
  | succ n ih =>
    cases hactor : actor n with
    | none =>
      rw [hrun.idle hactor]
      exact ih
    | some i => exact hmove i _ _ ih (hrun.move hactor)

/-- A map that turns the moves of one system into moves of another turns runs into runs. It has to
do so on the states of the run alone. -/
theorem map (hrun : IsRun Move s actor) {Move' : ι → τ → τ → Prop} (f : σ → τ)
    (hmove : ∀ n i, Move i (s n) (s (n + 1)) → Move' i (f (s n)) (f (s (n + 1)))) :
    IsRun Move' (fun n ↦ f (s n)) actor where
  idle hactor := congrArg f (hrun.idle hactor)
  move hactor := hmove _ _ (hrun.move hactor)

end IsRun

/-- Processes over one world. -/
structure Pool {Op : Type} (Ret : Op → Type) (ε α σ ι : Type) where
  world : σ
  process : ι → Process Ret ε α

namespace Pool

variable {Op : Type} {Ret : Op → Type} {ε α : Type} [DecidableEq ι]

/-- The pool after a process has got this far and left the world so. -/
def advance (c : Pool Ret ε α σ ι) (i : ι) (p : Process Ret ε α) (t : σ) : Pool Ret ε α σ ι where
  world := t
  process := Function.update c.process i p

@[simp] theorem world_advance (c : Pool Ret ε α σ ι) (i : ι) (p : Process Ret ε α) (t : σ) :
    (c.advance i p t).world = t := rfl

@[simp] theorem process_advance (c : Pool Ret ε α σ ι) (i : ι) (p : Process Ret ε α) (t : σ) :
    (c.advance i p t).process = Function.update c.process i p := rfl

/-- A process makes its next call. -/
inductive Moves (performs : (o : Op) → σ → Ret o → σ → Prop) (i : ι) :
    Pool Ret ε α σ ι → Pool Ret ε α σ ι → Prop
  | call {c o k r t} : c.process i = .op o k → performs o c.world r t →
      Moves performs i c (c.advance i (k r) t)

/-! ### Schedules -/

variable (h : (o : Op) → σ → Ret o × σ)

/-- One turn of a process, its call answered by the handler. A process that has ended does
nothing. -/
def turn (c : Pool Ret ε α σ ι) (i : ι) : Pool Ret ε α σ ι :=
  match c.process i with
  | .op o k => c.advance i (k (h o c.world).1) (h o c.world).2
  | _ => c

/-- The pool at each moment of a schedule. -/
def play (c : Pool Ret ε α σ ι) (schedule : ℕ → Option ι) : ℕ → Pool Ret ε α σ ι
  | 0 => c
  | n + 1 =>
    match schedule n with
    | some i => turn h (play c schedule n) i
    | none => play c schedule n

/-- The process has not ended. -/
def running (c : Pool Ret ε α σ ι) (i : ι) : Bool :=
  match c.process i with
  | .op _ _ => true
  | _ => false

variable {h} {performs : (o : Op) → σ → Ret o → σ → Prop}

/-- A turn is a move, or there is nothing left to do. -/
theorem turn_cases (hperforms : ∀ o s, performs o s (h o s).1 (h o s).2) (c : Pool Ret ε α σ ι)
    (i : ι) :
    c.running i = false ∧ c.turn h i = c ∨
      c.running i = true ∧ Moves performs i c (c.turn h i) := by
  rw [running, turn]
  cases hprocess : c.process i with
  | op o k => exact .inr ⟨rfl, .call hprocess (hperforms o c.world)⟩
  | _ => exact .inl ⟨rfl, rfl⟩

/-- **Every schedule gives a run**, in which whoever is scheduled moves, unless it has ended. -/
theorem isRun_play (hperforms : ∀ o s, performs o s (h o s).1 (h o s).2) (c : Pool Ret ε α σ ι)
    (schedule : ℕ → Option ι) :
    IsRun (Moves performs) (c.play h schedule)
      fun n ↦ (schedule n).filter (c.play h schedule n).running := by
  refine ⟨fun {n} hactor ↦ ?_, fun {n i} hactor ↦ ?_⟩
  · rw [play]
    cases hschedule : schedule n with
    | none => rfl
    | some i =>
      rw [hschedule, Option.filter_some] at hactor
      obtain ⟨-, hstay⟩ | ⟨hrunning, -⟩ := turn_cases hperforms (c.play h schedule n) i
      · exact hstay
      · rw [hrunning] at hactor
        exact absurd hactor (by simp)
  · obtain ⟨hschedule, hrunning⟩ := Option.filter_eq_some_iff.1 hactor
    obtain ⟨hstopped, -⟩ | ⟨-, hmoves⟩ := turn_cases hperforms (c.play h schedule n) i
    · rw [hstopped] at hrunning
      exact absurd hrunning (by simp)
    · rw [play, hschedule]
      exact hmoves

end Pool
