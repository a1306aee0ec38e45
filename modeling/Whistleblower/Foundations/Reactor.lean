import Mathlib.Data.List.Basic

/-!
# Reactors

A component that reacts to events: a step takes a state and an event to the next state and to what
is put out, or refuses the event. `run` feeds it a list of events and collects what is put out.

There are two rules. `invariant` is about one run: what every step keeps to, of the events so far,
the state and the outputs so far, holds after every run. `simulates` is about two: if related states
react to related events alike, two runs on related events look alike to an observer of the outputs.
The second is how a property is shown that no single run can witness, such as that something kept
secret does not show.

What a property speaks of need not be in the state. `audited` keeps an account of the steps beside
the component, which does not know of it (`exists_run_audited`).
-/

/-- A state machine with outputs. -/
structure Reactor (σ ε ω : Type*) where
  /-- The reaction to an event, if it is not refused. -/
  step : σ → ε → Option (σ × List ω)

namespace Reactor

variable {σ ε ω κ : Type*}

/-- React to the events in order. One that is refused ends it. -/
def run (m : Reactor σ ε ω) : σ → List ε → Option (σ × List ω)
  | s, [] => some (s, [])
  | s, e :: es => (m.step s e).bind fun p ↦ (m.run p.1 es).map fun q ↦ (q.1, p.2 ++ q.2)

variable {m : Reactor σ ε ω} {s t : σ} {e : ε} {es : List ε} {os : List ω}

theorem run_nil_eq_some : m.run s [] = some (t, os) ↔ t = s ∧ os = [] := by
  rw [run, Option.some.injEq, Prod.mk.injEq, eq_comm, @eq_comm _ [] os]

/-- A run is a first step and the run from there. -/
theorem run_cons_eq_some : m.run s (e :: es) = some (t, os) ↔
    ∃ s' out rest, m.step s e = some (s', out) ∧ m.run s' es = some (t, rest) ∧
      os = out ++ rest := by
  rw [run, Option.bind_eq_some_iff]
  constructor
  · rintro ⟨⟨s', out⟩, hstep, hrun⟩
    obtain ⟨⟨t', rest⟩, hrest, heq⟩ := Option.map_eq_some_iff.1 hrun
    obtain ⟨rfl, rfl⟩ := Prod.mk.inj heq
    exact ⟨s', out, rest, hstep, hrest, rfl⟩
  · rintro ⟨s', out, rest, hstep, hrest, rfl⟩
    exact ⟨(s', out), hstep, by rw [hrest, Option.map_some]⟩

/-- **The rule of invariants**, with the events and the outputs so far. -/
theorem invariant {I : List ε → σ → List ω → Prop}
    (hstep : ∀ {done s out e s' out'}, I done s out → m.step s e = some (s', out') →
      I (done ++ [e]) s' (out ++ out'))
    {done : List ε} {out : List ω} (hinv : I done s out) (hrun : m.run s es = some (t, os)) :
    I (done ++ es) t (out ++ os) := by
  induction es generalizing s done out os with
  | nil =>
    obtain ⟨rfl, rfl⟩ := run_nil_eq_some.1 hrun
    rw [List.append_nil, List.append_nil]
    exact hinv
  | cons e es ih =>
    obtain ⟨s', out', rest, hfirst, hrest, rfl⟩ := run_cons_eq_some.1 hrun
    have hlast := ih (hstep hinv hfirst) hrest
    rwa [List.append_assoc, List.append_assoc, List.singleton_append] at hlast

/-- The rule of invariants of the state alone. -/
theorem keeps {I : σ → Prop} (hstep : ∀ {s e s' out}, I s → m.step s e = some (s', out) → I s')
    (hinv : I s) (hrun : m.run s es = some (t, os)) : I t :=
  @invariant σ ε ω m s t es os (fun _ s _ ↦ I s) hstep [] [] hinv hrun

/-- **The rule of simulation.** Related states react to related events so that the observed outputs
are the same and the next states are related again. -/
theorem simulates {R : σ → σ → Prop} {E : ε → ε → Prop} {observe : ω → Option κ}
    (hstep : ∀ {s t e e' s' out}, R s t → E e e' → m.step s e = some (s', out) →
      ∃ t' out', m.step t e' = some (t', out') ∧ R s' t' ∧
        out'.filterMap observe = out.filterMap observe)
    {s' : σ} {es' : List ε} (hrelated : R s t) (hevents : List.Forall₂ E es es')
    (hrun : m.run s es = some (s', os)) :
    ∃ t' os', m.run t es' = some (t', os') ∧ R s' t' ∧
      os'.filterMap observe = os.filterMap observe := by
  induction hevents generalizing s t os with
  | nil =>
    obtain ⟨rfl, rfl⟩ := run_nil_eq_some.1 hrun
    exact ⟨t, [], rfl, hrelated, rfl⟩
  | cons hevent _ ih =>
    obtain ⟨middle, out, rest, hfirst, hrest, rfl⟩ := run_cons_eq_some.1 hrun
    obtain ⟨middle', out', hfirst', hmiddle, hsame⟩ := hstep hrelated hevent hfirst
    obtain ⟨t', rest', hrest', hlast, hsame'⟩ := ih hmiddle hrest
    refine ⟨t', out' ++ rest', run_cons_eq_some.2 ⟨middle', out', rest', hfirst', hrest', rfl⟩,
      hlast, ?_⟩
    rw [List.filterMap_append, List.filterMap_append, hsame, hsame']

/-! ### Keeping an account -/

section Audited

variable (m) (enter : κ → σ → ε → σ → List ω → κ)

/-- The component with an account beside it, in which every step is entered. -/
def audited : Reactor (σ × κ) ε ω where
  step p e := (m.step p.1 e).map fun r ↦ ((r.1, enter p.2 p.1 e r.1 r.2), r.2)

variable {m enter} {k k' : κ}

theorem audited_step_eq_some {out : List ω} :
    (m.audited enter).step (s, k) e = some ((t, k'), out) ↔
      m.step s e = some (t, out) ∧ k' = enter k s e t out := by
  rw [audited, Option.map_eq_some_iff]
  constructor
  · rintro ⟨⟨t', out'⟩, hstep, heq⟩
    obtain ⟨hstate, rfl⟩ := Prod.mk.inj heq
    obtain ⟨rfl, rfl⟩ := Prod.mk.inj hstate
    exact ⟨hstep, rfl⟩
  · rintro ⟨hstep, rfl⟩
    exact ⟨(t, out), hstep, rfl⟩

/-- **The account changes nothing**: every run goes through with one. -/
theorem exists_run_audited (k : κ) (hrun : m.run s es = some (t, os)) :
    ∃ k', (m.audited enter).run (s, k) es = some ((t, k'), os) := by
  induction es generalizing s k os with
  | nil =>
    obtain ⟨rfl, rfl⟩ := run_nil_eq_some.1 hrun
    exact ⟨k, rfl⟩
  | cons e es ih =>
    obtain ⟨s', out, rest, hfirst, hrest, rfl⟩ := run_cons_eq_some.1 hrun
    obtain ⟨k', hk'⟩ := ih (enter k s e s' out) hrest
    exact ⟨k', run_cons_eq_some.2
      ⟨_, out, rest, audited_step_eq_some.2 ⟨hfirst, rfl⟩, hk', rfl⟩⟩

end Audited

end Reactor
