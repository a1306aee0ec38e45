import Whistleblower.Foundations.Interleaving
import Mathlib.Data.List.Nodup
import Mathlib.Data.Set.Insert

/-!
# Doing a thing once

Parties, each with a key, and a piece of work to be done once for each key. They share a set of
keys. A party that finds its key in the set leaves it at that and reports success. Otherwise it
*enters* the key, does the work, and reports success if the work succeeds; if the work fails, it
takes the key out again and reports failure.

Between entering the key and reporting, a party is *in flight*. `Inv` says what the set means at
any moment, whatever the order of the moves: a key is in it if the work for it is done or if a party
is in flight with it, and never both nor two parties at once. So the work is done once at most, and
the set is exact whenever nobody is in flight.

A report of success is another matter. A party that finds its key may have found that of a party in
flight, whose work can still fail. `reliable_iff` says that this is the only way for a report to be
wrong: in a run, every success reported at any time is backed by finished work if and only if nobody
checks for its key while a party is in flight with it.
-/

namespace OnceOnly

/-! ### States -/

/-- How far a party has got. -/
inductive Phase where
  /-- It has not begun. -/
  | waiting
  /-- It has entered its key and is at work. -/
  | working
  /-- The work has failed, and the key is still to be taken out. -/
  | failed
  /-- It has reported success. -/
  | succeeded
  /-- It has reported failure. -/
  | gaveUp

/-- The party has entered its key and not reported yet. -/
def Phase.InFlight (p : Phase) : Prop :=
  p = .working ∨ p = .failed

theorem not_inFlight_waiting : ¬ Phase.InFlight .waiting := by
  simp [Phase.InFlight]

theorem not_inFlight_succeeded : ¬ Phase.InFlight .succeeded := by
  simp [Phase.InFlight]

theorem not_inFlight_gaveUp : ¬ Phase.InFlight .gaveUp := by
  simp [Phase.InFlight]

variable {ι κ : Type}

structure State (ι κ : Type) where
  /-- The shared set. -/
  entered : Set κ
  /-- The keys for which work has been done, in order. -/
  done : List κ
  phase : ι → Phase

/-- The party is in flight. -/
def State.InFlight (s : State ι κ) (i : ι) : Prop :=
  (s.phase i).InFlight

/-- Nobody has begun. -/
structure Initial (s : State ι κ) : Prop where
  entered : s.entered = ∅
  done : s.done = []
  phase : ∀ i, s.phase i = .waiting

variable (key : ι → κ)

/-- What the set means. -/
structure Inv (s : State ι κ) : Prop where
  mem_entered : ∀ {k}, k ∈ s.entered ↔ k ∈ s.done ∨ ∃ i, s.InFlight i ∧ key i = k
  eq_of_inFlight : ∀ {i j}, s.InFlight i → s.InFlight j → key i = key j → i = j
  notMem_done : ∀ {i}, s.InFlight i → key i ∉ s.done
  nodup : s.done.Nodup

variable {key} {s t : State ι κ} {i : ι}

/-- A party that has not begun is not in flight. -/
theorem not_inFlight_of_waiting (hi : s.phase i = .waiting) : ¬ s.InFlight i := by
  rw [State.InFlight, hi]
  exact not_inFlight_waiting

theorem Initial.inv (h : Initial s) : Inv key s := by
  have hnobody : ∀ i, ¬ s.InFlight i := fun i ↦ not_inFlight_of_waiting (h.phase i)
  refine ⟨?_, fun hi ↦ absurd hi (hnobody _), fun hi ↦ absurd hi (hnobody _), ?_⟩
  · rw [h.entered, h.done]
    simp [hnobody]
  · rw [h.done]
    exact List.nodup_nil

/-- **The set is exact when nobody is in flight.** -/
theorem Inv.mem_entered_of_quiet (h : Inv key s) (hquiet : ∀ i, ¬ s.InFlight i) {k : κ} :
    k ∈ s.entered ↔ k ∈ s.done := by
  rw [h.mem_entered]
  simp [hquiet]

/-- The invariant is about the set, the finished work and who is in flight. -/
theorem Inv.congr (h : Inv key s) (hentered : t.entered = s.entered) (hdone : t.done = s.done)
    (hinFlight : ∀ j, t.InFlight j ↔ s.InFlight j) : Inv key t where
  mem_entered {k} := by
    rw [hentered, hdone, h.mem_entered]
    simp only [hinFlight]
  eq_of_inFlight hi hj := h.eq_of_inFlight ((hinFlight _).1 hi) ((hinFlight _).1 hj)
  notMem_done hi := hdone ▸ h.notMem_done ((hinFlight _).1 hi)
  nodup := hdone ▸ h.nodup

/-- A key other than that of a party in flight is in the set because of others. -/
theorem Inv.mem_entered_iff (h : Inv key s) {k : κ} (hk : k ≠ key i) :
    k ∈ s.entered ↔ k ∈ s.done ∨ ∃ j, (j ≠ i ∧ s.InFlight j) ∧ key j = k := by
  rw [h.mem_entered]
  refine or_congr_right ⟨fun ⟨j, hj, hkey⟩ ↦ ⟨j, ⟨?_, hj⟩, hkey⟩, fun ⟨j, hj, hkey⟩ ↦ ?_⟩
  · rintro rfl
    exact hk hkey.symm
  · exact ⟨j, hj.2, hkey⟩

/-! ### Moves -/

variable [DecidableEq ι]

namespace State

/-- The party goes on to the next phase. -/
def goTo (s : State ι κ) (i : ι) (p : Phase) : State ι κ :=
  { s with phase := Function.update s.phase i p }

theorem phase_goTo (s : State ι κ) (i : ι) (p : Phase) :
    (s.goTo i p).phase = Function.update s.phase i p := rfl

theorem inFlight_goTo {j : ι} {p : Phase} :
    (s.goTo i p).InFlight j ↔ j = i ∧ p.InFlight ∨ j ≠ i ∧ s.InFlight j := by
  rw [InFlight, phase_goTo, InFlight]
  by_cases hji : j = i
  · rw [hji, Function.update_self]
    simp
  · rw [Function.update_of_ne hji]
    simp [hji]

end State

/-- What a party can do next. -/
inductive Move (key : ι → κ) (i : ι) : State ι κ → State ι κ → Prop
  /-- It finds its key. -/
  | skip {s : State ι κ} : s.phase i = .waiting → key i ∈ s.entered →
      Move key i s (s.goTo i .succeeded)
  /-- It enters its key, and either sets to work or finds at once that it cannot. -/
  | enter {s : State ι κ} {p : Phase} : s.phase i = .waiting → key i ∉ s.entered → p.InFlight →
      Move key i s { s.goTo i p with entered := insert (key i) s.entered }
  | succeed {s : State ι κ} : s.phase i = .working →
      Move key i s { s.goTo i .succeeded with done := s.done ++ [key i] }
  | fail {s : State ι κ} : s.phase i = .working → Move key i s (s.goTo i .failed)
  /-- It takes its key out. -/
  | leave {s : State ι κ} : s.phase i = .failed →
      Move key i s { s.goTo i .gaveUp with entered := s.entered \ {key i} }

/-! ### One move -/

/-- Who is in flight does not change if the party is so before and after, or neither. -/
theorem inFlight_goTo_iff {p : Phase} (hp : p.InFlight ↔ s.InFlight i) {j : ι} :
    (s.goTo i p).InFlight j ↔ s.InFlight j := by
  rw [State.inFlight_goTo, hp]
  by_cases hji : j = i
  · rw [hji]
    simp
  · simp [hji]

/-- Who is in flight after the party has entered its key. -/
theorem inFlight_goTo_of {p : Phase} (hp : p.InFlight) {j : ι} :
    (s.goTo i p).InFlight j ↔ j = i ∨ s.InFlight j := by
  rw [State.inFlight_goTo]
  by_cases hji : j = i
  · simp [hji, hp]
  · simp [hji]

/-- Who is in flight after the party has reported. -/
theorem inFlight_goTo_of_not {p : Phase} (hp : ¬ p.InFlight) {j : ι} :
    (s.goTo i p).InFlight j ↔ j ≠ i ∧ s.InFlight j := by
  rw [State.inFlight_goTo]
  simp [hp]

/-- A key that is not in the set is nobody's: the party is the first with it. -/
theorem Inv.enter (h : Inv key s) (hnew : key i ∉ s.entered) {p : Phase} (hp : p.InFlight) :
    Inv key { s.goTo i p with entered := insert (key i) s.entered } := by
  have hinFlight : ∀ j, State.InFlight { s.goTo i p with entered := insert (key i) s.entered } j ↔
      j = i ∨ s.InFlight j := fun _ ↦ inFlight_goTo_of hp
  -- nobody in flight has the new key
  have hother : ∀ j, s.InFlight j → key j ≠ key i :=
    fun j hj hkey ↦ hnew (h.mem_entered.2 (.inr ⟨j, hj, hkey⟩))
  refine ⟨?_, ?_, ?_, h.nodup⟩
  · intro k
    show k ∈ insert (key i) s.entered ↔ _
    rw [Set.mem_insert_iff, h.mem_entered]
    simp only [hinFlight]
    constructor
    · rintro (rfl | hdone | ⟨j, hj, hkey⟩)
      · exact .inr ⟨i, .inl rfl, rfl⟩
      · exact .inl hdone
      · exact .inr ⟨j, .inr hj, hkey⟩
    · rintro (hdone | ⟨j, rfl | hj, hkey⟩)
      · exact .inr (.inl hdone)
      · exact .inl hkey.symm
      · exact .inr (.inr ⟨j, hj, hkey⟩)
  · intro j j' hj hj' hkey
    obtain hji | hj := (hinFlight j).1 hj
    · obtain hji' | hj' := (hinFlight j').1 hj'
      · exact hji.trans hji'.symm
      · exact absurd (hji ▸ hkey.symm) (hother j' hj')
    · obtain hji' | hj' := (hinFlight j').1 hj'
      · exact absurd (hji' ▸ hkey) (hother j hj)
      · exact h.eq_of_inFlight hj hj' hkey
  · intro j hj
    obtain rfl | hj := (hinFlight j).1 hj
    · exact fun hdone ↦ hnew (h.mem_entered.2 (.inl hdone))
    · exact h.notMem_done hj

/-- The work of a party in flight is the first done for its key. -/
theorem Inv.succeed (h : Inv key s) (hi : s.InFlight i) :
    Inv key { s.goTo i .succeeded with done := s.done ++ [key i] } := by
  have hinFlight : ∀ j, State.InFlight { s.goTo i .succeeded with done := s.done ++ [key i] } j ↔
      j ≠ i ∧ s.InFlight j := fun _ ↦ inFlight_goTo_of_not not_inFlight_succeeded
  refine ⟨?_, ?_, ?_, ?_⟩
  · intro k
    show k ∈ s.entered ↔ k ∈ s.done ++ [key i] ∨ _
    rw [List.mem_append, List.mem_singleton]
    simp only [hinFlight]
    by_cases hk : k = key i
    · have hmem : key i ∈ s.entered := h.mem_entered.2 (.inr ⟨i, hi, rfl⟩)
      rw [hk]
      simp [hmem]
    · rw [h.mem_entered_iff hk]
      simp [hk]
  · intro j j' hj hj'
    exact h.eq_of_inFlight ((hinFlight j).1 hj).2 ((hinFlight j').1 hj').2
  · intro j hj
    obtain ⟨hne, hj⟩ := (hinFlight j).1 hj
    show key j ∉ s.done ++ [key i]
    rw [List.mem_append, List.mem_singleton, not_or]
    exact ⟨h.notMem_done hj, fun hkey ↦ hne (h.eq_of_inFlight hj hi hkey)⟩
  · show (s.done ++ [key i]).Nodup
    rw [← List.concat_eq_append]
    exact h.nodup.concat (h.notMem_done hi)

/-- **Taking a key out takes no other's entry out**: the key was in the set for this party alone. -/
theorem Inv.leave (h : Inv key s) (hi : s.InFlight i) :
    Inv key { s.goTo i .gaveUp with entered := s.entered \ {key i} } := by
  have hinFlight : ∀ j, State.InFlight
      { s.goTo i .gaveUp with entered := s.entered \ {key i} } j ↔ j ≠ i ∧ s.InFlight j :=
    fun _ ↦ inFlight_goTo_of_not not_inFlight_gaveUp
  refine ⟨?_, ?_, ?_, h.nodup⟩
  · intro k
    show k ∈ s.entered \ {key i} ↔ k ∈ s.done ∨ _
    rw [Set.mem_sdiff, Set.mem_singleton_iff]
    simp only [hinFlight]
    by_cases hk : k = key i
    · have hothers : ¬ ∃ j, (j ≠ i ∧ s.InFlight j) ∧ key j = key i :=
        fun ⟨j, ⟨hne, hj⟩, hkey⟩ ↦ hne (h.eq_of_inFlight hj hi hkey)
      rw [hk]
      simp only [not_true, and_false, h.notMem_done hi, hothers, or_self]
    · rw [h.mem_entered_iff hk]
      simp [hk]
  · intro j j' hj hj'
    exact h.eq_of_inFlight ((hinFlight j).1 hj).2 ((hinFlight j').1 hj').2
  · intro j hj
    exact h.notMem_done ((hinFlight j).1 hj).2

theorem Inv.move (h : Inv key s) (hmove : Move key i s t) : Inv key t := by
  cases hmove with
  | skip hi hmem =>
    exact h.congr rfl rfl fun _ ↦
      inFlight_goTo_iff (iff_of_false not_inFlight_succeeded (not_inFlight_of_waiting hi))
  | enter hi hnew hp => exact h.enter hnew hp
  | succeed hi => exact h.succeed (.inl hi)
  | fail hi =>
    exact h.congr rfl rfl fun _ ↦ inFlight_goTo_iff (iff_of_true (.inr rfl) (.inl hi))
  | leave hi => exact h.leave (.inr hi)

/-! ### Reports -/

variable (key)

/-- Every success reported is backed by finished work. -/
def Reliable (s : State ι κ) : Prop :=
  ∀ i, s.phase i = .succeeded → key i ∈ s.done

/-- The party is about to look for its key, and another is in flight with it. -/
def Overlaps (s : State ι κ) (i : ι) : Prop :=
  s.phase i = .waiting ∧ ∃ j, s.InFlight j ∧ key j = key i

variable {key}

/-- Reports are not taken back, and finished work stays finished. -/
theorem Reliable.goTo (h : Reliable key s) {p : Phase} (ht : t.phase = Function.update s.phase i p)
    (hdone : s.done ⊆ t.done) (hp : p = .succeeded → key i ∈ t.done) : Reliable key t := by
  intro j hj
  rw [ht] at hj
  by_cases hji : j = i
  · rw [hji, Function.update_self] at hj
    rw [hji]
    exact hp hj
  · rw [Function.update_of_ne hji] at hj
    exact hdone (h j hj)

/-- **One move keeps reports reliable exactly if it does not overlap.** -/
theorem Inv.reliable_iff (h : Inv key s) (hreliable : Reliable key s) (hmove : Move key i s t) :
    Reliable key t ↔ ¬ Overlaps key s i := by
  cases hmove with
  | skip hi hmem =>
    have hphase : (s.goTo i .succeeded).phase i = .succeeded := Function.update_self ..
    constructor
    · rintro hreliable' ⟨-, j, hj, hkey⟩
      exact h.notMem_done hj (hkey ▸ hreliable' i hphase)
    · intro hoverlaps
      refine hreliable.goTo rfl (List.Subset.refl _) fun _ ↦ ?_
      obtain hdone | hothers := h.mem_entered.1 hmem
      · exact hdone
      · exact absurd ⟨hi, hothers⟩ hoverlaps
  | enter hi hnew hp =>
    refine iff_of_true (hreliable.goTo rfl (List.Subset.refl _) fun hp' ↦ ?_) fun hoverlaps ↦ ?_
    · exact absurd (hp' ▸ hp) not_inFlight_succeeded
    · exact hnew (h.mem_entered.2 (.inr hoverlaps.2))
  | succeed hi =>
    refine iff_of_true (hreliable.goTo rfl (List.subset_append_left _ _) fun _ ↦ ?_)
      fun hoverlaps ↦ ?_
    · exact List.mem_append_right _ (List.mem_singleton_self _)
    · exact absurd (hi.symm.trans hoverlaps.1) (by simp)
  | fail hi =>
    refine iff_of_true (hreliable.goTo rfl (List.Subset.refl _) fun hp ↦ ?_) fun hoverlaps ↦ ?_
    · exact absurd hp (by simp)
    · exact absurd (hi.symm.trans hoverlaps.1) (by simp)
  | leave hi =>
    refine iff_of_true (hreliable.goTo rfl (List.Subset.refl _) fun hp ↦ ?_) fun hoverlaps ↦ ?_
    · exact absurd hp (by simp)
    · exact absurd (hi.symm.trans hoverlaps.1) (by simp)

/-! ### Runs -/

variable {run : ℕ → State ι κ} {actor : ℕ → Option ι}

theorem inv_of_run (hrun : IsRun (Move key) run actor) (hstart : Initial (run 0)) (n : ℕ) :
    Inv key (run n) :=
  hrun.invariant hstart.inv (fun _ _ _ ↦ Inv.move) n

/-- **When reports can be relied on**: at every moment of a run, if and only if nobody looks for its
key while another is in flight with it. -/
theorem reliable_iff (hrun : IsRun (Move key) run actor) (hstart : Initial (run 0)) :
    (∀ n, Reliable key (run n)) ↔ ∀ n i, actor n = some i → ¬ Overlaps key (run n) i := by
  have hinv := inv_of_run hrun hstart
  constructor
  · intro hreliable n i hactor
    exact ((hinv n).reliable_iff (hreliable n) (hrun.move hactor)).1 (hreliable (n + 1))
  · intro hoverlaps n
    induction n with
    | zero =>
      intro i hi
      rw [hstart.phase i] at hi
      exact absurd hi (by simp)
    | succ n ih =>
      cases hactor : actor n with
      | none =>
        rw [hrun.idle hactor]
        exact ih
      | some i => exact ((hinv n).reliable_iff ih (hrun.move hactor)).2 (hoverlaps n i hactor)

end OnceOnly
