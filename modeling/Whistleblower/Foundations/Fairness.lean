import Mathlib.Order.Filter.AtTopBot.Basic

/-!
# Fairness

What must happen in a run that never ends. Nothing has to happen at a given time, but some kind of
step keeps occurring: it is `fair`. The rule for such runs is that of ranks (`reaches`). Before the
goal no step raises the rank and a fair step lowers it, so the goal cannot be put off for ever.
-/

namespace Fairness

open Filter

variable {goal fair : ℕ → Prop} {n : ℕ}

/-- What no step raises is not raised by many. -/
theorem rank_le {rank : ℕ → ℕ} (hstep : ∀ k ≥ n, rank (k + 1) ≤ rank k) {j k : ℕ} (hk : n ≤ k)
    (hle : k ≤ j) : rank j ≤ rank k := by
  induction hle with
  | refl => exact le_refl _
  | @step j hle ih => exact (hstep j (hk.trans hle)).trans ih

/-- **The rule of ranks.** -/
theorem reaches (rank : ℕ → ℕ) (hfair : ∃ᶠ k in atTop, fair k)
    (hstep : ∀ k ≥ n, ¬ goal (k + 1) → rank (k + 1) ≤ rank k)
    (hmove : ∀ k ≥ n, ¬ goal k → ¬ goal (k + 1) → fair k → rank (k + 1) < rank k) :
    ∃ N ≥ n, goal N := by
  by_contra hnever
  have hnot : ∀ k ≥ n, ¬ goal k := fun k hk hgoal ↦ hnever ⟨k, hk, hgoal⟩
  have hle : ∀ k ≥ n, rank (k + 1) ≤ rank k := fun k hk ↦ hstep k hk (hnot _ (hk.trans k.le_succ))
  -- the rank would have to be lowered more often than it can be
  have hlow : ∀ r, ∃ k ≥ n, rank k + r ≤ rank n := by
    intro r
    induction r with
    | zero => exact ⟨n, le_refl n, le_refl _⟩
    | succ r ih =>
      obtain ⟨k, hk, hrank⟩ := ih
      obtain ⟨j, hj, hfairj⟩ := frequently_atTop.1 hfair k
      have hbefore := rank_le hle hk hj
      have hnj : n ≤ j := hk.trans hj
      have hlower := hmove j hnj (hnot j hnj) (hnot _ (hnj.trans j.le_succ)) hfairj
      exact ⟨j + 1, hnj.trans j.le_succ, by omega⟩
  obtain ⟨k, -, hrank⟩ := hlow (rank n + 1)
  omega

end Fairness
