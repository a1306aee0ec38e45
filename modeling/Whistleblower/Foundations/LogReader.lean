import Whistleblower.Foundations.Paging

/-!
# Reading a log that grows

A log is appended to while it is read. At each turn the reader is offered the page at its position,
and accepts it or refuses it, for reasons of its own. Whatever it refuses, it has read a beginning
of the log at every time (`read_append_page_prefix_log`), and this is what it has accepted so far,
page after page (`read_eq_flatMap`): nothing has been left out, and nothing has been read twice.

A reader that keeps no position, but the greatest key it has met, is offered the same pages if the
keys ascend (`List.filter_eq_drop`).
-/

namespace List

variable {α : Type*} {p : α → Bool} {l : List α} {n : ℕ}

/-- A filter that leaves out the first `n` elements and nothing else. -/
theorem filter_eq_drop (hbefore : ∀ a ∈ l.take n, p a = false)
    (hafter : ∀ a ∈ l.drop n, p a = true) : l.filter p = l.drop n := by
  have hnone : (l.take n).filter p = [] :=
    filter_eq_nil_iff.2 fun a ha h ↦ absurd ((hbefore a ha).symm.trans h) Bool.false_ne_true
  calc l.filter p = (l.take n ++ l.drop n).filter p := by rw [take_append_drop]
    _ = l.drop n := by rw [filter_append, hnone, nil_append, filter_eq_self.2 hafter]

end List

/-- A log that is appended to, and a reader of it: how much it is offered at a turn, and whether it
accepts the page. -/
structure LogReader (α : Type) where
  log : ℕ → List α
  grows : ∀ n, log n <+: log (n + 1)
  size : ℕ → ℕ
  accepts : ℕ → List α → Bool

namespace LogReader

variable {α : Type} (R : LogReader α)

/-- Where the reader is before a turn. -/
def position : ℕ → ℕ
  | 0 => 0
  | n + 1 =>
    let page := Paging.page (R.size n) (R.log n) (position n)
    position n + if R.accepts n page then page.length else 0

/-- The page that is offered at a turn. -/
def page (n : ℕ) : List α :=
  Paging.page (R.size n) (R.log n) (R.position n)

/-- What is accepted of it: everything, or nothing. -/
def taken (n : ℕ) : List α :=
  if R.accepts n (R.page n) then R.page n else []

/-- What has been read before a turn. -/
def read (n : ℕ) : List α :=
  (R.log n).take (R.position n)

variable {R} {n : ℕ}

theorem taken_of_accepts (h : R.accepts n (R.page n) = true) : R.taken n = R.page n :=
  if_pos h

theorem taken_of_refuses (h : R.accepts n (R.page n) = false) : R.taken n = [] := by
  rw [taken, h, if_neg Bool.false_ne_true]

theorem position_succ : R.position (n + 1) = R.position n + (R.taken n).length := by
  show R.position n + (if R.accepts n (R.page n) then (R.page n).length else 0) = _
  rw [taken]
  split
  · rfl
  · rfl

theorem read_zero : R.read 0 = [] :=
  List.take_zero

/-- **What has been read and what is offered** are a beginning of the log. -/
theorem read_append_page_prefix_log (n : ℕ) : R.read n ++ R.page n <+: R.log n := by
  rw [read, page, Paging.page, ← List.take_add]
  exact List.take_prefix _ _

theorem taken_prefix_page (n : ℕ) : R.taken n <+: R.page n := by
  rw [taken]
  split
  · exact List.prefix_refl _
  · exact List.nil_prefix

/-- The position is not beyond the end. -/
theorem position_le_length (n : ℕ) : R.position n ≤ (R.log n).length := by
  induction n with
  | zero => exact Nat.zero_le _
  | succ n ih =>
    have htaken := (taken_prefix_page (R := R) n).length_le
    have hgrows := (R.grows n).length_le
    rw [page, Paging.length_page] at htaken
    rw [position_succ]
    omega

/-- Where a reader is that accepts everything, in a log that stays as it is. -/
theorem position_of_accepts {l : List α} {b : ℕ} (hlog : ∀ n, R.log n = l)
    (hsize : ∀ n, R.size n = b) (haccepts : ∀ n page, R.accepts n page = true) (n : ℕ) :
    R.position n = min (n * b) l.length := by
  induction n with
  | zero => rw [Nat.zero_mul, Nat.zero_min, position]
  | succ n ih =>
    rw [position_succ, taken_of_accepts (haccepts n _), page, Paging.length_page, hlog, hsize, ih,
      Nat.succ_mul]
    omega

/-- **One turn.** -/
theorem read_succ (n : ℕ) : R.read (n + 1) = R.read n ++ R.taken n := by
  have hprefix : R.read n ++ R.taken n <+: R.log (n + 1) := by
    refine List.IsPrefix.trans ?_ (R.grows n)
    exact ((List.prefix_append_right_inj _).2 (taken_prefix_page n)).trans
      (read_append_page_prefix_log n)
  have hlength : (R.read n ++ R.taken n).length = R.position (n + 1) := by
    rw [List.length_append, read, List.length_take_of_le (position_le_length n), position_succ]
  rw [read, ← hlength]
  exact (List.prefix_iff_eq_take.1 hprefix).symm

/-- **What has been read** is what has been accepted. -/
theorem read_eq_flatMap (n : ℕ) : R.read n = (List.range n).flatMap R.taken := by
  induction n with
  | zero => exact read_zero
  | succ n ih => rw [read_succ, ih, List.range_succ, List.flatMap_append, List.flatMap_singleton]

end LogReader
