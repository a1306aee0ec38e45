import Mathlib.Data.List.Perm.Subperm
import Mathlib.Order.Lattice
import Mathlib.Order.Defs.LinearOrder

/-!
# Replaying a log onto a map

A log whose entries have keys, and a map that takes the first entry it is given under each key. Any
number of writers read the log and write stretches of it to the map, in any order, over each other,
and with entries left out that the map has already.

`Follows` says that the map is what a *prefix* of the log makes of it. It is kept by every write of
a stretch before which nothing is missing in the map (`Follows.write`): either the map is already
further, and the write changes nothing, or it is brought to the end of the stretch. How the log has
been cut into stretches, and who has written them, does not show.
-/

variable {α β κ : Type*} [DecidableEq κ]

namespace List

/-- Leaving out elements that are not looked for leaves the first one found. -/
theorem find?_eq_of_sublist {p : α → Bool} {l l' : List α} (hnodup : l.Nodup) (hsub : l'.Sublist l)
    (hall : ∀ a ∈ l, p a = true → a ∈ l') : l'.find? p = l.find? p := by
  have hsubset : l.filter p ⊆ l'.filter p := fun a ha ↦
    mem_filter.2 ⟨hall a (mem_filter.1 ha).1 (mem_filter.1 ha).2, (mem_filter.1 ha).2⟩
  have hfilter : l'.filter p = l.filter p :=
    (hsub.filter p).eq_of_length_le (List.subperm_of_subset (hnodup.filter p) hsubset).length_le
  rw [← head?_filter, ← head?_filter, hfilter]

end List

/-- The map is first-write-wins of a prefix of the log. -/
def Follows (key : α → Option κ) (val : α → β) (log : List α) (m : κ → Option β) : Prop :=
  ∃ n, ∀ k, m k = ((log.take n).find? fun a ↦ key a = some k).map val

namespace Follows

variable {key : α → Option κ} {val : α → β} {log : List α} {m : κ → Option β}

/-- **What is in the map** is the first entry of the whole log under its key. -/
theorem eq_find? (h : Follows key val log m) {k : κ} {b : β} (hk : m k = some b) :
    (log.find? fun a ↦ key a = some k).map val = some b := by
  obtain ⟨n, hn⟩ := h
  rw [hn k] at hk
  obtain ⟨a, ha, rfl⟩ := Option.map_eq_some_iff.1 hk
  have hstart : log.take n <+: log := List.take_prefix n log
  rw [hstart.find?_eq_some ha, Option.map_some]

/-- **Writing a stretch of the log**, with nothing missing before it, and with nothing left out of
it but what is in the map. -/
theorem write {before page rest kept : List α} (hlog : log = before ++ page ++ rest)
    (h : Follows key val log m)
    (hbefore : ∀ a ∈ before, ∀ k, key a = some k → (m k).isSome)
    (hnodup : page.Nodup) (hsub : kept.Sublist page)
    (hskipped : ∀ a ∈ page, a ∈ kept ∨ ∀ k, key a = some k → (m k).isSome) :
    Follows key val log fun k ↦ (m k).or ((kept.find? fun a ↦ key a = some k).map val) := by
  obtain ⟨n, hn⟩ := h
  have hstretch : log.take (before ++ page).length = before ++ page := by
    rw [hlog, List.take_left']
    rfl
  refine ⟨max n (before ++ page).length, fun k ↦ ?_⟩
  show (m k).or _ = _
  cases hk : m k with
  | some b =>
    -- the map keeps what it has, which is the first entry of any longer prefix too
    rw [Option.some_or]
    rw [hn k] at hk
    obtain ⟨a, ha, rfl⟩ := Option.map_eq_some_iff.1 hk
    have hstart : log.take n <+: log.take (max n (before ++ page).length) :=
      List.take_prefix_take_left (le_max_left _ _)
    rw [hstart.find?_eq_some ha, Option.map_some]
  | none =>
    have hmissing : ¬ (m k).isSome := by rw [hk]; exact Bool.false_ne_true
    have hkept : kept.find? (fun a ↦ key a = some k) = page.find? fun a ↦ key a = some k := by
      refine List.find?_eq_of_sublist hnodup hsub fun a ha hkey ↦ ?_
      exact (hskipped a ha).resolve_right fun hall ↦ hmissing (hall k (of_decide_eq_true hkey))
    rw [Option.none_or, hkept]
    rcases le_or_gt n (before ++ page).length with hle | hgt
    · -- the map is brought to the end of the stretch
      have hnone : before.find? (fun a ↦ key a = some k) = none :=
        List.find?_eq_none.2 fun a ha hkey ↦ hmissing (hbefore a ha k (of_decide_eq_true hkey))
      rw [max_eq_right hle, hstretch, List.find?_append, hnone, Option.none_or]
    · -- the map is further already, and without an entry under this key
      have hnone : (log.take n).find? (fun a ↦ key a = some k) = none :=
        Option.map_eq_none_iff.1 ((hn k).symm.trans hk)
      have hpage : page.find? (fun a ↦ key a = some k) = none := by
        refine List.find?_eq_none.2 fun a ha ↦ List.find?_eq_none.1 hnone a ?_
        have hmem : a ∈ log.take (before ++ page).length := by
          rw [hstretch]
          exact List.mem_append_right _ ha
        exact (List.take_prefix_take_left hgt.le).subset hmem
      rw [max_eq_left hgt.le, hnone, hpage]

end Follows
