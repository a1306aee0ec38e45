import Mathlib.Data.Finset.Lattice.Lemmas
import Mathlib.Data.List.Nodup
import Mathlib.Data.Finset.Union

/-!
# First occurrences by key

`freshBy key seen l` keeps the elements of `l` whose key is neither in `seen` nor the key of an
earlier element of `l`. It is the reference for anything that registers keyed entries once and
ignores every later entry under a registered key.

A second reading of the same operation is the **first-write-wins map** `firstWins`: a partial map
keeps what it has, and takes the first entry of `l` under every other key. The map view is the
weaker one: it does not see how often a key is recorded, only what is recorded first. A component
that records a key twice can therefore refine `firstWins` while it does not compute `freshBy`.
-/

variable {α κ : Type*} [DecidableEq κ]

namespace List

/-! ### The kept entries -/

/-- The elements of the list whose key is neither in `seen` nor the key of an earlier element. -/
def freshBy (key : α → κ) : Finset κ → List α → List α
  | _, [] => []
  | seen, a :: l =>
    if key a ∈ seen then freshBy key seen l else a :: freshBy key (insert (key a) seen) l

variable {key : α → κ} {seen : Finset κ} {a : α} {l l₁ l₂ : List α}

@[simp] theorem freshBy_nil : ([] : List α).freshBy key seen = [] := rfl

theorem freshBy_cons_of_mem (h : key a ∈ seen) :
    (a :: l).freshBy key seen = l.freshBy key seen := by
  rw [freshBy, if_pos h]

theorem freshBy_cons_of_notMem (h : key a ∉ seen) :
    (a :: l).freshBy key seen = a :: l.freshBy key (insert (key a) seen) := by
  rw [freshBy, if_neg h]

theorem freshBy_sublist (key : α → κ) (seen : Finset κ) (l : List α) :
    l.freshBy key seen <+ l := by
  induction l generalizing seen with
  | nil => exact Sublist.refl _
  | cons a l ih =>
    by_cases h : key a ∈ seen
    · rw [freshBy_cons_of_mem h]
      exact (ih seen).cons a
    · rw [freshBy_cons_of_notMem h]
      exact (ih _).cons_cons a

/-- Nothing already seen is kept. -/
theorem key_notMem_of_mem_freshBy (h : a ∈ l.freshBy key seen) : key a ∉ seen := by
  induction l generalizing seen with
  | nil => simp at h
  | cons b l ih =>
    by_cases hb : key b ∈ seen
    · rw [freshBy_cons_of_mem hb] at h
      exact ih h
    · rw [freshBy_cons_of_notMem hb, mem_cons] at h
      rcases h with rfl | h
      · exact hb
      · exact fun ha ↦ ih h (Finset.mem_insert_of_mem ha)

/-- **No key is kept twice.** -/
theorem nodup_map_freshBy (key : α → κ) (seen : Finset κ) (l : List α) :
    ((l.freshBy key seen).map key).Nodup := by
  induction l generalizing seen with
  | nil => simp
  | cons a l ih =>
    by_cases h : key a ∈ seen
    · rw [freshBy_cons_of_mem h]
      exact ih seen
    · rw [freshBy_cons_of_notMem h, map_cons, nodup_cons]
      refine ⟨?_, ih _⟩
      rw [mem_map]
      rintro ⟨b, hb, hkey⟩
      exact key_notMem_of_mem_freshBy hb (hkey ▸ Finset.mem_insert_self _ _)

/-- Every key of the list is seen or kept, and nothing else is. -/
theorem mem_or_mem_keys_freshBy {k : κ} :
    k ∈ seen ∨ k ∈ (l.freshBy key seen).map key ↔ k ∈ seen ∨ k ∈ l.map key := by
  induction l generalizing seen with
  | nil => simp
  | cons a l ih =>
    by_cases h : key a ∈ seen
    · rw [freshBy_cons_of_mem h, ih, map_cons, mem_cons]
      constructor
      · rintro (hk | hk)
        · exact Or.inl hk
        · exact Or.inr (Or.inr hk)
      · rintro (hk | rfl | hk)
        · exact Or.inl hk
        · exact Or.inl h
        · exact Or.inr hk
    · have hins : k ∈ insert (key a) seen ∨ k ∈ (l.freshBy key (insert (key a) seen)).map key ↔
          k ∈ insert (key a) seen ∨ k ∈ l.map key := ih
      rw [Finset.mem_insert] at hins
      rw [freshBy_cons_of_notMem h, map_cons, map_cons, mem_cons, mem_cons]
      tauto

/-- Keys kept from the first part count as seen for the second. -/
theorem freshBy_append (key : α → κ) (seen : Finset κ) (l₁ l₂ : List α) :
    (l₁ ++ l₂).freshBy key seen =
      l₁.freshBy key seen ++
        l₂.freshBy key (seen ∪ ((l₁.freshBy key seen).map key).toFinset) := by
  induction l₁ generalizing seen with
  | nil => simp
  | cons a l ih =>
    by_cases h : key a ∈ seen
    · rw [cons_append, freshBy_cons_of_mem h, freshBy_cons_of_mem h, ih]
    · rw [cons_append, freshBy_cons_of_notMem h, freshBy_cons_of_notMem h, ih, cons_append,
        map_cons, toFinset_cons, Finset.union_insert, Finset.insert_union]

/-- A list whose keys are all seen adds nothing. -/
theorem freshBy_eq_nil (h : ∀ a ∈ l, key a ∈ seen) : l.freshBy key seen = [] := by
  rw [eq_nil_iff_forall_not_mem]
  intro a ha
  exact key_notMem_of_mem_freshBy ha (h a ((freshBy_sublist key seen l).subset ha))

/-- Filtering by the seen keys alone keeps every fresh entry once exactly when the fresh entries
have distinct keys. -/
theorem freshBy_eq_filter_iff :
    l.freshBy key seen = l.filter (fun a ↦ key a ∉ seen) ↔
      ((l.filter fun a ↦ key a ∉ seen).map key).Nodup := by
  refine ⟨fun h ↦ h ▸ nodup_map_freshBy key seen l, fun h ↦ ?_⟩
  induction l generalizing seen with
  | nil => rfl
  | cons a l ih =>
    by_cases ha : key a ∈ seen
    · rw [freshBy_cons_of_mem ha, filter_cons_of_neg (by simpa using ha)]
      rw [filter_cons_of_neg (by simpa using ha)] at h
      exact ih h
    · rw [filter_cons_of_pos (by simpa using ha), map_cons, nodup_cons] at h
      have hfilter : l.filter (fun b ↦ key b ∉ insert (key a) seen) =
          l.filter fun b ↦ key b ∉ seen := by
        refine filter_congr fun b hb ↦ ?_
        have hne : key b ∉ seen → key b ≠ key a := fun hbs heq ↦
          h.1 (mem_map.2 ⟨b, mem_filter.2 ⟨hb, by simpa using hbs⟩, heq⟩)
        simp only [Finset.mem_insert, not_or, decide_eq_decide]
        exact ⟨fun hb ↦ hb.2, fun hb ↦ ⟨hne hb, hb⟩⟩
      rw [freshBy_cons_of_notMem ha, filter_cons_of_pos (by simpa using ha),
        ih (by rw [hfilter]; exact h.2), hfilter]

/-! ### The map view -/

/-- **First write wins**: keep what the map has, take the first entry under every other key. -/
def firstWins (key : α → κ) (m : κ → Option α) (l : List α) : κ → Option α :=
  fun k ↦ (m k).or (l.find? fun a ↦ key a = k)

theorem firstWins_append (m : κ → Option α) :
    (l₁ ++ l₂).firstWins key m = l₂.firstWins key (l₁.firstWins key m) := by
  funext k
  simp only [firstWins, find?_append, Option.or_assoc]

theorem firstWins_of_isSome {m : κ → Option α} {k : κ} (h : (m k).isSome) :
    l.firstWins key m k = m k := by
  obtain ⟨a, ha⟩ := Option.isSome_iff_exists.1 h
  rw [firstWins, ha, Option.some_or]

/-- The keys of the map afterwards: those it had and those of the list. -/
theorem isSome_firstWins {m : κ → Option α} {k : κ} :
    (l.firstWins key m k).isSome ↔ (m k).isSome ∨ k ∈ l.map key := by
  rw [firstWins, Option.isSome_or, Bool.or_eq_true, List.find?_isSome, mem_map]
  simp only [decide_eq_true_eq]

/-! ### Reordered -/

/-- Which of the matching elements comes first does not matter if they are all the same one. -/
theorem find?_eq_of_perm {p : α → Bool} (h : l₁ ~ l₂)
    (hsame : ∀ a ∈ l₁, ∀ b ∈ l₁, p a → p b → a = b) : l₁.find? p = l₂.find? p := by
  cases hfound : l₁.find? p with
  | none =>
    refine (find?_eq_none.2 fun b hb ↦ ?_).symm
    exact find?_eq_none.1 hfound b (h.mem_iff.2 hb)
  | some a =>
    have ha : a ∈ l₁ := mem_of_find?_eq_some hfound
    have hpa : p a := find?_some hfound
    obtain ⟨b, hb⟩ : ∃ b, l₂.find? p = some b :=
      Option.isSome_iff_exists.1 (find?_isSome.2 ⟨a, h.mem_iff.1 ha, hpa⟩)
    rw [hb, hsame a ha b (h.mem_iff.2 (mem_of_find?_eq_some hb)) hpa (find?_some hb)]

/-- **A key's entry does not depend on the order**, if the map has the key already or the list has
one entry under it, however often. -/
theorem firstWins_eq_of_perm {m : κ → Option α} {k : κ} (h : l₁ ~ l₂)
    (hk : (m k).isSome ∨ ∀ a ∈ l₁, ∀ b ∈ l₁, key a = k → key b = k → a = b) :
    l₁.firstWins key m k = l₂.firstWins key m k := by
  rcases hk with hold | hsame
  · rw [firstWins_of_isSome hold, firstWins_of_isSome hold]
  · rw [firstWins, firstWins, find?_eq_of_perm h]
    simpa using hsame

end List
