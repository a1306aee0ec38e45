import Mathlib.Data.List.Basic
import Mathlib.Data.List.Induction
import Mathlib.Order.Basic
import Mathlib.Data.List.DropRight

/-!
# Reading a list page by page

A reader goes through a list of entries with keys, in pages of at most `b` entries. It remembers the
key it has come to, and the next page starts above it. Some entries are bad. Two readers are
compared, which differ in what a bad entry does to a page.

* The *strict* reader refuses a page with a bad entry in it, and stays.
* The *lenient* reader skips the bad entries, and comes to the last good one. Bad entries at the end
  of a page are met again.

`Passes` says what it takes to get past the entries that matter, page by page: the reader gets to
the end of the page, and no entry that matters is behind the page under the key it has come to. The
second can only happen where keys are repeated. Where they are not, the pages can be counted, and
what stands in the way can be seen from the positions (`passes_strict_iff`, `passes_lenient_iff`).
-/

namespace Paging

variable {α κ : Type*}

/-- The page at a position. -/
def page (b : ℕ) (L : List α) (k : ℕ) : List α :=
  (L.drop k).take b

theorem length_page {b : ℕ} {L : List α} {k : ℕ} :
    (page b L k).length = min b (L.length - k) := by
  rw [page, List.length_take, List.length_drop]

/-- Where the strict reader comes to: the last entry of a page without a bad one. -/
def StrictEnds (bad : α → Prop) (p : List α) (x : α) : Prop :=
  (∃ front, p = front ++ [x]) ∧ ∀ y ∈ p, ¬ bad y

/-- Where the lenient reader comes to: the last entry of the page that is not bad. -/
def LenientEnds (bad : α → Prop) (p : List α) (x : α) : Prop :=
  ∃ front rest, p = front ++ x :: rest ∧ ¬ bad x ∧ ∀ y ∈ rest, bad y

/-- **The list can be read**, as far as it matters: either nothing that matters is left, or the
reader comes to an entry `x` of the first page, what matters and is behind the page under the key of
`x` has been `seen` on the page, and the entries above `x` can be read. -/
inductive Passes [LT κ] [DecidableLT κ] (ends : List α → α → Prop) (b : ℕ) (key : α → κ)
    (matters : α → Prop) (seen : List α → α → Prop) : List α → Prop
  | done {l : List α} : (∀ y ∈ l, ¬ matters y) → Passes ends b key matters seen l
  | page {l : List α} {x : α} : ends (l.take b) x →
      (∀ y ∈ l.drop b, key y = key x → matters y → seen (l.take b) y) →
      Passes ends b key matters seen (l.filter (key x < key ·)) →
      Passes ends b key matters seen l

/-! ### Where the readers come to -/

section Ends

variable {bad : α → Prop} {p : List α} {x : α}

theorem LenientEnds.mem (h : LenientEnds bad p x) : x ∈ p := by
  obtain ⟨front, rest, rfl, -⟩ := h
  exact List.mem_append_right front List.mem_cons_self

/-- The strict reader comes to where the lenient one does. -/
theorem StrictEnds.lenient (h : StrictEnds bad p x) : LenientEnds bad p x := by
  obtain ⟨⟨front, rfl⟩, hgood⟩ := h
  exact ⟨front, [], rfl, hgood x (List.mem_append_right front List.mem_cons_self),
    fun y hy ↦ absurd hy List.not_mem_nil⟩

theorem exists_strictEnds (hne : p ≠ []) (hgood : ∀ y ∈ p, ¬ bad y) : ∃ x, StrictEnds bad p x := by
  obtain ⟨front, x, rfl⟩ := (List.eq_nil_or_concat' p).resolve_left hne
  exact ⟨x, ⟨front, rfl⟩, hgood⟩

theorem exists_lenientEnds (h : ∃ y ∈ p, ¬ bad y) : ∃ x, LenientEnds bad p x := by
  induction p using List.reverseRecOn with
  | nil =>
    obtain ⟨y, hy, -⟩ := h
    exact absurd hy List.not_mem_nil
  | append_singleton p z ih =>
    by_cases hz : bad z
    · obtain ⟨y, hy, hgood⟩ := h
      have hy' : y ∈ p := (List.mem_append.1 hy).resolve_right fun hlast ↦
        hgood (List.mem_singleton.1 hlast ▸ hz)
      obtain ⟨x, front, rest, rfl, hx, hrest⟩ := ih ⟨y, hy', hgood⟩
      refine ⟨x, front, rest ++ [z], by rw [List.append_assoc, List.cons_append], hx, ?_⟩
      intro y hy
      rcases List.mem_append.1 hy with hold | hlast
      · exact hrest y hold
      · exact List.mem_singleton.1 hlast ▸ hz
    · exact ⟨z, p, [], rfl, hz, fun y hy ↦ absurd hy List.not_mem_nil⟩

end Ends

/-! ### Keys that are not repeated -/

section Strict

variable [Preorder κ] [DecidableLT κ] {key : α → κ} {b : ℕ} {bad matters : α → Prop}
  {seen : List α → α → Prop} {l : List α} {x : α}

/-- Where the reader has come to, in the list. -/
theorem LenientEnds.position (h : LenientEnds bad (l.take b) x) :
    ∃ k, ∃ hk : k < l.length, k < b ∧ l[k] = x ∧ ¬ bad l[k] ∧
      ∀ j, ∀ hj : j < l.length, k < j → j < b → bad l[j] := by
  obtain ⟨front, rest, hpage, hx, hrest⟩ := h
  have hlength := congrArg List.length hpage
  rw [List.length_take, List.length_append, List.length_cons] at hlength
  have hget : ∀ j, ∀ hj : j < l.length, j < b → (front ++ x :: rest)[j]? = some l[j] := by
    intro j hj hlt
    rw [← hpage, List.getElem?_take_of_lt hlt, List.getElem?_eq_getElem hj]
  have hk : front.length < l.length := by omega
  have hx' : l[front.length] = x := by
    have hat := hget front.length hk (by omega)
    rw [List.getElem?_append_right (Nat.le_refl _), Nat.sub_self, List.getElem?_cons_zero] at hat
    exact (Option.some.inj hat).symm
  refine ⟨front.length, hk, by omega, hx', hx'.symm ▸ hx, fun j hj hlt hltb ↦ ?_⟩
  have hat := hget j hj hltb
  obtain ⟨d, hd⟩ := Nat.exists_eq_add_of_lt hlt
  have hsub : j - front.length = d + 1 := by omega
  rw [List.getElem?_append_right (Nat.le_of_lt hlt), hsub, List.getElem?_cons_succ] at hat
  exact hrest _ (List.mem_of_getElem? hat)

/-- Above an entry are those behind it. -/
theorem filter_key_lt (hl : l.Pairwise (key · < key ·)) {k : ℕ} (hk : k < l.length) :
    l.filter (key l[k] < key ·) = l.drop (k + 1) := by
  have hlt := List.pairwise_iff_getElem.1 hl
  have hnone : (l.take (k + 1)).filter (key l[k] < key ·) = [] := by
    refine List.filter_eq_nil_iff.2 fun y hy ↦ ?_
    obtain ⟨j, hj, rfl⟩ := List.mem_take_iff_getElem.1 hy
    have hle : j ≤ k := by omega
    rcases Nat.lt_or_eq_of_le hle with hbefore | rfl
    · simpa using (hlt j k (by omega) hk hbefore).not_gt
    · simp
  have hall : (l.drop (k + 1)).filter (key l[k] < key ·) = l.drop (k + 1) := by
    refine List.filter_eq_self.2 fun y hy ↦ ?_
    obtain ⟨j, hj, rfl⟩ := List.mem_drop_iff_getElem.1 hy
    exact decide_eq_true (hlt k (k + 1 + j) hk (by omega) (by omega))
  calc l.filter (key l[k] < key ·)
    _ = (l.take (k + 1) ++ l.drop (k + 1)).filter (key l[k] < key ·) := by
        rw [List.take_append_drop]
    _ = l.drop (k + 1) := by rw [List.filter_append, hnone, hall, List.nil_append]

omit [DecidableLT κ] in
/-- Behind the page, no key is that of an entry on it. -/
theorem key_ne_of_mem_drop (hl : l.Pairwise (key · < key ·)) {k : ℕ} (hk : k < l.length)
    (hkb : k < b) {y : α} (hy : y ∈ l.drop b) : key y ≠ key l[k] := by
  obtain ⟨j, hj, rfl⟩ := List.mem_drop_iff_getElem.1 hy
  exact (List.pairwise_iff_getElem.1 hl k (b + j) hk (by omega) (by omega)).ne'

/-- Above where the strict reader comes to is what is behind the page. -/
theorem StrictEnds.filter_eq (h : StrictEnds bad (l.take b) x)
    (hl : l.Pairwise (key · < key ·)) : l.filter (key x < key ·) = l.drop b := by
  obtain ⟨k, hk, hkb, rfl, -, hbad⟩ := h.lenient.position
  rw [filter_key_lt hl hk]
  rcases Nat.lt_or_ge (k + 1) (min b l.length) with hlt | hge
  · have hk' : k + 1 < l.length := by omega
    have hmem : l[k + 1] ∈ l.take b := List.mem_take_iff_getElem.2 ⟨k + 1, by omega, rfl⟩
    exact absurd (hbad (k + 1) hk' (Nat.lt_succ_self k) (by omega)) (h.2 _ hmem)
  · rcases Nat.lt_or_ge b l.length with hfull | hshort
    · rw [show k + 1 = b by omega]
    · rw [List.drop_eq_nil_of_le (by omega), List.drop_eq_nil_of_le hshort]

/-- No bad entry is on the page of an entry that matters, or on an earlier one. -/
def StrictClear (bad matters : α → Prop) (b : ℕ) (l : List α) : Prop :=
  ∀ i j, ∀ hi : i < l.length, ∀ hj : j < l.length, matters l[i] → bad l[j] → i / b < j / b

/-- An entry that matters does not come behind `b` bad ones in a row. -/
def LenientClear (bad matters : α → Prop) (b : ℕ) (l : List α) : Prop :=
  ∀ i, ∀ hi : i < l.length, matters l[i] → ∀ r, r + b ≤ i →
    ∃ j, ∃ hj : j < l.length, r ≤ j ∧ j < r + b ∧ ¬ bad l[j]

/-- A page without bad entries makes no difference. -/
theorem strictClear_drop_iff (hb : 0 < b) (hpage : ∀ y ∈ l.take b, ¬ bad y) :
    StrictClear bad matters b (l.drop b) ↔ StrictClear bad matters b l := by
  have hshift : ∀ i, (b + i) / b = i / b + 1 := fun i ↦ Nat.add_div_left i hb
  constructor
  · intro hclear i j hi hj hmatters hbad
    have hbj : b ≤ j := by
      by_contra hlt
      exact hpage _ (List.mem_take_iff_getElem.2 ⟨j, by omega, rfl⟩) hbad
    obtain ⟨j, rfl⟩ := Nat.exists_eq_add_of_le hbj
    rcases Nat.lt_or_ge i b with hib | hib
    · rw [Nat.div_eq_of_lt hib, hshift]
      exact Nat.succ_pos _
    · obtain ⟨i, rfl⟩ := Nat.exists_eq_add_of_le hib
      have hlt := hclear i j (by rw [List.length_drop]; omega) (by rw [List.length_drop]; omega)
        (by rwa [List.getElem_drop]) (by rwa [List.getElem_drop])
      rw [hshift, hshift]
      omega
  · intro hclear i j hi hj hmatters hbad
    rw [List.length_drop] at hi hj
    rw [List.getElem_drop] at hmatters hbad
    have hlt := hclear (b + i) (b + j) (by omega) (by omega) hmatters hbad
    rw [hshift, hshift] at hlt
    omega

/-- **The strict reader**, where no key is repeated: nothing that matters may be on the page of a
bad entry, or on a later page. -/
theorem passes_strict_iff (hl : l.Pairwise (key · < key ·)) (hb : 0 < b) :
    Passes (StrictEnds bad) b key matters seen l ↔ StrictClear bad matters b l := by
  constructor
  · intro hpasses
    induction hpasses with
    | done hnone => exact fun i _ hi _ hmatters _ ↦ absurd hmatters (hnone _ (List.getElem_mem hi))
    | page hends _ _ ih =>
      rw [hends.filter_eq hl] at ih
      exact (strictClear_drop_iff hb hends.2).1 (ih hl.drop)
  · intro hclear
    induction hn : l.length using Nat.strongRecOn generalizing l with
    | _ n ih =>
      by_cases hnone : ∀ y ∈ l, ¬ matters y
      · exact .done hnone
      · push Not at hnone
        obtain ⟨y, hy, hmatters⟩ := hnone
        obtain ⟨i, hi, rfl⟩ := List.getElem_of_mem hy
        have hpage : ∀ y ∈ l.take b, ¬ bad y := by
          intro y hy hbad
          obtain ⟨j, hj, rfl⟩ := List.mem_take_iff_getElem.1 hy
          have hlt := hclear i j hi (by omega) hmatters hbad
          rw [Nat.div_eq_of_lt (by omega : j < b)] at hlt
          exact absurd hlt (Nat.not_lt_zero _)
        have hne : l.take b ≠ [] := by
          rw [← List.length_pos_iff, List.length_take]
          omega
        obtain ⟨x, hends⟩ := exists_strictEnds hne hpage
        obtain ⟨k, hk, hkb, rfl, -⟩ := hends.lenient.position
        refine .page hends (fun y hy hkey ↦ absurd hkey (key_ne_of_mem_drop hl hk hkb hy)) ?_
        rw [hends.filter_eq hl]
        exact ih _ (by rw [List.length_drop]; omega) hl.drop
          ((strictClear_drop_iff hb hpage).2 hclear) rfl

/-- What is up to an entry that is not bad makes no difference, if that is on the first page. -/
theorem lenientClear_drop_iff {k : ℕ} (hk : k < l.length) (hkb : k < b) (hgood : ¬ bad l[k]) :
    LenientClear bad matters b (l.drop (k + 1)) ↔ LenientClear bad matters b l := by
  constructor
  · intro hclear i hi hmatters r hr
    rcases Nat.lt_or_ge k r with hkr | hrk
    · obtain ⟨r, rfl⟩ := Nat.exists_eq_add_of_le hkr
      obtain ⟨i, rfl⟩ : ∃ i', i = k + 1 + i' := Nat.exists_eq_add_of_le (by omega)
      obtain ⟨j, hj, hle, hlt, hgood'⟩ := hclear i (by rw [List.length_drop]; omega)
        (by rwa [List.getElem_drop]) r (by omega)
      rw [List.length_drop] at hj
      rw [List.getElem_drop] at hgood'
      exact ⟨k + 1 + j, by omega, by omega, by omega, hgood'⟩
    · exact ⟨k, hk, hrk, by omega, hgood⟩
  · intro hclear i hi hmatters r hr
    rw [List.length_drop] at hi
    rw [List.getElem_drop] at hmatters
    obtain ⟨j, hj, hle, hlt, hgood'⟩ :=
      hclear (k + 1 + i) (by omega) hmatters (k + 1 + r) (by omega)
    obtain ⟨j, rfl⟩ : ∃ j', j = k + 1 + j' := Nat.exists_eq_add_of_le (by omega)
    refine ⟨j, by rw [List.length_drop]; omega, by omega, by omega, ?_⟩
    rwa [List.getElem_drop]

/-- **The lenient reader**, where no key is repeated: nothing that matters may come behind `b` bad
entries in a row. -/
theorem passes_lenient_iff (hl : l.Pairwise (key · < key ·))
    (hmatters : ∀ y, matters y → ¬ bad y) :
    Passes (LenientEnds bad) b key matters seen l ↔ LenientClear bad matters b l := by
  constructor
  · intro hpasses
    induction hpasses with
    | done hnone => exact fun i hi hmatters ↦ absurd hmatters (hnone _ (List.getElem_mem hi))
    | page hends _ _ ih =>
      obtain ⟨k, hk, hkb, rfl, hgood, -⟩ := hends.position
      rw [filter_key_lt hl hk] at ih
      exact (lenientClear_drop_iff hk hkb hgood).1 (ih hl.drop)
  · intro hclear
    induction hn : l.length using Nat.strongRecOn generalizing l with
    | _ n ih =>
      by_cases hnone : ∀ y ∈ l, ¬ matters y
      · exact .done hnone
      · push Not at hnone
        obtain ⟨y, hy, hy'⟩ := hnone
        obtain ⟨i, hi, rfl⟩ := List.getElem_of_mem hy
        -- either it is on the page itself, or the page is not full of bad entries
        have hpage : ∃ y ∈ l.take b, ¬ bad y := by
          rcases Nat.lt_or_ge i b with hib | hib
          · exact ⟨l[i], List.mem_take_iff_getElem.2 ⟨i, by omega, rfl⟩, hmatters _ hy'⟩
          · obtain ⟨j, hj, -, hlt, hgood⟩ := hclear i hi hy' 0 (by omega)
            exact ⟨l[j], List.mem_take_iff_getElem.2 ⟨j, by omega, rfl⟩, hgood⟩
        obtain ⟨x, hends⟩ := exists_lenientEnds hpage
        obtain ⟨k, hk, hkb, rfl, hgood, -⟩ := hends.position
        refine .page hends (fun y hy hkey ↦ absurd hkey (key_ne_of_mem_drop hl hk hkb hy)) ?_
        rw [filter_key_lt hl hk]
        exact ih _ (by rw [List.length_drop]; omega) hl.drop
          ((lenientClear_drop_iff hk hkb hgood).2 hclear) rfl

end Strict

end Paging
