import Mathlib.Data.List.DropRight

/-!
# Lines of a text

Splitting a text into lines and trimming them, with the conventions of a standard library: a line
ends at a newline, a carriage return before it belongs to the line end, a last line without a
newline counts when it is not empty, and trimming takes Unicode white space off both ends.

`contentLines` is what a reader of line-delimited records sees, the trimmed lines that are not
empty. `contentLines_eq_splitOn` says that the finer points of line ends make no difference to it.
-/

namespace Lines

/-- Unicode `White_Space`. -/
def isWhitespace (c : Char) : Bool :=
  let n := c.toNat
  (9 ≤ n && n ≤ 13) || n == 0x20 || n == 0x85 || n == 0xA0 || n == 0x1680 ||
    (0x2000 ≤ n && n ≤ 0x200A) || n == 0x2028 || n == 0x2029 || n == 0x202F || n == 0x205F ||
    n == 0x3000

/-- Take white space off both ends. -/
def trim (l : List Char) : List Char :=
  (l.rdropWhile isWhitespace).dropWhile isWhitespace

/-- Take off one carriage return at the end. -/
def stripCr (l : List Char) : List Char :=
  if l.getLast? = some '\r' then l.dropLast else l

/-- The lines of a text. -/
def lines (text : List Char) : List (List Char) :=
  (text.splitOn '\n').dropLast.map stripCr ++
    ((text.splitOn '\n').getLast?.filter (· ≠ [])).toList

/-- The trimmed lines that are not empty. -/
def contentLines (text : List Char) : List (List Char) :=
  ((lines text).map trim).filter (· ≠ [])

theorem trim_nil : trim [] = [] := rfl

theorem trim_stripCr (l : List Char) : trim (stripCr l) = trim l := by
  rw [stripCr]
  split
  · next h =>
    obtain ⟨l', rfl⟩ := List.getLast?_eq_some_iff.1 h
    have hcr : isWhitespace '\r' := by decide
    rw [List.dropLast_concat, trim, trim, List.rdropWhile_concat_pos isWhitespace l' '\r' hcr]
  · rfl

/-- White space around a text that neither starts nor ends with any is trimmed off. -/
theorem trim_append {w body w' : List Char} (hw : ∀ c ∈ w, isWhitespace c)
    (hw' : ∀ c ∈ w', isWhitespace c) (hhead : ∀ c ∈ body.head?, isWhitespace c = false)
    (hlast : ∀ c ∈ body.getLast?, isWhitespace c = false) : trim (w ++ (body ++ w')) = body := by
  have hstop : ∀ {l : List Char}, (∀ c ∈ l.head?, isWhitespace c = false) →
      l.dropWhile isWhitespace = l := by
    intro l hl
    cases l with
    | nil => rfl
    | cons c l => exact List.dropWhile_cons_of_neg (by simp [hl c rfl])
  rcases eq_or_ne body [] with rfl | hne
  · have hall : ∀ c ∈ w ++ ([] ++ w'), isWhitespace c := fun c hc ↦ by
      rcases List.mem_append.1 hc with h | h
      · exact hw c h
      · exact hw' c h
    rw [trim, List.rdropWhile_eq_nil_iff.2 hall, List.dropWhile_nil]
  · -- from the right, the white space ends at the last character of `body`
    have hright : (w ++ (body ++ w')).rdropWhile isWhitespace = w ++ body := by
      have hhead' : ∀ c ∈ (body.reverse ++ w.reverse).head?, isWhitespace c = false := by
        rw [List.head?_append_of_ne_nil _ (by simpa using hne), List.head?_reverse]
        exact hlast
      have hrev : ∀ c ∈ w'.reverse, isWhitespace c := fun c hc ↦ hw' c (List.mem_reverse.1 hc)
      rw [List.rdropWhile, List.reverse_append, List.reverse_append, List.append_assoc,
        List.dropWhile_append_of_pos hrev, hstop hhead', List.reverse_append, List.reverse_reverse,
        List.reverse_reverse]
    rw [trim, hright, List.dropWhile_append_of_pos hw, hstop hhead]

/-- **The content lines are what lies between newlines**, trimmed, where it is not empty. -/
theorem contentLines_eq_splitOn (text : List Char) :
    contentLines text = ((text.splitOn '\n').map trim).filter (· ≠ []) := by
  have hmap : ((text.splitOn '\n').dropLast.map stripCr).map trim =
      (text.splitOn '\n').dropLast.map trim := by
    rw [List.map_map]
    exact List.map_congr_left fun l _ ↦ trim_stripCr l
  have hne := List.splitOn_ne_nil '\n' text
  conv_rhs => rw [← List.dropLast_append_getLast hne]
  rw [contentLines, lines, List.map_append, hmap, List.getLast?_eq_getLast_of_ne_nil hne,
    List.map_append, List.filter_append, List.filter_append]
  congr 1
  rcases eq_or_ne ((text.splitOn '\n').getLast hne) [] with hlast | hlast
  · simp [hlast, trim_nil]
  · simp [hlast, Option.filter]

/-- The lines of a file, each ended by a newline except perhaps the last. -/
def IsFileOf (ls : List (List Char)) (text : List Char) : Prop :=
  text = ls.flatMap (· ++ ['\n']) ∨ text ++ ['\n'] = ls.flatMap (· ++ ['\n'])

theorem splitOn_flatMap {ls : List (List Char)} (hls : ∀ l ∈ ls, '\n' ∉ l) {last : List Char}
    (hlast : '\n' ∉ last) : (ls.flatMap (· ++ ['\n']) ++ last).splitOn '\n' = ls ++ [last] := by
  induction ls with
  | nil => exact List.splitOn_eq_singleton hlast
  | cons l ls ih =>
    have hl : '\n' ∉ l := hls l List.mem_cons_self
    have hrest := ih fun l' hl' ↦ hls l' (List.mem_cons_of_mem _ hl')
    rw [List.flatMap_cons, List.append_assoc, List.append_assoc, List.singleton_append,
      List.splitOn_append_cons_self_of_not_mem hl, hrest, List.cons_append]

/-- **The content of a file of lines.** -/
theorem contentLines_of_isFileOf {ls : List (List Char)} (hls : ∀ l ∈ ls, '\n' ∉ l)
    {text : List Char} (htext : IsFileOf ls text) :
    contentLines text = (ls.map trim).filter (· ≠ []) := by
  rw [contentLines_eq_splitOn]
  rcases htext with rfl | heq
  · have hsplit : (ls.flatMap (· ++ ['\n']) ++ []).splitOn '\n' = ls ++ [[]] :=
      splitOn_flatMap hls List.not_mem_nil
    rw [List.append_nil] at hsplit
    rw [hsplit, List.map_append, List.filter_append]
    simp [trim_nil]
  · rcases List.eq_nil_or_concat ls with rfl | ⟨init, last, rfl⟩
    · simp at heq
    · have hinit : ∀ l ∈ init, '\n' ∉ l := fun l hl ↦ hls l (by simp [hl])
      have hlast : '\n' ∉ last := hls last (by simp)
      have htext : text = init.flatMap (· ++ ['\n']) ++ last := by
        rw [List.concat_eq_append, List.flatMap_append, List.flatMap_singleton,
          ← List.append_assoc] at heq
        exact List.append_cancel_right heq
      rw [htext, splitOn_flatMap hinit hlast, List.concat_eq_append]

end Lines
