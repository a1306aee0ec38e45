import Whistleblower.Foundations.Json.Printer

/-!
# The JSON printer of Python

`json.dumps` with its default arguments. There is a space behind every comma and colon, and a string
is printed in ASCII: any other character is escaped, as one code unit or as a surrogate pair.

What it prints is a text of the value (`text_dumps`), on one line (`newline_notMem_dumps`).
-/

namespace Json

/-! ### Printing -/

/-- Four hexadecimal digits. -/
def hex4 (n : ℕ) : List Char :=
  [Nat.digitChar (n / 4096 % 16), Nat.digitChar (n / 256 % 16), Nat.digitChar (n / 16 % 16),
    Nat.digitChar (n % 16)]

/-- A character inside a string. Printable ASCII stands for itself, but for the quote and the
backslash. -/
def asciiEscape (c : Char) : List Char :=
  match c with
  | '"' => ['\\', '"']
  | '\\' => ['\\', '\\']
  | '\n' => ['\\', 'n']
  | '\r' => ['\\', 'r']
  | '\t' => ['\\', 't']
  | '\x0c' => ['\\', 'f']
  | '\x08' => ['\\', 'b']
  | c =>
    if 0x20 ≤ c.toNat ∧ c.toNat ≤ 0x7e then [c]
    else if c.toNat < 0x10000 then '\\' :: ('u' :: hex4 c.toNat)
    else
      '\\' :: ('u' :: (hex4 (0xD800 + (c.toNat - 0x10000) / 0x400) ++
        '\\' :: 'u' :: hex4 (0xDC00 + (c.toNat - 0x10000) % 0x400)))

def dumpsString (s : String) : List Char :=
  '"' :: (s.toList.flatMap asciiEscape ++ ['"'])

mutual

/-- `json.dumps(v)`. -/
def dumps : Value → List Char
  | .null => ['n', 'u', 'l', 'l']
  | .bool true => ['t', 'r', 'u', 'e']
  | .bool false => ['f', 'a', 'l', 's', 'e']
  | .number n => n.render
  | .string s => dumpsString s
  | .array vs => '[' :: (dumpsElements vs ++ [']'])
  | .object ms => '{' :: (dumpsMembers ms ++ ['}'])

/-- The elements of an array. -/
def dumpsElements : List Value → List Char
  | [] => []
  | [v] => dumps v
  | v :: w :: vs => dumps v ++ ',' :: ' ' :: dumpsElements (w :: vs)

/-- The members of an object. -/
def dumpsMembers : List (String × Value) → List Char
  | [] => []
  | [(key, v)] => dumpsString key ++ ':' :: ' ' :: dumps v
  | (key, v) :: m :: ms =>
    dumpsString key ++ ':' :: ' ' :: (dumps v ++ ',' :: ' ' :: dumpsMembers (m :: ms))

end

/-! ### Strings -/

/-- The four digits denote the number. -/
theorem codeUnit?_hex4 {n : ℕ} (h : n < 0x10000) :
    codeUnit? (Nat.digitChar (n / 4096 % 16)) (Nat.digitChar (n / 256 % 16))
      (Nat.digitChar (n / 16 % 16)) (Nat.digitChar (n % 16)) = some n := by
  have hdigit : ∀ m, hexValue? (Nat.digitChar (m % 16)) = some (m % 16) :=
    fun m ↦ hexValue?_digitChar _ (Nat.mod_lt m (by decide))
  simp only [codeUnit?, hdigit, Option.bind_eq_bind, Option.bind_some, Option.pure_def,
    Option.some.injEq]
  omega

/-- What the code of a character can be. -/
theorem toNat_valid (c : Char) :
    c.toNat < 0xD800 ∨ 0xDFFF < c.toNat ∧ c.toNat < 0x110000 :=
  c.valid

theorem escape_unit {c : Char} (h : c.toNat < 0x10000) : Escape ('u' :: hex4 c.toNat) c := by
  have hvalid := toNat_valid c
  have hunit := Escape.unit (codeUnit?_hex4 h) (by rw [IsHighSurrogate]; omega)
    (by rw [IsLowSurrogate]; omega)
  rwa [Char.ofNat_toNat] at hunit

theorem escape_pair {c : Char} (h : 0x10000 ≤ c.toNat) :
    Escape ('u' :: (hex4 (0xD800 + (c.toNat - 0x10000) / 0x400) ++
      '\\' :: 'u' :: hex4 (0xDC00 + (c.toNat - 0x10000) % 0x400))) c := by
  have hvalid := toNat_valid c
  have hcode : 0x10000 + (0xD800 + (c.toNat - 0x10000) / 0x400 - 0xD800) * 0x400 +
      (0xDC00 + (c.toNat - 0x10000) % 0x400 - 0xDC00) = c.toNat := by omega
  have hpair := Escape.pair
    (codeUnit?_hex4 (n := 0xD800 + (c.toNat - 0x10000) / 0x400) (by omega))
    (codeUnit?_hex4 (n := 0xDC00 + (c.toNat - 0x10000) % 0x400) (by omega))
    (by rw [IsHighSurrogate]; omega) (by rw [IsLowSurrogate]; omega)
  rwa [pairChar, hcode, Char.ofNat_toNat] at hpair

theorem Chars.asciiEscape {c : Char} {t s : List Char} (h : Chars t s) :
    Chars (Json.asciiEscape c ++ t) (c :: s) := by
  have hshort : ∀ {e c}, shortEscape? e = some c → Chars ('\\' :: ([e] ++ t)) (c :: s) :=
    fun he ↦ Chars.escape (Escape.short he) h
  unfold Json.asciiEscape
  split
  · exact hshort rfl
  · exact hshort rfl
  · exact hshort rfl
  · exact hshort rfl
  · exact hshort rfl
  · exact hshort rfl
  · exact hshort rfl
  · next hquote hbackslash _ _ _ _ _ =>
    split
    · next hprintable =>
      refine Chars.raw ?_ h
      rw [isRaw, Bool.and_eq_true, Bool.and_eq_true, bne_iff_ne, bne_iff_ne, decide_eq_true_eq]
      exact ⟨⟨hquote, hbackslash⟩, hprintable.1⟩
    · split
      · next hunit => exact Chars.escape (escape_unit hunit) h
      · next hpair => exact Chars.escape (escape_pair (Nat.le_of_not_lt hpair)) h

theorem chars_flatMap_asciiEscape (s : List Char) : Chars (s.flatMap asciiEscape) s := by
  induction s with
  | nil => exact Chars.nil
  | cons c s ih =>
    rw [List.flatMap_cons]
    exact ih.asciiEscape

theorem denotes_dumpsString (s : String) : Denotes (.value (.string s)) (dumpsString s) := by
  have h := Denotes.string (chars_flatMap_asciiEscape s.toList)
  rwa [String.ofList_toList] at h

/-! ### What is printed is a text of the value -/

theorem space_one : Space [' '] := by
  intro c hc
  rw [List.mem_singleton.1 hc]
  rfl

theorem denotes_dumpsElements {vs : List Value} (hne : vs ≠ [])
    (h : ∀ v ∈ vs, Denotes (.value v) (dumps v)) {w : List Char} (hw : Space w) :
    Denotes (.elements vs) (w ++ dumpsElements vs) := by
  induction vs generalizing w with
  | nil => exact absurd rfl hne
  | cons v vs ih =>
    have hv := h v List.mem_cons_self
    cases vs with
    | nil =>
      have := Denotes.lastElement hw hv space_nil
      rwa [List.append_nil] at this
    | cons u vs =>
      -- the space behind the comma is one before the next element
      have hrest := ih (List.cons_ne_nil u vs) (fun u hu ↦ h u (List.mem_cons_of_mem _ hu))
        space_one
      exact Denotes.element hw hv space_nil hrest

theorem denotes_dumpsMembers {ms : List (String × Value)} (hne : ms ≠ [])
    (h : ∀ m ∈ ms, Denotes (.value m.2) (dumps m.2)) {w : List Char} (hw : Space w) :
    Denotes (.members ms) (w ++ dumpsMembers ms) := by
  induction ms generalizing w with
  | nil => exact absurd rfl hne
  | cons m ms ih =>
    obtain ⟨key, v⟩ := m
    have hv : Denotes (.value v) (dumps v) := h (key, v) List.mem_cons_self
    have hkey : Chars (key.toList.flatMap asciiEscape) key.toList := chars_flatMap_asciiEscape _
    cases ms with
    | nil =>
      have := Denotes.lastMember hw hkey space_nil space_one hv space_nil
      simpa [dumpsMembers, dumpsString] using this
    | cons m ms =>
      have hrest := ih (List.cons_ne_nil m ms) (fun u hu ↦ h u (List.mem_cons_of_mem _ hu))
        space_one
      have := Denotes.member hw hkey space_nil space_one hv space_nil hrest
      simpa [dumpsMembers, dumpsString] using this

/-- **Python prints texts of the value.** -/
theorem denotes_dumps {v : Value} {d : ℕ} (h : v.Within IsOtherLiteral d) :
    Denotes (.value v) (dumps v) := by
  induction h with
  | null => exact Denotes.litNull
  | @bool d b =>
    cases b with
    | true => exact Denotes.litTrue
    | false => exact Denotes.litFalse
  | posInt => exact Denotes.number (ofLiteral?_renderNat _)
  | other h => exact Denotes.number h
  | string => exact denotes_dumpsString _
  | @array d vs _ ih =>
    rcases eq_or_ne vs [] with rfl | hne
    · exact Denotes.emptyArray space_nil
    · exact Denotes.array (denotes_dumpsElements hne ih space_nil)
  | @object d ms _ ih =>
    rcases eq_or_ne ms [] with rfl | hne
    · exact Denotes.emptyObject space_nil
    · exact Denotes.object (denotes_dumpsMembers hne ih space_nil)

theorem text_dumps {v : Value} {d : ℕ} (h : v.Within IsOtherLiteral d) : Text (dumps v) v :=
  ⟨[], dumps v, [], space_nil, denotes_dumps h, space_nil,
    by rw [List.append_nil, List.nil_append]⟩

/-! ### One line -/

theorem newline_notMem_hex4 (n : ℕ) : '\n' ∉ hex4 n := by
  have hdigit : ∀ m, '\n' ≠ Nat.digitChar (m % 16) := by
    have hall : ∀ m < 16, '\n' ≠ Nat.digitChar m := by decide
    exact fun m ↦ hall _ (Nat.mod_lt m (by decide))
  simp [hex4, hdigit]

theorem newline_notMem_asciiEscape (c : Char) : '\n' ∉ asciiEscape c := by
  unfold asciiEscape
  split
  · decide
  · decide
  · decide
  · decide
  · decide
  · decide
  · decide
  · next _ _ hnewline _ _ _ _ =>
    split
    · exact fun h ↦ hnewline (List.mem_singleton.1 h).symm
    · split
      · simp [newline_notMem_hex4]
      · simp [newline_notMem_hex4]

theorem newline_notMem_dumpsString (s : String) : '\n' ∉ dumpsString s := by
  have hchars : '\n' ∉ s.toList.flatMap asciiEscape := by
    intro h
    obtain ⟨c, -, hc⟩ := List.mem_flatMap.1 h
    exact newline_notMem_asciiEscape c hc
  simp [dumpsString, hchars]

theorem newline_notMem_dumpsElements {vs : List Value} (h : ∀ v ∈ vs, '\n' ∉ dumps v) :
    '\n' ∉ dumpsElements vs := by
  induction vs with
  | nil => exact List.not_mem_nil
  | cons v vs ih =>
    have hv := h v List.mem_cons_self
    have hvs := ih fun w hw ↦ h w (List.mem_cons_of_mem _ hw)
    cases vs with
    | nil => exact hv
    | cons w vs => simp [dumpsElements, hv, hvs]

theorem newline_notMem_dumpsMembers {ms : List (String × Value)}
    (h : ∀ m ∈ ms, '\n' ∉ dumps m.2) : '\n' ∉ dumpsMembers ms := by
  induction ms with
  | nil => exact List.not_mem_nil
  | cons m ms ih =>
    obtain ⟨key, v⟩ := m
    have hkey := newline_notMem_dumpsString key
    have hv : '\n' ∉ dumps v := h (key, v) List.mem_cons_self
    have hms := ih fun m hm ↦ h m (List.mem_cons_of_mem _ hm)
    cases ms with
    | nil => simp [dumpsMembers, hkey, hv]
    | cons m ms => simp [dumpsMembers, hkey, hv, hms]

/-- **A printed value is one line.** -/
theorem newline_notMem_dumps {v : Value} {d : ℕ} (h : v.Within IsOtherLiteral d) :
    '\n' ∉ dumps v := by
  have hliteral : ∀ literal : List Char, isNumberLiteral literal → '\n' ∉ literal :=
    fun _ hl hmem ↦ absurd (all_isNumberChar hl _ hmem) (by decide)
  induction h with
  | null => decide
  | @bool d b => cases b <;> decide
  | posInt => exact hliteral _ (isNumberLiteral_renderNat _)
  | other h => exact hliteral _ (isNumberLiteral_of_ofLiteral? h)
  | string => exact newline_notMem_dumpsString _
  | @array d vs _ ih => simp [dumps, newline_notMem_dumpsElements ih]
  | @object d ms _ ih => simp [dumps, newline_notMem_dumpsMembers ih]

end Json
