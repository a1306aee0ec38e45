import Whistleblower.Foundations.Json.Reader
import Whistleblower.Foundations.TextBytes
import Mathlib.Data.List.TakeWhile

/-!
# The compact JSON printer

One text of each value: no whitespace, members in the order given, unsigned integers in decimal,
strings with the shortest escapes. Its law is `denotes_render`, that the printed text is a text of
the value; with a reader it gives the round trip, and with `Text.unique` that different values are
printed differently.

A number that is no unsigned 64-bit integer is printed as its literal, so the law asks that the
literal be one.
-/

namespace Json

/-! ### Printing -/

/-- A character inside a string: quote, backslash and the control characters are escaped. -/
def escapeChar (c : Char) : List Char :=
  match c with
  | '"' => ['\\', '"']
  | '\\' => ['\\', '\\']
  | '\x08' => ['\\', 'b']
  | '\t' => ['\\', 't']
  | '\n' => ['\\', 'n']
  | '\x0c' => ['\\', 'f']
  | '\r' => ['\\', 'r']
  | c =>
    if c.toNat < 0x20 then
      ['\\', 'u', '0', '0', Nat.digitChar (c.toNat / 16), Nat.digitChar (c.toNat % 16)]
    else [c]

def renderString (s : String) : List Char :=
  '"' :: (s.toList.flatMap escapeChar ++ ['"'])

/-- A natural number in decimal. -/
def renderNat (n : ℕ) : List Char :=
  Nat.toDigits 10 n

def Number.render : Number → List Char
  | posInt n => renderNat n.toNat
  | other literal => literal

mutual

/-- The compact text of a value. -/
def render : Value → List Char
  | .null => ['n', 'u', 'l', 'l']
  | .bool true => ['t', 'r', 'u', 'e']
  | .bool false => ['f', 'a', 'l', 's', 'e']
  | .number n => n.render
  | .string s => renderString s
  | .array vs => '[' :: (renderElements vs ++ [']'])
  | .object ms => '{' :: (renderMembers ms ++ ['}'])

/-- The elements of an array, separated by commas. -/
def renderElements : List Value → List Char
  | [] => []
  | [v] => render v
  | v :: w :: vs => render v ++ ',' :: renderElements (w :: vs)

/-- The members of an object, separated by commas. -/
def renderMembers : List (String × Value) → List Char
  | [] => []
  | [(key, v)] => renderString key ++ ':' :: render v
  | (key, v) :: m :: ms => renderString key ++ ':' :: (render v ++ ',' :: renderMembers (m :: ms))

end

/-! ### Decimal literals -/

theorem isDigit_of_mem_renderNat {n : ℕ} {c : Char} (h : c ∈ renderNat n) : c.isDigit :=
  Nat.isDigit_of_mem_toDigits (by decide) (by decide) h

theorem renderNat_ne_nil (n : ℕ) : renderNat n ≠ [] :=
  Nat.toDigits_ne_nil

theorem isNumberChar_of_isDigit {c : Char} (h : c.isDigit) : isNumberChar c := by
  simp [isNumberChar, h]

/-- Only zero is written with a leading zero. -/
theorem head?_renderNat {n : ℕ} (h : 0 < n) : (renderNat n).head? ≠ some '0' := by
  induction n using Nat.strongRecOn with
  | _ n ih =>
    by_cases hlt : n < 10
    · have hsmall : ∀ m < 10, 0 < m → (Nat.digitChar m) ≠ '0' := by decide
      rw [renderNat, Nat.toDigits_of_lt_base hlt, List.head?_cons]
      exact fun heq ↦ hsmall n hlt h (Option.some.inj heq)
    · have hle : 10 ≤ n := by omega
      have hrest : (renderNat (n / 10)).head? ≠ some '0' := ih (n / 10) (by omega) (by omega)
      rw [renderNat, Nat.toDigits_of_base_le (by decide) hle,
        List.head?_append_of_ne_nil _ Nat.toDigits_ne_nil]
      exact hrest

theorem isNumberLiteral_renderNat (n : ℕ) : isNumberLiteral (renderNat n) := by
  have hall : ∀ c ∈ renderNat n, c.isDigit := fun c hc ↦ isDigit_of_mem_renderNat hc
  have hchars : (renderNat n).all isNumberChar :=
    List.all_eq_true.2 fun c hc ↦ isNumberChar_of_isDigit (hall c hc)
  have hparse : intPart? (renderNat n) = some [] := by
    rcases Nat.eq_zero_or_pos n with rfl | hpos
    · rfl
    · have hhead := head?_renderNat hpos
      obtain ⟨c, cs, hcs⟩ := List.exists_cons_of_ne_nil (renderNat_ne_nil n)
      rw [hcs] at hall hhead ⊢
      have hdrop : cs.dropWhile Char.isDigit = [] :=
        List.dropWhile_eq_nil_iff.2 fun d hd ↦ hall d (List.mem_cons_of_mem _ hd)
      rw [intPart?, digits?, if_pos (hall c List.mem_cons_self), hdrop]
      rintro cs' heq
      exact hhead (by rw [heq, List.head?_cons])
  have hminus : (renderNat n).head? ≠ some '-' := by
    intro heq
    have := hall '-' (List.mem_of_mem_head? heq)
    exact absurd this (by decide)
  rw [isNumberLiteral, hchars, if_neg hminus, hparse]
  rfl

/-- **Decimal round trip.** -/
theorem ofLiteral?_renderNat (n : UInt64) :
    Number.ofLiteral? (renderNat n.toNat) = some (.posInt n) := by
  have hdigits : (renderNat n.toNat).all Char.isDigit :=
    List.all_eq_true.2 fun c hc ↦ isDigit_of_mem_renderNat hc
  have hvalue : Nat.ofDigitChars 10 (renderNat n.toNat) 0 = n.toNat := Nat.ofDigitChars_ten_toDigits
  rw [Number.ofLiteral?, if_pos (isNumberLiteral_renderNat _), hvalue,
    if_pos ⟨hdigits, n.toNat_lt⟩, UInt64.ofNat_toNat]

/-! ### Strings -/

theorem hexValue?_digitChar : ∀ n < 16, hexValue? (Nat.digitChar n) = some n := by
  decide

theorem Chars.escapeChar {c : Char} {t s : List Char} (h : Chars t s) :
    Chars (Json.escapeChar c ++ t) (c :: s) := by
  have hshort : ∀ {e c}, shortEscape? e = some c → Chars ('\\' :: ([e] ++ t)) (c :: s) :=
    fun he ↦ Chars.escape (Escape.short he) h
  unfold Json.escapeChar
  split
  · exact hshort rfl
  · exact hshort rfl
  · exact hshort rfl
  · exact hshort rfl
  · exact hshort rfl
  · exact hshort rfl
  · exact hshort rfl
  · next hq hb _ _ _ _ _ =>
    split
    · next hlt =>
      -- a control character below the space: its code is the two hexadecimal digits
      have hdiv : hexValue? (Nat.digitChar (c.toNat / 16)) = some (c.toNat / 16) :=
        hexValue?_digitChar _ (by omega)
      have hmod : hexValue? (Nat.digitChar (c.toNat % 16)) = some (c.toNat % 16) :=
        hexValue?_digitChar _ (by omega)
      have hunit : codeUnit? '0' '0' (Nat.digitChar (c.toNat / 16)) (Nat.digitChar (c.toNat % 16)) =
          some c.toNat := by
        have hzero : hexValue? '0' = some 0 := rfl
        simp only [codeUnit?, hzero, hdiv, hmod, Option.bind_eq_bind, Option.bind_some,
          Option.pure_def, Option.some.injEq]
        omega
      have hchar := Escape.unit hunit (by rw [IsHighSurrogate]; omega)
        (by rw [IsLowSurrogate]; omega)
      rw [Char.ofNat_toNat] at hchar
      exact Chars.escape hchar h
    · next hge =>
      refine Chars.raw ?_ h
      rw [isRaw, Bool.and_eq_true, Bool.and_eq_true, bne_iff_ne, bne_iff_ne, decide_eq_true_eq]
      exact ⟨⟨hq, hb⟩, by omega⟩

theorem chars_flatMap_escapeChar (s : List Char) : Chars (s.flatMap escapeChar) s := by
  induction s with
  | nil => exact Chars.nil
  | cons c s ih =>
    rw [List.flatMap_cons]
    exact ih.escapeChar

theorem denotes_renderString (s : String) : Denotes (.value (.string s)) (renderString s) := by
  have h := Denotes.string (chars_flatMap_escapeChar s.toList)
  rwa [String.ofList_toList] at h

/-- Escaping never shortens a character. -/
theorem utf8Size_le_escapeChar (c : Char) : c.utf8Size ≤ String.utf8Size (escapeChar c) := by
  unfold escapeChar
  split
  · decide
  · decide
  · decide
  · decide
  · decide
  · decide
  · decide
  · split
    · next hlt =>
      have hone : c.utf8Size = 1 := by
        have hval : c.val ≤ 0x7f := by
          rw [UInt32.le_iff_toNat_le]
          exact Nat.le_trans (Nat.le_of_lt hlt) (by decide)
        exact if_pos hval
      rw [hone, String.utf8Size_cons]
      exact Nat.le_add_right_of_le (by decide)
    · rw [String.utf8Size_cons, String.utf8Size_nil, Nat.add_zero]

/-- A printed string is the two quotes longer than the string, at least. -/
theorem utf8Size_le_renderString (s : String) :
    String.utf8Size s.toList + 2 ≤ String.utf8Size (renderString s) := by
  have hchars : ∀ cs : List Char,
      String.utf8Size cs ≤ String.utf8Size (cs.flatMap escapeChar) := by
    intro cs
    induction cs with
    | nil => exact Nat.le_refl _
    | cons c cs ih =>
      rw [List.flatMap_cons, String.utf8Size_append, String.utf8Size_cons]
      exact Nat.add_le_add (utf8Size_le_escapeChar c) ih
  have hquote : Char.utf8Size '"' = 1 := by decide
  have := hchars s.toList
  rw [renderString, String.utf8Size_cons, String.utf8Size_append, String.utf8Size_cons,
    String.utf8Size_nil, hquote]
  omega

/-! ### The printed text is a text of the value -/

theorem space_nil : Space [] :=
  fun _ hc ↦ absurd hc List.not_mem_nil

theorem denotes_renderElements {vs : List Value} (hne : vs ≠ [])
    (h : ∀ v ∈ vs, Denotes (.value v) (render v)) : Denotes (.elements vs) (renderElements vs) := by
  induction vs with
  | nil => exact absurd rfl hne
  | cons v vs ih =>
    have hv := h v List.mem_cons_self
    cases vs with
    | nil =>
      have := Denotes.lastElement space_nil hv space_nil
      rwa [List.nil_append, List.append_nil] at this
    | cons w vs =>
      have hrest := ih (List.cons_ne_nil w vs) fun u hu ↦ h u (List.mem_cons_of_mem _ hu)
      exact Denotes.element space_nil hv space_nil hrest

theorem denotes_renderMembers {ms : List (String × Value)} (hne : ms ≠ [])
    (h : ∀ m ∈ ms, Denotes (.value m.2) (render m.2)) :
    Denotes (.members ms) (renderMembers ms) := by
  induction ms with
  | nil => exact absurd rfl hne
  | cons m ms ih =>
    obtain ⟨key, v⟩ := m
    have hv : Denotes (.value v) (render v) := h (key, v) List.mem_cons_self
    have hkey : Chars (key.toList.flatMap escapeChar) key.toList := chars_flatMap_escapeChar _
    cases ms with
    | nil =>
      have := Denotes.lastMember space_nil hkey space_nil space_nil hv space_nil
      simpa [renderMembers, renderString] using this
    | cons m ms =>
      have hrest := ih (List.cons_ne_nil m ms) fun u hu ↦ h u (List.mem_cons_of_mem _ hu)
      have := Denotes.member space_nil hkey space_nil space_nil hv space_nil hrest
      simpa [renderMembers, renderString] using this

/-- The literals a printed number comes back from. -/
def IsOtherLiteral (literal : List Char) : Prop :=
  Number.ofLiteral? literal = some (.other literal)

/-- **The printer prints texts of the value.** -/
theorem denotes_render {v : Value} {d : ℕ} (h : v.Within IsOtherLiteral d) :
    Denotes (.value v) (render v) := by
  induction h with
  | null => exact Denotes.litNull
  | @bool d b =>
    cases b with
    | true => exact Denotes.litTrue
    | false => exact Denotes.litFalse
  | posInt => exact Denotes.number (ofLiteral?_renderNat _)
  | other h => exact Denotes.number h
  | string => exact denotes_renderString _
  | @array d vs _ ih =>
    rcases eq_or_ne vs [] with rfl | hne
    · exact Denotes.emptyArray space_nil
    · exact Denotes.array (denotes_renderElements hne ih)
  | @object d ms _ ih =>
    rcases eq_or_ne ms [] with rfl | hne
    · exact Denotes.emptyObject space_nil
    · exact Denotes.object (denotes_renderMembers hne ih)

theorem text_render {v : Value} {d : ℕ} (h : v.Within IsOtherLiteral d) : Text (render v) v :=
  ⟨[], render v, [], space_nil, denotes_render h, space_nil,
    by rw [List.append_nil, List.nil_append]⟩

/-! ### One line -/

theorem newline_notMem_escapeChar (c : Char) : '\n' ∉ escapeChar c := by
  unfold escapeChar
  split
  · decide
  · decide
  · decide
  · decide
  · decide
  · decide
  · decide
  · next hnewline _ _ =>
    split
    · next hlt =>
      have hdigit : ∀ n < 16, '\n' ≠ Nat.digitChar n := by decide
      have hdiv := hdigit (c.toNat / 16) (by omega)
      have hmod := hdigit (c.toNat % 16) (by omega)
      simp [hdiv, hmod]
    · exact fun h ↦ hnewline (List.mem_singleton.1 h).symm

theorem newline_notMem_renderString (s : String) : '\n' ∉ renderString s := by
  have hchars : '\n' ∉ s.toList.flatMap escapeChar := by
    intro h
    obtain ⟨c, -, hc⟩ := List.mem_flatMap.1 h
    exact newline_notMem_escapeChar c hc
  simp [renderString, hchars]

theorem newline_notMem_renderElements {vs : List Value} (h : ∀ v ∈ vs, '\n' ∉ render v) :
    '\n' ∉ renderElements vs := by
  induction vs with
  | nil => exact List.not_mem_nil
  | cons v vs ih =>
    have hv := h v List.mem_cons_self
    have hvs := ih fun w hw ↦ h w (List.mem_cons_of_mem _ hw)
    cases vs with
    | nil => exact hv
    | cons w vs => simp [renderElements, hv, hvs]

theorem newline_notMem_renderMembers {ms : List (String × Value)}
    (h : ∀ m ∈ ms, '\n' ∉ render m.2) : '\n' ∉ renderMembers ms := by
  induction ms with
  | nil => exact List.not_mem_nil
  | cons m ms ih =>
    obtain ⟨key, v⟩ := m
    have hkey := newline_notMem_renderString key
    have hv : '\n' ∉ render v := h (key, v) List.mem_cons_self
    have hms := ih fun m hm ↦ h m (List.mem_cons_of_mem _ hm)
    cases ms with
    | nil => simp [renderMembers, hkey, hv]
    | cons m ms => simp [renderMembers, hkey, hv, hms]

/-- **A printed value is one line.** -/
theorem newline_notMem_render {v : Value} {d : ℕ} (h : v.Within IsOtherLiteral d) :
    '\n' ∉ render v := by
  have hliteral : ∀ literal : List Char, isNumberLiteral literal → '\n' ∉ literal :=
    fun _ hl hmem ↦ absurd (all_isNumberChar hl _ hmem) (by decide)
  induction h with
  | null => decide
  | @bool d b => cases b <;> decide
  | posInt => exact hliteral _ (isNumberLiteral_renderNat _)
  | other h => exact hliteral _ (isNumberLiteral_of_ofLiteral? h)
  | string => exact newline_notMem_renderString _
  | @array d vs _ ih => simp [render, newline_notMem_renderElements ih]
  | @object d ms _ ih => simp [render, newline_notMem_renderMembers ih]

/-- **Different values are printed differently.** -/
theorem render_inj {v w : Value} {d e : ℕ} (hv : v.Within IsOtherLiteral d)
    (hw : w.Within IsOtherLiteral e) : render v = render w ↔ v = w := by
  refine ⟨fun h ↦ ?_, fun h ↦ h ▸ rfl⟩
  have htext := text_render hv
  rw [h] at htext
  exact htext.unique (text_render hw)

end Json
