import Whistleblower.Foundations.Json.Grammar

/-!
# A JSON reader

A recursive-descent reader, and the proof that it reads **every** text of every value
(`fromStr_of_text`). It has two uses: it shows that a `Json.Reader` exists, with no limits at all,
so that results about an arbitrary reader are about something; and, being a function, it shows that
a text denotes at most one value (`Text.unique`).

The reader is structural in a fuel argument, so that it computes. Fuel never runs out: it is given
the length of the text, and each level of the descent has consumed a character.
-/

namespace Json

/-! ### The reader -/

def skipSpace (cs : List Char) : List Char :=
  cs.dropWhile isSpace

/-- Read an escape, after its backslash. -/
def readEscape : List Char → Option (Char × List Char)
  | 'u' :: a :: b :: c :: d :: rest =>
    (codeUnit? a b c d).bind fun n ↦
      if IsHighSurrogate n then
        match rest with
        | '\\' :: 'u' :: e :: f :: g :: h :: rest =>
          (codeUnit? e f g h).bind fun m ↦
            if IsLowSurrogate m then some (pairChar n m, rest) else none
        | _ => none
      else if IsLowSurrogate n then none
      else some (Char.ofNat n, rest)
  | e :: rest => (shortEscape? e).map fun c ↦ (c, rest)
  | [] => none

/-- Read the rest of a string, up to and with its closing quote. -/
def readChars : ℕ → List Char → Option (List Char × List Char)
  | 0, _ => none
  | _ + 1, [] => none
  | n + 1, c :: cs =>
    if c = '"' then some ([], cs)
    else if c = '\\' then
      (readEscape cs).bind fun p ↦ (readChars n p.2).map fun q ↦ (p.1 :: q.1, q.2)
    else if isRaw c then (readChars n cs).map fun q ↦ (c :: q.1, q.2)
    else none

/-- Read a number: the longest run of number characters has to be a literal. -/
def readNumber (cs : List Char) : Option (Value × List Char) :=
  (Number.ofLiteral? (cs.takeWhile isNumberChar)).map fun n ↦
    (.number n, cs.dropWhile isNumberChar)

mutual

/-- Read a value from the front, with no whitespace before it. -/
def readValue : ℕ → List Char → Option (Value × List Char)
  | 0, _ => none
  | n + 1, cs =>
    match cs with
    | 'n' :: 'u' :: 'l' :: 'l' :: rest => some (.null, rest)
    | 't' :: 'r' :: 'u' :: 'e' :: rest => some (.bool true, rest)
    | 'f' :: 'a' :: 'l' :: 's' :: 'e' :: rest => some (.bool false, rest)
    | '"' :: cs => (readChars n cs).map fun p ↦ (.string (String.ofList p.1), p.2)
    | '[' :: cs =>
      if (skipSpace cs).head? = some ']' then some (.array [], (skipSpace cs).tail)
      else (readElements n cs).map fun p ↦ (.array p.1, p.2)
    | '{' :: cs =>
      if (skipSpace cs).head? = some '}' then some (.object [], (skipSpace cs).tail)
      else (readMembers n cs).map fun p ↦ (.object p.1, p.2)
    | cs => readNumber cs

/-- Read the elements of an array, up to and with its closing bracket. -/
def readElements : ℕ → List Char → Option (List Value × List Char)
  | 0, _ => none
  | n + 1, cs =>
    (readValue n (skipSpace cs)).bind fun p ↦
      match skipSpace p.2 with
      | ',' :: rest => (readElements n rest).map fun q ↦ (p.1 :: q.1, q.2)
      | ']' :: rest => some ([p.1], rest)
      | _ => none

/-- Read the members of an object, up to and with its closing brace. -/
def readMembers : ℕ → List Char → Option (List (String × Value) × List Char)
  | 0, _ => none
  | n + 1, cs =>
    match skipSpace cs with
    | '"' :: cs =>
      (readChars n cs).bind fun k ↦
        match skipSpace k.2 with
        | ':' :: rest =>
          (readValue n (skipSpace rest)).bind fun p ↦
            match skipSpace p.2 with
            | ',' :: rest =>
              (readMembers n rest).map fun q ↦ ((String.ofList k.1, p.1) :: q.1, q.2)
            | '}' :: rest => some ([(String.ofList k.1, p.1)], rest)
            | _ => none
        | _ => none
    | _ => none

end

/-- Read a text that holds one value. -/
def fromStr (t : List Char) : Option Value :=
  (readValue (t.length + 1) (skipSpace t)).bind fun p ↦
    if skipSpace p.2 = [] then some p.1 else none

/-! ### Whitespace and what follows a value -/

theorem skipSpace_append {w : List Char} (hw : Space w) (t : List Char) :
    skipSpace (w ++ t) = skipSpace t := by
  rw [skipSpace, List.dropWhile_append_of_pos hw, skipSpace]

theorem skipSpace_of_space {w : List Char} (hw : Space w) : skipSpace w = [] := by
  rw [← List.append_nil w, skipSpace_append hw]
  rfl

theorem skipSpace_cons {c : Char} (hc : isSpace c = false) (t : List Char) :
    skipSpace (c :: t) = c :: t :=
  List.dropWhile_cons_of_neg (by simp [hc])

/-- A number that comes before this text ends where this text starts. -/
def EndsNumber (rest : List Char) : Prop :=
  ∀ c ∈ rest.head?, isNumberChar c = false

theorem not_isNumberChar_of_isSpace {c : Char} (h : isSpace c) : isNumberChar c = false := by
  simp only [isSpace, Bool.or_eq_true, beq_iff_eq] at h
  rcases h with ((rfl | rfl) | rfl) | rfl <;> decide

theorem endsNumber_cons {c : Char} (hc : isNumberChar c = false) (t : List Char) :
    EndsNumber (c :: t) := by
  intro d hd
  obtain rfl : c = d := by simpa using hd
  exact hc

theorem endsNumber_append {w rest : List Char} (hw : Space w) (h : EndsNumber rest) :
    EndsNumber (w ++ rest) := by
  cases w with
  | nil => exact h
  | cons c w => exact endsNumber_cons (not_isNumberChar_of_isSpace (hw c List.mem_cons_self)) _

theorem endsNumber_of_space {w : List Char} (hw : Space w) : EndsNumber w := by
  rw [← List.append_nil w]
  exact endsNumber_append hw fun c hc ↦ by simp at hc

/-! ### Completeness of the parts -/

theorem readEscape_of_escape {e : List Char} {c : Char} (h : Escape e c) (rest : List Char) :
    readEscape (e ++ rest) = some (c, rest) := by
  cases h with
  | @short e c hc =>
    have hu : e ≠ 'u' := by
      rintro rfl
      cases hc
    have hread : readEscape (e :: rest) = (shortEscape? e).map fun c ↦ (c, rest) := by
      rw [readEscape]
      rintro a b d f rest' rfl
      exact absurd rfl hu
    rw [List.singleton_append, hread, hc, Option.map_some]
  | unit hn hhigh hlow =>
    simp only [List.cons_append, List.nil_append, readEscape, hn, Option.bind_some, if_neg hhigh,
      if_neg hlow]
  | pair hn hm hhigh hlow =>
    simp only [List.cons_append, List.nil_append, readEscape, hn, hm, Option.bind_some,
      if_pos hhigh, if_pos hlow]

/-- Each character of a string takes one unit of fuel, and its text is at least as long. -/
theorem readChars_of_chars {t s : List Char} (h : Chars t s) {n : ℕ} (hn : t.length < n)
    (rest : List Char) : readChars n (t ++ '"' :: rest) = some (s, rest) := by
  induction h generalizing n with
  | nil =>
    obtain ⟨n, rfl⟩ : ∃ m, n = m + 1 := ⟨n - 1, by simp at hn; omega⟩
    simp [readChars]
  | @raw c t s hc _ ih =>
    rw [List.length_cons] at hn
    obtain ⟨n, rfl⟩ : ∃ m, n = m + 1 := ⟨n - 1, by omega⟩
    have hq : c ≠ '"' := by rintro rfl; exact absurd hc (by decide)
    have hb : c ≠ '\\' := by rintro rfl; exact absurd hc (by decide)
    rw [List.cons_append, readChars, if_neg hq, if_neg hb, if_pos hc, ih (by omega),
      Option.map_some]
  | @escape e c t s he _ ih =>
    rw [List.length_cons, List.length_append] at hn
    obtain ⟨n, rfl⟩ : ∃ m, n = m + 1 := ⟨n - 1, by omega⟩
    rw [List.cons_append, List.append_assoc, readChars, if_neg (by decide), if_pos rfl,
      readEscape_of_escape he, Option.bind_some, ih (by omega), Option.map_some]

theorem isNumberLiteral_of_ofLiteral? {literal : List Char} {n : Number}
    (h : Number.ofLiteral? literal = some n) : isNumberLiteral literal := by
  rw [Number.ofLiteral?] at h
  by_contra hnot
  rw [if_neg hnot] at h
  cases h

theorem all_isNumberChar {literal : List Char} (h : isNumberLiteral literal) :
    ∀ c ∈ literal, isNumberChar c :=
  List.all_eq_true.1 (Bool.and_eq_true_iff.1 h).1

theorem readNumber_of_literal {literal rest : List Char} {n : Number}
    (h : Number.ofLiteral? literal = some n) (hrest : EndsNumber rest) :
    readNumber (literal ++ rest) = some (.number n, rest) := by
  have hall : ∀ c ∈ literal, isNumberChar c := all_isNumberChar (isNumberLiteral_of_ofLiteral? h)
  have htake : rest.takeWhile isNumberChar = [] ∧ rest.dropWhile isNumberChar = rest := by
    cases rest with
    | nil => exact ⟨rfl, rfl⟩
    | cons c rest =>
      have hc : isNumberChar c = false := hrest c rfl
      simp [hc]
  rw [readNumber, List.takeWhile_append_of_pos hall, List.dropWhile_append_of_pos hall, htake.1,
    htake.2, List.append_nil, h, Option.map_some]

/-! ### How texts start -/

/-- A number literal is not empty, and starts with a digit or a minus sign. -/
theorem head_of_isNumberLiteral {literal : List Char} (h : isNumberLiteral literal) :
    ∃ c cs, literal = c :: cs ∧ (c.isDigit ∨ c = '-') := by
  have hparse := (Bool.and_eq_true_iff.1 h).2
  cases literal with
  | nil => exact absurd hparse (by decide)
  | cons c cs =>
    refine ⟨c, cs, rfl, ?_⟩
    by_cases hminus : c = '-'
    · exact Or.inr hminus
    · refine Or.inl ?_
      rw [if_neg (by simpa using hminus)] at hparse
      by_contra hdigit
      have hzero : c ≠ '0' := by rintro rfl; exact hdigit (by decide)
      have hnone : intPart? (c :: cs) = none := by
        rw [intPart?, digits?, if_neg hdigit]
        exact fun _ heq ↦ hzero (List.cons.inj heq).1
      rw [hnone] at hparse
      exact absurd hparse (by decide)

/-- The first character of a value: no whitespace and no closing bracket. -/
def StartsValue (c : Char) : Prop :=
  isSpace c = false ∧ c ≠ ']' ∧ c ≠ '}'

theorem startsValue_of_digit_or_minus {c : Char} (h : c.isDigit ∨ c = '-') : StartsValue c := by
  have hne : ∀ d : Char, d.isDigit = false → d ≠ '-' → c ≠ d := by
    rintro d hd hminus rfl
    rcases h with h | h
    · rw [hd] at h
      cases h
    · exact hminus h
  refine ⟨?_, hne _ (by decide) (by decide), hne _ (by decide) (by decide)⟩
  simp only [isSpace, Bool.or_eq_false_iff, beq_eq_false_iff_ne]
  exact ⟨⟨⟨hne _ (by decide) (by decide), hne _ (by decide) (by decide)⟩,
    hne _ (by decide) (by decide)⟩, hne _ (by decide) (by decide)⟩

theorem Denotes.value_head {v : Value} {t : List Char} (h : Denotes (.value v) t) :
    ∃ c cs, t = c :: cs ∧ StartsValue c := by
  have hconst : ∀ c, isSpace c = false → c ≠ ']' → c ≠ '}' → StartsValue c :=
    fun _ h₁ h₂ h₃ ↦ ⟨h₁, h₂, h₃⟩
  cases h with
  | number hn =>
    obtain ⟨c, cs, ht, hc⟩ := head_of_isNumberLiteral (isNumberLiteral_of_ofLiteral? hn)
    exact ⟨c, cs, ht, startsValue_of_digit_or_minus hc⟩
  | litNull | litTrue | litFalse | string | emptyArray | array | emptyObject | object =>
    exact ⟨_, _, rfl, hconst _ (by decide) (by decide) (by decide)⟩

/-- The inside of an array, whitespace aside, does not start with its closing bracket. -/
theorem Denotes.elements_head {vs : List Value} {t : List Char} (h : Denotes (.elements vs) t)
    (rest : List Char) : (skipSpace (t ++ rest)).head? ≠ some ']' := by
  cases h with
  | lastElement hw hv | element hw hv =>
    obtain ⟨c, cs, rfl, hc⟩ := hv.value_head
    rw [List.append_assoc, skipSpace_append hw, List.append_assoc, List.cons_append,
      skipSpace_cons hc.1, List.head?_cons]
    exact fun heq ↦ hc.2.1 (Option.some.inj heq)

/-- The inside of an object, whitespace aside, starts with a quote. -/
theorem Denotes.members_head {ms : List (String × Value)} {t : List Char}
    (h : Denotes (.members ms) t) (rest : List Char) :
    (skipSpace (t ++ rest)).head? = some '"' := by
  cases h with
  | lastMember hw | member hw =>
    rw [List.append_assoc, skipSpace_append hw, List.cons_append, skipSpace_cons (by decide),
      List.head?_cons]

/-! ### Completeness -/

/-- Reading a piece of text, with enough fuel and in front of what may follow it, gives the item.
The insides of arrays and objects are read with the closing bracket. -/
def ReadsAs : Item → List Char → Prop
  | .value v, t => ∀ n rest, t.length < n → EndsNumber rest →
      readValue n (t ++ rest) = some (v, rest)
  | .elements vs, t => ∀ n rest, t.length + 1 < n →
      readElements n (t ++ ']' :: rest) = some (vs, rest)
  | .members ms, t => ∀ n rest, t.length + 1 < n →
      readMembers n (t ++ '}' :: rest) = some (ms, rest)

theorem readValue_number {c : Char} (hc : c.isDigit ∨ c = '-') (n : ℕ) (cs : List Char) :
    readValue (n + 1) (c :: cs) = readNumber (c :: cs) := by
  have hne : ∀ d : Char, d.isDigit = false → d ≠ '-' → c ≠ d := by
    rintro d hd hminus rfl
    exact hc.elim (fun h ↦ by rw [hd] at h; cases h) hminus
  have hn := hne 'n' (by decide) (by decide)
  have ht := hne 't' (by decide) (by decide)
  have hf := hne 'f' (by decide) (by decide)
  have hq := hne '"' (by decide) (by decide)
  have ha := hne '[' (by decide) (by decide)
  have ho := hne '{' (by decide) (by decide)
  rw [readValue] <;> simp_all

/-- One element in front of what the rest of the array is read as. -/
theorem readElements_succ {n : ℕ} {cs rest : List Char} {v : Value}
    (h : readValue n (skipSpace cs) = some (v, rest)) :
    readElements (n + 1) cs = match skipSpace rest with
      | ',' :: rest => (readElements n rest).map fun q ↦ (v :: q.1, q.2)
      | ']' :: rest => some ([v], rest)
      | _ => none := by
  rw [readElements, h, Option.bind_some]

/-- One member in front of what the rest of the object is read as. -/
theorem readMembers_succ {n : ℕ} {w k s u w' t rest : List Char} {v : Value} (hw : Space w)
    (hk : Chars k s) (hu : Space u) (hw' : Space w') (hn : k.length < n)
    (h : readValue n (skipSpace t) = some (v, rest)) :
    readMembers (n + 1) (w ++ '"' :: (k ++ '"' :: (u ++ ':' :: (w' ++ t)))) =
      match skipSpace rest with
      | ',' :: rest => (readMembers n rest).map fun q ↦ ((String.ofList s, v) :: q.1, q.2)
      | '}' :: rest => some ([(String.ofList s, v)], rest)
      | _ => none := by
  have hkey : readChars n (k ++ '"' :: (u ++ ':' :: (w' ++ t))) = some (s, u ++ ':' :: (w' ++ t)) :=
    readChars_of_chars hk hn _
  simp only [readMembers, skipSpace_append hw, skipSpace_cons (c := '"') (by decide), hkey,
    Option.bind_some, skipSpace_append hu, skipSpace_cons (c := ':') (by decide),
    skipSpace_append hw', h]

/-- **Completeness.** By induction on the derivation: every piece of text is read as what it
denotes. -/
theorem Denotes.readsAs {item : Item} {t : List Char} (h : Denotes item t) : ReadsAs item t := by
  induction h with
  | litNull | litTrue | litFalse =>
    intro n rest hn _
    obtain ⟨n, rfl⟩ : ∃ m, n = m + 1 := ⟨n - 1, by omega⟩
    rfl
  | @number literal m hm =>
    intro n rest hn hrest
    obtain ⟨n, rfl⟩ : ∃ m, n = m + 1 := ⟨n - 1, by omega⟩
    -- the first character says that a number follows
    obtain ⟨c, cs, rfl, hc⟩ := head_of_isNumberLiteral (isNumberLiteral_of_ofLiteral? hm)
    rw [List.cons_append, readValue_number hc, ← List.cons_append]
    exact readNumber_of_literal hm hrest
  | @string t s hs =>
    intro n rest hn _
    obtain ⟨n, rfl⟩ : ∃ m, n = m + 1 := ⟨n - 1, by omega⟩
    simp only [List.length_cons, List.length_append, List.length_nil] at hn
    rw [List.cons_append, List.append_assoc, List.singleton_append, readValue,
      readChars_of_chars hs (by omega), Option.map_some]
  | @emptyArray w hw | @emptyObject w hw =>
    intro n rest hn _
    obtain ⟨n, rfl⟩ : ∃ m, n = m + 1 := ⟨n - 1, by omega⟩
    rw [List.cons_append, List.append_assoc, List.singleton_append, readValue,
      skipSpace_append hw, skipSpace_cons (by decide), List.head?_cons, if_pos rfl, List.tail_cons]
  | @array vs t ht ih =>
    intro n rest hn _
    obtain ⟨n, rfl⟩ : ∃ m, n = m + 1 := ⟨n - 1, by omega⟩
    simp only [List.length_cons, List.length_append, List.length_nil] at hn
    rw [List.cons_append, List.append_assoc, List.singleton_append, readValue,
      if_neg (ht.elements_head _), ih n rest (by omega), Option.map_some]
  | @object ms t ht ih =>
    intro n rest hn _
    obtain ⟨n, rfl⟩ : ∃ m, n = m + 1 := ⟨n - 1, by omega⟩
    simp only [List.length_cons, List.length_append, List.length_nil] at hn
    rw [List.cons_append, List.append_assoc, List.singleton_append, readValue, ht.members_head,
      if_neg (by decide), ih n rest (by omega), Option.map_some]
  -- after an element, the bracket or the comma ends a number
  | @lastElement w v t w' hw hv hw' ih =>
    intro n rest hn
    obtain ⟨n, rfl⟩ : ∃ m, n = m + 1 := ⟨n - 1, by omega⟩
    simp only [List.length_append] at hn
    obtain ⟨c, cs, ht, hc⟩ := hv.value_head
    have hread : readValue n (t ++ (w' ++ ']' :: rest)) = some (v, w' ++ ']' :: rest) :=
      ih n _ (by omega) (endsNumber_append hw' (endsNumber_cons (by decide) _))
    have hskip : skipSpace (w ++ (t ++ w') ++ ']' :: rest) = t ++ (w' ++ ']' :: rest) := by
      rw [List.append_assoc, skipSpace_append hw, List.append_assoc, ht, List.cons_append,
        skipSpace_cons hc.1]
    rw [readElements_succ (by rw [hskip]; exact hread), skipSpace_append hw',
      skipSpace_cons (by decide)]
    rfl
  | @element w v t w' vs r hw hv hw' _ ih ihr =>
    intro n rest hn
    obtain ⟨n, rfl⟩ : ∃ m, n = m + 1 := ⟨n - 1, by omega⟩
    simp only [List.length_append, List.length_cons] at hn
    obtain ⟨c, cs, ht, hc⟩ := hv.value_head
    have hread : readValue n (t ++ (w' ++ ',' :: (r ++ ']' :: rest))) =
        some (v, w' ++ ',' :: (r ++ ']' :: rest)) :=
      ih n _ (by omega) (endsNumber_append hw' (endsNumber_cons (by decide) _))
    have hskip : skipSpace (w ++ (t ++ (w' ++ ',' :: r)) ++ ']' :: rest) =
        t ++ (w' ++ ',' :: (r ++ ']' :: rest)) := by
      simp only [List.append_assoc, List.cons_append]
      rw [skipSpace_append hw, ht, List.cons_append, skipSpace_cons hc.1]
    rw [readElements_succ (by rw [hskip]; exact hread), skipSpace_append hw',
      skipSpace_cons (by decide)]
    show (readElements n (r ++ ']' :: rest)).map _ = _
    rw [ihr n rest (by omega), Option.map_some]
  -- a member is an element behind a key and a colon
  | @lastMember w k s u w' v t w'' hw hk hu hw' hv hw'' ih =>
    intro n rest hn
    obtain ⟨n, rfl⟩ : ∃ m, n = m + 1 := ⟨n - 1, by omega⟩
    simp only [List.length_append, List.length_cons] at hn
    obtain ⟨c, cs, ht, hc⟩ := hv.value_head
    have hread : readValue n (skipSpace (t ++ (w'' ++ '}' :: rest))) =
        some (v, w'' ++ '}' :: rest) := by
      rw [ht, List.cons_append, skipSpace_cons hc.1, ← List.cons_append, ← ht]
      exact ih n _ (by omega) (endsNumber_append hw'' (endsNumber_cons (by decide) _))
    have hsucc := readMembers_succ hw hk hu hw' (by omega) hread
    rw [skipSpace_append hw'', skipSpace_cons (by decide)] at hsucc
    simpa only [List.append_assoc, List.cons_append] using hsucc
  | @member w k s u w' v t w'' ms r hw hk hu hw' hv hw'' _ ih ihr =>
    intro n rest hn
    obtain ⟨n, rfl⟩ : ∃ m, n = m + 1 := ⟨n - 1, by omega⟩
    simp only [List.length_append, List.length_cons] at hn
    obtain ⟨c, cs, ht, hc⟩ := hv.value_head
    have hread : readValue n (skipSpace (t ++ (w'' ++ ',' :: (r ++ '}' :: rest)))) =
        some (v, w'' ++ ',' :: (r ++ '}' :: rest)) := by
      rw [ht, List.cons_append, skipSpace_cons hc.1, ← List.cons_append, ← ht]
      exact ih n _ (by omega) (endsNumber_append hw'' (endsNumber_cons (by decide) _))
    have hsucc := readMembers_succ hw hk hu hw' (by omega) hread
    rw [skipSpace_append hw'', skipSpace_cons (by decide)] at hsucc
    simp only [ihr n rest (by omega), Option.map_some] at hsucc
    simpa only [List.append_assoc, List.cons_append] using hsucc

/-- **Every text of a value is read as that value.** -/
theorem fromStr_of_text {t : List Char} {v : Value} (h : Text t v) : fromStr t = some v := by
  obtain ⟨w, body, w', hw, hbody, hw', rfl⟩ := h
  obtain ⟨c, cs, hcs, hc⟩ := hbody.value_head
  have hskip : skipSpace (w ++ (body ++ w')) = body ++ w' := by
    rw [skipSpace_append hw, hcs, List.cons_append, skipSpace_cons hc.1]
  have hread : readValue ((w ++ (body ++ w')).length + 1) (body ++ w') = some (v, w') :=
    hbody.readsAs _ _ (by simp only [List.length_append]; omega) (endsNumber_of_space hw')
  rw [fromStr, hskip, hread, Option.bind_some, if_pos (skipSpace_of_space hw')]

/-- **A text denotes at most one value.** -/
theorem Text.unique {t : List Char} {v v' : Value} (h : Text t v) (h' : Text t v') : v = v' :=
  Option.some.inj ((fromStr_of_text h).symm.trans (fromStr_of_text h'))

/-- The reader of this module, which has no limits. -/
def reader : Reader where
  fromStr := fromStr
  maxDepth := 127
  finite := fun _ ↦ True
  fromStr_of_text h _ := fromStr_of_text h

end Json
