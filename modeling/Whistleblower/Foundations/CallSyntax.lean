import Mathlib.Data.Bool.AllAny
import Mathlib.Data.List.Basic
import Mathlib.Data.Char

/-!
# A grammar of calls

Expressions such as `name("first", "second")`: a name, and string literals between parentheses, with
backslash escapes in them. A program that splices foreign text into such an expression wants to know
that the text stays where it has been put.

What counts as a name, a blank or an escape differs from one language to the next, so the grammar is
over any choice of these (`CallSyntax`) that keeps them apart from the marks of a call. It is given
by what a text is made of (`Denotes`), not by a reader.

Two results. A text denotes one call at most (`Denotes.unique`): wherever one of the parts of a text
ends, no other division of the text has it end elsewhere. And text without quotes and backslashes is
a literal of itself (`reads_two`). Nothing else about a text matters, however long it is.
-/

/-- What an expression is made of. -/
structure CallSyntax where
  isBlank : Char → Bool
  isName : Char → Bool
  /-- The texts that may follow a backslash, and the characters they stand for. -/
  Escape : List Char → Char → Prop
  not_blank_of_mark : ∀ c ∈ ['"', '(', ')', ','], isBlank c = false
  not_name_of_mark : ∀ c ∈ ['"', '(', ')', ','], isName c = false
  not_blank_of_name : ∀ c, isName c = true → isBlank c = false
  /-- Where an escape ends is up to the escape. -/
  escape_unique : ∀ {e e' c c' r r'}, Escape e c → Escape e' c' → e ++ r = e' ++ r' →
    e = e' ∧ c = c'
  blank_space : isBlank ' ' = true
  name_word : ∀ c, c.isAlphanum ∨ c = '.' ∨ c = '_' → isName c = true

/-- A call, with its arguments. -/
structure Call where
  name : List Char
  args : List (List Char)

namespace CallSyntax

variable (G : CallSyntax)

def Blanks (w : List Char) : Prop :=
  ∀ c ∈ w, G.isBlank c = true

def Name (w : List Char) : Prop :=
  w ≠ [] ∧ ∀ c ∈ w, G.isName c = true

/-- What stands between two quotes, and the value it has. -/
inductive Literal : List Char → List Char → Prop
  | nil : Literal [] []
  | plain {c t v} : c ≠ '"' → c ≠ '\\' → Literal t v → Literal (c :: t) (c :: v)
  | escape {e c t v} : G.Escape e c → Literal t v → Literal ('\\' :: (e ++ t)) (c :: v)

/-- What follows a literal: the end of the call, or a comma and another literal. -/
inductive More : List Char → List (List Char) → Prop
  | close {w w'} : G.Blanks w → G.Blanks w' → More (w ++ ')' :: w') []
  | comma {w w' t v r vs} : G.Blanks w → G.Blanks w' → G.Literal t v → More r vs →
      More (w ++ ',' :: (w' ++ '"' :: (t ++ '"' :: r))) (v :: vs)

/-- What follows the opening parenthesis: the end of the call, or a literal. -/
inductive Arguments : List Char → List (List Char) → Prop
  | none {w w'} : G.Blanks w → G.Blanks w' → Arguments (w ++ ')' :: w') []
  | some {w t v r vs} : G.Blanks w → G.Literal t v → G.More r vs →
      Arguments (w ++ '"' :: (t ++ '"' :: r)) (v :: vs)

/-- A text denotes a call. -/
inductive Denotes : List Char → Call → Prop
  | call {w name w' r vs} : G.Blanks w → G.Name name → G.Blanks w' → G.Arguments r vs →
      Denotes (w ++ (name ++ (w' ++ '(' :: r))) ⟨name, vs⟩

variable {G}

/-! ### A text denotes one call at most -/

/-- A run of characters ends where there is one of another kind. -/
theorem run_unique {p : Char → Bool} {w w' r r' : List Char} {c c' : Char}
    (hw : ∀ d ∈ w, p d = true) (hw' : ∀ d ∈ w', p d = true) (hc : p c = false) (hc' : p c' = false)
    (h : w ++ c :: r = w' ++ c' :: r') : w = w' ∧ c = c' ∧ r = r' := by
  induction w generalizing w' with
  | nil =>
    cases w' with
    | nil => exact ⟨rfl, List.cons.inj h⟩
    | cons d w' =>
      obtain ⟨rfl, -⟩ := List.cons.inj h
      rw [hw' c List.mem_cons_self] at hc
      cases hc
  | cons d w ih =>
    cases w' with
    | nil =>
      obtain ⟨rfl, -⟩ := List.cons.inj h
      rw [hw d List.mem_cons_self] at hc'
      cases hc'
    | cons d' w' =>
      obtain ⟨rfl, htail⟩ := List.cons.inj h
      obtain ⟨rfl, hrest⟩ := ih (fun d hd ↦ hw d (List.mem_cons_of_mem _ hd))
        (fun d hd ↦ hw' d (List.mem_cons_of_mem _ hd)) htail
      exact ⟨rfl, hrest⟩

/-- Blanks end at a mark, wherever they are. -/
theorem Blanks.unique {w w' r r' : List Char} {c c' : Char} (hw : G.Blanks w) (hw' : G.Blanks w')
    (hc : c ∈ ['"', '(', ')', ',']) (hc' : c' ∈ ['"', '(', ')', ','])
    (h : w ++ c :: r = w' ++ c' :: r') : c = c' ∧ r = r' :=
  (run_unique hw hw' (G.not_blank_of_mark c hc) (G.not_blank_of_mark c' hc') h).2

/-- **A literal ends at its quote**, and has one value. -/
theorem Literal.unique {t t' v v' r r' : List Char} (h : G.Literal t v) (h' : G.Literal t' v')
    (heq : t ++ '"' :: r = t' ++ '"' :: r') : v = v' ∧ r = r' := by
  induction h generalizing t' v' with
  | nil =>
    cases h' with
    | nil => exact ⟨rfl, (List.cons.inj heq).2⟩
    | plain hquote => exact absurd (List.cons.inj heq).1.symm hquote
    | escape => exact absurd (List.cons.inj heq).1 (by decide)
  | plain hquote hbackslash _ ih =>
    cases h' with
    | nil => exact absurd (List.cons.inj heq).1 hquote
    | plain _ _ h' =>
      obtain ⟨rfl, htail⟩ := List.cons.inj heq
      obtain ⟨rfl, hrest⟩ := ih h' htail
      exact ⟨rfl, hrest⟩
    | escape => exact absurd (List.cons.inj heq).1 hbackslash
  | escape he _ ih =>
    cases h' with
    | nil => exact absurd (List.cons.inj heq).1 (by decide)
    | plain _ hbackslash => exact absurd (List.cons.inj heq).1.symm hbackslash
    | escape he' h' =>
      simp only [List.cons_append, List.append_assoc, List.cons.injEq, true_and] at heq
      obtain ⟨rfl, rfl⟩ := G.escape_unique he he' heq
      obtain ⟨rfl, hrest⟩ := ih h' (List.append_cancel_left heq)
      exact ⟨rfl, hrest⟩

theorem More.unique {t t' : List Char} {vs vs' : List (List Char)} (h : G.More t vs)
    (h' : G.More t' vs') (heq : t = t') : vs = vs' := by
  induction h generalizing t' vs' with
  | close hw =>
    cases h' with
    | close => rfl
    | comma hw' => exact absurd (hw.unique hw' (by decide) (by decide) heq).1 (by decide)
  | comma hw hblank ht _ ih =>
    cases h' with
    | close hw' => exact absurd (hw.unique hw' (by decide) (by decide) heq).1 (by decide)
    | comma hw' hblank' ht' hmore' =>
      have hcomma := (hw.unique hw' (by decide) (by decide) heq).2
      have hquote := (hblank.unique hblank' (by decide) (by decide) hcomma).2
      obtain ⟨rfl, hrest⟩ := ht.unique ht' hquote
      rw [ih hmore' hrest]

theorem Arguments.unique {t t' : List Char} {vs vs' : List (List Char)} (h : G.Arguments t vs)
    (h' : G.Arguments t' vs') (heq : t = t') : vs = vs' := by
  cases h with
  | none hw =>
    cases h' with
    | none => rfl
    | some hw' => exact absurd (hw.unique hw' (by decide) (by decide) heq).1 (by decide)
  | some hw ht hmore =>
    cases h' with
    | none hw' => exact absurd (hw.unique hw' (by decide) (by decide) heq).1 (by decide)
    | some hw' ht' hmore' =>
      have hquote := (hw.unique hw' (by decide) (by decide) heq).2
      obtain ⟨rfl, hrest⟩ := ht.unique ht' hquote
      rw [hmore.unique hmore' hrest]

/-- A name ends at the first character that is none, blank or parenthesis. -/
theorem Blanks.exists_cons {w r : List Char} (hw : G.Blanks w) :
    ∃ c s, w ++ '(' :: r = c :: s ∧ G.isName c = false := by
  cases w with
  | nil => exact ⟨'(', r, rfl, G.not_name_of_mark '(' (by decide)⟩
  | cons c w =>
    refine ⟨c, w ++ '(' :: r, rfl, Bool.eq_false_iff.2 fun hname ↦ ?_⟩
    have hblank := hw c List.mem_cons_self
    rw [G.not_blank_of_name c hname] at hblank
    cases hblank

/-- **A text denotes one call at most.** -/
theorem Denotes.unique {t : List Char} {c c' : Call} (h : G.Denotes t c) (h' : G.Denotes t c') :
    c = c' := by
  generalize heq : t = t' at h'
  obtain @⟨w, name, w₁, r, vs, hw, ⟨hne, hname⟩, hw₁, hargs⟩ := h
  obtain @⟨w', name', w₁', r', vs', hw', ⟨hne', hname'⟩, hw₁', hargs'⟩ := h'
  obtain ⟨n, tail, rfl⟩ := List.exists_cons_of_ne_nil hne
  obtain ⟨n', tail', rfl⟩ := List.exists_cons_of_ne_nil hne'
  -- the blanks in front end where the name starts
  obtain ⟨-, rfl, htail⟩ := run_unique hw hw'
    (G.not_blank_of_name n (hname n List.mem_cons_self))
    (G.not_blank_of_name n' (hname' n' List.mem_cons_self)) heq
  obtain ⟨c, s, hafter, hc⟩ := hw₁.exists_cons (r := r)
  obtain ⟨c', s', hafter', hc'⟩ := hw₁'.exists_cons (r := r')
  have hend : tail ++ c :: s = tail' ++ c' :: s' := by
    rw [← hafter, ← hafter']
    exact htail
  obtain ⟨rfl, rfl, rfl⟩ := run_unique (fun d hd ↦ hname d (List.mem_cons_of_mem _ hd))
    (fun d hd ↦ hname' d (List.mem_cons_of_mem _ hd)) hc hc' hend
  have hopen := (hw₁.unique hw₁' (by decide) (by decide) (hafter.trans hafter'.symm)).2
  rw [hargs.unique hargs' hopen]

/-! ### Text that stays where it is put -/

/-- A literal has no other way to read the text. -/
def Plain (t : List Char) : Prop :=
  ∀ c ∈ t, c ≠ '"' ∧ c ≠ '\\'

theorem Plain.literal {t : List Char} (h : Plain t) : G.Literal t t := by
  induction t with
  | nil => exact Literal.nil
  | cons c t ih =>
    obtain ⟨hquote, hbackslash⟩ := h c List.mem_cons_self
    exact Literal.plain hquote hbackslash (ih fun d hd ↦ h d (List.mem_cons_of_mem _ hd))

/-- The text denotes this call, and no other. -/
def Reads (G : CallSyntax) (t : List Char) (c : Call) : Prop :=
  G.Denotes t c ∧ ∀ c', G.Denotes t c' → c' = c

/-- **Two arguments**, as they are usually written. -/
theorem reads_two (G : CallSyntax) {name a b : List Char} (hne : name ≠ [])
    (hname : ∀ c ∈ name, c.isAlphanum ∨ c = '.' ∨ c = '_') (ha : Plain a) (hb : Plain b) :
    G.Reads (name ++ ('(' :: '"' :: (a ++ ('"' :: ',' :: ' ' :: '"' :: (b ++ ['"', ')'])))))
      ⟨name, [a, b]⟩ := by
  have hnone : G.Blanks [] := fun c hc ↦ absurd hc List.not_mem_nil
  have hspace : G.Blanks [' '] := by
    intro c hc
    rw [List.mem_singleton.1 hc]
    exact G.blank_space
  have hclose : G.More [')'] [] := More.close hnone hnone
  have hmore : G.More (',' :: ' ' :: '"' :: (b ++ ['"', ')'])) [b] :=
    More.comma hnone hspace hb.literal hclose
  have hargs : G.Arguments ('"' :: (a ++ ('"' :: ',' :: ' ' :: '"' :: (b ++ ['"', ')']))))
      [a, b] := Arguments.some hnone ha.literal hmore
  have hdenotes : G.Denotes _ ⟨name, [a, b]⟩ :=
    Denotes.call hnone ⟨hne, fun c hc ↦ G.name_word c (hname c hc)⟩ hnone hargs
  exact ⟨hdenotes, fun c' hc' ↦ hc'.unique hdenotes⟩

/-! ### An instance -/

/-- Words with dots in them for names, white space, and the usual escapes. -/
def usual : CallSyntax where
  isBlank c := c = ' ' ∨ c = '\t' ∨ c = '\n'
  isName c := c.isAlphanum ∨ c = '.' ∨ c = '_'
  Escape e c := (e, c) ∈ [(['"'], '"'), (['\\'], '\\'), (['n'], '\n'), (['t'], '\t')]
  not_blank_of_mark := List.all_iff_forall_prop.1 (by decide)
  not_name_of_mark := List.all_iff_forall_prop.1 (by decide)
  not_blank_of_name c hname := by
    rw [decide_eq_false_iff_not]
    rintro (rfl | rfl | rfl) <;> exact absurd hname (by decide)
  escape_unique := by
    intro e e' c c' r r' he he' heq
    simp only [List.mem_cons, Prod.mk.injEq, List.not_mem_nil, or_false] at he he'
    rcases he with ⟨rfl, rfl⟩ | ⟨rfl, rfl⟩ | ⟨rfl, rfl⟩ | ⟨rfl, rfl⟩ <;>
      rcases he' with ⟨rfl, rfl⟩ | ⟨rfl, rfl⟩ | ⟨rfl, rfl⟩ | ⟨rfl, rfl⟩ <;>
        first
          | exact ⟨rfl, rfl⟩
          | exact absurd (List.cons.inj heq).1 (by decide)
  blank_space := rfl
  name_word c hc := decide_eq_true hc

instance : Inhabited CallSyntax :=
  ⟨usual⟩

end CallSyntax
