import Mathlib.Data.List.Basic
import Mathlib.Data.UInt

/-!
# JSON: values and texts

The values of JSON and the relation between a value and the texts that denote it. `Text t v` says
that `t` is one of the texts of `v`; whitespace and the choice of escapes in strings are free in it.
The order of the members of an object is not: it is that of the value, and whoever wants it free
says so of the value. The relation is stated on its own, with no reader in mind, so that "every text
denoting `v`" means what it says.

Two design choices follow what readers do with the result.

* A number is kept as the unsigned 64-bit integer it denotes, when its literal is one, and as its
  literal otherwise: nothing is said here about the arithmetic of fractions and exponents.
* An object keeps its members in text order, repetitions included. Looking a key up takes the
  **last** of them, which is what filling a map from left to right leaves.
-/

namespace Json

/-! ### Values -/

/-- A number: an unsigned 64-bit integer, or the literal of any other number. -/
inductive Number where
  | posInt (n : UInt64)
  | other (literal : List Char)
  deriving DecidableEq, Repr

/-- A JSON value. The members of an object are in text order. -/
inductive Value where
  | null
  | bool (b : Bool)
  | number (n : Number)
  | string (s : String)
  | array (elements : List Value)
  | object (members : List (String × Value))
  deriving Inhabited

namespace Value

/-- The member under a key, the last one if there are several; `null` if there is none or the value
is no object. -/
def get (v : Value) (key : String) : Value :=
  match v with
  | object members => (members.reverse.lookup key).getD null
  | _ => null

/-- The unsigned 64-bit integer a value is, if it is one. -/
def asU64 : Value → Option UInt64
  | number (.posInt n) => some n
  | _ => none

/-- The string a value is, if it is one. -/
def asStr : Value → Option String
  | string s => some s
  | _ => none

/-- The elements of an array. -/
def asArray : Value → Option (List Value)
  | array elements => some elements
  | _ => none

/-- No member of the list has the key of another. -/
def UniqueKeys (members : List (String × Value)) : Prop :=
  (members.map Prod.fst).Nodup

/-- Among members with different keys, each is found under its key. -/
theorem get_of_mem {members : List (String × Value)} (hkeys : UniqueKeys members) {key : String}
    {v : Value} (h : (key, v) ∈ members) : (object members).get key = v := by
  have hmem : (key, v) ∈ members.reverse := List.mem_reverse.2 h
  have hnodup : (members.reverse.map Prod.fst).Nodup := by
    rw [List.map_reverse, List.nodup_reverse]
    exact hkeys
  rw [get]
  generalize members.reverse = ms at hmem hnodup
  induction ms with
  | nil => exact absurd hmem List.not_mem_nil
  | cons m ms ih =>
    obtain ⟨k, u⟩ := m
    rw [List.map_cons, List.nodup_cons] at hnodup
    rcases List.mem_cons.1 hmem with heq | hin
    · obtain ⟨rfl, rfl⟩ := Prod.mk.inj heq
      rw [List.lookup_cons_self, Option.getD_some]
    · have hne : (key == k) = false := by
        rw [beq_eq_false_iff_ne]
        rintro rfl
        exact hnodup.1 (List.mem_map.2 ⟨(key, v), hin, rfl⟩)
      rw [List.lookup_cons, hne]
      exact ih hin hnodup.2

/-- The limits of a reader: how deep values nest, and which number literals it has room for. -/
inductive Within (finite : List Char → Prop) : ℕ → Value → Prop
  | null {d} : Within finite d null
  | bool {d b} : Within finite d (bool b)
  | posInt {d n} : Within finite d (number (.posInt n))
  | other {d literal} : finite literal → Within finite d (number (.other literal))
  | string {d s} : Within finite d (string s)
  | array {d elements} : (∀ v ∈ elements, Within finite d v) →
      Within finite (d + 1) (array elements)
  | object {d members} : (∀ m ∈ members, Within finite d m.2) →
      Within finite (d + 1) (object members)

end Value

/-! ### Number literals -/

/-- The characters number literals are made of. -/
def isNumberChar (c : Char) : Bool :=
  c.isDigit || c == '-' || c == '+' || c == '.' || c == 'e' || c == 'E'

/-- What follows a non-empty run of digits. -/
def digits? : List Char → Option (List Char)
  | c :: cs => if c.isDigit then some (cs.dropWhile Char.isDigit) else none
  | [] => none

/-- What follows an integer part: a zero, or digits that do not start with one. -/
def intPart? : List Char → Option (List Char)
  | '0' :: cs => some cs
  | cs => digits? cs

/-- What follows an optional fraction. -/
def fracPart? : List Char → Option (List Char)
  | '.' :: cs => digits? cs
  | cs => some cs

/-- What follows an optional exponent. -/
def expPart? : List Char → Option (List Char)
  | 'e' :: '+' :: cs | 'e' :: '-' :: cs | 'E' :: '+' :: cs | 'E' :: '-' :: cs => digits? cs
  | 'e' :: cs | 'E' :: cs => digits? cs
  | cs => some cs

/-- A number literal: an optional minus sign, an integer part, and the two optional parts. -/
def isNumberLiteral (literal : List Char) : Bool :=
  literal.all isNumberChar &&
    (((intPart? (if literal.head? = some '-' then literal.tail else literal)).bind
      fracPart?).bind expPart? == some [])

/-- The number a literal denotes. -/
def Number.ofLiteral? (literal : List Char) : Option Number :=
  if isNumberLiteral literal then
    if literal.all Char.isDigit ∧ Nat.ofDigitChars 10 literal 0 < 2 ^ 64 then
      some (.posInt (UInt64.ofNat (Nat.ofDigitChars 10 literal 0)))
    else some (.other literal)
  else none

/-! ### Strings -/

/-- The character a one-letter escape stands for. -/
def shortEscape? : Char → Option Char
  | '"' => some '"'
  | '\\' => some '\\'
  | '/' => some '/'
  | 'b' => some '\x08'
  | 'f' => some '\x0c'
  | 'n' => some '\n'
  | 'r' => some '\r'
  | 't' => some '\t'
  | _ => none

/-- The value of a hexadecimal digit, in either case. -/
def hexValue? (c : Char) : Option ℕ :=
  if c.isDigit then some (c.toNat - '0'.toNat)
  else if 'a' ≤ c ∧ c ≤ 'f' then some (c.toNat - 'a'.toNat + 10)
  else if 'A' ≤ c ∧ c ≤ 'F' then some (c.toNat - 'A'.toNat + 10)
  else none

/-- The 16-bit code unit that four hexadecimal digits denote. -/
def codeUnit? (a b c d : Char) : Option ℕ := do
  let a ← hexValue? a
  let b ← hexValue? b
  let c ← hexValue? c
  let d ← hexValue? d
  return ((a * 16 + b) * 16 + c) * 16 + d

/-- The first half of a surrogate pair. -/
def IsHighSurrogate (n : ℕ) : Prop :=
  0xD800 ≤ n ∧ n < 0xDC00

/-- The second half of a surrogate pair. -/
def IsLowSurrogate (n : ℕ) : Prop :=
  0xDC00 ≤ n ∧ n < 0xE000

instance (n : ℕ) : Decidable (IsHighSurrogate n) :=
  inferInstanceAs (Decidable (_ ∧ _))

instance (n : ℕ) : Decidable (IsLowSurrogate n) :=
  inferInstanceAs (Decidable (_ ∧ _))

/-- The character of a surrogate pair. -/
def pairChar (high low : ℕ) : Char :=
  Char.ofNat (0x10000 + (high - 0xD800) * 0x400 + (low - 0xDC00))

/-- A character that stands for itself in a string. -/
def isRaw (c : Char) : Bool :=
  c != '"' && c != '\\' && decide (0x20 ≤ c.toNat)

/-- The texts of an escaped character, without the backslash. -/
inductive Escape : List Char → Char → Prop
  | short {e c} : shortEscape? e = some c → Escape [e] c
  | unit {a b c d n} : codeUnit? a b c d = some n → ¬ IsHighSurrogate n → ¬ IsLowSurrogate n →
      Escape ['u', a, b, c, d] (Char.ofNat n)
  | pair {a b c d e f g h high low} : codeUnit? a b c d = some high →
      codeUnit? e f g h = some low → IsHighSurrogate high → IsLowSurrogate low →
      Escape ['u', a, b, c, d, '\\', 'u', e, f, g, h] (pairChar high low)

/-- The texts of a string, without the quotes. -/
inductive Chars : List Char → List Char → Prop
  | nil : Chars [] []
  | raw {c t s} : isRaw c → Chars t s → Chars (c :: t) (c :: s)
  | escape {e c t s} : Escape e c → Chars t s → Chars ('\\' :: (e ++ t)) (c :: s)

/-! ### Values and their texts -/

def isSpace (c : Char) : Bool :=
  c == ' ' || c == '\n' || c == '\t' || c == '\r'

/-- A run of whitespace. -/
def Space (w : List Char) : Prop :=
  ∀ c ∈ w, isSpace c

/-- What a piece of text can denote: a value, or the inside of a non-empty array or object. -/
inductive Item where
  | value (v : Value)
  | elements (vs : List Value)
  | members (ms : List (String × Value))

/-- The texts of a value, without whitespace around it, and of the insides of arrays and objects,
with it. -/
inductive Denotes : Item → List Char → Prop
  | litNull : Denotes (.value .null) ['n', 'u', 'l', 'l']
  | litTrue : Denotes (.value (.bool true)) ['t', 'r', 'u', 'e']
  | litFalse : Denotes (.value (.bool false)) ['f', 'a', 'l', 's', 'e']
  | number {literal n} : Number.ofLiteral? literal = some n → Denotes (.value (.number n)) literal
  | string {t s} : Chars t s → Denotes (.value (.string (String.ofList s))) ('"' :: (t ++ ['"']))
  | emptyArray {w} : Space w → Denotes (.value (.array [])) ('[' :: (w ++ [']']))
  | array {vs t} : Denotes (.elements vs) t → Denotes (.value (.array vs)) ('[' :: (t ++ [']']))
  | emptyObject {w} : Space w → Denotes (.value (.object [])) ('{' :: (w ++ ['}']))
  | object {ms t} : Denotes (.members ms) t →
      Denotes (.value (.object ms)) ('{' :: (t ++ ['}']))
  | lastElement {w v t w'} : Space w → Denotes (.value v) t → Space w' →
      Denotes (.elements [v]) (w ++ (t ++ w'))
  | element {w v t w' vs r} : Space w → Denotes (.value v) t → Space w' → Denotes (.elements vs) r →
      Denotes (.elements (v :: vs)) (w ++ (t ++ (w' ++ ',' :: r)))
  | lastMember {w k s u w' v t w''} : Space w → Chars k s → Space u → Space w' →
      Denotes (.value v) t → Space w'' →
      Denotes (.members [(String.ofList s, v)])
        (w ++ '"' :: (k ++ '"' :: (u ++ ':' :: (w' ++ (t ++ w'')))))
  | member {w k s u w' v t w'' ms r} : Space w → Chars k s → Space u → Space w' →
      Denotes (.value v) t → Space w'' → Denotes (.members ms) r →
      Denotes (.members ((String.ofList s, v) :: ms))
        (w ++ '"' :: (k ++ '"' :: (u ++ ':' :: (w' ++ (t ++ (w'' ++ ',' :: r))))))

/-- **A text of a value**: the value, with whitespace around it. -/
def Text (t : List Char) (v : Value) : Prop :=
  ∃ w body w', Space w ∧ Denotes (.value v) body ∧ Space w' ∧ t = w ++ (body ++ w')

/-- What a program may rely on in a reader of JSON texts: it reads every text of every value within
its limits. -/
structure Reader where
  fromStr : List Char → Option Value
  /-- How deep values may nest. -/
  maxDepth : ℕ
  /-- The literals of other numbers it has room for. -/
  finite : List Char → Prop
  fromStr_of_text : ∀ {t v}, Text t v → v.Within finite maxDepth → fromStr t = some v

end Json
