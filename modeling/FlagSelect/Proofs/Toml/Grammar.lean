import FlagSelect.Toml.Document

/-!
# A part of the grammar of TOML

Documents whose keys are simple and whose values are truth values and whole numbers that are not
negative, told by how they are written and not by how they are read:

    document  ::= line (newline line)*
    line      ::= blanks [phrase blanks] [# text]
    phrase    ::= [ blanks key blanks ]  |  key blanks = blanks literal
    key       ::= word  |  'text'  |  "text with escapes"
    literal   ::= true  |  false  |  [+]numeral  |  -0  |  0x numeral  |  0o numeral  |  0b numeral

A phrase comes with the statement that it stands for.
-/

namespace FlagSelect.Toml.Grammar

/-- Spaces and tabs. -/
def Blanks (text : List Char) : Prop := ∀ c ∈ text, c = ' ' ∨ c = '\t'

theorem blanks_nil : Blanks [] := by simp [Blanks]

/-! ## Numbers -/

/-- A digit to a base, in either case, and its value. -/
def Digit (base : Nat) (c : Char) (d : Nat) : Prop :=
  d < base ∧ (c = Nat.digitChar d ∨ c = (Nat.digitChar d).toUpper)

/-- Digits with an underscore between two of them at most, and what they stand for. -/
inductive Numeral (base : Nat) : List Char → Nat → Prop
  | digit {c d} : Digit base c d → Numeral base [c] d
  | more {text n c d} : Numeral base text n → Digit base c d →
      Numeral base (text ++ [c]) (base * n + d)
  | spaced {text n c d} : Numeral base text n → Digit base c d →
      Numeral base (text ++ ['_', c]) (base * n + d)

/-- A number that is not negative; in decimal there are no leading zeros. -/
inductive Whole : List Char → Nat → Prop
  | decimal {text n} : Numeral 10 text n → (text.head? = some '0' → text = ['0']) → Whole text n
  | signed {text n} : Numeral 10 text n → (text.head? = some '0' → text = ['0']) →
      Whole ('+' :: text) n
  | negated : Whole ['-', '0'] 0
  | based {mark base text n} : (mark, base) ∈ [('x', 16), ('o', 8), ('b', 2)] →
      Numeral base text n → Whole ('0' :: mark :: text) n

/-- A truth value, or a number within 64 bits. -/
inductive Literal : List Char → Scalar → Prop
  | yes : Literal ['t', 'r', 'u', 'e'] (.boolean true)
  | no : Literal ['f', 'a', 'l', 's', 'e'] (.boolean false)
  | number {text n} : Whole text n → n < 1 <<< 63 → Literal text (.integer n)

/-! ## Keys -/

/-- One character between double quotes: as it is, or as an escape. -/
inductive Quoted : List Char → Char → Prop
  | plain {c} : isTextChar c = true → c ≠ '"' → c ≠ '\\' → Quoted [c] c
  | named {letter c} : (letter, c) ∈ [('b', '\x08'), ('t', '\t'), ('n', '\n'), ('f', '\x0c'),
      ('r', '\r'), ('"', '"'), ('\\', '\\')] → Quoted ['\\', letter] c
  | coded {mark width digits c} : (mark, width) ∈ [('u', 4), ('U', 8)] → digits.length = width →
      '_' ∉ digits → Numeral 16 digits c.toNat → Quoted ('\\' :: mark :: digits) c

/-- A key of one part, and the name that it stands for. -/
inductive Key : List Char → String → Prop
  | bare {word} : word ≠ [] → (∀ c ∈ word, isBareKeyChar c = true) → Key word (String.ofList word)
  | literal {text} : (∀ c ∈ text, isTextChar c = true ∧ c ≠ '\'') →
      Key ('\'' :: (text ++ ['\''])) (String.ofList text)
  | basic {pieces : List (List Char × Char)} : (∀ p ∈ pieces, Quoted p.1 p.2) →
      Key ('"' :: (pieces.flatMap Prod.fst ++ ['"'])) (String.ofList (pieces.map Prod.snd))

/-! ## Lines -/

/-- What stands on a line between its blanks. -/
inductive Phrase : List Char → Statement → Prop
  | header {b b' key name} : Blanks b → Key key name → Blanks b' →
      Phrase ('[' :: (b ++ (key ++ (b' ++ [']'])))) (.header [name])
  | entry {b b' key name text s} : Key key name → Blanks b → Blanks b' → Literal text s →
      Phrase (key ++ (b ++ '=' :: (b' ++ text))) (.entry [name] (.scalar s))

/-- The end of a line: blanks, and a comment or none. -/
inductive Trail : List Char → Prop
  | blank {b} : Blanks b → Trail b
  | comment {b text} : Blanks b → (∀ c ∈ text, isTextChar c = true) → Trail (b ++ '#' :: text)

inductive Line : List Char → List Statement → Prop
  | idle {trail} : Trail trail → Line trail []
  | phrase {b text trail s} : Blanks b → Phrase text s → Trail trail →
      Line (b ++ (text ++ trail)) [s]

inductive Newline : List Char → Prop
  | feed : Newline ['\n']
  | returned : Newline ['\r', '\n']

/-- A document, and the statements on its lines. -/
inductive Lines : List Char → List Statement → Prop
  | last {line ss} : Line line ss → Lines line ss
  | more {line newline rest ss ss'} : Line line ss → Newline newline → Lines rest ss' →
      Lines (line ++ (newline ++ rest)) (ss ++ ss')

end FlagSelect.Toml.Grammar
