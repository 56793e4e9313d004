import FlagSelect.Number.Binary
import FlagSelect.Text.Hex

/-!
# Numbers and dates of TOML

Numbers, truth values, dates and times are words without blanks. `scalar?` tells what a word is; of
floats, dates and times it keeps nothing but that they are well formed and in range.
-/

namespace FlagSelect.Toml

inductive Scalar where
  | boolean (b : Bool)
  | integer (n : Int)
  | float
  | dateTime
deriving DecidableEq

def isWordChar (c : Char) : Bool :=
  c.isAlphanum || c == '_' || c == '+' || c == '-' || c == '.' || c == ':'

/-- Whether a text is digits, with single underscores between them at most; `afterDigit` tells
whether a digit stands before it. -/
def isDigits (isDigit : Char → Bool) (afterDigit : Bool) : List Char → Bool
  | [] => afterDigit
  | c :: l =>
    if c = '_' then afterDigit && isDigits isDigit false l
    else isDigit c && isDigits isDigit true l

/-- The value of digits to a base of at most sixteen. -/
def digitsValue (base : Nat) (l : List Char) : Nat :=
  l.foldl (fun n c => match Text.Hex.digit? c with
    | some d => base * n + d
    | none => n) 0

/-- A numeral whose digits are all below the base. -/
def numeral? (base : Nat) (l : List Char) : Option Int :=
  if isDigits (fun c => (Text.Hex.digit? c).any (· < base)) false l then some (digitsValue base l)
  else none

/-- A decimal numeral without leading zeros. -/
def decimal? (l : List Char) : Option Int :=
  if l.length > 1 ∧ l.head? = some '0' then none else numeral? 10 l

/-- An integer of 64 bits: with a sign in decimal, or without one to a base that its start names. -/
def integer? (l : List Char) : Option Int := do
  let n ← match l with
    | '+' :: l => decimal? l
    | '-' :: l => (decimal? l).map (- ·)
    | '0' :: 'x' :: l => numeral? 16 l
    | '0' :: 'o' :: l => numeral? 8 l
    | '0' :: 'b' :: l => numeral? 2 l
    | l => decimal? l
  if Int64.minValue.toInt ≤ n ∧ n ≤ Int64.maxValue.toInt then some n else none

def dropSign : List Char → List Char
  | '+' :: l | '-' :: l => l
  | l => l

/-- Whether a text is an exponent. -/
def isExponent : List Char → Bool
  | 'e' :: l | 'E' :: l => isDigits Char.isDigit false (dropSign l)
  | _ => false

/-- Whether a word stands for infinity or for what is no number. -/
def isNonFinite (l : List Char) : Bool :=
  let l := dropSign l
  l == ['i', 'n', 'f'] || l == ['n', 'a', 'n']

/-- Whether a word is digits with a fraction, an exponent or both. -/
def hasFloatForm (l : List Char) : Bool :=
  let l := dropSign l
  let isPlain (c : Char) := c.isDigit || c == '_'
  (decimal? (l.takeWhile isPlain)).isSome &&
    match l.dropWhile isPlain with
    | '.' :: l =>
      isDigits Char.isDigit false (l.takeWhile isPlain) &&
        (let rest := l.dropWhile isPlain
         rest.isEmpty || isExponent rest)
    | l => isExponent l

/-- The number that digits with a fraction or an exponent stand for, its sign left out: a whole
number and the power of ten that it is taken times. -/
def floatParts (l : List Char) : Nat × Int :=
  let mantissa := l.takeWhile fun c => c != 'e' && c != 'E'
  let fraction := (mantissa.dropWhile (· != '.')).filter Char.isDigit
  let exponent : Int := match l.drop (mantissa.length + 1) with
    | '-' :: l => -(digitsValue 10 l)
    | l => digitsValue 10 l
  (digitsValue 10 mantissa, exponent - fraction.length)

/-- Whether a word is a float. One so large that it rounds to infinity is none; one as large below
zero is. -/
def isFloat (l : List Char) : Bool :=
  isNonFinite l || (hasFloatForm l && (l.head? == some '-' ||
    (let (digits, exponent) := floatParts l
     !Number.binary64.overflows digits exponent)))

/-- A number of exactly so many digits at the front. -/
def fixed? (width : Nat) (l : List Char) : Option (Nat × List Char) :=
  let ds := l.take width
  if ds.length = width ∧ ds.all Char.isDigit then some (digitsValue 10 ds, l.drop width) else none

/-- Passes over one character. -/
def pass? (c : Char) : List Char → Option (List Char)
  | d :: l => if c = d then some l else none
  | [] => none

def isLeapYear (y : Nat) : Bool :=
  y % 4 == 0 && (y % 100 != 0 || y % 400 == 0)

def daysIn (year month : Nat) : Nat :=
  if month = 2 then if isLeapYear year then 29 else 28
  else if month = 4 ∨ month = 6 ∨ month = 9 ∨ month = 11 then 30
  else 31

/-- Year, month and day with hyphens between them. -/
def date? (l : List Char) : Option (List Char) := do
  let (year, l) ← fixed? 4 l
  let (month, l) ← fixed? 2 (← pass? '-' l)
  let (day, l) ← fixed? 2 (← pass? '-' l)
  if 1 ≤ month ∧ month ≤ 12 ∧ 1 ≤ day ∧ day ≤ daysIn year month then some l else none

/-- Hour, minute and second with colons between them; a fraction of the second may follow. -/
def time? (l : List Char) : Option (List Char) := do
  let (hour, l) ← fixed? 2 l
  let (minute, l) ← fixed? 2 (← pass? ':' l)
  let (second, l) ← fixed? 2 (← pass? ':' l)
  if hour < 24 ∧ minute < 60 ∧ second ≤ 60 then
    match l with
    | '.' :: l => if (l.head?.any Char.isDigit) then some (l.dropWhile Char.isDigit) else none
    | l => some l
  else none

/-- Whether a text is the distance to universal time, or nothing. -/
def isOffset : List Char → Bool
  | [] | ['Z'] | ['z'] => true
  | c :: l =>
    (c == '+' || c == '-') &&
      ((do
        let (hour, l) ← fixed? 2 l
        let (minute, l) ← fixed? 2 (← pass? ':' l)
        if hour < 24 ∧ minute < 60 then some l else none) == some [])

/-- Whether a word is a date, a time or both. -/
def isDateTime (l : List Char) : Bool :=
  time? l == some [] ||
    match date? l with
    | none => false
    | some [] => true
    | some (c :: l) => (c == 'T' || c == 't' || c == ' ') && (time? l).any isOffset

/-- The word at the front. A date takes a time behind a single space with it. -/
def takeWord (l : List Char) : List Char × List Char :=
  let word := l.takeWhile isWordChar
  let rest := l.dropWhile isWordChar
  match rest with
  | ' ' :: more =>
    if date? word = some [] ∧ (fixed? 2 more).isSome then
      (word ++ ' ' :: more.takeWhile isWordChar, more.dropWhile isWordChar)
    else (word, rest)
  | _ => (word, rest)

/-- What a word stands for. -/
def scalar? (word : List Char) : Option Scalar :=
  if word = ['t', 'r', 'u', 'e'] then some (.boolean true)
  else if word = ['f', 'a', 'l', 's', 'e'] then some (.boolean false)
  else
    match integer? word with
    | some n => some (.integer n)
    | none => if isFloat word then some .float else if isDateTime word then some .dateTime else none

end FlagSelect.Toml
