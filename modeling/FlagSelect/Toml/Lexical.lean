import FlagSelect.Text.Hex

/-!
# Characters, lines and strings of TOML

Readers take a text and give what they have read together with the text behind it, or `none` if
there is nothing of the kind at the front.
-/

namespace FlagSelect.Toml

/-- Space and tab. -/
def isBlank (c : Char) : Bool := c == ' ' || c == '\t'

/-- The characters that comments and strings may hold: the tab and all but the controls. -/
def isTextChar (c : Char) : Bool :=
  c == '\t' || (' ' ≤ c && c != '\x7f')

def isBareKeyChar (c : Char) : Bool :=
  c.isAlphanum || c == '_' || c == '-'

def skipBlanks (l : List Char) : List Char := l.dropWhile isBlank

/-- A line feed, alone or behind a carriage return. -/
def newline? : List Char → Option (List Char)
  | '\n' :: l => some l
  | '\r' :: '\n' :: l => some l
  | _ => none

/-- The text from the end of the comment on that goes on at the front. -/
def skipComment : List Char → Option (List Char)
  | [] => some []
  | c :: l =>
    if c = '\n' ∨ c = '\r' then some (c :: l)
    else if isTextChar c then skipComment l
    else none

/-- Blanks and a comment up to the end of the line or of the text. -/
def lineEnd? (l : List Char) : Option (List Char) := do
  let l ← match skipBlanks l with
    | '#' :: l => skipComment l
    | l => some l
  if l.isEmpty then some [] else newline? l

/-- Skips blanks, line ends and comments, as they may stand inside of arrays. -/
def skipFiller (inComment : Bool) : List Char → Option (List Char)
  | [] => some []
  | c :: l =>
    if c = '\n' then skipFiller false l
    else if c = '\r' then if l.head? = some '\n' then skipFiller inComment l else none
    else if inComment then if isTextChar c then skipFiller true l else none
    else if isBlank c then skipFiller false l
    else if c = '#' then skipFiller true l
    else some (c :: l)

/-- How a string is written. -/
structure StringStyle where
  mark : Char
  /-- Whether a backslash starts an escape. -/
  escapes : Bool
  /-- Whether the string may go over several lines; it then stands between three marks. -/
  multiline : Bool

namespace StringStyle

/-- Where in a string the reader is. -/
inductive State where
  | plain
  | escape
  /-- Inside the escape of a code point, with so many digits to come. -/
  | codePoint (left code : Nat)
  /-- Behind a backslash at the end of a line, in the blanks that it swallows. -/
  | folding (pastLine : Bool)

/-- What one character of a string leads to. -/
inductive Next where
  | emit (c : Char)
  | go (state : State)
  /-- The string ends here, with some marks still belonging to it. -/
  | close (marks : Nat) (rest : List Char)

/-- What a character means where no escape has begun; `l` is the text behind it. -/
def plainNext (s : StringStyle) (c : Char) (l : List Char) : Option Next :=
  if c = s.mark then
    if s.multiline then
      let marks := 1 + (l.takeWhile (· == s.mark)).length
      if marks < 3 then some (.emit c)
      else if marks ≤ 5 then some (.close (marks - 3) (l.drop (marks - 1)))
      else none
    else some (.close 0 l)
  else if c = '\\' ∧ s.escapes = true then some (.go .escape)
  else if isTextChar c then some (.emit c)
  else if s.multiline ∧ (c = '\n' ∨ c = '\r' ∧ l.head? = some '\n') then some (.emit c)
  else none

/-- What a blank or the end of a line means behind a backslash, where blanks and line ends are
swallowed; `pastLine` tells whether a line has ended among them. -/
def foldNext (pastLine : Bool) (c : Char) (l : List Char) : Option Next :=
  if c = '\n' then some (.go (.folding true))
  else if isBlank c ∨ c = '\r' ∧ l.head? = some '\n' then some (.go (.folding pastLine))
  else none

/-- What a character means behind a backslash; `l` is the text behind it. -/
def escapeNext (s : StringStyle) (c : Char) (l : List Char) : Option Next :=
  match c with
  | 'b' => some (.emit '\x08')
  | 't' => some (.emit '\t')
  | 'n' => some (.emit '\n')
  | 'f' => some (.emit '\x0c')
  | 'r' => some (.emit '\r')
  | '"' => some (.emit '"')
  | '\\' => some (.emit '\\')
  | 'u' => some (.go (.codePoint 4 0))
  | 'U' => some (.go (.codePoint 8 0))
  | _ => if s.multiline then foldNext false c l else none

/-- What a digit of a code point means. -/
def codePointNext (left code : Nat) (c : Char) : Option Next := do
  let code := 16 * code + (← Text.Hex.digit? c)
  if left = 1 then
    if h : code.isValidChar then some (.emit (Char.ofNatAux code h)) else none
  else some (.go (.codePoint (left - 1) code))

def next (s : StringStyle) (state : State) (c : Char) (l : List Char) : Option Next :=
  match state with
  | .plain => s.plainNext c l
  | .escape => s.escapeNext c l
  | .codePoint left code => codePointNext left code c
  | .folding pastLine =>
    match foldNext pastLine c l with
    | some n => some n
    | none => if pastLine then s.plainNext c l else none

/-- Reads a string behind its opening mark. -/
def body (s : StringStyle) : State → List Char → Option (List Char × List Char)
  | _, [] => none
  | state, c :: l =>
    match s.next state c l with
    | some (.emit d) => (s.body .plain l).map fun (content, rest) => (d :: content, rest)
    | some (.go state) => s.body state l
    | some (.close marks rest) => some (List.replicate marks s.mark, rest)
    | none => none

end StringStyle

/-- The two styles of a string in one line, by its mark. -/
def lineStyle? (mark : Char) : Option StringStyle :=
  if mark = '"' then some ⟨'"', true, false⟩
  else if mark = '\'' then some ⟨'\'', false, false⟩
  else none

/-- A string of one line or, between three marks, of several. -/
def string? : List Char → Option (String × List Char)
  | [] => none
  | c :: l => do
    let style ← lineStyle? c
    let (content, rest) ←
      if l.take 2 = [c, c] then
        let l := l.drop 2
        { style with multiline := true }.body .plain ((newline? l).getD l)
      else style.body .plain l
    return (String.ofList content, rest)

/-- One part of a key: bare, or a string of one line. -/
def simpleKey? : List Char → Option (String × List Char)
  | [] => none
  | c :: l =>
    match lineStyle? c with
    | some style => (style.body .plain l).map fun (content, rest) => (String.ofList content, rest)
    | none =>
      if isBareKeyChar c then
        some (String.ofList (c :: l.takeWhile isBareKeyChar), l.dropWhile isBareKeyChar)
      else none

/-- How many parts a key may have, and how many arrays and tables in braces may stand inside of each
other. -/
def maxNesting : Nat := 79

/-- Parts of a key, so many at most, with points between them, where blanks may stand around the
points. -/
def keyParts? : Nat → List Char → Option (List String × List Char)
  | 0, _ => none
  | room + 1, l => do
    let (part, rest) ← simpleKey? l
    match skipBlanks rest with
    | '.' :: rest =>
      let (parts, rest) ← keyParts? room (skipBlanks rest)
      return (part :: parts, rest)
    | _ => return ([part], rest)

/-- A key. -/
def key? (l : List Char) : Option (List String × List Char) := keyParts? maxNesting l

end FlagSelect.Toml
