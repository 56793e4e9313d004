import FlagSelect.Toml.Lexical
import FlagSelect.Toml.Scalar

/-!
# TOML documents

A document is a sequence of statements, each on lines of its own: an entry gives a key its value,
and a header names the table that the entries behind it belong to. `Document.read?` reads the
statements; which tables they make up is for its users to say.
-/

namespace FlagSelect.Toml

inductive Value where
  | scalar (s : Scalar)
  | string (s : String)
  | array (items : List Value)
  | table (entries : List (List String × Value))

inductive Statement where
  | entry (key : List String) (value : Value)
  | header (key : List String)
  /-- The header of one more table in an array of tables. -/
  | arrayHeader (key : List String)

/-- Whether two keys name the same thing, or one a part of the other. -/
def overlap (k k' : List String) : Bool :=
  k.isPrefixOf k' || k'.isPrefixOf k

/-- Whether no two keys overlap. -/
def disjoint : List (List String) → Bool
  | [] => true
  | k :: ks => ks.all (fun k' => !overlap k k') && disjoint ks

-- Each call reads a character or hands over to the one reader that does, so a fuel of twice the
-- length of the text is enough. `room` tells how many arrays and tables may still be opened inside
-- of each other.
mutual

/-- Reads a value. -/
def value? : Nat → Nat → List Char → Option (Value × List Char)
  | 0, _, _ => none
  | fuel + 1, room, text =>
    match text with
    | '[' :: l => do
      if room = 0 then none
      let (items, rest) ← items? fuel (room - 1) (← skipFiller false l)
      return (.array items, rest)
    | '\x7b' :: l => do
      if room = 0 then none
      let (entries, rest) ← match skipBlanks l with
        | '\x7d' :: rest => some ([], rest)
        | l => entries? fuel (room - 1) l
      if disjoint (entries.map (·.1)) then return (.table entries, rest) else none
    | '"' :: _ | '\'' :: _ => (string? text).map fun (s, rest) => (.string s, rest)
    | _ =>
      let (word, rest) := takeWord text
      (scalar? word).map fun s => (.scalar s, rest)

/-- Reads the items of an array up to and with its end; a comma may stand behind the last one. -/
def items? : Nat → Nat → List Char → Option (List Value × List Char)
  | 0, _, _ => none
  | fuel + 1, room, text =>
    match text with
    | ']' :: rest => some ([], rest)
    | _ => do
      let (item, rest) ← value? fuel room text
      match ← skipFiller false rest with
      | ',' :: rest =>
        let (items, rest) ← items? fuel room (← skipFiller false rest)
        return (item :: items, rest)
      | ']' :: rest => return ([item], rest)
      | _ => none

/-- Reads the entries of a table in braces up to and with its end. -/
def entries? : Nat → Nat → List Char → Option (List (List String × Value) × List Char)
  | 0, _, _ => none
  | fuel + 1, room, text => do
    let (key, rest) ← key? text
    match skipBlanks rest with
    | '=' :: rest =>
      let (value, rest) ← value? fuel room (skipBlanks rest)
      match skipBlanks rest with
      | ',' :: rest =>
        let (entries, rest) ← entries? fuel room (skipBlanks rest)
        return ((key, value) :: entries, rest)
      | '\x7d' :: rest => return ([(key, value)], rest)
      | _ => none
    | _ => none

end

/-- Reads a statement up to what may stand behind it on its last line. -/
def statement? (text : List Char) : Option (Statement × List Char) :=
  match text with
  | '[' :: '[' :: l => do
    let (key, rest) ← key? (skipBlanks l)
    match skipBlanks rest with
    | ']' :: ']' :: rest => return (.arrayHeader key, rest)
    | _ => none
  | '[' :: l => do
    let (key, rest) ← key? (skipBlanks l)
    match skipBlanks rest with
    | ']' :: rest => return (.header key, rest)
    | _ => none
  | _ => do
    let (key, rest) ← key? text
    match skipBlanks rest with
    | '=' :: rest =>
      let (value, rest) ← value? (2 * text.length) maxNesting (skipBlanks rest)
      return (.entry key value, rest)
    | _ => none

/-- Whether a line that starts so has no statement on it. -/
def isIdleStart (c : Char) : Bool :=
  c == '#' || c == '\n' || c == '\r'

/-- Reads all statements; `fuel` bounds the number of lines. -/
def statements? : Nat → List Char → Option (List Statement)
  | 0, _ => none
  | fuel + 1, text =>
    match skipBlanks text with
    | [] => some []
    | c :: l =>
      if isIdleStart c then do statements? fuel (← lineEnd? (c :: l))
      else do
        let (s, rest) ← statement? (c :: l)
        return s :: (← statements? fuel (← lineEnd? rest))

/-- The statements of a document; a mark of the byte order may stand before them. -/
def Document.read? (text : String) : Option (List Statement) :=
  let l := match text.toList with
    | '\ufeff' :: l => l
    | l => l
  statements? (l.length + 1) l

end FlagSelect.Toml
