import FlagSelect.Text.Blank

/-!
# Column paths

A column is a table and a dotted path below it. Joined tables go by a letter, `a` for table 1 and so
on to `z`; the primary table, number 0, has none. In a statement a path of several segments is a
chain of sub-selections, so that all but its last segment stand in parentheses: `((b.x).y).z`.
-/

namespace FlagSelect

/-- The letter of a joined table. -/
def alias? (table : Nat) : Option Char :=
  if 1 ≤ table ∧ table ≤ 26 then some (Char.ofNat ('a'.toNat + table - 1)) else none

theorem lt_of_alias? {table : Nat} {letter : Char} (h : alias? table = some letter) :
    table < 27 := by
  obtain ⟨hrange, -⟩ := Option.ite_none_right_eq_some.mp h
  exact Nat.lt_succ_of_le hrange.2

/-- The letter of a table and a point, or nothing where the table has no letter. -/
def qualifier (table : Nat) : String :=
  match alias? table with
  | some letter => letter.toString ++ "."
  | none => ""

/-- The pieces of a text between its points; there is one more than there are points. -/
def splitDots : List Char → List (List Char)
  | [] => [[]]
  | c :: l =>
    if c = '.' then [] :: splitDots l
    else
      match splitDots l with
      | piece :: pieces => (c :: piece) :: pieces
      | [] => [[c]]

structure Column where
  table : Nat
  /-- The path, outermost segment first. -/
  segments : List String
deriving DecidableEq

namespace Column

/-- The column whose path is written with points between its segments. -/
def ofDotted (table : Nat) (path : String) : Column :=
  ⟨table, (splitDots path.toList).map String.ofList⟩

/-- Puts what is there in parentheses and selects a further segment from it. -/
def wrap (inner segment : String) : String :=
  "(" ++ inner ++ ")." ++ segment

/-- The column as it stands in a statement. -/
def text (c : Column) : String :=
  match c.segments with
  | [] => ""
  | first :: rest => rest.foldl wrap (qualifier c.table ++ first)

/-- Puts a character into a text, behind so many of its characters. -/
def insertAt (out : String) (place : Nat) (c : Char) : String :=
  String.ofList (out.toList.insertIdx place c)

/-- Writes the column behind a text. Each further segment puts one more parenthesis in front of what
has been written of the column. -/
def appendTo (c : Column) (out : String) : String :=
  match c.segments with
  | [] => out
  | first :: rest =>
    rest.foldl (fun written segment => insertAt written out.length '(' ++ ")." ++ segment)
      (out ++ qualifier c.table ++ first)

/-- Whether the path is missing or one of its segments is blank. -/
def isBlank (c : Column) : Bool :=
  c.segments.isEmpty || c.segments.any Text.allBlank

end Column

end FlagSelect
