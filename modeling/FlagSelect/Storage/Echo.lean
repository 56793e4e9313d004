import FlagSelect.Storage.Statement

/-!
# Queries without a table

Two queries that need no data: one yields its own parameters row by row, the other a single
constant.
-/

namespace FlagSelect.Storage

/-- Cuts a list into pieces of one length, so many of them. -/
def pieces {α : Type} (length : Nat) : Nat → List α → List (List α)
  | 0, _ => []
  | n + 1, l => l.take length :: pieces length n (l.drop length)

/-- The statement whose rows are its parameters, `columns` of them in each row. -/
def echo (rows columns : Nat) : Query where
  sql :=
    let place (i : Nat) := s!"?{i + 1}"
    let tuple (r : Nat) :=
      "(" ++ ", ".intercalate ((List.range columns).map fun c => place (r * columns + c)) ++ ")"
    "values " ++ ", ".intercalate ((List.range rows).map tuple)
  parameters := rows * columns
  run cells :=
    { rows := (pieces columns rows cells).map fun row =>
        ⟨row.zipIdx.map fun (c, i) => (s!"column{i + 1}", c)⟩ }

/-- What a query of one value may yield. -/
inductive Scalar where
  /-- No row at all. -/
  | noRow
  | cell (c : Cell)

/-- Reads the whole number of a query of one value, whose only column has a name. -/
def Scalar.read (column : String) : Scalar → Except DriverFault Value
  | .noRow => .ok .null
  | .cell c => c.read ⟨0, column⟩ .long

/-- The cell of an integer literal: beyond 64 bits it is a real number. -/
def literalCell (n : Int) : Cell :=
  if Int64.minValue.toInt ≤ n ∧ n ≤ Int64.maxValue.toInt then .integer (Int64.ofInt n)
  else .real ⟨(Float.ofInt n).toBits⟩

end FlagSelect.Storage
