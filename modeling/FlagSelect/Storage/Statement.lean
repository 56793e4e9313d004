import FlagSelect.Statement.Connection
import FlagSelect.Storage.Cell

/-!
# Statements over storage cells

An open statement holds its parameters, and keeps them from one execution to the next: the last
value bound at an index counts, and an index bound by nobody is null. A closed statement does
nothing more. What an execution yields is the database's business: a `Query` says how many
parameters the statement text has, and which rows it yields for them. Each execution looks up the
text among those that the database keeps compiled, or compiles it again, and the engine can fail in
this as well as behind any row.
-/

namespace FlagSelect.Storage

/-- A statement text as the database compiles it. -/
structure Query where
  sql : String
  parameters : Nat
  /-- What the engine yields for the parameters, until it fails if it does. -/
  run : List Cell → ResultSet Row

structure Statement where
  /-- The text as it was compiled when the statement was prepared. -/
  query : Query
  /-- The cells bound at the indices 1, 2 and so on. -/
  bound : List Cell := []
  fetchSize : Nat := 0
  closed : Bool := false

/-- Visits rows in order until a visit fails. Behind the last row comes the failure of the engine,
if there is one. What the visits before gathered is kept. -/
def visitRows {β : Type} (visit : β → Row → Except DriverFault β) (failure : Option DriverFault)
    (acc : β) : List Row → β × Except DriverFault Unit
  | [] =>
    match failure with
    | none => (acc, .ok ())
    | some e => (acc, .error e)
  | r :: rest =>
    match visit acc r with
    | .ok acc => visitRows visit failure acc rest
    | .error e => (acc, .error e)

namespace Statement

/-- The cells with one more bound at an index counted from zero, with nulls up to it if needed. -/
def put (cells : List Cell) (i : Nat) (c : Cell) : List Cell :=
  (cells ++ List.replicate (i + 1 - cells.length) Cell.null).set i c

/-- Binds a value at an index counted from one. -/
def bind (s : Statement) (index : Nat) (setter : Setter) (v : Value) :
    Except DriverFault Statement :=
  if s.closed then .error .closed
  else do
    let c ← Cell.bound setter v
    match index with
    | 0 => throw (.other ("placeholder index 0 in `" ++ s.query.sql ++ "`"))
    | i + 1 => return { s with bound := put s.bound i c }

/-- The rows of an execution, with the failure behind them if there is one; `compiled` is what the
database makes of the statement text by now. Unbound parameters are null; one bound beyond the last
parameter of the text is a fault. -/
def results (s : Statement) (compiled : Except String Query) :
    Except DriverFault (ResultSet Row) :=
  if s.closed then .error .closed
  else
    match compiled with
    | .error message => .error (.engine message)
    | .ok q =>
      if q.parameters < s.bound.length then .error (.engine "column index out of range")
      else
        let missing := List.replicate (q.parameters - s.bound.length) Cell.null
        .ok (q.run ((s.bound ++ missing).map Cell.stored))

/-- Executes the statement and visits its rows. Unless the database has changed, it makes of the
statement text what it made of it before. -/
def execute {β : Type} (s : Statement) (visit : β → Row → Except DriverFault β) (acc : β)
    (compiled : Except String Query := .ok s.query) : β × Except DriverFault Unit :=
  match s.results compiled with
  | .ok result => visitRows visit result.failure acc result.rows
  | .error e => (acc, .error e)

/-- Closes the statement; it forgets its parameters. -/
def close (s : Statement) : Statement :=
  if s.closed then s else { s with closed := true, bound := [] }

end Statement

end FlagSelect.Storage
