import FlagSelect.Scripted.Host
import FlagSelect.Statement.Connection

/-!
# A scripted connection

A driver that yields a given list of rows for every statement, fails where it is told to, and writes
down every call.
-/

namespace FlagSelect.Scripted

/-- Which calls fail. -/
structure Failures where
  acquire : Bool := false
  prepare : Bool := false
  /-- The index whose binding fails. -/
  bind : Option Nat := none
  /-- Before which row an execution fails; the number of rows stands for their end. -/
  execute : Option Nat := none
  /-- The column whose reading fails. -/
  read : Option Nat := none
  close : Bool := false

/-- A line of the log. -/
inductive Event where
  | prepare (statement : Nat) (sql : String)
  | bind (statement index : Nat) (setter : Setter) (v : Value)
  | execute (statement : Nat)
  | read (statement row column : Nat) (getter : Getter)
  | close (statement : Nat)

def Event.statement : Event → Nat
  | prepare n _ | bind n _ _ _ | execute n | read n _ _ _ | close n => n

def Event.text : Event → String
  | prepare n sql => s!"prepare #{n} " ++ sql
  | bind n i setter v => s!"bind #{n} {i} " ++ setter.label ++ " " ++ v.label
  | execute n => s!"execute #{n}"
  | read n row column getter => s!"read #{n} {row}.{column} " ++ getter.label
  | close n => s!"close #{n}"

/-- The connection: statements are numbered from one in the order of their preparation. -/
structure Connection where
  rows : List (List Value) := []
  failures : Failures := {}
  /-- The calls so far, the latest first. -/
  log : List Event := []
  prepares : Nat := 0
  /-- The statements closed so far, once for each time. -/
  closes : List Nat := []

namespace Connection

def note (c : Connection) (e : Event) : Connection :=
  { c with log := e :: c.log }

/-- The fault of a call that was told to fail. -/
def injected (what : String) : DriverFault :=
  .other ("injected " ++ what ++ " failure")

/-- The result of a call that fails on a condition. -/
def failing {α : Type} (fails : Bool) (what : String) (a : α) : Except DriverFault α :=
  if fails then .error (injected what) else .ok a

/-- The rows up to the one before which the execution fails, if it does. -/
def results (c : Connection) : ResultSet (Nat × List Value) :=
  let rows := c.rows.zipIdx.map fun (row, i) => (i, row)
  match c.failures.execute with
  | some n =>
    if n ≤ rows.length then ⟨rows.take n, some (injected "execute")⟩ else ⟨rows, none⟩
  | none => ⟨rows, none⟩

/-- The value of a column that can be read. -/
def column (c : Connection) (row : List Value) (column : Nat) : Except DriverFault Value :=
  if c.failures.read = some column then .error (injected "read")
  else
    match row[column]? with
    | some v => .ok v
    | none => .error (.other (s!"no column {column}"))

instance : Driver Connection where
  Statement := Nat
  Row := Nat × List Value
  acquire c := (failing c.failures.acquire "acquire" (), c)
  prepare sql c :=
    if c.failures.prepare then (.error (injected "prepare"), c)
    else
      let n := c.prepares + 1
      (.ok n, { c with prepares := n }.note (.prepare n sql))
  bind n index setter v c :=
    (failing (c.failures.bind == some index) "bind" (), c.note (.bind n index setter v))
  execute n c := (.ok c.results, c.note (.execute n))
  read n row i getter c := (c.column row.2 i, c.note (.read n row.1 i getter))
  interrupt _ fault c := (.error fault, c)
  close n c :=
    (failing c.failures.close "close" (), { c with closes := n :: c.closes }.note (.close n))

/-- How many closes were of statements closed before. -/
def doubleCloses (c : Connection) : Nat :=
  c.closes.length - c.closes.eraseDups.length

end Connection

instance : RecordHost Host (List Value) where
  flags h o := (h.entity o).flags
  complete := Host.complete

/-- A projection that gives the values as they are. -/
def projectAll : RowProjection (List Value) := .ok

/-- A projection that takes whole numbers from zero on. -/
def projectNaturals : RowProjection (List Value) := fun row =>
  row.mapM fun v =>
    match v.toInt64? with
    | none => .error "not an integer"
    | some n => if n < 0 then .error (s!"rejected {n.toInt}") else .ok (.long n)

end FlagSelect.Scripted
