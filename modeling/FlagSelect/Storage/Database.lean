import FlagSelect.Statement.Connection
import FlagSelect.Storage.Statement

/-!
# A database as a driver

All connections are handles on one database, and acquiring one never fails. The database compiles a
statement text or refuses it with a message of its own, and compiles it again for each execution.
Its statements run side by side, each with the parameters bound to it; to close one takes nothing
from the others.
-/

namespace FlagSelect.Storage

/-- A database that makes so of statement texts, and the statements prepared on it so far. -/
structure Database (compile : String → Except String Query) where
  statements : Array Statement := #[]

namespace Database

variable {compile : String → Except String Query}

/-- Replaces the statement of a number. -/
def set (d : Database compile) (n : Nat) (s : Statement) : Database compile :=
  ⟨d.statements.setIfInBounds n s⟩

instance : Driver (Database compile) where
  Statement := Nat
  Row := Row
  acquire d := (.ok (), d)
  prepare sql d :=
    match compile sql with
    | .ok q => (.ok d.statements.size, ⟨d.statements.push { query := { q with sql } }⟩)
    | .error message => (.error (.engine message), d)
  bind n index setter v d :=
    match d.statements[n]? with
    | none => (.error .closed, d)
    | some s =>
      match s.bind index setter v with
      | .ok s => (.ok (), d.set n s)
      | .error fault => (.error fault, d)
  execute n d :=
    match d.statements[n]? with
    | none => (.error .closed, d)
    | some s => (s.results (compile s.query.sql), d)
  read _ row column getter d := (row.read column getter, d)
  interrupt _ fault d := (.error fault, d)
  close n d :=
    match d.statements[n]? with
    | none => (.ok (), d)
    | some s => (.ok (), d.set n s.close)

end Database

end FlagSelect.Storage
