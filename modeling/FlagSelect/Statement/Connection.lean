import FlagSelect.Error
import FlagSelect.Profile

/-!
# What the library asks of its surroundings

A driver acquires connections, prepares statements on them and runs those. The host gives the
flags of a record and takes its rows. Both have a state that every call may change, and every call
of the driver may fail.
-/

namespace FlagSelect

/-- The rows that an execution yields, and the failure it ends with, if any. -/
structure ResultSet (ρ : Type) where
  rows : List ρ
  failure : Option DriverFault := none

/-- A source of statements with state `δ`. -/
class Driver (δ : Type) where
  Statement : Type
  Row : Type
  acquire : δ → Except DriverFault Unit × δ
  prepare : String → δ → Except DriverFault Statement × δ
  /-- Binds a value at an index counted from one. -/
  bind : Statement → Nat → Setter → Value → δ → Except DriverFault Unit × δ
  execute : Statement → δ → Except DriverFault (ResultSet Row) × δ
  /-- Reads a column, counted from zero, of a row that is being visited. -/
  read : Statement → Row → Nat → Getter → δ → Except DriverFault Value × δ
  /-- Takes note that a visit of rows ended early for the given reason. The result is what the
  execution then comes to, which should be that reason. -/
  interrupt : Statement → DriverFault → δ → Except DriverFault Unit × δ
  close : Statement → δ → Except DriverFault Unit × δ

/-- A host with state `σ` whose records are completed with rows of type `ρ`. -/
class RecordHost (σ : Type) (ρ : outParam Type) where
  flags : σ → Object → UInt32
  complete : σ → Object → List ρ → σ

/-- Makes one row of the values of its columns, or refuses them with a message. -/
abbrev RowProjection (ρ : Type) := List Value → Except String ρ

/-- Everything outside the library that its calls may change. -/
structure World (σ δ : Type) where
  host : σ
  driver : δ
  profile : Profile := {}

/-- Counts the end of a phase. -/
def World.count {σ δ : Type} (w : World σ δ) (phase : Phase) : World σ δ :=
  { w with profile := w.profile.count phase }

end FlagSelect
