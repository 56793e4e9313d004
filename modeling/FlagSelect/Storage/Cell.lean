import FlagSelect.Error

/-!
# Stored cells

The database keeps every parameter in one of five storage classes. A value goes in by the setter
of its own kind or by the object setter, and comes out by a getter that its class and its size
allow.
-/

namespace FlagSelect.Storage

inductive Cell where
  | null
  | integer (n : Int64)
  | real (x : Number.Double)
  | text (s : String)
  | blob (bs : List UInt8)
deriving DecidableEq

namespace Cell

/-- The storage class of a cell. -/
def className : Cell → String
  | null => "Null"
  | integer _ => "Integer"
  | real _ => "Real"
  | text _ => "Text"
  | blob _ => "Blob"

/-- The cell that a value is kept in; an object has none. -/
def ofValue? : Value → Option Cell
  | .null => some null
  | .bool b => some (integer (if b then 1 else 0))
  | .byte n => some (integer n.toInt64)
  | .short n => some (integer n.toInt64)
  | .int n => some (integer n.toInt64)
  | .long n | .timestamp n => some (integer n)
  | .float x => some (real x.widen)
  | .double x => some (real x)
  | .string s => some (text s)
  | .bytes bs => some (blob bs)
  | .object _ => none

/-- Whether a setter takes a value: the object setter takes all, every setter takes null, and else
it has to be the setter of the value's kind. -/
def settable (setter : Setter) (v : Value) : Bool :=
  setter.kind == .object || v.isNull || setter == v.kind.setter

/-- The cell for a value that is bound with a setter. -/
def bound (setter : Setter) (v : Value) : Except DriverFault Cell :=
  match settable setter v, ofValue? v with
  | true, some c => .ok c
  | _, _ => .error (.unsupportedBind v setter)

/-- The cell as the database keeps it: a NaN becomes null. -/
def stored : Cell → Cell
  | real x => if x.isNaN then null else real x
  | c => c

/-- Where a cell stands in a result row. -/
structure Place where
  column : Nat
  name : String

/-- The fault of a getter that cannot read the class of the cell. -/
def mismatch (c : Cell) (p : Place) : DriverFault :=
  .engine (s!"Invalid column type {c.className} at index: {p.column}, name: {p.name}")

/-- Passes a whole number on if it lies between two bounds. -/
def ranged (p : Place) (low high : Int) (wrap : Int → Value) (n : Int64) :
    Except DriverFault Value :=
  if low ≤ n.toInt ∧ n.toInt ≤ high then .ok (wrap n.toInt)
  else .error (.engine (s!"Integer {n.toInt} out of range at index {p.column}"))

/-- Reads a cell with the getter of a kind. Null reads as null with every getter. -/
def read (p : Place) (k : Kind) (c : Cell) : Except DriverFault Value :=
  match k, c with
  | _, null => .ok .null
  | .bool, integer n => .ok (.bool (n != 0))
  | .byte, integer n =>
    ranged p Int8.minValue.toInt Int8.maxValue.toInt (fun i => .byte (Int8.ofInt i)) n
  | .short, integer n =>
    ranged p Int16.minValue.toInt Int16.maxValue.toInt (fun i => .short (Int16.ofInt i)) n
  | .int, integer n =>
    ranged p Int32.minValue.toInt Int32.maxValue.toInt (fun i => .int (Int32.ofInt i)) n
  | .long, integer n => .ok (.long n)
  | .timestamp, integer n => .ok (.timestamp n)
  | .float, integer n => .ok (.float (.ofInt64 n))
  | .float, real x => .ok (.float x.narrow)
  | .double, integer n => .ok (.double (.ofInt64 n))
  | .double, real x => .ok (.double x)
  | .string, text s => .ok (.string s)
  | .bytes, blob bs => .ok (.bytes bs)
  | .object, integer n => .ok (.long n)
  | .object, real x => .ok (.double x)
  | .object, text s => .ok (.string s)
  | .object, blob bs => .ok (.bytes bs)
  | _, _ => .error (c.mismatch p)

end Cell

/-- The kind that a getter reads as. -/
def getterKind : Getter → Kind
  | .scalar k _ => k
  | .object _ => .object

/-- A result row: its cells with the names of their columns. -/
structure Row where
  cells : List (String × Cell)

/-- Reads one column of a row. -/
def Row.read (r : Row) (column : Nat) (getter : Getter) : Except DriverFault Value :=
  match r.cells[column]? with
  | some (name, c) => c.read ⟨column, name⟩ (getterKind getter)
  | none => .error (.engine (s!"Invalid column index: {column}"))

end FlagSelect.Storage
