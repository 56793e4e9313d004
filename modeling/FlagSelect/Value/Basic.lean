import FlagSelect.Number.Binary
import FlagSelect.Value.Kind

/-!
# Values

What directives compute, statements bind and rows hold. Objects belong to the host: a value knows
only which object it is and of which host class.
-/

namespace FlagSelect

/-- A host object. Two objects are the same when they have the same identity. -/
structure Object where
  id : Nat
  hostClass : Nat
deriving DecidableEq

inductive Value where
  | null
  | bool (b : Bool)
  | byte (n : Int8)
  | short (n : Int16)
  | int (n : Int32)
  | long (n : Int64)
  | float (x : Number.Single)
  | double (x : Number.Double)
  | string (s : String)
  /-- Milliseconds since 1970 in universal time. -/
  | timestamp (n : Int64)
  | bytes (bs : List UInt8)
  | object (o : Object)
deriving DecidableEq

namespace Value

/-- The kind as which a value is bound. Null has no kind of its own and goes as an object. -/
def kind : Value → Kind
  | null | object _ => .object
  | bool _ => .bool
  | byte _ => .byte
  | short _ => .short
  | int _ => .int
  | long _ => .long
  | float _ => .float
  | double _ => .double
  | string _ => .string
  | timestamp _ => .timestamp
  | bytes _ => .bytes

def isNull : Value → Bool
  | null => true
  | _ => false

/-- The whole number that a value holds, widened to 64 bits; truth counts as one. -/
def toInt64? : Value → Option Int64
  | bool b => some (if b then 1 else 0)
  | byte n => some n.toInt64
  | short n => some n.toInt64
  | int n => some n.toInt64
  | long n | timestamp n => some n
  | _ => none

def toString? : Value → Option String
  | string s => some s
  | _ => none

/-- The short form, as programs and methods show it. -/
def text : Value → String
  | null => "null"
  | bool b => if b then "true" else "false"
  | byte n => toString n.toInt
  | short n => toString n.toInt
  | int n => toString n.toInt
  | long n => toString n.toInt
  | float x => x.text
  | double x => x.text
  | string s => "'" ++ s ++ "'"
  | timestamp n => "ts:" ++ toString n.toInt
  | bytes bs => "<" ++ toString bs.length ++ " bytes>"
  | object _ => "<object>"

/-- The form that names the kind, as messages and logs show it. -/
def label : Value → String
  | null => "Null"
  | bool b => if b then "Bool(true)" else "Bool(false)"
  | byte n => "Byte(" ++ toString n.toInt ++ ")"
  | short n => "Short(" ++ toString n.toInt ++ ")"
  | int n => "Int(" ++ toString n.toInt ++ ")"
  | long n => "Long(" ++ toString n.toInt ++ ")"
  | float x => "Float(" ++ x.text ++ ")"
  | double x => "Double(" ++ x.text ++ ")"
  | string s => "String(" ++ Text.quote s ++ ")"
  | timestamp n => "Timestamp(" ++ toString n.toInt ++ ")"
  | bytes bs => "Bytes(" ++ toString bs.length ++ " bytes)"
  | object _ => "Object(..)"

/-- Equality as values: floating point numbers compare as numbers, so that a NaN differs from
itself and the zeros agree; all else compares by content, and objects by identity. -/
def same : Value → Value → Bool
  | float x, float y => x.sameNumber y
  | double x, double y => x.sameNumber y
  | v, w => v == w

end Value

end FlagSelect
