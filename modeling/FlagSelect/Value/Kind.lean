import FlagSelect.Text.Blank
import FlagSelect.Text.Quoted

/-!
# Kinds of values

Each kind has one setter for statement parameters and one getter for result columns. The kind
`object` stands for everything without a narrower kind; its getter names the type that is wanted.
-/

namespace FlagSelect

/-- The kinds of scalar values, and `object` for all else. -/
inductive Kind where
  | bool | byte | short | int | long | float | double | string | timestamp | bytes | object
deriving DecidableEq

namespace Kind

/-- The kinds in their order. -/
def all : List Kind :=
  [bool, byte, short, int, long, float, double, string, timestamp, bytes, object]

/-- The name under which a kind is written. -/
def name : Kind → String
  | bool => "bool"
  | byte => "byte"
  | short => "short"
  | int => "int"
  | long => "long"
  | float => "float"
  | double => "double"
  | string => "string"
  | timestamp => "timestamp"
  | bytes => "binary_stream"
  | object => "object"

/-- The word for a kind in the names of setters and getters. -/
def label : Kind → String
  | bool => "Bool"
  | byte => "Byte"
  | short => "Short"
  | int => "Int"
  | long => "Long"
  | float => "Float"
  | double => "Double"
  | string => "String"
  | timestamp => "Timestamp"
  | bytes => "BinaryStream"
  | object => "Object"

/-- Lower case for the letters `A` to `Z` alone. -/
def lowerAscii (s : String) : String :=
  String.ofList (s.toList.map Char.toLower)

/-- The kind of a type name, blanks around it and the case of ASCII letters aside. A name that no
scalar kind goes by stands for `object`. -/
def ofName (s : String) : Kind :=
  match lowerAscii (Text.trim s) with
  | "bool" | "boolean" => bool
  | "byte" | "i8" | "tinyint" => byte
  | "short" | "i16" | "smallint" => short
  | "int" | "i32" | "integer" => int
  | "long" | "i64" | "bigint" => long
  | "float" | "f32" | "real" => float
  | "double" | "f64" => double
  | "string" | "str" | "text" | "varchar" => string
  | "timestamp" | "datetime" => timestamp
  | "bytes" | "binary" | "blob" | "binary_stream" => bytes
  | _ => object

/-- The width in bytes of the kinds whose values all have the same. -/
def width? : Kind → Option Nat
  | bool | byte => some 1
  | short => some 2
  | int | float => some 4
  | long | double | timestamp => some 8
  | string | bytes | object => none

end Kind

/-- The setter for parameters of one kind. -/
structure Setter where
  kind : Kind
deriving DecidableEq

/-- The getter for columns of one kind; for an object it carries the name of the wanted type. -/
inductive Getter where
  | scalar (kind : Kind) (ne_object : kind ≠ .object)
  | object (hint : String)
deriving DecidableEq

namespace Setter

def label (s : Setter) : String := "Set" ++ s.kind.label

end Setter

namespace Getter

def label : Getter → String
  | scalar k _ => "Get" ++ k.label
  | object hint => "GetObject \x7b hint: " ++ Text.quote hint ++ " \x7d"

end Getter

namespace Kind

def setter (k : Kind) : Setter := ⟨k⟩

/-- The getter of a kind. Only an object's takes the hint. -/
def getter (k : Kind) (hint : String) : Getter :=
  if h : k = .object then .object hint else .scalar k h

/-- Whether reading a column of this kind needs the name of the wanted type. -/
def needsHint (k : Kind) : Bool := k == .object

end Kind

end FlagSelect
