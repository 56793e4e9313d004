/-!
# Filter fragments

A fragment is a condition that belongs to the statement for some flags only. Its placeholders are
the question marks outside single-quoted literals, and one directive stands for each.
-/

namespace FlagSelect

/-- A set of flags, one a bit. -/
abbrev Flags := UInt32

structure Fragment where
  /-- The flags that the fragment looks at. -/
  mask : Flags
  /-- What the flags under the mask must be; all of them set, if nothing is said. -/
  required : Option Flags
  /-- The text of the condition. -/
  query : String
  /-- A directive for each placeholder, in their order. -/
  values : List String
deriving DecidableEq

/-- Counts question marks outside single quotes, where `quoted` says on which side the text starts.
A quote written twice inside a literal leaves it and enters it again. -/
def countPlaceholders (quoted : Bool) : List Char → Nat
  | [] => 0
  | c :: l =>
    if c = '\'' then countPlaceholders (!quoted) l
    else if c = '?' ∧ quoted = false then countPlaceholders quoted l + 1
    else countPlaceholders quoted l

namespace Fragment

/-- Whether the fragment belongs to the statement for these flags. -/
def applies (f : Fragment) (flags : Flags) : Bool :=
  flags &&& f.mask == f.required.getD f.mask

/-- The number of placeholders. -/
def placeholders (f : Fragment) : Nat :=
  countPlaceholders false f.query.toList

end Fragment

end FlagSelect
