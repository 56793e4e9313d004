/-!
# Defects of descriptors

Why a list of declarations describes no query. Messages name the query; `Defect.code` is the word by
which programs tell defects apart.
-/

namespace FlagSelect

/-- Where a table number is used. -/
inductive TableUse where
  | join | projection | sort
deriving DecidableEq

def TableUse.name : TableUse → String
  | join => "join"
  | projection => "projection"
  | sort => "sort"

inductive Defect where
  | missingPrimaryTable
  | duplicateTable (id : Nat)
  | sparseTables (expected : Nat)
  | tooManyTables (count max : Nat)
  | unknownTable (id : Nat) (use : TableUse)
  | missingJoin (id : Nat) (name : String)
  | primaryJoined (name : String)
  | noProjections
  | emptyPath (use : TableUse)
  | placeholderMismatch (fragment : String) (placeholders values : Nat)
deriving DecidableEq

namespace Defect

def code : Defect → String
  | missingPrimaryTable => "MissingPrimaryTable"
  | duplicateTable _ => "DuplicateTable"
  | sparseTables _ => "SparseTableIds"
  | tooManyTables .. => "TooManyTables"
  | unknownTable .. => "UnknownTable"
  | missingJoin .. => "MissingJoin"
  | primaryJoined _ => "PrimaryJoined"
  | noProjections => "NoProjections"
  | emptyPath _ => "EmptyPath"
  | placeholderMismatch .. => "PlaceholderMismatch"

/-- What is wrong, to be read after the name of the query. -/
def complaint : Defect → String
  | missingPrimaryTable => "has no primary table (id 0)"
  | duplicateTable id => s!"declares table {id} more than once"
  | sparseTables expected => s!"skips table id {expected}"
  | tooManyTables count max => s!"joins {count} tables, at most {max} supported"
  | unknownTable id use => s!"references unknown table {id} in " ++ use.name
  | missingJoin id name => s!"table {id} ('{name}') has no join columns"
  | primaryJoined name => s!"primary table '{name}' cannot be joined"
  | noProjections => "has no projections"
  | emptyPath use => "has an empty column path in " ++ use.name
  | placeholderMismatch fragment placeholders values =>
    s!"fragment `{fragment}` has {placeholders} placeholder(s) but {values} value(s)"

end Defect

/-- A defect and the query that has it. -/
structure DescriptorError where
  query : String
  defect : Defect
deriving DecidableEq

def DescriptorError.message (e : DescriptorError) : String :=
  "descriptor '" ++ e.query ++ "' " ++ e.defect.complaint

end FlagSelect
