import FlagSelect.Descriptor.Column
import FlagSelect.Descriptor.Fragment
import FlagSelect.Value.Ty

/-!
# Query descriptors

Everything about a query but its flags: which tables it joins, which columns it selects, which
filters it may carry, and how it is sorted and paged. `Descriptor.ofDeclarations` is the way to one
that is free of defects.
-/

namespace FlagSelect

/-- The condition under which a table is joined. -/
structure Join where
  /-- The table whose letter qualifies the first column. -/
  table : Nat
  /-- The column on the side already joined. -/
  primary : String
  /-- The column of the table being joined. -/
  secondary : String
deriving DecidableEq

structure Table where
  id : Nat
  name : String
  join : Option Join
deriving DecidableEq

structure Projection where
  column : Column
  ty : Ty
deriving DecidableEq

structure Paging where
  /-- The column to sort by, always in descending order. -/
  sort : Option Column := none
  /-- The directive for the number of rows. -/
  limit : Option String := none
  /-- The directive for the number of rows to skip. -/
  offset : Option String := none
deriving DecidableEq

/-- Whether there is neither a sort column nor a limit nor an offset. -/
def Paging.isEmpty (p : Paging) : Bool :=
  p.sort.isNone && p.limit.isNone && p.offset.isNone

structure Descriptor where
  name : String
  /-- The tables in ascending order of their numbers. -/
  tables : List Table
  projections : List Projection
  filters : List Fragment
  paging : Paging
deriving DecidableEq

namespace Descriptor

/-- The name of the table that the query starts from. -/
def primaryName (d : Descriptor) : String :=
  match d.tables with
  | t :: _ => t.name
  | [] => ""

/-- The filters that belong to the statement for these flags, in their order. -/
def applicable (d : Descriptor) (flags : Flags) : List Fragment :=
  d.filters.filter (·.applies flags)

end Descriptor

end FlagSelect
