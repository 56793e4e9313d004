import FlagSelect.Descriptor.Basic
import FlagSelect.Descriptor.Defect

/-!
# From declarations to a descriptor

Declarations may come in any order. Tables are sorted by number, with equal numbers kept in the
order of their declarations, inherited fragments go before the query's own, and of several sort
columns, limits or offsets the last one counts. `Descriptor.defect?` then looks for the first
defect.
-/

namespace FlagSelect

/-- The primary table and one for each letter. -/
def maxTables : Nat := 27

inductive Declaration where
  | primary (name : String)
  | join (id : Nat) (name : String) (on : Join)
  | select (column : Column) (ty : Ty)
  | filter (fragment : Fragment)
  | inherit (fragments : List Fragment)
  | sort (column : Column)
  | limit (directive : String)
  | offset (directive : String)
deriving DecidableEq

/-- What has been declared so far. -/
structure Draft where
  tables : List Table := []
  projections : List Projection := []
  inherited : List Fragment := []
  filters : List Fragment := []
  paging : Paging := {}

/-- A directive without the blanks around it, or none if nothing else is there. -/
def directive? (s : String) : Option String :=
  let t := Text.trim s
  if t.isEmpty then none else some t

namespace Draft

/-- Adds one declaration. -/
def declare (d : Draft) : Declaration → Draft
  | .primary name => { d with tables := d.tables ++ [⟨0, name, none⟩] }
  | .join id name on => { d with tables := d.tables ++ [⟨id, name, some on⟩] }
  | .select column ty => { d with projections := d.projections ++ [⟨column, ty⟩] }
  | .filter fragment => { d with filters := d.filters ++ [fragment] }
  | .inherit fragments => { d with inherited := d.inherited ++ fragments }
  | .sort column => { d with paging := { d.paging with sort := some column } }
  | .limit directive => { d with paging := { d.paging with limit := directive? directive } }
  | .offset directive => { d with paging := { d.paging with offset := directive? directive } }

/-- The descriptor that the draft amounts to, whether or not it has defects. -/
def descriptor (d : Draft) (name : String) : Descriptor where
  name := name
  tables := d.tables.mergeSort fun a b => a.id ≤ b.id
  projections := d.projections
  filters := d.inherited ++ d.filters
  paging := d.paging

end Draft

namespace Descriptor

/-- The first number that does not follow the one before it, where `expected` is the number that
should come after `previous`. -/
def gap? (previous expected : Nat) : List Table → Option Defect
  | [] => none
  | t :: rest =>
    if previous = t.id then some (.duplicateTable t.id)
    else if t.id ≠ expected then some (.sparseTables expected)
    else gap? t.id (expected + 1) rest

/-- Too many tables, no table with the number 0, or numbers that are not 0, 1, 2 and so on. -/
def numberingDefect? (tables : List Table) : Option Defect :=
  if maxTables < tables.length then some (.tooManyTables tables.length maxTables)
  else
    match tables with
    | [] => some .missingPrimaryTable
    | t :: rest => if t.id ≠ 0 then some .missingPrimaryTable else gap? t.id 1 rest

/-- A primary table with a join, or another one without or with a join on an unknown table. -/
def joinDefect? (count : Nat) (t : Table) : Option Defect :=
  match t.join with
  | some join =>
    if t.id = 0 then some (.primaryJoined t.name)
    else if count ≤ join.table then some (.unknownTable join.table .join)
    else none
  | none => if t.id = 0 then none else some (.missingJoin t.id t.name)

/-- A blank path or one below an unknown table. -/
def columnDefect? (count : Nat) (use : TableUse) (c : Column) : Option Defect :=
  if c.isBlank then some (.emptyPath use)
  else if count ≤ c.table then some (.unknownTable c.table use)
  else none

/-- Another number of directives than of placeholders. -/
def fragmentDefect? (f : Fragment) : Option Defect :=
  if f.placeholders = f.values.length then none
  else some (.placeholderMismatch f.query f.placeholders f.values.length)

/-- The first defect: of the numbering, the joins, the columns, then the fragments. -/
def defect? (d : Descriptor) : Option Defect :=
  let count := d.tables.length
  numberingDefect? d.tables
    <|> d.tables.findSome? (joinDefect? count)
    <|> (if d.projections.isEmpty then some .noProjections else none)
    <|> d.projections.findSome? (fun p => columnDefect? count .projection p.column)
    <|> d.paging.sort.bind (columnDefect? count .sort)
    <|> d.filters.findSome? fragmentDefect?

/-- The descriptor of a list of declarations, or its first defect. -/
def ofDeclarations (name : String) (ds : List Declaration) : Except DescriptorError Descriptor :=
  let d := (ds.foldl Draft.declare {}).descriptor name
  match d.defect? with
  | some defect => .error ⟨name, defect⟩
  | none => .ok d

end Descriptor

end FlagSelect
