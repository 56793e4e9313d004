import FlagSelect.Descriptor.Basic
import FlagSelect.Directive.Compile
import FlagSelect.Error
import FlagSelect.Profile
import FlagSelect.Text.Digest

/-!
# Plans

A template is a descriptor together with the types that its directives start from. For each set of
flags it has one plan: the statement, a program for each of its placeholders, and a getter for
each of its columns. The statement is a head, which is the same for all flags, and clauses behind
it; every directive of a clause is compiled when the statement has been written up to the end of
that clause.
-/

namespace FlagSelect

/-- What binds one placeholder. Placeholders are numbered from one. -/
structure Binding (σ : Type) where
  index : Nat
  setter : Setter
  program : Program σ

/-- What reads one column. Columns are numbered from zero. -/
structure Reading where
  column : Nat
  getter : Getter
  ty : Ty
deriving DecidableEq

structure Plan (σ : Type) where
  flags : Flags
  sql : String
  bindings : List (Binding σ)
  columns : List Reading

namespace Plan

variable {σ : Type}

/-- Tells statements apart by their text alone. -/
def fingerprint (p : Plan σ) : UInt64 :=
  Text.Digest.fingerprint p.sql

/-- A description of the plan, one line for the flags, the statement, each placeholder and each
column. -/
def describe (p : Plan σ) : String :=
  let hex := Text.Hex.padded 16 p.fingerprint.toNat
  let bindLine (b : Binding σ) :=
    s!"  bind ?{b.index} " ++ b.setter.label ++ " `" ++ b.program.directive ++ "`: " ++
      b.program.text ++ "\n"
  let readLine (r : Reading) := s!"  read #{r.column} " ++ r.getter.label ++ "\n"
  "flags " ++ flagsText p.flags ++ " fingerprint " ++ hex ++ "\n" ++
    "  sql: " ++ p.sql ++ "\n" ++
    String.join (p.bindings.map bindLine) ++ String.join (p.columns.map readLine)

end Plan

/-- A piece at the end of a statement, and what its placeholders stand for. -/
structure Clause where
  text : String
  elements : List Element

namespace Descriptor

/-- The clause that joins a table, or none for a table that has no letter or no join. -/
def joinText? (t : Table) : Option String := do
  let letter ← (alias? t.id).map Char.toString
  let join ← t.join
  return " left outer join " ++ t.name ++ " " ++ letter ++ " on (" ++ qualifier join.table ++
    join.primary ++ " = " ++ letter ++ "." ++ join.secondary ++ ")"

/-- The statement up to its joins. -/
def head (d : Descriptor) : Except Error String := do
  let columns := ", ".intercalate (d.projections.map (·.column.text))
  let joins ← (d.tables.drop 1).mapM fun t =>
    match joinText? t with
    | some text => .ok text
    | none => .error (.fatal (.unjoinableTable d.name t.id))
  return "select " ++ columns ++ " from " ++ d.primaryName ++ String.join joins

/-- The conditions of the statement; the first follows `where`, the others `and`. -/
def filterClauses (joiner : String) : List Fragment → List Clause
  | [] => []
  | f :: rest =>
    ⟨joiner ++ f.query, f.values.map (.fragment f.query)⟩ :: filterClauses " and " rest

/-- Sorting, the limit and the offset. -/
def pagingClauses (p : Paging) : List Clause :=
  (p.sort.map fun c => ⟨" order by " ++ c.text ++ " desc", []⟩).toList ++
    (p.limit.map fun d => ⟨" limit ?", [.limit d]⟩).toList ++
    (p.offset.map fun d => ⟨" offset ?", [.offset d]⟩).toList

/-- Everything behind the head of the statement for these flags. -/
def clauses (d : Descriptor) (flags : Flags) : List Clause :=
  filterClauses " where " (d.applicable flags) ++ pagingClauses d.paging

/-- The getters of the columns. -/
def readings (d : Descriptor) : List Reading :=
  d.projections.zipIdx.map fun (p, i) => ⟨i, p.ty.kind.getter p.ty.name, p.ty⟩

end Descriptor

structure Template (σ : Type) where
  descriptor : Descriptor
  scope : Scope σ

namespace Template

variable {σ : Type}

/-- Compiles the directives of one clause, at whose end the statement is `sql`. -/
def compileElements (scope : Scope σ) (flags : Flags) (sql : String) (pass : Pass) :
    List Element → Except Error (List (Program σ) × Pass)
  | [] => .ok ([], pass)
  | e :: rest =>
    match pass.compile scope e.directive with
    | .error (fault, _) => .error (.synthesis flags sql e ⟨e.directive, fault⟩)
    | .ok (program, pass) => do
      let (programs, pass) ← compileElements scope flags sql pass rest
      return (program :: programs, pass)

/-- Writes the clauses behind a statement and compiles their directives on the way. -/
def writeClauses (scope : Scope σ) (flags : Flags) (sql : String) (pass : Pass) :
    List Clause → Except Error (String × List (Program σ))
  | [] => .ok (sql, [])
  | c :: rest => do
    let sql := sql ++ c.text
    let (programs, pass) ← compileElements scope flags sql pass c.elements
    let (sql, more) ← writeClauses scope flags sql pass rest
    return (sql, programs ++ more)

/-- The plan for a set of flags. -/
def plan (t : Template σ) (flags : Flags) : Except Error (Plan σ) := do
  let head ← t.descriptor.head
  let (sql, programs) ← writeClauses t.scope flags head {} (t.descriptor.clauses flags)
  return {
    flags
    sql
    bindings := programs.zipIdx.map fun (p, i) => ⟨i + 1, p.result.kind.setter, p⟩
    columns := t.descriptor.readings }

/-- The plan for a set of flags, counted in the profile if there is one. -/
def synthesize (t : Template σ) (flags : Flags) (profile : Profile) :
    Except Error (Plan σ) × Profile :=
  match t.plan flags with
  | .ok p => (.ok p, profile.count .synthesize)
  | .error e => (.error e, profile)

end Template

end FlagSelect
