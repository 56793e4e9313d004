import FlagSelect.Descriptor.Fragment
import FlagSelect.Host.Schema

/-!
# A scripted host

A host whose objects are records of field values, and whose methods each do one of a few simple
things. It counts calls and keeps what records were completed with, so that a run can be looked at
afterwards.
-/

namespace FlagSelect.Scripted

/-- One object of the host. -/
structure Entity where
  flags : Flags := 0
  fields : List (String × Value) := []
  /-- How often a counting method has been called on the object. -/
  calls : Nat := 0
  /-- How often the object has been completed, as a record. -/
  completions : Nat := 0
  /-- The rows of its last completion. -/
  rows : Option (List (List Value)) := none

/-- The objects of the host by identity. -/
structure Host where
  entities : Array Entity := #[]

/-- What a method does. -/
inductive Behaviour where
  | constant (v : Value)
  /-- Gives one of its arguments back. -/
  | argument (i : Nat)
  | field (name : String)
  /-- Counts the call and gives the count. -/
  | count
  /-- Gives the texts of its arguments, with bars between them. -/
  | display
  /-- Gives the sum of its arguments, modulo 2 ^ 64, and fails at one that is no whole number. -/
  | sum
  | fail (message : String)

namespace Host

/-- Adds an object of a host class. -/
def add (h : Host) (hostClass : Nat) (e : Entity) : Object × Host :=
  (⟨h.entities.size, hostClass⟩, ⟨h.entities.push e⟩)

def entity (h : Host) (o : Object) : Entity :=
  h.entities[o.id]?.getD {}

def modify (h : Host) (o : Object) (f : Entity → Entity) : Host :=
  ⟨h.entities.modify o.id f⟩

/-- The value of a field; null if the object has no such field. -/
def fieldValue (h : Host) (o : Object) (name : String) : Value :=
  ((h.entity o).fields.lookup name).getD .null

/-- A getter of the field of a name. -/
def getter (name : String) (o : Object) (h : Host) : Value × Host :=
  (h.fieldValue o name, h)

/-- Adds up whole numbers from left to right. -/
def total (args : List Value) : Except String Int64 :=
  args.foldlM (fun n v =>
    match v.toInt64? with
    | some k => .ok (n + k)
    | none => .error "expected int") 0

/-- Carries out a method. -/
def call (b : Behaviour) (o : Object) (args : List Value) (h : Host) :
    Except String Value × Host :=
  match b with
  | .constant v => (.ok v, h)
  | .argument i => (.ok (args[i]?.getD .null), h)
  | .field name => (.ok (h.fieldValue o name), h)
  | .count =>
    let h := h.modify o fun e => { e with calls := e.calls + 1 }
    (.ok (.long (Int64.ofNat (h.entity o).calls)), h)
  | .display => (.ok (.string ("|".intercalate (args.map Value.text))), h)
  | .sum => ((total args).map .long, h)
  | .fail message => (.error message, h)

/-- Hands a record its rows. -/
def complete (h : Host) (o : Object) (rows : List (List Value)) : Host :=
  h.modify o fun e => { e with completions := e.completions + 1, rows := some rows }

end Host

end FlagSelect.Scripted
