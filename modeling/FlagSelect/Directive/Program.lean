import FlagSelect.Directive.Slots
import FlagSelect.Host.Schema

/-!
# Binding programs

A directive becomes a sequence of instructions for a stack machine, which leaves the value of one
placeholder.
-/

namespace FlagSelect

inductive Instr (σ : Type) where
  /-- Pushes the record. -/
  | loadRecord
  /-- Fetches the side object for this statement, keeps it and pushes it. -/
  | resolveSide
  /-- Pushes the side object kept by `resolveSide`. -/
  | loadSide
  /-- Replaces the object on top by one of its fields. -/
  | loadField (field : Field σ)
  /-- Pushes what a slot holds. -/
  | loadLocal (slot : Slot)
  /-- Copies the top into a slot. -/
  | storeLocal (slot : Slot)
  /-- Replaces so many arguments and the object below them by the result of a call. -/
  | invoke (method : Method σ) (argc : Nat)
  | push (value : Value)

def Instr.text {σ : Type} : Instr σ → String
  | loadRecord => "load_record"
  | resolveSide => "resolve_provider"
  | loadSide => "load_provider"
  | loadField f => "load_field " ++ f.name
  | loadLocal i => s!"load_local {i}"
  | storeLocal i => s!"store_local {i}"
  | invoke m argc => "invoke " ++ m.name ++ s!"/{argc}"
  | push v => "push " ++ v.text

structure Program (σ : Type) where
  directive : String
  code : List (Instr σ)
  /-- The static type of the value. -/
  result : Ty

/-- The instructions in order. -/
def Program.text {σ : Type} (p : Program σ) : String :=
  "; ".intercalate (p.code.map Instr.text)

end FlagSelect
