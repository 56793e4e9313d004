import FlagSelect.Value.Kind

/-!
# Static types

The type of an expression: a scalar kind, a host type by name, or anything at all.
-/

namespace FlagSelect

inductive Ty where
  | scalar (kind : Kind)
  | object (name : String)
  | any
deriving DecidableEq

namespace Ty

/-- The kind as which values of the type are bound and read. -/
def kind : Ty → Kind
  | scalar k => k
  | object _ | any => .object

/-- The name of the type as messages show it and as getters pass it on. -/
def name : Ty → String
  | scalar k => k.name
  | object n => n
  | any => "any"

/-- The name together with what sort of type it is. -/
def label : Ty → String
  | scalar k => "Scalar(" ++ k.label ++ ")"
  | object n => "Object(" ++ Text.quote n ++ ")"
  | any => "Any"

/-- Whether a parameter of type `t` takes an argument of type `u`: `any` takes all, every other
type only itself. -/
def accepts (t u : Ty) : Bool := t == any || t == u

theorem accepts_iff {t u : Ty} : t.accepts u = true ↔ t = any ∨ t = u := by
  simp [accepts]

end Ty

end FlagSelect
