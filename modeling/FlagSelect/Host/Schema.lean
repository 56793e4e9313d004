import FlagSelect.Value.Basic
import FlagSelect.Value.Ty

/-!
# Host types

Directives reach host objects through the members that a schema registers for their type. Members
keep the order of their declaration: a field is the first of its name, and a call goes to the
first method that takes its arguments. The host has a state `σ`, which every getter and every
method may change.
-/

namespace FlagSelect

/-- A readable field of the objects of one host class. -/
structure Field (σ : Type) where
  name : String
  ty : Ty
  hostClass : Nat
  get : Object → σ → Value × σ

/-- A method of the objects of one host class; it may fail with a message. -/
structure Method (σ : Type) where
  name : String
  params : List Ty
  result : Ty
  hostClass : Nat
  call : Object → List Value → σ → Except String Value × σ

namespace Method

variable {σ : Type}

/-- Whether there are as many arguments as parameters and each parameter takes its argument. -/
def accepts (m : Method σ) (args : List Ty) : Bool :=
  m.params.length == args.length && (m.params.zip args).all fun p => p.1.accepts p.2

/-- The declaration of the method: its name, parameters and result. -/
def signature (m : Method σ) : String :=
  m.name ++ "(" ++ ", ".intercalate (m.params.map Ty.name) ++ ") -> " ++ m.result.name

end Method

/-- The declaration of the field: its name and type. -/
def Field.signature {σ : Type} (f : Field σ) : String :=
  f.name ++ ": " ++ f.ty.name

/-- A registered type: the members of one host class under one name. -/
structure HostType (σ : Type) where
  name : String
  hostClass : Nat
  fields : List (Field σ) := []
  methods : List (Method σ) := []
  fields_hostClass : ∀ f ∈ fields, f.hostClass = hostClass := by simp
  methods_hostClass : ∀ m ∈ methods, m.hostClass = hostClass := by simp

namespace HostType

variable {σ : Type}

/-- Registers a further field. -/
def addField (t : HostType σ) (name : String) (ty : Ty) (get : Object → σ → Value × σ) :
    HostType σ where
  name := t.name
  hostClass := t.hostClass
  fields := t.fields ++ [⟨name, ty, t.hostClass, get⟩]
  methods := t.methods
  fields_hostClass := by
    simp only [List.mem_append, List.mem_singleton]
    rintro f (h | rfl)
    · exact t.fields_hostClass f h
    · rfl
  methods_hostClass := t.methods_hostClass

/-- Registers a further method, or a further overload of one. -/
def addMethod (t : HostType σ) (name : String) (params : List Ty) (result : Ty)
    (call : Object → List Value → σ → Except String Value × σ) : HostType σ where
  name := t.name
  hostClass := t.hostClass
  fields := t.fields
  methods := t.methods ++ [⟨name, params, result, t.hostClass, call⟩]
  fields_hostClass := t.fields_hostClass
  methods_hostClass := by
    simp only [List.mem_append, List.mem_singleton]
    rintro m (h | rfl)
    · exact t.methods_hostClass m h
    · rfl

/-- The first declared field of a name. -/
def field? (t : HostType σ) (name : String) : Option (Field σ) :=
  t.fields.find? (·.name == name)

/-- The methods of a name that take so many arguments, in the order of their declaration. -/
def overloads (t : HostType σ) (name : String) (arity : Nat) : List (Method σ) :=
  t.methods.filter fun m => m.name == name && m.params.length == arity

/-- The type by which directives refer to the objects. -/
def ty (t : HostType σ) : Ty := .object t.name

end HostType

/-- The registered types, with no name twice. -/
structure Schema (σ : Type) where
  types : List (HostType σ) := []

namespace Schema

variable {σ : Type}

/-- Registers a type in place of one of the same name. -/
def insert (s : Schema σ) (t : HostType σ) : Schema σ :=
  ⟨t :: s.types.filter (·.name != t.name)⟩

def ofList (ts : List (HostType σ)) : Schema σ :=
  ts.foldl insert {}

def find? (s : Schema σ) (name : String) : Option (HostType σ) :=
  s.types.find? (·.name == name)

/-- The registered type that a type refers to. Scalars and `any` refer to none. -/
def resolve? (s : Schema σ) : Ty → Option (HostType σ)
  | .object name => s.find? name
  | .scalar _ | .any => none

def size (s : Schema σ) : Nat := s.types.length

end Schema

end FlagSelect
