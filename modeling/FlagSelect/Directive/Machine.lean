import FlagSelect.Directive.Program

/-!
# Running binding programs

The programs of one statement run one after the other on one machine: what one of them puts into a
slot, and the side object that it has fetched, are there for those after it. The operand stack is
empty at the start of each program. A fault comes with the host state as the calls up to it left it.
-/

namespace FlagSelect

/-- How a program can break the rules of the machine. Compiled programs never do. -/
inductive Breach where
  | sideMissing
  | sideUnresolved
  | unsetSlot (slot : Slot)
  | storeOnEmpty
  | fewOperands (method : String) (needed present : Nat)
  | underflow
  | leftover (count : Nat)
deriving DecidableEq

def Breach.message : Breach → String
  | sideMissing => "side provider missing"
  | sideUnresolved => "side provider used before resolution"
  | unsetSlot i => s!"local {i} unset"
  | storeOnEmpty => "store on empty stack"
  | fewOperands method needed present =>
    s!"invoke {method} needs {needed} operands, stack has {present}"
  | underflow => "stack underflow"
  | leftover count => s!"{count} operand(s) left on stack"

/-- Why a program yields no value. -/
inductive EvalFault where
  /-- The receiver is no object of the host class that has the member. -/
  | receiver (member : String)
  | nullReceiver (member : String)
  /-- The host method failed. -/
  | host (member message : String)
  | breach (cause : Breach)
deriving DecidableEq

def EvalFault.message : EvalFault → String
  | receiver member => s!"receiver does not match type of '{member}'"
  | nullReceiver member => s!"null receiver for '{member}'"
  | host member message => s!"'{member}' failed: {message}"
  | breach cause => cause.message

/-- The objects that directives start from. -/
structure Roots where
  record : Value
  side : Option Value

structure Machine (σ : Type) where
  /-- The side object, once it has been fetched. -/
  side : Option Value := none
  locals : Slots Value := {}
  /-- The operands, topmost first. -/
  stack : List Value := []
  host : σ

/-- A result, or a fault and the host state there. -/
abbrev Evaluation (σ α : Type) := Except (EvalFault × σ) α

variable {σ : Type}

/-- The object to call a member of one host class on. -/
def receiver (name : String) (hostClass : Nat) : Value → Except EvalFault Object
  | .object o => if o.hostClass = hostClass then .ok o else .error (.receiver name)
  | .null => .error (.nullReceiver name)
  | _ => .error (.receiver name)

/-- Reads a field of the object that a value should be. -/
def Field.read (f : Field σ) (v : Value) (host : σ) : Evaluation σ (Value × σ) :=
  match receiver f.name f.hostClass v with
  | .ok o => .ok (f.get o host)
  | .error fault => .error (fault, host)

/-- Calls a method on the object that a value should be. -/
def Method.invoke (m : Method σ) (v : Value) (args : List Value) (host : σ) :
    Evaluation σ (Value × σ) :=
  match receiver m.name m.hostClass v with
  | .error fault => .error (fault, host)
  | .ok o =>
    match m.call o args host with
    | (.ok result, host) => .ok (result, host)
    | (.error message, host) => .error (.host m.name message, host)

namespace Machine

/-- The machine with one more operand. -/
def push (m : Machine σ) (v : Value) : Machine σ :=
  { m with stack := v :: m.stack }

/-- A breach of the rules at this point. -/
def stop {α : Type} (m : Machine σ) (cause : Breach) : Evaluation σ α :=
  .error (.breach cause, m.host)

/-- Carries out one instruction. -/
def step (roots : Roots) (m : Machine σ) : Instr σ → Evaluation σ (Machine σ)
  | .loadRecord => .ok (m.push roots.record)
  | .resolveSide =>
    match roots.side with
    | some v => .ok ({ m with side := some v }.push v)
    | none => m.stop .sideMissing
  | .loadSide =>
    match m.side with
    | some v => .ok (m.push v)
    | none => m.stop .sideUnresolved
  | .loadField f =>
    match m.stack with
    | v :: rest => do
      let (w, host) ← f.read v m.host
      return { m with stack := w :: rest, host := host }
    | [] => m.stop .underflow
  | .loadLocal i =>
    match m.locals.get? i with
    | some v => .ok (m.push v)
    | none => m.stop (.unsetSlot i)
  | .storeLocal i =>
    match m.stack with
    | v :: _ => .ok { m with locals := m.locals.set i v }
    | [] => m.stop .storeOnEmpty
  | .invoke method argc =>
    -- The arguments lie on top of the receiver, the last one topmost.
    match m.stack.drop argc with
    | v :: rest => do
      let (w, host) ← method.invoke v (m.stack.take argc).reverse m.host
      return { m with stack := w :: rest, host := host }
    | [] => m.stop (.fewOperands method.name (argc + 1) m.stack.length)
  | .push v => .ok (m.push v)

/-- Carries out instructions in order. -/
def run (roots : Roots) (m : Machine σ) (code : List (Instr σ)) : Evaluation σ (Machine σ) :=
  code.foldlM (step roots) m

/-- Runs a program on an empty stack. It should leave one operand, which is its value. -/
def eval (roots : Roots) (m : Machine σ) (p : Program σ) : Evaluation σ (Value × Machine σ) := do
  let m ← run roots { m with stack := [] } p.code
  match m.stack with
  | [v] => return (v, { m with stack := [] })
  | [] => m.stop .underflow
  | _ :: rest => m.stop (.leftover rest.length)

end Machine

end FlagSelect
