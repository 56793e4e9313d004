import FlagSelect.Descriptor.Defect
import FlagSelect.Directive.Fault
import FlagSelect.Directive.Machine
import FlagSelect.Settings.Basic
import FlagSelect.Text.Hex

/-!
# Errors

What can go wrong between a descriptor and the rows of a record, each cause with what a reader of
the message needs to find it.
-/

namespace FlagSelect

/-- Flags as messages show them. -/
def flagsText (flags : UInt32) : String :=
  "0x" ++ Text.Hex.digits flags.toNat

/-- Failures of a connection or a statement. -/
inductive DriverFault where
  /-- Reported by the database engine. -/
  | engine (message : String)
  | closed
  | unsupportedBind (value : Value) (setter : Setter)
  /-- The caller ended a visit of rows before its end. -/
  | aborted
  | other (message : String)
deriving DecidableEq

namespace DriverFault

def message : DriverFault → String
  | engine message => "sqlite: " ++ message
  | closed => "statement closed"
  | unsupportedBind value setter => "cannot bind " ++ value.label ++ " with " ++ setter.label
  | aborted => "row visitation aborted"
  | other message => message

end DriverFault

/-- What was done with a statement when the driver failed. -/
inductive Action where
  | prepare | bind | execute | close
deriving DecidableEq

def Action.name : Action → String
  | prepare => "prepare"
  | bind => "bind"
  | execute => "execute"
  | close => "close"

/-- A failure of the driver, and the statement that it befell. -/
structure ResourceError where
  flags : UInt32
  sql : String
  action : Action
  fault : DriverFault
deriving DecidableEq

def ResourceError.message (e : ResourceError) : String :=
  "failed to " ++ e.action.name ++ " statement for flags " ++ flagsText e.flags ++ ": " ++
    e.fault.message ++ "\n - sql: " ++ e.sql

/-- The part of a statement that a directive stands for. -/
inductive Element where
  | fragment (query directive : String)
  | limit (directive : String)
  | offset (directive : String)
deriving DecidableEq

namespace Element

def directive : Element → String
  | fragment _ d | limit d | offset d => d

def text : Element → String
  | fragment query directive => s!"fragment `{query}` value `{directive}`"
  | limit directive => s!"limit `{directive}`"
  | offset directive => s!"offset `{directive}`"

end Element

/-- A rule of the library broken by the library itself. -/
inductive InternalFault where
  | unjoinableTable (descriptor : String) (id : Nat)
  | breach (flags : UInt32) (directive : String) (cause : Breach)
deriving DecidableEq

def InternalFault.message : InternalFault → String
  | unjoinableTable descriptor id =>
    s!"validated descriptor '{descriptor}' has unjoinable table {id}"
  | breach flags directive cause =>
    "flags " ++ flagsText flags ++ s!" directive `{directive}`: " ++ cause.message

inductive Error where
  | descriptor (e : DescriptorError)
  /-- A directive has no program; `sql` is the statement up to the part it stands for. -/
  | synthesis (flags : UInt32) (sql : String) (element : Element) (e : DirectiveError)
  | resource (e : ResourceError)
  | evaluation (flags : UInt32) (directive : String) (fault : EvalFault)
  /-- The projection refused a row. -/
  | projection (flags : UInt32) (row : Nat) (message : String)
  /-- Several statements could not be closed. -/
  | aggregate (failures : List ResourceError)
  | settings (defect : SettingsDefect)
  | fatal (fault : InternalFault)
deriving DecidableEq

namespace Error

def code : Error → String
  | descriptor e => e.defect.code
  | synthesis _ _ _ e => e.code
  | resource _ => "Resource"
  | evaluation .. => "Evaluation"
  | projection .. => "Projection"
  | aggregate _ => "Aggregate"
  | settings _ => "Config"
  | fatal _ => "Fatal"

def isFatal : Error → Bool
  | fatal _ => true
  | _ => false

def message : Error → String
  | descriptor e => "descriptor error: " ++ e.message
  | synthesis flags sql element e =>
    "synthesis failed for flags " ++ flagsText flags ++ " at " ++ element.text ++ ": " ++
      e.message ++ "\n - sql so far: " ++ sql
  | resource e => e.message
  | evaluation flags directive fault =>
    s!"evaluating `{directive}` for flags " ++ flagsText flags ++ " failed: " ++ fault.message
  | projection flags row message =>
    "row projection failed for flags " ++ flagsText flags ++ s!" at row {row}: {message}"
  | aggregate failures => s!"issues closing {failures.length} prepared statement(s)"
  | settings defect => defect.message
  | fatal fault => "fatal: " ++ fault.message

/-- The error of a program that yields no value: a breach of the machine's rules is fatal. -/
def ofEvalFault (flags : UInt32) (directive : String) : EvalFault → Error
  | .breach cause => fatal (.breach flags directive cause)
  | fault => evaluation flags directive fault

end Error

end FlagSelect
