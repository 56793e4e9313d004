/-!
# Faults of directives

Why a directive has no program. Positions count the bytes of the directive before the place at
fault.
-/

namespace FlagSelect

/-- What the reader of a directive would have taken at a place. -/
inductive Expectation where
  | expression
  | identifier
  | questionMarkAfterSlot
  | suffix
  | closing
  | separator
  | smallLiteral
deriving DecidableEq

def Expectation.text : Expectation → String
  | expression => "expression"
  | identifier => "identifier after `.`"
  | questionMarkAfterSlot => "`?` only directly after `<N`"
  | suffix => "`.`, `>` or end of expression"
  | closing => "`)`"
  | separator => "`,` or `)`"
  | smallLiteral => "integer literal within 64 bits"

inductive Fault where
  | empty
  | unexpectedChar (position : Nat) (found : Char) (expected : Expectation)
  | unexpectedEnd (expected : Expectation)
  /-- A comma or a closing parenthesis outside all parentheses. -/
  | strayTerminator (position : Nat) (found : Char)
  | invalidSlot (position : Nat) (text : String)
  | unsetSlot (slot : Nat)
  | storeOnVoid (position : Nat)
  | unknownType (name : String)
  | noSuchField (ty name : String)
  | noSuchMethod (ty name : String) (arity : Nat)
  | noApplicableOverload (ty name : String) (args : List String)
  | noSideProvider
deriving DecidableEq

namespace Fault

def code : Fault → String
  | empty => "EmptyDirective"
  | unexpectedChar .. => "UnexpectedChar"
  | unexpectedEnd _ => "UnexpectedEnd"
  | strayTerminator .. => "TopLevelTerminator"
  | invalidSlot .. => "InvalidSlot"
  | unsetSlot _ => "LocalUnset"
  | storeOnVoid _ => "StoreOnVoid"
  | unknownType _ => "UnknownType"
  | noSuchField .. | noSuchMethod .. => "UnresolvedIdentifier"
  | noApplicableOverload .. => "NoApplicableOverload"
  | noSideProvider => "NoSideProvider"

end Fault

/-- A fault and the directive that has it. -/
structure DirectiveError where
  directive : String
  fault : Fault
deriving DecidableEq

namespace DirectiveError

def code (e : DirectiveError) : String := e.fault.code

def message (e : DirectiveError) : String :=
  let quoted := "`" ++ e.directive ++ "`"
  match e.fault with
  | .empty => "directive is empty"
  | .unexpectedChar position found expected =>
    s!"{quoted} @ {position}: `{found}` not valid here, expected " ++ expected.text
  | .unexpectedEnd expected => s!"{quoted} ended early, expected " ++ expected.text
  | .strayTerminator position found =>
    s!"{quoted} @ {position}: `{found}` not valid for unnested expression"
  | .invalidSlot position text => s!"{quoted} @ {position}: `{text}` is not a local slot index"
  | .unsetSlot slot => s!"{quoted}: local {slot} not stored"
  | .storeOnVoid position => s!"{quoted} @ {position}: attempted store on empty expression"
  | .unknownType name => s!"unknown type '{name}'"
  | .noSuchField ty name => s!"type '{ty}' has no field '{name}'"
  | .noSuchMethod ty name arity =>
    s!"type '{ty}' has no method '{name}' taking {arity} argument(s)"
  | .noApplicableOverload ty name args =>
    s!"no overload of '{ty}.{name}' accepts (" ++ ", ".intercalate args ++ ")"
  | .noSideProvider => s!"{quoted}: side provider dereferenced but none is configured"

/-- The message with the code in front. -/
def codedMessage (e : DirectiveError) : String :=
  "[" ++ e.code ++ "] " ++ e.message

end DirectiveError

end FlagSelect
