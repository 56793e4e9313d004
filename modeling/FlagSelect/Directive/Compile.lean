import FlagSelect.Directive.Fault
import FlagSelect.Directive.Program

/-!
# Compiling directives

A directive starts from the record and follows a chain of members: `a.b(1, c).d`. `^` starts from
the side object instead, `>N` stores the value so far in slot `N`, `<N` starts from what slot `N`
holds, and `<N?` does so if an earlier part has stored something there and else is as good as
absent.

Reading is left to right and never goes back, and types are checked on the way, so the first fault
in reading order is the one reported. What a directive has stored stays known to the directives
after it, even when it fails further on: a fault comes with the `Pass` as it stood there.
-/

namespace FlagSelect

/-- What the directives read so far leave to those after them. -/
structure Pass where
  /-- The type of the value last stored in each slot. -/
  locals : Slots Ty := {}
  /-- Whether some directive has fetched the side object. -/
  resolved : Bool := false

/-- The types that directives can start from, and the members they can reach. -/
structure Scope (σ : Type) where
  schema : Schema σ
  record : Ty
  side : Option Ty

/-- Where an expression stands: alone, as an argument or in parentheses. -/
inductive Place where
  | top | argument | group
deriving DecidableEq

namespace Directive

/-- The length of a text in bytes. -/
def byteLength (l : List Char) : Nat :=
  l.foldl (fun n c => n + c.utf8Size) 0

def isNameStart (c : Char) : Bool := c.isAlpha || c == '_'

def isNameChar (c : Char) : Bool := c.isAlphanum || c == '_'

/-- A name at the front of a text, and the text behind it. -/
def name? : List Char → Option (String × List Char)
  | [] => none
  | c :: l =>
    if isNameStart c then
      some (String.ofList (c :: l.takeWhile isNameChar), l.dropWhile isNameChar)
    else none

/-- The number that decimal digits stand for. -/
def number (digits : List Char) : Nat :=
  digits.foldl (fun n c => 10 * n + (c.toNat - '0'.toNat)) 0

/-- The slot of a nonempty numeral of at most 255, leading zeros allowed. -/
def slotOf? (digits : List Char) : Option Slot :=
  if digits.isEmpty then none
  else if h : number digits < 256 then some ⟨number digits, h⟩ else none

/-- A slot number at the front of a text, and the text behind it. What is no slot number is reported
with its digits, or with the next character if there are none. -/
def slot (position : Nat) (l : List Char) : Except Fault (Slot × List Char) :=
  let digits := l.takeWhile Char.isDigit
  match slotOf? digits with
  | some i => .ok (i, l.dropWhile Char.isDigit)
  | none =>
    .error (.invalidSlot position (String.ofList (if digits.isEmpty then l.take 1 else digits)))

/-- The value of an integer literal and its type: the narrower of 32 and 64 bits that holds it. -/
def literal? (digits : List Char) : Option (Value × Ty) :=
  let n := number digits
  if n < 1 <<< 31 then some (.int (Int32.ofNat n), .scalar .int)
  else if n < 1 <<< 63 then some (.long (Int64.ofNat n), .scalar .long)
  else none

/-- The text from the first closing parenthesis that closes one more than was opened, or from the
first comma outside the parentheses opened here if `atComma` holds; empty if there is neither. -/
def skipBalanced (atComma : Bool) : Nat → List Char → List Char
  | _, [] => []
  | depth, c :: l =>
    if c = '(' then skipBalanced atComma (depth + 1) l
    else if c = ')' then
      match depth with
      | 0 => c :: l
      | d + 1 => skipBalanced atComma d l
    else if c = ',' ∧ depth = 0 ∧ atComma = true then c :: l
    else skipBalanced atComma depth l

/-- The text behind the expression that a text goes on with, whatever the expression says. -/
def skipRest : Place → List Char → List Char
  | .top, _ => []
  | .argument, l => skipBalanced true 0 l
  | .group, l => skipBalanced false 0 l

/-- A compiled part: its type and instructions, the text behind it and the pass after it. -/
structure Part (σ : Type) where
  ty : Ty
  code : List (Instr σ)
  rest : List Char
  pass : Pass

/-- The compiled arguments of a call, with their types in order. -/
structure Arguments (σ : Type) where
  types : List Ty
  code : List (Instr σ)
  rest : List Char
  pass : Pass

/-- What stands at the start of an expression. -/
inductive Operand (σ : Type) where
  | value (part : Part σ)
  /-- `<N?` with a value in the slot: the rest of the expression counts for nothing. -/
  | reused (slot : Slot) (ty : Ty) (rest : List Char)
  /-- `<N?` without one: the expression is what follows. -/
  | pending (rest : List Char)

/-- A result, or a fault and the pass as it stood there. -/
abbrev Outcome (α : Type) := Except (Fault × Pass) α

variable {σ : Type}

/-- The registered type of a receiver. Scalars and `any` have no members, which is no fault yet; an
object type that is not registered is one. -/
def members (schema : Schema σ) : Ty → Except Fault (Option (HostType σ))
  | .object name =>
    match schema.find? name with
    | some t => .ok (some t)
    | none => .error (.unknownType name)
  | .scalar _ | .any => .ok none

/-- The first declared method of the receiver's type that takes the arguments. -/
def overload (schema : Schema σ) (receiver : Ty) (name : String) (args : List Ty) :
    Except Fault (Method σ) := do
  let candidates := match ← members schema receiver with
    | some t => t.overloads name args.length
    | none => []
  if candidates.isEmpty then throw (.noSuchMethod receiver.name name args.length)
  match candidates.find? (·.accepts args) with
  | some m => return m
  | none => throw (.noApplicableOverload receiver.name name (args.map Ty.name))

/-- The first declared field of a name in the receiver's type. -/
def field (schema : Schema σ) (receiver : Ty) (name : String) : Except Fault (Field σ) := do
  match (← members schema receiver).bind (·.field? name) with
  | some f => return f
  | none => throw (.noSuchField receiver.name name)

/-- A directive being compiled: the scope, and its length in bytes, from which positions follow. -/
structure Source (σ : Type) where
  scope : Scope σ
  length : Nat

/-- The position of a text that the directive ends with. -/
def Source.position (s : Source σ) (rest : List Char) : Nat :=
  s.length - byteLength rest

/-- The fault of finding the first character of a text, or its end, where something else is due. -/
def Source.unexpected (s : Source σ) (rest : List Char) (expected : Expectation) : Fault :=
  match rest with
  | [] => .unexpectedEnd expected
  | c :: _ => .unexpectedChar (s.position rest) c expected

/-- Attaches the pass to a fault. -/
def faultIn {α : Type} (pass : Pass) (r : Except Fault α) : Outcome α :=
  r.mapError (·, pass)

/-- The end of an expression: `context` is the type of what has been read of it. -/
def finish (s : Source σ) (context : Option Ty) (pass : Pass) (rest : List Char) :
    Outcome (Part σ) :=
  match context with
  | some ty => .ok ⟨ty, [], rest, pass⟩
  | none => .error (s.unexpected rest .expression, pass)

-- Each call of the five readers gives up one unit of fuel. On the way from one call of `chain` to
-- the next inside it at least one character is read and at most three other calls lie between, so
-- four units for each character and four more are enough.
mutual

/-- Reads an expression, or what is left of it after a first part of type `context`. -/
def chain (s : Source σ) : Nat → Place → Option Ty → Pass → List Char → Outcome (Part σ)
  | 0, _, _, pass, _ => .error (.unexpectedEnd .expression, pass)
  | fuel + 1, place, context, pass, text =>
    let text := text.dropWhile Text.isAsciiBlank
    match text with
    | [] =>
      if place = .top then finish s context pass []
      else .error (.unexpectedEnd .closing, pass)
    | c :: l =>
      if c = ',' ∨ c = ')' then
        if place = .top then .error (.strayTerminator (s.position text) c, pass)
        else if c = ',' ∧ place = .group then .error (s.unexpected text .closing, pass)
        else finish s context pass text
      else
        match context with
        | none => do
          match ← operand s fuel pass text with
          | .value part =>
            let tail ← chain s fuel place (some part.ty) part.pass part.rest
            return { tail with code := part.code ++ tail.code }
          | .reused i ty rest => return ⟨ty, [.loadLocal i], skipRest place rest, pass⟩
          | .pending rest => chain s fuel place none pass rest
        | some ty =>
          if c = '.' then
            let afterDot := l.dropWhile Text.isAsciiBlank
            match name? afterDot with
            | none => .error (s.unexpected afterDot .identifier, pass)
            | some (name, rest) => do
              let part ← member s fuel ty name pass rest
              let tail ← chain s fuel place (some part.ty) part.pass part.rest
              return { tail with code := part.code ++ tail.code }
          else if c = '>' then do
            let (i, rest) ← faultIn pass (slot (s.position l) l)
            let pass := { pass with locals := pass.locals.set i ty }
            let tail ← chain s fuel place (some ty) pass rest
            return { tail with code := .storeLocal i :: tail.code }
          else if c = '?' then .error (s.unexpected text .questionMarkAfterSlot, pass)
          else .error (s.unexpected text .suffix, pass)

/-- Reads what an expression starts with. -/
def operand (s : Source σ) : Nat → Pass → List Char → Outcome (Operand σ)
  | 0, pass, _ => .error (.unexpectedEnd .expression, pass)
  | _ + 1, pass, [] => .error (.unexpectedEnd .expression, pass)
  | fuel + 1, pass, c :: l =>
    if c = '<' then do
      let (i, rest) ← faultIn pass (slot (s.position l) l)
      match rest, pass.locals.get? i with
      | '?' :: rest, some ty => return .reused i ty rest
      | '?' :: rest, none => return .pending rest
      | rest, some ty => return .value ⟨ty, [.loadLocal i], rest, pass⟩
      | _, none => throw (.unsetSlot i, pass)
    else if c = '^' then
      match s.scope.side with
      | none => .error (.noSideProvider, pass)
      | some ty =>
        let instr := if pass.resolved then .loadSide else .resolveSide
        .ok (.value ⟨ty, [instr], l, { pass with resolved := true }⟩)
    else if c = '(' then do
      let part ← chain s fuel .group none pass l
      match part.rest with
      | ')' :: rest => return .value { part with rest := rest }
      | _ => throw (.unexpectedEnd .closing, part.pass)
    else if c = '>' then .error (.storeOnVoid (s.position (c :: l)), pass)
    else if c.isDigit then
      let digits := (c :: l).takeWhile Char.isDigit
      match literal? digits with
      | some (v, ty) => .ok (.value ⟨ty, [.push v], (c :: l).dropWhile Char.isDigit, pass⟩)
      | none => .error (s.unexpected (c :: l) .smallLiteral, pass)
    else
      match name? (c :: l) with
      | some (name, rest) => do
        let part ← member s fuel s.scope.record name pass rest
        return .value { part with code := .loadRecord :: part.code }
      | none => .error (s.unexpected (c :: l) .expression, pass)

/-- Reads what follows the name of a member: its arguments, if it is called. -/
def member (s : Source σ) : Nat → Ty → String → Pass → List Char → Outcome (Part σ)
  | 0, _, _, pass, _ => .error (.unexpectedEnd .expression, pass)
  | fuel + 1, receiver, name, pass, text =>
    match text with
    | '(' :: l => do
      let args ← arguments s fuel pass (l.dropWhile Text.isAsciiBlank)
      let m ← faultIn args.pass (overload s.scope.schema receiver name args.types)
      return ⟨m.result, args.code ++ [.invoke m args.types.length], args.rest, args.pass⟩
    | '?' :: _ => .error (s.unexpected text .questionMarkAfterSlot, pass)
    | _ => do
      let f ← faultIn pass (field s.scope.schema receiver name)
      return ⟨f.ty, [.loadField f], text, pass⟩

/-- Reads the arguments of a call up to and with the closing parenthesis. -/
def arguments (s : Source σ) : Nat → Pass → List Char → Outcome (Arguments σ)
  | 0, pass, _ => .error (.unexpectedEnd .expression, pass)
  | _ + 1, pass, ')' :: l => .ok ⟨[], [], l, pass⟩
  | fuel + 1, pass, text => furtherArguments s fuel pass text

/-- Reads one argument and those after it. -/
def furtherArguments (s : Source σ) : Nat → Pass → List Char → Outcome (Arguments σ)
  | 0, pass, _ => .error (.unexpectedEnd .expression, pass)
  | fuel + 1, pass, text => do
    let part ← chain s fuel .argument none pass text
    match part.rest with
    | ',' :: rest =>
      let more ← furtherArguments s fuel part.pass rest
      return ⟨part.ty :: more.types, part.code ++ more.code, more.rest, more.pass⟩
    | ')' :: rest => return ⟨[part.ty], part.code, rest, part.pass⟩
    | [] => throw (.unexpectedEnd .closing, part.pass)
    | rest => throw (s.unexpected rest .separator, part.pass)

end

end Directive

/-- Compiles one directive. A fault comes with the pass that the directives after it go on from. -/
def Pass.compile {σ : Type} (pass : Pass) (scope : Scope σ) (directive : String) :
    Directive.Outcome (Program σ × Pass) :=
  if Text.allBlank directive then .error (.empty, pass)
  else do
    let text := directive.toList
    let source : Directive.Source σ := ⟨scope, Directive.byteLength text⟩
    let part ← Directive.chain source (4 * text.length + 4) .top none pass text
    return (⟨directive, part.code, part.ty⟩, part.pass)

end FlagSelect
