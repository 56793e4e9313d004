import FlagSelect.Proofs.Directive.Recording

/-!
# Interpreting directives

A directive can be read with actual values in place of types: every part of the text is carried out
where it stands, and whether a slot holds something is seen when the text asks for it. Types still
come along, but only to find members by. What is no directive has no interpretation.
-/

namespace FlagSelect

/-- A value with the type by which its members are found. -/
structure Typed where
  ty : Ty
  value : Value

/-- What interpreted directives have at hand. -/
structure Live (σ : Type) where
  locals : Slots Typed := {}
  host : Recorder σ

/-- A result, a fault with what is at hand there, or neither for a text that is no directive. -/
abbrev Interpretation (σ α : Type) := Except (Option (EvalFault × Live σ)) α

/-- What the slots hold. -/
def Live.slots {σ : Type} (live : Live σ) (i : Slot) : Option Value :=
  (live.locals.get? i).map Typed.value

namespace Directive

/-- A value, the text behind what it comes from, and what is at hand then. -/
structure Reached (σ : Type) where
  value : Typed
  rest : List Char
  live : Live σ

/-- The arguments of a call, as `Reached` is for one value. -/
structure ReachedArguments (σ : Type) where
  values : List Typed
  rest : List Char
  live : Live σ

variable {σ α : Type}

/-- What an access of the host comes to. -/
def interpreted (live : Live σ) (e : Evaluation (Recorder σ) α) : Interpretation σ α :=
  e.mapError fun stopped => some (stopped.1, { live with host := stopped.2 })

def found (r : Except Fault α) : Interpretation σ α :=
  r.mapError fun _ => none

def numeral? (text : List Char) : Option (Slot × List Char) :=
  (slotOf? (text.takeWhile Char.isDigit)).map fun i => (i, text.dropWhile Char.isDigit)

/-- The slot that a text asks for with `<N?`, and the text behind. -/
def asked? : List Char → Option (Slot × List Char)
  | '<' :: l =>
    match numeral? l with
    | some (i, '?' :: rest) => some (i, rest)
    | _ => none
  | _ => none

-- Fuel as for the readers, with the same count of calls between two characters.
mutual

/-- Interprets an expression, or what is left of it behind a first part. -/
def expression (scope : Scope σ) (roots : Roots) :
    Nat → Place → Option Typed → Live σ → List Char → Interpretation σ (Reached σ)
  | 0, _, _, _, _ => .error none
  | fuel + 1, place, none, live, text =>
    match asked? (skipBlanks text) with
    | some (i, rest) =>
      match live.locals.get? i with
      | some v => .ok ⟨v, skipRest place rest, live⟩
      | none => expression scope roots fuel place none live rest
    | none => do
      let first ← start scope roots fuel live (skipBlanks text)
      expression scope roots fuel place (some first.value) first.live first.rest
  | fuel + 1, place, some v, live, text =>
    match skipBlanks text with
    | '.' :: l =>
      match name? (skipBlanks l) with
      | some (name, rest) => do
        let next ← select scope roots fuel v name live rest
        expression scope roots fuel place (some next.value) next.live next.rest
      | none => .error none
    | '>' :: l =>
      match numeral? l with
      | some (i, rest) =>
        expression scope roots fuel place (some v) { live with locals := live.locals.set i v } rest
      | none => .error none
    | text => .ok ⟨v, text, live⟩

/-- Interprets what an expression starts with, other than a test of a slot. -/
def start (scope : Scope σ) (roots : Roots) :
    Nat → Live σ → List Char → Interpretation σ (Reached σ)
  | 0, _, _ => .error none
  | _ + 1, live, '<' :: l =>
    match numeral? l with
    | some (i, rest) =>
      match live.locals.get? i with
      | some v => .ok ⟨v, rest, live⟩
      | none => .error none
    | none => .error none
  | _ + 1, live, '^' :: l =>
    match scope.side, roots.side with
    | some ty, some v => .ok ⟨⟨ty, v⟩, l, live⟩
    | _, _ => .error none
  | fuel + 1, live, '(' :: l => do
    let inner ← expression scope roots fuel .group none live l
    match inner.rest with
    | ')' :: rest => return { inner with rest := rest }
    | _ => .error none
  | fuel + 1, live, text =>
    match name? text with
    | some (name, rest) => select scope roots fuel ⟨scope.record, roots.record⟩ name live rest
    | none =>
      let digits := text.takeWhile Char.isDigit
      match digits.isEmpty, literal? digits with
      | false, some (v, ty) => .ok ⟨⟨ty, v⟩, text.dropWhile Char.isDigit, live⟩
      | _, _ => .error none

/-- Reads the field or calls the method of a name on a receiver. -/
def select (scope : Scope σ) (roots : Roots) :
    Nat → Typed → String → Live σ → List Char → Interpretation σ (Reached σ)
  | 0, _, _, _, _ => .error none
  | fuel + 1, receiver, name, live, '(' :: l => do
    let args ← take scope roots fuel live (skipBlanks l)
    let m ← found (overload scope.schema receiver.ty name (args.values.map Typed.ty))
    let (w, host) ← interpreted args.live
      (m.recorded.invoke receiver.value (args.values.map Typed.value) args.live.host)
    return ⟨⟨m.result, w⟩, args.rest, { args.live with host }⟩
  | _ + 1, receiver, name, live, text => do
    let f ← found (field scope.schema receiver.ty name)
    let (w, host) ← interpreted live (f.recorded.read receiver.value live.host)
    return ⟨⟨f.ty, w⟩, text, { live with host }⟩

/-- Interprets arguments up to and with the closing parenthesis. -/
def take (scope : Scope σ) (roots : Roots) :
    Nat → Live σ → List Char → Interpretation σ (ReachedArguments σ)
  | 0, _, _ => .error none
  | _ + 1, live, ')' :: l => .ok ⟨[], l, live⟩
  | fuel + 1, live, text => takeMore scope roots fuel live text

def takeMore (scope : Scope σ) (roots : Roots) :
    Nat → Live σ → List Char → Interpretation σ (ReachedArguments σ)
  | 0, _, _ => .error none
  | fuel + 1, live, text => do
    let first ← expression scope roots fuel .argument none live text
    match first.rest with
    | ',' :: rest =>
      let more ← takeMore scope roots fuel first.live rest
      return ⟨first.value :: more.values, more.rest, more.live⟩
    | ')' :: rest => return ⟨[first.value], rest, first.live⟩
    | _ => .error none

end

end Directive

variable {σ : Type}

/-- Interprets a directive. -/
def Live.interpret (scope : Scope σ) (roots : Roots) (live : Live σ) (directive : String) :
    Interpretation σ (Typed × Live σ) := do
  let text := directive.toList
  let reached ← Directive.expression scope roots (4 * text.length + 4) .top none live text
  if reached.rest.isEmpty then return (reached.value, reached.live) else .error none

/-- Interprets directives in order, up to the first that stops. -/
def Live.interpretEach (scope : Scope σ) (roots : Roots) (live : Live σ) :
    List String → List (Interpretation σ (Typed × Live σ))
  | [] => []
  | directive :: rest =>
    match live.interpret scope roots directive with
    | .ok (v, live) => .ok (v, live) :: live.interpretEach scope roots rest
    | .error stopped => [.error stopped]

/-- What can be seen of an interpreted directive, if it is one. -/
def Live.observe : Interpretation σ (Typed × Live σ) → Option (Observation (Recorder σ))
  | .ok (v, live) => some ⟨.ok v.value, live.slots, live.host⟩
  | .error (some (fault, live)) => some ⟨.error fault, live.slots, live.host⟩
  | .error none => none

end FlagSelect
