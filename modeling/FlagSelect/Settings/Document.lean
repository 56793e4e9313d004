import FlagSelect.Settings.Basic
import FlagSelect.Toml.Document

/-!
# Settings as documents

Settings are written as a table `cache` with one entry for each of them. A document may leave out
any of these, which then have their defaults, and may hold nothing else. The table can have a
header, come in braces or be spread over dotted keys; an array may take its place, with the four
settings in their order at its front. `Settings.read` also checks what it has read.
-/

namespace FlagSelect

/-- Settings as a document gives them. -/
structure Settings.Given where
  initialCapacity : Option Nat := none
  maxCapacity : Option Nat := none
  retained : Option Nat := none
  prepareEagerly : Option Bool := none
deriving DecidableEq

namespace Settings

def natural? : Toml.Value → Option Nat
  | .scalar (.integer n) => n.toNat?
  | _ => none

def boolean? : Toml.Value → Option Bool
  | .scalar (.boolean b) => some b
  | _ => none

namespace Given

/-- Fills in the defaults. -/
def complete (p : Given) : Settings :=
  let d : Settings := {}
  { initialCapacity := p.initialCapacity.getD d.initialCapacity
    maxCapacity := p.maxCapacity.getD d.maxCapacity
    retained := p.retained.getD d.retained
    prepareEagerly := p.prepareEagerly.getD d.prepareEagerly }

/-- Adds one entry of the table. -/
def add? (p : Given) (name : String) (v : Toml.Value) : Option Given :=
  if name = "initial_capacity" then
    (natural? v).map fun n => { p with initialCapacity := some n }
  else if name = "max_capacity" then
    (natural? v).map fun n => { p with maxCapacity := some n }
  else if name = "retained_executors" then
    (natural? v).map fun n => { p with retained := some n }
  else if name = "prepare_eagerly" then
    (boolean? v).map fun b => { p with prepareEagerly := some b }
  else none

/-- Adds entries under simple keys. -/
def addAll? (p : Given) : List (List String × Toml.Value) → Option Given
  | [] => some p
  | ([name], v) :: rest => do (← p.add? name v).addAll? rest
  | _ :: _ => none

/-- The settings by their order in an array. Items behind the fourth count for nothing. -/
def ofItems? : List Toml.Value → Option Given
  | a :: b :: c :: d :: _ => do
    return ⟨some (← natural? a), some (← natural? b), some (← natural? c), some (← boolean? d)⟩
  | _ => none

/-- The settings of entries that stand before all headers. -/
def ofRoot? (entries : List (List String × Toml.Value)) : Option Given :=
  match entries with
  | [(["cache"], .array items)] => ofItems? items
  | [(["cache"], .table entries)] => ({} : Given).addAll? entries
  | _ => do
    let inner ← entries.mapM fun (key, v) =>
      match key with
      | "cache" :: rest => some (rest, v)
      | _ => none
    ({} : Given).addAll? inner

end Given

/-- The entries of statements that hold no header. -/
def entriesOf? (l : List Toml.Statement) : Option (List (List String × Toml.Value)) :=
  l.mapM fun s =>
    match s with
    | .entry key v => some (key, v)
    | _ => none

/-- The settings of a document: entries without a header, or one header and the entries of its
table. No key may be given twice. -/
def ofStatements? (l : List Toml.Statement) : Option Given := do
  match l with
  | .header ["cache"] :: rest =>
    let entries ← entriesOf? rest
    if Toml.disjoint (entries.map (·.1)) then ({} : Given).addAll? entries else none
  | _ =>
    let entries ← entriesOf? l
    if Toml.disjoint (entries.map (·.1)) then Given.ofRoot? entries else none

/-- Why no settings come out of a text. -/
inductive ReadError where
  /-- The text is no document of settings. -/
  | parse
  | invalid (defect : SettingsDefect)
deriving DecidableEq

/-- The settings of a text, if they are free of defects. -/
def read (text : String) : Except ReadError Settings :=
  match (Toml.Document.read? text).bind ofStatements? with
  | none => .error .parse
  | some p =>
    match p.complete.defect? with
    | some d => .error (.invalid d)
    | none => .ok p.complete

/-- The largest number that a document can hold. -/
def largestNumber : Nat := 1 <<< 63 - 1

/-- The document of settings, if all their numbers are small enough for one. -/
def write? (s : Settings) : Option String :=
  if s.initialCapacity ≤ largestNumber ∧ s.maxCapacity ≤ largestNumber ∧
      s.retained ≤ largestNumber then
    some ("[cache]\n" ++
      "initial_capacity = " ++ toString s.initialCapacity ++ "\n" ++
      "max_capacity = " ++ toString s.maxCapacity ++ "\n" ++
      "retained_executors = " ++ toString s.retained ++ "\n" ++
      "prepare_eagerly = " ++ (if s.prepareEagerly then "true" else "false") ++ "\n")
  else none

end Settings

end FlagSelect
