import FlagSelect.Plan
import FlagSelect.Statement.Connection

/-!
# Executors

An executor is a plan and the statement prepared for it, if one is open. It runs its query for one
record at a time: the binding programs first, then preparing if need be, binding, executing and
reading, and last the completion of the record. The first failure ends the query, with the statement
left open for the next one.
-/

namespace FlagSelect

structure Executor (σ δ : Type) [Driver δ] where
  plan : Plan σ
  statement : Option (Driver.Statement δ) := none

/-- How a visit of rows came to its end. -/
inductive VisitEnd where
  | complete
  /-- Reading a column failed. -/
  | unread (fault : DriverFault)
  /-- The projection refused the row of this number. -/
  | refused (row : Nat) (message : String)

/-- What a query leaves: its outcome, the executor and the world. -/
structure Step (σ δ α : Type) [Driver δ] where
  outcome : Except Error α
  executor : Executor σ δ
  world : World σ δ

variable {σ δ ρ : Type} [Driver δ]

/-- Runs programs in order on one machine and gathers their values. -/
def evalAll (flags : Flags) (roots : Roots) (m : Machine σ) :
    List (Program σ) → Except Error (List Value) × σ
  | [] => (.ok [], m.host)
  | p :: rest =>
    match m.eval roots p with
    | .error (fault, host) => (.error (.ofEvalFault flags p.directive fault), host)
    | .ok (v, m) =>
      match evalAll flags roots m rest with
      | (.ok vs, host) => (.ok (v :: vs), host)
      | (.error e, host) => (.error e, host)

/-- The values of the placeholders for a record, in their order. -/
def Plan.bindValues (p : Plan σ) (side : Option Value) (record : Object) (host : σ) :
    Except Error (List Value) × σ :=
  evalAll p.flags ⟨.object record, side⟩ { host } (p.bindings.map (·.program))

/-- Binds values to their placeholders in order, up to the first failure. -/
def bindAll (s : Driver.Statement δ) : List (Binding σ × Value) → δ → Except DriverFault Unit × δ
  | [], d => (.ok (), d)
  | (b, v) :: rest, d =>
    match Driver.bind s b.index b.setter v d with
    | (.ok (), d) => bindAll s rest d
    | (.error fault, d) => (.error fault, d)

/-- Reads the columns of a row in order, up to the first failure. -/
def readColumns (s : Driver.Statement δ) (row : Driver.Row δ) :
    List Reading → δ → Except DriverFault (List Value) × δ
  | [], d => (.ok [], d)
  | r :: rest, d =>
    match Driver.read s row r.column r.getter d with
    | (.error fault, d) => (.error fault, d)
    | (.ok v, d) =>
      match readColumns s row rest d with
      | (.ok vs, d) => (.ok (v :: vs), d)
      | (.error fault, d) => (.error fault, d)

/-- Reads and projects rows in order, where `number` is that of the next row. -/
def visit (s : Driver.Statement δ) (columns : List Reading) (project : RowProjection ρ)
    (number : Nat) : List (Driver.Row δ) → δ → List ρ × VisitEnd × δ
  | [], d => ([], .complete, d)
  | row :: rest, d =>
    match readColumns s row columns d with
    | (.error fault, d) => ([], .unread fault, d)
    | (.ok vs, d) =>
      match project vs with
      | .error message => ([], .refused number message, d)
      | .ok out =>
        let (outs, ending, d) := visit s columns project (number + 1) rest d
        (out :: outs, ending, d)

namespace Plan

/-- The error of a driver failure that befalls the statement of the plan. -/
def resourceError (p : Plan σ) (action : Action) (fault : DriverFault) : ResourceError :=
  ⟨p.flags, p.sql, action, fault⟩

/-- Executes the statement with what is bound to it, and reads and projects all rows. -/
def fetch (p : Plan σ) (s : Driver.Statement δ) (project : RowProjection ρ) (d : δ) :
    Except Error (List ρ) × δ :=
  let failed (fault : DriverFault) : Error := .resource (p.resourceError .execute fault)
  match Driver.execute s d with
  | (.error fault, d) => (.error (failed fault), d)
  | (.ok result, d) =>
    match visit s p.columns project 0 result.rows d with
    | (outs, .complete, d) =>
      match result.failure with
      | none => (.ok outs, d)
      | some fault => (.error (failed fault), d)
    | (outs, .unread fault, d) =>
      match Driver.interrupt s fault d with
      | (.ok (), d) => (.ok outs, d)
      | (.error fault, d) => (.error (failed fault), d)
    | (_, .refused row message, d) =>
      -- Whatever the driver makes of the interruption, the refusal is the error.
      (.error (.projection p.flags row message), (Driver.interrupt s .aborted d).2)

end Plan

namespace Executor

/-- Gives the open statement, which is prepared if there is none. -/
def ensure (e : Executor σ δ) (w : World σ δ) : Step σ δ (Driver.Statement δ) :=
  match e.statement with
  | some s => ⟨.ok s, e, w⟩
  | none =>
    let failed (fault : DriverFault) : Except Error (Driver.Statement δ) :=
      .error (.resource (e.plan.resourceError .prepare fault))
    match Driver.acquire w.driver with
    | (.error fault, d) => ⟨failed fault, e, { w with driver := d }⟩
    | (.ok (), d) =>
      match Driver.prepare e.plan.sql d with
      | (.error fault, d) => ⟨failed fault, e, { w with driver := d }⟩
      | (.ok s, d) => ⟨.ok s, { e with statement := some s }, { w with driver := d }.count .prepare⟩

/-- Opens the statement unless it is open. -/
def prepare (e : Executor σ δ) (w : World σ δ) : Step σ δ Unit :=
  let r := e.ensure w
  ⟨r.outcome.map fun _ => (), r.executor, r.world⟩

/-- Closes the statement if one is open, and says whether there was. A statement that fails to close
counts as closed all the same. -/
def close (e : Executor σ δ) (w : World σ δ) :
    Except ResourceError Bool × Executor σ δ × World σ δ :=
  match e.statement with
  | none => (.ok false, e, w)
  | some s =>
    let e := { e with statement := none }
    match Driver.close s w.driver with
    | (.ok (), d) => (.ok true, e, { w with driver := d })
    | (.error fault, d) => (.error (e.plan.resourceError .close fault), e, { w with driver := d })

/-- Runs the query for a record and completes the record with its rows. -/
def query [RecordHost σ ρ] (e : Executor σ δ) (side : Option Value) (project : RowProjection ρ)
    (record : Object) (w : World σ δ) : Step σ δ Unit :=
  match e.plan.bindValues side record w.host with
  | (.error err, host) => ⟨.error err, e, { w with host }⟩
  | (.ok values, host) =>
    match e.ensure { w with host } with
    | ⟨.error err, e, w⟩ => ⟨.error err, e, w⟩
    | ⟨.ok s, e, w⟩ =>
      match bindAll s (e.plan.bindings.zip values) w.driver with
      | (.error fault, d) =>
        ⟨.error (.resource (e.plan.resourceError .bind fault)), e, { w with driver := d }⟩
      | (.ok (), d) =>
        let w := { w with driver := d }.count .bind
        match e.plan.fetch s project w.driver with
        | (.error err, d) => ⟨.error err, e, { w with driver := d }⟩
        | (.ok rows, d) =>
          let w := { w with driver := d }.count .execute
          let w := { w with host := RecordHost.complete w.host record rows }.count .materialize
          ⟨.ok (), e, w⟩

end Executor

end FlagSelect
