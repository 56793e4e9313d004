import FlagSelect.Cache.Table

/-!
# Working with a cache

A lookup gives the live executor for some flags, or makes one. The caller holds what it is given
until it releases it. `handle` is a lookup, a query and a release; `reload` closes all statements
and leaves the executors where they are; `drop` ends the cache, after which executors that callers
hold still run.
-/

namespace FlagSelect

/-- What stays the same over the life of a cache. -/
structure Setup (σ ρ : Type) where
  template : Template σ
  side : Option Value
  project : RowProjection ρ
  settings : Settings

namespace Cache

variable {σ δ ρ : Type} [Driver δ]

/-- An empty cache of the initial capacity. -/
def start (s : Setup σ ρ) (world : World σ δ) : Cache σ δ :=
  empty s.settings.initialCapacity world

/-- Prepares the statement of an executor unless it is open. -/
def prepare (c : Cache σ δ) (t : Ticket) : Except Error Unit × Cache σ δ :=
  match c.executors[t.number]? with
  | none => (.ok (), c)
  | some e =>
    let r := e.prepare c.world
    (r.outcome, c.update t.number r.executor r.world)

/-- Makes an executor for some flags, which the caller then holds. -/
def synthesize (c : Cache σ δ) (s : Setup σ ρ) (flags : Flags) : Except Error Ticket × Cache σ δ :=
  match s.template.synthesize flags c.world.profile with
  | (.error e, profile) => (.error e, { c with world := { c.world with profile } })
  | (.ok plan, profile) =>
    let t : Ticket := ⟨flags, c.executors.size⟩
    let c := { c with
      executors := c.executors.push { plan }
      world := { c.world with profile } }.hold t
    let (r, c) := if s.settings.prepareEagerly then c.prepare t else (.ok (), c)
    match r with
    | .error e => (.error e, c.release t)
    | .ok () =>
      (.ok t, { c with counters := { c.counters with syntheses := c.counters.syntheses + 1 } })

/-- Gives the executor for some flags, which the caller then holds. -/
def lookup (c : Cache σ δ) (s : Setup σ ρ) (flags : Flags) : Except Error Ticket × Cache σ δ :=
  let c := c.drain
  match (c.resident? flags).filter fun r => r.flags == flags && c.alive r with
  | some t =>
    let c := { c with counters := { c.counters with hits := c.counters.hits + 1 } }.hold t
    (.ok t, c.retain s.settings.retained t)
  | none =>
    match c.synthesize s flags with
    | (.error e, c) => (.error e, c)
    | (.ok t, c) =>
      let c := c.place s.settings.maxCapacity t s.settings.maxCapacity.log2
      (.ok t, c.retain s.settings.retained t)

/-- Runs the query of an executor for a record. -/
def query [RecordHost σ ρ] (c : Cache σ δ) (s : Setup σ ρ) (t : Ticket) (record : Object) :
    Except Error Unit × Cache σ δ :=
  match c.executors[t.number]? with
  | none => (.ok (), c)
  | some e =>
    let r := e.query s.side s.project record c.world
    (r.outcome, c.update t.number r.executor r.world)

/-- The values that an executor would bind for a record. -/
def bindValues (c : Cache σ δ) (s : Setup σ ρ) (t : Ticket) (record : Object) :
    Except Error (List Value) × Cache σ δ :=
  match c.executors[t.number]? with
  | none => (.ok [], c)
  | some e =>
    let (r, host) := e.plan.bindValues s.side record c.world.host
    (r, { c with world := { c.world with host } })

/-- Runs the query for a record with the executor for the record's flags. -/
def handle [RecordHost σ ρ] (c : Cache σ δ) (s : Setup σ ρ) (record : Object) :
    Except Error Unit × Cache σ δ :=
  match c.lookup s (RecordHost.flags c.world.host record) with
  | (.error e, c) => (.error e, c)
  | (.ok t, c) =>
    let (r, c) := c.query s t record
    (r, c.release t)

/-- Closes statements in order and gathers the failures. -/
def closeAll (c : Cache σ δ) : List Ticket → List ResourceError × Cache σ δ
  | [] => ([], c)
  | t :: rest =>
    match c.close t with
    | (.ok _, c) => c.closeAll rest
    | (.error e, c) =>
      let (failures, c) := c.closeAll rest
      (e :: failures, c)

/-- All executors that the cache knows of: those in the slots, in their order, then the evicted. -/
def known (c : Cache σ δ) : List Ticket :=
  c.slots.toList.filterMap id ++ c.evicted

/-- Closes the statements of all executors that the cache knows of. -/
def reload (c : Cache σ δ) : Except Error Unit × Cache σ δ :=
  let c := c.drain
  match c.closeAll c.known with
  | ([], c) => (.ok (), c)
  | (failures, c) => (.error (.aggregate failures), c)

/-- Ends the cache: nothing is retained any more, notices are worked off and the statements of all
executors that the cache knows of are closed. -/
def drop (c : Cache σ δ) : Cache σ δ :=
  let c := (c.retained.foldl settle { c with retained := [] }).drain
  let c := c.known.foldl closeQuietly c
  { c with slots := #[], evicted := [], dropped := true }

end Cache

/-- What a cache is set up from; the parts that may be left out are then found missing. -/
structure Blueprint (σ ρ : Type) where
  descriptor : Descriptor
  schema : Schema σ
  recordType : Option String := none
  side : Option (String × Value) := none
  project : Option (RowProjection ρ) := none
  settings : Settings := {}

/-- Checks the settings, then that the projection and the record type are there, then that the
schema knows the types of the record and the side object. -/
def Blueprint.setup {σ ρ : Type} (b : Blueprint σ ρ) : Except Error (Setup σ ρ) := do
  if let some defect := b.settings.defect? then throw (.settings defect)
  let some project := b.project | throw (.settings .noProjection)
  let some record := b.recordType | throw (.settings .noRecordType)
  if (b.schema.find? record).isNone then throw (.settings (.unknownRecordType record))
  if let some (name, _) := b.side then
    if (b.schema.find? name).isNone then throw (.settings (.unknownSideType name))
  let side := b.side.map fun (name, _) => Ty.object name
  return {
    template := ⟨b.descriptor, b.schema, .object record, side⟩
    side := b.side.map (·.2)
    project
    settings := b.settings }

end FlagSelect
