import FlagSelect.Proofs.Storage.Database
import FlagSelect.Storage.Echo
import Mathlib.Data.List.Induction

/-!
# Parameters of statements

What a statement is executed with is told from the calls on it and what they came to: each parameter
is what was bound last at its index, as far as the bind was taken. What the database makes of the
statement text may be something else at each execution, and the engine may fail whatever was bound.
Main statement: `Statement.serves_until_closed`.
-/

namespace FlagSelect.Storage

/-- What looks at the rows of an execution one after the other, gathers something on the way, and
may fail at a row. -/
structure Visitor where
  State : Type
  start : State
  visit : State → Row → Except DriverFault State

/-- What can be done with a statement. By the time of an execution the database may make something
else of the statement text, or refuse it. -/
inductive Call where
  | bind (index : Nat) (setter : Setter) (v : Value)
  | execute (compiled : Except String Query) (visitor : Visitor)
  | close

/-- Calls with what they came to, the first one first. -/
abbrev Record := List (Call × Except DriverFault Unit)

variable {visitor : Visitor} {entries : Record} {entry : Call × Except DriverFault Unit}
  {index n i : Nat} {setter : Setter} {v : Value} {c : Cell} {fault : DriverFault} {q : Query}
  {s : Statement} {call : Call} {cs : List Call} {result : ResultSet Row}
  {compiled : Except String Query} {sql : String}

/-! ## Visits -/

namespace Visitor

/-- Whether a visitor takes rows one after the other, and what it gathers of them. -/
def Takes (visitor : Visitor) (rows : List Row) (gathered : visitor.State) : Prop :=
  rows.foldlM visitor.visit visitor.start = .ok gathered

/-- Whether a visitor fails at the row behind those seen, of which it gathered something. -/
def FailsAfter (visitor : Visitor) (rows seen : List Row) (gathered : visitor.State)
    (fault : DriverFault) : Prop :=
  ∃ row rest, rows = seen ++ row :: rest ∧ visitor.Takes seen gathered ∧
    visitor.visit gathered row = .error fault

/-- How a visit of results comes to a fault, and the rows that the visitor has taken before. -/
inductive Stops (visitor : Visitor) (result : ResultSet Row) :
    List Row → visitor.State → DriverFault → Prop
  | visitor {seen gathered fault} : visitor.FailsAfter result.rows seen gathered fault →
      Stops visitor result seen gathered fault
  | engine {gathered fault} : visitor.Takes result.rows gathered → result.failure = some fault →
      Stops visitor result result.rows gathered fault

end Visitor

theorem visitRows_append {β : Type} {visit : β → Row → Except DriverFault β}
    {failure : Option DriverFault} {start gathered : β} {seen rest : List Row}
    (h : seen.foldlM visit start = .ok gathered) :
    visitRows visit failure start (seen ++ rest) = visitRows visit failure gathered rest := by
  induction seen generalizing start with
  | nil =>
      cases h
      rfl
  | cons row seen ih =>
      rw [List.foldlM_cons] at h
      cases hrow : visit start row with
      | error fault =>
          rw [hrow] at h
          cases h
      | ok next =>
          rw [hrow] at h
          rw [List.cons_append, visitRows, hrow]
          exact ih h

namespace Visitor

/-- What a visitor comes to with results. -/
def visitAll (visitor : Visitor) (result : ResultSet Row) :
    visitor.State × Except DriverFault Unit :=
  visitRows visitor.visit result.failure visitor.start result.rows

theorem Takes.visitAll {gathered : visitor.State} (h : visitor.Takes result.rows gathered) :
    visitor.visitAll result = visitRows visitor.visit result.failure gathered [] := by
  have happend : visitRows visitor.visit result.failure visitor.start (result.rows ++ []) =
      visitRows visitor.visit result.failure gathered [] := visitRows_append h
  rwa [List.append_nil] at happend

theorem Takes.visitAll_of_none {gathered : visitor.State} (h : visitor.Takes result.rows gathered)
    (hfailure : result.failure = none) : visitor.visitAll result = (gathered, .ok ()) := by
  rw [h.visitAll, hfailure, visitRows]

theorem Stops.visitAll {seen : List Row} {gathered : visitor.State}
    (h : visitor.Stops result seen gathered fault) :
    visitor.visitAll result = (gathered, .error fault) := by
  cases h with
  | visitor hfails =>
      obtain ⟨row, rest, hrows, hseen, hrow⟩ := hfails
      rw [Visitor.visitAll, hrows, visitRows_append hseen, visitRows, hrow]
  | engine htakes hfailure => rw [htakes.visitAll, hfailure, visitRows]

/-- A visitor takes rows to their end, or fails at one of them. -/
theorem takes_or_failsAfter (visitor : Visitor) (rows : List Row) :
    (∃ gathered, visitor.Takes rows gathered) ∨
      ∃ seen gathered fault, visitor.FailsAfter rows seen gathered fault := by
  induction rows using List.reverseRecOn with
  | nil => exact .inl ⟨visitor.start, rfl⟩
  | append_singleton rows row ih =>
      rcases ih with ⟨gathered, htakes⟩ | ⟨seen, gathered, fault, row', rest, rfl, hfails⟩
      · cases hrow : visitor.visit gathered row with
        | error fault => exact .inr ⟨rows, gathered, fault, row, [], rfl, htakes, hrow⟩
        | ok next =>
            refine .inl ⟨next, ?_⟩
            rw [Takes, List.foldlM_append, htakes]
            exact (bind_pure _).trans hrow
      · exact .inr ⟨seen, gathered, fault, row', rest ++ [row], by simp, hfails⟩

theorem visitAll_error_iff : (∃ fault, (visitor.visitAll result).2 = .error fault) ↔
    ∃ seen gathered fault, visitor.Stops result seen gathered fault := by
  constructor
  · rintro ⟨fault, hfault⟩
    rcases visitor.takes_or_failsAfter result.rows with
      ⟨gathered, htakes⟩ | ⟨seen, gathered, fault, hfails⟩
    · cases hfailure : result.failure with
      | none =>
          rw [htakes.visitAll_of_none hfailure] at hfault
          cases hfault
      | some fault' => exact ⟨_, gathered, fault', .engine htakes hfailure⟩
    · exact ⟨seen, gathered, fault, .visitor hfails⟩
  · rintro ⟨seen, gathered, fault, hstops⟩
    exact ⟨fault, by rw [hstops.visitAll]⟩

end Visitor

/-! ## Calls -/

namespace Statement

/-- The statement with nulls bound up to an index, where nothing was bound so far. -/
def lengthen (s : Statement) (index : Nat) : Statement :=
  { s with bound := s.bound ++ List.replicate (index - s.bound.length) Cell.null }

/-- Binds a value in place. What is written before a step fails is not taken back. -/
def bindInPlace (index : Nat) (setter : Setter) (v : Value) :
    ExceptT DriverFault (StateM Statement) Unit := do
  let s ← get
  if s.closed then
    throw .closed
  let c ← MonadExcept.ofExcept (Cell.bound setter v)
  if index = 0 then
    throw (.other ("placeholder index 0 in `" ++ s.query.sql ++ "`"))
  modify fun s => s.lengthen index
  modify fun s => { s with bound := s.bound.set (index - 1) c }

/-- What a call comes to, and the statement after it. -/
def perform (s : Statement) : Call → Except DriverFault Unit × Statement
  | .bind index setter v => (bindInPlace index setter v).run.run s
  | .execute compiled visitor => ((s.execute visitor.visit visitor.start compiled).2, s)
  | .close => (.ok (), s.close)

/-- What calls in a row come to. -/
def record (s : Statement) : List Call → Record
  | [] => []
  | call :: rest => (call, (s.perform call).1) :: record (s.perform call).2 rest

def after (s : Statement) (cs : List Call) : Statement :=
  cs.foldl (fun s call => (s.perform call).2) s

end Statement

/-! ## What was bound -/

/-- The value that a call bound at an index. -/
def boundAt? (index : Nat) : Call × Except DriverFault Unit → Option Value
  | (.bind i _ v, .ok _) => if i = index then some v else none
  | _ => none

theorem boundAt?_eq_some :
    boundAt? index entry = some v ↔ ∃ setter, entry = (.bind index setter v, .ok ()) := by
  unfold boundAt?
  split <;> simp_all [eq_comm]

namespace Record

/-- The value of the last bind at an index that was taken. -/
def latest? (entries : Record) (index : Nat) : Option Value :=
  (entries.filterMap (boundAt? index)).getLast?

/-- What was bound last at an index, converted to a cell; null if nothing was. -/
def cell (entries : Record) (index : Nat) : Cell :=
  ((entries.latest? index).bind Cell.ofValue?).getD .null

/-- The parameters of a statement text, each as it was bound last. -/
def parameters (q : Query) (entries : Record) : List Cell :=
  (List.range q.parameters).map fun i => entries.cell (i + 1)

/-- What the engine yields for what was bound, where a NaN has become null. -/
def yields (q : Query) (entries : Record) : ResultSet Row :=
  q.run ((entries.parameters q).map Cell.stored)

/-- Whether a bind was taken at an index for which the statement text has no parameter. -/
def Beyond (q : Query) (entries : Record) : Prop :=
  ∃ index setter v, q.parameters < index ∧ (.bind index setter v, .ok ()) ∈ entries

/-- The index of a bind that was taken. -/
def takenAt? : Call × Except DriverFault Unit → Option Nat
  | (.bind index _ _, .ok _) => some index
  | _ => none

theorem takenAt?_eq_some :
    takenAt? entry = some index ↔ ∃ setter v, entry = (.bind index setter v, .ok ()) := by
  unfold takenAt?
  split <;> simp_all

theorem beyond_iff :
    entries.Beyond q ↔ ∃ index ∈ entries.filterMap takenAt?, q.parameters < index := by
  simp only [Beyond, List.mem_filterMap, takenAt?_eq_some]
  constructor
  · rintro ⟨index, setter, v, hindex, hmem⟩
    exact ⟨index, ⟨_, hmem, setter, v, rfl⟩, hindex⟩
  · rintro ⟨index, ⟨_, hmem, setter, v, rfl⟩, hindex⟩
    exact ⟨index, setter, v, hindex, hmem⟩

instance : Decidable (entries.Beyond q) := decidable_of_iff' _ beyond_iff

theorem latest?_append_singleton :
    latest? (entries ++ [entry]) index = (boundAt? index entry).or (entries.latest? index) := by
  cases h : boundAt? index entry <;> simp [latest?, h]

theorem cell_append_of_none (h : boundAt? index entry = none) :
    cell (entries ++ [entry]) index = entries.cell index := by
  rw [cell, latest?_append_singleton, h, Option.none_or, cell]

theorem cell_append_of_some (h : boundAt? index entry = some v) (hc : Cell.ofValue? v = some c) :
    cell (entries ++ [entry]) index = c := by
  rw [cell, latest?_append_singleton, h, Option.some_or, Option.bind_some, hc, Option.getD_some]

end Record

/-! ## Binding -/

namespace Cell

/-- Whether a setter takes a value, which is kept in a cell. -/
def Takes (setter : Setter) (v : Value) (c : Cell) : Prop :=
  settable setter v = true ∧ ofValue? v = some c

theorem Takes.bound_eq (h : Takes setter v c) : bound setter v = .ok c := by
  rw [bound, h.1, h.2]

theorem bound_of_not_takes (h : ∀ c, ¬ Takes setter v c) :
    bound setter v = .error (.unsupportedBind v setter) := by
  unfold bound
  split
  · next hset hv => exact absurd ⟨hset, hv⟩ (h _)
  · rfl

end Cell

namespace Statement

theorem perform_bind : s.perform (.bind index setter v) =
    ((s.bind index setter v).map fun _ => (), (s.bind index setter v).toOption.getD s) := by
  obtain ⟨query, cells, fetchSize, closed⟩ := s
  rw [perform, Statement.bind]
  cases closed with
  | true => rfl
  | false =>
      cases hc : Cell.bound setter v with
      | error fault =>
          rw [bindInPlace, hc]
          rfl
      | ok c =>
          -- The index is checked before the parameters are lengthened, so that zero does no harm.
          rw [bindInPlace, hc]
          cases index <;> rfl

theorem perform_bind_of_error (h : s.bind index setter v = .error fault) :
    s.perform (.bind index setter v) = (.error fault, s) := by
  rw [perform_bind, h]
  rfl

theorem perform_bind_of_ok {s' : Statement} (h : s.bind index setter v = .ok s') :
    s.perform (.bind index setter v) = (.ok (), s') := by
  rw [perform_bind, h]
  rfl

theorem perform_bind_closed (h : s.closed) :
    s.perform (.bind index setter v) = (.error .closed, s) :=
  perform_bind_of_error (if_pos h)

theorem perform_bind_untaken (h : ¬ s.closed) (hv : ∀ c, ¬ Cell.Takes setter v c) :
    s.perform (.bind index setter v) = (.error (.unsupportedBind v setter), s) := by
  refine perform_bind_of_error ?_
  rw [bind_eq h, cellAt, Cell.bound_of_not_takes hv]
  rfl

theorem perform_bind_zero (h : ¬ s.closed) (hv : Cell.Takes setter v c) :
    s.perform (.bind 0 setter v) =
      (.error (.other ("placeholder index 0 in `" ++ s.query.sql ++ "`")), s) := by
  refine perform_bind_of_error ?_
  rw [bind_eq h, cellAt, hv.bound_eq]
  rfl

theorem perform_bind_succ (h : ¬ s.closed) (hv : Cell.Takes setter v c) :
    s.perform (.bind (i + 1) setter v) = (.ok (), s.assign (i + 1) c) := by
  refine perform_bind_of_ok ?_
  rw [bind_eq h, cellAt, hv.bound_eq]
  rfl

theorem lt_length_put {cells : List Cell} :
    n < (put cells i c).length ↔ n < cells.length ∨ n < i + 1 := by
  rw [put, List.length_set, List.length_append, List.length_replicate]
  omega

/-! ## What a statement holds -/

/-- Whether a statement with a text is open, and holds what was bound according to a record. -/
structure Remembers (s : Statement) (sql : String) (entries : Record) : Prop where
  text : s.query.sql = sql
  opened : ¬ s.closed
  cells : ∀ i, s.bound[i]?.getD .null = entries.cell (i + 1)
  length : ∀ n, n < s.bound.length ↔ ∃ index setter v, n < index ∧
    (.bind index setter v, .ok ()) ∈ entries

/-- A call that binds nothing is soon forgotten. -/
theorem Remembers.idle (h : s.Remembers sql entries)
    (hidle : ∀ index setter v, entry ≠ (.bind index setter v, .ok ())) :
    s.Remembers sql (entries ++ [entry]) where
  text := h.text
  opened := h.opened
  cells i := by
    have hnone : boundAt? (i + 1) entry = none := by
      refine Option.eq_none_iff_forall_ne_some.mpr fun v hv => ?_
      obtain ⟨setter, hentry⟩ := boundAt?_eq_some.mp hv
      exact hidle _ _ _ hentry
    rw [Record.cell_append_of_none hnone, h.cells]
  length n := by
    have hmem (index : Nat) (setter : Setter) (v : Value) :
        (.bind index setter v, .ok ()) ∈ entries ++ [entry] ↔
          (.bind index setter v, .ok ()) ∈ entries := by
      rw [List.mem_append, List.mem_singleton]
      exact or_iff_left fun hentry => hidle _ _ _ hentry.symm
    simp only [h.length, hmem]

theorem Remembers.failed (h : s.Remembers sql entries) (call : Call) (fault : DriverFault) :
    s.Remembers sql (entries ++ [(call, .error fault)]) :=
  h.idle fun _ _ _ hentry => nomatch congrArg Prod.snd hentry

/-- A value that is bound counts from then on, and what is bound elsewhere stays. -/
theorem Remembers.bind (h : s.Remembers sql entries) (hc : Cell.ofValue? v = some c) :
    (s.assign (i + 1) c).Remembers sql (entries ++ [(.bind (i + 1) setter v, .ok ())]) where
  text := h.text
  opened := h.opened
  cells k := by
    rw [assign, getElem?_put]
    split
    · next hk =>
        subst hk
        rw [Record.cell_append_of_some (boundAt?_eq_some.mpr ⟨setter, rfl⟩) hc, Option.getD_some]
    · next hk =>
        have hnone : boundAt? (k + 1) (.bind (i + 1) setter v, .ok ()) = none :=
          if_neg fun hsame => hk (Nat.succ.inj hsame).symm
        rw [Record.cell_append_of_none hnone, ← h.cells]
        split <;> rfl
  length n := by
    rw [assign, lt_length_put, h.length]
    constructor
    · rintro (⟨index, setter', v', hn, hmem⟩ | hn)
      · exact ⟨index, setter', v', hn, List.mem_append_left _ hmem⟩
      · exact ⟨i + 1, setter, v, hn, List.mem_append_right _ (List.mem_singleton_self _)⟩
    · rintro ⟨index, setter', v', hn, hmem⟩
      rcases List.mem_append.mp hmem with hmem | hmem
      · exact .inl ⟨index, setter', v', hn, hmem⟩
      · cases List.mem_singleton.mp hmem
        exact .inr hn

theorem Remembers.perform (h : s.Remembers sql entries) (hcall : call ≠ .close) :
    (s.perform call).2.Remembers sql (entries ++ [(call, (s.perform call).1)]) := by
  cases call with
  | bind index setter v =>
      by_cases htakes : ∃ c, Cell.Takes setter v c
      · obtain ⟨c, hc⟩ := htakes
        cases index with
        | zero =>
            rw [perform_bind_zero h.opened hc]
            exact h.failed _ _
        | succ i =>
            rw [perform_bind_succ h.opened hc]
            exact h.bind hc.2
      · rw [perform_bind_untaken h.opened (not_exists.mp htakes)]
        exact h.failed _ _
  | execute compiled visitor => exact h.idle nofun
  | close => exact absurd rfl hcall

theorem Remembers.after (h : s.Remembers sql entries) (hopen : .close ∉ cs) :
    (s.after cs).Remembers sql (entries ++ s.record cs) := by
  induction cs generalizing s entries with
  | nil => rwa [record, List.append_nil]
  | cons call cs ih =>
      have hcall : call ≠ .close := fun hclose => hopen (hclose ▸ List.mem_cons_self)
      have hnext := ih (h.perform hcall) fun hclose => hopen (List.mem_cons_of_mem _ hclose)
      rwa [List.append_assoc] at hnext

theorem perform_of_closed (h : s.closed) (call : Call) : (s.perform call).2 = s := by
  cases call with
  | bind index setter v => rw [perform_bind_closed h]
  | execute compiled visitor => rfl
  | close => exact if_pos h

theorem closed_perform_close : (s.perform .close).2.closed := by
  rw [perform, close]
  split
  · assumption
  · rfl

theorem after_of_closed (h : s.closed) (cs : List Call) : s.after cs = s := by
  induction cs with
  | nil => rfl
  | cons call cs ih => rw [after, List.foldl_cons, perform_of_closed h, ← after, ih]

theorem closed_after (hclose : .close ∈ cs) : (s.after cs).closed := by
  obtain ⟨before, later, rfl⟩ := List.append_of_mem hclose
  have hclosed := (s.after before).closed_perform_close
  have hafter : s.after (before ++ .close :: later) =
      ((s.after before).perform .close).2.after later := by
    rw [after, List.foldl_append, List.foldl_cons, ← after, ← after]
  rwa [hafter, after_of_closed hclosed]

/-! ## Executions -/

theorem getElem?_parameters (q : Query) (entries : Record) :
    (entries.parameters q)[i]? =
      if i < q.parameters then some (entries.cell (i + 1)) else none := by
  rw [Record.parameters, List.getElem?_map]
  split
  · next hi => rw [List.getElem?_range hi, Option.map_some]
  · next hi => rw [List.getElem?_eq_none (by simpa using hi), Option.map_none]

theorem Remembers.results (h : s.Remembers sql entries) (hwithin : ¬ entries.Beyond q) :
    s.results (.ok q) = .ok (entries.yields q) := by
  have hlength : ¬ q.parameters < s.bound.length := fun hlt => by
    obtain ⟨index, setter, v, hindex, hmem⟩ := (h.length _).mp hlt
    exact hwithin ⟨index, setter, v, hindex, hmem⟩
  have hcells : s.bound ++ List.replicate (q.parameters - s.bound.length) Cell.null =
      entries.parameters q := by
    refine List.ext_getElem? fun i => ?_
    rw [getElem?_parameters, ← h.cells, List.getElem?_append, List.getElem?_replicate]
    grind
  rw [Statement.results, if_neg h.opened]
  dsimp only
  rw [if_neg hlength, hcells]
  rfl

theorem Remembers.results_of_beyond (h : s.Remembers sql entries) (hbeyond : entries.Beyond q) :
    s.results (.ok q) = .error (.engine "column index out of range") := by
  obtain ⟨index, setter, v, hindex, hmem⟩ := hbeyond
  have hlength := (h.length q.parameters).mpr ⟨index, setter, v, hindex, hmem⟩
  rw [Statement.results, if_neg h.opened]
  exact if_pos hlength

theorem Remembers.results_of_refused (h : s.Remembers sql entries) (message : String) :
    s.results (.error message) = .error (.engine message) := if_neg h.opened

theorem execute_of_results (h : s.results compiled = .ok result) (visitor : Visitor) :
    s.execute visitor.visit visitor.start compiled = visitor.visitAll result := by
  rw [execute, h]
  rfl

theorem execute_of_error (h : s.results compiled = .error fault) (visitor : Visitor) :
    s.execute visitor.visit visitor.start compiled = (visitor.start, .error fault) := by
  rw [execute, h]

/-- What an open statement with a text does after calls on it that came to a record, whatever the
database makes of the text by now. -/
structure Serves (s : Statement) (sql : String) (entries : Record) : Prop where
  /-- A bind is taken if the setter takes the value and the index is not zero. -/
  taken : ∀ i setter v c, Cell.Takes setter v c → (s.perform (.bind (i + 1) setter v)).1 = .ok ()
  /-- All other binds change nothing. -/
  untaken : ∀ index setter v, (∀ c, ¬ Cell.Takes setter v c) →
    s.perform (.bind index setter v) = (.error (.unsupportedBind v setter), s)
  zero : ∀ setter v c, Cell.Takes setter v c → s.perform (.bind 0 setter v) =
    (.error (.other ("placeholder index 0 in `" ++ sql ++ "`")), s)
  /-- The statement is executed with the values that were bound last as its parameters. -/
  results : ∀ q, ¬ entries.Beyond q → s.results (.ok q) = .ok (entries.yields q)
  /-- An execution fails if the text is not compiled, if a value was bound beyond the parameters, or
  if the visitor fails at a row or the engine behind the rows, and for no other reason. -/
  fails : ∀ compiled (visitor : Visitor),
    (∃ fault, (s.execute visitor.visit visitor.start compiled).2 = .error fault) ↔
      (∃ message, compiled = .error message) ∨ ∃ q, compiled = .ok q ∧
        (entries.Beyond q ∨ ∃ seen gathered fault,
          visitor.Stops (entries.yields q) seen gathered fault)
  /-- A text that is not compiled comes before all else. -/
  refused : ∀ message (visitor : Visitor),
    s.execute visitor.visit visitor.start (.error message) =
      (visitor.start, .error (.engine message))
  beyond : ∀ q, entries.Beyond q → ∀ visitor : Visitor,
    s.execute visitor.visit visitor.start (.ok q) =
      (visitor.start, .error (.engine "column index out of range"))
  /-- If the visitor or the engine fails, the visitor has seen the rows before, and the fault is
  passed on. -/
  stops : ∀ q, ¬ entries.Beyond q → ∀ (visitor : Visitor) seen gathered fault,
    visitor.Stops (entries.yields q) seen gathered fault →
      s.execute visitor.visit visitor.start (.ok q) = (gathered, .error fault)
  /-- If neither fails, the visitor sees all rows. -/
  finishes : ∀ q, ¬ entries.Beyond q → ∀ (visitor : Visitor) gathered,
    visitor.Takes (entries.yields q).rows gathered → (entries.yields q).failure = none →
      s.execute visitor.visit visitor.start (.ok q) = (gathered, .ok ())
  /-- Executions change nothing. -/
  unchanged : ∀ compiled visitor, (s.perform (.execute compiled visitor)).2 = s

theorem Remembers.fails (h : s.Remembers sql entries) (compiled : Except String Query)
    (visitor : Visitor) :
    (∃ fault, (s.execute visitor.visit visitor.start compiled).2 = .error fault) ↔
      (∃ message, compiled = .error message) ∨ ∃ q, compiled = .ok q ∧
        (entries.Beyond q ∨ ∃ seen gathered fault,
          visitor.Stops (entries.yields q) seen gathered fault) := by
  cases compiled with
  | error message =>
      rw [execute_of_error (h.results_of_refused message)]
      exact iff_of_true ⟨_, rfl⟩ (.inl ⟨message, rfl⟩)
  | ok q =>
      simp only [reduceCtorEq, exists_false, false_or, Except.ok.injEq, exists_eq_left']
      by_cases hbeyond : entries.Beyond q
      · rw [execute_of_error (h.results_of_beyond hbeyond)]
        exact iff_of_true ⟨_, rfl⟩ (.inl hbeyond)
      · rw [execute_of_results (h.results hbeyond), Visitor.visitAll_error_iff,
          or_iff_right hbeyond]

theorem Remembers.serves (h : s.Remembers sql entries) : s.Serves sql entries where
  taken i setter v c hv := by rw [perform_bind_succ h.opened hv]
  untaken index setter v hv := perform_bind_untaken h.opened hv
  zero setter v c hv := by rw [perform_bind_zero h.opened hv, h.text]
  results q := h.results
  fails := h.fails
  refused message visitor := execute_of_error (h.results_of_refused message) visitor
  beyond q hbeyond visitor := execute_of_error (h.results_of_beyond hbeyond) visitor
  stops q hwithin visitor seen gathered fault hstops := by
    rw [execute_of_results (h.results hwithin), hstops.visitAll]
  finishes q hwithin visitor gathered htakes hfailure := by
    rw [execute_of_results (h.results hwithin), htakes.visitAll_of_none hfailure]
  unchanged compiled visitor := rfl

/-- What a closed statement does: it refuses all work, and to close it again is fine and changes
nothing. -/
structure Refuses (s : Statement) : Prop where
  bind : ∀ index setter v, s.perform (.bind index setter v) = (.error .closed, s)
  execute : ∀ compiled (visitor : Visitor),
    s.execute visitor.visit visitor.start compiled = (visitor.start, .error .closed)
  unchanged : ∀ compiled visitor, (s.perform (.execute compiled visitor)).2 = s
  close : s.perform .close = (.ok (), s)

theorem refuses_of_closed (h : s.closed) : s.Refuses where
  bind _ _ _ := perform_bind_closed h
  execute compiled visitor := execute_of_error (if_pos h) visitor
  unchanged compiled visitor := rfl
  close := by rw [perform, Statement.close, if_pos h]

def fresh (q : Query) (fetchSize : Nat) : Statement := { query := q, fetchSize }

theorem remembers_fresh (q : Query) (fetchSize : Nat) :
    (fresh q fetchSize).Remembers q.sql [] where
  text := rfl
  opened := nofun
  cells _ := rfl
  length n := by simp [fresh]

/-- After any calls on a new statement, each of which may have failed, its parameters are what was
bound last, until it is closed. From then on it does nothing more. -/
theorem serves_until_closed (q : Query) (fetchSize : Nat) (cs : List Call) :
    (.close ∉ cs → ((fresh q fetchSize).after cs).Serves q.sql ((fresh q fetchSize).record cs)) ∧
    (.close ∈ cs → ((fresh q fetchSize).after cs).Refuses) :=
  ⟨fun hopen => ((remembers_fresh q fetchSize).after hopen).serves,
    fun hclose => refuses_of_closed (closed_after hclose)⟩

/-- A visitor that takes all rows and counts them. -/
def counter : Visitor := ⟨Nat, 0, fun count _ => .ok (count + 1)⟩

/-- Binds and two executions, of which the second one finds the table gone; among the binds one that
is replaced and two that are not taken. -/
def rebindingCalls : List Call :=
  [.bind 2 ⟨.long⟩ (.long 7), .bind 0 ⟨.long⟩ (.long 8), .execute (.ok (echo 1 2)) counter,
    .bind 2 ⟨.object⟩ (.bool true), .execute (.error "no such table: t") counter,
    .bind 2 ⟨.int⟩ (.string "x")]

theorem serves_until_closed_rebinding :
    let s := (fresh (echo 1 2) 0).after rebindingCalls
    s.results (.ok (echo 1 2)) =
      .ok ⟨[⟨[("column1", .null), ("column2", .integer 1)]⟩], none⟩ ∧
    s.execute counter.visit counter.start (.ok (echo 1 2)) = ((1 : Nat), .ok ()) ∧
    ((fresh (echo 1 2) 0).after (rebindingCalls ++ [.close])).Refuses := by
  obtain ⟨hserves, -⟩ := serves_until_closed (echo 1 2) 0 rebindingCalls
  obtain ⟨-, hrefuses⟩ := serves_until_closed (echo 1 2) 0 (rebindingCalls ++ [.close])
  have hopen : .close ∉ rebindingCalls := by simp [rebindingCalls]
  have hwithin : ¬ ((fresh (echo 1 2) 0).record rebindingCalls).Beyond (echo 1 2) := by decide
  exact ⟨(hserves hopen).results _ hwithin, (hserves hopen).finishes _ hwithin counter _ rfl rfl,
    hrefuses (by simp)⟩

/-- A table of three rows, of which so many are asked for as a parameter says. What is no whole
number is not refused before the statement runs. -/
def limitQuery : Query where
  sql := "select id from t limit ?"
  parameters := 1
  run cells :=
    match cells with
    | [.integer n] =>
      let ids : List Int64 := if n < 0 then [1, 2, 3] else [1, 2, 3].take n.toInt.toNat
      { rows := ids.map fun id => ⟨[("id", .integer id)]⟩ }
    | _ => { rows := [], failure := some (.engine "datatype mismatch") }

def nan : Value := .double ⟨0x7ff8000000000000⟩

/-- Not every execution that fails does so for a bind or for the visitor, since nothing has to be
bound to fail; and not every parameter is just what was bound, since there is no NaN in a
database. -/
theorem not_only_bound :
    (¬ ∀ (q : Query) (cs : List Call) (visitor : Visitor), .close ∉ cs →
      ((∃ fault, (((fresh q 0).after cs).execute visitor.visit visitor.start).2 = .error fault) ↔
        ((fresh q 0).record cs).Beyond q ∨ ∃ seen gathered fault, visitor.FailsAfter
          (((fresh q 0).record cs).yields q).rows seen gathered fault)) ∧
    ¬ ∀ (q : Query) (cs : List Call), .close ∉ cs → ¬ ((fresh q 0).record cs).Beyond q →
      ((fresh q 0).after cs).results (.ok q) =
        .ok (q.run (((fresh q 0).record cs).parameters q)) := by
  constructor
  · intro h
    rcases (h limitQuery [] counter nofun).mp ⟨_, rfl⟩ with
      ⟨index, setter, v, -, hmem⟩ | ⟨seen, gathered, fault, row, rest, hrows, -⟩
    · cases hmem
    · have hnone : [] = seen ++ row :: rest := hrows
      simp at hnone
  · intro h
    have hwithin : ¬ ((fresh (echo 1 1) 0).record [.bind 1 ⟨.double⟩ nan]).Beyond (echo 1 1) := by
      decide
    have hsame := h (echo 1 1) [.bind 1 ⟨.double⟩ nan] (by simp) hwithin
    have hcells := congrArg (fun results => results.toOption.map (·.rows.map (·.cells))) hsame
    exact absurd hcells (by decide +kernel)

end Statement

end FlagSelect.Storage
