import FlagSelect.Proofs.Statement.Contract
import FlagSelect.Storage.Database

/-!
# What the database promises

The database keeps the contract of a driver for all texts that it compiles (`Database.contract`). It
needs no store: what a statement yields depends on its text and its parameters alone.
-/

namespace FlagSelect.Storage

namespace Statement

variable {s : Statement} {cells : List Cell} {i j k index : Nat} {c c' : Cell} {setter : Setter}
  {v : Value}

theorem getElem?_put : (put cells i c)[k]? =
    if k = i then some c else if k < i then some (cells[k]?.getD .null) else cells[k]? := by
  rw [put, List.getElem?_set]
  split
  next h =>
    subst h
    rw [if_pos rfl, if_pos]
    simp only [List.length_append, List.length_replicate]
    omega
  next h =>
    rw [if_neg (Ne.symm h), List.getElem?_append]
    split
    next hk => simp [List.getElem?_eq_getElem hk]
    next hk =>
      rw [List.getElem?_eq_none (Nat.le_of_not_lt hk), List.getElem?_replicate]
      grind

/-- Binds a cell at an index counted from one. -/
def assign (s : Statement) (index : Nat) (c : Cell) : Statement :=
  match index with
  | 0 => s
  | i + 1 => { s with bound := put s.bound i c }

theorem query_assign : (s.assign index c).query = s.query := by cases index <;> rfl

theorem closed_assign : (s.assign index c).closed = s.closed := by cases index <;> rfl

theorem assign_assign : (s.assign index c').assign index c = s.assign index c := by
  cases index with
  | zero => rfl
  | succ i =>
      have hput : put (put s.bound i c') i c = put s.bound i c := by
        refine List.ext_getElem? fun k => ?_
        simp only [getElem?_put]
        grind
      simp only [assign, hput]

theorem assign_comm (h : i ≠ j) : (s.assign j c').assign i c = (s.assign i c).assign j c' := by
  rcases i with _ | i <;> rcases j with _ | j
  case succ.succ =>
    have hput : put (put s.bound j c') i c = put (put s.bound i c) j c' := by
      refine List.ext_getElem? fun k => ?_
      simp only [getElem?_put]
      grind
    simp only [assign, hput]
  all_goals rfl

/-- What a value is bound as at an index of a statement text. -/
def cellAt (sql : String) (index : Nat) (setter : Setter) (v : Value) :
    Except DriverFault Cell := do
  let c ← Cell.bound setter v
  match index with
  | 0 => throw (.other ("placeholder index 0 in `" ++ sql ++ "`"))
  | _ + 1 => return c

theorem bind_eq (h : ¬ s.closed) :
    s.bind index setter v = (cellAt s.query.sql index setter v).map (s.assign index) := by
  unfold bind cellAt
  rw [if_neg h]
  cases Cell.bound setter v with
  | error fault => rfl
  | ok c => cases index <;> rfl

end Statement

namespace Database

variable {compile : String → Except String Query} {d : Database compile} {n m : Nat}
  {s s' : Statement} {sql : String}

/-- A statement that is not closed, with its text. -/
def opened (d : Database compile) (n : Nat) : Option (String × Statement) :=
  (d.statements[n]?.filter (!·.closed)).map fun s => (s.query.sql, s)

theorem opened_eq_some :
    d.opened n = some (sql, s) ↔ d.statements[n]? = some s ∧ ¬ s.closed ∧ s.query.sql = sql := by
  simp only [opened, Option.map_eq_some_iff, Option.filter_eq_some_iff, Prod.mk.injEq,
    Bool.not_eq_true', Bool.not_eq_true]
  constructor
  · rintro ⟨_, ⟨hs, hclosed⟩, rfl, rfl⟩
    exact ⟨hs, hclosed, rfl⟩
  · rintro ⟨hs, hclosed, rfl⟩
    exact ⟨s, ⟨hs, hclosed⟩, rfl, rfl⟩

theorem statements_set (h : d.statements[n]? = some s) :
    (d.set n s').statements[m]? = if n = m then some s' else d.statements[m]? := by
  obtain ⟨hn, -⟩ := Array.getElem?_eq_some_iff.mp h
  simp [set, Array.getElem?_setIfInBounds, hn]

theorem opened_set (h : d.statements[n]? = some s) :
    (d.set n s').opened n = if s'.closed then none else some (s'.query.sql, s') := by
  rw [opened, statements_set h, if_pos rfl]
  cases hclosed : s'.closed <;> simp [hclosed]

theorem opened_set_of_ne (h : d.statements[n]? = some s) (hm : m ≠ n) :
    (d.set n s').opened m = d.opened m := by
  rw [opened, statements_set h, if_neg hm.symm, opened]

/-- The statement that a text is compiled to. -/
def fresh (compile : String → Except String Query) (sql : String) : Statement :=
  match compile sql with
  | .ok q => { query := { q with sql } }
  | .error _ => { query := ⟨sql, 0, fun _ => ⟨[], none⟩⟩ }

variable (compile) in
/-- The contract of a database: what a text that it compiles yields depends on the parameters. -/
def contract : Contract (Database compile) where
  Store := Unit
  Params := Statement
  Cell := Cell
  store _ := ()
  opened := opened
  accepts sql := ∃ q, compile sql = .ok q
  fresh := fresh compile
  put i c s := s.assign i c
  bind sql i setter v _ := (Statement.cellAt sql i setter v, ())
  execute sql s _ := (s.results (compile sql), ())
  read _ row column getter _ := (row.read column getter, ())
  interrupt _ fault _ := (.error fault, ())
  put_put _ _ _ _ := Statement.assign_assign
  put_comm _ _ _ _ _ h := Statement.assign_comm h
  acquire_spec d := ⟨d, rfl, rfl, rfl⟩
  prepare_spec sql d haccepts := by
    obtain ⟨q, hq⟩ := haccepts
    refine ⟨d.statements.size, ⟨d.statements.push (fresh compile sql)⟩, ?_, rfl, ?_, ?_, ?_⟩
    · simp only [Driver.prepare, fresh, hq]
    · simp [opened]
    · refine opened_eq_some.mpr ⟨Array.getElem?_push_size, ?_, ?_⟩ <;> simp [fresh, hq]
    · intro u hu
      rw [opened, Array.getElem?_push, if_neg hu, opened]
  bind_spec d n sql s i setter v h := by
    obtain ⟨hs, hclosed, rfl⟩ := opened_eq_some.mp h
    simp only [Driver.bind, hs, Statement.bind_eq hclosed]
    cases Statement.cellAt s.query.sql i setter v with
    | error fault => exact ⟨rfl, trivial, h, fun _ _ => rfl⟩
    | ok c =>
        refine ⟨rfl, trivial, (opened_set hs).trans ?_, fun u hu => opened_set_of_ne hs hu⟩
        rw [Statement.closed_assign, if_neg hclosed, Statement.query_assign]
  execute_spec d n sql s h := by
    obtain ⟨hs, -, rfl⟩ := opened_eq_some.mp h
    simp only [Driver.execute, hs]
    exact ⟨trivial, trivial, trivial⟩
  read_spec _ _ _ _ _ _ _ _ := ⟨rfl, rfl, rfl⟩
  interrupt_spec _ _ _ _ _ _ := ⟨rfl, rfl, rfl⟩
  close_spec d n sql s h := by
    obtain ⟨hs, hclosed, -⟩ := opened_eq_some.mp h
    simp only [Driver.close, hs]
    refine ⟨trivial, (opened_set hs).trans ?_, fun u hu => opened_set_of_ne hs hu⟩
    rw [Statement.close, if_neg hclosed, if_pos rfl]

end Database

end FlagSelect.Storage
