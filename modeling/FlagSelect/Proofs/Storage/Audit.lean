import FlagSelect.Proofs.Alignment
import FlagSelect.Proofs.Statement.Evaluation
import FlagSelect.Proofs.Statement.Refusal
import FlagSelect.Proofs.Storage.Database

/-!
# What a database is asked to execute

`Audit compile` is a database that writes down the statements it executes, each with its parameters.
What a query adds to this is known from its plan, the record and the host, whatever the executor has
been used for before. Main statement: `Audit.executed_query`.
-/

namespace FlagSelect.Storage

/-- A database whose executions are written down. -/
structure Audit (compile : String → Except String Query) where
  database : Database compile
  /-- The text and the parameters of each statement that was executed, the latest first. -/
  executed : List (String × List Cell) := []

namespace Statement

theorem put_length {cells : List Cell} {c : Cell} : put cells cells.length c = cells ++ [c] := by
  simp [put]

end Statement

namespace Audit

variable {compile : String → Except String Query} {σ ρ α : Type} {a : Audit compile} {n : Nat}
  {sql : String} {s : Statement}

/-- Passes a call on to the database. -/
def pass (a : Audit compile) (f : Database compile → α × Database compile) : α × Audit compile :=
  ((f a.database).1, { a with database := (f a.database).2 })

/-- Writes down that a statement is executed, if it is open. -/
def enter (a : Audit compile) (n : Nat) : Audit compile :=
  match a.database.opened n with
  | none => a
  | some (sql, s) => { a with executed := (sql, s.bound) :: a.executed }

instance : Driver (Audit compile) where
  Statement := Nat
  Row := Row
  acquire a := a.pass Driver.acquire
  prepare sql a := a.pass (Driver.prepare sql)
  bind n index setter v a := a.pass fun d => Driver.bind (δ := Database compile) n index setter v d
  execute n a := (a.enter n).pass fun d => Driver.execute (δ := Database compile) n d
  read n row column getter a :=
    a.pass fun d => Driver.read (δ := Database compile) n row column getter d
  interrupt n fault a := a.pass fun d => Driver.interrupt (δ := Database compile) n fault d
  close n a := a.pass fun d => Driver.close (δ := Database compile) n d

theorem database_enter : (a.enter n).database = a.database := by
  unfold enter
  split <;> rfl

variable (compile) in
/-- An audit changes nothing about what the database promises. -/
def contract : Contract (Audit compile) where
  Store := Unit
  Params := Statement
  Cell := Cell
  store _ := ()
  opened a := a.database.opened
  accepts sql := ∃ q, compile sql = .ok q
  fresh := Database.fresh compile
  put i c s := s.assign i c
  bind sql i setter v _ := (Statement.cellAt sql i setter v, ())
  execute sql s _ := (s.results (compile sql), ())
  read _ row column getter _ := (row.read column getter, ())
  interrupt _ fault _ := (.error fault, ())
  put_put := (Database.contract compile).put_put
  put_comm := (Database.contract compile).put_comm
  acquire_spec a := ⟨a, rfl, rfl, rfl⟩
  prepare_spec sql a haccepts := by
    obtain ⟨n, d, hprepare, -, h⟩ :=
      (Database.contract compile).prepare_spec sql a.database haccepts
    refine ⟨n, { a with database := d }, ?_, rfl, h⟩
    simp only [Driver.prepare, pass] at hprepare ⊢
    rw [hprepare]
  bind_spec a := (Database.contract compile).bind_spec a.database
  execute_spec a n sql s h := by
    have hspec := (Database.contract compile).execute_spec (a.enter n).database n sql s
      (by rw [database_enter]; exact h)
    exact ⟨hspec.1, rfl, hspec.2.2.trans (congrArg Database.opened database_enter)⟩
  read_spec a := (Database.contract compile).read_spec a.database
  interrupt_spec a := (Database.contract compile).interrupt_spec a.database
  close_spec a := (Database.contract compile).close_spec a.database

variable (compile) in
/-- The fault of a text that is not compiled. -/
def refusal (sql : String) : DriverFault :=
  match compile sql with
  | .ok _ => .closed
  | .error message => .engine message

theorem refuses : Contract.Refuses (contract compile) (refusal compile) := by
  intro sql a hrefused
  have hrefused : ¬ ∃ q, compile sql = .ok q := hrefused
  simp only [Driver.prepare, pass, refusal]
  cases h : compile sql with
  | ok q => exact absurd ⟨q, h⟩ hrefused
  | error message => rfl

/-! ## Binding -/

/-- What values are bound as. -/
def convert (bs : List (Binding σ × Value)) : Except DriverFault (List Cell) :=
  bs.mapM fun b => Cell.bound b.1.setter b.2

theorem convert_cons {b : Binding σ} {v : Value} {bs : List (Binding σ × Value)} :
    convert ((b, v) :: bs) = (Cell.bound b.setter v).bind fun c => (convert bs).map (c :: ·) := by
  rw [convert, List.mapM_cons]
  cases Cell.bound b.setter v with
  | error fault => rfl
  | ok c => cases h : convert bs <;> simp only [convert] at h <;> rw [h] <;> rfl

theorem length_of_convert {bs : List (Binding σ × Value)} {cells : List Cell}
    (h : convert bs = .ok cells) : cells.length = bs.length := by
  induction bs generalizing cells with
  | nil => cases h; rfl
  | cons bv bs ih =>
      rw [convert_cons] at h
      cases hc : Cell.bound bv.1.setter bv.2 with
      | error fault => rw [hc] at h; cases h
      | ok c =>
          rw [hc] at h
          cases hcs : convert bs with
          | error fault => rw [hcs] at h; cases h
          | ok cs =>
              rw [hcs] at h
              cases h
              rw [List.length_cons, List.length_cons, ih hcs]

theorem bind_opened {index : Nat} (h : a.database.opened n = some (sql, s)) (hindex : 0 < index)
    (setter : Setter) (v : Value) :
    ∃ d, Driver.bind (δ := Audit compile) n index setter v a =
        ((Cell.bound setter v).map fun _ => (), { a with database := d }) ∧
      ∀ c, Cell.bound setter v = .ok c → d.opened n = some (sql, s.assign index c) := by
  obtain ⟨hresult, -, hopened, -⟩ :=
    (Database.contract compile).bind_spec a.database n sql s index setter v h
  have hcell : Statement.cellAt sql index setter v = Cell.bound setter v := by
    obtain ⟨i, rfl⟩ := Nat.exists_eq_add_one_of_ne_zero (Nat.ne_of_gt hindex)
    rw [Statement.cellAt]
    cases Cell.bound setter v <;> rfl
  refine ⟨_, Prod.ext (hresult.trans ?_) rfl, fun c hc => ?_⟩
  · exact congrArg _ hcell
  · have hbind : ((Database.contract compile).bind sql index setter v
        ((Database.contract compile).store a.database)).1 = .ok c := hcell.trans hc
    rw [hbind] at hopened
    exact hopened

theorem bindAll_opened {bs : List (Binding σ × Value)} (h : a.database.opened n = some (sql, s))
    (hindex : ∀ b ∈ bs, 0 < b.1.index) :
    ∃ d, bindAll (δ := Audit compile) n bs a =
        ((convert bs).map fun _ => (), { a with database := d }) ∧
      ∀ cells, convert bs = .ok cells → d.opened n =
        some (sql, (contract compile).putAll ((bs.map (·.1.index)).zip cells) s) := by
  induction bs generalizing a s with
  | nil => exact ⟨a.database, rfl, fun cells hcells => by cases hcells; exact h⟩
  | cons bv bs ih =>
      obtain ⟨b, v⟩ := bv
      obtain ⟨d, hbind, hput⟩ := bind_opened h (hindex _ List.mem_cons_self) b.setter v
      rw [bindAll, hbind, convert_cons]
      cases hc : Cell.bound b.setter v with
      | error fault => exact ⟨d, rfl, fun cells hcells => by cases hcells⟩
      | ok c =>
          obtain ⟨d', hrest, hputs⟩ := ih (a := { a with database := d }) (hput c hc)
            fun b hb => hindex b (List.mem_cons_of_mem _ hb)
          refine ⟨d', hrest.trans ?_, fun cells hcells => ?_⟩
          · cases convert bs <;> rfl
          · cases hcs : convert bs with
            | error fault => rw [hcs] at hcells; cases hcells
            | ok cs =>
                rw [hcs] at hcells
                cases hcells
                exact hputs cs hcs

variable (compile) in
/-- Cells that are bound one behind the other stand so in the list of the parameters. -/
theorem bound_putAll {cells : List Cell} {indices : List Nat}
    (h : indices = List.range' (s.bound.length + 1) cells.length) :
    ((contract compile).putAll (indices.zip cells) s).bound = s.bound ++ cells := by
  subst h
  induction cells generalizing s with
  | nil => exact (List.append_nil _).symm
  | cons c cells ih =>
      have hassign : (s.assign (s.bound.length + 1) c).bound = s.bound ++ [c] :=
        Statement.put_length
      have hlength : (s.assign (s.bound.length + 1) c).bound.length = s.bound.length + 1 := by
        rw [hassign, List.length_append, List.length_singleton]
      have hrest := ih (s := s.assign (s.bound.length + 1) c)
      rw [hlength, hassign, List.append_assoc] at hrest
      exact hrest

theorem bound_fresh : (Database.fresh compile sql).bound = [] := by
  unfold Database.fresh
  split <;> rfl

/-! ## Executing -/

theorem executed_readColumns (row : Row) (rs : List Reading) :
    (readColumns (δ := Audit compile) n row rs a).2.executed = a.executed := by
  induction rs generalizing a with
  | nil => rfl
  | cons r rs ih =>
      unfold readColumns
      split <;> rename_i hread <;> obtain ⟨-, rfl⟩ := Prod.mk.inj hread
      next => rfl
      next => split <;> rename_i hrest <;> exact (congrArg (·.2.executed) hrest).symm.trans ih

theorem executed_visit (rs : List Reading) (project : RowProjection ρ) (number : Nat)
    (rows : List Row) :
    (visit (δ := Audit compile) n rs project number rows a).2.2.executed = a.executed := by
  induction rows generalizing a number with
  | nil => rfl
  | cons row rows ih =>
      have hread := executed_readColumns (a := a) (n := n) row rs
      unfold visit
      split <;> rename_i heq <;> rw [heq] at hread
      next => exact hread
      next =>
        split
        · exact hread
        · exact (ih _).trans hread

theorem executed_fetch (p : Plan σ) (project : RowProjection ρ)
    (h : a.database.opened n = some (sql, s)) :
    (p.fetch (δ := Audit compile) n project a).2.executed = (sql, s.bound) :: a.executed := by
  have hexecute : (Driver.execute (δ := Audit compile) n a).2.executed =
      (sql, s.bound) :: a.executed := by
    simp only [Driver.execute, pass, enter, h]
  unfold Plan.fetch
  dsimp only
  split <;> rename_i heq <;> rw [heq] at hexecute
  next => exact hexecute
  next result a₁ =>
    have hvisit := (executed_visit (n := n) p.columns project 0 result.rows).trans hexecute
    split <;> rename_i heq' <;> rw [heq'] at hvisit
    next => split <;> exact hvisit
    next =>
      split <;> rename_i hinterrupt <;> obtain ⟨-, rfl⟩ := Prod.mk.inj hinterrupt <;> exact hvisit
    next => exact hvisit

/-! ## Queries -/

variable (compile) in
/-- The execution that a query for a record is for, if its text compiles, its programs have values
and these can be bound. -/
def execution (p : Plan σ) (side : Option Value) (record : Object) (host : σ) :
    List (String × List Cell) :=
  match compile p.sql, (p.bindValues side record host).1 with
  | .ok _, .ok values =>
    match convert (p.bindings.zip values) with
    | .ok cells => [(p.sql, cells)]
    | .error _ => []
  | _, _ => []

variable {e : Executor σ (Audit compile)} {w : World σ (Audit compile)} {t : Template σ}
  {flags : Flags}

theorem executed_ensure : (e.ensure w).world.driver.executed = w.driver.executed := by
  unfold Executor.ensure
  split
  · rfl
  · dsimp only
    split <;> rename_i hacquire <;> obtain ⟨-, rfl⟩ := Prod.mk.inj hacquire
    next => rfl
    next => split <;> rename_i hprepare <;> obtain ⟨-, rfl⟩ := Prod.mk.inj hprepare <;> rfl

theorem plan_indices {p : Plan σ} (h : t.plan flags = .ok p) :
    p.bindings.map (·.index) = List.range' 1 p.bindings.length := by
  refine List.ext_getElem (by simp) fun k hk _ => ?_
  rw [List.length_map] at hk
  rw [List.getElem_map, List.getElem_range',
    Template.plan_index h k _ (List.getElem?_eq_getElem hk), Nat.one_mul, Nat.add_comm]

theorem index_pos {p : Plan σ} {b : Binding σ} (h : t.plan flags = .ok p)
    (hb : b ∈ p.bindings) : 0 < b.index := by
  obtain ⟨k, hk⟩ := List.mem_iff_getElem?.mp hb
  rw [Template.plan_index h k b hk]
  exact Nat.succ_pos k

theorem indices_zip {p : Plan σ} {values : List Value}
    (hlength : values.length = p.bindings.length) :
    (p.bindings.zip values).map (·.1.index) = p.bindings.map (·.index) := by
  have hfst := List.map_fst_zip (Nat.le_of_eq hlength.symm)
  rw [← congrArg (List.map _) hfst, List.map_map]
  rfl

/-- Once a cell is bound at each index of a plan, these cells are the parameters of its statement,
however it has been used before. -/
theorem bound_plan {p : Plan σ} {cells : List Cell} (h : t.plan flags = .ok p)
    (hbound : (contract compile).Bound p s) (hlength : cells.length = p.bindings.length) :
    ((contract compile).putAll ((p.bindings.map (·.index)).zip cells) s).bound = cells := by
  have hall (b : Binding σ) (hb : b ∈ p.bindings) :
      ∃ x ∈ (p.bindings.map (·.index)).zip cells, x.1 = b.index := by
    have hmem := List.mem_map_of_mem (f := (·.index)) hb
    have hle : (p.bindings.map (·.index)).length ≤ cells.length :=
      Nat.le_of_eq ((List.length_map _).trans hlength.symm)
    rw [← List.map_fst_zip hle] at hmem
    exact List.mem_map.mp hmem
  have hindices : p.bindings.map (·.index) =
      List.range' ((Database.fresh compile p.sql).bound.length + 1) cells.length := by
    rw [plan_indices h, bound_fresh, hlength]
    rfl
  have hfresh := bound_putAll compile hindices
  rw [bound_fresh] at hfresh
  exact (congrArg Statement.bound (hbound.putAll_eq hall)).trans hfresh

/-- However a statement of a plan has been used, once the values of the plan are bound to it their
cells are its parameters. -/
theorem bindAll_plan {p : Plan σ} {values : List Value} (hplan : t.plan flags = .ok p)
    (hlength : values.length = p.bindings.length) (h : a.database.opened n = some (p.sql, s))
    (hbound : (contract compile).Bound p s) :
    ∃ d, bindAll (δ := Audit compile) n (p.bindings.zip values) a =
        ((convert (p.bindings.zip values)).map fun _ => (), { a with database := d }) ∧
      ∀ cells, convert (p.bindings.zip values) = .ok cells →
        ∃ s', d.opened n = some (p.sql, s') ∧ s'.bound = cells := by
  obtain ⟨d, hbind, hput⟩ := bindAll_opened h fun b (hb : b ∈ p.bindings.zip values) =>
    index_pos hplan (List.of_mem_zip hb).1
  refine ⟨d, hbind, fun cells hcells => ⟨_, hput cells hcells, ?_⟩⟩
  rw [indices_zip hlength]
  refine bound_plan hplan hbound ?_
  rw [length_of_convert hcells, List.length_zip, hlength, Nat.min_self]

/-- A query executes its statement with the cells of its values and no others, or not at all. -/
theorem executed_query [RecordHost σ ρ] (hplan : t.plan flags = .ok e.plan)
    (h : e.Fit (contract compile) w.driver) (side : Option Value) (project : RowProjection ρ)
    (record : Object) :
    (e.query side project record w).world.driver.executed =
      execution compile e.plan side record w.host ++ w.driver.executed := by
  have hensure (host : σ) := executed_ensure (e := e) (w := { w with host })
  unfold Executor.query execution
  rcases hvalues : e.plan.bindValues side record w.host with ⟨err | values, host⟩
  case error => cases compile e.plan.sql <;> rfl
  specialize hensure host
  cases hcompile : compile e.plan.sql with
  | error message =>
      have hrefused : ¬ (contract compile).accepts e.plan.sql := fun ⟨q, hq⟩ => by
        rw [hcompile] at hq
        cases hq
      obtain ⟨w', hens, -, -⟩ := Executor.ensure_refused refuses hrefused
        (h.statement_eq_none hrefused) { w with host }
      rw [hens] at hensure
      simp only [hens]
      exact hensure
  | ok q =>
      obtain ⟨n, s, w', hens, -, hopened, hbound, -, -⟩ :=
        Executor.ensure_ready (C := contract compile) (w := { w with host }) ⟨q, hcompile⟩ h.ready
      rw [hens] at hensure
      obtain ⟨d, hbind, hput⟩ :=
        bindAll_plan hplan (Plan.length_of_bindValues hvalues) hopened hbound
      simp only [hens, hbind]
      cases hcells : convert (e.plan.bindings.zip values) with
      | error fault => exact hensure
      | ok cells =>
          obtain ⟨s', hopened', rfl⟩ := hput cells hcells
          have hfetch := executed_fetch (a := ⟨d, w'.driver.executed⟩) e.plan project hopened'
          have hexecuted := hfetch.trans (congrArg (_ :: ·) hensure)
          dsimp only [Except.map, World.count]
          split <;> rename_i heq <;> rw [heq] at hexecuted <;> exact hexecuted

end Audit

end FlagSelect.Storage
