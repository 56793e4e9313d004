import FlagSelect.Statement.Executor

/-!
# A journal of the calls of a driver

`Journal δ` is a driver that passes every call on to the driver below it and writes it down, with
all that is passed and the answer. For each function of an executor, what it does is told by the
calls that it adds to the journal.
-/

namespace FlagSelect

/-- A call of a driver, and the answer. -/
inductive Call (δ : Type) [Driver δ] where
  | acquire (answer : Except DriverFault Unit)
  | prepare (sql : String) (answer : Except DriverFault (Driver.Statement δ))
  | bind (s : Driver.Statement δ) (index : Nat) (setter : Setter) (v : Value)
      (answer : Except DriverFault Unit)
  | execute (s : Driver.Statement δ) (answer : Except DriverFault (ResultSet (Driver.Row δ)))
  | read (s : Driver.Statement δ) (row : Driver.Row δ) (column : Nat) (getter : Getter)
      (answer : Except DriverFault Value)
  | interrupt (s : Driver.Statement δ) (fault : DriverFault) (answer : Except DriverFault Unit)
  | close (s : Driver.Statement δ) (answer : Except DriverFault Unit)

/-- A driver with state `δ` whose calls are written down. -/
structure Journal (δ : Type) [Driver δ] where
  driver : δ
  /-- The calls so far, the latest first. -/
  calls : List (Call δ) := []

namespace Journal

variable {δ α : Type} [Driver δ]

/-- Passes a call on and writes it down with its answer. -/
def call (j : Journal δ) (entry : Except DriverFault α → Call δ)
    (f : δ → Except DriverFault α × δ) : Except DriverFault α × Journal δ :=
  ((f j.driver).1, ⟨(f j.driver).2, entry (f j.driver).1 :: j.calls⟩)

instance : Driver (Journal δ) where
  Statement := Driver.Statement δ
  Row := Driver.Row δ
  acquire j := j.call .acquire Driver.acquire
  prepare sql j := j.call (.prepare sql) (Driver.prepare sql)
  bind s index setter v j := j.call (.bind s index setter v) (Driver.bind s index setter v)
  execute s j := j.call (.execute s) (Driver.execute s)
  read s row column getter j :=
    j.call (.read s row column getter) (Driver.read s row column getter)
  interrupt s fault j := j.call (.interrupt s fault) (Driver.interrupt s fault)
  close s j := j.call (.close s) (Driver.close s)

/-- Whether a journal has come about from another one by these calls, the first of them first. -/
def Adds (j : Journal δ) (calls : List (Call δ)) (j' : Journal δ) : Prop :=
  j'.calls = calls.reverse ++ j.calls

variable {j j' j'' : Journal δ} {calls calls' : List (Call δ)}

theorem Adds.refl (j : Journal δ) : j.Adds [] j := rfl

theorem Adds.trans (h : j.Adds calls j') (h' : j'.Adds calls' j'') :
    j.Adds (calls ++ calls') j'' := by
  rw [Adds, h', h, List.reverse_append, List.append_assoc]

theorem adds_call {entry : Except DriverFault α → Call δ} {f : δ → Except DriverFault α × δ}
    {r : Except DriverFault α} (h : j.call entry f = (r, j')) : j.Adds [entry r] j' := by
  obtain ⟨rfl, rfl⟩ := Prod.mk.inj h
  rfl

end Journal

variable {σ δ ρ : Type} [Driver δ] {s : Driver.Statement δ} {row : Driver.Row δ}
  {j j' : Journal δ}

/-! ## Binding -/

/-- The calls that bind values to their placeholders, if no value is refused. -/
def bindCalls (s : Driver.Statement δ) (bs : List (Binding σ × Value)) : List (Call δ) :=
  bs.map fun (b, v) => .bind s b.index b.setter v (.ok ())

/-- How the binding of values can end: with all of them, or with the first that is refused. -/
inductive Binds (s : Driver.Statement δ) (bs : List (Binding σ × Value)) :
    List (Call δ) → Except DriverFault Unit → Prop where
  | all : Binds s bs (bindCalls s bs) (.ok ())
  | refused (before : List (Binding σ × Value)) {after : List (Binding σ × Value)} {b : Binding σ}
      {v : Value} {fault : DriverFault} : bs = before ++ (b, v) :: after →
      Binds s bs (bindCalls s before ++ [.bind s b.index b.setter v (.error fault)]) (.error fault)

theorem Binds.cons {bs : List (Binding σ × Value)} {calls : List (Call δ)}
    {r : Except DriverFault Unit} (h : Binds s bs calls r) (b : Binding σ) (v : Value) :
    Binds s ((b, v) :: bs) (.bind s b.index b.setter v (.ok ()) :: calls) r := by
  cases h with
  | all => exact .all
  | refused before hbs =>
      subst hbs
      exact .refused ((b, v) :: before) rfl

theorem binds_bindAll {bs : List (Binding σ × Value)} {r : Except DriverFault Unit}
    (h : bindAll (δ := Journal δ) s bs j = (r, j')) :
    ∃ calls, j.Adds calls j' ∧ Binds s bs calls r := by
  induction bs generalizing j with
  | nil =>
      cases h
      exact ⟨[], .refl _, .all⟩
  | cons bv bs ih =>
      obtain ⟨b, v⟩ := bv
      unfold bindAll at h
      split at h
      next hbind =>
        obtain ⟨calls, hadds, hbinds⟩ := ih h
        exact ⟨_, (Journal.adds_call hbind).trans hadds, hbinds.cons b v⟩
      next hbind =>
        cases h
        exact ⟨_, Journal.adds_call hbind, .refused [] rfl⟩

/-! ## Reading and projecting -/

/-- The calls that read columns of a row, if none fails. -/
def readCalls (s : Driver.Statement δ) (row : Driver.Row δ) (rs : List Reading)
    (vs : List Value) : List (Call δ) :=
  List.zipWith (fun r v => .read s row r.column r.getter (.ok v)) rs vs

/-- How the reading of a row can end: with a value for each column, or with the first column that
cannot be read. -/
inductive ReadsRow (s : Driver.Statement δ) (row : Driver.Row δ) (rs : List Reading) :
    List (Call δ) → Except DriverFault (List Value) → Prop where
  | all (vs : List Value) : vs.length = rs.length →
      ReadsRow s row rs (readCalls s row rs vs) (.ok vs)
  | failed (before : List Reading) (vs : List Value) {after : List Reading} {r : Reading}
      {fault : DriverFault} :
      rs = before ++ r :: after → vs.length = before.length →
      ReadsRow s row rs
        (readCalls s row before vs ++ [.read s row r.column r.getter (.error fault)])
        (.error fault)

theorem ReadsRow.cons {rs : List Reading} {calls : List (Call δ)}
    {o : Except DriverFault (List Value)} (h : ReadsRow s row rs calls o) (r : Reading)
    (v : Value) :
    ReadsRow s row (r :: rs) (.read s row r.column r.getter (.ok v) :: calls)
      (o.map (v :: ·)) := by
  cases h with
  | all vs hlength => exact .all (v :: vs) (congrArg Nat.succ hlength)
  | failed before vs hrs hlength =>
      subst hrs
      exact .failed (r :: before) (v :: vs) rfl (congrArg Nat.succ hlength)

theorem readsRow_readColumns {rs : List Reading} {o : Except DriverFault (List Value)}
    (h : readColumns (δ := Journal δ) s row rs j = (o, j')) :
    ∃ calls, j.Adds calls j' ∧ ReadsRow s row rs calls o := by
  induction rs generalizing j o with
  | nil =>
      cases h
      exact ⟨[], .refl _, .all [] rfl⟩
  | cons r rs ih =>
      unfold readColumns at h
      split at h
      next hread =>
        cases h
        exact ⟨_, Journal.adds_call hread, .failed [] [] rfl rfl⟩
      next v _ hread =>
        split at h <;> rename_i hrest <;> cases h <;> obtain ⟨calls, hadds, hreads⟩ := ih hrest <;>
          exact ⟨_, (Journal.adds_call hread).trans hadds, hreads.cons r v⟩

/-- Whether rows have been read and projected once each, in order and with no failure. -/
inductive Projects (s : Driver.Statement δ) (project : RowProjection ρ) (rs : List Reading) :
    List (Driver.Row δ) → List (Call δ) → List ρ → Prop where
  | nil : Projects s project rs [] [] []
  | cons {row : Driver.Row δ} {rest : List (Driver.Row δ)} {reads calls : List (Call δ)}
      {vs : List Value} {out : ρ} {outs : List ρ} : ReadsRow s row rs reads (.ok vs) →
      project vs = .ok out → Projects s project rs rest calls outs →
      Projects s project rs (row :: rest) (reads ++ calls) (out :: outs)

/-- How a visit of rows can end: with all of them, with one that cannot be read or with one that the
projection refuses. Rows are counted from `number`. -/
inductive Visits (s : Driver.Statement δ) (project : RowProjection ρ) (rs : List Reading)
    (number : Nat) (rows : List (Driver.Row δ)) : List (Call δ) → List ρ → VisitEnd → Prop where
  | complete {calls : List (Call δ)} {outs : List ρ} : Projects s project rs rows calls outs →
      Visits s project rs number rows calls outs .complete
  | unread (before : List (Driver.Row δ)) {after : List (Driver.Row δ)} {row : Driver.Row δ}
      {calls reads : List (Call δ)} {outs : List ρ} {fault : DriverFault} :
      rows = before ++ row :: after →
      Projects s project rs before calls outs → ReadsRow s row rs reads (.error fault) →
      Visits s project rs number rows (calls ++ reads) outs (.unread fault)
  | refused (before : List (Driver.Row δ)) {after : List (Driver.Row δ)} {row : Driver.Row δ}
      {calls reads : List (Call δ)} {outs : List ρ} {vs : List Value} {message : String} :
      rows = before ++ row :: after →
      Projects s project rs before calls outs → ReadsRow s row rs reads (.ok vs) →
      project vs = .error message →
      Visits s project rs number rows (calls ++ reads) outs
        (.refused (number + before.length) message)

theorem Visits.cons {project : RowProjection ρ} {rs : List Reading} {number : Nat}
    {rows : List (Driver.Row δ)} {reads calls : List (Call δ)} {vs : List Value} {out : ρ}
    {outs : List ρ} {ending : VisitEnd} (hreads : ReadsRow s row rs reads (.ok vs))
    (hout : project vs = .ok out) (h : Visits s project rs (number + 1) rows calls outs ending) :
    Visits s project rs number (row :: rows) (reads ++ calls) (out :: outs) ending := by
  cases h with
  | complete hprojects => exact .complete (.cons hreads hout hprojects)
  | unread before hrows hprojects hlast =>
      subst hrows
      rw [← List.append_assoc]
      exact .unread (row :: before) rfl (.cons hreads hout hprojects) hlast
  | refused before hrows hprojects hlast hmessage =>
      subst hrows
      rw [← List.append_assoc, Nat.add_assoc, Nat.add_comm 1]
      exact .refused (row :: before) rfl (.cons hreads hout hprojects) hlast hmessage

theorem visits_visit {project : RowProjection ρ} {rs : List Reading} {number : Nat}
    {rows : List (Driver.Row δ)} {outs : List ρ} {ending : VisitEnd}
    (h : visit (δ := Journal δ) s rs project number rows j = (outs, ending, j')) :
    ∃ calls, j.Adds calls j' ∧ Visits s project rs number rows calls outs ending := by
  induction rows generalizing j number outs with
  | nil =>
      cases h
      exact ⟨[], .refl _, .complete .nil⟩
  | cons row rows ih =>
      unfold visit at h
      split at h <;> rename_i hread <;> obtain ⟨reads, hadds, hreads⟩ := readsRow_readColumns hread
      next =>
        cases h
        exact ⟨reads, hadds, .unread [] rfl .nil hreads⟩
      next =>
        split at h
        next hmessage =>
          cases h
          exact ⟨reads, hadds, .refused [] rfl .nil hreads hmessage⟩
        next hout =>
          cases h
          obtain ⟨calls, hadds', hvisits⟩ := ih rfl
          exact ⟨_, hadds.trans hadds', hvisits.cons hreads hout⟩

/-! ## Executing -/

/-- How the execution of a statement of a plan can end. -/
inductive Fetches (p : Plan σ) (s : Driver.Statement δ) (project : RowProjection ρ) :
    List (Call δ) → Except Error (List ρ) → Prop where
  | unexecuted {fault : DriverFault} : Fetches p s project [.execute s (.error fault)]
      (.error (.resource (p.resourceError .execute fault)))
  | complete {result : ResultSet (Driver.Row δ)} {calls : List (Call δ)} {rows : List ρ} :
      Visits s project p.columns 0 result.rows calls rows .complete → result.failure = none →
      Fetches p s project (.execute s (.ok result) :: calls) (.ok rows)
  /-- The execution fails behind its last row. -/
  | broken {result : ResultSet (Driver.Row δ)} {calls : List (Call δ)} {rows : List ρ}
      {fault : DriverFault} :
      Visits s project p.columns 0 result.rows calls rows .complete → result.failure = some fault →
      Fetches p s project (.execute s (.ok result) :: calls)
        (.error (.resource (p.resourceError .execute fault)))
  | unread {result : ResultSet (Driver.Row δ)} {calls : List (Call δ)} {rows : List ρ}
      {reason fault : DriverFault} :
      Visits s project p.columns 0 result.rows calls rows (.unread reason) →
      Fetches p s project
        (.execute s (.ok result) :: (calls ++ [.interrupt s reason (.error fault)]))
        (.error (.resource (p.resourceError .execute fault)))
  /-- The driver hides that a row could not be read. -/
  | hidden {result : ResultSet (Driver.Row δ)} {calls : List (Call δ)} {rows : List ρ}
      {reason : DriverFault} {d : δ} :
      Visits s project p.columns 0 result.rows calls rows (.unread reason) →
      (Driver.interrupt s reason d).1 = .ok () →
      Fetches p s project (.execute s (.ok result) :: (calls ++ [.interrupt s reason (.ok ())]))
        (.ok rows)
  | refused {result : ResultSet (Driver.Row δ)} {calls : List (Call δ)} {rows : List ρ}
      {number : Nat} {message : String} {answer : Except DriverFault Unit} :
      Visits s project p.columns 0 result.rows calls rows (.refused number message) →
      Fetches p s project (.execute s (.ok result) :: (calls ++ [.interrupt s .aborted answer]))
        (.error (.projection p.flags number message))

theorem Plan.fetches_fetch {p : Plan σ} {project : RowProjection ρ} {r : Except Error (List ρ)}
    (h : p.fetch (δ := Journal δ) s project j = (r, j')) :
    ∃ calls, j.Adds calls j' ∧ Fetches p s project calls r := by
  unfold fetch at h
  dsimp only at h
  split at h
  next hexecute =>
    cases h
    exact ⟨_, Journal.adds_call hexecute, .unexecuted⟩
  next result j₁ hexecute =>
    have hstart := Journal.adds_call hexecute
    split at h <;> rename_i hvisit <;> obtain ⟨calls, hadds, hvisits⟩ := visits_visit hvisit
    next =>
      split at h <;> rename_i hfailure <;> cases h
      · exact ⟨_, hstart.trans hadds, .complete hvisits hfailure⟩
      · exact ⟨_, hstart.trans hadds, .broken hvisits hfailure⟩
    next j₂ =>
      split at h <;> rename_i hinterrupt <;> cases h
      · exact ⟨_, (hstart.trans hadds).trans (Journal.adds_call hinterrupt),
          .hidden (d := j₂.driver) hvisits (congrArg Prod.fst hinterrupt)⟩
      · exact ⟨_, (hstart.trans hadds).trans (Journal.adds_call hinterrupt), .unread hvisits⟩
    next =>
      cases h
      exact ⟨_, (hstart.trans hadds).trans (Journal.adds_call rfl), .refused hvisits⟩

end FlagSelect
