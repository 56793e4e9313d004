import FlagSelect.Proofs.Alignment
import FlagSelect.Proofs.Statement.Evaluation
import FlagSelect.Proofs.Statement.Journal
import FlagSelect.Scripted.Connection

/-!
# The course of a query

Which calls of the driver a query makes, in which order, and what it comes to, for every way in
which the programs, the driver and the projection can fail. Main statement: `Executor.query_course`.
-/

namespace FlagSelect

variable {σ δ ρ : Type} [Driver δ]

/-- How a statement comes to be open: it has been before, or it is prepared. -/
inductive Opens (sql : String) : Option (Driver.Statement δ) → List (Call δ) →
    Except DriverFault (Driver.Statement δ) → Prop where
  | already {s : Driver.Statement δ} : Opens sql (some s) [] (.ok s)
  | prepared {s : Driver.Statement δ} :
      Opens sql none [.acquire (.ok ()), .prepare sql (.ok s)] (.ok s)
  | unacquired {fault : DriverFault} : Opens sql none [.acquire (.error fault)] (.error fault)
  | unprepared {fault : DriverFault} :
      Opens sql none [.acquire (.ok ()), .prepare sql (.error fault)] (.error fault)

/-- How a query by an executor for a plan can go, with the statement `opened` if there is one: the
calls that it makes, the statement that is open after it, the rows that it comes to and the host
when there is nothing left to do but to complete the record. -/
inductive Course (p : Plan σ) (opened : Option (Driver.Statement δ)) (roots : Roots)
    (project : RowProjection ρ) (host : σ) :
    List (Call δ) → Option (Driver.Statement δ) → Except Error (List ρ) → σ → Prop where
  | unevaluated {before after : List (Program σ)} {program : Program σ} {vs : List Value}
      {m : Machine σ} {fault : EvalFault} {host' : σ} :
      p.bindings.map (·.program) = before ++ program :: after →
      Evaluates roots { host } before vs m → m.eval roots program = .error (fault, host') →
      Course p opened roots project host [] opened
        (.error (.ofEvalFault p.flags program.directive fault)) host'
  | unopened {vs : List Value} {m : Machine σ} {opening : List (Call δ)} {fault : DriverFault} :
      Evaluates roots { host } (p.bindings.map (·.program)) vs m →
      Opens p.sql opened opening (.error fault) →
      Course p opened roots project host opening opened
        (.error (.resource (p.resourceError .prepare fault))) m.host
  | unbound {vs : List Value} {m : Machine σ} {opening binding : List (Call δ)}
      {s : Driver.Statement δ} {fault : DriverFault} :
      Evaluates roots { host } (p.bindings.map (·.program)) vs m →
      Opens p.sql opened opening (.ok s) →
      Binds s (p.bindings.zip vs) binding (.error fault) →
      Course p opened roots project host (opening ++ binding) (some s)
        (.error (.resource (p.resourceError .bind fault))) m.host
  | fetched {vs : List Value} {m : Machine σ} {opening binding fetching : List (Call δ)}
      {s : Driver.Statement δ} {result : Except Error (List ρ)} :
      Evaluates roots { host } (p.bindings.map (·.program)) vs m →
      Opens p.sql opened opening (.ok s) →
      Binds s (p.bindings.zip vs) binding (.ok ()) →
      Fetches p s project fetching result →
      Course p opened roots project host (opening ++ binding ++ fetching) (some s) result m.host

/-- What a query leaves of its course. -/
structure Leaves [RecordHost σ ρ] (e : Executor σ (Journal δ)) (record : Object)
    (w : World σ (Journal δ)) (calls : List (Call δ)) (statement : Option (Driver.Statement δ))
    (result : Except Error (List ρ)) (host : σ) (r : Step σ (Journal δ) Unit) : Prop where
  outcome : r.outcome = result.map fun _ => ()
  executor : r.executor = { e with statement }
  calls : w.driver.Adds calls r.world.driver
  /-- The record is completed once, with all rows, or not at all. -/
  host : r.world.host = match result with
    | .ok rows => RecordHost.complete host record rows
    | .error _ => host

/-- Whether a driver tells the reason for which a visit of rows has ended, and tells it
unchanged. -/
def Frank (δ : Type) [Driver δ] : Prop :=
  ∀ (s : Driver.Statement δ) (fault : DriverFault) (d : δ),
    (Driver.interrupt s fault d).1 = .error fault

/-- Whether rows are those of an execution that has come to its end. -/
def Fetched (p : Plan σ) (project : RowProjection ρ) (calls : List (Call δ)) (rows : List ρ) :
    Prop :=
  ∃ s results reads, Call.execute s (.ok results) ∈ calls ∧ results.failure = none ∧
    Projects s project p.columns results.rows reads rows

theorem Fetches.fetched {p : Plan σ} {s : Driver.Statement δ} {project : RowProjection ρ}
    {calls : List (Call δ)} {rows : List ρ} (h : Fetches p s project calls (.ok rows))
    (hfrank : Frank δ) : Fetched p project calls rows := by
  cases h with
  | complete hvisits hfailure =>
      cases hvisits with
      | complete hprojects => exact ⟨s, _, _, List.mem_cons_self, hfailure, hprojects⟩
  | hidden _ hanswer =>
      rw [hfrank] at hanswer
      cases hanswer

/-- With a frank driver, whoever gets rows gets all of them. -/
theorem Course.fetched_of_ok {p : Plan σ} {opened statement : Option (Driver.Statement δ)}
    {roots : Roots} {project : RowProjection ρ} {host host' : σ} {calls : List (Call δ)}
    {rows : List ρ} (h : Course p opened roots project host calls statement (.ok rows) host')
    (hfrank : Frank δ) : Fetched p project calls rows := by
  cases h with
  | fetched _ _ _ hfetches =>
      obtain ⟨s, results, reads, hmem, hfetched⟩ := hfetches.fetched hfrank
      exact ⟨s, results, reads, List.mem_append_right _ hmem, hfetched⟩

/-- Whether placeholders are numbered from one and columns from zero, both in their order. -/
structure Plan.Numbered (p : Plan σ) : Prop where
  index : ∀ (k : Nat) (b : Binding σ), p.bindings[k]? = some b → b.index = k + 1
  column : ∀ (k : Nat) (r : Reading), p.columns[k]? = some r → r.column = k

theorem Template.plan_numbered {t : Template σ} {flags : Flags} {p : Plan σ}
    (h : t.plan flags = .ok p) : p.Numbered where
  index := plan_index h
  column k r hr := by
    obtain ⟨head, -, h⟩ := Directive.bind_eq_ok.mp h
    obtain ⟨⟨sql, programs⟩, -, h⟩ := Directive.bind_eq_ok.mp h
    cases h
    simp only [Descriptor.readings, List.getElem?_map, List.getElem?_zipIdx,
      Option.map_eq_some_iff] at hr
    obtain ⟨⟨projection, i⟩, ⟨projection', -, hi⟩, rfl⟩ := hr
    cases hi
    exact Nat.zero_add k

namespace Executor

variable {e : Executor σ (Journal δ)} {w : World σ (Journal δ)}

theorem opens_ensure : ∃ (o : Except DriverFault (Driver.Statement δ)) (opening : List (Call δ)),
    Opens (δ := δ) e.plan.sql e.statement opening o ∧
      w.driver.Adds opening (e.ensure w).world.driver ∧ (e.ensure w).world.host = w.host ∧
      match o with
      | .ok s => (e.ensure w).outcome = .ok s ∧
          (e.ensure w).executor = { e with statement := some s }
      | .error fault =>
          (e.ensure w).outcome = .error (.resource (e.plan.resourceError .prepare fault)) ∧
            (e.ensure w).executor = e := by
  unfold ensure
  split
  next s hs =>
    refine ⟨.ok s, [], hs ▸ .already, .refl _, rfl, rfl, ?_⟩
    cases e
    cases hs
    rfl
  next hnone =>
    dsimp only
    split
    next hacquire =>
      exact ⟨.error _, _, hnone ▸ .unacquired, Journal.adds_call hacquire, rfl, rfl, rfl⟩
    next hacquire =>
      have hacquired := Journal.adds_call hacquire
      split
      next hprepare =>
        exact ⟨.error _, _, hnone ▸ .unprepared, hacquired.trans (Journal.adds_call hprepare), rfl,
          rfl, rfl⟩
      next hprepare =>
        exact ⟨.ok _, _, hnone ▸ .prepared, hacquired.trans (Journal.adds_call hprepare), rfl, rfl,
          rfl⟩

theorem course_query [RecordHost σ ρ] (e : Executor σ (Journal δ)) (side : Option Value)
    (project : RowProjection ρ) (record : Object) (w : World σ (Journal δ)) :
    ∃ calls statement result host,
      Course (δ := δ) e.plan e.statement ⟨.object record, side⟩ project w.host calls statement
        result host ∧
      Leaves e record w calls statement result host (e.query side project record w) := by
  unfold query
  split
  next err host hvalues =>
    obtain ⟨before, program, after, vs, m, fault, hprograms, hbefore, hfault, rfl⟩ :=
      evalAll_eq_error hvalues
    refine ⟨_, _, _, _, .unevaluated hprograms hbefore hfault, rfl, ?_, .refl _, rfl⟩
    cases e
    rfl
  next vs host hvalues =>
    obtain ⟨m, hevaluates, rfl⟩ := evaluates_of_evalAll hvalues
    obtain ⟨o, opening, hopens, hadds, hhost, hstep⟩ :=
      opens_ensure (e := e) (w := { w with host := m.host })
    generalize e.ensure { w with host := m.host } = r at hadds hhost hstep ⊢
    obtain ⟨outcome, executor, w₁⟩ := r
    dsimp only at hadds hhost hstep
    cases o with
    | error fault =>
        obtain ⟨rfl, rfl⟩ := hstep
        exact ⟨_, _, _, _, .unopened hevaluates hopens, rfl, rfl, hadds, hhost⟩
    | ok s =>
        obtain ⟨rfl, rfl⟩ := hstep
        dsimp only
        split <;> rename_i hbind <;> obtain ⟨binding, hbound, hbinds⟩ := binds_bindAll hbind
        next =>
          exact ⟨_, _, _, _, .unbound hevaluates hopens hbinds, rfl, rfl, hadds.trans hbound, hhost⟩
        next =>
          split <;> rename_i hfetch <;>
            obtain ⟨fetching, hfetched, hfetches⟩ := Plan.fetches_fetch hfetch
          next =>
            exact ⟨_, _, _, _, .fetched hevaluates hopens hbinds hfetches, rfl, rfl,
              (hadds.trans hbound).trans hfetched, hhost⟩
          next =>
            refine ⟨_, _, _, _, .fetched hevaluates hopens hbinds hfetches, rfl, rfl,
              (hadds.trans hbound).trans hfetched, ?_⟩
            exact congrArg (RecordHost.complete · record _) hhost

/-- A query makes the calls of one of the courses, and leaves what that comes to. Placeholders are
bound from the first to the last, columns are read from the first to the last, and rows that the
record is completed with are all rows, unless the driver hides a failure. -/
theorem query_course [RecordHost σ ρ] {t : Template σ} {flags : Flags}
    (hplan : t.plan flags = .ok e.plan) (side : Option Value) (project : RowProjection ρ)
    (record : Object) (w : World σ (Journal δ)) :
    e.plan.Numbered ∧ ∃ calls statement result host,
      Course (δ := δ) e.plan e.statement ⟨.object record, side⟩ project w.host calls statement
        result host ∧
      Leaves e record w calls statement result host (e.query side project record w) ∧
      (Frank δ → ∀ rows, result = .ok rows → Fetched e.plan project calls rows) := by
  obtain ⟨calls, statement, result, host, hcourse, hleaves⟩ :=
    course_query e side project record w
  refine ⟨Template.plan_numbered hplan, calls, statement, result, host, hcourse, hleaves, ?_⟩
  rintro hfrank rows rfl
  exact hcourse.fetched_of_ok hfrank

/-- A query for so many rows as the record says. -/
def limitedTemplate : Template Scripted.Host :=
  ⟨⟨"limited", [⟨0, "t", none⟩], [⟨⟨0, ["x"]⟩, .scalar .long⟩], [], { limit := some "size" }⟩,
    ⟨[({ name := "Record", hostClass := 4 } : HostType Scripted.Host).addField "size"
      (.scalar .long) (Scripted.Host.getter "size")]⟩, .object "Record", none⟩

/-- A record that asks for two rows, of which the second one is refused. -/
def refusingWorld : World Scripted.Host (Journal Scripted.Connection) where
  host := ⟨#[{ flags := 0, fields := [("size", .long 2)] }]⟩
  driver := ⟨{ rows := [[.long 1], [.long (-1)]] }, []⟩

/-- The number of calls of a query for the record, and its outcome. -/
def refusing : Option (Nat × Except Error Unit) :=
  (limitedTemplate.plan 0).toOption.map fun plan =>
    let r := ({ plan } : Executor Scripted.Host (Journal Scripted.Connection)).query none
      Scripted.projectNaturals ⟨0, 4⟩ refusingWorld
    (r.world.driver.calls.length, r.outcome)

theorem query_course_refused : ∃ plan, limitedTemplate.plan 0 = .ok plan ∧ plan.Numbered ∧
    ∃ calls statement host,
      Course (δ := Scripted.Connection) plan none ⟨.object ⟨0, 4⟩, none⟩ Scripted.projectNaturals
        refusingWorld.host calls statement (.error (.projection 0 1 "rejected -1")) host ∧
      calls.length = 7 := by
  have hrefused : refusing = some (7, .error (.projection 0 1 "rejected -1")) := by
    decide +kernel
  cases h : limitedTemplate.plan 0 with
  | error err =>
      rw [refusing, h] at hrefused
      cases hrefused
  | ok plan =>
      rw [refusing, h] at hrefused
      obtain ⟨hlength, houtcome⟩ := Prod.mk.inj (Option.some.inj hrefused)
      obtain ⟨hnumbered, calls, statement, result, host, hcourse, hleaves, -⟩ :=
        query_course (e := { plan }) h none Scripted.projectNaturals ⟨0, 4⟩ refusingWorld
      have hresult := hleaves.outcome.symm.trans houtcome
      have hcalls := congrArg List.length hleaves.calls
      cases result with
      | ok rows => cases hresult
      | error err =>
          cases hresult
          refine ⟨plan, rfl, hnumbered, calls, statement, host, hcourse, ?_⟩
          rw [hlength, List.length_append, List.length_reverse] at hcalls
          exact hcalls.symm

end Executor

end FlagSelect
