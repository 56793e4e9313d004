import FlagSelect.Proofs.Cache.Ownership
import FlagSelect.Proofs.Cache.Safety
import FlagSelect.Proofs.Storage.Audit

/-!
# No query leaves anything to the next

An executor keeps its statement from one query to the next, and the statement keeps its parameters.
All the same, a query over a database depends on its plan, the record and the host alone: whatever
an executor and the cache around it have been through, it executes the same statement with the same
parameters and comes to the same. Main statement: `Run.isolated`.
-/

namespace FlagSelect.Cache

open Storage

variable {compile : String → Except String Query} {σ ρ : Type} {s : Setup σ ρ} {t t' : Ticket}
  {w w' : World σ (Audit compile)} {c c' : Cache σ (Audit compile)}
  {past past' : List (Cache σ (Audit compile))}

/-- What the queries `x` and `x'` of a record have in common, by executors for one plan in two
caches with the same host. -/
structure Indistinct (plan : Plan σ) (side : Option Value) (record : Object)
    (c c' : Cache σ (Audit compile)) (x x' : Except Error Unit × Cache σ (Audit compile)) :
    Prop where
  outcome : x.1 = x'.1
  host : x.2.world.host = x'.2.world.host
  /-- Whatever has been executed in each cache before, the same is executed now. -/
  left : x.2.world.driver.executed =
    Audit.execution compile plan side record c.world.host ++ c.world.driver.executed
  right : x'.2.world.driver.executed =
    Audit.execution compile plan side record c.world.host ++ c'.world.driver.executed
  /-- The parameters are what the values of the programs are converted to, one for each, where the
  programs start from nothing but the record, the side object and the host. -/
  parameters : ∀ q values m cells, compile plan.sql = .ok q →
    Evaluates ⟨.object record, side⟩ { host := c.world.host } (plan.bindings.map (·.program))
      values m →
    Audit.convert (plan.bindings.zip values) = .ok cells →
    Audit.execution compile plan side record c.world.host = [(plan.sql, cells)] ∧
      cells.length = plan.bindings.length

theorem execution_eq {plan : Plan σ} {side : Option Value} {record : Object} {host : σ}
    {q : Query} {values : List Value} {m : Machine σ} {cells : List Cell}
    (hcompile : compile plan.sql = .ok q)
    (hvalues : Evaluates ⟨.object record, side⟩ { host } (plan.bindings.map (·.program)) values m)
    (hcells : Audit.convert (plan.bindings.zip values) = .ok cells) :
    Audit.execution compile plan side record host = [(plan.sql, cells)] ∧
      cells.length = plan.bindings.length := by
  have hbind : plan.bindValues side record host = (.ok values, m.host) :=
    evalAll_of_evaluates hvalues
  constructor
  · rw [Audit.execution, hcompile, hbind]
    simp only [hcells]
  · rw [Audit.length_of_convert hcells, List.length_zip, Plan.length_of_bindValues hbind,
      Nat.min_self]

/-- Whatever two executors for the same flags have been used for, queries of one record by them
cannot be told apart: they execute the same statement with the same parameters, or both do not, and
leave the same outcome and the same host. -/
theorem Run.isolated [RecordHost σ ρ] (h : Run s w (c :: past)) (h' : Run s w' (c' :: past'))
    (ht : c.Holds t) (ht' : c'.Holds t') (hflags : t'.flags = t.flags)
    (hhost : c'.world.host = c.world.host) (record : Object) :
    ∃ plan, s.template.plan t.flags = .ok plan ∧
      Indistinct plan s.side record c c' (c.query s t record) (c'.query s t' record) := by
  obtain ⟨plan, hplan, hat⟩ := h.planned.made ht.made
  obtain ⟨plan', hplan', hat'⟩ := h'.planned.made ht'.made
  obtain rfl : plan' = plan := by
    rw [hflags, hplan] at hplan'
    exact (Except.ok.inj hplan').symm
  obtain ⟨e, he, heq⟩ := Option.map_eq_some_iff.mp hat
  obtain ⟨e', he', heq'⟩ := Option.map_eq_some_iff.mp hat'
  have hfit := (h.owned Audit.refuses).fit _ e he
  have hfit' := (h'.owned Audit.refuses).fit _ e' he'
  obtain ⟨houtcome, hsame, -⟩ := hfit.query_agree s.side s.project record Audit.refuses hfit'
    (heq'.trans heq.symm) ⟨hhost.symm, rfl⟩
  have hleft := Audit.executed_query (heq.symm ▸ hplan) hfit s.side s.project record
  have hright := Audit.executed_query (heq'.symm ▸ hplan) hfit' s.side s.project record
  rw [heq] at hleft
  rw [heq', hhost] at hright
  refine ⟨_, hplan, ?_⟩
  unfold Cache.query
  rw [he, he']
  exact ⟨houtcome, hsame.host, hleft, hright, fun _ _ _ _ => execution_eq⟩

/-- A database of one table with three rows, which compiles every statement to a query for so many
of them as its first parameter says, behind so many as its second one says. -/
def windowRows (sql : String) : Except String Query :=
  .ok ⟨sql, 2, fun cells =>
    match cells with
    | [.integer n, .integer k] =>
      { rows := (([1, 2, 3].drop k.toInt.toNat).take n.toInt.toNat).map fun x =>
          ⟨[("x", .integer x)]⟩ }
    | _ => { rows := [], failure := some (.engine "datatype mismatch") }⟩

/-- A query for the rows that the record says. -/
def windowQuery : Setup Scripted.Host (List Value) where
  template :=
    ⟨⟨"window", [⟨0, "t", none⟩], [⟨⟨0, ["x"]⟩, .scalar .long⟩], [],
        { limit := some "size", offset := some "skip" }⟩,
      ⟨[(({ name := "Record", hostClass := 3 } : HostType Scripted.Host).addField "size"
        (.scalar .long) (Scripted.Host.getter "size")).addField "skip" (.scalar .long)
        (Scripted.Host.getter "skip")]⟩, .object "Record", none⟩
  side := none
  project := Scripted.projectAll
  settings := {}

/-- Two records, of which the second one says no number of rows to skip. -/
def windowWorld : World Scripted.Host (Audit windowRows) where
  host := ⟨#[{ fields := [("size", .long 2), ("skip", .long 1)] },
    { fields := [("size", .long 3), ("skip", .string "one")] }]⟩
  driver := ⟨{}, []⟩

/-- One executor has bound the first parameter of another record and not the second. The other one
has run a query to its end, has been closed by a reload, and has failed to evaluate. -/
theorem isolated_of_used : ∃ c past c' past' plan,
    Run windowQuery windowWorld (c :: past) ∧ Run windowQuery windowWorld (c' :: past') ∧
    windowQuery.template.plan 0 = .ok plan ∧
    c.world.driver.executed = [] ∧ c'.world.driver.executed.length = 1 ∧
    c.world.driver.database.statements[0]?.map (·.bound) = some [.integer 3] ∧
    (c.query windowQuery ⟨0, 0⟩ ⟨0, 3⟩).2.world.driver.executed.map Prod.snd =
      [[.integer 2, .integer 1]] ∧
    Indistinct plan none ⟨0, 3⟩ c c' (c.query windowQuery ⟨0, 0⟩ ⟨0, 3⟩)
      (c'.query windowQuery ⟨0, 0⟩ ⟨0, 3⟩) := by
  have hlookup := Run.start (s := windowQuery) (w := windowWorld)
    |>.perform (.lookup 0) (show Cache.dropped _ = false by decide +kernel)
  have h := hlookup
    |>.perform (.query ⟨0, 0⟩ ⟨1, 3⟩) (.of_planAt (by decide +kernel) (by decide +kernel))
  have h' := hlookup
    |>.perform (.query ⟨0, 0⟩ ⟨0, 3⟩) (.of_planAt (by decide +kernel) (by decide +kernel))
    |>.perform .reload (show Cache.dropped _ = false by decide +kernel)
    |>.perform (.query ⟨0, 0⟩ ⟨0, 1⟩) (.of_planAt (by decide +kernel) (by decide +kernel))
    |>.perform (.elsewhere windowWorld.host) trivial
  obtain ⟨plan, hplan, hindistinct⟩ := h.isolated h'
    (.of_planAt (t := ⟨0, 0⟩) (by decide +kernel) (by decide +kernel))
    (.of_planAt (t := ⟨0, 0⟩) (by decide +kernel) (by decide +kernel)) rfl (by rfl) ⟨0, 3⟩
  refine ⟨_, _, _, _, plan, h, h', hplan, ?_, ?_, ?_, ?_, hindistinct⟩
  all_goals decide +kernel

end FlagSelect.Cache
