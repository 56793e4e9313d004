import FlagSelect.Proofs.Cache.Lifetime
import FlagSelect.Proofs.Cache.Lookup
import FlagSelect.Proofs.Cache.Order
import FlagSelect.Proofs.Cache.Run
import FlagSelect.Proofs.Statement.Evaluation

/-!
# No fatal errors

Executors have the plans of their template, so that nothing done with a cache breaks a rule of the
library. Main statement: `Run.harmless`.
-/

namespace FlagSelect

variable {σ δ ρ : Type} [Driver δ]

theorem Blueprint.setup_ok {b : Blueprint σ ρ} {s : Setup σ ρ} (h : b.setup = .ok s) :
    s.template.descriptor = b.descriptor ∧
      s.template.scope.side = b.side.map (fun side => .object side.1) ∧
      s.side = b.side.map (·.2) := by
  unfold setup at h
  dsimp only at h
  split at h
  · cases h
  split at h
  · split at h
    · split at h
      · cases h
      split at h
      · split at h
        · cases h
        · cases h; exact ⟨rfl, rfl, rfl⟩
      · cases h; exact ⟨rfl, rfl, rfl⟩
    · cases h
  · cases h

namespace Executor

variable {e : Executor σ δ} {w : World σ δ}

theorem ensure_harmless : Harmless (e.ensure w).outcome := by
  unfold ensure
  intro err herr
  split at herr
  · cases herr
  split at herr
  · cases herr; rfl
  split at herr <;> cases herr
  rfl

theorem prepare_harmless : Harmless (e.prepare w).outcome := by
  intro err herr
  cases hr : (e.ensure w).outcome with
  | ok _ =>
      simp only [prepare, hr] at herr
      cases herr
  | error err' =>
      simp only [prepare, hr] at herr
      cases herr
      exact ensure_harmless err hr

theorem fetch_harmless {p : Plan σ} {s : Driver.Statement δ} {project : RowProjection ρ} {d : δ} :
    Harmless (p.fetch s project d).1 := by
  intro err herr
  unfold Plan.fetch at herr
  dsimp only at herr
  split at herr
  · cases herr; rfl
  split at herr
  · split at herr <;> cases herr
    rfl
  · split at herr <;> cases herr
    rfl
  · cases herr; rfl

theorem query_harmless [RecordHost σ ρ] {side : Option Value} {project : RowProjection ρ}
    {record : Object} (h : Harmless (e.plan.bindValues side record w.host).1) :
    Harmless (e.query side project record w).outcome := by
  intro err herr
  unfold query at herr
  split at herr
  · next err' host hvalues =>
      cases herr
      exact h err (by rw [hvalues])
  · next values host hvalues =>
      have hensure := ensure_harmless (e := e) (w := { w with host })
      split at herr <;> rename_i heq <;> rw [heq] at hensure
      · cases herr; exact hensure err rfl
      split at herr
      · cases herr; rfl
      dsimp only at herr
      split at herr
      · next err' d hfetch =>
          cases herr
          exact fetch_harmless err (by rw [hfetch])
      · cases herr

end Executor

namespace Cache

variable {s : Setup σ ρ} {c : Cache σ δ} {t : Ticket} {flags : Flags} {record : Object}

/-- Whether every executor has the plan that the template has for its flags. -/
def Planned (s : Setup σ ρ) (c : Cache σ δ) : Prop :=
  ∀ k p, planAt c.executors k = some p → s.template.plan p.flags = .ok p

theorem Planned.congr {c' : Cache σ δ} (h : Planned s c)
    (hplans : planAt c'.executors = planAt c.executors) : Planned s c' := by
  intro k p hp
  rw [hplans] at hp
  exact h k p hp

theorem Planned.made (h : Planned s c) (ht : c.Made t) :
    ∃ plan, s.template.plan t.flags = .ok plan ∧ planAt c.executors t.number = some plan := by
  obtain ⟨plan, hplan, hflags⟩ := ht
  exact ⟨plan, hflags ▸ h t.number plan hplan, hplan⟩

theorem Planned.enlist {plan : Plan σ} (h : Planned s c)
    (hplan : s.template.plan flags = .ok plan) : Planned s (c.enlist flags plan) := by
  intro k p hp
  simp only [planAt, enlist_frame, Array.getElem?_push] at hp
  split at hp
  · cases hp
    rw [(Template.plan_ok hplan).1]
    exact hplan
  · exact h k p hp

theorem Planned.synthesis {r : Except Error Ticket × Cache σ δ} (h : Planned s c)
    (hr : Synthesis s c flags r) : Planned s r.2 := by
  cases hr with
  | noPlan _ => exact h
  | unprepared hplan _ _ => exact (h.enlist hplan).congr (by simp)
  | prepared hplan _ _ => exact (h.enlist hplan).congr (by simp)
  | postponed hplan _ => exact (h.enlist hplan).congr (by simp)

theorem Planned.lookup (h : Planned s c) (flags : Flags) : Planned s (c.lookup s flags).2 := by
  have hdrain : Planned s c.drain := h.congr (by simp)
  have hlookup := lookup_spec c s flags
  generalize c.lookup s flags = r at hlookup
  cases hlookup with
  | hit _ => exact hdrain.congr (by simp [hold])
  | failed _ hsyn => exact hdrain.synthesis hsyn
  | made _ hsyn => exact (hdrain.synthesis hsyn).congr (by simp)

theorem Planned.handle [RecordHost σ ρ] (h : Planned s c) : Planned s (c.handle s record).2 := by
  have hlookup := h.lookup (RecordHost.flags c.world.host record)
  unfold Cache.handle
  split <;> rename_i heq <;> rw [heq] at hlookup
  · exact hlookup
  · exact hlookup.congr (by simp)

theorem Planned.perform [RecordHost σ ρ] (h : Planned s c) (op : Operation σ) :
    Planned s (op.perform s c) := by
  cases op with
  | lookup flags => exact h.lookup flags
  | handle record => exact h.handle
  | reload => exact h.congr (by simp [Operation.perform])
  | drop => exact h.congr (by simp [Operation.perform])
  | pin t => exact h.congr rfl
  | unpin t => exact h.congr (by simp [Operation.perform])
  | prepare t => exact h.congr (by simp [Operation.perform])
  | query t record => exact h.congr (by simp [Operation.perform])
  | bindValues t record => exact h.congr (by simp [Operation.perform])
  | elsewhere host => exact h.congr rfl

theorem Run.planned [RecordHost σ ρ] {w : World σ δ} {past : List (Cache σ δ)}
    (h : Run s w (c :: past)) : Planned s c := by
  refine Run.invariant (P := Planned s) ?_ (fun c op hc _ => hc.perform op) h
  intro k p hp
  simp [planAt, Cache.start, empty] at hp

/-! ## Outcomes -/

theorem prepare_harmless : Harmless (c.prepare t).1 := by
  unfold prepare
  split
  · exact fun _ h => by cases h
  · exact Executor.prepare_harmless

theorem reload_harmless : Harmless c.reload.1 := by
  unfold reload
  intro err herr
  dsimp only at herr
  split at herr <;> cases herr
  rfl

/-- A setup whose plans can only be missing for want of a program, and never break a rule. -/
structure Sound (s : Setup σ ρ) : Prop where
  joinable : s.template.descriptor.Joinable
  side : s.template.scope.side.isSome → s.side.isSome

theorem Sound.plan (h : Sound s) : Harmless (s.template.plan flags) := by
  intro err herr
  obtain ⟨sql, element, fault, rfl⟩ := Template.plan_error h.joinable herr
  rfl

theorem Sound.synthesis (h : Sound s) {r : Except Error Ticket × Cache σ δ}
    (hr : Synthesis s c flags r) : Harmless r.1 := by
  cases hr with
  | noPlan hplan => exact fun err herr => by cases herr; exact h.plan _ hplan
  | unprepared _ _ hprepare =>
      exact fun err herr => by cases herr; exact prepare_harmless _ hprepare
  | prepared _ _ _ => exact fun _ herr => by cases herr
  | postponed _ _ => exact fun _ herr => by cases herr

theorem Sound.lookup (h : Sound s) (flags : Flags) : Harmless (c.lookup s flags).1 := by
  have hlookup := lookup_spec c s flags
  generalize c.lookup s flags = r at hlookup
  cases hlookup with
  | hit _ => exact fun _ herr => by cases herr
  | failed _ hsyn => exact h.synthesis hsyn
  | made _ _ => exact fun _ herr => by cases herr

theorem Sound.bindValues (h : Sound s) (hc : Planned s c) :
    Harmless (c.bindValues s t record).1 := by
  unfold Cache.bindValues
  split
  · exact fun _ herr => by cases herr
  · next e he =>
      have hplan := hc t.number e.plan (by simp [planAt, he])
      exact Template.bindValues_harmless hplan h.side record c.world.host

theorem Sound.query [RecordHost σ ρ] (h : Sound s) (hc : Planned s c) :
    Harmless (c.query s t record).1 := by
  unfold Cache.query
  split
  · exact fun _ herr => by cases herr
  · next e he =>
      have hplan := hc t.number e.plan (by simp [planAt, he])
      exact Executor.query_harmless (Template.bindValues_harmless hplan h.side record c.world.host)

theorem Sound.handle [RecordHost σ ρ] (h : Sound s) (hc : Planned s c) :
    Harmless (c.handle s record).1 := by
  have hlookup := h.lookup (c := c) (RecordHost.flags c.world.host record)
  have hplanned := hc.lookup (RecordHost.flags c.world.host record)
  unfold Cache.handle
  split <;> rename_i heq <;> rw [heq] at hlookup hplanned
  · exact fun err herr => by cases herr; exact hlookup _ rfl
  · exact h.query hplanned

theorem sound_of_setup {b : Blueprint σ ρ} {name : String} {ds : List Declaration}
    (hb : Descriptor.ofDeclarations name ds = .ok b.descriptor) (hs : b.setup = .ok s) :
    Sound s := by
  obtain ⟨hdescriptor, hscope, hside⟩ := Blueprint.setup_ok hs
  refine ⟨?_, ?_⟩
  · rw [hdescriptor]
    exact Descriptor.joinable_of_ofDeclarations hb
  · simp [hscope, hside]

/-- Whatever the host and the driver do, no operation on a cache over an accepted descriptor has a
fatal error for its outcome, no plan is missing for want of a join, and the programs of a plan, one
after the other on a fresh machine, never break the machine's rules. -/
theorem Run.harmless [RecordHost σ ρ] {b : Blueprint σ ρ} {name : String} {ds : List Declaration}
    {w : World σ δ} {past : List (Cache σ δ)}
    (hb : Descriptor.ofDeclarations name ds = .ok b.descriptor) (hs : b.setup = .ok s)
    (h : Run s w (c :: past)) :
    (∀ flags, Harmless (c.lookup s flags).1) ∧ (∀ record, Harmless (c.handle s record).1) ∧
    Harmless c.reload.1 ∧ (∀ t, Harmless (c.prepare t).1) ∧
    (∀ t record, Harmless (c.bindValues s t record).1) ∧
    (∀ t record, Harmless (c.query s t record).1) ∧
    (∀ flags, Harmless (s.template.plan flags)) ∧
    ∀ flags plan, s.template.plan flags = .ok plan → ∀ record host,
      ∀ r ∈ ({ host } : Machine σ).evalEach ⟨.object record, s.side⟩
        (plan.bindings.map (·.program)), ∀ cause host', r ≠ .error (.breach cause, host') := by
  have hsound := sound_of_setup hb hs
  have hplanned := h.planned
  refine ⟨fun flags => hsound.lookup flags, fun _ => hsound.handle hplanned, reload_harmless,
    fun _ => prepare_harmless, fun _ _ => hsound.bindValues hplanned,
    fun _ _ => hsound.query hplanned, fun _ => hsound.plan, ?_⟩
  intro flags plan hplan record host r hr cause host' hbreach
  have hfault := Template.evalEach_harmless hplan ⟨.object record, s.side⟩ hsound.side r hr
  rw [hbreach] at hfault
  exact hfault trivial

/-- A table, a table joined to it, and a limit that the offset takes over. -/
def pagedDeclarations : List Declaration :=
  [.primary "t", .join 1 "u" ⟨0, "id", "t"⟩, .select ⟨0, ["x"]⟩ (.scalar .long), .limit "^>1",
    .offset "<1?"]

/-- The query of `pagedDeclarations` with a side object. -/
def pagedQuery : Blueprint Scripted.Host (List Value) where
  descriptor :=
    ⟨"paged", [⟨0, "t", none⟩, ⟨1, "u", some ⟨0, "id", "t"⟩⟩], [⟨⟨0, ["x"]⟩, .scalar .long⟩], [],
      { limit := some "^>1", offset := some "<1?" }⟩
  schema := ⟨[{ name := "Record", hostClass := 0 }, { name := "Limits", hostClass := 1 }]⟩
  recordType := some "Record"
  side := some ("Limits", .object ⟨1, 1⟩)
  project := some Scripted.projectAll

/-- What `pagedQuery` sets up. -/
def pagedSetup : Setup Scripted.Host (List Value) where
  template := ⟨pagedQuery.descriptor, pagedQuery.schema, .object "Record", some (.object "Limits")⟩
  side := some (.object ⟨1, 1⟩)
  project := Scripted.projectAll
  settings := {}

/-- An executor that has outlived its cache still has no fatal outcome. -/
theorem harmless_of_outlived :
    ∃ c past, pagedQuery.setup = .ok pagedSetup ∧ Run pagedSetup stubbornWorld (c :: past) ∧
      c.dropped = true ∧ (planAt c.executors 0).isSome ∧
      ∀ record, Harmless (c.query pagedSetup ⟨0, 0⟩ record).1 := by
  have hsorted : (pagedDeclarations.foldl Draft.declare {}).tables.mergeSort
      (fun a b => a.id ≤ b.id) = pagedQuery.descriptor.tables := by
    simp [pagedDeclarations, pagedQuery, Draft.declare, List.mergeSort]
  have hb : Descriptor.ofDeclarations "paged" pagedDeclarations = .ok pagedQuery.descriptor := by
    rw [Descriptor.ofDeclarations, Draft.descriptor, hsorted]
    rfl
  have hs : pagedQuery.setup = .ok pagedSetup := rfl
  have h := Run.start (s := pagedSetup) (w := stubbornWorld)
    |>.perform (.lookup 0) rfl
    |>.perform .drop rfl
  exact ⟨_, _, hs, h, rfl, rfl, (h.harmless hb hs).2.2.2.2.2.1 ⟨0, 0⟩⟩

end Cache

end FlagSelect
