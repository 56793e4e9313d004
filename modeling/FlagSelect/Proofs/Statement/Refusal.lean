import FlagSelect.Proofs.Statement.Contract

/-!
# Texts that a driver refuses

Where a driver refuses a text for good, an executor for the text never has a statement, so that its
queries come to the same as well. Main statement: `Executor.Fit.query_agree`.
-/

namespace FlagSelect

variable {σ δ ρ : Type} [Driver δ] {C : Contract δ} {refusal : String → DriverFault}

variable (C) in
/-- Whether all texts that are not accepted are refused, each with a fault of its own. -/
def Contract.Refuses (refusal : String → DriverFault) : Prop :=
  ∀ (sql : String) (d : δ), ¬ C.accepts sql → Driver.prepare sql d = (.error (refusal sql), d)

namespace Executor

variable {e e' : Executor σ δ} {d d' : δ} {w w' : World σ δ}

variable (C) in
/-- Whether an executor is ready, and has a statement only if its text is accepted. -/
structure Fit (e : Executor σ δ) (d : δ) : Prop where
  ready : e.Ready C d
  accepted : ∀ st, e.statement = some st → C.accepts e.plan.sql

theorem Fit.of_none (h : e.statement = none) : e.Fit C d where
  ready st hst := by rw [h] at hst; cases hst
  accepted st hst := by rw [h] at hst; cases hst

theorem Fit.statement_eq_none (h : e.Fit C d) (hrefused : ¬ C.accepts e.plan.sql) :
    e.statement = none := by
  cases hst : e.statement with
  | none => rfl
  | some st => exact absurd (h.accepted st hst) hrefused

theorem Handles.fit (h : Handles C e d e' d') (haccepts : C.accepts e.plan.sql) : e'.Fit C d' :=
  ⟨h.ready, fun _ _ => h.plan ▸ haccepts⟩

theorem Handles.of_refused (hopened : C.opened d' = C.opened d) (hst : e.statement = none) :
    Handles C e d e d' where
  plan := rfl
  ready := (Fit.of_none hst).ready
  own _ := .inl
  others _ _ _ := congrFun hopened _

theorem ensure_refused (hrefuses : C.Refuses refusal) (hrefused : ¬ C.accepts e.plan.sql)
    (hst : e.statement = none) (w : World σ δ) :
    ∃ w', e.ensure w =
        ⟨.error (.resource (e.plan.resourceError .prepare (refusal e.plan.sql))), e, w'⟩ ∧
      C.Same w w' ∧ C.opened w'.driver = C.opened w.driver := by
  obtain ⟨d, hacquire, hstore, hopened⟩ := C.acquire_spec w.driver
  unfold ensure
  simp only [hst, hacquire, hrefuses e.plan.sql d hrefused]
  exact ⟨_, rfl, ⟨rfl, hstore.symm⟩, hopened⟩

theorem Fit.close (h : e.Fit C w.driver) :
    Handles C e w.driver (e.close w).2.1 (e.close w).2.2.driver ∧
      (e.close w).2.1.Fit C (e.close w).2.2.driver := by
  obtain ⟨hhandles, -⟩ := close_handles h.ready
  refine ⟨hhandles, ⟨hhandles.ready, fun st hst => ?_⟩⟩
  rw [hhandles.plan]
  rcases hown : e.statement with _ | st'
  · simp [Executor.close, hown] at hst
  · exact h.accepted st' hown

theorem Fit.prepare (hrefuses : C.Refuses refusal) (h : e.Fit C w.driver) :
    Handles C e w.driver (e.prepare w).executor (e.prepare w).world.driver ∧
      (e.prepare w).executor.Fit C (e.prepare w).world.driver := by
  by_cases haccepts : C.accepts e.plan.sql
  · obtain ⟨hhandles, -⟩ := prepare_handles haccepts h.ready
    exact ⟨hhandles, hhandles.fit haccepts⟩
  · have hst := h.statement_eq_none haccepts
    obtain ⟨w', hens, -, hopened⟩ := ensure_refused hrefuses haccepts hst w
    rw [Executor.prepare, hens]
    exact ⟨.of_refused hopened hst, .of_none hst⟩

/-- A query for a text that is refused comes to no more than evaluating the programs. -/
theorem query_refused [RecordHost σ ρ] (side : Option Value) (project : RowProjection ρ)
    (record : Object) (hrefuses : C.Refuses refusal) (hrefused : ¬ C.accepts e.plan.sql)
    (hst : e.statement = none) (w : World σ δ) :
    ∃ w', e.query side project record w =
        ⟨(e.plan.bindValues side record w.host).1.bind fun _ =>
          .error (.resource (e.plan.resourceError .prepare (refusal e.plan.sql))), e, w'⟩ ∧
      C.Same { w with host := (e.plan.bindValues side record w.host).2 } w' ∧
      C.opened w'.driver = C.opened w.driver := by
  unfold query
  rcases e.plan.bindValues side record w.host with ⟨err | values, host⟩
  · exact ⟨_, rfl, .refl _, rfl⟩
  · obtain ⟨w', hens, hsame, hopened⟩ := ensure_refused hrefuses hrefused hst { w with host }
    simp only [hens]
    exact ⟨_, rfl, hsame, hopened⟩

/-- Queries by two fit executors for one plan come to the same, whether or not its text is
accepted. -/
theorem Fit.query_agree [RecordHost σ ρ] (side : Option Value) (project : RowProjection ρ)
    (record : Object) (hrefuses : C.Refuses refusal) (h : e.Fit C w.driver)
    (h' : e'.Fit C w'.driver) (hplan : e'.plan = e.plan) (hw : C.Same w w') :
    (e.query side project record w).outcome = (e'.query side project record w').outcome ∧
      C.Same (e.query side project record w).world (e'.query side project record w').world ∧
      Handles C e w.driver (e.query side project record w).executor
        (e.query side project record w).world.driver ∧
      (e.query side project record w).executor.Fit C
        (e.query side project record w).world.driver := by
  by_cases haccepts : C.accepts e.plan.sql
  · obtain ⟨houtcome, hsame, hhandles⟩ :=
      Executor.query_agree side project record hplan haccepts h.ready h'.ready hw
    exact ⟨houtcome, hsame, hhandles, hhandles.fit haccepts⟩
  · have hst := h.statement_eq_none haccepts
    have hst' := h'.statement_eq_none (hplan ▸ haccepts)
    obtain ⟨w₁, hquery, hsame, hopened⟩ :=
      query_refused side project record hrefuses haccepts hst w
    obtain ⟨w₁', hquery', hsame', -⟩ :=
      query_refused side project record hrefuses (hplan ▸ haccepts) hst' w'
    rw [hquery, hquery']
    rw [hplan, ← hw.host] at *
    refine ⟨rfl, (hsame.symm.trans ?_).trans hsame', .of_refused hopened hst, .of_none hst⟩
    exact ⟨rfl, hw.store⟩

end Executor

end FlagSelect
