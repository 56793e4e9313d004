import FlagSelect.Proofs.Cache.Layout
import FlagSelect.Proofs.Cache.Moves
import FlagSelect.Proofs.Statement.Refusal

/-!
# Every executor has a statement of its own

Over a driver that keeps its contract, no two executors of a cache ever have the same statement, and
each statement is open for the plan of its executor, whatever texts the driver refuses. Main
statement: `Run.owned`.
-/

namespace FlagSelect.Cache

variable {σ δ ρ : Type} [Driver δ] {C : Contract δ} {refusal : String → DriverFault}
  {c c' : Cache σ δ} {s : Setup σ ρ} {t : Ticket} {k : Nat} {e e' : Executor σ δ} {w : World σ δ}
  {flags : Flags}

/-- Whether each executor is fit for its next query, with a statement that is its own. -/
structure Owned (C : Contract δ) (c : Cache σ δ) : Prop where
  fit : ∀ (k : Nat) (e : Executor σ δ), c.executors[k]? = some e → e.Fit C c.world.driver
  sole : ∀ (j k : Nat) (e e' : Executor σ δ) (st : Driver.Statement δ),
    c.executors[j]? = some e → c.executors[k]? = some e' →
    e.statement = some st → e'.statement = some st → j = k

theorem Owned.congr (h : Owned C c) (hexecutors : c'.executors = c.executors)
    (hdriver : c'.world.driver = c.world.driver) : Owned C c' where
  fit k e he := hdriver ▸ h.fit k e (hexecutors ▸ he)
  sole j k e e' st he he' := h.sole j k e e' st (hexecutors ▸ he) (hexecutors ▸ he')

/-- An executor that does not touch the statements of others leaves each with its own. -/
theorem Owned.update (h : Owned C c) (he : c.executors[k]? = some e)
    (hk : Executor.Handles C e c.world.driver e' w.driver) (hfit : e'.Fit C w.driver) :
    Owned C (c.update k e' w) := by
  have hopen {j : Nat} {e : Executor σ δ} {st : Driver.Statement δ}
      (he : c.executors[j]? = some e) (hst : e.statement = some st) :
      C.opened c.world.driver st ≠ none := by
    obtain ⟨p, hopened, -⟩ := (h.fit j e he).ready st hst
    rw [hopened]
    exact Option.some_ne_none _
  -- Whatever statement it has then, it had before or nobody did, so that it is no one else's.
  have hother {j : Nat} {u : Executor σ δ} (hj : k ≠ j) (hu : c.executors[j]? = some u)
      (st : Driver.Statement δ) (hst : u.statement = some st) : e'.statement ≠ some st := by
    intro hst'
    rcases hk.own st hst' with hown | hnone
    · exact hj (h.sole k j e u st he hu hown hst)
    · exact hopen hu hst hnone
  constructor
  case fit =>
    intro j u hu
    rw [getElem?_update he] at hu
    split at hu
    · cases hu
      exact hfit
    next hj =>
      refine ⟨fun st hst => ?_, (h.fit j u hu).accepted⟩
      have hne (heq : e.statement = some st) : False := hj (h.sole k j e u st he hu heq hst)
      obtain ⟨p, hopened, hbound⟩ := (h.fit j u hu).ready st hst
      exact ⟨p, (hk.others st (hopen hu hst) hne).trans hopened, hbound⟩
  case sole =>
    intro i j u v st hu hv hst hst'
    rw [getElem?_update he] at hu hv
    split at hu <;> split at hv
    next hi hj => exact hi.symm.trans hj
    next hi hj =>
      cases hu
      exact absurd hst (hother hj hv st hst')
    next hi hj =>
      cases hv
      exact absurd hst' (hother hi hu st hst)
    next => exact h.sole i j u v st hu hv hst hst'

theorem of_enlist {plan : Plan σ} (he : (c.enlist flags plan).executors[k]? = some e) :
    e = { plan } ∨ c.executors[k]? = some e := by
  rw [enlist_frame.2.2.2.2.2.2.2, Array.getElem?_push] at he
  split at he
  · cases he
    exact .inl rfl
  · exact .inr he

theorem Owned.enlist {plan : Plan σ} (h : Owned C c) : Owned C (c.enlist flags plan) := by
  constructor
  case fit =>
    intro k e he
    rcases of_enlist he with rfl | he
    · exact .of_none rfl
    · exact h.fit k e he
  case sole =>
    intro j k e e' st he he' hst hst'
    rcases of_enlist he with rfl | he
    · cases hst
    · rcases of_enlist he' with rfl | he'
      · cases hst'
      · exact h.sole j k e e' st he he' hst hst'

theorem Owned.move [RecordHost σ ρ] (hrefuses : C.Refuses refusal) (h : Owned C c)
    (hm : Move s c c') : Owned C c' := by
  cases hm with
  | make _ => exact h.enlist
  | prepare t =>
      unfold Cache.prepare
      split
      · exact h
      next e he =>
        obtain ⟨hhandles, hfit⟩ := (h.fit _ e he).prepare hrefuses
        exact h.update he hhandles hfit
  | query t record =>
      unfold Cache.query
      split
      · exact h
      next e he =>
        have hfit := h.fit _ e he
        obtain ⟨-, -, hhandles, hfit⟩ :=
          hfit.query_agree s.side s.project record hrefuses hfit rfl (.refl c.world)
        exact h.update he hhandles hfit
  | close t =>
      unfold Cache.closeQuietly Cache.close
      split
      · exact h
      next e he =>
        obtain ⟨hhandles, hfit⟩ := (h.fit _ e he).close
        exact h.update he hhandles hfit
  | elsewhere _ | keep _ _ _ _ | post _ _ | serve _ | write _ | resize _ | note _ _ _ =>
      exact h.congr rfl rfl

theorem Owned.moves [RecordHost σ ρ] (hrefuses : C.Refuses refusal) (h : Owned C c)
    (hm : Moves s c c') : Owned C c' := by
  induction hm with
  | refl => exact h
  | tail _ hmove ih => exact ih.move hrefuses hmove

theorem owned_start : Owned C (start s w) where
  fit k e he := by simp [start, empty] at he
  sole j k e e' st he := by simp [start, empty] at he

/-- No query, no failure and nothing else that happens to a cache mixes up the statements of its
executors. -/
theorem Run.owned [RecordHost σ ρ] {past : List (Cache σ δ)} (hrefuses : C.Refuses refusal)
    (h : Run s w (c :: past)) : Owned C c :=
  owned_start.moves hrefuses h.moves

end FlagSelect.Cache
