import FlagSelect.Proofs.Statement.Ledger

/-!
# What executors do to statements

Over a ledger, everything an executor does to its statement is a sequence of `Tick`s on its own
line of the books: `ensure` and `prepare` open a statement if there is none, `query` uses the one
that is open, and `close` closes it.
-/

namespace FlagSelect

variable {σ δ ρ : Type} [Driver δ]

/-- The books of a ledger for executors that have these statements open. -/
def Ledger.books (l : Ledger δ) (opens : Nat → Option Nat) : Books :=
  ⟨opens, l.entries, l.next⟩

/-- The number of the open statement. -/
def Executor.number? (e : Executor σ (Ledger δ)) : Option Nat :=
  e.statement.map Ledger.Numbered.number

/-- The books when executor `k` is `e`. -/
def Executor.books (e : Executor σ (Ledger δ)) (opens : Nat → Option Nat) (k : Nat)
    (l : Ledger δ) : Books :=
  l.books (Function.update opens k e.number?)

variable {opens : Nat → Option Nat} {k : Nat}

section Uses

variable {s : Driver.Statement (Ledger δ)} {l l' : Ledger δ}

theorem Ledger.ticks_call {α : Type} {u : Use} {f : δ → α × δ} {r : α}
    (hs : opens k = some s.number) (h : l.call s.number (.use u) f = (r, l')) :
    Ticks (l.books opens) (l'.books opens) := by
  obtain ⟨-, rfl⟩ := Prod.mk.inj h
  exact .single (.use u hs)

theorem ticks_bindAll (hs : opens k = some s.number) (bs : List (Binding σ × Value)) :
    Ticks (l.books opens) ((bindAll s bs l).2.books opens) := by
  induction bs generalizing l with
  | nil => exact .refl
  | cons bv bs ih =>
      unfold bindAll
      split
      · rename_i hb
        exact (Ledger.ticks_call hs hb).trans ih
      · rename_i hb
        exact Ledger.ticks_call hs hb

theorem ticks_readColumns {row : Driver.Row (Ledger δ)} (hs : opens k = some s.number)
    (cs : List Reading) : Ticks (l.books opens) ((readColumns s row cs l).2.books opens) := by
  induction cs generalizing l with
  | nil => exact .refl
  | cons r cs ih =>
      unfold readColumns
      split
      · rename_i hr
        exact Ledger.ticks_call hs hr
      · rename_i l₁ hr
        have hcs := (Ledger.ticks_call hs hr).trans ih
        split <;> rename_i heq <;> rw [heq] at hcs <;> exact hcs

theorem ticks_visit {project : RowProjection ρ} {cs : List Reading} {number : Nat}
    (hs : opens k = some s.number) (rows : List (Driver.Row (Ledger δ))) :
    Ticks (l.books opens) ((visit s cs project number rows l).2.2.books opens) := by
  induction rows generalizing l number with
  | nil => exact .refl
  | cons row rows ih =>
      have hcs : Ticks (l.books opens) ((readColumns s row cs l).2.books opens) :=
        ticks_readColumns hs cs
      unfold visit
      split <;> rename_i heq <;> rw [heq] at hcs
      · exact hcs
      · split
        · exact hcs
        · exact hcs.trans ih

theorem Plan.ticks_fetch {p : Plan σ} {project : RowProjection ρ} (hs : opens k = some s.number) :
    Ticks (l.books opens) ((p.fetch s project l).2.books opens) := by
  unfold Plan.fetch
  split
  · rename_i hx
    exact Ledger.ticks_call hs hx
  · rename_i result l₁ hx
    have hv : Ticks (l.books opens)
        ((visit s p.columns project 0 result.rows l₁).2.2.books opens) :=
      (Ledger.ticks_call hs hx).trans (ticks_visit hs result.rows)
    split <;> rename_i heq <;> rw [heq] at hv
    · split <;> exact hv
    · split <;> rename_i hi
      · exact hv.trans (Ledger.ticks_call hs hi)
      · exact hv.trans (Ledger.ticks_call hs hi)
    · exact hv.trans (Ledger.ticks_call hs rfl)

end Uses

theorem Ledger.ticks_acquire {r : Except DriverFault Unit} {l l' : Ledger δ}
    (h : Driver.acquire l = (r, l')) : Ticks (l.books opens) (l'.books opens) := by
  obtain ⟨-, rfl⟩ := Prod.mk.inj h
  exact .refl

theorem Ledger.ticks_prepare_ok {sql : String} {s : Driver.Statement (Ledger δ)}
    {l l' : Ledger δ} (hk : opens k = none) (h : Driver.prepare sql l = (.ok s, l')) :
    Ticks (l.books opens) (l'.books (Function.update opens k (some s.number))) := by
  simp only [Driver.prepare] at h
  split at h <;> cases h
  exact .single (.prepare hk)

theorem Ledger.ticks_prepare_error {sql : String} {fault : DriverFault} {l l' : Ledger δ}
    (h : Driver.prepare sql l = (.error fault, l')) : Ticks (l.books opens) (l'.books opens) := by
  simp only [Driver.prepare] at h
  split at h <;> cases h
  exact .refl

namespace Executor

variable {e : Executor σ (Ledger δ)} {w : World σ (Ledger δ)}

theorem number?_eq_none (h : e.statement = none) : e.number? = none := by
  simp [number?, h]

theorem number?_eq_some {s : Driver.Statement (Ledger δ)} (h : e.statement = some s) :
    e.number? = some s.number := by
  simp [number?, h]

/-- A statement that is there is opened at most once, and then it is the executor's own. -/
theorem ticks_ensure (e : Executor σ (Ledger δ)) (w : World σ (Ledger δ)) (opens : Nat → Option Nat)
    (k : Nat) :
    Ticks (e.books opens k w.driver)
        ((e.ensure w).executor.books opens k (e.ensure w).world.driver) ∧
      ∀ s, (e.ensure w).outcome = .ok s → (e.ensure w).executor.statement = some s := by
  unfold ensure
  split
  · rename_i s hs
    exact ⟨.refl, fun _ h => by cases h; exact hs⟩
  · rename_i hs
    have hk : Function.update opens k e.number? k = none := by
      simp [number?_eq_none hs]
    split
    · rename_i ha
      exact ⟨Ledger.ticks_acquire ha, fun _ h => by cases h⟩
    · rename_i l₁ ha
      have hacq : Ticks (e.books opens k w.driver) (e.books opens k l₁) := Ledger.ticks_acquire ha
      split
      · rename_i hp
        exact ⟨hacq.trans (Ledger.ticks_prepare_error hp), fun _ h => by cases h⟩
      · rename_i s l₂ hp
        refine ⟨hacq.trans ?_, fun _ h => by cases h; rfl⟩
        have hprep := Ledger.ticks_prepare_ok hk hp
        rwa [Function.update_idem] at hprep

theorem ticks_prepare :
    Ticks (e.books opens k w.driver)
      ((e.prepare w).executor.books opens k (e.prepare w).world.driver) :=
  (ticks_ensure e w opens k).1

theorem ticks_close :
    Ticks (e.books opens k w.driver) ((e.close w).2.1.books opens k (e.close w).2.2.driver) := by
  unfold close
  split
  · exact .refl
  · rename_i s hs
    have hk : Function.update opens k e.number? k = some s.number := by
      simp [number?_eq_some hs]
    have hclose := Relation.ReflTransGen.single
      (Tick.close (b := e.books opens k w.driver) hk)
    simp only [Executor.books, Ledger.books, Function.update_idem] at hclose
    dsimp only
    split <;> rename_i hc <;> obtain ⟨-, rfl⟩ := Prod.mk.inj hc <;> exact hclose

theorem ticks_query [RecordHost σ ρ] {side : Option Value} {project : RowProjection ρ}
    {record : Object} :
    Ticks (e.books opens k w.driver) ((e.query side project record w).executor.books opens k
      (e.query side project record w).world.driver) := by
  unfold query
  split
  · exact .refl
  · rename_i values host hv
    obtain ⟨hens, hstmt⟩ := ticks_ensure e { w with host } opens k
    split <;> rename_i heq <;> rw [heq] at hens hstmt
    · exact hens
    · rename_i s e₁ w₁
      have hk : Function.update opens k e₁.number? k = some s.number := by
        simp [number?_eq_some (hstmt s rfl)]
      have hbind := hens.trans (ticks_bindAll hk (e₁.plan.bindings.zip values))
      split <;> rename_i hb <;> rw [hb] at hbind
      · exact hbind
      · rename_i l₂
        have hfetch : Ticks (e.books opens k w.driver)
            (e₁.books opens k (e₁.plan.fetch s project l₂).2) := hbind.trans (Plan.ticks_fetch hk)
        dsimp only [World.count]
        split <;> rename_i hf <;> rw [hf] at hfetch <;> exact hfetch

end Executor

end FlagSelect
