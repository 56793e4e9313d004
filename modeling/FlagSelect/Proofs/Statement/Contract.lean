import FlagSelect.Statement.Executor

/-!
# What a driver promises

A `Contract` says what a driver is relied on for: what a statement does depends on its text, on what
is bound to it and on a store that all statements share, to bind at an index replaces what was bound
there, and to prepare or to close a statement leaves the others and the store alone. Under it an
executor with a used statement is as good as a new one (`Executor.query_agree`): the values of a
query are bound at all indices at which something may have been bound before.
-/

namespace FlagSelect

variable {σ δ ρ α : Type} [Driver δ]

/-- What is relied on of a driver with state `δ`. -/
structure Contract (δ : Type) [Driver δ] where
  Store : Type
  /-- What is bound to a statement as a whole. -/
  Params : Type
  /-- What a value becomes when it is bound. -/
  Cell : Type
  store : δ → Store
  /-- The text of an open statement, and what is bound to it. -/
  opened : δ → Driver.Statement δ → Option (String × Params)
  accepts : String → Prop
  fresh : String → Params
  put : Nat → Cell → Params → Params
  bind : String → Nat → Setter → Value → Store → Except DriverFault Cell × Store
  execute : String → Params → Store → Except DriverFault (ResultSet (Driver.Row δ)) × Store
  read : String → Driver.Row δ → Nat → Getter → Store → Except DriverFault Value × Store
  interrupt : String → DriverFault → Store → Except DriverFault Unit × Store
  put_put : ∀ i c c' p, put i c (put i c' p) = put i c p
  put_comm : ∀ i j c c' p, i ≠ j → put i c (put j c' p) = put j c' (put i c p)
  acquire_spec : ∀ d, ∃ d', Driver.acquire d = (.ok (), d') ∧ store d' = store d ∧
    opened d' = opened d
  prepare_spec : ∀ sql d, accepts sql → ∃ st d', Driver.prepare sql d = (.ok st, d') ∧
    store d' = store d ∧ opened d st = none ∧ opened d' st = some (sql, fresh sql) ∧
    ∀ u, u ≠ st → opened d' u = opened d u
  /-- A value that is refused leaves what is bound as it is. -/
  bind_spec : ∀ d st sql p i setter v, opened d st = some (sql, p) →
    (Driver.bind st i setter v d).1 = (bind sql i setter v (store d)).1.map (fun _ => ()) ∧
    store (Driver.bind st i setter v d).2 = (bind sql i setter v (store d)).2 ∧
    opened (Driver.bind st i setter v d).2 st = some (sql,
      match (bind sql i setter v (store d)).1 with
      | .ok c => put i c p
      | .error _ => p) ∧
    ∀ u, u ≠ st → opened (Driver.bind st i setter v d).2 u = opened d u
  execute_spec : ∀ d st sql p, opened d st = some (sql, p) →
    (Driver.execute st d).1 = (execute sql p (store d)).1 ∧
    store (Driver.execute st d).2 = (execute sql p (store d)).2 ∧
    opened (Driver.execute st d).2 = opened d
  read_spec : ∀ d st sql p row column getter, opened d st = some (sql, p) →
    (Driver.read st row column getter d).1 = (read sql row column getter (store d)).1 ∧
    store (Driver.read st row column getter d).2 = (read sql row column getter (store d)).2 ∧
    opened (Driver.read st row column getter d).2 = opened d
  interrupt_spec : ∀ d st sql p fault, opened d st = some (sql, p) →
    (Driver.interrupt st fault d).1 = (interrupt sql fault (store d)).1 ∧
    store (Driver.interrupt st fault d).2 = (interrupt sql fault (store d)).2 ∧
    opened (Driver.interrupt st fault d).2 = opened d
  /-- A statement that fails to close is not open either. -/
  close_spec : ∀ d st sql p, opened d st = some (sql, p) →
    store (Driver.close st d).2 = store d ∧ opened (Driver.close st d).2 st = none ∧
    ∀ u, u ≠ st → opened (Driver.close st d).2 u = opened d u

namespace Contract

variable (C : Contract δ)

/-- Two open statements of one text over the same store, and what is bound to each. -/
structure Alike (sql : String) (st : Driver.Statement δ) (d : δ) (p : C.Params)
    (st' : Driver.Statement δ) (d' : δ) (p' : C.Params) : Prop where
  store : C.store d = C.store d'
  left : C.opened d st = some (sql, p)
  right : C.opened d' st' = some (sql, p')

/-- What comes of two alike statements when both are used in a way that binds nothing. -/
structure Agree (sql : String) (st : Driver.Statement δ) (d : δ) (p : C.Params)
    (st' : Driver.Statement δ) (p' : C.Params) (x x' : α × δ) : Prop where
  outcome : x.1 = x'.1
  alike : C.Alike sql st x.2 p st' x'.2 p'
  opened : C.opened x.2 = C.opened d

variable {C} {sql : String} {st st' : Driver.Statement δ} {d d' : δ} {p p' : C.Params}

theorem Alike.agree {x x' : α × δ} {y : α × C.Store} (h : C.Alike sql st d p st' d' p')
    (hx : x.1 = y.1 ∧ C.store x.2 = y.2 ∧ C.opened x.2 = C.opened d)
    (hx' : x'.1 = y.1 ∧ C.store x'.2 = y.2 ∧ C.opened x'.2 = C.opened d') :
    C.Agree sql st d p st' p' x x' where
  outcome := hx.1.trans hx'.1.symm
  alike := ⟨hx.2.1.trans hx'.2.1.symm, by rw [hx.2.2]; exact h.left, by rw [hx'.2.2]; exact h.right⟩
  opened := hx.2.2

theorem Alike.read (h : C.Alike sql st d p st' d' p') (row : Driver.Row δ) (column : Nat)
    (getter : Getter) :
    C.Agree sql st d p st' p' (Driver.read st row column getter d)
      (Driver.read st' row column getter d') := by
  refine h.agree (C.read_spec _ _ _ _ _ _ _ h.left) ?_
  rw [h.store]
  exact C.read_spec _ _ _ _ _ _ _ h.right

theorem Alike.interrupt (h : C.Alike sql st d p st' d' p') (fault : DriverFault) :
    C.Agree sql st d p st' p' (Driver.interrupt st fault d) (Driver.interrupt st' fault d') := by
  refine h.agree (C.interrupt_spec _ _ _ _ _ h.left) ?_
  rw [h.store]
  exact C.interrupt_spec _ _ _ _ _ h.right

theorem Alike.execute (h : C.Alike sql st d p st' d' p) :
    C.Agree sql st d p st' p (Driver.execute st d) (Driver.execute st' d') := by
  refine h.agree (C.execute_spec _ _ _ _ h.left) ?_
  rw [h.store]
  exact C.execute_spec _ _ _ _ h.right

theorem Alike.readColumns (h : C.Alike sql st d p st' d' p') (row : Driver.Row δ)
    (columns : List Reading) :
    C.Agree sql st d p st' p' (FlagSelect.readColumns st row columns d)
      (FlagSelect.readColumns st' row columns d') := by
  induction columns generalizing d d' with
  | nil => exact ⟨rfl, h, rfl⟩
  | cons r rest ih =>
      have hread := h.read row r.column r.getter
      unfold FlagSelect.readColumns
      generalize Driver.read st row r.column r.getter d = x at hread ⊢
      generalize Driver.read st' row r.column r.getter d' = x' at hread ⊢
      obtain ⟨o, d₁⟩ := x
      obtain ⟨o', d₁'⟩ := x'
      obtain ⟨rfl, halike, hopened⟩ := hread
      cases o with
      | error fault => exact ⟨rfl, halike, hopened⟩
      | ok v =>
          have hrest := ih halike
          dsimp only
          generalize FlagSelect.readColumns st row rest d₁ = x at hrest ⊢
          generalize FlagSelect.readColumns st' row rest d₁' = x' at hrest ⊢
          obtain ⟨o, d₂⟩ := x
          obtain ⟨o', d₂'⟩ := x'
          obtain ⟨rfl, halike, hopened'⟩ := hrest
          cases o <;> exact ⟨rfl, halike, hopened'.trans hopened⟩

theorem Alike.visit (h : C.Alike sql st d p st' d' p') (columns : List Reading)
    (project : RowProjection ρ) (number : Nat) (rows : List (Driver.Row δ)) :
    ∃ outs ending d₁ d₁', FlagSelect.visit st columns project number rows d = (outs, ending, d₁) ∧
      FlagSelect.visit st' columns project number rows d' = (outs, ending, d₁') ∧
      C.Alike sql st d₁ p st' d₁' p' ∧ C.opened d₁ = C.opened d := by
  induction rows generalizing number d d' with
  | nil => exact ⟨_, _, _, _, rfl, rfl, h, rfl⟩
  | cons row rest ih =>
      have hread := h.readColumns row columns
      unfold FlagSelect.visit
      generalize FlagSelect.readColumns st row columns d = x at hread ⊢
      generalize FlagSelect.readColumns st' row columns d' = x' at hread ⊢
      obtain ⟨o, d₁⟩ := x
      obtain ⟨o', d₁'⟩ := x'
      obtain ⟨rfl, halike, hopened⟩ := hread
      cases o with
      | error fault => exact ⟨_, _, _, _, rfl, rfl, halike, hopened⟩
      | ok vs =>
          dsimp only
          cases project vs with
          | error message => exact ⟨_, _, _, _, rfl, rfl, halike, hopened⟩
          | ok out =>
              obtain ⟨outs, ending, d₂, d₂', hx, hx', halike, hopened'⟩ := ih halike (number + 1)
              dsimp only
              rw [hx, hx']
              exact ⟨_, _, _, _, rfl, rfl, halike, hopened'.trans hopened⟩

/-- Two statements with the same bound to them yield the same. -/
theorem Alike.fetch (h : C.Alike sql st d p st' d' p) (plan : Plan σ)
    (project : RowProjection ρ) :
    C.Agree sql st d p st' p (plan.fetch st project d) (plan.fetch st' project d') := by
  have hexecute := h.execute
  unfold Plan.fetch
  dsimp only
  generalize Driver.execute st d = x at hexecute ⊢
  generalize Driver.execute st' d' = x' at hexecute ⊢
  obtain ⟨o, d₁⟩ := x
  obtain ⟨o', d₁'⟩ := x'
  obtain ⟨rfl, halike, hopened⟩ := hexecute
  cases o with
  | error fault => exact ⟨rfl, halike, hopened⟩
  | ok result =>
      obtain ⟨outs, ending, d₂, d₂', hx, hx', halike, hopened'⟩ :=
        halike.visit plan.columns project 0 result.rows
      have hopened := hopened'.trans hopened
      dsimp only
      rw [hx, hx']
      cases ending with
      | complete =>
          dsimp only
          cases result.failure <;> exact ⟨rfl, halike, hopened⟩
      | unread fault =>
          have hinterrupt := halike.interrupt fault
          dsimp only
          generalize Driver.interrupt st fault d₂ = x at hinterrupt ⊢
          generalize Driver.interrupt st' fault d₂' = x' at hinterrupt ⊢
          obtain ⟨o, d₃⟩ := x
          obtain ⟨o', d₃'⟩ := x'
          obtain ⟨rfl, halike, hopened'⟩ := hinterrupt
          cases o <;> exact ⟨rfl, halike, hopened'.trans hopened⟩
      | refused row message =>
          obtain ⟨-, halike, hopened'⟩ := halike.interrupt .aborted
          exact ⟨rfl, halike, hopened'.trans hopened⟩

/-! ## Binding -/

theorem Alike.bind (h : C.Alike sql st d p st' d' p') (i : Nat) (setter : Setter) (v : Value) :
    ∃ r d₁ d₁', Driver.bind st i setter v d = (r, d₁) ∧ Driver.bind st' i setter v d' = (r, d₁') ∧
      (∀ u, u ≠ st → C.opened d₁ u = C.opened d u) ∧
      ((∃ c, r = .ok () ∧ C.Alike sql st d₁ (C.put i c p) st' d₁' (C.put i c p')) ∨
        ∃ fault, r = .error fault ∧ C.Alike sql st d₁ p st' d₁' p') := by
  have hleft := C.bind_spec d st sql p i setter v h.left
  have hright := C.bind_spec d' st' sql p' i setter v h.right
  rw [← h.store] at hright
  generalize Driver.bind st i setter v d = x at hleft ⊢
  generalize Driver.bind st' i setter v d' = x' at hright ⊢
  obtain ⟨r, d₁⟩ := x
  obtain ⟨r', d₁'⟩ := x'
  obtain ⟨hr, hstore, hopened, hothers⟩ := hleft
  obtain ⟨hr', hstore', hopened', -⟩ := hright
  obtain rfl : r = r' := hr.trans hr'.symm
  refine ⟨r, d₁, d₁', rfl, rfl, hothers, ?_⟩
  have halike := Alike.mk (hstore.trans hstore'.symm) hopened hopened'
  cases hy : (C.bind sql i setter v (C.store d)).1 with
  | ok c => rw [hy] at hr halike; exact .inl ⟨c, hr, halike⟩
  | error fault => rw [hy] at hr halike; exact .inr ⟨fault, hr, halike⟩

variable (C) in
/-- What is bound once more cells have been put, each at its index. -/
def putAll (cells : List (Nat × C.Cell)) (p : C.Params) : C.Params :=
  cells.foldl (fun p x => C.put x.1 x.2 p) p

/-- Both statements get the same cells, one at each index if nothing is refused. -/
theorem Alike.bindAll (h : C.Alike sql st d p st' d' p') (bs : List (Binding σ × Value)) :
    ∃ r d₁ d₁' cells, FlagSelect.bindAll st bs d = (r, d₁) ∧
      FlagSelect.bindAll st' bs d' = (r, d₁') ∧
      C.Alike sql st d₁ (C.putAll cells p) st' d₁' (C.putAll cells p') ∧
      (∀ u, u ≠ st → C.opened d₁ u = C.opened d u) ∧
      (∀ x ∈ cells, ∃ b ∈ bs, b.1.index = x.1) ∧
      (r = .ok () → ∀ b ∈ bs, ∃ x ∈ cells, x.1 = b.1.index) := by
  induction bs generalizing d d' p p' with
  | nil => exact ⟨_, _, _, [], rfl, rfl, h, fun _ _ => rfl, by simp, by simp⟩
  | cons bv rest ih =>
      obtain ⟨b, v⟩ := bv
      obtain ⟨r, d₁, d₁', hx, hx', hothers, ⟨c, rfl, halike⟩ | ⟨fault, rfl, halike⟩⟩ :=
        h.bind b.index b.setter v
      · obtain ⟨r, d₂, d₂', cells, hrest, hrest', halike, hothers', hsome, hall⟩ := ih halike
        refine ⟨r, d₂, d₂', (b.index, c) :: cells, ?_, ?_, halike, ?_, ?_, ?_⟩
        · rw [FlagSelect.bindAll, hx]
          exact hrest
        · rw [FlagSelect.bindAll, hx']
          exact hrest'
        · exact fun u hu => (hothers' u hu).trans (hothers u hu)
        · intro x hx
          rcases List.mem_cons.mp hx with rfl | hx
          · exact ⟨(b, v), List.mem_cons_self, rfl⟩
          · obtain ⟨b', hb', heq⟩ := hsome x hx
            exact ⟨b', List.mem_cons_of_mem _ hb', heq⟩
        · intro hr b' hb'
          rcases List.mem_cons.mp hb' with rfl | hb'
          · exact ⟨(b.index, c), List.mem_cons_self, rfl⟩
          · obtain ⟨x, hx, heq⟩ := hall hr b' hb'
            exact ⟨x, List.mem_cons_of_mem _ hx, heq⟩
      -- A refused value ends the binding, and what was bound before it stays on both sides.
      · refine ⟨.error fault, d₁, d₁', [], ?_, ?_, halike, hothers, by simp, by simp⟩
        · rw [FlagSelect.bindAll, hx]
        · rw [FlagSelect.bindAll, hx']

variable (C) in
/-- What may be bound to a statement of a plan that has been used: something at some of the plan's
indices. -/
inductive Bound (plan : Plan σ) : C.Params → Prop where
  | fresh : Bound plan (C.fresh plan.sql)
  | put {p : C.Params} {i : Nat} {c : C.Cell} : (∃ b ∈ plan.bindings, b.index = i) →
      Bound plan p → Bound plan (C.put i c p)

variable {plan : Plan σ} {cells : List (Nat × C.Cell)}

theorem Bound.putAll (h : C.Bound plan p)
    (hcells : ∀ x ∈ cells, ∃ b ∈ plan.bindings, b.index = x.1) :
    C.Bound plan (C.putAll cells p) := by
  induction cells generalizing p with
  | nil => exact h
  | cons x rest ih =>
      exact ih (h.put (hcells x List.mem_cons_self)) fun y hy =>
        hcells y (List.mem_cons_of_mem x hy)

/-- What is put at an index in the end makes what was put there before count for nothing. -/
theorem putAll_put {i : Nat} {c : C.Cell} (h : ∃ x ∈ cells, x.1 = i) :
    C.putAll cells (C.put i c p) = C.putAll cells p := by
  induction cells generalizing p with
  | nil => obtain ⟨x, hx, -⟩ := h; cases hx
  | cons y rest ih =>
      by_cases hy : y.1 = i
      · subst hy
        rw [Contract.putAll, List.foldl_cons, C.put_put]
        rfl
      · obtain ⟨x, hx, hxi⟩ := h
        have hrest : ∃ x ∈ rest, x.1 = i := by
          rcases List.mem_cons.mp hx with rfl | hx
          · exact absurd hxi hy
          · exact ⟨x, hx, hxi⟩
        rw [Contract.putAll, List.foldl_cons, C.put_comm _ _ _ _ _ hy]
        exact ih hrest

/-- Once something is put at all indices of a plan, nothing is left of what was bound before. -/
theorem Bound.putAll_eq (h : C.Bound plan p)
    (hcells : ∀ b ∈ plan.bindings, ∃ x ∈ cells, x.1 = b.index) :
    C.putAll cells p = C.putAll cells (C.fresh plan.sql) := by
  induction h with
  | fresh => rfl
  | put hi _ ih =>
      obtain ⟨b, hb, rfl⟩ := hi
      rw [putAll_put (hcells b hb), ih]

variable (C) in
/-- Whether two worlds differ in no more than their statements and what has been counted. -/
structure Same (w w' : World σ δ) : Prop where
  host : w.host = w'.host
  store : C.store w.driver = C.store w'.driver

namespace Same

variable {w w' w'' : World σ δ}

theorem refl (w : World σ δ) : C.Same w w := ⟨rfl, rfl⟩

theorem symm (h : C.Same w w') : C.Same w' w := ⟨h.host.symm, h.store.symm⟩

theorem trans (h : C.Same w w') (h' : C.Same w' w'') : C.Same w w'' :=
  ⟨h.host.trans h'.host, h.store.trans h'.store⟩

end Same

end Contract

/-! ## Executors -/

theorem length_of_evalAll {flags : Flags} {roots : Roots} {m : Machine σ}
    {programs : List (Program σ)} {values : List Value} {host : σ}
    (h : evalAll flags roots m programs = (.ok values, host)) :
    values.length = programs.length := by
  induction programs generalizing m values with
  | nil => cases h; rfl
  | cons p rest ih =>
      unfold evalAll at h
      split at h
      · cases h
      · split at h
        next vs _ hrest => cases h; rw [List.length_cons, List.length_cons, ih hrest]
        next => cases h

theorem Plan.length_of_bindValues {plan : Plan σ} {side : Option Value} {record : Object}
    {host host' : σ} {values : List Value}
    (h : plan.bindValues side record host = (.ok values, host')) :
    values.length = plan.bindings.length := by
  simpa using length_of_evalAll h

namespace Executor

variable {C : Contract δ} {e e' : Executor σ δ} {d : δ} {w w' : World σ δ}

variable (C) in
/-- Whether the statement of an executor, if there is one, is open for its plan. -/
def Ready (e : Executor σ δ) (d : δ) : Prop :=
  ∀ st, e.statement = some st → ∃ p, C.opened d st = some (e.plan.sql, p) ∧ C.Bound e.plan p

variable (C) in
/-- Whether an executor that was `e` over `d` has touched no open statement but its own, and is
ready for the next query. -/
structure Handles (e : Executor σ δ) (d : δ) (e' : Executor σ δ) (d' : δ) : Prop where
  plan : e'.plan = e.plan
  ready : e'.Ready C d'
  /-- A statement that it did not have before was not open before. -/
  own : ∀ st, e'.statement = some st → e.statement = some st ∨ C.opened d st = none
  others : ∀ u, C.opened d u ≠ none → e.statement ≠ some u → C.opened d' u = C.opened d u

theorem Handles.refl (h : e.Ready C d) : Handles C e d e d :=
  ⟨rfl, h, fun _ => .inl, fun _ _ _ => rfl⟩

theorem close_handles (h : e.Ready C w.driver) :
    Handles C e w.driver (e.close w).2.1 (e.close w).2.2.driver ∧ C.Same w (e.close w).2.2 := by
  unfold close
  split
  · exact ⟨.refl h, .refl w⟩
  next st hst =>
    obtain ⟨p, hopened, -⟩ := h st hst
    obtain ⟨hstore, -, hothers⟩ := C.close_spec w.driver st _ p hopened
    rcases hclose : Driver.close st w.driver with ⟨_ | _, d⟩ <;> rw [hclose] at hstore hothers
    all_goals
      refine ⟨⟨rfl, ?_, ?_, fun u _ hu => hothers u fun heq => hu (heq ▸ hst)⟩, rfl, hstore.symm⟩
      · exact fun _ h => by cases h
      · exact fun _ h => by cases h

theorem ensure_ready (haccepts : C.accepts e.plan.sql) (h : e.Ready C w.driver) :
    ∃ st p w', e.ensure w = ⟨.ok st, { e with statement := some st }, w'⟩ ∧ C.Same w w' ∧
      C.opened w'.driver st = some (e.plan.sql, p) ∧ C.Bound e.plan p ∧
      (e.statement = some st ∨ C.opened w.driver st = none) ∧
      ∀ u, u ≠ st → C.opened w'.driver u = C.opened w.driver u := by
  unfold ensure
  cases hst : e.statement with
  | some st =>
      obtain ⟨p, hopened, hbound⟩ := h st hst
      refine ⟨st, p, w, ?_, .refl w, hopened, hbound, .inl rfl, fun _ _ => rfl⟩
      cases e
      cases hst
      rfl
  | none =>
      obtain ⟨d, hacquire, hstore, hopened⟩ := C.acquire_spec w.driver
      obtain ⟨st, d', hprepare, hstore', hnone, hfresh, hothers⟩ :=
        C.prepare_spec e.plan.sql d haccepts
      simp only [hacquire, hprepare]
      refine ⟨st, _, _, rfl, ⟨rfl, (hstore'.trans hstore).symm⟩, hfresh, .fresh, .inr ?_, ?_⟩
      · rw [← hopened]
        exact hnone
      · intro u hu
        rw [← hopened]
        exact hothers u hu

theorem Handles.of_opened {st : Driver.Statement δ} {p : C.Params}
    (hopened : C.opened d' st = some (e.plan.sql, p)) (hbound : C.Bound e.plan p)
    (hown : e.statement = some st ∨ C.opened d st = none)
    (hothers : ∀ u, u ≠ st → C.opened d' u = C.opened d u) :
    Handles C e d { e with statement := some st } d' where
  plan := rfl
  ready := by
    rintro _ ⟨⟩
    exact ⟨p, hopened, hbound⟩
  own := by
    rintro _ ⟨⟩
    exact hown
  others u hu hne := hothers u fun heq => hown.elim (heq ▸ hne) (heq ▸ hu)

theorem prepare_handles (haccepts : C.accepts e.plan.sql) (h : e.Ready C w.driver) :
    Handles C e w.driver (e.prepare w).executor (e.prepare w).world.driver ∧
      C.Same w (e.prepare w).world ∧ (e.prepare w).outcome = .ok () := by
  obtain ⟨st, p, w', hens, hsame, hopened, hbound, hown, hothers⟩ := ensure_ready haccepts h
  rw [prepare, hens]
  exact ⟨.of_opened hopened hbound hown hothers, hsame, rfl⟩

/-- A query by a ready executor comes to the same as one by any other for the same plan, over any
driver with the same store. -/
theorem query_agree [RecordHost σ ρ] (side : Option Value) (project : RowProjection ρ)
    (record : Object) (hplan : e'.plan = e.plan) (haccepts : C.accepts e.plan.sql)
    (h : e.Ready C w.driver) (h' : e'.Ready C w'.driver) (hw : C.Same w w') :
    (e.query side project record w).outcome = (e'.query side project record w').outcome ∧
      C.Same (e.query side project record w).world (e'.query side project record w').world ∧
      Handles C e w.driver (e.query side project record w).executor
        (e.query side project record w).world.driver := by
  unfold query
  rw [hplan, ← hw.host]
  rcases hvalues : e.plan.bindValues side record w.host with ⟨err | values, host⟩
  · exact ⟨rfl, ⟨rfl, hw.store⟩, .refl h⟩
  have hw : C.Same { w with host } { w' with host } := ⟨rfl, hw.store⟩
  obtain ⟨st, p, w₁, hens, hsame, hopened, hbound, hown, hothers⟩ :=
    ensure_ready (w := { w with host }) haccepts h
  obtain ⟨st', p', w₁', hens', hsame', hopened', hbound', -, -⟩ :=
    ensure_ready (w := { w' with host }) (hplan ▸ haccepts) h'
  have hsame₁ : C.Same w₁ w₁' := (hsame.symm.trans hw).trans hsame'
  have halike : C.Alike e.plan.sql st w₁.driver p st' w₁'.driver p' :=
    ⟨hsame₁.store, hopened, by rw [← hplan]; exact hopened'⟩
  obtain ⟨r, d₁, d₁', cells, hbind, hbind', halike, hothers₁, hsome, hall⟩ :=
    halike.bindAll (e.plan.bindings.zip values)
  simp only [hens, hens', hplan, hbind, hbind']
  have hlength := Plan.length_of_bindValues hvalues
  -- Whatever is left of the query, its own statement is in order and no other one is touched.
  have hhandles {d : δ} (hd : C.opened d = C.opened d₁) :
      Handles C e w.driver { e with statement := some st } d := by
    refine .of_opened (hd ▸ halike.left) (hbound.putAll fun x hx => ?_) hown fun u hu => ?_
    · obtain ⟨b, hb, heq⟩ := hsome x hx
      exact ⟨b.1, (List.of_mem_zip hb).1, heq⟩
    · rw [hd, hothers₁ u hu, hothers u hu]
  cases r with
  | error fault => exact ⟨rfl, ⟨hsame₁.host, halike.store⟩, hhandles rfl⟩
  | ok _ =>
      have hcells (b : Binding σ) (hb : b ∈ e.plan.bindings) : ∃ x ∈ cells, x.1 = b.index := by
        rw [← List.map_fst_zip (Nat.le_of_eq hlength.symm)] at hb
        obtain ⟨bv, hbv, rfl⟩ := List.mem_map.mp hb
        exact hall rfl bv hbv
      -- All indices have been bound anew, so that it does not matter what was bound before.
      have hsame : C.putAll cells p = C.putAll cells p' := by
        rw [hplan] at hbound'
        rw [hbound.putAll_eq hcells, hbound'.putAll_eq hcells]
      rw [← hsame] at halike
      have hfetch := halike.fetch e.plan project
      dsimp only [World.count]
      generalize e.plan.fetch st project d₁ = x at hfetch ⊢
      generalize e.plan.fetch st' project d₁' = x' at hfetch ⊢
      obtain ⟨o, d₂⟩ := x
      obtain ⟨o', d₂'⟩ := x'
      obtain ⟨rfl, halike', hopened₂⟩ := hfetch
      cases o with
      | error err => exact ⟨rfl, ⟨hsame₁.host, halike'.store⟩, hhandles hopened₂⟩
      | ok rows =>
          have hhost := congrArg (RecordHost.complete · record rows) hsame₁.host
          exact ⟨rfl, ⟨hhost, halike'.store⟩, hhandles hopened₂⟩

end Executor

end FlagSelect
