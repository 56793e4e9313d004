import FlagSelect.Proofs.Statement.Contract

/-!
# Transcripts of the use of statements

`Transcript δ` is a driver that passes every call on to the driver below it, and writes down what
statements are used for, each time with the text that the statement was prepared for. It keeps what
the driver below keeps of a contract (`Contract.transcript`), with the transcript as a part of the
store.
-/

namespace FlagSelect

/-- What a statement is used for, with everything that is passed to the driver. -/
inductive Act (δ : Type) [Driver δ] where
  | bind (index : Nat) (setter : Setter) (v : Value)
  | execute
  | read (row : Driver.Row δ) (column : Nat) (getter : Getter)
  | interrupt (fault : DriverFault)

/-- A driver with state `δ` whose statements are watched. -/
structure Transcript (δ : Type) [Driver δ] where
  driver : δ
  /-- What statements were used for, the latest first, and the text of each. -/
  acts : List (String × Act δ) := []

namespace Transcript

variable {δ α : Type} [Driver δ]

/-- Passes a call for a statement of a text on and writes it down, whatever comes of it. -/
def act (t : Transcript δ) (sql : String) (a : Act δ) (f : δ → α × δ) : α × Transcript δ :=
  ((f t.driver).1, ⟨(f t.driver).2, (sql, a) :: t.acts⟩)

instance : Driver (Transcript δ) where
  Statement := String × Driver.Statement δ
  Row := Driver.Row δ
  acquire t := ((Driver.acquire t.driver).1, { t with driver := (Driver.acquire t.driver).2 })
  prepare sql t :=
    match Driver.prepare sql t.driver with
    | (.error fault, d) => (.error fault, { t with driver := d })
    | (.ok s, d) => (.ok (sql, s), { t with driver := d })
  bind s index setter v t :=
    t.act s.1 (.bind index setter v) (Driver.bind s.2 index setter v)
  execute s t := t.act s.1 .execute (Driver.execute s.2)
  read s row column getter t :=
    t.act s.1 (.read row column getter) (Driver.read s.2 row column getter)
  interrupt s fault t := t.act s.1 (.interrupt fault) (Driver.interrupt s.2 fault)
  close s t := ((Driver.close s.2 t.driver).1, { t with driver := (Driver.close s.2 t.driver).2 })

end Transcript

variable {δ : Type} [Driver δ]

namespace Contract

/-- An open statement below that has the text which the transcript has for it. -/
def openedAs (C : Contract δ) (t : Transcript δ) (s : String × Driver.Statement δ) :
    Option (String × C.Params) :=
  (C.opened t.driver s.2).filter (·.1 == s.1)

/-- Whether two worlds have the same host, the same transcript and the same store below it. -/
structure SameUse {σ : Type} (C : Contract δ) (w w' : World σ (Transcript δ)) : Prop where
  host : w.host = w'.host
  acts : w.driver.acts = w'.driver.acts
  store : C.store w.driver.driver = C.store w'.driver.driver

variable {C : Contract δ} {t t' : Transcript δ} {s : String × Driver.Statement δ} {sql : String}
  {p : C.Params}

theorem openedAs_eq_some :
    C.openedAs t s = some (sql, p) ↔ C.opened t.driver s.2 = some (sql, p) ∧ sql = s.1 := by
  simp [openedAs, Option.filter_eq_some_iff]

theorem openedAs_congr (h : C.opened t'.driver = C.opened t.driver) :
    C.openedAs t' = C.openedAs t := by
  funext s
  rw [openedAs, h, openedAs]

/-- Where no statement changes but one, none does under another text than its own. -/
theorem openedAs_of_ne (htext : ∀ x, C.opened t.driver s.2 = some x → x.1 = s.1)
    (htext' : ∀ x, C.opened t'.driver s.2 = some x → x.1 = s.1)
    (hothers : ∀ u, u ≠ s.2 → C.opened t'.driver u = C.opened t.driver u)
    (u : String × Driver.Statement δ) (hu : u ≠ s) : C.openedAs t' u = C.openedAs t u := by
  by_cases heq : u.2 = s.2
  · have hne : s.1 ≠ u.1 := fun h => hu (Prod.ext h.symm heq)
    have hnone {t : Transcript δ} (h : ∀ x, C.opened t.driver s.2 = some x → x.1 = s.1) :
        C.openedAs t u = none := by
      simp only [openedAs, heq, Option.filter_eq_none_iff, beq_iff_eq]
      exact fun x hx => h x hx ▸ hne
    rw [hnone htext, hnone htext']
  · rw [openedAs, openedAs, hothers u.2 heq]

variable (C) in
/-- What a driver keeps of a contract its transcript keeps, with the acts as a part of the store. -/
def transcript : Contract (Transcript δ) where
  Store := C.Store × List (String × Act δ)
  Params := C.Params
  Cell := C.Cell
  store t := (C.store t.driver, t.acts)
  opened := C.openedAs
  accepts := C.accepts
  fresh := C.fresh
  put := C.put
  bind sql i setter v x :=
    ((C.bind sql i setter v x.1).1,
      (C.bind sql i setter v x.1).2, (sql, .bind i setter v) :: x.2)
  execute sql p x := ((C.execute sql p x.1).1, (C.execute sql p x.1).2, (sql, .execute) :: x.2)
  read sql row column getter x :=
    ((C.read sql row column getter x.1).1,
      (C.read sql row column getter x.1).2, (sql, .read row column getter) :: x.2)
  interrupt sql fault x :=
    ((C.interrupt sql fault x.1).1,
      (C.interrupt sql fault x.1).2, (sql, .interrupt fault) :: x.2)
  put_put := C.put_put
  put_comm := C.put_comm
  acquire_spec t := by
    obtain ⟨d, hacquire, hstore, hopened⟩ := C.acquire_spec t.driver
    refine ⟨⟨d, t.acts⟩, ?_, ?_, openedAs_congr hopened⟩
    · simp only [Driver.acquire, hacquire]
    · exact Prod.ext hstore rfl
  prepare_spec sql t haccepts := by
    obtain ⟨st, d, hprepare, hstore, hnone, hfresh, hothers⟩ := C.prepare_spec sql t.driver haccepts
    refine ⟨(sql, st), ⟨d, t.acts⟩, ?_, Prod.ext hstore rfl, ?_, ?_, ?_⟩
    · simp only [Driver.prepare, hprepare]
    · simp only [openedAs, hnone, Option.filter_none]
    · exact openedAs_eq_some.mpr ⟨hfresh, rfl⟩
    · refine openedAs_of_ne ?_ ?_ hothers
      · exact fun x hx => by rw [hnone] at hx; cases hx
      · exact fun x hx => by rw [hfresh] at hx; cases hx; rfl
  bind_spec t s sql p i setter v h := by
    obtain ⟨h, rfl⟩ := openedAs_eq_some.mp h
    obtain ⟨hresult, hstore, hopened, hothers⟩ := C.bind_spec t.driver s.2 _ p i setter v h
    refine ⟨hresult, Prod.ext hstore rfl, openedAs_eq_some.mpr ⟨hopened, rfl⟩, ?_⟩
    refine openedAs_of_ne ?_ ?_ hothers
    · exact fun x hx => by rw [h] at hx; cases hx; rfl
    · exact fun x hx => by
        have hx := hopened.symm.trans hx
        cases hx
        rfl
  execute_spec t s sql p h := by
    obtain ⟨h, rfl⟩ := openedAs_eq_some.mp h
    obtain ⟨hresult, hstore, hopened⟩ := C.execute_spec t.driver s.2 _ p h
    exact ⟨hresult, Prod.ext hstore rfl, openedAs_congr hopened⟩
  read_spec t s sql p row column getter h := by
    obtain ⟨h, rfl⟩ := openedAs_eq_some.mp h
    obtain ⟨hresult, hstore, hopened⟩ := C.read_spec t.driver s.2 _ p row column getter h
    exact ⟨hresult, Prod.ext hstore rfl, openedAs_congr hopened⟩
  interrupt_spec t s sql p fault h := by
    obtain ⟨h, rfl⟩ := openedAs_eq_some.mp h
    obtain ⟨hresult, hstore, hopened⟩ := C.interrupt_spec t.driver s.2 _ p fault h
    exact ⟨hresult, Prod.ext hstore rfl, openedAs_congr hopened⟩
  close_spec t s sql p h := by
    obtain ⟨h, rfl⟩ := openedAs_eq_some.mp h
    obtain ⟨hstore, hnone, hothers⟩ := C.close_spec t.driver s.2 _ p h
    refine ⟨Prod.ext hstore rfl, ?_, ?_⟩
    · exact Option.filter_eq_none_iff.mpr fun x hx => by
        have hx := hnone.symm.trans hx
        cases hx
    · refine openedAs_of_ne ?_ ?_ hothers
      · exact fun x hx => by rw [h] at hx; cases hx; rfl
      · exact fun x hx => by
          have hx := hnone.symm.trans hx
          cases hx

theorem Same.sameUse {σ : Type} {w w' : World σ (Transcript δ)} (h : C.transcript.Same w w') :
    C.SameUse w w' where
  host := h.host
  acts := congrArg Prod.snd h.store
  store := congrArg Prod.fst h.store

end Contract

end FlagSelect
