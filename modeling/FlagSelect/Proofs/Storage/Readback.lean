import FlagSelect.Proofs.Storage.Parameters

/-!
# Reading back what was bound

Whoever binds a value that is neither an object nor a floating point number gets it back, by the
getter of its kind, from every row that shows the parameter. Whole numbers can be read by getters of
other kinds, and are never cut off. Main statement: `Statement.reads_back`.
-/

namespace FlagSelect

namespace Value

/-- Whether a value is neither an object nor a floating point number. -/
def Exact : Value → Prop
  | float _ | double _ | object _ => False
  | _ => True

/-- The value with its whole number, if it holds one, as a long one. -/
def loosened (v : Value) : Value := (v.toInt64?.map long).getD v

end Value

namespace Kind

/-- The least number that does not fit into so many bytes. -/
def limit (width : Nat) : Int := Int.ofNat (1 <<< (8 * width - 1))

/-- Whether a whole number has room in the width of a kind. -/
def Fits (k : Kind) (n : Int64) : Prop :=
  ∃ width, k.width? = some width ∧ -limit width ≤ n.toInt ∧ n.toInt < limit width

theorem fits_iff (width : Nat) {k : Kind} {n : Int64} {low high : Int}
    (hwidth : k.width? = some width) (hlow : low = -limit width) (hhigh : high + 1 = limit width) :
    k.Fits n ↔ low ≤ n.toInt ∧ n.toInt ≤ high := by
  simp only [Fits, hwidth, Option.some.injEq, exists_eq_left', hlow, ← hhigh, Int.lt_add_one_iff]

end Kind

namespace Storage

variable {p : Place} {k : Kind} {n : Int64} {v : Value} {c : Cell} {r : Row} {column : Nat}
  {name hint : String} {q : Query}

/-! ## Whole numbers -/

namespace Cell

/-- The getters that read whole numbers as such. -/
def wholeKinds : List Kind := [.byte, .short, .int, .long, .timestamp]

/-- Whether a result is a whole number of a kind, or the fault of one that does not fit. -/
structure ReadsWhole (p : Place) (k : Kind) (n : Int64) (result : Except DriverFault Value) :
    Prop where
  fits : k.Fits n → ∃ v : Value, result = .ok v ∧ v.kind = k ∧ v.toInt64? = some n
  unfit : ¬ k.Fits n →
    result = .error (.engine (s!"Integer {n.toInt} out of range at index {p.column}"))

theorem readsWhole_ranged {low high : Int} {wrap : Int → Value}
    (hfits : k.Fits n ↔ low ≤ n.toInt ∧ n.toInt ≤ high)
    (hwrap : low ≤ n.toInt → n.toInt ≤ high →
      (wrap n.toInt).kind = k ∧ (wrap n.toInt).toInt64? = some n) :
    ReadsWhole p k n (ranged p low high wrap n) where
  fits h := by
    obtain ⟨hlow, hhigh⟩ := hfits.mp h
    exact ⟨_, if_pos ⟨hlow, hhigh⟩, hwrap hlow hhigh⟩
  unfit h := if_neg (mt hfits.mpr h)

theorem readsWhole_wide (hwidth : k.width? = some 8) (hkind : v.kind = k)
    (hn : v.toInt64? = some n) : ReadsWhole p k n (.ok v) where
  fits _ := ⟨v, rfl, hkind, hn⟩
  unfit h := absurd ((Kind.fits_iff 8 hwidth rfl rfl).mpr ⟨n.minValue_le_toInt, n.toInt_le⟩) h

/-- Getters for whole numbers give the number that is stored, or none at all. -/
theorem readsWhole (p : Place) (n : Int64) (hk : k ∈ wholeKinds) :
    ReadsWhole p k n (read p k (.integer n)) := by
  simp only [wholeKinds, List.mem_cons, List.not_mem_nil, or_false] at hk
  rcases hk with rfl | rfl | rfl | rfl | rfl
  case inl =>
    rw [read]
    refine readsWhole_ranged (Kind.fits_iff 1 rfl rfl rfl) fun hlow hhigh =>
      ⟨rfl, congrArg some ?_⟩
    rw [← Int64.toInt_inj, Int8.toInt_toInt64]
    exact Int8.toInt_ofInt_of_le hlow (Int.lt_add_one_iff.mpr hhigh)
  case inr.inl =>
    rw [read]
    refine readsWhole_ranged (Kind.fits_iff 2 rfl rfl rfl) fun hlow hhigh =>
      ⟨rfl, congrArg some ?_⟩
    rw [← Int64.toInt_inj, Int16.toInt_toInt64]
    exact Int16.toInt_ofInt_of_le hlow (Int.lt_add_one_iff.mpr hhigh)
  case inr.inr.inl =>
    rw [read]
    refine readsWhole_ranged (Kind.fits_iff 4 rfl rfl rfl) fun hlow hhigh =>
      ⟨rfl, congrArg some ?_⟩
    rw [← Int64.toInt_inj, Int32.toInt_toInt64]
    exact Int32.toInt_ofInt_of_le hlow (Int.lt_add_one_iff.mpr hhigh)
  case inr.inr.inr.inl => exact readsWhole_wide rfl rfl rfl
  case inr.inr.inr.inr => exact readsWhole_wide rfl rfl rfl

/-! ## Cells of values -/

/-- Whether a cell keeps a value so that it can be read again. -/
structure Keeps (c : Cell) (v : Value) : Prop where
  cell : ofValue? v = some c
  stored : c.stored = c
  own : ∀ p, read p v.kind c = .ok v
  loose : ∀ p, read p .object c = .ok v.loosened

theorem ranged_own {low high i : Int} {wrap : Int → Value} (hn : n.toInt = i) (hlow : low ≤ i)
    (hhigh : i ≤ high) : ranged p low high wrap n = .ok (wrap i) := by
  rw [ranged, hn, if_pos ⟨hlow, hhigh⟩]

theorem exists_keeps (hv : v.Exact) : ∃ c : Cell, c.Keeps v := by
  cases v with
  | null => exact ⟨.null, rfl, rfl, fun _ => rfl, fun _ => rfl⟩
  | bool b => exact ⟨_, rfl, rfl, fun _ => by cases b <;> rfl, fun _ => rfl⟩
  | byte n =>
      refine ⟨_, rfl, rfl, fun p => ?_, fun _ => rfl⟩
      rw [Value.kind, read, ranged_own n.toInt_toInt64 n.minValue_le_toInt n.toInt_le,
        Int8.ofInt_toInt]
  | short n =>
      refine ⟨_, rfl, rfl, fun p => ?_, fun _ => rfl⟩
      rw [Value.kind, read, ranged_own n.toInt_toInt64 n.minValue_le_toInt n.toInt_le,
        Int16.ofInt_toInt]
  | int n =>
      refine ⟨_, rfl, rfl, fun p => ?_, fun _ => rfl⟩
      rw [Value.kind, read, ranged_own n.toInt_toInt64 n.minValue_le_toInt n.toInt_le,
        Int32.ofInt_toInt]
  | long n => exact ⟨_, rfl, rfl, fun _ => rfl, fun _ => rfl⟩
  | timestamp n => exact ⟨_, rfl, rfl, fun _ => rfl, fun _ => rfl⟩
  | string s => exact ⟨_, rfl, rfl, fun _ => rfl, fun _ => rfl⟩
  | bytes bs => exact ⟨_, rfl, rfl, fun _ => rfl, fun _ => rfl⟩
  | float x => exact hv.elim
  | double x => exact hv.elim
  | object o => exact hv.elim

theorem Keeps.takes (h : c.Keeps v) : Takes v.kind.setter v c :=
  ⟨by simp [settable], h.cell⟩

theorem Keeps.takes_object (h : c.Keeps v) : Takes Kind.object.setter v c :=
  ⟨rfl, h.cell⟩

end Cell

/-! ## Rows -/

theorem getterKind_getter (k : Kind) (hint : String) : getterKind (k.getter hint) = k := by
  unfold Kind.getter
  split
  · next hk => exact hk.symm
  · rfl

theorem Row.read_of_getElem? {getter : Getter} (h : r.cells[column]? = some (name, c)) :
    r.read column getter = c.read ⟨column, name⟩ (getterKind getter) := by
  rw [Row.read, h]

/-- What the getters make of the cells of a row. -/
structure Row.Faithful (r : Row) : Prop where
  whole : ∀ column name n k hint, r.cells[column]? = some (name, .integer n) → k ∈ Cell.wholeKinds →
    Cell.ReadsWhole ⟨column, name⟩ k n (r.read column (k.getter hint))
  integer : ∀ column name n hint, r.cells[column]? = some (name, .integer n) →
    r.read column (.object hint) = .ok (.long n)
  text : ∀ column name s hint, r.cells[column]? = some (name, .text s) →
    r.read column (.object hint) = .ok (.string s)
  blob : ∀ column name bs hint, r.cells[column]? = some (name, .blob bs) →
    r.read column (.object hint) = .ok (.bytes bs)
  null : ∀ column name getter, r.cells[column]? = some (name, .null) →
    r.read column getter = .ok .null

theorem Row.faithful (r : Row) : r.Faithful where
  whole column name n k hint hcell hk := by
    rw [read_of_getElem? hcell, getterKind_getter]
    exact Cell.readsWhole _ n hk
  integer column name n hint hcell := by
    rw [read_of_getElem? hcell]
    rfl
  text column name s hint hcell := by
    rw [read_of_getElem? hcell]
    rfl
  blob column name bs hint hcell := by
    rw [read_of_getElem? hcell]
    rfl
  null column name getter hcell := by
    rw [read_of_getElem? hcell, Cell.read]

/-! ## Queries that show their parameters -/

/-- Whether a query shows a parameter, counted from zero, in a column of a row, whatever is bound to
it. Behind this row it may fail. -/
def Query.Shows (q : Query) (i row column : Nat) : Prop :=
  ∀ cells : List Cell, cells.length = q.parameters → ∃ r name c, cells[i]? = some c ∧
    (q.run cells).rows[row]? = some r ∧ r.cells[column]? = some (name, c)

theorem getElem?_pieces {α : Type} {length n i : Nat} {l : List α} (h : i < n) :
    (pieces length n l)[i]? = some ((l.drop (i * length)).take length) := by
  induction n generalizing i l with
  | zero => exact absurd h (Nat.not_lt_zero i)
  | succ n ih =>
      cases i with
      | zero => simp [pieces]
      | succ i =>
          have hrest := @ih i (l.drop length) (Nat.lt_of_succ_lt_succ h)
          rw [List.drop_drop] at hrest
          rw [pieces, List.getElem?_cons_succ, hrest, Nat.succ_mul, Nat.add_comm]

/-- The query that yields its own parameters shows each of them. -/
theorem echo_shows {rows columns row column : Nat} (hrow : row < rows)
    (hcolumn : column < columns) :
    (echo rows columns).Shows (row * columns + column) row column := by
  intro cells hlength
  have hplace : row * columns + column < cells.length := by
    have hnext : (row + 1) * columns ≤ rows * columns := Nat.mul_le_mul_right columns hrow
    rw [Nat.succ_mul] at hnext
    have hparameters : (echo rows columns).parameters = rows * columns := rfl
    omega
  have hcell := List.getElem?_eq_getElem hplace
  refine ⟨_, s!"column{column + 1}", _, hcell,
    List.getElem?_map.trans (congrArg _ (getElem?_pieces hrow)), ?_⟩
  simp only [List.getElem?_map, List.getElem?_zipIdx, List.getElem?_take_of_lt hcolumn,
    List.getElem?_drop, hcell, Option.map_some, Nat.zero_add]

namespace Statement

/-- A value that is neither an object nor a floating point number can be bound by the setter of its
kind and by the object setter. After any calls, among which it was bound last at its index, a query
that shows the parameter, as which the statement is executed then, gives it back by the getter of
its kind, and with its whole number as a long one by the object getter. In every row a getter of a
narrower kind reads a whole number if it fits and reports it if it does not, the object getter keeps
to what is stored, and null is null. -/
theorem reads_back :
    (∀ v : Value, v.Exact → ∀ (s : Statement) (i : Nat), ¬ s.closed →
      (s.perform (.bind (i + 1) v.kind.setter v)).1 = .ok () ∧
      (s.perform (.bind (i + 1) Kind.object.setter v)).1 = .ok ()) ∧
    (∀ v : Value, v.Exact → ∀ (p q : Query) (fetchSize : Nat) (cs : List Call)
      (i row column : Nat), q.Shows i row column → .close ∉ cs →
      ¬ ((fresh p fetchSize).record cs).Beyond q →
      ((fresh p fetchSize).record cs).latest? (i + 1) = some v →
      ∃ result r, ((fresh p fetchSize).after cs).results (.ok q) = .ok result ∧
        result.rows[row]? = some r ∧
        ∀ hint, r.read column (v.kind.getter hint) = .ok v ∧
          r.read column (.object hint) = .ok v.loosened) ∧
    ∀ r : Row, r.Faithful := by
  refine ⟨fun v hv s i hopen => ?_, fun v hv p q fetchSize cs i row column hshows hopen hwithin
    hlatest => ?_, Row.faithful⟩
  · obtain ⟨c, hc⟩ := Cell.exists_keeps hv
    rw [perform_bind_succ hopen hc.takes, perform_bind_succ hopen hc.takes_object]
    exact ⟨rfl, rfl⟩
  · obtain ⟨c, hc⟩ := Cell.exists_keeps hv
    have hremembers := (remembers_fresh p fetchSize).after hopen
    have hcell : ((fresh p fetchSize).record cs).cell (i + 1) = c := by
      rw [Record.cell, hlatest, Option.bind_some, hc.cell, Option.getD_some]
    obtain ⟨r, name, c', hc', hrow, hshown⟩ := hshows
      ((((fresh p fetchSize).record cs).parameters q).map Cell.stored) (by simp [Record.parameters])
    obtain rfl : c' = c := by
      rw [List.getElem?_map, getElem?_parameters, hcell] at hc'
      split at hc'
      · rw [Option.map_some, hc.stored] at hc'
        exact (Option.some.inj hc').symm
      · cases hc'
    refine ⟨_, r, hremembers.results hwithin, hrow, fun hint => ⟨?_, ?_⟩⟩
    · rw [Row.read_of_getElem? hshown, getterKind_getter, hc.own]
    · exact (Row.read_of_getElem? hshown).trans (hc.loose _)

/-- The last parameter is bound twice. -/
def twiceBoundCalls : List Call :=
  [.bind 4 ⟨.string⟩ (.string ""), .bind 4 ⟨.object⟩ (.timestamp (-1)), .bind 1 ⟨.byte⟩ (.byte 5)]

theorem reads_back_twice_bound :
    ∃ result r, ((fresh (echo 2 2) 0).after twiceBoundCalls).results (.ok (echo 2 2)) = .ok result ∧
      result.rows[1]? = some r ∧
      r.read 1 (Kind.timestamp.getter "") = .ok (.timestamp (-1)) ∧
      r.read 1 (.object "") = .ok (.long (-1)) := by
  obtain ⟨-, hreads, -⟩ := reads_back
  have hopen : .close ∉ twiceBoundCalls := by simp [twiceBoundCalls]
  have hwithin : ¬ ((fresh (echo 2 2) 0).record twiceBoundCalls).Beyond (echo 2 2) := by decide
  have hshows : (echo 2 2).Shows (1 * 2 + 1) 1 1 := echo_shows Nat.one_lt_two Nat.one_lt_two
  obtain ⟨result, r, hresult, hrow, hread⟩ :=
    hreads (.timestamp (-1)) trivial _ _ 0 twiceBoundCalls 3 1 1 hshows hopen hwithin rfl
  exact ⟨result, r, hresult, hrow, hread ""⟩

end Statement

end Storage

end FlagSelect
