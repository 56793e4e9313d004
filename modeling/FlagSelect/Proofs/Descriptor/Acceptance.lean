import FlagSelect.Descriptor.Draft

/-!
# Accepted descriptors

What the absence of defects says about the tables. Main statement: `joinable_of_ofDeclarations`.
-/

namespace FlagSelect.Descriptor

variable {d : Descriptor} {name : String} {ds : List Declaration} {tables : List Table}

theorem ids_of_gap? {previous expected : Nat} (h : gap? previous expected tables = none) :
    tables.map (·.id) = List.range' expected tables.length := by
  induction tables generalizing previous expected with
  | nil => rfl
  | cons t tables ih =>
      rw [gap?] at h
      split at h
      · cases h
      split at h
      · cases h
      · next hid =>
          have hid : t.id = expected := Decidable.not_not.mp hid
          simp [List.range'_succ, hid, ih h]

/-- Tables whose numbering has no defect are numbered from zero. -/
theorem ids_of_numberingDefect? (h : numberingDefect? tables = none) :
    tables.map (·.id) = List.range tables.length ∧ tables ≠ [] ∧ tables.length ≤ maxTables := by
  unfold numberingDefect? at h
  split at h
  · cases h
  next hlength =>
  split at h
  · cases h
  · next t rest =>
      split at h
      · cases h
      · next hid =>
          have hid : t.id = 0 := Decidable.not_not.mp hid
          have hrest := ids_of_gap? h
          refine ⟨?_, by simp, Nat.le_of_not_lt hlength⟩
          simp [hid, hrest, List.range_eq_range', List.range'_succ]

theorem defect?_eq_none :
    d.defect? = none ↔ numberingDefect? d.tables = none ∧
      (∀ t ∈ d.tables, joinDefect? d.tables.length t = none) ∧ d.projections ≠ [] ∧
      (∀ p ∈ d.projections, columnDefect? d.tables.length .projection p.column = none) ∧
      (∀ c, d.paging.sort = some c → columnDefect? d.tables.length .sort c = none) ∧
      ∀ f ∈ d.filters, fragmentDefect? f = none := by
  simp [defect?]

theorem defect?_of_ofDeclarations (h : ofDeclarations name ds = .ok d) : d.defect? = none := by
  rw [ofDeclarations] at h
  split at h
  · cases h
  · next hdefect => cases h; exact hdefect

theorem isSome_join_of_joinDefect? {count : Nat} {t : Table} (h : joinDefect? count t = none)
    (hid : t.id ≠ 0) : t.join.isSome := by
  unfold joinDefect? at h
  split at h
  · next hjoin => simp [hjoin]
  · simp [hid] at h

/-- Whether every table but the first has a letter and a join. -/
def Joinable (d : Descriptor) : Prop :=
  ∀ t ∈ d.tables.drop 1, (alias? t.id).isSome ∧ t.join.isSome

theorem joinable_of_ofDeclarations (h : ofDeclarations name ds = .ok d) : d.Joinable := by
  obtain ⟨hnumbering, hjoins, -⟩ := defect?_eq_none.mp (defect?_of_ofDeclarations h)
  obtain ⟨hids, -, hlength⟩ := ids_of_numberingDefect? hnumbering
  intro t ht
  obtain ⟨i, hi, rfl⟩ := List.mem_drop_iff_getElem.mp ht
  have hid : (d.tables[1 + i]).id = 1 + i := by
    have hget := congrArg (·[1 + i]?) hids
    simpa [Nat.add_comm i 1 ▸ hi] using hget
  refine ⟨?_, isSome_join_of_joinDefect? (hjoins _ (List.getElem_mem _)) (by omega)⟩
  rw [hid, alias?, if_pos]
  · rfl
  · simp only [maxTables] at hlength
    omega

end FlagSelect.Descriptor
