import FlagSelect.Proofs.Descriptor.Acceptance
import FlagSelect.Proofs.Descriptor.Literals
import Mathlib.Data.List.Sort

/-!
# Valid declarations

Declarations make a descriptor if their tables are numbered from zero in some order, all numbers
that they use are among these, and paths and fragments are as they should be, whatever the order of
the declarations. Main statement: `Descriptor.ofDeclarations_exact`.
-/

namespace FlagSelect

variable {ds : List Declaration} {count : Nat} {ts : List Table}

/-- A column under one of so many tables, with something to be seen in each segment of its path. -/
structure Column.Proper (count : Nat) (c : Column) : Prop where
  nonempty : c.segments ≠ []
  segments : ∀ s ∈ c.segments, ∃ letter ∈ s.toList, Text.isBlank letter = false
  table : c.table < count

/-- A dotted path has segments, be they blank or not. -/
theorem Column.segments_ofDotted (table : Nat) (path : String) :
    (ofDotted table path).segments ≠ [] := by
  rw [ofDotted, ne_eq, List.map_eq_nil_iff]
  cases path.toList with
  | nil => simp [splitDots]
  | cons c l =>
      rw [splitDots]
      split
      · simp
      · split <;> simp

/-! ## What is declared -/

namespace Declaration

def table? : Declaration → Option Table
  | .primary name => some ⟨0, name, none⟩
  | .join id name on => some ⟨id, name, some on⟩
  | _ => none

def projection? : Declaration → Option Projection
  | .select column ty => some ⟨column, ty⟩
  | _ => none

def inherited : Declaration → List Fragment
  | .inherit fragments => fragments
  | _ => []

def own? : Declaration → Option Fragment
  | .filter fragment => some fragment
  | _ => none

def sort? : Declaration → Option Column
  | .sort column => some column
  | _ => none

/-- The declared tables, in the order of their declarations. -/
def tables (ds : List Declaration) : List Table := ds.filterMap table?

def projections (ds : List Declaration) : List Projection := ds.filterMap projection?

/-- All inherited fragments, and then the query's own. -/
def fragments (ds : List Declaration) : List Fragment :=
  ds.flatMap inherited ++ ds.filterMap own?

/-- The column to sort by, which is the one declared last. -/
def sortColumn? (ds : List Declaration) : Option Column := (ds.filterMap sort?).getLast?

/-- What declarations have to be in order to make a descriptor. -/
structure Valid (ds : List Declaration) : Prop where
  numbers : ((tables ds).map (·.id)).Perm (List.range (tables ds).length)
  atLeast : 1 ≤ (tables ds).length
  atMost : (tables ds).length ≤ 27
  primary : ∀ t ∈ tables ds, t.id = 0 → t.join = none
  joins : ∀ t ∈ tables ds, ∀ on, t.join = some on → on.table < (tables ds).length
  selects : projections ds ≠ []
  columns : ∀ p ∈ projections ds, p.column.Proper (tables ds).length
  sort : ∀ c, sortColumn? ds = some c → c.Proper (tables ds).length
  fragments : ∀ f ∈ fragments ds, Marks f.query.toList f.values.length

theorem foldl_declare (ds : List Declaration) (draft : Draft) :
    (ds.foldl Draft.declare draft).tables = draft.tables ++ tables ds ∧
    (ds.foldl Draft.declare draft).projections = draft.projections ++ projections ds ∧
    (ds.foldl Draft.declare draft).inherited = draft.inherited ++ ds.flatMap inherited ∧
    (ds.foldl Draft.declare draft).filters = draft.filters ++ ds.filterMap own? ∧
    (ds.foldl Draft.declare draft).paging.sort = (sortColumn? ds).or draft.paging.sort := by
  induction ds generalizing draft with
  | nil => simp [tables, projections, sortColumn?]
  | cons declaration ds ih =>
      obtain ⟨htables, hprojections, hinherited, hfilters, hsort⟩ := ih (draft.declare declaration)
      rw [List.foldl_cons, htables, hprojections, hinherited, hfilters, hsort]
      cases declaration <;>
        simp [Draft.declare, tables, projections, sortColumn?, table?, projection?, inherited,
          own?, sort?, List.filterMap_cons, List.getLast?_cons]

theorem id_of_no_join {t : Table} (ht : t ∈ tables ds) (hjoin : t.join = none) : t.id = 0 := by
  obtain ⟨declaration, -, ht⟩ := List.mem_filterMap.mp ht
  cases declaration <;> cases ht
  · rfl
  · cases hjoin

end Declaration

namespace Descriptor

open Declaration (Valid)

/-! ## What each check finds -/

theorem gap?_of_ids {previous expected : Nat} (hlt : previous < expected)
    (h : ts.map (·.id) = List.range' expected ts.length) : gap? previous expected ts = none := by
  induction ts generalizing previous expected with
  | nil => rfl
  | cons t ts ih =>
      rw [List.map_cons, List.length_cons, List.range'_succ] at h
      obtain ⟨hid, hrest⟩ := List.cons.inj h
      have hne : previous ≠ t.id := by omega
      rw [gap?, if_neg hne, if_neg (not_not.mpr hid), hid]
      exact ih (Nat.lt_succ_self _) hrest

theorem numberingDefect?_eq_none : numberingDefect? ts = none ↔
    ts.map (·.id) = List.range ts.length ∧ 1 ≤ ts.length ∧ ts.length ≤ 27 := by
  constructor
  · intro h
    obtain ⟨hids, hne, hlength⟩ := ids_of_numberingDefect? h
    exact ⟨hids, List.length_pos_iff.mpr hne, hlength⟩
  · rintro ⟨hids, hpos, hlength⟩
    obtain ⟨t, rest, rfl⟩ := List.exists_cons_of_length_pos hpos
    rw [List.map_cons, List.length_cons, List.range_eq_range', List.range'_succ] at hids
    obtain ⟨hid, hrest⟩ := List.cons.inj hids
    have hfew : ¬ maxTables < (t :: rest).length := Nat.not_lt.mpr hlength
    simp only [numberingDefect?, hfew, hid, ne_eq, not_true_eq_false, if_false]
    exact gap?_of_ids (Nat.lt_succ_self 0) hrest

theorem joinDefect?_eq_none {t : Table} : joinDefect? count t = none ↔
    (t.id = 0 ↔ t.join = none) ∧ ∀ on, t.join = some on → on.table < count := by
  unfold joinDefect?
  cases hjoin : t.join with
  | none => simp
  | some on => by_cases hid : t.id = 0 <;> simp [hid]

theorem columnDefect?_eq_none {use : TableUse} {c : Column} :
    columnDefect? count use c = none ↔ c.Proper count := by
  have hblank : c.isBlank = false ↔
      c.segments ≠ [] ∧ ∀ s ∈ c.segments, ∃ letter ∈ s.toList, Text.isBlank letter = false := by
    simp [Column.isBlank, Text.allBlank]
  unfold columnDefect?
  constructor
  · intro h
    split at h
    · cases h
    next hc =>
    split at h
    · cases h
    next htable =>
    obtain ⟨hne, hsegments⟩ := hblank.mp (Bool.eq_false_iff.mpr hc)
    exact ⟨hne, hsegments, Nat.lt_of_not_le htable⟩
  · intro h
    rw [if_neg (Bool.eq_false_iff.mp (hblank.mpr ⟨h.nonempty, h.segments⟩)),
      if_neg (Nat.not_le.mpr h.table)]

theorem fragmentDefect?_eq_none {f : Fragment} :
    fragmentDefect? f = none ↔ Marks f.query.toList f.values.length := by
  rw [marks_iff, fragmentDefect?, Fragment.placeholders]
  simp

/-! ## Numbers in order -/

/-- Numbers that are in order are those from zero on if they are so in some order. -/
theorem ids_of_sorted (hsorted : ts.Pairwise fun a b => a.id ≤ b.id) :
    ts.map (·.id) = List.range ts.length ↔ (ts.map (·.id)).Perm (List.range ts.length) := by
  refine ⟨fun h => h ▸ List.Perm.refl _, fun h => ?_⟩
  have hids : (ts.map (·.id)).Pairwise (· ≤ ·) := List.pairwise_map.mpr hsorted
  have hrange : (List.range ts.length).Pairwise (· ≤ ·) :=
    List.pairwise_lt_range.imp Nat.le_of_lt
  exact h.eq_of_pairwise (fun _ _ _ _ => Nat.le_antisymm) hids hrange

theorem id_of_getElem? (hids : ts.map (·.id) = List.range ts.length) {i : Nat} {t : Table}
    (ht : ts[i]? = some t) : t.id = i := by
  obtain ⟨hi, -⟩ := List.getElem?_eq_some_iff.mp ht
  have hid : (ts.map (·.id))[i]? = some t.id := by rw [List.getElem?_map, ht, Option.map_some]
  rw [hids, List.getElem?_range hi] at hid
  exact (Option.some.inj hid).symm

theorem alias?_injective {i j : Nat} {letter : Char} (hi : alias? i = some letter)
    (hj : alias? j = some letter) : i = j := by
  have hall : ∀ i < 27, ∀ j < 27, (alias? i).isSome → alias? i = alias? j → i = j := by decide
  exact hall i (lt_of_alias? hi) j (lt_of_alias? hj) (by rw [hi]; rfl) (hi.trans hj.symm)

/-- No two tables behind the first have the same letter. -/
theorem nodup_letters (hids : ts.map (·.id) = List.range ts.length)
    (hletters : ∀ t ∈ ts.drop 1, (alias? t.id).isSome) :
    ((ts.drop 1).map fun t => alias? t.id).Nodup := by
  have hnodup : ((ts.drop 1).map (·.id)).Nodup := by
    rw [List.map_drop, hids]
    exact List.nodup_range.sublist (List.drop_sublist _ _)
  refine List.Nodup.map_on (fun t ht u hu hsame => ?_) hnodup.of_map
  obtain ⟨letter, hletter⟩ := Option.isSome_iff_exists.mp (hletters t ht)
  have hid := alias?_injective hletter (hsame ▸ hletter)
  exact List.inj_on_of_nodup_map hnodup ht hu hid

/-! ## Descriptors of declarations -/

variable {name : String} {d : Descriptor}

/-- What a descriptor has of its declarations. -/
structure Gathers (ds : List Declaration) (d : Descriptor) : Prop where
  tables : d.tables.Perm (Declaration.tables ds)
  sorted : d.tables.Pairwise fun a b => a.id ≤ b.id
  projections : d.projections = Declaration.projections ds
  filters : d.filters = Declaration.fragments ds
  sort : d.paging.sort = Declaration.sortColumn? ds

theorem gathers (name : String) (ds : List Declaration) :
    Gathers ds ((ds.foldl Draft.declare {}).descriptor name) := by
  obtain ⟨htables, hprojections, hinherited, hfilters, hsort⟩ := Declaration.foldl_declare ds {}
  refine ⟨?_, ?_, hprojections, ?_, ?_⟩
  · rw [Draft.descriptor, htables]
    exact List.mergeSort_perm _ _
  · have htrans (a b c : Table) (hab : decide (a.id ≤ b.id) = true)
        (hbc : decide (b.id ≤ c.id) = true) : decide (a.id ≤ c.id) = true :=
      decide_eq_true (Nat.le_trans (of_decide_eq_true hab) (of_decide_eq_true hbc))
    have htotal (a b : Table) : (decide (a.id ≤ b.id) || decide (b.id ≤ a.id)) = true := by
      simpa using Nat.le_total a.id b.id
    exact (List.pairwise_mergeSort htrans htotal _).imp of_decide_eq_true
  · rw [Draft.descriptor, hinherited, hfilters]
    rfl
  · rw [Draft.descriptor, hsort, Option.or_none]

theorem Gathers.valid (h : Gathers ds d) : d.defect? = none ↔ Valid ds := by
  have hlength := h.tables.length_eq
  have hids : (d.tables.map (·.id)).Perm ((Declaration.tables ds).map (·.id)) := h.tables.map _
  have hsorted := ids_of_sorted h.sorted
  rw [hlength] at hsorted
  simp only [defect?_eq_none, numberingDefect?_eq_none, joinDefect?_eq_none, columnDefect?_eq_none,
    fragmentDefect?_eq_none, h.projections, h.filters, h.sort, hlength, h.tables.mem_iff]
  constructor
  · rintro ⟨⟨hnumbers, hlow, hhigh⟩, hjoins, hselects, hcolumns, hsort, hfragments⟩
    exact ⟨hids.symm.trans (hsorted.mp hnumbers), hlow, hhigh, fun t ht => (hjoins t ht).1.mp,
      fun t ht => (hjoins t ht).2, hselects, hcolumns, hsort, hfragments⟩
  · intro hvalid
    have hnumbers := hsorted.mpr (hids.trans hvalid.numbers)
    refine ⟨⟨hnumbers, hvalid.atLeast, hvalid.atMost⟩, fun t ht => ?_, hvalid.selects,
      hvalid.columns, hvalid.sort, hvalid.fragments⟩
    exact ⟨⟨hvalid.primary t ht, Declaration.id_of_no_join ht⟩, hvalid.joins t ht⟩

theorem ofDeclarations_eq_ok : ofDeclarations name ds = .ok d ↔
    d = (ds.foldl Draft.declare {}).descriptor name ∧ d.defect? = none := by
  rw [ofDeclarations]
  constructor
  · intro h
    split at h
    · cases h
    · next hdefect => cases h; exact ⟨rfl, hdefect⟩
  · rintro ⟨rfl, hdefect⟩
    simp only [hdefect]

/-- Exactly the valid declarations make a descriptor. In it the tables stand by their numbers, each
but the first with a join and a letter of its own, and the fragments are the inherited ones and then
the query's own. -/
theorem ofDeclarations_exact (name : String) (ds : List Declaration) :
    ((∃ d, ofDeclarations name ds = .ok d) ↔ Valid ds) ∧
    ∀ d, ofDeclarations name ds = .ok d →
      d.tables.Perm (Declaration.tables ds) ∧
      (∀ (i : Nat) (t : Table), d.tables[i]? = some t → t.id = i) ∧
      (∀ t ∈ d.tables.drop 1, t.join.isSome ∧ (alias? t.id).isSome) ∧
      ((d.tables.drop 1).map fun t => alias? t.id).Nodup ∧
      d.filters = ds.flatMap Declaration.inherited ++ ds.filterMap Declaration.own? := by
  constructor
  · rw [← (gathers name ds).valid]
    constructor
    · rintro ⟨d, hd⟩
      obtain ⟨rfl, hdefect⟩ := ofDeclarations_eq_ok.mp hd
      exact hdefect
    · intro hdefect
      exact ⟨_, ofDeclarations_eq_ok.mpr ⟨rfl, hdefect⟩⟩
  · intro d hd
    obtain ⟨hnumbering, -⟩ := defect?_eq_none.mp (defect?_of_ofDeclarations hd)
    obtain ⟨hids, -, -⟩ := ids_of_numberingDefect? hnumbering
    have hjoinable := joinable_of_ofDeclarations hd
    obtain ⟨rfl, -⟩ := ofDeclarations_eq_ok.mp hd
    have hgathers := gathers name ds
    exact ⟨hgathers.tables, fun i t => id_of_getElem? hids, fun t ht => (hjoinable t ht).symm,
      nodup_letters hids fun t ht => (hjoinable t ht).1, hgathers.filters⟩

/-- Tables out of order, a question mark behind a doubled quote, and a blank sort column that is
replaced later on. -/
def shuffledDeclarations : List Declaration :=
  [.join 2 "v" ⟨1, "x", "y"⟩, .sort ⟨2, [" "]⟩, .select ⟨1, ["n"]⟩ (.scalar .long),
    .filter ⟨1, none, "c = 'it''s ?' and d = ?", ["<0"]⟩, .primary "t", .sort ⟨2, ["m"]⟩,
    .inherit [⟨1, none, "a = ?", ["id>0"]⟩], .join 1 "u" ⟨0, "id", "t"⟩]

theorem valid_shuffledDeclarations : Valid shuffledDeclarations where
  numbers := by decide
  atLeast := by decide
  atMost := by decide
  primary := by decide
  joins t ht on hon := by
    have hall : ∀ t ∈ Declaration.tables shuffledDeclarations,
        t.join.all (fun on => on.table < 3) := by decide
    exact of_decide_eq_true ((Option.all_eq_true _ _).mp (hall t ht) on hon)
  selects := by decide
  columns p hp := by
    obtain rfl := List.mem_singleton.mp hp
    refine ⟨by decide, fun segment hsegment => ?_, by decide⟩
    obtain rfl := List.mem_singleton.mp hsegment
    exact ⟨'n', by decide, by decide⟩
  sort c hc := by
    obtain rfl := Option.some.inj hc
    refine ⟨by decide, fun segment hsegment => ?_, by decide⟩
    obtain rfl := List.mem_singleton.mp hsegment
    exact ⟨'m', by decide, by decide⟩
  fragments f hf := by
    have hall : ∀ f ∈ Declaration.fragments shuffledDeclarations,
        f.placeholders = f.values.length := by decide +kernel
    exact marks_iff.mpr (hall f hf)

theorem ofDeclarations_exact_shuffled :
    ∃ d, ofDeclarations "shuffled" shuffledDeclarations = .ok d ∧
      d.tables.Perm (Declaration.tables shuffledDeclarations) ∧
      d.filters = shuffledDeclarations.flatMap Declaration.inherited ++
        shuffledDeclarations.filterMap Declaration.own? := by
  obtain ⟨haccepts, hgives⟩ := ofDeclarations_exact "shuffled" shuffledDeclarations
  obtain ⟨d, hd⟩ := haccepts.mpr valid_shuffledDeclarations
  obtain ⟨htables, -, -, -, hfilters⟩ := hgives d hd
  exact ⟨d, hd, htables, hfilters⟩

end Descriptor

end FlagSelect
