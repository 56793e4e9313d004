import FlagSelect.Proofs.Descriptor.Validity

/-!
# The order of declarations

Declarations on different topics may trade places, and tables may be declared in any order, even
where two of them have the same number: a repeated number is found by looking at the numbers alone,
before anything else of a table counts. Main statement: `Descriptor.ofDeclarations_reordered`.
-/

namespace FlagSelect

/-- What a declaration is about. -/
inductive Topic where
  | table | selection | filter | inheritance | sort | limit | offset
deriving DecidableEq

namespace Declaration

variable {ds ds' : List Declaration}

def topic : Declaration → Topic
  | .primary _ | .join .. => .table
  | .select .. => .selection
  | .filter _ => .filter
  | .inherit _ => .inheritance
  | .sort _ => .sort
  | .limit _ => .limit
  | .offset _ => .offset

/-- The declarations on one topic, in their order. -/
def about (topic : Topic) (ds : List Declaration) : List Declaration := ds.filter (·.topic == topic)

/-- Whether declarations are the same in another order, in which those on one topic keep their
order among each other. Tables need not. -/
structure Reordered (ds ds' : List Declaration) : Prop where
  perm : ds.Perm ds'
  order : ∀ topic ≠ .table, about topic ds = about topic ds'

end Declaration

/-! ## What a draft has on a topic -/

namespace Draft

variable {d d' : Draft} {topic : Topic} {declaration : Declaration}

/-- Whether two drafts have the same on a topic. -/
def Agree (d d' : Draft) : Topic → Prop
  | .table => d.tables = d'.tables
  | .selection => d.projections = d'.projections
  | .filter => d.filters = d'.filters
  | .inheritance => d.inherited = d'.inherited
  | .sort => d.paging.sort = d'.paging.sort
  | .limit => d.paging.limit = d'.paging.limit
  | .offset => d.paging.offset = d'.paging.offset

theorem Agree.refl (d : Draft) (topic : Topic) : Agree d d topic := by
  cases topic <;> rfl

theorem Agree.symm (h : Agree d d' topic) : Agree d' d topic := by
  cases topic <;> exact Eq.symm h

theorem Agree.trans {d'' : Draft} (h : Agree d d' topic) (h' : Agree d' d'' topic) :
    Agree d d'' topic := by
  cases topic <;> exact Eq.trans h h'

theorem Agree.declare (h : Agree d d' topic) (declaration : Declaration) :
    Agree (d.declare declaration) (d'.declare declaration) topic := by
  cases topic <;> cases declaration <;> simp_all [Agree, Draft.declare]

/-- A declaration changes nothing on other topics. -/
theorem agree_declare_of_ne (h : declaration.topic ≠ topic) :
    Agree (d.declare declaration) d topic := by
  cases declaration <;> cases topic <;> simp [Declaration.topic, Agree, Draft.declare] at h ⊢

/-- On a topic, only the declarations on it count. -/
theorem Agree.foldl (h : Agree d d' topic) (ds : List Declaration) :
    Agree (ds.foldl Draft.declare d) ((Declaration.about topic ds).foldl Draft.declare d')
      topic := by
  induction ds generalizing d d' with
  | nil => exact h
  | cons declaration ds ih =>
      by_cases htopic : declaration.topic = topic
      · have hon : Declaration.about topic (declaration :: ds) =
            declaration :: Declaration.about topic ds :=
          List.filter_cons_of_pos (beq_iff_eq.mpr htopic)
        rw [hon]
        exact ih (h.declare declaration)
      · have hon : Declaration.about topic (declaration :: ds) = Declaration.about topic ds :=
          List.filter_cons_of_neg (mt beq_iff_eq.mp htopic)
        rw [hon]
        exact ih ((agree_declare_of_ne htopic).trans h)

end Draft

namespace Descriptor

open Declaration (Reordered)

variable {name : String} {ds ds' : List Declaration} {ts ts' : List Table} {d d' : Descriptor}

/-! ## The numbers of tables -/

theorem gap?_congr {previous expected : Nat} (h : ts.map (·.id) = ts'.map (·.id)) :
    gap? previous expected ts = gap? previous expected ts' := by
  induction ts generalizing previous expected ts' with
  | nil =>
      obtain rfl := List.map_eq_nil_iff.mp h.symm
      rfl
  | cons t ts ih =>
      obtain ⟨t', rest, rfl, hid, hrest⟩ := List.map_eq_cons_iff.mp h.symm
      rw [gap?, gap?, hid, ih hrest.symm]

/-- A defect of the numbering is one of the numbers alone. -/
theorem numberingDefect?_congr (h : ts.map (·.id) = ts'.map (·.id)) :
    numberingDefect? ts = numberingDefect? ts' := by
  have hlength : ts.length = ts'.length := by simpa using congrArg List.length h
  unfold numberingDefect?
  rw [hlength]
  cases ts with
  | nil =>
      obtain rfl := List.map_eq_nil_iff.mp h.symm
      rfl
  | cons t ts =>
      obtain ⟨t', rest, rfl, hid, hrest⟩ := List.map_eq_cons_iff.mp h.symm
      simp only [hid, gap?_congr hrest.symm]

section Sorted

variable (hperm : ts.Perm ts') (hsorted : ts.Pairwise fun a b => a.id ≤ b.id)
  (hsorted' : ts'.Pairwise fun a b => a.id ≤ b.id)

include hperm hsorted hsorted'

theorem ids_eq_of_perm : ts.map (·.id) = ts'.map (·.id) :=
  (hperm.map _).eq_of_pairwise (fun _ _ _ _ => Nat.le_antisymm) (List.pairwise_map.mpr hsorted)
    (List.pairwise_map.mpr hsorted')

/-- Without a repeated number there is only one way to sort tables. -/
theorem eq_of_perm_of_nodup (hnodup : (ts.map (·.id)).Nodup) : ts = ts' := by
  refine hperm.eq_of_pairwise (fun a b ha hb hle hge => ?_) hsorted hsorted'
  exact List.inj_on_of_nodup_map hnodup ha (hperm.mem_iff.mpr hb) (Nat.le_antisymm hle hge)

end Sorted

/-! ## Descriptors -/

theorem defect?_of_numberingDefect? {defect : Defect}
    (h : numberingDefect? d.tables = some defect) :
    d.defect? = some defect := by
  simp [defect?, h]

/-- What reordered declarations amount to differs in the order of the tables at most. -/
theorem eq_of_reordered (h : Reordered ds ds')
    (htables : ((ds.foldl Draft.declare {}).descriptor name).tables =
      ((ds'.foldl Draft.declare {}).descriptor name).tables) :
    (ds.foldl Draft.declare {}).descriptor name = (ds'.foldl Draft.declare {}).descriptor name := by
  have hagree (topic : Topic) (hne : topic ≠ .table) :
      Draft.Agree (ds.foldl Draft.declare {}) (ds'.foldl Draft.declare {}) topic := by
    have hleft := (Draft.Agree.refl {} topic).foldl ds
    rw [h.order topic hne] at hleft
    exact hleft.trans ((Draft.Agree.refl {} topic).foldl ds').symm
  have hprojections := hagree .selection nofun
  have hfilters := hagree .filter nofun
  have hinherited := hagree .inheritance nofun
  have hsort := hagree .sort nofun
  have hlimit := hagree .limit nofun
  have hoffset := hagree .offset nofun
  simp only [Draft.Agree] at hprojections hfilters hinherited hsort hlimit hoffset
  have hpaging : (ds.foldl Draft.declare {}).paging = (ds'.foldl Draft.declare {}).paging := by
    rw [Paging.mk.injEq]
    exact ⟨hsort, hlimit, hoffset⟩
  rw [Draft.descriptor, Draft.descriptor, mk.injEq]
  exact ⟨rfl, htables, hprojections, by rw [hinherited, hfilters], hpaging⟩

/-- Reordered declarations make the same descriptor, or have the same first defect. -/
theorem ofDeclarations_reordered (name : String) (h : Reordered ds ds') :
    ofDeclarations name ds = ofDeclarations name ds' := by
  have hgathers := gathers name ds
  have hgathers' := gathers name ds'
  have hperm := (hgathers.tables.trans (h.perm.filterMap Declaration.table?)).trans
    hgathers'.tables.symm
  have hids := ids_eq_of_perm hperm hgathers.sorted hgathers'.sorted
  have hnumbering := numberingDefect?_congr hids
  rw [ofDeclarations, ofDeclarations]
  cases hdefect : numberingDefect? ((ds.foldl Draft.declare {}).descriptor name).tables with
  | some defect =>
      rw [defect?_of_numberingDefect? hdefect, defect?_of_numberingDefect? (hnumbering ▸ hdefect)]
  | none =>
      -- The numbers are those from zero on, so that none is repeated.
      have hnodup : (((ds.foldl Draft.declare {}).descriptor name).tables.map (·.id)).Nodup := by
        rw [(ids_of_numberingDefect? hdefect).1]
        exact List.nodup_range
      have htables := eq_of_perm_of_nodup hperm hgathers.sorted hgathers'.sorted hnodup
      rw [eq_of_reordered h htables]

/-- Two tables with the number 1, among other declarations. -/
def crowdedDeclarations : List Declaration :=
  [.join 1 "u" ⟨0, "k", "k"⟩, .limit "n", .select ⟨0, ["id"]⟩ (.scalar .long), .primary "t",
    .join 1 "v" ⟨7, "k", "k"⟩, .limit " ", .select ⟨1, ["m"]⟩ (.scalar .int)]

/-- The same tables in the reverse order, and the others moved in between. -/
def recrowdedDeclarations : List Declaration :=
  [.select ⟨0, ["id"]⟩ (.scalar .long), .join 1 "v" ⟨7, "k", "k"⟩, .limit "n", .primary "t",
    .select ⟨1, ["m"]⟩ (.scalar .int), .limit " ", .join 1 "u" ⟨0, "k", "k"⟩]

theorem ofDeclarations_reordered_crowded :
    Reordered crowdedDeclarations recrowdedDeclarations ∧
    ofDeclarations "crowded" recrowdedDeclarations = .error ⟨"crowded", .duplicateTable 1⟩ := by
  have hreordered : Reordered crowdedDeclarations recrowdedDeclarations :=
    ⟨by decide, fun topic => by cases topic <;> decide⟩
  have hsorted : (crowdedDeclarations.foldl Draft.declare {}).tables.mergeSort
      (fun a b => a.id ≤ b.id) =
        [⟨0, "t", none⟩, ⟨1, "u", some ⟨0, "k", "k"⟩⟩, ⟨1, "v", some ⟨7, "k", "k"⟩⟩] := by
    simp [crowdedDeclarations, Draft.declare, List.mergeSort]
  refine ⟨hreordered, ?_⟩
  rw [← ofDeclarations_reordered "crowded" hreordered, ofDeclarations, Draft.descriptor, hsorted]
  rfl

end Descriptor

end FlagSelect
