import FlagSelect.Proofs.Alignment
import FlagSelect.Proofs.Descriptor.Validity

/-!
# The scope of joins

A statement joins its tables by their numbers, and the condition of a join may start from any table
of the statement, be it joined further on. Each condition starts from a table that stands in front
of it exactly if each join starts from a table with a smaller number. Main statement:
`Template.plan_joins`.
-/

namespace FlagSelect

/-- A join as it stands in a statement. -/
structure JoinClause where
  name : String
  letter : Char
  /-- The letter in front of the first column. -/
  source : Option Char
  primary : String
  secondary : String
deriving DecidableEq

namespace JoinClause

def text (j : JoinClause) : String :=
  " left outer join " ++ j.name ++ " " ++ j.letter.toString ++ " on (" ++
    (j.source.elim "" fun letter => letter.toString ++ ".") ++ j.primary ++ " = " ++
    j.letter.toString ++ "." ++ j.secondary ++ ")"

def ofTable? (t : Table) : Option JoinClause := do
  let letter ← alias? t.id
  let on ← t.join
  return ⟨t.name, letter, alias? on.table, on.primary, on.secondary⟩

/-- Whether each condition starts from a table without a letter or from one joined before. -/
def Backward (js : List JoinClause) : Prop :=
  ∀ i j letter, js[i]? = some j → j.source = some letter → ∃ k ∈ js.take i, k.letter = letter

theorem joinText?_eq (t : Table) : Descriptor.joinText? t = (ofTable? t).map text := by
  have hqualifier (table : Nat) : qualifier table =
      (alias? table).elim "" fun letter => letter.toString ++ "." := by
    rw [qualifier]
    split <;> next h => rw [h]; rfl
  cases hletter : alias? t.id with
  | none => simp only [Descriptor.joinText?, ofTable?, hletter]; rfl
  | some letter =>
      cases hon : t.join with
      | none => simp only [Descriptor.joinText?, ofTable?, hletter, hon]; rfl
      | some on =>
          simp only [Descriptor.joinText?, ofTable?, hletter, hon, hqualifier, Option.map_some,
            Option.bind_eq_bind, Option.bind_some, Option.pure_def]
          rfl

theorem ofTable?_eq_some {t : Table} {j : JoinClause} (h : ofTable? t = some j) :
    alias? t.id = some j.letter ∧ ∃ on, t.join = some on ∧ j.source = alias? on.table := by
  obtain ⟨letter, hletter, h⟩ := Option.bind_eq_some_iff.mp h
  obtain ⟨on, hon, h⟩ := Option.bind_eq_some_iff.mp h
  cases h
  exact ⟨hletter, on, hon, rfl⟩

end JoinClause

namespace Descriptor

variable {d : Descriptor} {name : String} {ds : List Declaration} {i : Nat} {j : JoinClause}

/-- The joins of the statements, in their order. -/
def joins (d : Descriptor) : List JoinClause := (d.tables.drop 1).filterMap JoinClause.ofTable?

theorem isSome_ofTable? (h : d.Joinable) {t : Table} (ht : t ∈ d.tables.drop 1) :
    (JoinClause.ofTable? t).isSome := by
  obtain ⟨hletter, hjoin⟩ := h t ht
  obtain ⟨letter, hletter⟩ := Option.isSome_iff_exists.mp hletter
  obtain ⟨on, hjoin⟩ := Option.isSome_iff_exists.mp hjoin
  simp [JoinClause.ofTable?, hletter, hjoin]

theorem mapM_filterMap {α β γ ε : Type} {f : α → Except ε γ} {p : α → Option β} {q : β → γ}
    {as : List α} (h : ∀ a ∈ as, ∃ b, p a = some b ∧ f a = .ok (q b)) :
    as.mapM f = .ok ((as.filterMap p).map q) := by
  induction as with
  | nil => rfl
  | cons a as ih =>
      obtain ⟨b, hb, hf⟩ := h a List.mem_cons_self
      have hrest := ih fun a ha => h a (List.mem_cons_of_mem _ ha)
      rw [List.mapM_cons, hf, hrest, List.filterMap_cons_some hb]
      rfl

/-- The head of a statement ends with its joins. -/
theorem head_eq (h : d.Joinable) : d.head = .ok ("select " ++
    ", ".intercalate (d.projections.map (·.column.text)) ++ " from " ++ d.primaryName ++
    String.join (d.joins.map JoinClause.text)) := by
  rw [head]
  refine Directive.bind_eq_ok.mpr ⟨_, mapM_filterMap fun t ht => ?_, rfl⟩
  obtain ⟨j, hj⟩ := Option.isSome_iff_exists.mp (isSome_ofTable? h ht)
  exact ⟨j, hj, by rw [JoinClause.joinText?_eq, hj]; rfl⟩

/-! ## Joins by their places -/

theorem getElem?_filterMap {α β : Type} {f : α → Option β} {as : List α}
    (h : ∀ a ∈ as, (f a).isSome) (i : Nat) : (as.filterMap f)[i]? = as[i]?.bind f := by
  induction as generalizing i with
  | nil => simp
  | cons a as ih =>
      obtain ⟨b, hb⟩ := Option.isSome_iff_exists.mp (h a List.mem_cons_self)
      rw [List.filterMap_cons_some hb]
      cases i with
      | zero => simp [hb]
      | succ i => simpa using ih (fun a ha => h a (List.mem_cons_of_mem _ ha)) i

theorem getElem?_joins (h : d.Joinable) (i : Nat) :
    d.joins[i]? = d.tables[i + 1]?.bind JoinClause.ofTable? := by
  rw [joins, getElem?_filterMap fun t => isSome_ofTable? h, List.getElem?_drop, Nat.add_comm]

theorem join_of_table (h : d.Joinable) {t : Table} (ht : d.tables[i + 1]? = some t) :
    ∃ j, d.joins[i]? = some j ∧ JoinClause.ofTable? t = some j := by
  have hmem : t ∈ d.tables.drop 1 := by
    refine List.mem_of_getElem? (i := i) ?_
    rw [List.getElem?_drop, Nat.add_comm, ht]
  obtain ⟨j, hj⟩ := Option.isSome_iff_exists.mp (isSome_ofTable? h hmem)
  exact ⟨j, by rw [getElem?_joins h, ht, Option.bind_some, hj], hj⟩

section Accepted

variable (hd : ofDeclarations name ds = .ok d)

include hd

theorem ids_of_ofDeclarations : d.tables.map (·.id) = List.range d.tables.length :=
  (ids_of_numberingDefect? (defect?_eq_none.mp (defect?_of_ofDeclarations hd)).1).1

theorem mem_tables_of_ofDeclarations {t : Table} :
    t ∈ d.tables ↔ t ∈ Declaration.tables ds := by
  obtain ⟨rfl, -⟩ := ofDeclarations_eq_ok.mp hd
  exact (gathers name ds).tables.mem_iff

/-- The join at a place is declared for the table with the next number. -/
theorem table_of_join (h : d.joins[i]? = some j) :
    alias? (i + 1) = some j.letter ∧ ∃ t ∈ Declaration.tables ds, t.id = i + 1 ∧
      ∃ on, t.join = some on ∧ j.source = alias? on.table := by
  rw [getElem?_joins (joinable_of_ofDeclarations hd)] at h
  obtain ⟨t, ht, h⟩ := Option.bind_eq_some_iff.mp h
  obtain ⟨hletter, hon⟩ := JoinClause.ofTable?_eq_some h
  have hid := id_of_getElem? (ids_of_ofDeclarations hd) ht
  have hmem := (mem_tables_of_ofDeclarations hd).mp (List.mem_of_getElem? ht)
  exact ⟨hid ▸ hletter, t, hmem, hid, hon⟩

theorem join_of_declared {t : Table} {on : Join} (ht : t ∈ Declaration.tables ds)
    (hon : t.join = some on) : on.table < d.tables.length ∧
      ∃ i j, t.id = i + 1 ∧ d.joins[i]? = some j ∧ j.source = alias? on.table := by
  obtain ⟨-, hjoins, -⟩ := defect?_eq_none.mp (defect?_of_ofDeclarations hd)
  have hmem := (mem_tables_of_ofDeclarations hd).mpr ht
  obtain ⟨hprimary, hknown⟩ := joinDefect?_eq_none.mp (hjoins t hmem)
  refine ⟨hknown on hon, ?_⟩
  obtain ⟨n, hn⟩ := List.mem_iff_getElem?.mp hmem
  have hid := id_of_getElem? (ids_of_ofDeclarations hd) hn
  cases n with
  | zero =>
      rw [hprimary.mp hid] at hon
      cases hon
  | succ i =>
      obtain ⟨j, hj, hof⟩ := join_of_table (joinable_of_ofDeclarations hd) hn
      obtain ⟨-, on', hon', hsource⟩ := JoinClause.ofTable?_eq_some hof
      cases hon.symm.trans hon'
      exact ⟨i, j, hid, hj, hsource⟩

/-- Every table but the first is joined at the place before its number. -/
theorem join_at (hlt : i + 1 < d.tables.length) :
    ∃ j, d.joins[i]? = some j ∧ alias? (i + 1) = some j.letter := by
  have ht := List.getElem?_eq_getElem hlt
  obtain ⟨j, hj, -⟩ := join_of_table (joinable_of_ofDeclarations hd) ht
  exact ⟨j, hj, (table_of_join hd hj).1⟩

theorem join_of_letter {table : Nat} {letter : Char} (hlt : table < d.tables.length)
    (hletter : alias? table = some letter) :
    ∃ i j, table = i + 1 ∧ d.joins[i]? = some j ∧ j.letter = letter := by
  cases table with
  | zero => cases hletter
  | succ i =>
      obtain ⟨j, hj, halias⟩ := join_at hd hlt
      exact ⟨i, j, rfl, hj, Option.some.inj (halias.symm.trans hletter)⟩

theorem source_mem_joins (hj : j ∈ d.joins) {letter : Char} (hsource : j.source = some letter) :
    ∃ k ∈ d.joins, k.letter = letter := by
  obtain ⟨i, hi⟩ := List.mem_iff_getElem?.mp hj
  obtain ⟨-, t, ht, -, on, hon, halias⟩ := table_of_join hd hi
  obtain ⟨hknown, -⟩ := join_of_declared hd ht hon
  obtain ⟨m, k, -, hk, hletter⟩ := join_of_letter hd hknown (halias.symm.trans hsource)
  exact ⟨k, List.mem_of_getElem? hk, hletter⟩

/-- Conditions start from what stands in front of them if and only if every join is declared from a
table with a smaller number. -/
theorem backward_joins : JoinClause.Backward d.joins ↔
    ∀ t ∈ Declaration.tables ds, ∀ on, t.join = some on → on.table < t.id := by
  constructor
  · intro h t ht on hon
    obtain ⟨hknown, i, j, hid, hj, hsource⟩ := join_of_declared hd ht hon
    cases htable : on.table with
    | zero => omega
    | succ n =>
        rw [htable] at hknown hsource
        obtain ⟨_, -, hletter⟩ := join_at hd hknown
        obtain ⟨k, hk, hsame⟩ := h i j _ hj (hsource.trans hletter)
        obtain ⟨m, hm⟩ := List.mem_iff_getElem?.mp hk
        rw [List.getElem?_take] at hm
        split at hm
        next hlt =>
          obtain ⟨halias, -⟩ := table_of_join hd hm
          have hplace := alias?_injective (hsame ▸ hletter) halias
          omega
        next => cases hm
  · intro h i j letter hj hsource
    obtain ⟨-, t, ht, hid, on, hon, halias⟩ := table_of_join hd hj
    obtain ⟨hknown, -⟩ := join_of_declared hd ht hon
    obtain ⟨m, k, htable, hk, hletter⟩ := join_of_letter hd hknown (halias.symm.trans hsource)
    have hlt : m < i := by
      have hbefore := h t ht on hon
      omega
    refine ⟨k, List.mem_of_getElem? (i := m) ?_, hletter⟩
    rw [List.getElem?_take, if_pos hlt, hk]

end Accepted

end Descriptor

namespace Template

variable {σ : Type} {t : Template σ} {p : Plan σ} {flags : Flags} {name : String}
  {ds : List Declaration}

/-- The statement of a plan has its joins behind the primary table, by their letters, and each
condition starts from a table of the statement. That table stands in front of the condition if every
join is declared from a table with a smaller number, and otherwise not always. -/
theorem plan_joins (hd : Descriptor.ofDeclarations name ds = .ok t.descriptor)
    (h : t.plan flags = .ok p) :
    (∃ columns rest, p.sql = "select " ++ columns ++ " from " ++ t.descriptor.primaryName ++
      String.join (t.descriptor.joins.map JoinClause.text) ++ rest) ∧
    (∀ i j, t.descriptor.joins[i]? = some j → alias? (i + 1) = some j.letter) ∧
    (∀ j ∈ t.descriptor.joins, ∀ letter, j.source = some letter →
      ∃ k ∈ t.descriptor.joins, k.letter = letter) ∧
    (JoinClause.Backward t.descriptor.joins ↔
      ∀ table ∈ Declaration.tables ds, ∀ on, table.join = some on → on.table < table.id) := by
  refine ⟨?_, fun i j hj => (Descriptor.table_of_join hd hj).1,
    fun j hj letter hsource => Descriptor.source_mem_joins hd hj hsource,
    Descriptor.backward_joins hd⟩
  obtain ⟨head, hhead, hsql⟩ := plan_text h
  rw [Descriptor.head_eq (Descriptor.joinable_of_ofDeclarations hd)] at hhead
  cases hhead
  exact ⟨_, _, hsql⟩

/-- Two tables, each of which is joined from the one with the number before it. -/
def chainedDeclarations : List Declaration :=
  [.join 2 "v" ⟨1, "k", "k"⟩, .primary "t", .select ⟨0, ["id"]⟩ (.scalar .long),
    .join 1 "u" ⟨0, "k", "k"⟩]

def chainedTemplate : Template Unit where
  descriptor := ⟨"chained", [⟨0, "t", none⟩, ⟨1, "u", some ⟨0, "k", "k"⟩⟩,
    ⟨2, "v", some ⟨1, "k", "k"⟩⟩], [⟨⟨0, ["id"]⟩, .scalar .long⟩], [], {}⟩
  scope := ⟨{}, .any, none⟩

theorem plan_joins_chained : ∃ p, chainedTemplate.plan 0 = .ok p ∧
    JoinClause.Backward chainedTemplate.descriptor.joins := by
  have hsorted : (chainedDeclarations.foldl Draft.declare {}).tables.mergeSort
      (fun a b => a.id ≤ b.id) = chainedTemplate.descriptor.tables := by
    simp [chainedDeclarations, chainedTemplate, Draft.declare, List.mergeSort]
  have hd : Descriptor.ofDeclarations "chained" chainedDeclarations =
      .ok chainedTemplate.descriptor := by
    rw [Descriptor.ofDeclarations, Draft.descriptor, hsorted]
    rfl
  have hbackward : ∀ table ∈ Declaration.tables chainedDeclarations,
      table.join.all fun on => on.table < table.id := by decide
  obtain ⟨p, hp⟩ : ∃ p, chainedTemplate.plan 0 = .ok p := ⟨_, rfl⟩
  obtain ⟨-, -, -, hiff⟩ := plan_joins hd hp
  refine ⟨p, hp, hiff.mpr fun table htable on hon => ?_⟩
  exact of_decide_eq_true ((Option.all_eq_true _ _).mp (hbackward table htable) on hon)

/-- The first table is joined from the second. -/
def forwardDeclarations : List Declaration :=
  [.primary "t", .join 1 "u" ⟨2, "k", "k"⟩, .join 2 "v" ⟨0, "k", "k"⟩,
    .select ⟨0, ["id"]⟩ (.scalar .long)]

def forwardTemplate : Template Unit where
  descriptor := ⟨"forward", [⟨0, "t", none⟩, ⟨1, "u", some ⟨2, "k", "k"⟩⟩,
    ⟨2, "v", some ⟨0, "k", "k"⟩⟩], [⟨⟨0, ["id"]⟩, .scalar .long⟩], [], {}⟩
  scope := ⟨{}, .any, none⟩

theorem not_backward_forward :
    Descriptor.ofDeclarations "forward" forwardDeclarations = .ok forwardTemplate.descriptor ∧
    (∃ p, forwardTemplate.plan 0 = .ok p ∧ p.sql = "select id from t" ++
      " left outer join u a on (b.k = a.k)" ++ " left outer join v b on (k = b.k)") ∧
    ¬ JoinClause.Backward forwardTemplate.descriptor.joins := by
  have hsorted : (forwardDeclarations.foldl Draft.declare {}).tables.mergeSort
      (fun a b => a.id ≤ b.id) = forwardTemplate.descriptor.tables := by
    simp [forwardDeclarations, forwardTemplate, Draft.declare, List.mergeSort]
  refine ⟨?_, ⟨_, rfl, by decide⟩, fun h => ?_⟩
  · rw [Descriptor.ofDeclarations, Draft.descriptor, hsorted]
    rfl
  · obtain ⟨k, hk, -⟩ := h 0 ⟨"u", 'a', some 'b', "k", "k"⟩ 'b' (by decide) rfl
    cases hk

end Template

end FlagSelect
