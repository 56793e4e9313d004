import FlagSelect.Proofs.Descriptor.Placeholders

/-!
# Placeholders and bindings

The statement of a plan is a head and clauses, each with its own placeholders, and the bindings come
in the order of the clauses. Main statement: `Template.plan_aligned`.
-/

namespace FlagSelect

variable {σ : Type} {scope : Scope σ} {pass pass' : Pass} {flags : Flags} {sql : String}

theorem Pass.directives_of_compileAll {ds : List String} {programs : List (Program σ)}
    (h : pass.compileAll scope ds = .ok (programs, pass')) :
    programs.map (·.directive) = ds := by
  induction ds generalizing pass programs with
  | nil => cases h; rfl
  | cons d ds ih =>
      obtain ⟨program, next, rest, hcompile, hrest, rfl⟩ := compileAll_cons h
      obtain ⟨part, -, rfl, -⟩ := compile_reads hcompile
      rw [List.map_cons, ih hrest]

/-- The texts of clauses, one after the other. -/
def Clause.textAll (cs : List Clause) : String :=
  String.join (cs.map Clause.text)

/-- What the directives of clauses are, one clause after the other. -/
def Clause.directivesAll (cs : List Clause) : List String :=
  cs.flatMap fun c => c.elements.map Element.directive

namespace Template

variable {t : Template σ} {p : Plan σ}

theorem writeClauses_text {cs : List Clause} {r : String × List (Program σ)}
    (h : writeClauses scope flags sql pass cs = .ok r) : r.1 = sql ++ Clause.textAll cs := by
  induction cs generalizing sql pass r with
  | nil => cases h; exact (String.append_empty).symm
  | cons c cs ih =>
      obtain ⟨⟨programs, next⟩, -, h⟩ := Directive.bind_eq_ok.mp h
      obtain ⟨⟨sql', more⟩, hrest, h⟩ := Directive.bind_eq_ok.mp h
      cases h
      have htext := ih hrest
      rw [String.append_assoc] at htext
      rw [htext, Clause.textAll, Clause.textAll, List.map_cons, String.join_cons]

/-- The statement of a plan is the head of the descriptor and its clauses. -/
theorem plan_text (h : t.plan flags = .ok p) : ∃ head, t.descriptor.head = .ok head ∧
    p.sql = head ++ Clause.textAll (t.descriptor.clauses flags) := by
  obtain ⟨head, hhead, h⟩ := Directive.bind_eq_ok.mp h
  obtain ⟨⟨sql, programs⟩, hclauses, h⟩ := Directive.bind_eq_ok.mp h
  cases h
  exact ⟨head, hhead, writeClauses_text hclauses⟩

/-- Bindings are numbered from one. -/
theorem plan_index (h : t.plan flags = .ok p) (k : Nat) (b : Binding σ)
    (hb : p.bindings[k]? = some b) : b.index = k + 1 := by
  obtain ⟨head, -, h⟩ := Directive.bind_eq_ok.mp h
  obtain ⟨⟨sql, programs⟩, -, h⟩ := Directive.bind_eq_ok.mp h
  cases h
  simp only [List.getElem?_map, List.getElem?_zipIdx, Option.map_eq_some_iff] at hb
  obtain ⟨⟨program, i⟩, ⟨program', -, hi⟩, rfl⟩ := hb
  cases hi
  rw [Nat.zero_add]

theorem plan_directives (h : t.plan flags = .ok p) :
    p.bindings.map (·.program.directive) = t.descriptor.directives flags := by
  obtain ⟨-, pass, hpass⟩ := plan_ok h
  rw [← Pass.directives_of_compileAll hpass, List.map_map]
  rfl

end Template

/-! ## Clauses -/

namespace Clause

variable {c : Clause} {cs cs' : List Clause}

/-- Whether a clause has a placeholder for each of its directives. -/
def Fits (c : Clause) : Prop := Offers c.text c.elements.length

theorem textAll_append : textAll (cs ++ cs') = textAll cs ++ textAll cs' := by
  rw [textAll, List.map_append, String.join_append]
  rfl

theorem directivesAll_append :
    directivesAll (cs ++ cs') = directivesAll cs ++ directivesAll cs' :=
  List.flatMap_append

/-- Clauses have as many placeholders together as they have directives. -/
theorem offers_textAll (h : ∀ c ∈ cs, c.Fits) : Offers (textAll cs) (directivesAll cs).length := by
  induction cs with
  | nil => exact ⟨rfl, rfl⟩
  | cons c cs ih =>
      have hrest := ih fun d hd => h d (List.mem_cons_of_mem c hd)
      have hall := (h c List.mem_cons_self).append hrest
      rw [directivesAll, List.flatMap_cons, List.length_append, List.length_map]
      rwa [textAll, List.map_cons, String.join_cons]

end Clause

namespace Descriptor

variable {d : Descriptor} {name : String} {ds : List Declaration} {joiner : String}
  {before after : List Fragment} {f : Fragment}

/-- The conditions for some fragments, as they stand in a statement. -/
def conditions (fs : List Fragment) : String :=
  Clause.textAll (filterClauses " where " fs)

/-- What stands in front of the condition that comes after those for some fragments. -/
def joinerAfter : List Fragment → String
  | [] => " where "
  | _ :: _ => " and "

theorem unmarked_joinerAfter (before : List Fragment) : Unmarked (joinerAfter before) := by
  match before with
  | [] => exact show Unmarked " where " by decide
  | _ :: _ => exact show Unmarked " and " by decide

theorem conditions_append : conditions (before ++ f :: after) =
    conditions before ++ joinerAfter before ++ f.query ++
      Clause.textAll (filterClauses " and " after) := by
  have hsplit (joiner : String) (before : List Fragment) :
      Clause.textAll (filterClauses joiner (before ++ f :: after)) =
        Clause.textAll (filterClauses joiner before) ++ (if before = [] then joiner else " and ") ++
          f.query ++ Clause.textAll (filterClauses " and " after) := by
    induction before generalizing joiner with
    | nil => simp [filterClauses, Clause.textAll]
    | cons g before ih =>
        have hrest := ih " and "
        rw [ite_self] at hrest
        simp only [Clause.textAll, List.cons_append, filterClauses, List.map_cons,
          String.join_cons, reduceCtorEq, if_false] at hrest ⊢
        rw [hrest]
        simp only [String.append_assoc]
  rw [conditions, hsplit]
  cases before <;> rfl

theorem directivesAll_filterClauses {fs : List Fragment} :
    Clause.directivesAll (filterClauses joiner fs) = fs.flatMap (·.values) := by
  induction fs generalizing joiner with
  | nil => rfl
  | cons f fs ih =>
      have hrest := @ih " and "
      rw [Clause.directivesAll] at hrest ⊢
      rw [filterClauses, List.flatMap_cons, hrest, List.map_map, List.flatMap_cons]
      congr 1
      exact List.map_id _

theorem directivesAll_pagingClauses {p : Paging} :
    Clause.directivesAll (pagingClauses p) = p.limit.toList ++ p.offset.toList := by
  obtain ⟨sort, limit, offset⟩ := p
  cases sort <;> cases limit <;> cases offset <;> rfl

/-- A fragment of an accepted descriptor has a placeholder for each of its directives. -/
theorem offers_fragment (h : ofDeclarations name ds = .ok d) (hplain : d.Plain)
    (hf : f ∈ d.filters) : Offers f.query f.values.length := by
  have hdefect := (defect?_eq_none.mp (defect?_of_ofDeclarations h)).2.2.2.2.2 f hf
  unfold fragmentDefect? at hdefect
  split at hdefect
  next hcount => exact ⟨hplain.fragments f hf, hcount⟩
  next => cases hdefect

theorem fits_filterClauses {fs : List Fragment} (hjoiner : Unmarked joiner)
    (h : ∀ f ∈ fs, Offers f.query f.values.length) :
    ∀ c ∈ filterClauses joiner fs, c.Fits := by
  induction fs generalizing joiner with
  | nil => simp [filterClauses]
  | cons f fs ih =>
      intro c hc
      rcases List.mem_cons.mp hc with rfl | hc
      · have hall := hjoiner.offers.append (h f List.mem_cons_self)
        rwa [Nat.zero_add, ← List.length_map (Element.fragment f.query)] at hall
      · exact ih (by decide) (fun g hg => h g (List.mem_cons_of_mem f hg)) c hc

/-- The sort of a statement. -/
def sortText (p : Paging) : String :=
  p.sort.elim "" fun c => " order by " ++ c.text ++ " desc"

def limitText (p : Paging) : String :=
  p.limit.elim "" fun _ => " limit ?"

def offsetText (p : Paging) : String :=
  p.offset.elim "" fun _ => " offset ?"

theorem textAll_pagingClauses {p : Paging} :
    Clause.textAll (pagingClauses p) = sortText p ++ limitText p ++ offsetText p := by
  obtain ⟨sort, limit, offset⟩ := p
  cases sort <;> cases limit <;> cases offset <;>
    simp [pagingClauses, Clause.textAll, sortText, limitText, offsetText, String.append_assoc]

theorem Plain.offers_sortText (h : d.Plain) : Offers (sortText d.paging) 0 := by
  refine Unmarked.offers ?_
  unfold sortText
  match hsort : d.paging.sort with
  | none => exact show Unmarked "" by decide
  | some c =>
      have hcolumn := Column.unmarked_text (h.sort c hsort)
      simp +decide [hcolumn]

theorem offers_limitText (p : Paging) : Offers (limitText p) p.limit.toList.length := by
  unfold limitText
  match p.limit with
  | none => exact show Offers "" 0 from ⟨rfl, rfl⟩
  | some _ => exact show Offers " limit ?" 1 from ⟨by decide, by decide⟩

theorem Plain.fits_pagingClauses (h : d.Plain) : ∀ c ∈ pagingClauses d.paging, c.Fits := by
  intro c hc
  simp only [pagingClauses, List.mem_append, Option.mem_toList, Option.map_eq_some_iff] at hc
  rcases hc with (⟨column, hsort, rfl⟩ | ⟨limit, -, rfl⟩) | ⟨offset, -, rfl⟩
  · have hcolumn := Column.unmarked_text (h.sort column hsort)
    exact Unmarked.offers (by simp +decide [hcolumn])
  · exact show Offers " limit ?" 1 from ⟨by decide, by decide⟩
  · exact show Offers " offset ?" 1 from ⟨by decide, by decide⟩

theorem fits_clauses (h : ofDeclarations name ds = .ok d) (hplain : d.Plain) (flags : Flags) :
    ∀ c ∈ d.clauses flags, c.Fits := by
  intro c hc
  rcases List.mem_append.mp hc with hc | hc
  · exact fits_filterClauses (by decide)
      (fun f hf => offers_fragment h hplain (List.mem_of_mem_filter hf)) c hc
  · exact hplain.fits_pagingClauses c hc

end Descriptor

/-! ## Plans -/

namespace Plan

/-- Whether a placeholder of the statement, counted from zero, is found at a place in the text, and
bound to what a directive stands for. -/
structure Stands (p : Plan σ) (k place : Nat) (directive : String) : Prop where
  place : (placeholderPlaces false p.sql.toList)[k]? = some place
  binding : ∃ b, p.bindings[k]? = some b ∧ b.index = k + 1 ∧ b.program.directive = directive

/-- Whether the bindings of a plan are for the placeholders of its statement, in their order. -/
structure Aligned (d : Descriptor) (flags : Flags) (p : Plan σ) : Prop where
  index : ∀ (k : Nat) (b : Binding σ), p.bindings[k]? = some b → b.index = k + 1
  count : countPlaceholders false p.sql.toList = p.bindings.length
  directives : p.bindings.map (·.program.directive) =
    (d.applicable flags).flatMap (·.values) ++ d.paging.limit.toList ++ d.paging.offset.toList
  /-- The placeholders of a fragment stand for its directives, behind those of the fragments
  before it. -/
  fragment : ∀ before f after, d.applicable flags = before ++ f :: after →
    ∃ head rest text, d.head = .ok head ∧
      text = head ++ Descriptor.conditions before ++ Descriptor.joinerAfter before ∧
      p.sql = text ++ f.query ++ rest ∧
      ∀ (j : Nat) directive, f.values[j]? = some directive →
        ∃ place, (placeholderPlaces false f.query.toList)[j]? = some place ∧
          p.Stands ((before.flatMap (·.values)).length + j) (text.length + place) directive
  limit : ∀ directive, d.paging.limit = some directive →
    ∃ text, p.sql = text ++ " limit ?" ++ Descriptor.offsetText d.paging ∧
      p.Stands ((d.applicable flags).flatMap (·.values)).length (text.length + 7) directive
  offset : ∀ directive, d.paging.offset = some directive →
    ∃ text, p.sql = text ++ " offset ?" ∧
      p.Stands (p.bindings.length - 1) (text.length + 8) directive

end Plan

namespace Template

variable {t : Template σ} {p : Plan σ}

theorem length_bindings (h : t.plan flags = .ok p) :
    p.bindings.length = (t.descriptor.directives flags).length := by
  rw [← plan_directives h, List.length_map]

/-- The directive of a placeholder that stands in a piece of the statement. -/
theorem stands_piece (h : t.plan flags = .ok p) {before piece after directive : String}
    {i j n : Nat} (hsql : p.sql = before ++ piece ++ after) (hbefore : Offers before n)
    (hplace : (placeholderPlaces false piece.toList)[j]? = some i)
    (hdirective : (t.descriptor.directives flags)[n + j]? = some directive) :
    p.Stands (n + j) (before.length + i) directive where
  place := by rw [hsql, placeholderPlaces_piece hbefore hplace]
  binding := by
    rw [← plan_directives h, List.getElem?_map, Option.map_eq_some_iff] at hdirective
    obtain ⟨b, hb, rfl⟩ := hdirective
    exact ⟨b, hb, plan_index h _ b hb, rfl⟩

theorem directives_eq {d : Descriptor} : d.directives flags =
    (d.applicable flags).flatMap (·.values) ++ d.paging.limit.toList ++ d.paging.offset.toList := by
  have hsplit : d.directives flags = Clause.directivesAll
      (Descriptor.filterClauses " where " (d.applicable flags) ++
        Descriptor.pagingClauses d.paging) := rfl
  rw [hsplit, Clause.directivesAll_append, Descriptor.directivesAll_filterClauses,
    Descriptor.directivesAll_pagingClauses, List.append_assoc]

/-- The conditions of a plan close all quotes they open, and have a placeholder for each of their
directives. -/
theorem offers_conditions {d : Descriptor} {name : String} {ds : List Declaration}
    (hd : Descriptor.ofDeclarations name ds = .ok d) (hplain : d.Plain) {fs : List Fragment}
    (hfs : ∀ f ∈ fs, f ∈ d.filters) :
    Offers (Descriptor.conditions fs) (fs.flatMap (·.values)).length := by
  have hjoiner : Unmarked " where " := by decide
  have hfits := Clause.offers_textAll (Descriptor.fits_filterClauses hjoiner fun f hf =>
    Descriptor.offers_fragment hd hplain (hfs f hf))
  rwa [Descriptor.directivesAll_filterClauses] at hfits

/-- The statement of a plan is the head of the descriptor, the conditions for the fragments that
apply, and the sort, the limit and the offset. -/
theorem plan_pieces (h : t.plan flags = .ok p) : ∃ head, t.descriptor.head = .ok head ∧
    p.sql = head ++ Descriptor.conditions (t.descriptor.applicable flags) ++
      Descriptor.sortText t.descriptor.paging ++ Descriptor.limitText t.descriptor.paging ++
      Descriptor.offsetText t.descriptor.paging := by
  obtain ⟨head, hhead, hsql⟩ := plan_text h
  have hsplit : Clause.textAll (t.descriptor.clauses flags) =
      Descriptor.conditions (t.descriptor.applicable flags) ++
        Clause.textAll (Descriptor.pagingClauses t.descriptor.paging) := Clause.textAll_append
  refine ⟨head, hhead, ?_⟩
  rw [hsql, hsplit, Descriptor.textAll_pagingClauses]
  simp only [String.append_assoc]

section Accepted

variable {name : String} {ds : List Declaration}
  (hd : Descriptor.ofDeclarations name ds = .ok t.descriptor) (hplain : t.descriptor.Plain)

include hd hplain

/-- What stands in front of the limit closes all quotes it opens, and has a placeholder for each
directive of the fragments that apply. -/
theorem offers_sorted (flags : Flags) {head : String} (hhead : t.descriptor.head = .ok head) :
    Offers (head ++ Descriptor.conditions (t.descriptor.applicable flags) ++
      Descriptor.sortText t.descriptor.paging)
      ((t.descriptor.applicable flags).flatMap (·.values)).length := by
  have hfilters : ∀ f ∈ t.descriptor.applicable flags, f ∈ t.descriptor.filters :=
    fun f hf => List.mem_of_mem_filter hf
  have hoffers := ((hplain.head hhead).offers.append
    (offers_conditions hd hplain hfilters)).append hplain.offers_sortText
  rwa [Nat.zero_add, Nat.add_zero] at hoffers

theorem stands_fragment (h : t.plan flags = .ok p) {before after : List Fragment} {f : Fragment}
    (happlicable : t.descriptor.applicable flags = before ++ f :: after) :
    ∃ head rest text, t.descriptor.head = .ok head ∧
      text = head ++ Descriptor.conditions before ++ Descriptor.joinerAfter before ∧
      p.sql = text ++ f.query ++ rest ∧
      ∀ (j : Nat) directive, f.values[j]? = some directive →
        ∃ place, (placeholderPlaces false f.query.toList)[j]? = some place ∧
          p.Stands ((before.flatMap (·.values)).length + j) (text.length + place) directive := by
  obtain ⟨head, hhead, hsql⟩ := plan_pieces h
  have hfilters (g : Fragment) (hg : g ∈ before ++ f :: after) : g ∈ t.descriptor.filters := by
    rw [← happlicable] at hg
    exact List.mem_of_mem_filter hg
  have hoffers := ((hplain.head hhead).offers.append (offers_conditions hd hplain fun g hg =>
    hfilters g (List.mem_append_left _ hg))).append (Descriptor.unmarked_joinerAfter before).offers
  rw [Nat.zero_add, Nat.add_zero] at hoffers
  have htext : p.sql = head ++ Descriptor.conditions before ++ Descriptor.joinerAfter before ++
      f.query ++ (Clause.textAll (Descriptor.filterClauses " and " after) ++
        Descriptor.sortText t.descriptor.paging ++ Descriptor.limitText t.descriptor.paging ++
        Descriptor.offsetText t.descriptor.paging) := by
    rw [hsql, happlicable, Descriptor.conditions_append]
    simp only [String.append_assoc]
  refine ⟨head, _, _, hhead, rfl, htext, fun j directive hdirective => ?_⟩
  -- A fragment that was accepted has a placeholder for each of its directives.
  have hplaces := (Descriptor.offers_fragment hd hplain (hfilters f (by simp))).count
  rw [← length_placeholderPlaces] at hplaces
  obtain ⟨hj, -⟩ := List.getElem?_eq_some_iff.mp hdirective
  have hplace := List.getElem?_eq_getElem (hplaces ▸ hj)
  refine ⟨_, hplace, stands_piece h htext hoffers hplace ?_⟩
  rw [directives_eq, happlicable, List.flatMap_append, List.flatMap_cons]
  simp only [List.append_assoc]
  rw [List.getElem?_append_right (Nat.le_add_right ..), Nat.add_sub_cancel_left,
    List.getElem?_append_left hj, hdirective]

theorem stands_limit (h : t.plan flags = .ok p) {directive : String}
    (hlimit : t.descriptor.paging.limit = some directive) :
    ∃ text, p.sql = text ++ " limit ?" ++ Descriptor.offsetText t.descriptor.paging ∧
      p.Stands ((t.descriptor.applicable flags).flatMap (·.values)).length (text.length + 7)
        directive := by
  obtain ⟨head, hhead, hsql⟩ := plan_pieces h
  rw [Descriptor.limitText, hlimit, Option.elim_some] at hsql
  refine ⟨_, hsql,
    stands_piece (j := 0) h hsql (offers_sorted hd hplain flags hhead) (by decide) ?_⟩
  rw [directives_eq, hlimit, List.append_assoc, List.getElem?_append_right (Nat.le_add_right ..),
    Nat.add_sub_cancel_left]
  rfl

theorem stands_offset (h : t.plan flags = .ok p) {directive : String}
    (hoffset : t.descriptor.paging.offset = some directive) :
    ∃ text, p.sql = text ++ " offset ?" ∧
      p.Stands (p.bindings.length - 1) (text.length + 8) directive := by
  obtain ⟨head, hhead, hsql⟩ := plan_pieces h
  rw [Descriptor.offsetText, hoffset, Option.elim_some, ← String.append_empty (s := _ ++ _)] at hsql
  have hoffers := (offers_sorted hd hplain flags hhead).append
    (Descriptor.offers_limitText t.descriptor.paging)
  have hdirective : (t.descriptor.directives flags)[((t.descriptor.applicable flags).flatMap
      (·.values)).length + t.descriptor.paging.limit.toList.length + 0]? = some directive := by
    rw [directives_eq, hoffset, ← List.length_append,
      List.getElem?_append_right (Nat.le_add_right ..), Nat.add_sub_cancel_left]
    rfl
  have hlast : p.bindings.length - 1 = ((t.descriptor.applicable flags).flatMap
      (·.values)).length + t.descriptor.paging.limit.toList.length := by
    rw [length_bindings h, directives_eq, hoffset, List.length_append, List.length_append]
    rfl
  rw [hlast]
  exact ⟨_, by rw [hsql, String.append_empty],
    stands_piece (j := 0) h hsql hoffers (by decide) hdirective⟩

/-- In a plan for an accepted descriptor without question marks and quotes in its names, whose
fragments close all quotes they open, there is one binding for each placeholder of the statement,
and it is for what is written there. -/
theorem plan_aligned (h : t.plan flags = .ok p) : p.Aligned t.descriptor flags := by
  constructor
  case index => exact plan_index h
  case count =>
    obtain ⟨head, hhead, hsql⟩ := plan_text h
    have hall := (hplain.head hhead).offers.append
      (Clause.offers_textAll (Descriptor.fits_clauses hd hplain flags))
    rw [← hsql, Nat.zero_add] at hall
    rw [hall.count, length_bindings h]
    rfl
  case directives => rw [plan_directives h, directives_eq]
  case fragment => exact fun _ _ _ happlicable => stands_fragment hd hplain h happlicable
  case limit => exact fun _ hlimit => stands_limit hd hplain h hlimit
  case offset => exact fun _ hoffset => stands_offset hd hplain h hoffset

end Accepted

/-- Two filters, one of which quotes a question mark, and a limit that the offset takes over. -/
def quotingDeclarations : List Declaration :=
  [.primary "t", .join 1 "u" ⟨0, "id", "t"⟩, .select ⟨1, ["name", "first"]⟩ (.scalar .string),
    .filter ⟨1, none, "b.name <> '?' and a.age < ?", ["age"]⟩,
    .filter ⟨2, none, "a.age > ?", ["age"]⟩, .limit "age>1", .offset "<1?"]

/-- A record with one field. -/
def aged : HostType Unit where
  name := "Record"
  hostClass := 0
  fields := [⟨"age", .scalar .long, 0, fun _ u => (.long 18, u)⟩]

/-- What `quotingDeclarations` declares. -/
def quotingTemplate : Template Unit where
  descriptor :=
    ⟨"quoting", [⟨0, "t", none⟩, ⟨1, "u", some ⟨0, "id", "t"⟩⟩],
      [⟨⟨1, ["name", "first"]⟩, .scalar .string⟩],
      [⟨1, none, "b.name <> '?' and a.age < ?", ["age"]⟩, ⟨2, none, "a.age > ?", ["age"]⟩],
      { limit := some "age>1", offset := some "<1?" }⟩
  scope := ⟨⟨[aged]⟩, .object "Record", none⟩

theorem plan_aligned_quoting : ∃ p, quotingTemplate.plan 3 = .ok p ∧
    p.Aligned quotingTemplate.descriptor 3 ∧ p.bindings.length = 4 := by
  have hsorted : (quotingDeclarations.foldl Draft.declare {}).tables.mergeSort
      (fun a b => a.id ≤ b.id) = quotingTemplate.descriptor.tables := by
    simp [quotingDeclarations, quotingTemplate, Draft.declare, List.mergeSort]
  have hd : Descriptor.ofDeclarations "quoting" quotingDeclarations =
      .ok quotingTemplate.descriptor := by
    rw [Descriptor.ofDeclarations, Draft.descriptor, hsorted]
    rfl
  have hplain : quotingTemplate.descriptor.Plain := by
    constructor <;> decide
  have hplan : ((quotingTemplate.plan 3).toOption.map (·.bindings.length)) = some 4 := by
    decide +kernel
  cases h : quotingTemplate.plan 3 with
  | error e =>
      rw [h] at hplan
      cases hplan
  | ok p =>
      rw [h] at hplan
      exact ⟨p, rfl, plan_aligned hd hplain h, Option.some.inj hplan⟩

end Template

end FlagSelect
