import FlagSelect.Proofs.Alignment

/-!
# What the text of a statement depends on

The text of a plan is made of its descriptor and of the fragments that apply, whatever the types its
directives start from. If a directive stops a plan, the error has the same text as far as it was
written then. Main statement: `Template.plan_wording`.
-/

namespace FlagSelect

variable {σ τ : Type} {scope : Scope σ} {pass : Pass} {flags flags' : Flags} {sql head : String}
  {e : Error}

/-- Whether directives compile in a pass up to one that has a fault. -/
def Pass.StopsAt (scope : Scope σ) (pass : Pass) (earlier : List String) (directive : String)
    (fault : Fault) : Prop :=
  ∃ programs next last, pass.compileAll scope earlier = .ok (programs, next) ∧
    next.compile scope directive = .error (fault, last)

theorem Pass.StopsAt.after {programs : List (Program σ)} {next : Pass}
    {before earlier : List String} {directive : String} {fault : Fault}
    (h : pass.compileAll scope before = .ok (programs, next))
    (hstop : next.StopsAt scope earlier directive fault) :
    pass.StopsAt scope (before ++ earlier) directive fault := by
  obtain ⟨more, later, last, hmore, hfault⟩ := hstop
  exact ⟨programs ++ more, later, last, compileAll_append h hmore, hfault⟩

theorem Clause.directivesAll_cons {c : Clause} {cs : List Clause} :
    directivesAll (c :: cs) = c.elements.map Element.directive ++ directivesAll cs :=
  List.flatMap_cons

theorem Clause.textAll_cons {c : Clause} {cs : List Clause} :
    textAll (c :: cs) = c.text ++ textAll cs := by
  rw [textAll, List.map_cons, String.join_cons, textAll]

/-! ## Where a plan stops -/

namespace Template

theorem compileElements_stops {es : List Element}
    (h : compileElements scope flags sql pass es = .error e) :
    ∃ before element after fault, es = before ++ element :: after ∧
      e = .synthesis flags sql element ⟨element.directive, fault⟩ ∧
      pass.StopsAt scope (before.map Element.directive) element.directive fault := by
  induction es generalizing pass with
  | nil => cases h
  | cons element es ih =>
      rw [compileElements] at h
      split at h
      · next fault last hfault =>
          cases h
          exact ⟨[], element, es, fault, rfl, rfl, [], pass, last, rfl, hfault⟩
      · next program next hcompile =>
          rcases Directive.bind_eq_error.mp h with h | ⟨_, _, h⟩
          · obtain ⟨before, stopped, after, fault, rfl, rfl, hstop⟩ := ih h
            have hfirst : pass.compileAll scope [element.directive] = .ok ([program], next) :=
              Directive.bind_eq_ok.mpr ⟨_, hcompile, rfl⟩
            exact ⟨element :: before, stopped, after, fault, rfl, rfl, hstop.after hfirst⟩
          · cases h

/-- Clauses that are not all written stop at an element of one, with the text up to its end. -/
theorem writeClauses_stops {cs : List Clause}
    (h : writeClauses scope flags sql pass cs = .error e) :
    ∃ before c after earlier element later fault, cs = before ++ c :: after ∧
      c.elements = earlier ++ element :: later ∧
      e = .synthesis flags (sql ++ Clause.textAll before ++ c.text) element
        ⟨element.directive, fault⟩ ∧
      pass.StopsAt scope (Clause.directivesAll before ++ earlier.map Element.directive)
        element.directive fault := by
  induction cs generalizing sql pass with
  | nil => cases h
  | cons c cs ih =>
      rcases Directive.bind_eq_error.mp h with h | ⟨⟨programs, next⟩, helements, h⟩
      · obtain ⟨earlier, element, later, fault, helements, rfl, hstop⟩ := compileElements_stops h
        exact ⟨[], c, cs, earlier, element, later, fault, rfl, helements,
          by simp [Clause.textAll], hstop⟩
      rcases Directive.bind_eq_error.mp h with h | ⟨_, _, h⟩
      · obtain ⟨before, stopped, after, earlier, element, later, fault, rfl, hparts, rfl, hstop⟩ :=
          ih h
        refine ⟨c :: before, stopped, after, earlier, element, later, fault, rfl, hparts, ?_, ?_⟩
        · rw [Clause.textAll_cons, ← String.append_assoc]
        · rw [Clause.directivesAll_cons, List.append_assoc]
          exact hstop.after (compileElements_ok helements)
      · cases h

end Template

/-! ## The places of directives -/

namespace Descriptor

variable {d : Descriptor} {joiner : String} {p : Paging} {before after : List Clause} {c : Clause}

/-- The elements of the statements for some flags, each with the directives that are compiled before
its own, and with the text up to the end of the fragment, the limit or the offset that it stands
in. -/
inductive Reaches (d : Descriptor) (flags : Flags) (head : String) :
    Element → List String → String → Prop
  | fragment {before after : List Fragment} {f : Fragment} {earlier later : List String}
      {directive : String} (happlicable : d.applicable flags = before ++ f :: after)
      (hvalues : f.values = earlier ++ directive :: later) :
      Reaches d flags head (.fragment f.query directive) (before.flatMap (·.values) ++ earlier)
        (head ++ conditions before ++ joinerAfter before ++ f.query)
  | limit {directive : String} (hlimit : d.paging.limit = some directive) :
      Reaches d flags head (.limit directive) ((d.applicable flags).flatMap (·.values))
        (head ++ conditions (d.applicable flags) ++ sortText d.paging ++ " limit ?")
  | offset {directive : String} (hoffset : d.paging.offset = some directive) :
      Reaches d flags head (.offset directive)
        ((d.applicable flags).flatMap (·.values) ++ d.paging.limit.toList)
        (head ++ conditions (d.applicable flags) ++ sortText d.paging ++ limitText d.paging ++
          " offset ?")

theorem eq_append_cons_of_append {α : Type} {xs ys before after : List α} {a : α}
    (h : xs ++ ys = before ++ a :: after) :
    (∃ rest, xs = before ++ a :: rest) ∨ ∃ rest, before = xs ++ rest ∧ ys = rest ++ a :: after := by
  rcases List.append_eq_append_iff.mp h with hinside | ⟨rest, hxs, hrest⟩
  · exact .inr hinside
  · rcases List.cons_eq_append_iff.mp hrest with ⟨rfl, hys⟩ | ⟨rest, rfl, -⟩
    · exact .inr ⟨[], by simpa using hxs.symm, hys⟩
    · exact .inl ⟨rest, hxs⟩

theorem eq_some_of_toList {α : Type} {o : Option α} {before after : List α} {a : α}
    (h : o.toList = before ++ a :: after) : before = [] ∧ o = some a := by
  cases o <;> cases before <;> simp_all

theorem eq_of_singleton_eq_append {α : Type} {before after : List α} {a b : α}
    (h : [b] = before ++ a :: after) : before = [] ∧ a = b := by
  cases before <;> simp_all

theorem filterClauses_eq_append {fs : List Fragment}
    (h : filterClauses joiner fs = before ++ c :: after) :
    ∃ former f latter, fs = former ++ f :: latter ∧ before = filterClauses joiner former ∧
      c = ⟨(if former = [] then joiner else " and ") ++ f.query,
        f.values.map (.fragment f.query)⟩ := by
  induction fs generalizing joiner before with
  | nil => cases before <;> cases h
  | cons f fs ih =>
      rw [filterClauses] at h
      rcases List.cons_eq_append_iff.mp h with ⟨rfl, hc⟩ | ⟨before, rfl, hrest⟩
      · obtain ⟨rfl, -⟩ := List.cons.inj hc
        exact ⟨[], f, fs, rfl, rfl, rfl⟩
      · obtain ⟨former, g, latter, rfl, rfl, rfl⟩ := ih hrest
        exact ⟨f :: former, g, latter, rfl, rfl, by simp⟩

/-- A condition is reached behind those for the fragments before its own. -/
theorem reaches_of_filterClauses {element : Element} {earlier later : List Element}
    (h : filterClauses " where " (d.applicable flags) = before ++ c :: after)
    (hc : c.elements = earlier ++ element :: later) :
    d.Reaches flags head element
      (Clause.directivesAll before ++ earlier.map Element.directive)
      (head ++ Clause.textAll before ++ c.text) := by
  obtain ⟨former, f, latter, happlicable, rfl, rfl⟩ := filterClauses_eq_append h
  obtain ⟨done, rest, hvalues, rfl, hrest⟩ := List.map_eq_append_iff.mp hc
  obtain ⟨directive, todo, rfl, rfl, -⟩ := List.map_eq_cons_iff.mp hrest
  have hjoiner : (if former = [] then " where " else " and ") = joinerAfter former := by
    cases former <;> rfl
  have hearlier : (done.map (Element.fragment f.query)).map Element.directive = done := by
    rw [List.map_map]
    exact List.map_id _
  rw [directivesAll_filterClauses, hearlier, hjoiner, ← String.append_assoc]
  exact .fragment happlicable hvalues

/-- Of sorting and paging, the limit and the offset have a directive each. -/
theorem pagingClauses_eq_append (h : pagingClauses p = before ++ c :: after)
    (hc : c.elements ≠ []) :
    (∃ directive, p.limit = some directive ∧ c = ⟨" limit ?", [.limit directive]⟩ ∧
      before = pagingClauses { sort := p.sort }) ∨
    ∃ directive, p.offset = some directive ∧ c = ⟨" offset ?", [.offset directive]⟩ ∧
      before = pagingClauses { sort := p.sort, limit := p.limit } := by
  rcases eq_append_cons_of_append h with ⟨_, hfirst⟩ | ⟨rest, hbefore, hlast⟩
  · rcases eq_append_cons_of_append hfirst with ⟨_, hsort⟩ | ⟨rest, hbefore, hlast⟩
    · obtain ⟨-, hsort⟩ := eq_some_of_toList hsort
      obtain ⟨column, -, rfl⟩ := Option.map_eq_some_iff.mp hsort
      exact absurd rfl hc
    · obtain ⟨rfl, hclause⟩ := eq_some_of_toList hlast
      obtain ⟨directive, hlimit, rfl⟩ := Option.map_eq_some_iff.mp hclause
      exact .inl ⟨directive, hlimit, rfl, by simp [hbefore, pagingClauses]⟩
  · obtain ⟨rfl, hclause⟩ := eq_some_of_toList hlast
    obtain ⟨directive, hoffset, rfl⟩ := Option.map_eq_some_iff.mp hclause
    exact .inr ⟨directive, hoffset, rfl, by simp [hbefore, pagingClauses]⟩

theorem reaches_of_pagingClauses {element : Element} {earlier later : List Element}
    (h : pagingClauses d.paging = before ++ c :: after)
    (hc : c.elements = earlier ++ element :: later) :
    d.Reaches flags head element
      ((d.applicable flags).flatMap (·.values) ++ Clause.directivesAll before ++
        earlier.map Element.directive)
      (head ++ conditions (d.applicable flags) ++ Clause.textAll before ++ c.text) := by
  rcases pagingClauses_eq_append h (by simp [hc]) with
    ⟨directive, hlimit, rfl, rfl⟩ | ⟨directive, hoffset, rfl, rfl⟩
  · obtain ⟨rfl, rfl⟩ := eq_of_singleton_eq_append hc
    have hreach : d.Reaches flags head _ _ _ := .limit hlimit
    simpa [directivesAll_pagingClauses, textAll_pagingClauses, sortText, limitText, offsetText]
      using hreach
  · obtain ⟨rfl, rfl⟩ := eq_of_singleton_eq_append hc
    have hreach : d.Reaches flags head _ _ _ := .offset hoffset
    simpa [directivesAll_pagingClauses, textAll_pagingClauses, sortText, limitText, offsetText,
      String.append_assoc] using hreach

/-- Each element of the clauses of a statement is reached with the text up to the end of its
clause. -/
theorem reaches_of_clauses {element : Element} {earlier later : List Element}
    (h : d.clauses flags = before ++ c :: after) (hc : c.elements = earlier ++ element :: later) :
    d.Reaches flags head element
      (Clause.directivesAll before ++ earlier.map Element.directive)
      (head ++ Clause.textAll before ++ c.text) := by
  rcases eq_append_cons_of_append h with ⟨rest, hfilter⟩ | ⟨rest, rfl, hpaging⟩
  · exact reaches_of_filterClauses hfilter hc
  · rw [Clause.directivesAll_append, directivesAll_filterClauses, Clause.textAll_append,
      ← String.append_assoc]
    exact reaches_of_pagingClauses hpaging hc

end Descriptor

/-! ## Plans -/

namespace Template

variable {t : Template σ} {u : Template τ}

theorem plan_columns {p : Plan σ} (h : t.plan flags = .ok p) :
    p.columns = t.descriptor.readings := by
  obtain ⟨head, -, h⟩ := Directive.bind_eq_ok.mp h
  obtain ⟨⟨sql, programs⟩, -, h⟩ := Directive.bind_eq_ok.mp h
  cases h
  rfl

/-- A plan that cannot be made, for a descriptor that has a head, stops at a directive. -/
theorem plan_stops (hhead : t.descriptor.head = .ok head) (h : t.plan flags = .error e) :
    ∃ before c after earlier element later fault,
      t.descriptor.clauses flags = before ++ c :: after ∧
      c.elements = earlier ++ element :: later ∧
      e = .synthesis flags (head ++ Clause.textAll before ++ c.text) element
        ⟨element.directive, fault⟩ ∧
      ({} : Pass).StopsAt t.scope (Clause.directivesAll before ++ earlier.map Element.directive)
        element.directive fault := by
  rcases Directive.bind_eq_error.mp h with h | ⟨_, hstart, h⟩
  · rw [hhead] at h
    cases h
  rw [hhead] at hstart
  cases hstart
  rcases Directive.bind_eq_error.mp h with h | ⟨_, _, h⟩
  · exact writeClauses_stops h
  · cases h

/-- Plans for the same descriptor have the same statement, the same fingerprint and the same columns
if the same fragments apply. A plan that cannot be made then stops at a directive, in front of which
all others compile; the text that its error shows ends with the fragment, the limit or the offset
that holds the directive, and the statement of a plan that can be made starts with that text. -/
theorem plan_wording (hsame : u.descriptor = t.descriptor)
    (happly : ∀ f ∈ t.descriptor.filters, f.applies flags = f.applies flags') :
    (∀ p q, t.plan flags = .ok p → u.plan flags' = .ok q →
      p.sql = q.sql ∧ p.fingerprint = q.fingerprint ∧ p.columns = q.columns) ∧
    ∀ e q, t.plan flags = .error e → u.plan flags' = .ok q →
      ∃ sql element fault, e = .synthesis flags sql element ⟨element.directive, fault⟩ ∧
        (∃ rest, q.sql = sql ++ rest) ∧
        ∃ head earlier, t.descriptor.head = .ok head ∧
          t.descriptor.Reaches flags head element earlier sql ∧
          ({} : Pass).StopsAt t.scope earlier element.directive fault := by
  have hclauses : u.descriptor.clauses flags' = t.descriptor.clauses flags := by
    rw [hsame, Descriptor.clauses, Descriptor.clauses, Descriptor.applicable,
      ← List.filter_congr happly, Descriptor.applicable]
  constructor
  · intro p q hp hq
    obtain ⟨head, hhead, hsql⟩ := plan_text hp
    obtain ⟨head', hhead', hsql'⟩ := plan_text hq
    obtain rfl : head = head' := Except.ok.inj ((hhead.symm.trans (hsame ▸ rfl)).trans hhead')
    rw [hclauses] at hsql'
    have htext : p.sql = q.sql := hsql.trans hsql'.symm
    refine ⟨htext, ?_, ?_⟩
    · rw [Plan.fingerprint, Plan.fingerprint, htext]
    · rw [plan_columns hp, plan_columns hq, hsame]
  · intro e q he hq
    obtain ⟨head, hhead, hsql⟩ := plan_text hq
    rw [hsame] at hhead
    rw [hclauses] at hsql
    obtain ⟨before, c, after, earlier, element, later, fault, hcs, hparts, rfl, hstop⟩ :=
      plan_stops hhead he
    refine ⟨_, element, fault, rfl, ⟨Clause.textAll after, ?_⟩, head, _, hhead,
      Descriptor.reaches_of_clauses hcs hparts, hstop⟩
    rw [hsql, hcs, Clause.textAll_append, Clause.textAll_cons]
    simp only [String.append_assoc]

/-- Two filters, the second of which asks for the side object, a limit and an offset. -/
def sidedDescriptor : Descriptor :=
  ⟨"sided", [⟨0, "t", none⟩], [⟨⟨0, ["id"]⟩, .scalar .long⟩],
    [⟨1, none, "a = ?", ["1>0"]⟩, ⟨2, none, "b < ? or b = ?", ["<0", "^"]⟩],
    { limit := some "<0?2", offset := some "3" }⟩

def sidelessTemplate : Template Unit := ⟨sidedDescriptor, {}, .any, none⟩

def sidedTemplate : Template Nat := ⟨sidedDescriptor, {}, .any, some .any⟩

/-- Without a side object the second filter stops the plan. With one, and with other flags that the
same filters apply to, there is a plan. -/
theorem plan_wording_sided : ∃ q, sidedTemplate.plan 7 = .ok q ∧
    (∃ rest, q.sql = "select id from t where a = ? and b < ? or b = ?" ++ rest) ∧
    ∃ head earlier, sidedDescriptor.Reaches 3 head (.fragment "b < ? or b = ?" "^") earlier
      "select id from t where a = ? and b < ? or b = ?" := by
  have hstopped : (sidelessTemplate.plan 3).map (fun _ => ()) = .error (.synthesis 3
      "select id from t where a = ? and b < ? or b = ?" (.fragment "b < ? or b = ?" "^")
      ⟨"^", .noSideProvider⟩) := by
    decide +kernel
  have hmade : (sidedTemplate.plan 7).isOk = true := by
    decide +kernel
  obtain ⟨-, hstops⟩ := @plan_wording _ _ 3 7 sidelessTemplate sidedTemplate rfl (by decide)
  cases hp : sidelessTemplate.plan 3 with
  | ok p =>
      rw [hp] at hstopped
      cases hstopped
  | error e =>
      cases hq : sidedTemplate.plan 7 with
      | error e' =>
          rw [hq] at hmade
          cases hmade
      | ok q =>
          rw [hp] at hstopped
          obtain ⟨sql, element, fault, he, hrest, head, earlier, -, hreach, -⟩ := hstops e q hp hq
          cases he
          cases hstopped
          exact ⟨q, rfl, hrest, head, earlier, hreach⟩

end Template

end FlagSelect
