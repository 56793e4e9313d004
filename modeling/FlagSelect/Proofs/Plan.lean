import FlagSelect.Plan
import FlagSelect.Proofs.Descriptor.Acceptance
import FlagSelect.Proofs.Directive.Sequence

/-!
# What a plan consists of

The programs of a plan are those of its directives, compiled in one pass. Main statements:
`Template.plan_ok` and `Template.plan_error`.
-/

namespace FlagSelect

variable {σ : Type} {scope : Scope σ} {pass pass' : Pass} {flags : Flags} {sql : String} {e : Error}

theorem Pass.compileAll_append {ds ds' : List String} {programs programs' : List (Program σ)}
    {pass'' : Pass} (h : pass.compileAll scope ds = .ok (programs, pass'))
    (h' : pass'.compileAll scope ds' = .ok (programs', pass'')) :
    pass.compileAll scope (ds ++ ds') = .ok (programs ++ programs', pass'') := by
  induction ds generalizing pass programs with
  | nil => cases h; exact h'
  | cons d ds ih =>
      obtain ⟨program, next, rest, hcompile, hrest, rfl⟩ := compileAll_cons h
      rw [List.cons_append, compileAll, hcompile]
      exact Directive.bind_eq_ok.mpr ⟨_, rfl, Directive.bind_eq_ok.mpr ⟨_, ih hrest, rfl⟩⟩

namespace Descriptor

variable {d : Descriptor}

/-- The directives of the statement for these flags, in the order of their placeholders. -/
def directives (d : Descriptor) (flags : Flags) : List String :=
  (d.clauses flags).flatMap fun c => c.elements.map Element.directive

theorem mapM_joins (ts : List Table) {f : Table → Except Error String}
    (h : ∀ t ∈ ts, ∃ text, f t = .ok text) : ∃ texts, ts.mapM f = .ok texts := by
  induction ts with
  | nil => exact ⟨[], rfl⟩
  | cons t ts ih =>
      obtain ⟨text, htext⟩ := h t List.mem_cons_self
      obtain ⟨texts, htexts⟩ := ih fun t ht => h t (List.mem_cons_of_mem _ ht)
      refine ⟨text :: texts, ?_⟩
      rw [List.mapM_cons, htext]
      exact Directive.bind_eq_ok.mpr ⟨_, rfl, Directive.bind_eq_ok.mpr ⟨_, htexts, rfl⟩⟩

/-- A descriptor whose tables can be joined has a head. -/
theorem head_ok (h : d.Joinable) : ∃ head, d.head = .ok head := by
  have hjoin : ∀ t ∈ d.tables.drop 1, ∃ text, joinText? t = some text := by
    intro t ht
    obtain ⟨hletter, hjoin⟩ := h t ht
    obtain ⟨letter, hletter⟩ := Option.isSome_iff_exists.mp hletter
    obtain ⟨join, hjoin⟩ := Option.isSome_iff_exists.mp hjoin
    exact ⟨_, by simp only [joinText?, hletter, hjoin]; rfl⟩
  rw [head]
  refine (mapM_joins (d.tables.drop 1) fun t ht => ?_).elim fun joins hjoins =>
    ⟨_, Directive.bind_eq_ok.mpr ⟨joins, hjoins, rfl⟩⟩
  obtain ⟨text, htext⟩ := hjoin t ht
  exact ⟨text, by rw [htext]⟩

end Descriptor

namespace Template

variable {t : Template σ} {p : Plan σ}

theorem compileElements_ok {es : List Element} {r : List (Program σ) × Pass}
    (h : compileElements scope flags sql pass es = .ok r) :
    pass.compileAll scope (es.map Element.directive) = .ok r := by
  induction es generalizing pass r with
  | nil => cases h; rfl
  | cons e es ih =>
      rw [compileElements] at h
      split at h
      · cases h
      · next program next hcompile =>
          obtain ⟨⟨programs, last⟩, hrest, h⟩ := Directive.bind_eq_ok.mp h
          cases h
          rw [List.map_cons, Pass.compileAll, hcompile]
          exact Directive.bind_eq_ok.mpr ⟨_, rfl, Directive.bind_eq_ok.mpr ⟨_, ih hrest, rfl⟩⟩

theorem writeClauses_ok {cs : List Clause} {r : String × List (Program σ)}
    (h : writeClauses scope flags sql pass cs = .ok r) :
    ∃ pass', pass.compileAll scope (cs.flatMap fun c => c.elements.map Element.directive) =
      .ok (r.2, pass') := by
  induction cs generalizing sql pass r with
  | nil => cases h; exact ⟨pass, rfl⟩
  | cons c cs ih =>
      obtain ⟨⟨programs, next⟩, helements, h⟩ := Directive.bind_eq_ok.mp h
      obtain ⟨⟨sql', more⟩, hrest, h⟩ := Directive.bind_eq_ok.mp h
      cases h
      obtain ⟨last, hlast⟩ := ih hrest
      exact ⟨last, Pass.compileAll_append (compileElements_ok helements) hlast⟩

/-- The programs of a plan are those of its directives. -/
theorem plan_ok (h : t.plan flags = .ok p) :
    p.flags = flags ∧ ∃ pass, ({} : Pass).compileAll t.scope (t.descriptor.directives flags) =
      .ok (p.bindings.map (·.program), pass) := by
  obtain ⟨head, -, h⟩ := Directive.bind_eq_ok.mp h
  obtain ⟨⟨sql, programs⟩, hclauses, h⟩ := Directive.bind_eq_ok.mp h
  cases h
  obtain ⟨pass, hpass⟩ := writeClauses_ok hclauses
  refine ⟨rfl, pass, hpass.trans ?_⟩
  simp [Function.comp_def, List.zipIdx_map_fst]

/-- The setter of a binding is that of the type of its program. -/
theorem plan_setter (h : t.plan flags = .ok p) :
    ∀ b ∈ p.bindings, b.setter = b.program.result.kind.setter := by
  obtain ⟨head, -, h⟩ := Directive.bind_eq_ok.mp h
  obtain ⟨⟨sql, programs⟩, -, h⟩ := Directive.bind_eq_ok.mp h
  cases h
  intro b hb
  obtain ⟨⟨program, i⟩, -, rfl⟩ := List.mem_map.mp hb
  rfl

theorem compileElements_error {es : List Element}
    (h : compileElements scope flags sql pass es = .error e) :
    ∃ element fault, e = .synthesis flags sql element fault := by
  induction es generalizing pass with
  | nil => cases h
  | cons element es ih =>
      rw [compileElements] at h
      split at h
      · cases h; exact ⟨_, _, rfl⟩
      · rcases Directive.bind_eq_error.mp h with h | ⟨_, _, h⟩
        · exact ih h
        · cases h

theorem writeClauses_error {cs : List Clause}
    (h : writeClauses scope flags sql pass cs = .error e) :
    ∃ sql element fault, e = .synthesis flags sql element fault := by
  induction cs generalizing sql pass with
  | nil => cases h
  | cons c cs ih =>
      rcases Directive.bind_eq_error.mp h with h | ⟨_, _, h⟩
      · exact ⟨_, compileElements_error h⟩
      rcases Directive.bind_eq_error.mp h with h | ⟨_, _, h⟩
      · exact ih h
      · cases h

/-- If the tables of the descriptor can be joined, only its directives can stand in the way of a
plan. -/
theorem plan_error (hjoins : t.descriptor.Joinable) (h : t.plan flags = .error e) :
    ∃ sql element fault, e = .synthesis flags sql element fault := by
  obtain ⟨head, hhead⟩ := Descriptor.head_ok hjoins
  rcases Directive.bind_eq_error.mp h with h | ⟨_, _, h⟩
  · rw [hhead] at h
    cases h
  rcases Directive.bind_eq_error.mp h with h | ⟨_, _, h⟩
  · exact writeClauses_error h
  · cases h

end Template

end FlagSelect
