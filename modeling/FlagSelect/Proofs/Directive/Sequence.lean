import FlagSelect.Proofs.Directive.Typing

/-!
# Sequences of directives

The directives of one statement share a pass, and their programs a machine. Main statement:
`Pass.evalEach_typed`.
-/

namespace FlagSelect

variable {σ : Type} {scope : Scope σ} {roots : Roots} {pass pass' : Pass} {directive : String}
  {directives : List String} {program : Program σ} {programs : List (Program σ)} {m : Machine σ}

/-- Compiles directives in order in one pass, all of which have to compile. -/
def Pass.compileAll (scope : Scope σ) (pass : Pass) :
    List String → Directive.Outcome (List (Program σ) × Pass)
  | [] => .ok ([], pass)
  | directive :: rest => do
    let (program, pass) ← pass.compile scope directive
    let (programs, pass) ← pass.compileAll scope rest
    return (program :: programs, pass)

/-- What programs come to in order on one machine, up to the first that stops. -/
def Machine.evalEach (roots : Roots) (m : Machine σ) :
    List (Program σ) → List (Evaluation σ (Value × Machine σ))
  | [] => []
  | p :: rest =>
    match m.eval roots p with
    | .ok (v, m) => .ok (v, m) :: m.evalEach roots rest
    | .error stopped => [.error stopped]

theorem Pass.compileAll_cons {r : List (Program σ) × Pass}
    (h : pass.compileAll scope (directive :: directives) = .ok r) :
    ∃ program next programs, pass.compile scope directive = .ok (program, next) ∧
      next.compileAll scope directives = .ok (programs, r.2) ∧ r.1 = program :: programs := by
  rw [compileAll] at h
  obtain ⟨⟨program, next⟩, hcompile, h⟩ := Directive.bind_eq_ok.mp h
  obtain ⟨⟨programs, last⟩, hrest, h⟩ := Directive.bind_eq_ok.mp h
  cases h
  exact ⟨program, next, programs, hcompile, hrest, rfl⟩

/-- A machine between two programs, at some point of a pass. -/
def Machine.Follows (M : Meaning scope roots) (pass : Pass) (m : Machine σ) : Prop :=
  m.Fits M pass [] m.stack

variable {M : Meaning scope roots}

theorem Machine.follows_start {host : σ} : ({ host } : Machine σ).Follows M {} :=
  fits_start

/-- What comes of a program that has been compiled. -/
theorem Pass.eval_typed (h : pass.compile scope directive = .ok (program, pass'))
    (hm : m.Follows M pass) :
    Yields M.Stops (fun r => M.Has program.result r.1 ∧ r.2.Follows M pass')
      (m.eval roots program) := by
  obtain ⟨part, hpart, rfl, rfl⟩ := compile_reads h
  have hempty : ({ m with stack := [] } : Machine σ).Fits M pass [] [] :=
    ⟨hm.locals, hm.side, [], rfl, .nil⟩
  refine (hpart.turns [] _ hempty).bind fun m' hm' => ?_
  obtain ⟨v, rest, hstack, hv, hrest⟩ := hm'.top
  obtain ⟨vs, hnil, hvs⟩ := hrest.stack
  cases hvs
  obtain rfl : rest = [] := hnil
  rw [hstack]
  exact ⟨hv, hm'.locals, hm'.side, [], rfl, .nil⟩

/-- Of the programs of directives that compile in one pass each gives a value of its type, unless it
stops with a fault that may stop it. -/
theorem Pass.evalEach_typed (h : pass.compileAll scope directives = .ok (programs, pass'))
    (hm : m.Follows M pass) :
    ∀ p r, (p, r) ∈ programs.zip (m.evalEach roots programs) →
      Yields M.Stops (fun r => M.Has p.result r.1) r := by
  induction directives generalizing pass programs m with
  | nil =>
      cases h
      intro p r hr
      cases hr
  | cons directive directives ih =>
      obtain ⟨program, next, programs, hcompile, hrest, rfl⟩ := compileAll_cons h
      have htyped := eval_typed hcompile hm
      intro p r hr
      rw [Machine.evalEach] at hr
      cases heval : m.eval roots program with
      | error stopped =>
          rw [heval] at htyped hr
          simp only [List.zip_cons_cons, List.zip_nil_right, List.mem_singleton,
            Prod.mk.injEq] at hr
          obtain ⟨rfl, rfl⟩ := hr
          exact htyped
      | ok r' =>
          obtain ⟨v, m'⟩ := r'
          rw [heval] at htyped hr
          simp only [List.zip_cons_cons, List.mem_cons, Prod.mk.injEq] at hr
          rcases hr with ⟨rfl, rfl⟩ | hr
          · exact htyped.1
          · exact ih hrest htyped.2 p r hr

end FlagSelect
