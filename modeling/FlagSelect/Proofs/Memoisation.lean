import FlagSelect.Proofs.Alignment
import FlagSelect.Proofs.Directive.Storing
import FlagSelect.Proofs.Statement.Evaluation

/-!
# Memoised directives

Directives that ask for a slot before they compute what belongs there compute it once in a bind
pass, whatever directives stand between. Main statement: `Template.plan_memoised`.
-/

namespace FlagSelect

open Directive (mentioned Asks)

variable {σ : Type} {scope : Scope σ} {roots : Roots} {i : Slot} {ty : Ty} {flags : Flags}
  {programs programs' : List (Program σ)} {directive : String} {directives : List String}

/-! ## Compiling -/

/-- A program that leaves a slot alone, and only loads from it if its directive asks for it. -/
structure Loads (i : Slot) (ty : Ty) (p : Program σ) : Prop where
  unstored : .storeLocal i ∉ p.code
  load : Asks i p.directive → p.code = [.loadLocal i] ∧ p.result = ty

namespace Pass

variable {pass pass' : Pass} {program : Program σ}

theorem compile_directive (h : pass.compile scope directive = .ok (program, pass')) :
    program.directive = directive := by
  obtain ⟨part, -, rfl, -⟩ := compile_reads h
  rfl

/-- Directives that compile can be compiled in two parts. -/
theorem compileAll_split
    (h : pass.compileAll scope directives = .ok (programs ++ programs', pass')) :
    ∃ mid, pass.compileAll scope (programs.map (·.directive)) = .ok (programs, mid) ∧
      mid.compileAll scope (programs'.map (·.directive)) = .ok (programs', pass') := by
  induction programs generalizing pass directives with
  | nil =>
      rw [List.nil_append] at h
      refine ⟨pass, rfl, ?_⟩
      rw [directives_of_compileAll h]
      exact h
  | cons p programs ih =>
      cases directives with
      | nil => cases h
      | cons d directives =>
          obtain ⟨program, next, rest, hcompile, hrest, heq⟩ := compileAll_cons h
          obtain ⟨rfl, rfl⟩ := List.cons.inj heq
          obtain ⟨mid, hprograms, hprograms'⟩ := ih hrest
          refine ⟨mid, ?_, hprograms'⟩
          rw [List.map_cons, compileAll, compile_directive hcompile, hcompile]
          exact Directive.bind_eq_ok.mpr ⟨_, rfl, Directive.bind_eq_ok.mpr ⟨_, hprograms, rfl⟩⟩

theorem compile_unmentioned (h : pass.compile scope directive = .ok (program, pass'))
    (hi : i ∉ mentioned program.directive.toList) :
    .storeLocal i ∉ program.code ∧ pass'.locals.get? i = pass.locals.get? i := by
  obtain ⟨rest, hstores⟩ := compile_stores h
  rw [compile_directive h] at hi
  have hcode : .storeLocal i ∉ program.code := fun hmem => hi (hstores.mentioned i hmem)
  exact ⟨hcode, hstores.kept i hcode⟩

theorem compileAll_unmentioned (h : pass.compileAll scope directives = .ok (programs, pass'))
    (hi : ∀ p ∈ programs, i ∉ mentioned p.directive.toList) :
    pass'.locals.get? i = pass.locals.get? i := by
  induction directives generalizing pass programs with
  | nil => cases h; rfl
  | cons d directives ih =>
      obtain ⟨program, next, rest, hcompile, hrest, rfl⟩ := compileAll_cons h
      rw [ih hrest fun p hp => hi p (List.mem_cons_of_mem _ hp)]
      exact (compile_unmentioned hcompile (hi program List.mem_cons_self)).2

/-- If whoever mentions a known slot asks for it, the slot stays as it is known. -/
theorem compileAll_loads (h : pass.compileAll scope directives = .ok (programs, pass'))
    (hty : pass.locals.get? i = some ty)
    (hasks : ∀ p ∈ programs, i ∈ mentioned p.directive.toList → Asks i p.directive) :
    pass'.locals.get? i = some ty ∧ ∀ p ∈ programs, Loads i ty p := by
  induction directives generalizing pass programs with
  | nil => cases h; exact ⟨hty, fun p hp => by cases hp⟩
  | cons d directives ih =>
      obtain ⟨program, next, rest, hcompile, hrest, rfl⟩ := compileAll_cons h
      have hanswers : pass.Answers scope i ty := answers_of_known hty
      have hnext : next.locals.get? i = some ty ∧ Loads i ty program := by
        by_cases hmentions : i ∈ mentioned program.directive.toList
        · have hanswer := hanswers _ (hasks program List.mem_cons_self hmentions)
          rw [compile_directive hcompile, hcompile] at hanswer
          cases hanswer
          exact ⟨hty, by simp, fun _ => ⟨rfl, rfl⟩⟩
        · obtain ⟨hcode, hkept⟩ := compile_unmentioned hcompile hmentions
          refine ⟨hkept.trans hty, hcode, fun hask => ?_⟩
          have hanswer := hanswers _ hask
          rw [compile_directive hcompile, hcompile] at hanswer
          cases hanswer
          exact ⟨rfl, rfl⟩
      obtain ⟨hlast, hloads⟩ := ih hrest hnext.1 fun p hp => hasks p (List.mem_cons_of_mem _ hp)
      exact ⟨hlast, List.forall_mem_cons.mpr ⟨hnext.2, hloads⟩⟩

end Pass

/-! ## Evaluating -/

theorem Evaluates.locals {m m' : Machine σ} {vs : List Value}
    (h : Evaluates roots m programs vs m') (hunstored : ∀ p ∈ programs, .storeLocal i ∉ p.code) :
    m'.locals.get? i = m.locals.get? i := by
  induction h with
  | nil => rfl
  | cons heval _ ih =>
      rw [ih fun p hp => hunstored p (List.mem_cons_of_mem _ hp)]
      exact Machine.eval_locals heval (hunstored _ List.mem_cons_self)

section Host

variable {m : Machine σ} {p : Program σ} {after after' : List (Program σ)}

/-- Bind passes that go on with other programs behind one of them leave the same of the host if the
rests of them do. -/
theorem evalAll_cons
    (h : ∀ v m', m.eval roots p = .ok (v, m') →
      (evalAll flags roots m' after).2 = (evalAll flags roots m' after').2) :
    (evalAll flags roots m (p :: after)).2 = (evalAll flags roots m (p :: after')).2 := by
  rw [evalAll, evalAll]
  cases heval : m.eval roots p with
  | error stopped => rfl
  | ok r =>
      obtain ⟨v, next⟩ := r
      have hrest := h v next heval
      dsimp only
      generalize evalAll flags roots next after = a at hrest
      generalize evalAll flags roots next after' = b at hrest
      obtain ⟨_ | _, _⟩ := a <;> obtain ⟨_ | _, _⟩ := b <;> exact hrest

theorem evalAll_append
    (h : ∀ m', (evalAll flags roots m' after).2 = (evalAll flags roots m' after').2) :
    (evalAll flags roots m (programs ++ after)).2 =
      (evalAll flags roots m (programs ++ after')).2 := by
  induction programs generalizing m with
  | nil => exact h m
  | cons p programs ih => exact evalAll_cons fun _ _ _ => ih

theorem evalAll_stack :
    evalAll flags roots { m with stack := [] } programs = evalAll flags roots m programs := by
  cases programs <;> rfl

/-- Loads from a slot that holds something can be left out as far as the host is concerned. -/
theorem evalAll_filter {w : Value} (keep : Program σ → Bool) (hw : m.locals.get? i = some w)
    (hunstored : ∀ p ∈ programs, .storeLocal i ∉ p.code)
    (hload : ∀ p ∈ programs, keep p = false → p.code = [.loadLocal i]) :
    (evalAll flags roots m programs).2 = (evalAll flags roots m (programs.filter keep)).2 := by
  induction programs generalizing m with
  | nil => rfl
  | cons p programs ih =>
      rw [List.forall_mem_cons] at hunstored hload
      cases hkeep : keep p with
      | false =>
          have heval : m.eval roots p = _ := Machine.eval_loadLocal (hload.1 hkeep) hw
          rw [List.filter_cons_of_neg (by simp [hkeep]), ← ih hw hunstored.2 hload.2, evalAll,
            heval]
          dsimp only
          rw [evalAll_stack]
          split <;> next h => rw [h]
      | true =>
          rw [List.filter_cons_of_pos hkeep]
          refine evalAll_cons fun v m' heval => ih ?_ hunstored.2 hload.2
          exact (Machine.eval_locals heval hunstored.1).trans hw

/-- They can be left out behind a program that has stored to the slot. -/
theorem evalAll_reuse (keep : Program σ → Bool) (hstores : .storeLocal i ∈ p.code)
    (hunstored : ∀ q ∈ after, .storeLocal i ∉ q.code)
    (hload : ∀ q ∈ after, keep q = false → q.code = [.loadLocal i]) :
    (evalAll flags roots m (programs ++ p :: after)).2 =
      (evalAll flags roots m (programs ++ p :: after.filter keep)).2 := by
  refine evalAll_append fun _ => evalAll_cons fun v m' heval => ?_
  obtain ⟨w, -, hw⟩ := Machine.eval_stores heval hstores
  exact evalAll_filter keep hw hunstored hload

end Host

/-! ## Plans -/

theorem storeLocal_mem_recorded {p : Program σ} :
    .storeLocal i ∈ p.recorded.code ↔ .storeLocal i ∈ p.code := by
  have hrecorded (instr : Instr σ) : instr.recorded = .storeLocal i ↔ instr = .storeLocal i := by
    cases instr <;> simp [Instr.recorded]
  simp [Program.recorded, List.mem_map, hrecorded]

/-- The plan over a host that is recorded. -/
def Plan.recorded (p : Plan σ) : Plan (Recorder σ) where
  flags := p.flags
  sql := p.sql
  bindings := p.bindings.map fun b => ⟨b.index, b.setter, b.program.recorded⟩
  columns := p.columns

theorem Plan.bindValues_recorded {p : Plan σ} {side : Option Value} {record : Object}
    {r : Recorder σ} :
    p.recorded.bindValues side record r =
      evalAll p.flags ⟨.object record, side⟩ { host := r }
        (p.bindings.map (·.program.recorded)) := by
  rw [bindValues, recorded, List.map_map]
  rfl

/-- Whether the first binding that mentions a slot asks for it and stores to it, and whatever
mentions it later asks for it. -/
structure Memoised (i : Slot) (before : List (Binding σ)) (first : Binding σ)
    (after : List (Binding σ)) : Prop where
  fresh : ∀ b ∈ before, i ∉ mentioned b.program.directive.toList
  asks : Asks i first.program.directive
  stores : .storeLocal i ∈ first.program.code
  later : ∀ b ∈ after, i ∈ mentioned b.program.directive.toList → Asks i b.program.directive

/-- The plan without the bindings that use again what the first of them has computed. -/
def Plan.withoutReuse (p : Plan σ) (i : Slot) (before : List (Binding σ)) (first : Binding σ)
    (after : List (Binding σ)) : Plan σ :=
  { p with
    bindings := before ++ first :: after.filter fun b => !decide (Asks i b.program.directive) }

/-- What it means for a plan that its bindings use a slot for what the first of them computes. -/
structure ComputedOnce (scope : Scope σ) (p : Plan σ) (i : Slot) (before : List (Binding σ))
    (first : Binding σ) (after : List (Binding σ)) : Prop where
  /-- Nothing is known of the slot up to the first of them. From there on it has one type, with
  which every directive that asks for it is a load, whatever else it says. -/
  compiled : ∃ pass pass' ty,
    ({} : Pass).compileAll scope (before.map (·.program.directive)) =
      .ok (before.map (·.program), pass) ∧
    pass.locals.get? i = none ∧
    pass.compile scope first.program.directive = .ok (first.program, pass') ∧
    pass'.locals.get? i = some ty ∧
    (∀ reached rest, after = reached ++ rest →
      ∃ pass'', pass'.compileAll scope (reached.map (·.program.directive)) =
        .ok (reached.map (·.program), pass'') ∧ pass''.Answers scope i ty) ∧
    ∀ b ∈ after, Asks i b.program.directive →
      b.program.code = [.loadLocal i] ∧ b.program.result = ty
  /-- In a bind pass that comes to them they have the value that the first has stored last. -/
  evaluated : ∀ (roots : Roots) (host : σ) vs m v m',
    Evaluates roots { host } (before.map (·.program)) vs m →
    m.eval roots first.program = .ok (v, m') →
    ∃ w, ({ m with stack := [] } : Machine σ).StoresLast roots first.program.code i w ∧
      ∀ reached b rest ws m'', after = reached ++ b :: rest → Asks i b.program.directive →
        Evaluates roots m' (reached.map (·.program)) ws m'' →
        m''.eval roots b.program = .ok (w, { m'' with stack := [] })
  /-- A bind pass makes the calls of the host that it makes without them. -/
  calls : ∀ side record (r : Recorder σ), (p.recorded.bindValues side record r).2 =
    ((p.withoutReuse i before first after).recorded.bindValues side record r).2

variable {t : Template σ} {p : Plan σ} {before after : List (Binding σ)} {first : Binding σ}

theorem ComputedOnce.evaluates {m m' : Machine σ} {v : Value}
    (hstores : .storeLocal i ∈ first.program.code)
    (hloads : ∀ b ∈ after, Loads i ty b.program)
    (heval : m.eval roots first.program = .ok (v, m')) :
    ∃ w, ({ m with stack := [] } : Machine σ).StoresLast roots first.program.code i w ∧
      ∀ reached b rest ws m'', after = reached ++ b :: rest → Asks i b.program.directive →
        Evaluates roots m' (reached.map (·.program)) ws m'' →
        m''.eval roots b.program = .ok (w, { m'' with stack := [] }) := by
  obtain ⟨w, hlast, hw⟩ := Machine.eval_stores heval hstores
  refine ⟨w, hlast, fun reached b rest ws m'' hafter hasks hreached => ?_⟩
  subst hafter
  have hb := hloads b (by simp)
  refine Machine.eval_loadLocal (hb.load hasks).1 ?_
  rw [hreached.locals, hw]
  intro q hq
  obtain ⟨c, hc, rfl⟩ := List.mem_map.mp hq
  exact (hloads c (by simp [hc])).unstored

/-- A directive that is memoised runs once in a bind pass. -/
theorem Template.plan_memoised (h : t.plan flags = .ok p)
    (hbindings : p.bindings = before ++ first :: after) (hm : Memoised i before first after) :
    ComputedOnce t.scope p i before first after := by
  obtain ⟨-, last, hcompile⟩ := plan_ok h
  rw [hbindings, List.map_append, List.map_cons] at hcompile
  obtain ⟨pass, hbefore, hrest⟩ := Pass.compileAll_split hcompile
  obtain ⟨program, pass', programs, hfirst, hafter, heq⟩ := Pass.compileAll_cons hrest
  obtain ⟨rfl, rfl⟩ := List.cons.inj heq
  obtain ⟨rest, hstores⟩ := Pass.compile_stores hfirst
  obtain ⟨ty, hty⟩ := hstores.stored i hm.stores
  have hfresh := Pass.compileAll_unmentioned hbefore fun q hq => by
    obtain ⟨b, hb, rfl⟩ := List.mem_map.mp hq
    exact hm.fresh b hb
  have hlater : ∀ q ∈ after.map (·.program), i ∈ mentioned q.directive.toList →
      Asks i q.directive := by
    intro q hq
    obtain ⟨b, hb, rfl⟩ := List.mem_map.mp hq
    exact hm.later b hb
  have hloads := (Pass.compileAll_loads hafter hty hlater).2
  rw [List.forall_mem_map] at hloads
  constructor
  case compiled =>
    refine ⟨pass, pass', ty, ?_, hfresh, hfirst, hty, ?_, fun b hb => (hloads b hb).load⟩
    · rw [List.map_map] at hbefore
      exact hbefore
    · intro reached others hsplit
      subst hsplit
      rw [List.map_append] at hafter hlater
      obtain ⟨mid, hreached, -⟩ := Pass.compileAll_split hafter
      have hmid := Pass.compileAll_loads hreached hty fun q hq =>
        hlater q (List.mem_append_left _ hq)
      rw [List.map_map] at hreached
      exact ⟨mid, hreached, Pass.answers_of_known hmid.1⟩
  case evaluated =>
    intro roots host vs m v m' _ heval
    exact ComputedOnce.evaluates hm.stores hloads heval
  case calls =>
    intro side record r
    have hfilter : (after.filter fun b => !decide (Asks i b.program.directive)).map
        (·.program.recorded) =
        (after.map (·.program.recorded)).filter fun q => !decide (Asks i q.directive) := by
      rw [List.filter_map]
      rfl
    rw [Plan.bindValues_recorded, Plan.bindValues_recorded, hbindings, Plan.withoutReuse,
      List.map_append, List.map_append, List.map_cons, List.map_cons, hfilter]
    refine evalAll_reuse _ (storeLocal_mem_recorded.mpr hm.stores) ?_ ?_
    · intro q hq
      obtain ⟨b, hb, rfl⟩ := List.mem_map.mp hq
      exact fun hmem => (hloads b hb).unstored (storeLocal_mem_recorded.mp hmem)
    · intro q hq hasks
      obtain ⟨b, hb, rfl⟩ := List.mem_map.mp hq
      have hasks : Asks i b.program.recorded.directive := by simpa using hasks
      have hcode := ((hloads b hb).load hasks).1
      rw [Program.recorded, hcode]
      rfl

/-- Whether an instruction stores to a slot. -/
def Instr.storesTo (i : Slot) : Instr σ → Bool
  | .storeLocal j => j == i
  | _ => false

theorem any_storesTo {code : List (Instr σ)} (h : code.any (·.storesTo i) = true) :
    .storeLocal i ∈ code := by
  obtain ⟨instr, hmem, hstores⟩ := List.any_eq_true.mp h
  cases instr with
  | storeLocal j =>
      obtain rfl := beq_iff_eq.mp hstores
      exact hmem
  | _ => cases hstores

/-- A tick is used again behind another one, as the limit. -/
def tickTemplate : Template Nat :=
  ⟨⟨"ticks", [⟨0, "t", none⟩], [],
    [⟨0, none, "a = ? and b = ? and c = ?", ["^.tick(1)", "<0?^.tick(2)>0", "^.tick(3)"]⟩],
    { limit := some " <00?((" }⟩, pairedScope⟩

theorem plan_memoised_ticks :
    ∃ p before first after, tickTemplate.plan 0 = .ok p ∧ p.bindings = before ++ first :: after ∧
      after.map (·.program.directive) = ["^.tick(3)", " <00?(("] ∧
      ComputedOnce pairedScope p 0 before first after := by
  have hstores : (tickTemplate.plan 0).toOption.any fun p =>
      p.bindings.map (·.program.code.any (·.storesTo 0)) == [false, true, false, false] := by
    decide +kernel
  cases h : tickTemplate.plan 0 with
  | error e =>
      rw [h] at hstores
      cases hstores
  | ok p =>
      have hdirectives : p.bindings.map (·.program.directive) =
          ["^.tick(1)", "<0?^.tick(2)>0", "^.tick(3)", " <00?(("] := by
        rw [Template.plan_directives h]
        decide +kernel
      obtain ⟨b, rest, hrest, hb, hdirectives⟩ := List.map_eq_cons_iff.mp hdirectives
      obtain ⟨first, after, rfl, hfirst, hafter⟩ := List.map_eq_cons_iff.mp hdirectives
      have hbindings : p.bindings = [b] ++ first :: after := hrest
      refine ⟨p, [b], first, after, rfl, hbindings, hafter,
        Template.plan_memoised h hbindings ⟨?_, ?_, ?_, ?_⟩⟩
      case refine_1 =>
        rw [List.forall_mem_singleton, hb]
        decide +kernel
      case refine_2 =>
        rw [hfirst]
        decide +kernel
      case refine_3 =>
        rw [h] at hstores
        have hcodes := beq_iff_eq.mp hstores
        rw [hrest] at hcodes
        exact any_storesTo (List.cons.inj (List.cons.inj hcodes).2).1
      case refine_4 =>
        have hlater : ∀ d ∈ after.map (·.program.directive), 0 ∈ mentioned d.toList → Asks 0 d := by
          rw [hafter]
          decide +kernel
        exact List.forall_mem_map.mp hlater

end FlagSelect
