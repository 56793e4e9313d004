import FlagSelect.Directive.Machine
import FlagSelect.Proofs.Directive.Reading
import Mathlib.Data.List.Forall2

/-!
# Typed machines

The types that the readers give to parts of directives say what is on the stack while their code
runs, under every meaning of types that the members of the schema respect. Main statement:
`Pass.compile_turns`.
-/

namespace FlagSelect

variable {σ α β : Type}

/-- Whether an evaluation stops only with faults of one sort and else gives what is wanted. -/
def Yields (stops : EvalFault → Prop) (wanted : α → Prop) : Evaluation σ α → Prop
  | .ok a => wanted a
  | .error (fault, _) => stops fault

theorem Yields.bind {stops : EvalFault → Prop} {wanted : α → Prop} {next : β → Prop}
    {e : Evaluation σ α} {f : α → Evaluation σ β} (h : Yields stops wanted e)
    (hf : ∀ a, wanted a → Yields stops next (f a)) : Yields stops next (e >>= f) := by
  cases e with
  | ok a => exact hf a h
  | error fault => exact h

theorem Yields.mono {stops : EvalFault → Prop} {wanted wanted' : α → Prop} {e : Evaluation σ α}
    (h : Yields stops wanted e) (hw : ∀ a, wanted a → wanted' a) : Yields stops wanted' e := by
  cases e with
  | ok a => exact hw a h
  | error fault => exact h

/-- A meaning of types under which everything that directives can reach has the type it is taken to
have. -/
structure Meaning (scope : Scope σ) (roots : Roots) where
  Has : Ty → Value → Prop
  /-- The faults that may end a program. -/
  Stops : EvalFault → Prop
  record : Has scope.record roots.record
  side : ∀ ty, scope.side = some ty → ∃ v, roots.side = some v ∧ Has ty v
  literal : ∀ digits v ty, Directive.literal? digits = some (v, ty) → Has ty v
  read : ∀ receiver name f v host, Directive.field scope.schema receiver name = .ok f →
    Has receiver v → Yields Stops (fun r => Has f.ty r.1) (f.read v host)
  invoke : ∀ receiver name types m v args host,
    Directive.overload scope.schema receiver name types = .ok m → Has receiver v →
    List.Forall₂ Has types args → Yields Stops (fun r => Has m.result r.1) (m.invoke v args host)

variable {scope : Scope σ} {roots : Roots} {M : Meaning scope roots} {pass pass' pass'' : Pass}
  {types types' types'' : List Ty} {ty : Ty} {v : Value} {base : List Value} {m : Machine σ}
  {code code' : List (Instr σ)}

namespace Machine

@[simp] theorem run_nil : run roots m [] = .ok m := rfl

@[simp] theorem run_cons {i : Instr σ} :
    run roots m (i :: code) = m.step roots i >>= fun m => run roots m code := rfl

theorem run_append :
    run roots m (code ++ code') = run roots m code >>= fun m => run roots m code' :=
  List.foldlM_append

/-- A machine at some point of a pass, with values of some types on top of a stack, the topmost
first. -/
structure Fits (M : Meaning scope roots) (pass : Pass) (types : List Ty) (base : List Value)
    (m : Machine σ) : Prop where
  locals : ∀ i, Option.Rel M.Has (pass.locals.get? i) (m.locals.get? i)
  side : pass.resolved = true → m.side = roots.side
  stack : ∃ vs, m.stack = vs ++ base ∧ List.Forall₂ M.Has types vs

theorem Fits.push (h : m.Fits M pass types base) (hv : M.Has ty v) :
    (m.push v).Fits M pass (ty :: types) base := by
  obtain ⟨vs, hstack, hvs⟩ := h.stack
  exact ⟨h.locals, h.side, v :: vs, by rw [Machine.push, hstack]; rfl, .cons hv hvs⟩

theorem Fits.split (h : m.Fits M pass (types ++ types') base) :
    ∃ vs, List.Forall₂ M.Has types' vs ∧ m.Fits M pass types (vs ++ base) := by
  obtain ⟨vs, hstack, hvs⟩ := h.stack
  refine ⟨vs.drop types.length, ?_, h.locals, h.side, vs.take types.length, ?_, ?_⟩
  · simpa using List.forall₂_drop types.length hvs
  · rw [hstack, ← List.append_assoc, List.take_append_drop]
  · simpa using List.forall₂_take types.length hvs

theorem Fits.join {vs : List Value} (h : m.Fits M pass types (vs ++ base))
    (hvs : List.Forall₂ M.Has types' vs) : m.Fits M pass (types ++ types') base := by
  obtain ⟨ws, hstack, hws⟩ := h.stack
  exact ⟨h.locals, h.side, ws ++ vs, by rw [hstack, List.append_assoc], List.rel_append hws hvs⟩

/-- The topmost value of a machine. -/
theorem Fits.top (h : m.Fits M pass (ty :: types) base) :
    ∃ v rest, m.stack = v :: rest ∧ M.Has ty v ∧
      ({ m with stack := rest } : Machine σ).Fits M pass types base := by
  obtain ⟨vs, hstack, hvs⟩ := h.stack
  cases hvs with
  | @cons _ v _ vs hv hvs => exact ⟨v, vs ++ base, hstack, hv, h.locals, h.side, vs, rfl, hvs⟩

theorem fits_start {host : σ} : ({ host } : Machine σ).Fits M {} [] [] :=
  ⟨fun _ => .none, (fun h => by cases h), [], rfl, .nil⟩

end Machine

/-- Code that turns values of some types into values of others, whatever lies below them. -/
def Turns (M : Meaning scope roots) (pass : Pass) (types : List Ty) (code : List (Instr σ))
    (pass' : Pass) (types' : List Ty) : Prop :=
  ∀ base (m : Machine σ), m.Fits M pass types base →
    Yields M.Stops (Machine.Fits M pass' types' base) (m.run roots code)

namespace Turns

theorem append (h : Turns M pass types code pass' types')
    (h' : Turns M pass' types' code' pass'' types'') :
    Turns M pass types (code ++ code') pass'' types'' := by
  intro base m hm
  rw [Machine.run_append]
  exact (h base m hm).bind fun m' hm' => h' base m' hm'

theorem below (h : Turns M pass types code pass' types') (types'' : List Ty) :
    Turns M pass (types ++ types'') code pass' (types' ++ types'') := by
  intro base m hm
  obtain ⟨vs, hvs, hm⟩ := hm.split
  exact (h (vs ++ base) m hm).mono fun m' hm' => hm'.join hvs

theorem nil : Turns M pass types [] pass types :=
  fun _ _ hm => hm

theorem of_step {i : Instr σ} (h : ∀ base (m : Machine σ), m.Fits M pass types base →
    Yields M.Stops (Machine.Fits M pass' types' base) (m.step roots i)) :
    Turns M pass types [i] pass' types' := by
  intro base m hm
  rw [Machine.run_cons]
  exact (h base m hm).bind fun m' hm' => hm'

theorem loadRecord : Turns M pass [] [.loadRecord] pass [scope.record] :=
  of_step fun _ _ hm => hm.push M.record

theorem loadSide (hside : scope.side = some ty) :
    Turns M pass [] [if pass.resolved then .loadSide else .resolveSide]
      { pass with resolved := true } [ty] := by
  obtain ⟨v, hroots, hv⟩ := M.side ty hside
  refine of_step fun base m hm => ?_
  cases hresolved : pass.resolved with
  | true =>
      have hside := hm.side hresolved
      rw [hroots] at hside
      simp only [if_true, Machine.step, hside]
      obtain ⟨hlocals, -, hstack⟩ := hm.push hv
      exact ⟨hlocals, fun _ => hside.trans hroots.symm, hstack⟩
  | false =>
      simp only [Bool.false_eq_true, if_false, Machine.step, hroots]
      obtain ⟨hlocals, -, hstack⟩ := hm.push hv
      exact ⟨hlocals, fun _ => hroots.symm, hstack⟩

theorem loadLocal {i : Slot} (hty : pass.locals.get? i = some ty) :
    Turns M pass [] [.loadLocal i] pass [ty] := by
  refine of_step fun base m hm => ?_
  have hi := hm.locals i
  rw [hty] at hi
  simp only [Machine.step]
  cases hv : m.locals.get? i with
  | none => rw [hv] at hi; cases hi
  | some v =>
      rw [hv] at hi
      cases hi with
      | some hv => exact hm.push hv

theorem storeLocal {i : Slot} :
    Turns M pass [ty] [.storeLocal i] { pass with locals := pass.locals.set i ty } [ty] := by
  refine of_step fun base m hm => ?_
  obtain ⟨v, rest, hstack, hv, -⟩ := hm.top
  simp only [Machine.step, hstack]
  refine ⟨fun j => ?_, hm.side, hstack ▸ hm.stack⟩
  by_cases hj : j = i
  · subst hj
    simpa using Option.Rel.some hv
  · simpa [Slots.get?_set_of_ne hj] using hm.locals j

theorem loadField {receiver : Ty} {name : String} {f : Field σ}
    (hf : Directive.field scope.schema receiver name = .ok f) :
    Turns M pass [receiver] [.loadField f] pass [f.ty] := by
  refine of_step fun base m hm => ?_
  obtain ⟨v, rest, hstack, hv, hrest⟩ := hm.top
  simp only [Machine.step, hstack]
  refine (M.read receiver name f v m.host hf hv).bind fun r hr => ?_
  have hpush := hrest.push hr
  exact ⟨hpush.locals, hpush.side, hpush.stack⟩

theorem invoke {receiver : Ty} {name : String} {method : Method σ}
    (hm : Directive.overload scope.schema receiver name types = .ok method) :
    Turns M pass (types.reverse ++ [receiver]) [.invoke method types.length] pass
      [method.result] := by
  refine of_step fun base m hfits => ?_
  obtain ⟨under, hunder, hargs⟩ := hfits.split
  cases hunder with
  | @cons _ v _ _ hv hnil =>
      cases hnil
      obtain ⟨args, hstack, hargs'⟩ := hargs.stack
      have hlength : args.length = types.length := by simpa using hargs'.length_eq.symm
      simp only [Machine.step, hstack, ← hlength, List.drop_left, List.take_left]
      have hargs' : List.Forall₂ M.Has types args.reverse := by simpa using List.rel_reverse hargs'
      refine (M.invoke receiver name types method v _ m.host hm hv hargs').bind fun r hr => ?_
      exact ⟨hfits.locals, hfits.side, [r.1], rfl, .cons hr .nil⟩

theorem push (hv : M.Has ty v) : Turns M pass [] [.push v] pass [ty] :=
  of_step fun _ _ hm => hm.push hv

end Turns

namespace Directive

-- By induction on the reading. The pass lists the slots that hold something, so that each load of a
-- slot finds a value, and the types on the stack account for every operand that is taken off it.
mutual

theorem Reads.turns {place ctx pass text part} (h : Reads scope place ctx pass text part) :
    Turns M pass ctx.toList part.code part.pass [part.ty] := by
  match h with
  | .finish _ => exact .nil
  | .value hstart htail => exact hstart.turns.append htail.turns
  | .reused _ _ hty => exact .loadLocal hty
  | .pending _ _ _ hpart => exact hpart.turns
  | .select _ _ hhead htail => exact hhead.turns.append htail.turns
  | .store _ _ htail => exact Turns.storeLocal.append htail.turns

theorem Starts.turns {pass text part} (h : Starts scope pass text part) :
    Turns M pass [] part.code part.pass [part.ty] := by
  match h with
  | .load _ _ hty => exact .loadLocal hty
  | .side hside => exact .loadSide hside
  | .group hpart _ => exact hpart.turns
  | .literal _ hliteral => exact .push (M.literal _ _ _ hliteral)
  | .member _ hpart => exact Turns.loadRecord.append hpart.turns

theorem Selects.turns {receiver name pass text part}
    (h : Selects scope receiver name pass text part) :
    Turns M pass [receiver] part.code part.pass [part.ty] := by
  match h with
  | .call hargs hm => exact (hargs.turns.below [receiver]).append (.invoke hm)
  | .field _ _ hf => exact .loadField hf

theorem Takes.turns {pass text args} (h : Takes scope pass text args) :
    Turns M pass [] args.code args.pass args.types.reverse := by
  match h with
  | .nothing => exact .nil
  | .several _ hargs => exact hargs.turns

theorem TakesMore.turns {pass text args} (h : TakesMore scope pass text args) :
    Turns M pass [] args.code args.pass args.types.reverse := by
  match h with
  | .more hpart _ hargs =>
      rw [List.reverse_cons]
      exact hpart.turns.append (hargs.turns.below [_])
  | .last hpart _ => exact hpart.turns

end

end Directive

end FlagSelect
