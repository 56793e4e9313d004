import FlagSelect.Proofs.Directive.Storing
import FlagSelect.Proofs.Statement.Evaluation

/-!
# What programs need and supply

A program may need what those before it have left: the value of a slot, or the side object. Whatever
the code of a directive needs is known to the pass or has been supplied by the code in front, and it
never takes more operands than there are. Main statement: `Pass.compile_accounts`.
-/

namespace FlagSelect

variable {σ : Type}


/-- What a program can leave to those after it. -/
inductive Item where
  | slot (i : Slot)
  | side
deriving DecidableEq

/-- The breach of asking for what is not there. -/
def Item.breach : Item → Breach
  | slot i => .unsetSlot i
  | side => .sideUnresolved

namespace Instr

def needs? : Instr σ → Option Item
  | .loadLocal i => some (.slot i)
  | .loadSide => some .side
  | _ => none

def supplies? : Instr σ → Option Item
  | .storeLocal i => some (.slot i)
  | .resolveSide => some .side
  | _ => none

/-- How many operands an instruction looks at. It leaves one in their place. -/
def operands : Instr σ → Nat
  | .loadField _ => 1
  | .storeLocal _ => 1
  | .invoke _ argc => argc + 1
  | _ => 0

end Instr

def supplied (code : List (Instr σ)) : List Item := code.filterMap Instr.supplies?

/-- The number of operands after code, if there are enough for it all along. -/
def height? (h : Nat) : List (Instr σ) → Option Nat
  | [] => some h
  | i :: code => if i.operands ≤ h then height? (h - i.operands + 1) code else none

/-- Whether the pass counts on something to be there. -/
def Pass.Knows (pass : Pass) : Item → Prop
  | .slot i => (pass.locals.get? i).isSome
  | .side => pass.resolved = true

def Machine.Holds (m : Machine σ) : Item → Prop
  | .slot i => (m.locals.get? i).isSome
  | .side => m.side.isSome

variable {scope : Scope σ} {pass pass' pass'' : Pass} {code code' front back : List (Instr σ)}
  {instr : Instr σ} {item : Item} {n n' n'' : Nat} {ty : Ty}

theorem mem_supplied_cons :
    item ∈ supplied (instr :: code) ↔ instr.supplies? = some item ∨ item ∈ supplied code := by
  rw [supplied, supplied, List.filterMap_cons]
  cases instr.supplies? <;> simp [eq_comm]

theorem mem_supplied_append :
    item ∈ supplied (code ++ code') ↔ item ∈ supplied code ∨ item ∈ supplied code' := by
  rw [supplied, List.filterMap_append, List.mem_append]
  rfl

theorem height?_append {h : Nat} :
    height? h (code ++ code') = (height? h code).bind (height? · code') := by
  induction code generalizing h with
  | nil => rfl
  | cons i code ih =>
      rw [List.cons_append, height?, height?]
      split
      · exact ih
      · rfl

/-- What code takes for granted of the pass before it and of the operands, and what it leaves to the
pass after it: `n` operands become `n'`. -/
structure Accounts (scope : Scope σ) (pass : Pass) (n : Nat) (code : List (Instr σ)) (pass' : Pass)
    (n' : Nat) : Prop where
  knows : ∀ item, pass'.Knows item ↔ pass.Knows item ∨ item ∈ supplied code
  needs : ∀ front instr back item, code = front ++ instr :: back → instr.needs? = some item →
    pass.Knows item ∨ item ∈ supplied front
  side : .side ∈ supplied code → scope.side.isSome
  height : ∀ base, height? (n + base) code = some (n' + base)

namespace Accounts

theorem nil : Accounts scope pass n [] pass n where
  knows item := by simp [supplied]
  needs front instr back item h := by simp at h
  side h := by cases h
  height _ := rfl

theorem append (h : Accounts scope pass n code pass' n')
    (h' : Accounts scope pass' n' code' pass'' n'') :
    Accounts scope pass n (code ++ code') pass'' n'' where
  knows item := by rw [h'.knows, h.knows, mem_supplied_append, or_assoc]
  needs front instr back item hcode hneeds := by
    -- The instruction stands in the first part, or in the second and so behind all of the first.
    have hlater front' (hcode' : code' = front' ++ instr :: back)
        (hfront : front = code ++ front') : pass.Knows item ∨ item ∈ supplied front := by
      rw [hfront, mem_supplied_append, ← or_assoc, ← h.knows]
      exact h'.needs front' instr back item hcode' hneeds
    rcases List.append_eq_append_iff.mp hcode with ⟨front', hfront, hcode'⟩ | ⟨rest, hrest, hback⟩
    · exact hlater front' hcode' hfront
    · cases rest with
      | nil => exact hlater [] hback.symm (by simpa using hrest.symm)
      | cons _ rest =>
          obtain ⟨rfl, -⟩ := List.cons.inj hback
          exact h.needs front instr rest item hrest hneeds
  side hitem := (mem_supplied_append.mp hitem).elim h.side h'.side
  height base := by rw [height?_append, h.height, Option.bind_some, h'.height]

theorem below (h : Accounts scope pass n code pass' n') (k : Nat) :
    Accounts scope pass (n + k) code pass' (n' + k) where
  knows := h.knows
  needs := h.needs
  side := h.side
  height base := by rw [Nat.add_assoc, h.height, Nat.add_assoc]

/-- One instruction. -/
theorem of_instr (instr : Instr σ)
    (hknows : ∀ item, pass'.Knows item ↔ pass.Knows item ∨ instr.supplies? = some item)
    (hneeds : ∀ item, instr.needs? = some item → pass.Knows item)
    (hside : instr.supplies? = some .side → scope.side.isSome) :
    Accounts scope pass instr.operands [instr] pass' 1 where
  knows item := by
    rw [hknows, mem_supplied_cons]
    exact or_congr_right ⟨.inl, fun h => h.resolve_right nofun⟩
  needs front instr' back item hcode hitem := by
    cases front with
    | nil =>
        obtain ⟨rfl, -⟩ := List.cons.inj hcode
        exact .inl (hneeds item hitem)
    | cons _ front => simp at hcode
  side hitem := hside ((mem_supplied_cons.mp hitem).resolve_right nofun)
  height base := by
    rw [height?, if_pos (Nat.le_add_right ..), height?]
    congr 1
    omega

/-- One instruction that neither needs nor supplies anything. -/
theorem plain (instr : Instr σ) (hneeds : instr.needs? = none)
    (hsupplies : instr.supplies? = none) :
    Accounts scope pass instr.operands [instr] pass 1 :=
  of_instr instr (by simp [hsupplies]) (by simp [hneeds]) (by simp [hsupplies])

theorem loadLocal {i : Slot} (h : pass.locals.get? i = some ty) :
    Accounts scope pass 0 [.loadLocal i] pass 1 := by
  refine of_instr (.loadLocal i) (by simp [Instr.supplies?]) (fun item hitem => ?_) nofun
  cases hitem
  rw [Pass.Knows, h]
  rfl

theorem storeLocal {i : Slot} :
    Accounts scope pass 1 [.storeLocal i] { pass with locals := pass.locals.set i ty } 1 := by
  refine of_instr (.storeLocal i) (fun item => ?_) nofun nofun
  cases item with
  | side => simp [Pass.Knows, Instr.supplies?]
  | slot j =>
      by_cases hj : j = i
      · subst hj
        simp [Pass.Knows, Instr.supplies?]
      · simp [Pass.Knows, Instr.supplies?, Slots.get?_set_of_ne hj, Ne.symm hj]

theorem loadSide (h : scope.side = some ty) :
    Accounts scope pass 0 [if pass.resolved then .loadSide else .resolveSide]
      { pass with resolved := true } 1 := by
  cases hresolved : pass.resolved with
  | true =>
      have hpass : { pass with resolved := true } = pass := by rw [← hresolved]
      rw [hpass]
      refine of_instr .loadSide (by simp [Instr.supplies?]) (fun item hitem => ?_) nofun
      cases hitem
      exact hresolved
  | false =>
      refine of_instr .resolveSide (fun item => ?_) nofun fun _ => by rw [h]; rfl
      cases item <;> simp [Pass.Knows, Instr.supplies?]

end Accounts

namespace Directive

-- By induction on the reading. What lies below the operands of a part is left open, since arguments
-- are computed on top of the receiver of their call.
mutual

theorem Reads.accounts {place ctx pass text part} (h : Reads scope place ctx pass text part) :
    Accounts scope pass ctx.toList.length part.code part.pass 1 := by
  match h with
  | .finish _ => exact .nil
  | .value hstart htail => exact hstart.accounts.append htail.accounts
  | .reused _ _ hty => exact .loadLocal hty
  | .pending _ _ _ hpart => exact hpart.accounts
  | .select _ _ hhead htail => exact hhead.accounts.append htail.accounts
  | .store _ _ htail => exact Accounts.storeLocal.append htail.accounts

theorem Starts.accounts {pass text part} (h : Starts scope pass text part) :
    Accounts scope pass 0 part.code part.pass 1 := by
  match h with
  | .load _ _ hty => exact .loadLocal hty
  | .side hside => exact .loadSide hside
  | .group hpart _ => exact hpart.accounts
  | .literal (v := v) _ _ => exact .plain (.push v) rfl rfl
  | .member _ hpart =>
      have hrecord : Accounts scope pass 0 [.loadRecord] pass 1 := .plain .loadRecord rfl rfl
      exact hrecord.append hpart.accounts

theorem Selects.accounts {receiver name pass text part}
    (h : Selects scope receiver name pass text part) :
    Accounts scope pass 1 part.code part.pass 1 := by
  match h with
  | .call (m := m) hargs _ =>
      have hbelow := hargs.accounts.below 1
      rw [Nat.zero_add] at hbelow
      exact hbelow.append (.plain (.invoke m _) rfl rfl)
  | .field (f := f) _ _ _ => exact .plain (.loadField f) rfl rfl

theorem Takes.accounts {pass text args} (h : Takes scope pass text args) :
    Accounts scope pass 0 args.code args.pass args.types.length := by
  match h with
  | .nothing => exact .nil
  | .several _ hargs => exact hargs.accounts

theorem TakesMore.accounts {pass text args} (h : TakesMore scope pass text args) :
    Accounts scope pass 0 args.code args.pass args.types.length := by
  match h with
  | .more hpart _ hargs =>
      have hbelow := hargs.accounts.below 1
      rw [Nat.zero_add] at hbelow
      exact hpart.accounts.append hbelow
  | .last hpart _ => exact hpart.accounts

end

end Directive

theorem Pass.compile_accounts {directive : String} {program : Program σ}
    (h : pass.compile scope directive = .ok (program, pass')) :
    Accounts scope pass 0 program.code pass' 1 := by
  obtain ⟨part, hpart, rfl, rfl⟩ := compile_reads h
  exact hpart.accounts

/-! ## Machines -/

namespace Machine

variable {roots : Roots} {m m' : Machine σ} {p : Program σ} {v : Value} {cause : Breach} {host : σ}

/-- What an instruction does to the operands, and to what programs leave to others. -/
structure Stepped (m : Machine σ) (instr : Instr σ) (m' : Machine σ) : Prop where
  height : m'.stack.length = m.stack.length - instr.operands + 1
  holds : ∀ item, m.Holds item ∨ instr.supplies? = some item → m'.Holds item

/-- An instruction that touches neither the slots nor the side object. -/
theorem Stepped.plain (hheight : m'.stack.length = m.stack.length - instr.operands + 1)
    (hlocals : m'.locals = m.locals) (hside : m'.side = m.side)
    (hsupplies : instr.supplies? = none) : m.Stepped instr m' where
  height := hheight
  holds item hitem := by
    rw [hsupplies] at hitem
    have hheld := hitem.resolve_right nofun
    cases item with
    | slot i => rwa [Holds, hlocals]
    | side => rwa [Holds, hside]

theorem step_stepped (h : m.step roots instr = .ok m') : m.Stepped instr m' := by
  cases instr with
  | loadRecord => cases h; exact .plain rfl rfl rfl rfl
  | resolveSide =>
      rw [step] at h
      split at h
      · cases h
        refine ⟨rfl, fun item hitem => ?_⟩
        cases item with
        | slot i => exact hitem.resolve_right nofun
        | side => rfl
      · cases h
  | loadSide =>
      rw [step] at h
      split at h
      · cases h; exact .plain rfl rfl rfl rfl
      · cases h
  | loadField f =>
      rw [step] at h
      split at h
      · next hstack =>
          obtain ⟨_, -, h⟩ := Directive.bind_eq_ok.mp h
          cases h
          exact .plain (by simp [hstack, Instr.operands]) rfl rfl rfl
      · cases h
  | loadLocal i =>
      rw [step] at h
      split at h
      · cases h; exact .plain rfl rfl rfl rfl
      · cases h
  | storeLocal i =>
      rw [step] at h
      split at h
      · next hstack =>
          cases h
          refine ⟨by simp [hstack, Instr.operands], fun item hitem => ?_⟩
          cases item with
          | side => exact hitem.resolve_right nofun
          | slot j =>
              by_cases hj : j = i
              · subst hj
                simp [Holds]
              · have hheld := hitem.resolve_right fun hsupplies => hj (by cases hsupplies; rfl)
                rwa [Holds, Slots.get?_set_of_ne hj]
      · cases h
  | invoke method argc =>
      rw [step] at h
      split at h
      · next hstack =>
          obtain ⟨_, -, h⟩ := Directive.bind_eq_ok.mp h
          cases h
          have hlength := congrArg List.length hstack
          rw [List.length_drop, List.length_cons] at hlength
          exact .plain (by simp only [List.length_cons, Instr.operands]; omega) rfl rfl rfl
      · cases h
  | push v => cases h; exact .plain rfl rfl rfl rfl

/-- With operands enough, an instruction only breaches the rules where it finds nothing of what it
needs. -/
theorem step_breach (hside : instr.supplies? = some .side → roots.side.isSome)
    (hheight : instr.operands ≤ m.stack.length)
    (h : m.step roots instr = .error (.breach cause, host)) :
    ∃ item, instr.needs? = some item ∧ cause = item.breach ∧ ¬ m.Holds item := by
  cases instr with
  | loadRecord => cases h
  | resolveSide =>
      rw [step] at h
      split at h
      · cases h
      · next hnone =>
          have hsome := hside rfl
          rw [hnone] at hsome
          cases hsome
  | loadSide =>
      rw [step] at h
      split at h
      · cases h
      · next hnone =>
          cases h
          exact ⟨.side, rfl, rfl, by simp [Holds, hnone]⟩
  | loadField f =>
      rw [step] at h
      split at h
      · next v _ _ =>
          rcases Directive.bind_eq_error.mp h with h | ⟨_, _, h⟩
          · have hread : Yields (fun fault => ¬ fault.IsBreach) (fun _ => True)
                (f.read v m.host) := Field.read_not_breach
            rw [h] at hread
            exact absurd trivial hread
          · cases h
      · next hstack =>
          rw [hstack] at hheight
          cases hheight
  | loadLocal i =>
      rw [step] at h
      split at h
      · cases h
      · next hnone =>
          cases h
          exact ⟨.slot i, rfl, rfl, by simp [Holds, hnone]⟩
  | storeLocal i =>
      rw [step] at h
      split at h
      · cases h
      · next hstack =>
          rw [hstack] at hheight
          cases hheight
  | invoke method argc =>
      rw [step] at h
      split at h
      · next v _ _ =>
          rcases Directive.bind_eq_error.mp h with h | ⟨_, _, h⟩
          · have hinvoke : Yields (fun fault => ¬ fault.IsBreach) (fun _ => True)
                (method.invoke v (m.stack.take argc).reverse m.host) := Method.invoke_not_breach
            rw [h] at hinvoke
            exact absurd trivial hinvoke
          · cases h
      · next hstack =>
          have hfew := List.drop_eq_nil_iff.mp hstack
          simp only [Instr.operands] at hheight
          omega
  | push v => cases h

theorem run_stepped (h : m.run roots code = .ok m')
    (hheight : height? m.stack.length code = some n) :
    m'.stack.length = n ∧ ∀ item, m.Holds item ∨ item ∈ supplied code → m'.Holds item := by
  induction code generalizing m with
  | nil =>
      cases h
      exact ⟨Option.some.inj hheight, fun item hitem => hitem.resolve_right nofun⟩
  | cons instr code ih =>
      obtain ⟨next, hstep, h⟩ := Directive.bind_eq_ok.mp h
      have hstepped := step_stepped hstep
      rw [height?] at hheight
      split at hheight
      · rw [← hstepped.height] at hheight
        obtain ⟨hlast, hholds⟩ := ih h hheight
        refine ⟨hlast, fun item hitem => hholds item ?_⟩
        rw [mem_supplied_cons, ← or_assoc] at hitem
        exact hitem.imp_left (hstepped.holds item)
      · cases hheight

theorem run_breach (hside : .side ∈ supplied code → roots.side.isSome)
    (hheight : height? m.stack.length code = some n)
    (h : m.run roots code = .error (.breach cause, host)) :
    ∃ front instr back item, code = front ++ instr :: back ∧ instr.needs? = some item ∧
      cause = item.breach ∧ ¬ m.Holds item ∧ item ∉ supplied front := by
  induction code generalizing m with
  | nil => cases h
  | cons instr code ih =>
      rw [height?] at hheight
      split at hheight
      next henough =>
        rcases Directive.bind_eq_error.mp h with hstep | ⟨next, hstep, h⟩
        · obtain ⟨item, hneeds, hcause, hlacks⟩ :=
            step_breach (fun h => hside (mem_supplied_cons.mpr (.inl h))) henough hstep
          exact ⟨[], instr, code, item, rfl, hneeds, hcause, hlacks, nofun⟩
        · have hstepped := step_stepped hstep
          rw [← hstepped.height] at hheight
          obtain ⟨front, instr', back, item, rfl, hneeds, hcause, hlacks, hfront⟩ :=
            ih (fun h => hside (mem_supplied_cons.mpr (.inr h))) hheight h
          refine ⟨instr :: front, instr', back, item, rfl, hneeds, hcause,
            fun hheld => hlacks (hstepped.holds item (.inl hheld)), ?_⟩
          rw [mem_supplied_cons]
          rintro (hsupplies | hitem)
          · exact hlacks (hstepped.holds item (.inr hsupplies))
          · exact hfront hitem
      next => cases hheight

variable (hcode : Accounts scope pass 0 p.code pass' 1)

include hcode

theorem eval_holds (h : m.eval roots p = .ok (v, m'))
    (hitem : m.Holds item ∨ item ∈ supplied p.code) : m'.Holds item := by
  obtain ⟨last, hrun, rfl⟩ := eval_eq_ok h
  obtain ⟨-, hholds⟩ := run_stepped hrun (hcode.height 0)
  exact hholds item hitem

/-- A program only breaches the rules where it asks for something that neither the programs before
it nor its own code have left. -/
theorem eval_breach (hside : scope.side.isSome → roots.side.isSome)
    (h : m.eval roots p = .error (.breach cause, host)) :
    ∃ front instr back item, p.code = front ++ instr :: back ∧ instr.needs? = some item ∧
      cause = item.breach ∧ ¬ m.Holds item ∧ item ∉ supplied front := by
  rcases Directive.bind_eq_error.mp h with hrun | ⟨last, hrun, h⟩
  · exact run_breach (m := { m with stack := [] }) (fun h => hside (hcode.side h))
      (hcode.height 0) hrun
  · obtain ⟨hlast, -⟩ := run_stepped hrun (hcode.height 0)
    obtain ⟨v, hstack⟩ := List.length_eq_one_iff.mp hlast
    rw [hstack] at h
    cases h

end Machine

end FlagSelect
