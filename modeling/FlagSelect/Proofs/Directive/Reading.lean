import FlagSelect.Directive.Compile

/-!
# Readings

The successful ways through the readers, without their fuel. Main statement: `chain_reads`.
-/

namespace FlagSelect

variable {σ : Type} {scope : Scope σ}

namespace Directive

variable {place : Place} {ctx : Option Ty} {pass : Pass} {text : List Char}
  {part : Part σ}

def skipBlanks (text : List Char) : List Char :=
  text.dropWhile Text.isAsciiBlank

/-- Whether an expression in this place can end in front of the text. -/
def Ends : Place → List Char → Prop
  | .top, l => l = []
  | .argument, l => ∃ c rest, l = c :: rest ∧ (c = ',' ∨ c = ')')
  | .group, l => ∃ rest, l = ')' :: rest

/-- The text starts with the number of a slot, behind which another text stands. -/
def Numeral (text : List Char) (i : Slot) (rest : List Char) : Prop :=
  slotOf? (text.takeWhile Char.isDigit) = some i ∧ text.dropWhile Char.isDigit = rest

mutual

/-- An expression, or what is left of it behind a first part of type `ctx`. -/
inductive Reads (scope : Scope σ) : Place → Option Ty → Pass → List Char → Part σ → Prop
  | finish {place ty pass text} : Ends place (skipBlanks text) →
      Reads scope place (some ty) pass text ⟨ty, [], skipBlanks text, pass⟩
  | value {place pass text head tail} : Starts scope pass (skipBlanks text) head →
      Reads scope place (some head.ty) head.pass head.rest tail →
      Reads scope place none pass text { tail with code := head.code ++ tail.code }
  | reused {place pass text l i rest ty} : skipBlanks text = '<' :: l →
      Numeral l i ('?' :: rest) → pass.locals.get? i = some ty →
      Reads scope place none pass text ⟨ty, [.loadLocal i], skipRest place rest, pass⟩
  | pending {place pass text l i rest part} : skipBlanks text = '<' :: l →
      Numeral l i ('?' :: rest) → pass.locals.get? i = none →
      Reads scope place none pass rest part → Reads scope place none pass text part
  | select {place ty pass text l name rest head tail} : skipBlanks text = '.' :: l →
      name? (skipBlanks l) = some (name, rest) → Selects scope ty name pass rest head →
      Reads scope place (some head.ty) head.pass head.rest tail →
      Reads scope place (some ty) pass text { tail with code := head.code ++ tail.code }
  | store {place ty pass text l i rest tail} : skipBlanks text = '>' :: l → Numeral l i rest →
      Reads scope place (some ty) { pass with locals := pass.locals.set i ty } rest tail →
      Reads scope place (some ty) pass text { tail with code := .storeLocal i :: tail.code }

/-- What an expression starts with, other than a test of a slot. -/
inductive Starts (scope : Scope σ) : Pass → List Char → Part σ → Prop
  | load {pass l i rest ty} : Numeral l i rest → (∀ l, rest ≠ '?' :: l) →
      pass.locals.get? i = some ty → Starts scope pass ('<' :: l) ⟨ty, [.loadLocal i], rest, pass⟩
  | side {pass l ty} : scope.side = some ty → Starts scope pass ('^' :: l)
      ⟨ty, [if pass.resolved then .loadSide else .resolveSide], l, { pass with resolved := true }⟩
  | group {pass l part rest} : Reads scope .group none pass l part → part.rest = ')' :: rest →
      Starts scope pass ('(' :: l) { part with rest := rest }
  | literal {pass c l v ty} : c.isDigit = true →
      literal? ((c :: l).takeWhile Char.isDigit) = some (v, ty) →
      Starts scope pass (c :: l) ⟨ty, [.push v], (c :: l).dropWhile Char.isDigit, pass⟩
  | member {pass text name rest part} : name? text = some (name, rest) →
      Selects scope scope.record name pass rest part →
      Starts scope pass text { part with code := .loadRecord :: part.code }

/-- What follows the name of a member. -/
inductive Selects (scope : Scope σ) : Ty → String → Pass → List Char → Part σ → Prop
  | call {receiver name pass l args m} : Takes scope pass (skipBlanks l) args →
      overload scope.schema receiver name args.types = .ok m →
      Selects scope receiver name pass ('(' :: l)
        ⟨m.result, args.code ++ [.invoke m args.types.length], args.rest, args.pass⟩
  | field {receiver name pass text f} : (∀ l, text ≠ '(' :: l) → (∀ l, text ≠ '?' :: l) →
      field scope.schema receiver name = .ok f →
      Selects scope receiver name pass text ⟨f.ty, [.loadField f], text, pass⟩

/-- Arguments up to and with the closing parenthesis. -/
inductive Takes (scope : Scope σ) : Pass → List Char → Arguments σ → Prop
  | nothing {pass l} : Takes scope pass (')' :: l) ⟨[], [], l, pass⟩
  | several {pass text args} : (∀ l, text ≠ ')' :: l) → TakesMore scope pass text args →
      Takes scope pass text args

inductive TakesMore (scope : Scope σ) : Pass → List Char → Arguments σ → Prop
  | more {pass text part rest args} : Reads scope .argument none pass text part →
      part.rest = ',' :: rest → TakesMore scope part.pass rest args →
      TakesMore scope pass text
        ⟨part.ty :: args.types, part.code ++ args.code, args.rest, args.pass⟩
  | last {pass text part rest} : Reads scope .argument none pass text part →
      part.rest = ')' :: rest → TakesMore scope pass text ⟨[part.ty], part.code, rest, part.pass⟩

end

variable {s : Source σ} {fuel : Nat}

theorem bind_eq_ok {ε α β : Type} {x : Except ε α} {f : α → Except ε β} {b : β} :
    (x >>= f) = .ok b ↔ ∃ a, x = .ok a ∧ f a = .ok b := by
  cases x <;> simp [bind, Except.bind]

theorem bind_eq_error {ε α β : Type} {x : Except ε α} {f : α → Except ε β} {e : ε} :
    (x >>= f) = .error e ↔ x = .error e ∨ ∃ a, x = .ok a ∧ f a = .error e := by
  cases x <;> simp [bind, Except.bind]

@[simp] theorem faultIn_ok {α : Type} {a : α} : faultIn pass (.ok a) = .ok a := rfl

@[simp] theorem faultIn_error {α : Type} {fault : Fault} :
    faultIn pass (.error fault : Except Fault α) = .error (fault, pass) := rfl

theorem faultIn_eq_ok {α : Type} {r : Except Fault α} {a : α} :
    faultIn pass r = .ok a ↔ r = .ok a := by
  cases r <;> simp

theorem slot_eq_ok {position : Nat} {i : Slot} {rest : List Char} :
    slot position text = .ok (i, rest) ↔ Numeral text i rest := by
  rw [slot, Numeral]
  cases slotOf? (text.takeWhile Char.isDigit) <;> simp

theorem finish_eq_ok {rest : List Char} (h : finish s ctx pass rest = .ok part) :
    ∃ ty, ctx = some ty ∧ part = ⟨ty, [], rest, pass⟩ := by
  cases ctx with
  | none => cases h
  | some ty => exact ⟨ty, rfl, (Except.ok.inj h).symm⟩

/-- What a successful reading of the start of an expression has found. -/
def Operand.Read (scope : Scope σ) (pass : Pass) (text : List Char) : Operand σ → Prop
  | .value part => Starts scope pass text part
  | .reused i ty rest => ∃ l, text = '<' :: l ∧ Numeral l i ('?' :: rest) ∧
      pass.locals.get? i = some ty
  | .pending rest => ∃ l i, text = '<' :: l ∧ Numeral l i ('?' :: rest) ∧
      pass.locals.get? i = none

-- By recursion on the fuel, arm by arm as the readers are written.
mutual

theorem chain_reads {fuel place ctx pass text part}
    (h : chain s fuel place ctx pass text = .ok part) : Reads s.scope place ctx pass text part := by
  match fuel with
  | 0 => cases h
  | fuel + 1 =>
      rw [chain] at h
      cases htext : text.dropWhile Text.isAsciiBlank with
      | nil =>
          simp only [htext] at h
          split at h
          · next hplace =>
              obtain ⟨ty, rfl, rfl⟩ := finish_eq_ok h
              rw [← htext]
              exact .finish (by rw [skipBlanks, htext, hplace]; rfl)
          · cases h
      | cons c l =>
          have hskip : skipBlanks text = c :: l := htext
          simp only [htext] at h
          split at h
          · next hc =>
              split at h
              · cases h
              next hplace =>
              split at h
              · cases h
              next hgroup =>
              obtain ⟨ty, rfl, rfl⟩ := finish_eq_ok h
              rw [← hskip]
              refine .finish ?_
              rw [hskip]
              cases place with
              | top => exact absurd rfl hplace
              | argument => exact ⟨c, l, rfl, hc⟩
              | group =>
                  obtain rfl : c = ')' := hc.resolve_left fun hc => hgroup ⟨hc, rfl⟩
                  exact ⟨l, rfl⟩
          next hc =>
          split at h
          · obtain ⟨op, hop, h⟩ := bind_eq_ok.mp h
            have hread := operand_reads hop
            rw [← hskip] at hread
            cases op with
            | value head =>
                obtain ⟨tail, htail, h⟩ := bind_eq_ok.mp h
                cases h
                exact .value hread (chain_reads htail)
            | reused i ty rest =>
                obtain ⟨l, hl, hi, hty⟩ := hread
                cases h
                exact .reused hl hi hty
            | pending rest =>
                obtain ⟨l, i, hl, hi, hty⟩ := hread
                exact .pending hl hi hty (chain_reads h)
          · next ty =>
            split at h
            · next hdot =>
                subst hdot
                split at h
                · cases h
                · next name rest hname =>
                    obtain ⟨head, hhead, h⟩ := bind_eq_ok.mp h
                    obtain ⟨tail, htail, h⟩ := bind_eq_ok.mp h
                    cases h
                    exact .select hskip hname (member_selects hhead) (chain_reads htail)
            split at h
            · next hstore =>
                subst hstore
                obtain ⟨⟨i, rest⟩, hi, h⟩ := bind_eq_ok.mp h
                obtain ⟨tail, htail, h⟩ := bind_eq_ok.mp h
                cases h
                exact .store hskip (slot_eq_ok.mp (faultIn_eq_ok.mp hi)) (chain_reads htail)
            split at h <;> cases h

theorem operand_reads {fuel pass text op} (h : operand s fuel pass text = .ok op) :
    op.Read s.scope pass text := by
  match fuel, text with
  | 0, _ => cases h
  | fuel + 1, [] => cases h
  | fuel + 1, c :: l =>
      rw [operand] at h
      split at h
      · next hc =>
          subst hc
          obtain ⟨⟨i, rest⟩, hi, h⟩ := bind_eq_ok.mp h
          replace hi := slot_eq_ok.mp (faultIn_eq_ok.mp hi)
          dsimp only at h
          split at h
          · next rest ty hty => cases h; exact ⟨l, rfl, hi, hty⟩
          · next rest hnone => cases h; exact ⟨l, i, rfl, hi, hnone⟩
          · next ty hrest hty => cases h; exact .load hi hrest hty
          · cases h
      split at h
      · next hc =>
          subst hc
          split at h
          · cases h
          · next ty hside => cases h; exact .side hside
      split at h
      · next hc =>
          subst hc
          obtain ⟨part, hpart, h⟩ := bind_eq_ok.mp h
          split at h
          · next rest hrest => cases h; exact .group (chain_reads hpart) hrest
          · cases h
      split at h
      · cases h
      split at h
      · next hdigit =>
          simp only at h
          split at h
          · next v ty hliteral => cases h; exact .literal hdigit hliteral
          · cases h
      · split at h
        · next name rest hname =>
            obtain ⟨part, hpart, h⟩ := bind_eq_ok.mp h
            cases h
            exact .member hname (member_selects hpart)
        · cases h

theorem member_selects {fuel receiver name pass text part}
    (h : member s fuel receiver name pass text = .ok part) :
    Selects s.scope receiver name pass text part := by
  match fuel with
  | 0 => cases h
  | fuel + 1 =>
      unfold member at h
      split at h
      · next l =>
          obtain ⟨args, hargs, h⟩ := bind_eq_ok.mp h
          obtain ⟨m, hm, h⟩ := bind_eq_ok.mp h
          cases h
          exact .call (arguments_takes hargs) (faultIn_eq_ok.mp hm)
      · cases h
      · next hcall hmark =>
          obtain ⟨f, hf, h⟩ := bind_eq_ok.mp h
          cases h
          exact .field hcall hmark (faultIn_eq_ok.mp hf)

theorem arguments_takes {fuel pass text args}
    (h : arguments s fuel pass text = .ok args) : Takes s.scope pass text args := by
  match fuel with
  | 0 => cases h
  | fuel + 1 =>
      by_cases hclose : ∃ l, text = ')' :: l
      · obtain ⟨l, rfl⟩ := hclose
        cases h
        exact .nothing
      · have hclose l : text ≠ ')' :: l := fun hl => hclose ⟨l, hl⟩
        rw [arguments] at h
        · exact .several hclose (furtherArguments_takesMore h)
        · exact hclose

theorem furtherArguments_takesMore {fuel pass text args}
    (h : furtherArguments s fuel pass text = .ok args) : TakesMore s.scope pass text args := by
  match fuel with
  | 0 => cases h
  | fuel + 1 =>
      rw [furtherArguments] at h
      obtain ⟨part, hpart, h⟩ := bind_eq_ok.mp h
      split at h
      · next rest hrest =>
          obtain ⟨more, hmore, h⟩ := bind_eq_ok.mp h
          cases h
          exact .more (chain_reads hpart) hrest (furtherArguments_takesMore hmore)
      · next rest hrest => cases h; exact .last (chain_reads hpart) hrest
      · cases h
      · cases h

end

end Directive

/-- A directive that compiles has been read to its end. -/
theorem Pass.compile_reads {pass pass' : Pass} {directive : String} {program : Program σ}
    (h : pass.compile scope directive = .ok (program, pass')) :
    ∃ part, Directive.Reads scope .top none pass directive.toList part ∧
      program = ⟨directive, part.code, part.ty⟩ ∧ pass' = part.pass := by
  rw [compile] at h
  split at h
  · cases h
  · obtain ⟨part, hpart, h⟩ := Directive.bind_eq_ok.mp h
    cases h
    exact ⟨part, Directive.chain_reads hpart, rfl, rfl⟩

end FlagSelect
