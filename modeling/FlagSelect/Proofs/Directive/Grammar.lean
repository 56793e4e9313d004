import FlagSelect.Proofs.Directive.Extent
import FlagSelect.Proofs.Directive.Members

/-!
# The grammar of directives

Which texts are directives, told by their parts and not by how they are read:

    E ::= <N? E              slot N holds nothing
        | <N? T              slot N holds something, and T is whatever is left of the phrase
        | O S ... S
    O ::= <N | ^ | (E) | digits | name | name(E, ..., E)
    S ::= .name | .name(E, ..., E) | >N

Blanks may stand before an E, an S, a comma, a closing parenthesis and the end, and behind a dot.
Each phrase comes with its type and with what is known of the slots before and behind it. Main
statements: `Reads.phrase`, and its converse in the module on acceptance.
-/

namespace FlagSelect

variable {σ : Type}

namespace Grammar

open Directive (isNameStart isNameChar number)

/-! ## Words -/

def Blanks (text : List Char) : Prop := ∀ c ∈ text, Text.isAsciiBlank c = true

/-- A nonempty run of decimal digits that stands for `n`. -/
structure Digits (text : List Char) (n : Nat) : Prop where
  nonempty : text ≠ []
  digits : ∀ c ∈ text, c.isDigit = true
  number : number text = n

def Name (text : List Char) : Prop :=
  ∃ c l, text = c :: l ∧ isNameStart c = true ∧ ∀ d ∈ l, isNameChar d = true

/-- A text in which parentheses pair up. -/
inductive Balanced : List Char → Prop
  | nil : Balanced []
  | other {c l} : c ≠ '(' → c ≠ ')' → Balanced l → Balanced (c :: l)
  | nested {inner l} : Balanced inner → Balanced l → Balanced ('(' :: (inner ++ ')' :: l))

/-- A text in which parentheses pair up, with commas inside of them at most. -/
inductive CommaFree : List Char → Prop
  | nil : CommaFree []
  | other {c l} : c ≠ '(' → c ≠ ')' → c ≠ ',' → CommaFree l → CommaFree (c :: l)
  | nested {inner l} : Balanced inner → CommaFree l → CommaFree ('(' :: (inner ++ ')' :: l))

theorem CommaFree.balanced {text : List Char} (h : CommaFree text) : Balanced text := by
  induction h with
  | nil => exact .nil
  | other hopen hclose _ _ ih => exact .other hopen hclose ih
  | nested hinner _ ih => exact .nested hinner ih

/-- What may be left of an expression in a place once a slot has given its value. -/
def Leftover : Place → List Char → Prop
  | .top, _ => True
  | .group, text => Balanced text
  | .argument, text => CommaFree text

/-- The type of a literal: the narrower of 32 and 64 bits that holds it. -/
def literalTy (n : Nat) : Ty := if n < 1 <<< 31 then .scalar .int else .scalar .long

/-! ## Members -/

/-- The first declared field of a name in the registered type of a receiver. -/
def FieldOf (schema : Schema σ) (receiver : Ty) (name : List Char) (f : Field σ) : Prop :=
  ∃ n t, receiver = .object n ∧ schema.find? n = some t ∧
    t.fields.find? (·.name == String.ofList name) = some f

/-- The first declared method of a name in the registered type of a receiver that has as many
parameters as there are arguments and takes each of them. -/
def MethodOf (schema : Schema σ) (receiver : Ty) (name : List Char) (types : List Ty)
    (m : Method σ) : Prop :=
  ∃ n t, receiver = .object n ∧ schema.find? n = some t ∧
    t.methods.find? (fun m => m.name == String.ofList name && m.accepts types) = some m

/-! ## Phrases -/

mutual

/-- E, in a place. -/
inductive Expression (scope : Scope σ) : Place → Slots Ty → List Char → Ty → Slots Ty → Prop
  | pending {place slots slots' b ds i text ty} : Blanks b → Digits ds i.val →
      slots.get? i = none → Expression scope place slots text ty slots' →
      Expression scope place slots (b ++ '<' :: (ds ++ '?' :: text)) ty slots'
  | reused {place slots b ds i text ty} : Blanks b → Digits ds i.val →
      slots.get? i = some ty → Leftover place text →
      Expression scope place slots (b ++ '<' :: (ds ++ '?' :: text)) ty slots
  | chain {place slots slots' slots'' b head tail ty ty'} : Blanks b →
      Operand scope slots head ty slots' → Suffixes scope ty slots' tail ty' slots'' →
      Expression scope place slots (b ++ (head ++ tail)) ty' slots''

/-- O. -/
inductive Operand (scope : Scope σ) : Slots Ty → List Char → Ty → Slots Ty → Prop
  | load {slots ds i ty} : Digits ds i.val → slots.get? i = some ty →
      Operand scope slots ('<' :: ds) ty slots
  | side {slots ty} : scope.side = some ty → Operand scope slots ['^'] ty slots
  | group {slots slots' text b ty} : Expression scope .group slots text ty slots' → Blanks b →
      Operand scope slots ('(' :: (text ++ (b ++ [')']))) ty slots'
  | literal {slots ds n} : Digits ds n → n < 1 <<< 63 → Operand scope slots ds (literalTy n) slots
  | member {slots slots' text ty} : Member scope scope.record slots text ty slots' →
      Operand scope slots text ty slots'

/-- Any number of S behind a phrase of a type. -/
inductive Suffixes (scope : Scope σ) : Ty → Slots Ty → List Char → Ty → Slots Ty → Prop
  | nil {ty slots} : Suffixes scope ty slots [] ty slots
  | member {ty ty' ty'' slots slots' slots'' b b' head tail} : Blanks b → Blanks b' →
      Member scope ty slots head ty' slots' → Suffixes scope ty' slots' tail ty'' slots'' →
      Suffixes scope ty slots (b ++ '.' :: (b' ++ (head ++ tail))) ty'' slots''
  | store {ty ty' slots slots' b ds i tail} : Blanks b → Digits ds i.val →
      Suffixes scope ty (slots.set i ty) tail ty' slots' →
      Suffixes scope ty slots (b ++ '>' :: (ds ++ tail)) ty' slots'

/-- A field or a call on a receiver of a type. -/
inductive Member (scope : Scope σ) : Ty → Slots Ty → List Char → Ty → Slots Ty → Prop
  | field {receiver slots name f} : Name name → FieldOf scope.schema receiver name f →
      Member scope receiver slots name f.ty slots
  | call {receiver slots slots' name args types m} : Name name →
      Arguments scope slots args types slots' → MethodOf scope.schema receiver name types m →
      Member scope receiver slots (name ++ '(' :: (args ++ [')'])) m.result slots'

/-- The arguments of a call, up to its closing parenthesis. -/
inductive Arguments (scope : Scope σ) : Slots Ty → List Char → List Ty → Slots Ty → Prop
  | nothing {slots b} : Blanks b → Arguments scope slots b [] slots
  | several {slots slots' text types} : Several scope slots text types slots' →
      Arguments scope slots text types slots'

/-- One argument or more. -/
inductive Several (scope : Scope σ) : Slots Ty → List Char → List Ty → Slots Ty → Prop
  | last {slots slots' text b ty} : Expression scope .argument slots text ty slots' → Blanks b →
      Several scope slots (text ++ b) [ty] slots'
  | more {slots slots' slots'' text b text' ty types} :
      Expression scope .argument slots text ty slots' → Blanks b →
      Several scope slots' text' types slots'' →
      Several scope slots (text ++ (b ++ ',' :: text')) (ty :: types) slots''

end

/-- A whole directive. -/
def Derives (scope : Scope σ) (slots : Slots Ty) (text : List Char) (ty : Ty) (slots' : Slots Ty) :
    Prop :=
  ∃ phrase b, text = phrase ++ b ∧ Blanks b ∧ Expression scope .top slots phrase ty slots'

end Grammar

namespace Directive

open Grammar (Blanks Digits Balanced CommaFree Leftover Expression Suffixes Several)

variable {scope : Scope σ} {pass : Pass} {text l rest : List Char} {i : Slot} {name : String}

/-! ## Words that have been read -/

theorem exists_blanks (text : List Char) : ∃ b, text = b ++ skipBlanks text ∧ Blanks b :=
  ⟨text.takeWhile Text.isAsciiBlank, List.takeWhile_append_dropWhile.symm,
    fun _ hc => List.mem_takeWhile_imp hc⟩

theorem exists_blanks_cons {c : Char} (h : skipBlanks text = c :: l) :
    ∃ b, text = b ++ c :: l ∧ Blanks b := by
  rw [← h]
  exact exists_blanks text

theorem Numeral.exists_digits (h : Numeral l i rest) : ∃ ds, l = ds ++ rest ∧ Digits ds i.val := by
  obtain ⟨hslot, hrest⟩ := h
  refine ⟨l.takeWhile Char.isDigit, ?_, ?_⟩
  · rw [← hrest, List.takeWhile_append_dropWhile]
  · unfold slotOf? at hslot
    split at hslot
    · cases hslot
    next hne =>
    split at hslot
    · cases hslot
      exact ⟨fun hnil => hne (by simp [hnil]), fun _ hc => List.mem_takeWhile_imp hc, rfl⟩
    · cases hslot

theorem exists_name (h : name? text = some (name, rest)) :
    ∃ cs, text = cs ++ rest ∧ Grammar.Name cs ∧ String.ofList cs = name := by
  unfold name? at h
  split at h
  · cases h
  · next c l =>
      split at h
      · next hc =>
          cases h
          refine ⟨c :: l.takeWhile isNameChar, ?_, ⟨c, _, rfl, hc, ?_⟩, rfl⟩
          · rw [List.cons_append, List.takeWhile_append_dropWhile]
          · exact fun _ hd => List.mem_takeWhile_imp hd
      · cases h

theorem literal?_digits {c : Char} {v : Value} {ty : Ty} (hdigit : c.isDigit = true)
    (h : literal? ((c :: l).takeWhile Char.isDigit) = some (v, ty)) :
    ∃ n < 1 <<< 63, Digits ((c :: l).takeWhile Char.isDigit) n ∧ ty = Grammar.literalTy n := by
  have hdigits : Digits ((c :: l).takeWhile Char.isDigit)
      (number ((c :: l).takeWhile Char.isDigit)) :=
    ⟨by simp [hdigit], fun _ hc => List.mem_takeWhile_imp hc, rfl⟩
  unfold literal? at h
  dsimp only at h
  split at h
  · next hlt =>
      cases h
      exact ⟨_, by omega, hdigits, by rw [Grammar.literalTy, if_pos hlt]⟩
  · next hge =>
      split at h
      · next hlt =>
          cases h
          exact ⟨_, hlt, hdigits, by rw [Grammar.literalTy, if_neg hge]⟩
      · cases h

/-! ## Text that has been skipped -/

/-- What is skipped inside of so many open parentheses, up to the one that closes one more. -/
def Skipped (atComma : Bool) : Nat → List Char → Prop
  | 0, text => if atComma then CommaFree text else Balanced text
  | depth + 1, text =>
    ∃ inner outer, text = inner ++ ')' :: outer ∧ Balanced inner ∧ Skipped atComma depth outer

theorem Skipped.nil {atComma : Bool} : Skipped atComma 0 [] := by
  cases atComma
  · exact Balanced.nil
  · exact CommaFree.nil

theorem Skipped.close {atComma : Bool} {depth : Nat} (h : Skipped atComma depth text) :
    Skipped atComma (depth + 1) (')' :: text) :=
  ⟨[], text, rfl, .nil, h⟩

theorem Skipped.open {atComma : Bool} {depth : Nat} (h : Skipped atComma (depth + 1) text) :
    Skipped atComma depth ('(' :: text) := by
  obtain ⟨inner, outer, rfl, hinner, houter⟩ := h
  cases depth with
  | zero =>
      cases atComma with
      | false => exact Balanced.nested hinner houter
      | true => exact CommaFree.nested hinner houter
  | succ depth =>
      obtain ⟨inner', outer', rfl, hinner', houter'⟩ := houter
      exact ⟨'(' :: (inner ++ ')' :: inner'), outer', by simp, .nested hinner hinner', houter'⟩

theorem Skipped.other {atComma : Bool} {depth : Nat} {c : Char} (hopen : c ≠ '(') (hclose : c ≠ ')')
    (hcomma : ¬ (c = ',' ∧ depth = 0 ∧ atComma = true)) (h : Skipped atComma depth text) :
    Skipped atComma depth (c :: text) := by
  cases depth with
  | zero =>
      cases atComma with
      | false => exact Balanced.other hopen hclose h
      | true => exact CommaFree.other hopen hclose (fun hc => hcomma ⟨hc, rfl, rfl⟩) h
  | succ depth =>
      obtain ⟨inner, outer, rfl, hinner, houter⟩ := h
      exact ⟨c :: inner, outer, rfl, .other hopen hclose hinner, houter⟩

theorem exists_skipped {atComma : Bool} {depth : Nat} (h : skipBalanced atComma depth l ≠ []) :
    ∃ t, l = t ++ skipBalanced atComma depth l ∧ Skipped atComma depth t := by
  induction l generalizing depth with
  | nil => exact absurd rfl h
  | cons c l ih =>
      unfold skipBalanced at h ⊢
      split at h
      · next hopen =>
          subst hopen
          obtain ⟨t, ht, hskipped⟩ := ih h
          exact ⟨'(' :: t, by rw [if_pos rfl, List.cons_append, ← ht], hskipped.open⟩
      next hopen =>
      split at h
      · next hclose =>
          subst hclose
          cases depth with
          | zero => exact ⟨[], by simp, .nil⟩
          | succ depth =>
              obtain ⟨t, ht, hskipped⟩ := ih h
              refine ⟨')' :: t, ?_, hskipped.close⟩
              rw [if_neg (by decide), if_pos rfl, List.cons_append, ← ht]
      next hclose =>
      rw [if_neg hopen, if_neg hclose]
      split at h
      · next hcomma =>
          rw [if_pos hcomma]
          obtain ⟨-, rfl, -⟩ := hcomma
          exact ⟨[], rfl, .nil⟩
      · next hcomma =>
          obtain ⟨t, ht, hskipped⟩ := ih h
          refine ⟨c :: t, ?_, .other hopen hclose hcomma hskipped⟩
          rw [if_neg hcomma, List.cons_append, ← ht]

theorem exists_leftover {place : Place} (h : place = .top ∨ skipRest place l ≠ []) :
    ∃ t, l = t ++ skipRest place l ∧ Leftover place t := by
  cases place with
  | top => exact ⟨l, by simp [skipRest], trivial⟩
  | argument =>
      obtain ⟨t, ht, hskipped⟩ := exists_skipped (h.resolve_left (by decide))
      exact ⟨t, ht, hskipped⟩
  | group =>
      obtain ⟨t, ht, hskipped⟩ := exists_skipped (h.resolve_left (by decide))
      exact ⟨t, ht, hskipped⟩

/-! ## Phrases that have been read -/

theorem fieldOf {schema : Schema σ} {receiver : Ty} {cs : List Char} {f : Field σ}
    (h : field schema receiver (String.ofList cs) = .ok f) :
    Grammar.FieldOf schema receiver cs f :=
  field_ok h

theorem find?_overloads {t : HostType σ} {types : List Ty} :
    (t.overloads name types.length).find? (·.accepts types) =
      t.methods.find? fun m => m.name == name && m.accepts types := by
  rw [HostType.overloads, List.find?_filter]
  congr 1
  funext m
  cases hname : m.name == name with
  | false => simp
  | true =>
      cases haccepts : m.accepts types with
      | false => simp
      | true =>
          simp only [Method.accepts, Bool.and_eq_true] at haccepts
          simp [haccepts.1]

theorem methodOf {schema : Schema σ} {receiver : Ty} {cs : List Char} {types : List Ty}
    {m : Method σ} (h : overload schema receiver (String.ofList cs) types = .ok m) :
    Grammar.MethodOf schema receiver cs types m := by
  obtain ⟨n, t, hn, ht, hm⟩ := overload_ok h
  exact ⟨n, t, hn, ht, find?_overloads.symm.trans hm⟩

theorem blanks_append {b b' : List Char} (h : Blanks b) (h' : Blanks b') : Blanks (b ++ b') :=
  fun c hc => (List.mem_append.mp hc).elim (h c) (h' c)

theorem blanks_expression {place : Place} {slots slots' : Slots Ty} {b : List Char} {ty : Ty}
    (hb : Blanks b) (h : Expression scope place slots text ty slots') :
    Expression scope place slots (b ++ text) ty slots' := by
  cases h with
  | pending hb' hds hslot h =>
      rw [← List.append_assoc]
      exact .pending (blanks_append hb hb') hds hslot h
  | reused hb' hds hslot h =>
      rw [← List.append_assoc]
      exact .reused (blanks_append hb hb') hds hslot h
  | chain hb' hhead htail =>
      rw [← List.append_assoc]
      exact .chain (blanks_append hb hb') hhead htail

theorem blanks_several {slots slots' : Slots Ty} {b : List Char} {types : List Ty}
    (hb : Blanks b) (h : Several scope slots text types slots') :
    Several scope slots (b ++ text) types slots' := by
  cases h with
  | last h hb' =>
      rw [← List.append_assoc]
      exact .last (blanks_expression hb h) hb'
  | more h hb' hmore =>
      rw [← List.append_assoc]
      exact .more (blanks_expression hb h) hb' hmore

/-- The whole of an expression, or what is left of it behind a first part of a type. -/
def Phrase (scope : Scope σ) (place : Place) :
    Option Ty → Slots Ty → List Char → Ty → Slots Ty → Prop
  | none => Expression scope place
  | some ty => Suffixes scope ty

mutual

theorem Reads.phrase {place ctx pass text} {part : Part σ}
    (h : Reads scope place ctx pass text part) (hend : place = .top ∨ part.rest ≠ []) :
    ∃ t b, text = t ++ (b ++ part.rest) ∧ Blanks b ∧
      Phrase scope place ctx pass.locals t part.ty part.pass.locals := by
  match h with
  | .finish _ =>
      obtain ⟨b, htext, hb⟩ := exists_blanks text
      exact ⟨[], b, htext, hb, .nil⟩
  | .value hstart htail =>
      obtain ⟨b₀, htext, hb₀⟩ := exists_blanks text
      obtain ⟨head, hhead, hoperand⟩ := hstart.operand
      obtain ⟨t, b, hrest, hb, hphrase⟩ := htail.phrase hend
      refine ⟨b₀ ++ (head ++ t), b, ?_, hb, .chain hb₀ hoperand hphrase⟩
      rw [htext, hhead, hrest]
      simp
  | .reused hl hi hty =>
      obtain ⟨b, htext, hb⟩ := exists_blanks_cons hl
      obtain ⟨ds, hds, hdigits⟩ := hi.exists_digits
      obtain ⟨t, hrest, hleft⟩ := exists_leftover hend
      refine ⟨b ++ '<' :: (ds ++ '?' :: t), [], ?_, fun _ hc => (by cases hc),
        .reused hb hdigits hty hleft⟩
      conv_lhs => rw [htext, hds, hrest]
      simp
  | .pending hl hi hty hpart =>
      obtain ⟨b₀, htext, hb₀⟩ := exists_blanks_cons hl
      obtain ⟨ds, hds, hdigits⟩ := hi.exists_digits
      obtain ⟨t, b, hrest, hb, hphrase⟩ := hpart.phrase hend
      refine ⟨b₀ ++ '<' :: (ds ++ '?' :: t), b, ?_, hb, .pending hb₀ hdigits hty hphrase⟩
      rw [htext, hds, hrest]
      simp
  | .select (l := l) hl hname hhead htail =>
      obtain ⟨b₀, htext, hb₀⟩ := exists_blanks_cons hl
      obtain ⟨b₁, hl₁, hb₁⟩ := exists_blanks l
      obtain ⟨cs, hcs, hcs', hname⟩ := exists_name hname
      obtain ⟨m, hm, hmember⟩ := hhead.member hcs' hname
      obtain ⟨t, b, hrest, hb, hphrase⟩ := htail.phrase hend
      refine ⟨b₀ ++ '.' :: (b₁ ++ (m ++ t)), b, ?_, hb, .member hb₀ hb₁ hmember hphrase⟩
      rw [htext, hl₁, hcs, hm, hrest]
      simp
  | .store hl hi htail =>
      obtain ⟨b₀, htext, hb₀⟩ := exists_blanks_cons hl
      obtain ⟨ds, hds, hdigits⟩ := hi.exists_digits
      obtain ⟨t, b, hrest, hb, hphrase⟩ := htail.phrase hend
      refine ⟨b₀ ++ '>' :: (ds ++ t), b, ?_, hb, .store hb₀ hdigits hphrase⟩
      rw [htext, hds, hrest]
      simp

theorem Starts.operand {pass text} {part : Part σ} (h : Starts scope pass text part) :
    ∃ t, text = t ++ part.rest ∧
      Grammar.Operand scope pass.locals t part.ty part.pass.locals := by
  match h with
  | .load hi _ hty =>
      obtain ⟨ds, rfl, hdigits⟩ := hi.exists_digits
      exact ⟨'<' :: ds, rfl, .load hdigits hty⟩
  | .side hside => exact ⟨['^'], rfl, .side hside⟩
  | .group hpart hrest =>
      obtain ⟨t, b, htext, hb, hphrase⟩ := hpart.phrase (.inr (by simp [hrest]))
      refine ⟨'(' :: (t ++ (b ++ [')'])), ?_, .group hphrase hb⟩
      rw [htext, hrest]
      simp
  | .literal hdigit hliteral =>
      obtain ⟨n, hn, hdigits, rfl⟩ := literal?_digits hdigit hliteral
      exact ⟨_, List.takeWhile_append_dropWhile.symm, .literal hdigits hn⟩
  | .member hname hpart =>
      obtain ⟨cs, hcs, hcs', hname⟩ := exists_name hname
      obtain ⟨t, ht, hmember⟩ := hpart.member hcs' hname
      exact ⟨t, hcs.trans ht, .member hmember⟩

theorem Selects.member {receiver name pass text cs} {part : Part σ}
    (h : Selects scope receiver name pass text part) (hcs : Grammar.Name cs)
    (hname : String.ofList cs = name) :
    ∃ t, cs ++ text = t ++ part.rest ∧
      Grammar.Member scope receiver pass.locals t part.ty part.pass.locals := by
  match h with
  | .call (l := l) hargs hm =>
      obtain ⟨b, hl, hb⟩ := exists_blanks l
      obtain ⟨t, ht, harguments⟩ := hargs.arguments hb
      refine ⟨cs ++ '(' :: (t ++ [')']), ?_, .call hcs harguments (methodOf (hname ▸ hm))⟩
      rw [hl, ht]
      simp
  | .field _ _ hf => exact ⟨cs, rfl, .field hcs (fieldOf (hname ▸ hf))⟩

theorem Takes.arguments {pass text b} {args : Directive.Arguments σ}
    (h : Takes scope pass text args) (hb : Blanks b) :
    ∃ t, b ++ text = t ++ ')' :: args.rest ∧
      Grammar.Arguments scope pass.locals t args.types args.pass.locals := by
  match h with
  | .nothing => exact ⟨b, rfl, .nothing hb⟩
  | .several _ hargs =>
      obtain ⟨t, ht, hseveral⟩ := hargs.several
      exact ⟨b ++ t, by rw [ht, List.append_assoc], .several (blanks_several hb hseveral)⟩

theorem TakesMore.several {pass text} {args : Directive.Arguments σ}
    (h : TakesMore scope pass text args) :
    ∃ t, text = t ++ ')' :: args.rest ∧
      Several scope pass.locals t args.types args.pass.locals := by
  match h with
  | .more hpart hrest hargs =>
      obtain ⟨t, b, htext, hb, hphrase⟩ := hpart.phrase (.inr (by simp [hrest]))
      obtain ⟨t', hrest', hseveral⟩ := hargs.several
      refine ⟨t ++ (b ++ ',' :: t'), ?_, .more hphrase hb hseveral⟩
      rw [htext, hrest, hrest']
      simp
  | .last hpart hrest =>
      obtain ⟨t, b, htext, hb, hphrase⟩ := hpart.phrase (.inr (by simp [hrest]))
      refine ⟨t ++ b, ?_, .last hphrase hb⟩
      rw [htext, hrest]
      simp

end

end Directive

end FlagSelect
