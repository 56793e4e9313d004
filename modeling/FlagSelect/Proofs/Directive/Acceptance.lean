import FlagSelect.Proofs.Directive.Completeness
import FlagSelect.Proofs.Directive.Grammar
import Mathlib.Data.List.DropRight

/-!
# Which directives compile

A text that the grammar derives has a reading, whatever may follow it. Main statement:
`Pass.compile_iff_derives`.
-/

namespace FlagSelect

variable {σ : Type}

namespace Directive

open Grammar (Blanks Digits Balanced CommaFree Leftover Expression Suffixes Several)

variable {scope : Scope σ} {pass : Pass} {place : Place} {text b l rest : List Char} {i : Slot}
  {name : String}

/-! ## Words and what follows them -/

/-- A text that continues no word in front of it. -/
def Apart (text : List Char) : Prop :=
  ∀ c ∈ text.head?, isNameChar c = false ∧ c ≠ '(' ∧ c ≠ '?'

theorem apart_cons {c : Char} (h : isNameChar c = false ∧ c ≠ '(' ∧ c ≠ '?') : Apart (c :: l) := by
  rintro d hd
  cases hd
  exact h

theorem apart_of_ends (h : Ends place rest) : Apart rest := by
  cases place with
  | top => cases h; exact fun c hc => by cases hc
  | argument =>
      obtain ⟨c, l, rfl, rfl | rfl⟩ := h
      · exact apart_cons (by decide)
      · exact apart_cons (by decide)
  | group =>
      obtain ⟨l, rfl⟩ := h
      exact apart_cons (by decide)

theorem not_blank_of_ends (h : Ends place rest) :
    ∀ c ∈ rest.head?, Text.isAsciiBlank c = false := by
  intro c hc
  cases place with
  | top => cases h; cases hc
  | argument => obtain ⟨c, l, rfl, rfl | rfl⟩ := h <;> cases hc <;> rfl
  | group => obtain ⟨l, rfl⟩ := h; cases hc; rfl

theorem apart_blanks (hb : Blanks b) (h : Apart rest) : Apart (b ++ rest) := by
  cases b with
  | nil => exact h
  | cons c b =>
      have hc := hb c List.mem_cons_self
      refine apart_cons ⟨?_, ?_, ?_⟩
      · by_contra hname
        rw [isAsciiBlank_eq_false (by simpa using hname)] at hc
        cases hc
      · rintro rfl; exact absurd hc (by decide)
      · rintro rfl; exact absurd hc (by decide)

theorem apart_suffixes {ty ty' : Ty} {slots slots' : Slots Ty}
    (h : Suffixes scope ty slots text ty' slots') (hrest : Apart rest) : Apart (text ++ rest) := by
  cases h with
  | nil => exact hrest
  | member hb _ _ _ =>
      rw [List.append_assoc]
      exact apart_blanks hb (apart_cons (by decide))
  | store hb _ _ =>
      rw [List.append_assoc]
      exact apart_blanks hb (apart_cons (by decide))

theorem takeWhile_append_apart {p : Char → Bool} (hl : ∀ c ∈ l, p c = true)
    (hrest : ∀ c ∈ rest.head?, p c = false) :
    (l ++ rest).takeWhile p = l ∧ (l ++ rest).dropWhile p = rest := by
  rw [List.takeWhile_append_of_pos hl, List.dropWhile_append_of_pos hl]
  cases rest with
  | nil => simp
  | cons c rest => simp [hrest c rfl]

theorem skipBlanks_append (hb : Blanks b) (hrest : ∀ c ∈ rest.head?, Text.isAsciiBlank c = false) :
    skipBlanks (b ++ rest) = rest :=
  (takeWhile_append_apart hb hrest).2

theorem skipBlanks_append_cons {c : Char} (hb : Blanks b) (hc : Text.isAsciiBlank c = false) :
    skipBlanks (b ++ c :: rest) = c :: rest :=
  skipBlanks_append hb fun d hd => by cases hd; exact hc

theorem numeral_append {ds : List Char} (hds : Digits ds i.val)
    (hrest : ∀ c ∈ rest.head?, c.isDigit = false) : Numeral (ds ++ rest) i rest := by
  obtain ⟨htake, hdrop⟩ := takeWhile_append_apart hds.digits hrest
  refine ⟨?_, hdrop⟩
  have hne : ds.isEmpty = false := by simpa using hds.nonempty
  rw [htake, slotOf?, hne]
  simp [hds.number]

theorem Apart.not_digit (h : Apart rest) : ∀ c ∈ rest.head?, c.isDigit = false := by
  intro c hc
  by_contra hdigit
  have hname := isNameChar_of_isDigit (c := c) (by simpa using hdigit)
  rw [(h c hc).1] at hname
  cases hname

theorem name?_append {cs : List Char} (hcs : Grammar.Name cs)
    (hrest : ∀ c ∈ rest.head?, isNameChar c = false) :
    name? (cs ++ rest) = some (String.ofList cs, rest) := by
  obtain ⟨c, l, rfl, hc, hl⟩ := hcs
  obtain ⟨htake, hdrop⟩ := takeWhile_append_apart hl hrest
  rw [List.cons_append, name?, if_pos hc, htake, hdrop]

theorem literal?_of_digits {ds : List Char} {n : Nat} (hds : Digits ds n) (hn : n < 1 <<< 63) :
    ∃ v, literal? ds = some (v, Grammar.literalTy n) := by
  unfold literal? Grammar.literalTy
  rw [hds.number]
  by_cases hint : n < 1 <<< 31
  · exact ⟨_, by simp only [hint, if_true]; rfl⟩
  · exact ⟨_, by simp only [hint, hn, if_true, if_false]; rfl⟩

/-! ## Text to be skipped -/

section Skipping

variable {atComma : Bool} {depth : Nat} {c : Char}

theorem skipBalanced_open :
    skipBalanced atComma depth ('(' :: l) = skipBalanced atComma (depth + 1) l := by
  simp [skipBalanced]

theorem skipBalanced_close :
    skipBalanced atComma (depth + 1) (')' :: l) = skipBalanced atComma depth l := by
  simp [skipBalanced]

theorem skipBalanced_other (hopen : c ≠ '(') (hclose : c ≠ ')')
    (hcomma : ¬ (c = ',' ∧ depth = 0 ∧ atComma = true)) :
    skipBalanced atComma depth (c :: l) = skipBalanced atComma depth l := by
  simp [skipBalanced, hopen, hclose, hcomma]

theorem skipBalanced_nested {inner : List Char}
    (hinner : ∀ l,
      skipBalanced atComma (depth + 1) (inner ++ l) = skipBalanced atComma (depth + 1) l) :
    skipBalanced atComma depth ('(' :: (inner ++ ')' :: text) ++ l) =
      skipBalanced atComma depth (text ++ l) := by
  have hassoc : '(' :: (inner ++ ')' :: text) ++ l = '(' :: (inner ++ ')' :: (text ++ l)) := by simp
  rw [hassoc, skipBalanced_open, hinner, skipBalanced_close]

theorem skipBalanced_balanced (h : Balanced text) (hdepth : atComma = false ∨ 0 < depth) :
    skipBalanced atComma depth (text ++ l) = skipBalanced atComma depth l := by
  induction h generalizing depth l with
  | nil => rfl
  | other hopen hclose _ ih =>
      rw [List.cons_append, skipBalanced_other hopen hclose, ih hdepth]
      rintro ⟨-, rfl, rfl⟩
      exact hdepth.elim (fun h => by cases h) (Nat.lt_irrefl 0)
  | nested _ _ ihinner ih =>
      rw [skipBalanced_nested fun _ => ihinner (.inr (Nat.succ_pos depth)), ih hdepth]

theorem skipBalanced_commaFree (h : CommaFree text) :
    skipBalanced true depth (text ++ l) = skipBalanced true depth l := by
  induction h generalizing l with
  | nil => rfl
  | other hopen hclose hcomma _ ih =>
      rw [List.cons_append, skipBalanced_other hopen hclose fun h => hcomma h.1, ih]
  | nested hinner _ ih =>
      rw [skipBalanced_nested fun _ => skipBalanced_balanced hinner (.inr (Nat.succ_pos depth)), ih]

end Skipping

theorem commaFree_blanks (hb : Blanks b) : CommaFree b := by
  induction b with
  | nil => exact .nil
  | cons c b ih =>
      have hc := hb c List.mem_cons_self
      refine .other ?_ ?_ ?_ (ih fun d hd => hb d (List.mem_cons_of_mem c hd)) <;> rintro rfl <;>
        exact absurd hc (by decide)

/-- What is left of an expression is skipped with the blanks behind it. -/
theorem skipRest_leftover (h : Leftover place text) (hb : Blanks b) (hends : Ends place rest) :
    skipRest place (text ++ (b ++ rest)) = rest := by
  cases place with
  | top => exact Eq.symm hends
  | argument =>
      obtain ⟨c, l, rfl, hc⟩ := hends
      rw [skipRest, skipBalanced_commaFree h, skipBalanced_commaFree (commaFree_blanks hb)]
      rcases hc with rfl | rfl <;> simp [skipBalanced]
  | group =>
      obtain ⟨l, rfl⟩ := hends
      rw [skipRest, skipBalanced_balanced h (.inl rfl),
        skipBalanced_balanced (commaFree_blanks hb).balanced (.inl rfl)]
      simp [skipBalanced]

/-! ## Members -/

theorem members_of_find? {schema : Schema σ} {n : String} {t : HostType σ}
    (h : schema.find? n = some t) : members schema (.object n) = .ok (some t) := by
  rw [members, h]

theorem field_of {schema : Schema σ} {receiver : Ty} {cs : List Char} {f : Field σ}
    (h : Grammar.FieldOf schema receiver cs f) :
    field schema receiver (String.ofList cs) = .ok f := by
  obtain ⟨n, t, rfl, ht, hf⟩ := h
  rw [field, members_of_find? ht]
  simp only [bind, Except.bind, Option.bind_some, HostType.field?, hf]
  rfl

theorem overload_of {schema : Schema σ} {receiver : Ty} {cs : List Char} {types : List Ty}
    {m : Method σ} (h : Grammar.MethodOf schema receiver cs types m) :
    overload schema receiver (String.ofList cs) types = .ok m := by
  obtain ⟨n, t, rfl, ht, hm⟩ := h
  rw [← find?_overloads] at hm
  have hne : (t.overloads (String.ofList cs) types.length).isEmpty = false := by
    cases hoverloads : t.overloads (String.ofList cs) types.length with
    | nil => rw [hoverloads] at hm; cases hm
    | cons _ _ => rfl
  rw [overload, members_of_find? ht]
  simp only [bind, Except.bind, hne, hm]
  rfl

/-! ## Phrases -/

theorem Reads.skip {part : Part σ} (h : Reads scope place none pass text part) :
    Reads scope place none pass (skipBlanks text) part ∧ ∀ l, skipBlanks text ≠ ')' :: l := by
  have hskip : skipBlanks (skipBlanks text) = skipBlanks text := List.dropWhile_idempotent _ _
  cases h with
  | value hstart htail =>
      obtain ⟨c, l, hl, -, hc, -⟩ := hstart.head
      refine ⟨.value (hskip.symm ▸ hstart) htail, fun l' hl' => ?_⟩
      rw [hl'] at hl
      cases hl
      exact hc rfl
  | reused hl hi hty =>
      exact ⟨.reused (hskip.trans hl) hi hty, fun l' hl' => by rw [hl'] at hl; cases hl⟩
  | pending hl hi hty hpart =>
      exact ⟨.pending (hskip.trans hl) hi hty hpart, fun l' hl' => by rw [hl'] at hl; cases hl⟩

theorem TakesMore.skip {args : Arguments σ} (h : TakesMore scope pass text args) :
    TakesMore scope pass (skipBlanks text) args ∧ ∀ l, skipBlanks text ≠ ')' :: l := by
  cases h with
  | more hpart hrest hargs => exact ⟨.more hpart.skip.1 hrest hargs, hpart.skip.2⟩
  | last hpart hrest => exact ⟨.last hpart.skip.1 hrest, hpart.skip.2⟩

/-- Whether a part has a type, and what slots and text there are behind it. -/
structure Leaves (part : Part σ) (ty : Ty) (slots : Slots Ty) (rest : List Char) : Prop where
  ty : part.ty = ty
  locals : part.pass.locals = slots
  rest : part.rest = rest

structure LeavesArguments (args : Arguments σ) (types : List Ty) (slots : Slots Ty)
    (rest : List Char) : Prop where
  types : args.types = types
  locals : args.pass.locals = slots
  rest : args.rest = rest

-- By induction on the derivation, for any text behind the phrase that does not run into it.
mutual

theorem reads_expression {place slots text ty slots' pass b rest}
    (h : Expression scope place slots text ty slots') (hpass : pass.locals = slots)
    (hb : Blanks b) (hends : Ends place rest) :
    ∃ part : Part σ, Reads scope place none pass (text ++ (b ++ rest)) part ∧
      Leaves part ty slots' rest := by
  match h with
  | .pending hb₀ hds hnone hexpression =>
      obtain ⟨part, hpart, hleaves⟩ := reads_expression hexpression hpass hb hends
      refine ⟨part, ?_, hleaves⟩
      simp only [List.append_assoc, List.cons_append]
      exact .pending (skipBlanks_append_cons hb₀ rfl)
        (numeral_append hds fun c hc => by cases hc; rfl) (hpass ▸ hnone) hpart
  | .reused hb₀ hds hty hleft =>
      simp only [List.append_assoc, List.cons_append]
      exact ⟨_, .reused (skipBlanks_append_cons hb₀ rfl)
        (numeral_append hds fun c hc => by cases hc; rfl) (hpass ▸ hty), rfl, hpass,
        skipRest_leftover hleft hb hends⟩
  | .chain hb₀ hoperand hsuffixes =>
      have hafter := apart_suffixes hsuffixes (apart_blanks hb (apart_of_ends hends))
      obtain ⟨head, hhead, hleaves⟩ := starts_operand hoperand hpass hafter
      obtain ⟨tail, htail, hleaves'⟩ := reads_suffixes hsuffixes hleaves.locals hb hends
      obtain ⟨c, l, hl, -, -, hc⟩ := hhead.head
      rw [List.append_assoc, List.append_assoc, hl]
      rw [hl] at hhead
      rw [← hleaves.ty, ← hleaves.rest] at htail
      have hskip : skipBlanks (_ ++ c :: l) = c :: l := skipBlanks_append_cons hb₀ hc
      exact ⟨_, .value (hskip.symm ▸ hhead) htail, hleaves'.ty, hleaves'.locals, hleaves'.rest⟩

theorem starts_operand {slots text ty slots' pass rest}
    (h : Grammar.Operand scope slots text ty slots') (hpass : pass.locals = slots)
    (hrest : Apart rest) :
    ∃ part : Part σ, Starts scope pass (text ++ rest) part ∧ Leaves part ty slots' rest := by
  match h with
  | .load hds hty =>
      refine ⟨_, .load (numeral_append hds hrest.not_digit) ?_ (hpass ▸ hty), rfl, hpass, rfl⟩
      rintro l rfl
      exact (hrest '?' rfl).2.2 rfl
  | .side hside => exact ⟨_, .side hside, rfl, hpass, rfl⟩
  | .group hexpression hb =>
      obtain ⟨part, hpart, hleaves⟩ :=
        reads_expression hexpression hpass hb (show Ends .group (')' :: rest) from ⟨rest, rfl⟩)
      rw [List.cons_append, List.append_assoc, List.append_assoc]
      exact ⟨_, .group hpart hleaves.rest, hleaves.ty, hleaves.locals, rfl⟩
  | .literal hds hn =>
      obtain ⟨v, hv⟩ := literal?_of_digits hds hn
      obtain ⟨htake, hdrop⟩ := takeWhile_append_apart hds.digits hrest.not_digit
      obtain ⟨c, l, rfl⟩ := List.exists_cons_of_ne_nil hds.nonempty
      rw [← htake, List.cons_append] at hv
      exact ⟨_, .literal (hds.digits c List.mem_cons_self) hv, rfl, hpass, hdrop⟩
  | .member hmember =>
      obtain ⟨name, rest', part, hname, hpart, hleaves⟩ := selects_member hmember hpass hrest
      exact ⟨_, .member hname hpart, hleaves.ty, hleaves.locals, hleaves.rest⟩

theorem reads_suffixes {place slots text ty ty' slots' pass b rest}
    (h : Suffixes scope ty slots text ty' slots') (hpass : pass.locals = slots)
    (hb : Blanks b) (hends : Ends place rest) :
    ∃ part : Part σ, Reads scope place (some ty) pass (text ++ (b ++ rest)) part ∧
      Leaves part ty' slots' rest := by
  match h with
  | .nil =>
      have hskip : skipBlanks (b ++ rest) = rest := skipBlanks_append hb (not_blank_of_ends hends)
      exact ⟨_, .finish (by rw [List.nil_append, hskip]; exact hends), rfl, hpass, hskip⟩
  | .member hb₀ hb₁ hmember hsuffixes =>
      have hafter := apart_suffixes hsuffixes (apart_blanks hb (apart_of_ends hends))
      obtain ⟨name, rest', head, hname, hhead, hleaves⟩ := selects_member hmember hpass hafter
      obtain ⟨tail, htail, hleaves'⟩ := reads_suffixes hsuffixes hleaves.locals hb hends
      obtain ⟨c, l, hl, hc⟩ := name?_cons hname
      rw [← hleaves.ty, ← hleaves.rest] at htail
      simp only [List.append_assoc, List.cons_append]
      refine ⟨_, .select (skipBlanks_append_cons hb₀ rfl) ?_ hhead htail, hleaves'.ty,
        hleaves'.locals, hleaves'.rest⟩
      rw [hl, skipBlanks_append_cons hb₁ (isAsciiBlank_eq_false (isNameChar_of_isNameStart hc)),
        ← hl]
      exact hname
  | .store (i := i) hb₀ hds hsuffixes =>
      have hset :
          ({ pass with locals := pass.locals.set i ty } : Pass).locals = slots.set i ty := by
        rw [hpass]
      obtain ⟨part, hpart, hleaves⟩ := reads_suffixes hsuffixes hset hb hends
      have hafter := apart_suffixes hsuffixes (apart_blanks hb (apart_of_ends hends))
      simp only [List.append_assoc, List.cons_append]
      exact ⟨_, .store (skipBlanks_append_cons hb₀ rfl) (numeral_append hds hafter.not_digit) hpart,
        hleaves.ty, hleaves.locals, hleaves.rest⟩

theorem selects_member {receiver slots text ty slots' pass rest}
    (h : Grammar.Member scope receiver slots text ty slots') (hpass : pass.locals = slots)
    (hrest : Apart rest) :
    ∃ name rest' part, name? (text ++ rest) = some (name, rest') ∧
      Selects scope receiver name pass rest' part ∧ Leaves (σ := σ) part ty slots' rest := by
  match h with
  | .field hname hf =>
      refine ⟨_, rest, _, name?_append hname fun c hc => (hrest c hc).1,
        .field ?_ ?_ (field_of hf), rfl, hpass, rfl⟩
      · rintro l rfl
        exact (hrest '(' rfl).2.1 rfl
      · rintro l rfl
        exact (hrest '?' rfl).2.2 rfl
  | .call hname hargs hm =>
      obtain ⟨args, hargs, hleaves⟩ := takes_arguments hargs hpass rest
      have hm := overload_of hm
      rw [← hleaves.types] at hm
      simp only [List.append_assoc, List.cons_append, List.nil_append]
      exact ⟨_, _, _, name?_append hname fun c hc => by cases hc; rfl, .call hargs hm, rfl,
        hleaves.locals, hleaves.rest⟩

theorem takes_arguments {slots text types slots' pass}
    (h : Grammar.Arguments scope slots text types slots') (hpass : pass.locals = slots)
    (rest : List Char) :
    ∃ args : Arguments σ, Takes scope pass (skipBlanks (text ++ ')' :: rest)) args ∧
      LeavesArguments args types slots' rest := by
  match h with
  | .nothing hb =>
      rw [skipBlanks_append_cons hb rfl]
      exact ⟨_, .nothing, rfl, hpass, rfl⟩
  | .several hseveral =>
      obtain ⟨args, hargs, hleaves⟩ := takesMore_several hseveral hpass rest
      exact ⟨args, .several hargs.skip.2 hargs.skip.1, hleaves⟩

theorem takesMore_several {slots text types slots' pass}
    (h : Several scope slots text types slots') (hpass : pass.locals = slots)
    (rest : List Char) :
    ∃ args : Arguments σ, TakesMore scope pass (text ++ ')' :: rest) args ∧
      LeavesArguments args types slots' rest := by
  match h with
  | .last hexpression hb =>
      obtain ⟨part, hpart, hleaves⟩ :=
        reads_expression hexpression hpass hb
          (show Ends .argument (')' :: rest) from ⟨_, _, rfl, .inr rfl⟩)
      rw [List.append_assoc]
      exact ⟨_, .last hpart hleaves.rest, by rw [hleaves.ty], hleaves.locals, rfl⟩
  | .more hexpression hb hseveral =>
      obtain ⟨part, hpart, hleaves⟩ :=
        reads_expression hexpression hpass hb
          (show Ends .argument (',' :: _) from ⟨_, _, rfl, .inl rfl⟩)
      obtain ⟨args, hargs, hleaves'⟩ := takesMore_several hseveral hleaves.locals rest
      rw [List.append_assoc, List.append_assoc, List.cons_append]
      exact ⟨_, .more hpart hleaves.rest hargs, by rw [hleaves.ty, hleaves'.types],
        hleaves'.locals, hleaves'.rest⟩

end

end Directive

theorem Pass.not_blank_of_compile {scope : Scope σ} {pass pass' : Pass} {directive : String}
    {program : Program σ} (h : pass.compile scope directive = .ok (program, pass')) :
    Text.allBlank directive = false := by
  rw [compile] at h
  split at h
  · cases h
  · next hblank => simpa using hblank

/-- A directive compiles to a program of a type exactly if it is not blank and the grammar derives
it at this type, with the slot types it leaves behind. -/
theorem Pass.compile_iff_derives {scope : Scope σ} {pass : Pass} {directive : String} {ty : Ty}
    {slots : Slots Ty} :
    (∃ program pass', pass.compile scope directive = .ok (program, pass') ∧
      program.result = ty ∧ pass'.locals = slots) ↔
    Text.allBlank directive = false ∧
      Grammar.Derives scope pass.locals directive.toList ty slots := by
  constructor
  · rintro ⟨program, pass', hcompile, rfl, rfl⟩
    obtain ⟨part, hpart, rfl, rfl⟩ := compile_reads hcompile
    obtain ⟨phrase, b, htext, hb, hphrase⟩ := hpart.phrase (.inl rfl)
    rw [hpart.rest_of_top rfl, List.append_nil] at htext
    exact ⟨not_blank_of_compile hcompile, phrase, b, htext, hb, hphrase⟩
  · rintro ⟨hblank, phrase, b, htext, hb, hexpression⟩
    obtain ⟨part, hpart, hleaves⟩ :=
      Directive.reads_expression hexpression rfl hb (show Directive.Ends .top [] from rfl)
    rw [List.append_nil, ← htext] at hpart
    exact ⟨_, _, compile_of_reads hblank hpart, hleaves.ty, hleaves.locals⟩

end FlagSelect
