import FlagSelect.Proofs.Directive.Acceptance

/-!
# Skipping

Counting parentheses from the start of an expression leads to where a reader of the expression
stops. Main statement: `chain_skips`.
-/

namespace FlagSelect.Directive

variable {σ : Type} {scope : Scope σ} {place : Place} {text l rest : List Char} {c : Char}
  {i : Slot} {name : String} {atComma : Bool} {depth : Nat}

/-- Whoever skips from the start of a text comes past the start of the text behind it, with as many
parentheses open as before. -/
def Passes (text rest : List Char) : Prop :=
  ∀ atComma depth, skipBalanced atComma depth text = skipBalanced atComma depth rest

theorem Passes.trans {l₁ l₂ l₃ : List Char} (h₁ : Passes l₁ l₂) (h₂ : Passes l₂ l₃) :
    Passes l₁ l₃ :=
  fun atComma depth => (h₁ atComma depth).trans (h₂ atComma depth)

theorem Passes.skipRest_eq (h : Passes text rest) : skipRest place text = skipRest place rest := by
  cases place with
  | top => rfl
  | argument => exact h true 0
  | group => exact h false 0

/-! ## Text without parentheses and commas -/

theorem passes_cons (h : c ≠ '(' ∧ c ≠ ')' ∧ c ≠ ',') : Passes (c :: l) l :=
  fun _ _ => skipBalanced_other h.1 h.2.1 fun hcomma => h.2.2 hcomma.1

theorem passes_dropWhile {p : Char → Bool} (h : ∀ c, p c = true → c ≠ '(' ∧ c ≠ ')' ∧ c ≠ ',') :
    Passes text (text.dropWhile p) := by
  induction text with
  | nil => exact fun _ _ => rfl
  | cons c l ih =>
      by_cases hc : p c = true
      · rw [List.dropWhile_cons_of_pos hc]
        exact (passes_cons (h c hc)).trans ih
      · rw [List.dropWhile_cons_of_neg hc]
        exact fun _ _ => rfl

theorem passes_skipBlanks : Passes text (skipBlanks text) :=
  passes_dropWhile fun c hc => by
    refine ⟨?_, ?_, ?_⟩ <;> rintro rfl <;> exact absurd hc (by decide)

theorem passes_of_skipBlanks (h : skipBlanks text = c :: l) (hc : c ≠ '(' ∧ c ≠ ')' ∧ c ≠ ',') :
    Passes text l :=
  Passes.trans (h ▸ passes_skipBlanks) (passes_cons hc)

theorem passes_digits : Passes text (text.dropWhile Char.isDigit) :=
  passes_dropWhile fun c hc => by
    refine ⟨?_, ?_, ?_⟩ <;> rintro rfl <;> exact absurd hc (by decide)

theorem Numeral.passes (h : Numeral l i rest) : Passes l rest :=
  h.2 ▸ passes_digits

theorem name?_passes (h : name? text = some (name, rest)) : Passes text rest := by
  obtain ⟨c, l, rfl, hc⟩ := name?_cons h
  rw [name?, if_pos hc] at h
  cases h
  refine Passes.trans (passes_cons ?_) (passes_dropWhile fun d hd => ?_)
  · refine ⟨?_, ?_, ?_⟩ <;> rintro rfl <;> exact absurd hc (by decide)
  · refine ⟨?_, ?_, ?_⟩ <;> rintro rfl <;> exact absurd hd (by decide)

/-- The text from `<i?` on is passed like the text behind it. -/
theorem passes_reuse (hl : skipBlanks text = '<' :: l) (hi : Numeral l i ('?' :: rest)) :
    Passes text rest :=
  (passes_of_skipBlanks hl (by decide)).trans (hi.passes.trans (passes_cons (by decide)))

/-! ## Nesting -/

/-- Skipping can halt on the way: with a further parenthesis open it does not matter that it stops
at the end of what is inside. -/
theorem skipBalanced_skipBalanced (atComma' : Bool) (outer : Nat) :
    skipBalanced atComma (outer + 1) (skipBalanced atComma' depth l) =
      skipBalanced atComma (depth + (outer + 1)) l := by
  induction l generalizing depth with
  | nil => rfl
  | cons c l ih =>
      by_cases hopen : c = '('
      · subst hopen
        rw [skipBalanced_open, skipBalanced_open, ih, Nat.add_right_comm]
      by_cases hclose : c = ')'
      · subst hclose
        cases depth with
        | zero => rw [Nat.zero_add]; rfl
        | succ depth =>
            rw [skipBalanced_close, ih, Nat.add_right_comm, skipBalanced_close]
      have houter : ¬ (c = ',' ∧ depth + (outer + 1) = 0 ∧ atComma = true) := by omega
      by_cases hcomma : c = ',' ∧ depth = 0 ∧ atComma' = true
      · obtain ⟨rfl, rfl, rfl⟩ := hcomma
        rw [Nat.zero_add]
        rfl
      · rw [skipBalanced_other hopen hclose hcomma, skipBalanced_other hopen hclose houter, ih]

/-- What is inside of parentheses is passed as far as its own end. -/
theorem skipBalanced_inside (h : skipBalanced atComma depth text = rest) (atComma' : Bool)
    (outer : Nat) :
    skipBalanced atComma' (depth + (outer + 1)) text = skipBalanced atComma' (outer + 1) rest := by
  rw [← h, skipBalanced_skipBalanced]

/-! ## Readings -/

-- By induction on the reading. An expression may end at the end of the text, where the grammar has
-- no place for it: an argument that is reused skips what is never closed.
mutual

theorem Reads.skipRest_eq {place ctx pass text} {part : Part σ}
    (h : Reads scope place ctx pass text part) : skipRest place text = part.rest := by
  match h with
  | .finish hends =>
      rw [passes_skipBlanks.skipRest_eq]
      cases place with
      | top => exact Eq.symm hends
      | argument =>
          obtain ⟨c, rest, hrest, hc⟩ := hends
          rw [hrest]
          rcases hc with rfl | rfl <;> rfl
      | group =>
          obtain ⟨rest, hrest⟩ := hends
          rw [hrest]
          rfl
  | .value hstart htail =>
      rw [passes_skipBlanks.skipRest_eq, hstart.passes.skipRest_eq]
      exact htail.skipRest_eq
  | .reused hl hi _ => exact (passes_reuse hl hi).skipRest_eq
  | .pending hl hi _ hpart => exact (passes_reuse hl hi).skipRest_eq.trans hpart.skipRest_eq
  | .select hl hname hhead htail =>
      rw [(passes_of_skipBlanks hl (by decide)).skipRest_eq, passes_skipBlanks.skipRest_eq,
        (name?_passes hname).skipRest_eq, hhead.passes.skipRest_eq]
      exact htail.skipRest_eq
  | .store hl hi htail =>
      rw [(passes_of_skipBlanks hl (by decide)).skipRest_eq, hi.passes.skipRest_eq]
      exact htail.skipRest_eq

theorem Starts.passes {pass text} {part : Part σ} (h : Starts scope pass text part) :
    Passes text part.rest := by
  match h with
  | .load hi _ _ => exact (passes_cons (by decide)).trans hi.passes
  | .side _ => exact passes_cons (by decide)
  | .group (l := l) hpart hrest =>
      intro atComma depth
      have hinside : skipBalanced false 0 l = ')' :: _ := hpart.skipRest_eq.trans hrest
      rw [skipBalanced_open, ← Nat.zero_add (depth + 1), skipBalanced_inside hinside,
        skipBalanced_close]
  | .literal _ _ => exact passes_digits
  | .member hname hpart => exact (name?_passes hname).trans hpart.passes

theorem Selects.passes {receiver name pass text} {part : Part σ}
    (h : Selects scope receiver name pass text part) : Passes text part.rest := by
  match h with
  | .call hargs _ =>
      intro atComma depth
      rw [skipBalanced_open, passes_skipBlanks, hargs.skipBalanced_eq]
  | .field _ _ _ => exact fun _ _ => rfl

theorem Takes.skipBalanced_eq {pass text} {args : Arguments σ} (h : Takes scope pass text args)
    (atComma : Bool) (depth : Nat) :
    skipBalanced atComma (depth + 1) text = skipBalanced atComma depth args.rest := by
  match h with
  | .nothing => exact skipBalanced_close
  | .several _ hargs => exact hargs.skipBalanced_eq atComma depth

theorem TakesMore.skipBalanced_eq {pass text} {args : Arguments σ}
    (h : TakesMore scope pass text args) (atComma : Bool) (depth : Nat) :
    skipBalanced atComma (depth + 1) text = skipBalanced atComma depth args.rest := by
  match h with
  | .more hpart hrest hargs =>
      have hinside : skipBalanced true 0 text = ',' :: _ := hpart.skipRest_eq.trans hrest
      have hcomma : ¬ (',' = ',' ∧ depth + 1 = 0 ∧ atComma = true) := by omega
      rw [← Nat.zero_add (depth + 1), skipBalanced_inside hinside,
        skipBalanced_other (by decide) (by decide) hcomma]
      exact hargs.skipBalanced_eq atComma depth
  | .last hpart hrest =>
      have hinside : skipBalanced true 0 text = ')' :: _ := hpart.skipRest_eq.trans hrest
      rw [← Nat.zero_add (depth + 1), skipBalanced_inside hinside, skipBalanced_close]

end

theorem chain_of_known {s : Source σ} {pass : Pass} {ty : Ty} (hl : skipBlanks text = '<' :: l)
    (hi : Numeral l i ('?' :: rest)) (hty : pass.locals.get? i = some ty) (n : Nat) :
    chain s (n + 2) place none pass text =
      .ok ⟨ty, [.loadLocal i], skipRest place rest, pass⟩ :=
  chain_of_operand hl (by decide) (by decide) (operand_reused hi hty)

/-- Where an expression, or what is left of one, is read, skipping from the same start stops where
the reader does. In particular a reader that finds a known slot in front of it, at `<i?`, goes on
from there as if it had read it, with whatever it knows of the slots. -/
theorem chain_skips {s : Source σ} {fuel : Nat} {ctx : Option Ty} {pass : Pass} {part : Part σ}
    (h : chain s fuel place ctx pass text = .ok part) :
    skipRest place text = part.rest ∧
    ∀ {before l : List Char} {i : Slot} {known : Pass} {ty : Ty} (n : Nat),
      skipBlanks before = '<' :: l → Numeral l i ('?' :: text) → known.locals.get? i = some ty →
      chain s (n + 2) place none known before = .ok ⟨ty, [.loadLocal i], part.rest, known⟩ := by
  have hrest := (chain_reads h).skipRest_eq
  refine ⟨hrest, fun n hl hi hty => ?_⟩
  rw [chain_of_known hl hi hty, hrest]

/-- A source without host types. -/
def bareSource : Source Unit := ⟨⟨{}, .any, none⟩, 24⟩

/-- A pass in which one slot is known. -/
def knowing (i : Slot) (ty : Ty) : Pass := { locals := ({} : Slots Ty).set i ty }

/-- An argument that reuses a slot in parentheses of its own, over a comma, and the same argument
behind a test of another slot. -/
theorem chain_skips_argument :
    ∃ part, chain bareSource 8 .argument none (knowing 0 (.scalar .int))
        "(<0?f(a, (b)))>2, 4)".toList = .ok part ∧ part.rest = ", 4)".toList ∧
      chain bareSource 2 .argument none (knowing 1 (.scalar .long))
          " <1?(<0?f(a, (b)))>2, 4)".toList =
        .ok ⟨.scalar .long, [.loadLocal 1], part.rest, knowing 1 (.scalar .long)⟩ := by
  have hread : (chain bareSource 8 .argument none (knowing 0 (.scalar .int))
      "(<0?f(a, (b)))>2, 4)".toList).toOption.isSome := by
    decide +kernel
  cases h : chain bareSource 8 .argument none (knowing 0 (.scalar .int))
      "(<0?f(a, (b)))>2, 4)".toList with
  | error fault =>
      rw [h] at hread
      cases hread
  | ok part =>
      obtain ⟨hskip, hknown⟩ := chain_skips h
      have hi : Numeral "1?(<0?f(a, (b)))>2, 4)".toList 1 ('?' :: "(<0?f(a, (b)))>2, 4)".toList) :=
        ⟨by decide +kernel, by decide +kernel⟩
      refine ⟨part, rfl, ?_, hknown 0 (by decide +kernel) hi (by decide +kernel)⟩
      rw [← hskip]
      decide +kernel

end FlagSelect.Directive
