import FlagSelect.Proofs.Toml.Grammar

/-!
# Reading the literals of TOML

Numerals are read as what they stand for (`Numeral.numeral?`), and so are the words of numbers and
truth values (`Literal.value?`), up to where they end.
-/

namespace FlagSelect.Toml.Grammar

variable {base n d : Nat} {c : Char} {text rest l l' : List Char}

/-! ## Numerals -/

/-- What holds of the digits of a base, in either case, holds of each of them. -/
theorem Digit.of_forall {bound : Nat} {P : Nat → Char → Prop} (h : Digit base c d)
    (hbase : base ≤ bound)
    (hall : ∀ d < bound, P d (Nat.digitChar d) ∧ P d (Nat.digitChar d).toUpper) : P d c := by
  obtain ⟨hd, hc⟩ := h
  obtain ⟨hlower, hupper⟩ := hall d (Nat.lt_of_lt_of_le hd hbase)
  rcases hc with rfl | rfl
  · exact hlower
  · exact hupper

theorem Digit.value (h : Digit base c d) (hbase : base ≤ 16) : Text.Hex.digit? c = some d :=
  h.of_forall (P := fun d c => Text.Hex.digit? c = some d) hbase (by decide)

theorem Digit.isAlphanum (h : Digit base c d) (hbase : base ≤ 16) : c.isAlphanum = true :=
  h.of_forall (P := fun _ c => c.isAlphanum = true) hbase (by decide)

theorem Digit.isDigit (h : Digit 10 c d) : c.isDigit = true :=
  h.of_forall (P := fun _ c => c.isDigit = true) Nat.le.refl (by decide)

/-- What is no digit to any base is not one of these. -/
theorem Digit.ne {mark : Char} (h : Digit base c d) (hbase : base ≤ 16)
    (hmark : Text.Hex.digit? mark = none) : c ≠ mark := by
  rintro rfl
  rw [h.value hbase] at hmark
  cases hmark

theorem isDigits_append {isDigit : Char → Bool} {after : Bool}
    (h : isDigits isDigit after l = true) :
    isDigits isDigit after (l ++ l') = isDigits isDigit true l' := by
  induction l generalizing after with
  | nil =>
      cases after with
      | true => rfl
      | false => cases h
  | cons c l ih =>
      rw [isDigits] at h
      rw [List.cons_append, isDigits]
      split at h
      next hc =>
        obtain ⟨hafter, h⟩ := Bool.and_eq_true_iff.mp h
        rw [if_pos hc, hafter, ih h, Bool.true_and]
      next hc =>
        obtain ⟨hdigit, h⟩ := Bool.and_eq_true_iff.mp h
        rw [if_neg hc, hdigit, ih h, Bool.true_and]

theorem Digit.isDigits {after : Bool} (h : Digit base c d) (hbase : base ≤ 16) :
    isDigits (fun c => (Text.Hex.digit? c).any (· < base)) after [c] = true := by
  have hc : c ≠ '_' := h.ne hbase (by decide)
  simp [Toml.isDigits, hc, h.value hbase, h.1]

theorem Numeral.isDigits (h : Numeral base text n) (hbase : base ≤ 16) :
    isDigits (fun c => (Text.Hex.digit? c).any (· < base)) false text = true := by
  induction h with
  | digit hd => exact hd.isDigits hbase
  | more _ hd ih =>
      rw [isDigits_append ih]
      exact hd.isDigits hbase
  | spaced _ hd ih =>
      rw [isDigits_append ih]
      exact hd.isDigits hbase

theorem Numeral.digitsValue (h : Numeral base text n) (hbase : base ≤ 16) :
    digitsValue base text = n := by
  induction h with
  | digit hd => simp [Toml.digitsValue, hd.value hbase]
  | more _ hd ih =>
      rw [Toml.digitsValue, List.foldl_append, ← Toml.digitsValue, ih]
      simp [hd.value hbase]
  | spaced _ hd ih =>
      have hgap : Text.Hex.digit? '_' = none := by decide
      rw [Toml.digitsValue, List.foldl_append, ← Toml.digitsValue, ih]
      simp [hd.value hbase, hgap]

theorem Numeral.numeral? (h : Numeral base text n) (hbase : base ≤ 16) :
    numeral? base text = some (n : Int) := by
  rw [Toml.numeral?, if_pos (h.isDigits hbase), h.digitsValue hbase]

/-- What may stand in a word behind its first character. -/
def Inner (l : List Char) : Prop := ∀ c ∈ l, c = '_' ∨ c.isAlphanum = true

theorem inner_of_all (h : l.all Char.isAlphanum = true) : Inner l :=
  fun c hc => .inr (List.all_eq_true.mp h c hc)

theorem Inner.cons (hc : c = '_' ∨ c.isAlphanum = true) (h : Inner l) : Inner (c :: l) :=
  List.forall_mem_cons.mpr ⟨hc, h⟩

theorem Numeral.digits (h : Numeral base text n) :
    ∀ c ∈ text, c = '_' ∨ ∃ d, Digit base c d := by
  induction h with
  | digit hd => simpa using Or.inr ⟨_, hd⟩
  | more _ hd ih => exact List.forall_mem_append.mpr ⟨ih, by simpa using Or.inr ⟨_, hd⟩⟩
  | spaced _ hd ih => exact List.forall_mem_append.mpr ⟨ih, by simpa using Or.inr ⟨_, hd⟩⟩

theorem Numeral.inner (h : Numeral base text n) (hbase : base ≤ 16) : Inner text :=
  fun c hc => (h.digits c hc).imp_right fun ⟨_, hd⟩ => hd.isAlphanum hbase

/-- A numeral starts with a digit. -/
theorem Numeral.starts (h : Numeral base text n) : ∃ c d l, text = c :: l ∧ Digit base c d := by
  induction h with
  | digit hd => exact ⟨_, _, [], rfl, hd⟩
  | more _ _ ih =>
      obtain ⟨c, d, l, rfl, hc⟩ := ih
      exact ⟨c, d, _, List.cons_append, hc⟩
  | spaced _ _ ih =>
      obtain ⟨c, d, l, rfl, hc⟩ := ih
      exact ⟨c, d, _, List.cons_append, hc⟩

/-- Numbers are written without underscores. -/
theorem numeral_toDigits (hbase : 1 < base) (n : Nat) : Numeral base (Nat.toDigits base n) n := by
  induction n using Nat.strongRecOn with
  | ind n ih =>
      by_cases hn : n < base
      · rw [Nat.toDigits_of_lt_base hn]
        exact .digit ⟨hn, .inl rfl⟩
      · have hle := Nat.le_of_not_lt hn
        have hdiv := ih (n / base) (Nat.div_lt_self (by omega) hbase)
        have hmod := hdiv.more ⟨Nat.mod_lt n (by omega), .inl rfl⟩
        rw [Nat.div_add_mod] at hmod
        rwa [Nat.toDigits_of_base_le hbase hle]

/-- Numbers are written without leading zeros. -/
theorem toDigits_of_head (n : Nat) (h : (Nat.toDigits 10 n).head? = some '0') :
    Nat.toDigits 10 n = ['0'] := by
  induction n using Nat.strongRecOn with
  | ind n ih =>
      by_cases hn : n < 10
      · rw [Nat.toDigits_of_lt_base hn] at h ⊢
        rw [Option.some.inj h]
      · obtain ⟨c, l, hl⟩ := List.exists_cons_of_ne_nil (Nat.toDigits_ne_nil (n := n / 10) (b := 10))
        rw [Nat.toDigits_of_base_le (by decide) (Nat.le_of_not_lt hn), hl] at h
        have hzero := ih (n / 10) (by omega) (by rw [hl]; exact h)
        have hnumeral : Numeral 10 (Nat.toDigits 10 (n / 10)) (n / 10) :=
          numeral_toDigits (by decide) (n / 10)
        rw [hzero] at hnumeral
        have hdiv : 0 = n / 10 := hnumeral.digitsValue (by decide)
        omega

theorem whole_toString (n : Nat) : Whole (toString n).toList n := by
  rw [Nat.toString_eq_repr, Nat.toList_repr]
  exact .decimal (numeral_toDigits (by decide) n) (toDigits_of_head n)

/-! ## Words -/

/-- The word of a whole number starts with a sign or a digit. -/
theorem Whole.starts (h : Whole text n) :
    ∃ c l, text = c :: l ∧ (c = '+' ∨ c = '-' ∨ c.isDigit = true) ∧ Inner l := by
  cases h with
  | decimal hn _ =>
      have hinner := hn.inner (by decide)
      obtain ⟨c, d, l, rfl, hc⟩ := hn.starts
      exact ⟨c, l, rfl, .inr (.inr hc.isDigit), (List.forall_mem_cons.mp hinner).2⟩
  | signed hn _ => exact ⟨'+', _, rfl, .inl rfl, hn.inner (by decide)⟩
  | negated => exact ⟨'-', ['0'], rfl, .inr (.inl rfl), by simp [Inner]⟩
  | based hmark hn =>
      refine ⟨'0', _, rfl, .inr (.inr rfl), ?_⟩
      simp only [List.mem_cons, List.not_mem_nil, or_false, Prod.mk.injEq] at hmark
      rcases hmark with ⟨rfl, rfl⟩ | ⟨rfl, rfl⟩ | ⟨rfl, rfl⟩
      all_goals exact .cons (.inr rfl) (hn.inner (by decide))

theorem Numeral.decimal? (h : Numeral 10 text n) (hzero : text.head? = some '0' → text = ['0']) :
    decimal? text = some (n : Int) := by
  rw [Toml.decimal?, if_neg, h.numeral? (by decide)]
  rintro ⟨hlength, hhead⟩
  rw [hzero hhead] at hlength
  exact absurd hlength (by decide)

theorem Whole.integer? (h : Whole text n) (hn : n < 1 <<< 63) :
    integer? text = some (n : Int) := by
  have hrange : Int64.minValue.toInt ≤ (n : Int) ∧ (n : Int) ≤ Int64.maxValue.toInt := by
    have hmin : Int64.minValue.toInt = -(1 <<< 63 : Nat) := by decide
    have hmax : Int64.maxValue.toInt = (1 <<< 63 : Nat) - 1 := by decide
    omega
  cases h with
  | decimal hnum hzero =>
      have hread := hnum.decimal? hzero
      obtain ⟨c, d, l, rfl, hc⟩ := hnum.starts
      have hsign (mark : Char) (hmark : Text.Hex.digit? mark = none) (l' : List Char) :
          c :: l ≠ mark :: l' :=
        fun h => hc.ne (by decide) hmark (List.cons.inj h).1
      have hbase (mark : Char) (l' : List Char) : c :: l ≠ '0' :: mark :: l' := by
        intro h
        have hone := hzero (by rw [h]; rfl)
        rw [hone] at h
        cases h
      rw [Toml.integer?, hread]
      · simp [hrange]
      · exact hsign '+' (by decide)
      · exact hsign '-' (by decide)
      · exact hbase 'x'
      · exact hbase 'o'
      · exact hbase 'b'
  | signed hnum hzero => simp [Toml.integer?, hnum.decimal? hzero, hrange]
  | negated => rfl
  | based hmark hnum =>
      simp only [List.mem_cons, List.not_mem_nil, or_false, Prod.mk.injEq] at hmark
      rcases hmark with ⟨rfl, rfl⟩ | ⟨rfl, rfl⟩ | ⟨rfl, rfl⟩
      all_goals simp [Toml.integer?, hnum.numeral?, hrange]

/-- A word starts with a letter, a digit or a sign. -/
def Word (text : List Char) : Prop :=
  ∃ c l, text = c :: l ∧ (c = '+' ∨ c = '-' ∨ c.isAlphanum = true) ∧ Inner l

theorem Literal.word {s : Scalar} (h : Literal text s) : Word text := by
  cases h with
  | yes => exact ⟨'t', _, rfl, by decide, inner_of_all (by decide)⟩
  | no => exact ⟨'f', _, rfl, by decide, inner_of_all (by decide)⟩
  | number h _ =>
      obtain ⟨c, l, rfl, hc, hl⟩ := h.starts
      refine ⟨c, l, rfl, ?_, hl⟩
      rcases hc with hc | hc | hc
      · exact .inl hc
      · exact .inr (.inl hc)
      · exact .inr (.inr (by rw [Char.isAlphanum, hc, Bool.or_true]))

theorem Literal.scalar? {s : Scalar} (h : Literal text s) : scalar? text = some s := by
  cases h with
  | yes => rfl
  | no => rfl
  | number h hn =>
      have hread := h.integer? hn
      obtain ⟨c, l, rfl, hc, -⟩ := h.starts
      have hletter {letter : Char} {l' : List Char}
          (hno : ¬ (letter = '+' ∨ letter = '-' ∨ letter.isDigit = true)) :
          c :: l ≠ letter :: l' := by
        intro h
        obtain ⟨rfl, -⟩ := List.cons.inj h
        exact hno hc
      rw [Toml.scalar?, if_neg (hletter (by decide)), if_neg (hletter (by decide)), hread]

theorem eq_drop_of_fixed {width : Nat} (h : fixed? width l = some (n, rest)) :
    rest = l.drop width := by
  rw [fixed?] at h
  obtain ⟨-, h⟩ := Option.ite_none_right_eq_some.mp h
  exact (Prod.mk.inj (Option.some.inj h)).2.symm

theorem eq_cons_of_pass (h : pass? c l = some rest) : l = c :: rest := by
  cases l with
  | nil => cases h
  | cons d l =>
      rw [pass?] at h
      obtain ⟨hc, hl⟩ := Option.ite_none_right_eq_some.mp h
      rw [hc, Option.some.inj hl]

/-- A date has a hyphen behind its year. -/
theorem mem_of_date (h : date? l = some rest) : '-' ∈ l.drop 1 := by
  rw [date?] at h
  obtain ⟨⟨year, behind⟩, hyear, h⟩ := Option.bind_eq_some_iff.mp h
  obtain ⟨month, hmonth, -⟩ := Option.bind_eq_some_iff.mp h
  have hhyphen : '-' ∈ l.drop 4 := by
    rw [← eq_drop_of_fixed hyear, eq_cons_of_pass hmonth]
    exact List.mem_cons_self
  exact List.mem_of_mem_drop (List.drop_drop ▸ hhyphen : '-' ∈ (l.drop 1).drop 3)

theorem Word.not_date (h : Word text) : date? text ≠ some [] := by
  obtain ⟨c, l, rfl, -, hl⟩ := h
  intro hdate
  rcases hl _ (mem_of_date hdate) with h | h <;> exact absurd h (by decide)

theorem Word.isWordChar (h : Word text) : ∀ c ∈ text, isWordChar c = true := by
  obtain ⟨c, l, rfl, hc, hl⟩ := h
  refine List.forall_mem_cons.mpr ⟨?_, fun c hc => ?_⟩
  · rcases hc with rfl | rfl | hc
    · rfl
    · rfl
    · simp [Toml.isWordChar, hc]
  · rcases hl c hc with rfl | hc
    · rfl
    · simp [Toml.isWordChar, hc]

/-- What ends a word: the end of the text, or a character that is in no word. -/
def Ends (p : Char → Bool) (rest : List Char) : Prop := ∀ c ∈ rest.head?, p c = false

theorem takeWhile_append {p : Char → Bool} (h : ∀ c ∈ text, p c = true) (hrest : Ends p rest) :
    (text ++ rest).takeWhile p = text := by
  rw [List.takeWhile_append_of_pos h]
  cases rest with
  | nil => simp
  | cons c rest => simp [hrest c rfl]

theorem dropWhile_append {p : Char → Bool} (h : ∀ c ∈ text, p c = true) (hrest : Ends p rest) :
    (text ++ rest).dropWhile p = rest := by
  rw [List.dropWhile_append_of_pos h]
  cases rest with
  | nil => simp
  | cons c rest => simp [hrest c rfl]

/-- A word is taken as a whole. -/
theorem Word.takeWord (h : Word text) (hrest : Ends Toml.isWordChar rest) :
    takeWord (text ++ rest) = (text, rest) := by
  rw [Toml.takeWord, takeWhile_append h.isWordChar hrest, dropWhile_append h.isWordChar hrest]
  split
  next more => rw [if_neg fun hdate => h.not_date hdate.1]
  next => rfl

theorem ends_cons {p : Char → Bool} (h : p c = false) : Ends p (c :: rest) := by
  simpa [Ends] using h

theorem Word.not_blank (h : Word text) : Ends isBlank (text ++ rest) := by
  obtain ⟨c, l, rfl, hc, -⟩ := h
  refine ends_cons (Bool.eq_false_iff.mpr fun hblank => ?_)
  rcases Bool.or_eq_true_iff.mp hblank with hblank | hblank
  all_goals
    cases eq_of_beq hblank
    exact absurd hc (by decide)

theorem Literal.value? {s : Scalar} {fuel room : Nat} (h : Literal text s) (hfuel : fuel ≠ 0)
    (hrest : Ends isWordChar rest) :
    value? fuel room (text ++ rest) = some (.scalar s, rest) := by
  obtain ⟨fuel, rfl⟩ := Nat.exists_eq_succ_of_ne_zero hfuel
  have hread := h.word.takeWord hrest
  have hscalar := h.scalar?
  obtain ⟨c, l, rfl, hc, -⟩ := h.word
  have hstart {mark : Char} (hno : ¬ (mark = '+' ∨ mark = '-' ∨ mark.isAlphanum = true))
      (l' : List Char) : c :: (l ++ rest) ≠ mark :: l' := by
    intro h
    obtain ⟨rfl, -⟩ := List.cons.inj h
    exact hno hc
  rw [List.cons_append] at hread ⊢
  rw [Toml.value?, hread]
  · simp [hscalar]
  · exact hstart (by decide)
  · exact hstart (by decide)
  · exact hstart (by decide)
  · exact hstart (by decide)

end FlagSelect.Toml.Grammar
