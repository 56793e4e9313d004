import FlagSelect.Proofs.Toml.Keys

/-!
# Reading documents of TOML

A document of the grammar is read as the statements on its lines, whatever blanks, comments and
empty lines there are around them. Main statement: `Lines.read?`.
-/

namespace FlagSelect.Toml.Grammar

variable {text rest after l : List Char} {s : Statement} {ss : List Statement} {p : Char → Bool}

/-! ## Ends of lines -/

/-- What may stand behind a line, and what comes after it. -/
inductive Ending : List Char → List Char → Prop
  | finish : Ending [] []
  | newline {e rest} : Newline e → Ending (e ++ rest) rest

theorem Ending.ends (h : Ending after rest) (hfeed : p '\n' = false) (hreturn : p '\r' = false) :
    Ends p after := by
  cases h with
  | finish => simp [Ends]
  | newline he =>
      cases he with
      | feed => exact ends_cons hfeed
      | returned => exact ends_cons hreturn

theorem Ending.read (h : Ending after rest) :
    (if after = [] then some [] else newline? after) = some rest := by
  cases h with
  | finish => rfl
  | newline he => cases he <;> rfl

/-- What follows a phrase: no word goes on, and nothing stands in the way of the end of the line. -/
theorem Trail.ends {trail : List Char} (h : Trail trail) (hafter : Ending after rest)
    (hspace : p ' ' = false) (htab : p '\t' = false) (hcomment : p '#' = false)
    (hfeed : p '\n' = false) (hreturn : p '\r' = false) : Ends p (trail ++ after) := by
  cases h with
  | blank hb => exact hb.ends hspace htab (hafter.ends hfeed hreturn)
  | comment hb _ =>
      rw [List.append_assoc]
      exact hb.ends hspace htab (ends_cons hcomment)

theorem skipComment_append (htext : ∀ c ∈ text, isTextChar c = true) (hafter : Ending after rest) :
    skipComment (text ++ after) = some after := by
  induction text with
  | nil =>
      cases hafter with
      | finish => rfl
      | newline he => cases he <;> rfl
  | cons c text ih =>
      obtain ⟨hc, htext⟩ := List.forall_mem_cons.mp htext
      have hend : ¬ (c = '\n' ∨ c = '\r') := by
        rintro (rfl | rfl) <;> cases hc
      rw [List.cons_append, skipComment, if_neg hend, if_pos hc, ih htext]

theorem Trail.lineEnd? {trail : List Char} (h : Trail trail) (hafter : Ending after rest) :
    lineEnd? (trail ++ after) = some rest := by
  cases h with
  | blank hb =>
      rw [Toml.lineEnd?, hb.skip (hafter.ends rfl rfl)]
      cases hafter with
      | finish => rfl
      | newline he => cases he <;> rfl
  | comment hb htext =>
      rw [Toml.lineEnd?, List.append_assoc, List.cons_append, hb.skip (ends_cons rfl)]
      simp [skipComment_append htext hafter]
      exact hafter.read

/-! ## Phrases -/

theorem Phrase.starts (h : Phrase text s) : ∃ c l, text = c :: l ∧ (Opens c ∨ c = '[') := by
  cases h with
  | header _ _ _ => exact ⟨'[', _, rfl, .inr rfl⟩
  | entry hkey _ _ _ =>
      obtain ⟨c, l, rfl, hc⟩ := hkey.starts
      exact ⟨c, _, rfl, .inl hc⟩

theorem Ends.ne_cons {c : Char} (h : Ends (· == c) text) : text ≠ c :: l := by
  rintro rfl
  exact absurd (h c rfl) (by simp)

theorem Phrase.statement? (h : Phrase text s) (hrest : Ends isWordChar rest) :
    statement? (text ++ rest) = some (s, rest) := by
  have hbracket {c : Char} (hc : Opens c) : (c == '[') = false := by
    simpa using hc.ne (by decide)
  cases h with
  | @header b b' key name hb hkey hb' =>
      have hskip : skipBlanks (b ++ (key ++ (b' ++ ']' :: rest))) = key ++ (b' ++ ']' :: rest) :=
        hb.skip (hkey.ends fun c hc => hc.not_blank)
      have hskip' : skipBlanks (b' ++ ']' :: rest) = ']' :: rest := hb'.skip (ends_cons rfl)
      have hread := hkey.key? hb' (c := ']') rfl rfl (by decide) rest
      rw [List.cons_append, List.append_assoc, List.append_assoc, List.append_assoc,
        List.singleton_append, Toml.statement?]
      · simp [hskip, hread, hskip']
      · exact fun l => (hb.ends rfl rfl (hkey.ends fun c hc => hbracket hc)).ne_cons
  | @entry b b' key name value s hkey hb hb' hvalue =>
      have hskip : skipBlanks (b ++ '=' :: (b' ++ (value ++ rest))) =
          '=' :: (b' ++ (value ++ rest)) :=
        hb.skip (ends_cons rfl)
      have hskip' : skipBlanks (b' ++ (value ++ rest)) = value ++ rest :=
        hb'.skip hvalue.word.not_blank
      have hread := hkey.key? hb (c := '=') rfl rfl (by decide) (b' ++ (value ++ rest))
      have hstart : ∀ l, key ++ (b ++ '=' :: (b' ++ (value ++ rest))) ≠ '[' :: l :=
        fun l => (hkey.ends fun c hc => hbracket hc).ne_cons
      rw [List.append_assoc, List.append_assoc, List.cons_append, List.append_assoc, Toml.statement?]
      · simp [hskip, hread, hskip', hvalue.value? _ hrest]
      · exact fun l => hstart ('[' :: l)
      · exact hstart

/-! ## Documents -/

theorem Phrase.not_idle (h : Phrase text s) :
    ∃ c l, text = c :: l ∧ isBlank c = false ∧ isIdleStart c = false ∧ c ≠ '\ufeff' := by
  obtain ⟨c, l, rfl, hc⟩ := h.starts
  have hne {d : Char} (hd : ¬ (Opens d ∨ d = '[')) : c ≠ d := by
    rintro rfl
    exact hd hc
  have hspace : c ≠ ' ' := hne (by decide)
  have htab : c ≠ '\t' := hne (by decide)
  have hcomment : c ≠ '#' := hne (by decide)
  have hfeed : c ≠ '\n' := hne (by decide)
  have hreturn : c ≠ '\r' := hne (by decide)
  exact ⟨c, l, rfl, by simp [isBlank, hspace, htab],
    by simp [isIdleStart, hcomment, hfeed, hreturn], hne (by decide)⟩

theorem statements?_idle {c : Char} {fuel : Nat} (hskip : skipBlanks text = c :: l)
    (hidle : isIdleStart c = true) (hend : lineEnd? (c :: l) = some rest) :
    statements? (fuel + 1) text = statements? fuel rest := by
  simp [Toml.statements?, hskip, hidle, hend]

/-- One line is read as its statement, if it has one, and reading goes on behind its end. -/
theorem Line.statements? {line : List Char} {fuel : Nat} (h : Line line ss)
    (hafter : Ending after rest) (hfuel : fuel ≠ 0) :
    statements? (fuel + 1) (line ++ after) = (statements? fuel rest).map (ss ++ ·) := by
  cases h with
  | idle htrail =>
      have hsame : (Toml.statements? fuel rest).map ([] ++ ·) = Toml.statements? fuel rest := by simp
      rw [hsame]
      cases htrail with
      | blank hb =>
          have hskip := hb.skip (hafter.ends rfl rfl)
          have hend := (Trail.blank blanks_nil).lineEnd? hafter
          cases hafter with
          | finish =>
              obtain ⟨fuel, rfl⟩ := Nat.exists_eq_succ_of_ne_zero hfuel
              rw [Toml.statements?, hskip]
              rfl
          | newline hnewline =>
              cases hnewline with
              | feed => exact statements?_idle hskip rfl hend
              | returned => exact statements?_idle hskip rfl hend
      | @comment b text hb htext =>
          have hskip : skipBlanks (b ++ '#' :: text ++ after) = '#' :: (text ++ after) := by
            rw [List.append_assoc]
            exact hb.skip (ends_cons rfl)
          exact statements?_idle hskip rfl ((Trail.comment blanks_nil htext).lineEnd? hafter)
  | @phrase b text trail s hb hphrase htrail =>
      have hread := hphrase.statement? (htrail.ends hafter rfl rfl rfl rfl rfl)
      have hend := htrail.lineEnd? hafter
      obtain ⟨c, l, rfl, hblank, hidle, -⟩ := hphrase.not_idle
      have hskip : skipBlanks (b ++ (c :: l ++ trail) ++ after) = c :: (l ++ (trail ++ after)) := by
        rw [List.append_assoc, List.append_assoc]
        exact hb.skip (ends_cons hblank)
      rw [List.cons_append] at hread
      rw [Toml.statements?, hskip]
      simp only [hidle, hread, hend, Bool.false_eq_true, if_false, Option.bind_eq_bind,
        Option.bind_some, List.singleton_append]
      cases Toml.statements? fuel rest <;> rfl

theorem Lines.statements? {fuel : Nat} (h : Lines text ss) (hfuel : text.length < fuel) :
    statements? fuel text = some ss := by
  obtain ⟨fuel, rfl⟩ := Nat.exists_eq_succ_of_ne_zero (Nat.ne_zero_of_lt hfuel)
  induction h generalizing fuel with
  | @last line ss hline =>
      have hread (fuel : Nat) (hne : fuel ≠ 0) : Toml.statements? (fuel + 1) line = some ss := by
        have hread := hline.statements? .finish hne
        obtain ⟨fuel, rfl⟩ := Nat.exists_eq_succ_of_ne_zero hne
        rw [List.append_nil] at hread
        rw [hread]
        simp [Toml.statements?, skipBlanks]
      cases line with
      | nil => exact hread 1 Nat.one_ne_zero
      | cons c l =>
          rw [List.length_cons] at hfuel
          exact hread fuel (by omega)
  | @more line newline rest ss ss' hline hnewline _ ih =>
      have hlength : rest.length < fuel := by
        have hpos : 0 < newline.length := by cases hnewline <;> decide
        rw [List.length_append, List.length_append] at hfuel
        omega
      obtain ⟨fuel, rfl⟩ := Nat.exists_eq_succ_of_ne_zero (Nat.ne_zero_of_lt hlength)
      rw [hline.statements? (.newline hnewline) (Nat.succ_ne_zero fuel), ih fuel hlength]
      rfl

/-- No line starts with the mark that some documents have in front of them. -/
theorem Line.unmarked {line : List Char} (h : Line line ss) (hafter : Ending after rest) :
    Ends (· == '\ufeff') (line ++ after) := by
  cases h with
  | idle htrail => exact htrail.ends hafter rfl rfl rfl rfl rfl
  | phrase hb hphrase _ =>
      obtain ⟨c, l, rfl, -, -, hc⟩ := hphrase.not_idle
      rw [List.append_assoc, List.append_assoc]
      exact hb.ends rfl rfl (ends_cons (by simpa using hc))

theorem Lines.unmarked (h : Lines text ss) : Ends (· == '\ufeff') text := by
  cases h with
  | last hline => exact List.append_nil text ▸ hline.unmarked .finish
  | more hline hnewline _ => exact hline.unmarked (.newline hnewline)

/-- A document is read as the statements on its lines. -/
theorem Lines.read? {text : String} (h : Lines text.toList ss) :
    Document.read? text = some ss := by
  unfold Document.read?
  split
  next l hl => exact absurd hl h.unmarked.ne_cons
  next => exact h.statements? (Nat.lt_succ_self _)

end FlagSelect.Toml.Grammar
