import FlagSelect.Descriptor.Fragment

/-!
# Literals in fragments

A literal starts with a quote and ends with the next quote that is not written twice, or with the
text. Counting by sides of the quotes, as fragments do it, leaves out what stands in literals and
nothing else. Main statement: `marks_iff`.
-/

namespace FlagSelect

/-- What may stand in a literal: a quote is written twice. -/
inductive Literal : List Char → Prop
  | nil : Literal []
  | other {c l} : c ≠ '\'' → Literal l → Literal (c :: l)
  | quote {l} : Literal l → Literal ('\'' :: '\'' :: l)

/-- A text with so many question marks outside of literals. -/
inductive Marks : List Char → Nat → Prop
  | nil : Marks [] 0
  | mark {l n} : Marks l n → Marks ('?' :: l) (n + 1)
  | other {c l n} : c ≠ '\'' → c ≠ '?' → Marks l n → Marks (c :: l) n
  | literal {body l n} : Literal body → l.head? ≠ some '\'' → Marks l n →
      Marks ('\'' :: (body ++ '\'' :: l)) n
  | unterminated {body} : Literal body → Marks ('\'' :: body) 0

variable {body l : List Char} {n : Nat} {quoted : Bool}

theorem countPlaceholders_quote :
    countPlaceholders quoted ('\'' :: l) = countPlaceholders (!quoted) l := by
  simp [countPlaceholders]

/-- Nothing in a literal counts, and two quotes lead back into it. -/
theorem Literal.count (h : Literal body) :
    countPlaceholders true (body ++ l) = countPlaceholders true l := by
  induction h with
  | nil => rfl
  | other hc _ ih => simp [countPlaceholders, hc, ih]
  | quote _ ih => simp [countPlaceholders, ih]

theorem Marks.count (h : Marks l n) : countPlaceholders false l = n := by
  induction h with
  | nil => rfl
  | mark _ ih => simp [countPlaceholders, ih]
  | other hquote hmark _ ih => simp [countPlaceholders, hquote, hmark, ih]
  | literal hbody _ _ ih =>
      rw [countPlaceholders_quote, Bool.not_false, hbody.count, countPlaceholders_quote]
      exact ih
  | unterminated hbody =>
      have hcount := hbody.count (l := [])
      rw [List.append_nil] at hcount
      rw [countPlaceholders_quote, Bool.not_false, hcount]
      rfl

/-- Behind an opening quote a literal either ends somewhere or goes on to the end. -/
theorem literal_or_closed (l : List Char) : Literal l ∨
    ∃ body rest, l = body ++ '\'' :: rest ∧ Literal body ∧ rest.head? ≠ some '\'' := by
  match l with
  | [] => exact .inl .nil
  | [c] =>
      by_cases hc : c = '\''
      · exact .inr ⟨[], [], by simp [hc], .nil, by simp⟩
      · exact .inl (.other hc .nil)
  | c :: d :: rest =>
      by_cases hc : c = '\''
      · subst hc
        by_cases hd : d = '\''
        · subst hd
          rcases literal_or_closed rest with h | ⟨body, rest, rfl, hbody, hrest⟩
          · exact .inl (.quote h)
          · exact .inr ⟨'\'' :: '\'' :: body, rest, rfl, .quote hbody, hrest⟩
        · exact .inr ⟨[], d :: rest, rfl, .nil, by simpa using hd⟩
      · rcases literal_or_closed (d :: rest) with h | ⟨body, rest, hrest, hbody, hhead⟩
        · exact .inl (.other hc h)
        · exact .inr ⟨c :: body, rest, by rw [hrest]; rfl, .other hc hbody, hhead⟩

-- By recursion on the length: what follows a literal is shorter, but no tail that is in sight.
theorem exists_marks (l : List Char) : ∃ n, Marks l n := by
  match l with
  | [] => exact ⟨0, .nil⟩
  | c :: l =>
      by_cases hquote : c = '\''
      · subst hquote
        rcases literal_or_closed l with h | ⟨body, rest, hl, hbody, hrest⟩
        · exact ⟨0, .unterminated h⟩
        · have hlength : rest.length < l.length := by
            rw [hl, List.length_append, List.length_cons]
            omega
          obtain ⟨n, hn⟩ := exists_marks rest
          exact ⟨n, hl ▸ .literal hbody hrest hn⟩
      · obtain ⟨n, hn⟩ := exists_marks l
        by_cases hmark : c = '?'
        · subst hmark
          exact ⟨n + 1, .mark hn⟩
        · exact ⟨n, .other hquote hmark hn⟩
termination_by l.length

/-- A text has exactly the number of question marks outside of literals that is counted. -/
theorem marks_iff : Marks l n ↔ countPlaceholders false l = n := by
  refine ⟨Marks.count, fun h => ?_⟩
  obtain ⟨m, hm⟩ := exists_marks l
  have hcount := hm.count
  rw [h] at hcount
  exact hcount ▸ hm

end FlagSelect
