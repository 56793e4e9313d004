import FlagSelect.Proofs.Toml.Literals

/-!
# Reading the keys of TOML

A key of one part is read as the name that it stands for, however it is written: `Key.key?`.
-/

namespace FlagSelect.Toml.Grammar

open StringStyle (State)

variable {base n : Nat} {c d : Char} {text rest l : List Char}

/-! ## Strings -/

/-- Whether a piece of a string gives one character to its content. -/
def Emits (style : StringStyle) (piece : List Char) (c : Char) : Prop :=
  ∀ l, style.body .plain (piece ++ l) =
    (style.body .plain l).map fun (content, rest) => (c :: content, rest)

theorem body_pieces {style : StringStyle} (hstyle : style.multiline = false)
    {pieces : List (List Char × Char)} (h : ∀ p ∈ pieces, Emits style p.1 p.2)
    (rest : List Char) :
    style.body .plain (pieces.flatMap Prod.fst ++ style.mark :: rest) =
      some (pieces.map Prod.snd, rest) := by
  induction pieces with
  | nil => simp [StringStyle.body, StringStyle.next, StringStyle.plainNext, hstyle]
  | cons p pieces ih =>
      obtain ⟨hp, hpieces⟩ := List.forall_mem_cons.mp h
      rw [List.flatMap_cons, List.append_assoc, hp, ih hpieces]
      rfl

theorem emits_literal (htext : isTextChar c = true) (hmark : c ≠ '\'') :
    Emits ⟨'\'', false, false⟩ [c] c := by
  intro l
  simp [StringStyle.body, StringStyle.next, StringStyle.plainNext, htext, hmark]

/-- The last digit of a code point gives its character. -/
theorem codePointNext_last {digit : Char} {code d : Nat} (hd : Text.Hex.digit? digit = some d)
    (hvalue : 16 * code + d = c.toNat) :
    StringStyle.codePointNext 1 code digit = some (.emit c) := by
  rw [StringStyle.codePointNext, hd]
  change (if h : (16 * code + d).isValidChar then some (StringStyle.Next.emit (Char.ofNatAux _ h))
    else none) = _
  -- the character depends on a proof about its code, so the code is generalised first
  generalize 16 * code + d = n at hvalue ⊢
  subst hvalue
  exact dif_pos c.valid

theorem codePointNext_more {digit : Char} {left code d : Nat}
    (hd : Text.Hex.digit? digit = some d) :
    StringStyle.codePointNext (left + 2) code digit =
      some (.go (.codePoint (left + 1) (16 * code + d))) := by
  have hleft : left + 2 ≠ 1 := by omega
  rw [StringStyle.codePointNext, hd]
  dsimp only [Option.bind_eq_bind, Option.bind_some]
  rw [if_neg hleft]
  rfl

/-- The digits of a code point are read one by one. -/
theorem body_codePoint (style : StringStyle) {code : Nat} (hne : text ≠ [])
    (hdigits : ∀ c ∈ text, ∃ d, Text.Hex.digit? c = some d)
    (hvalue : text.foldl (fun n c => match Text.Hex.digit? c with
      | some d => 16 * n + d
      | none => n) code = c.toNat) :
    style.body (.codePoint text.length code) (text ++ l) =
      (style.body .plain l).map fun (content, rest) => (c :: content, rest) := by
  induction text generalizing code with
  | nil => exact absurd rfl hne
  | cons digit text ih =>
      obtain ⟨⟨d, hd⟩, htext⟩ := List.forall_mem_cons.mp hdigits
      rw [List.foldl_cons, hd] at hvalue
      cases text with
      | nil =>
          have hlast := codePointNext_last hd hvalue
          simp [StringStyle.body, StringStyle.next, hlast]
      | cons digit' text =>
          rw [← ih (List.cons_ne_nil digit' text) htext hvalue]
          simp [StringStyle.body, StringStyle.next, codePointNext_more hd]

theorem Quoted.emits (h : Quoted text c) : Emits ⟨'"', true, false⟩ text c := by
  intro l
  cases h with
  | plain htext hquote hslash =>
      simp [StringStyle.body, StringStyle.next, StringStyle.plainNext, htext, hquote, hslash]
  | named hletter =>
      simp only [List.mem_cons, List.not_mem_nil, or_false, Prod.mk.injEq] at hletter
      rcases hletter with ⟨rfl, rfl⟩ | ⟨rfl, rfl⟩ | ⟨rfl, rfl⟩ | ⟨rfl, rfl⟩ | ⟨rfl, rfl⟩ |
        ⟨rfl, rfl⟩ | ⟨rfl, rfl⟩
      all_goals rfl
  | coded hmark hwidth hgap hnum =>
      rename_i digits
      have hdigits : ∀ c ∈ digits, ∃ d, Text.Hex.digit? c = some d := by
        intro c hc
        rcases hnum.digits c hc with rfl | ⟨d, hd⟩
        · exact absurd hc hgap
        · exact ⟨d, hd.value (by decide)⟩
      have hne : digits ≠ [] := by
        obtain ⟨c, d, l, rfl, -⟩ := hnum.starts
        exact List.cons_ne_nil c l
      have hread := body_codePoint ⟨'"', true, false⟩ (l := l) hne hdigits
        (hnum.digitsValue (by decide))
      simp only [List.mem_cons, List.not_mem_nil, or_false, Prod.mk.injEq] at hmark
      rcases hmark with ⟨rfl, rfl⟩ | ⟨rfl, rfl⟩
      · rw [hwidth] at hread
        exact hread
      · rw [hwidth] at hread
        exact hread

/-! ## Keys -/

/-- A key is read up to what is in no word. -/
theorem Key.simpleKey? {key : List Char} {name : String} (h : Key key name)
    (hrest : Ends isBareKeyChar rest) : simpleKey? (key ++ rest) = some (name, rest) := by
  cases h with
  | bare hne hword =>
      obtain ⟨c, l, rfl⟩ := List.exists_cons_of_ne_nil hne
      obtain ⟨hc, hl⟩ := List.forall_mem_cons.mp hword
      have hstyle : lineStyle? c = none := by
        have hdouble : c ≠ '"' := by rintro rfl; cases hc
        have hsingle : c ≠ '\'' := by rintro rfl; cases hc
        rw [lineStyle?, if_neg hdouble, if_neg hsingle]
      rw [List.cons_append, Toml.simpleKey?, hstyle]
      simp [hc, takeWhile_append hl hrest, dropWhile_append hl hrest]
  | literal htext =>
      rename_i text
      have hpieces : ∀ p ∈ text.map fun c => ([c], c), Emits ⟨'\'', false, false⟩ p.1 p.2 := by
        simpa using fun c hc => emits_literal (htext c hc).1 (htext c hc).2
      have hbody := body_pieces rfl hpieces rest
      have hflat : (text.map fun c => ([c], c)).flatMap Prod.fst = text := by
        simp [List.flatMap_map]
      rw [hflat] at hbody
      simp [Toml.simpleKey?, lineStyle?, hbody, Function.comp_def]
  | basic hpieces =>
      have hbody := body_pieces rfl (fun p hp => (hpieces p hp).emits) rest
      simp [Toml.simpleKey?, lineStyle?, hbody]

theorem Blanks.ends {p : Char → Bool} {b : List Char} (hb : Blanks b) (hspace : p ' ' = false)
    (htab : p '\t' = false) (hrest : Ends p rest) : Ends p (b ++ rest) := by
  cases b with
  | nil => exact hrest
  | cons c b =>
      intro d hd
      cases hd
      rcases hb c List.mem_cons_self with rfl | rfl
      · exact hspace
      · exact htab

theorem Blanks.skip {b : List Char} (hb : Blanks b) (hrest : Ends isBlank rest) :
    skipBlanks (b ++ rest) = rest := by
  refine dropWhile_append (fun c hc => ?_) hrest
  rcases hb c hc with rfl | rfl <;> rfl

/-- A key of one part, with blanks and a mark behind it that is no point. -/
theorem Key.key? {key b : List Char} {name : String} (h : Key key name) (hb : Blanks b)
    (hblank : isBlank c = false) (hbare : isBareKeyChar c = false) (hpoint : c ≠ '.')
    (rest : List Char) : key? (key ++ (b ++ c :: rest)) = some ([name], b ++ c :: rest) := by
  have hread : Toml.simpleKey? (key ++ (b ++ c :: rest)) = some (name, b ++ c :: rest) :=
    h.simpleKey? (hb.ends rfl rfl (ends_cons hbare))
  have hskip : skipBlanks (b ++ c :: rest) = c :: rest := hb.skip (ends_cons hblank)
  rw [Toml.key?, maxNesting, keyParts?, hread]
  simp [hskip, hpoint]

/-- The characters that a key can start with. -/
def Opens (c : Char) : Prop := isBareKeyChar c = true ∨ c = '\'' ∨ c = '"'

instance : DecidablePred Opens :=
  fun c => inferInstanceAs (Decidable (isBareKeyChar c = true ∨ c = '\'' ∨ c = '"'))

theorem Opens.ne (hc : Opens c) (hd : ¬ Opens d) : c ≠ d := by
  rintro rfl
  exact hd hc

theorem Opens.not_blank (hc : Opens c) : isBlank c = false := by
  have hspace : c ≠ ' ' := hc.ne (by decide)
  have htab : c ≠ '\t' := hc.ne (by decide)
  simp [isBlank, hspace, htab]

theorem Key.starts {key : List Char} {name : String} (h : Key key name) :
    ∃ c l, key = c :: l ∧ Opens c := by
  cases h with
  | bare hne hword =>
      obtain ⟨c, l, rfl⟩ := List.exists_cons_of_ne_nil hne
      exact ⟨c, l, rfl, .inl (hword c List.mem_cons_self)⟩
  | literal _ => exact ⟨'\'', _, rfl, .inr (.inl rfl)⟩
  | basic _ => exact ⟨'"', _, rfl, .inr (.inr rfl)⟩

theorem Key.ends {p : Char → Bool} {key : List Char} {name : String} (h : Key key name)
    (hp : ∀ c, Opens c → p c = false) : Ends p (key ++ rest) := by
  obtain ⟨c, l, rfl, hc⟩ := h.starts
  exact ends_cons (hp c hc)

end FlagSelect.Toml.Grammar
