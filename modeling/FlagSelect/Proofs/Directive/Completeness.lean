import FlagSelect.Proofs.Directive.Extent

/-!
# What has a reading is read

The fuel that `Pass.compile` grants is enough for every reading there is. Main statement:
`Pass.compile_of_reads`.
-/

namespace FlagSelect

variable {σ : Type}

namespace Directive

variable {s : Source σ} {pass : Pass} {text l rest : List Char} {c : Char} {i : Slot}
  {name : String} {fuel : Nat} {place : Place} {context : Option Ty} {ty : Ty}

theorem isAsciiBlank_eq_false (hc : isNameChar c = true) : Text.isAsciiBlank c = false := by
  by_contra hblank
  simp only [Text.isAsciiBlank, Bool.not_eq_false, Bool.or_eq_true, beq_iff_eq] at hblank
  rcases hblank with (((rfl | rfl) | rfl) | rfl) | rfl <;> exact absurd hc (by decide)

theorem isNameChar_of_isDigit (hc : c.isDigit = true) : isNameChar c = true := by
  simp [isNameChar, Char.isAlphanum, hc]

theorem isNameChar_of_isNameStart (hc : isNameStart c = true) : isNameChar c = true := by
  simp only [isNameStart, Bool.or_eq_true] at hc
  rcases hc with hc | hc <;> simp [isNameChar, Char.isAlphanum, hc]

/-- An expression starts with a character that ends none and is not blank. -/
theorem Starts.head {scope : Scope σ} {part : Part σ} (h : Starts scope pass text part) :
    ∃ c l, text = c :: l ∧ c ≠ ',' ∧ c ≠ ')' ∧ Text.isAsciiBlank c = false := by
  have of_nameChar {c : Char} (hc : isNameChar c = true) :
      c ≠ ',' ∧ c ≠ ')' ∧ Text.isAsciiBlank c = false := by
    refine ⟨?_, ?_, isAsciiBlank_eq_false hc⟩ <;> rintro rfl <;> exact absurd hc (by decide)
  cases h with
  | load _ _ _ => exact ⟨_, _, rfl, by decide⟩
  | side _ => exact ⟨_, _, rfl, by decide⟩
  | group _ _ => exact ⟨_, _, rfl, by decide⟩
  | literal hdigit _ => exact ⟨_, _, rfl, of_nameChar (isNameChar_of_isDigit hdigit)⟩
  | member hname _ =>
      obtain ⟨c, l, rfl, hc⟩ := name?_cons hname
      exact ⟨c, l, rfl, of_nameChar (isNameChar_of_isNameStart hc)⟩

theorem operand_reused (h : Numeral l i ('?' :: rest))
    (hty : pass.locals.get? i = some ty) :
    operand s (fuel + 1) pass ('<' :: l) = .ok (.reused i ty rest) := by
  rw [operand, if_pos rfl, slot_eq_ok.mpr h]
  simp only [faultIn_ok, bind, Except.bind, hty]
  rfl

theorem operand_pending (h : Numeral l i ('?' :: rest)) (hnone : pass.locals.get? i = none) :
    operand s (fuel + 1) pass ('<' :: l) = .ok (.pending rest) := by
  rw [operand, if_pos rfl, slot_eq_ok.mpr h]
  simp only [faultIn_ok, bind, Except.bind, hnone]
  rfl

theorem operand_load (h : Numeral l i rest) (hmark : ∀ l, rest ≠ '?' :: l)
    (hty : pass.locals.get? i = some ty) :
    operand s (fuel + 1) pass ('<' :: l) = .ok (.value ⟨ty, [.loadLocal i], rest, pass⟩) := by
  rw [operand, if_pos rfl, slot_eq_ok.mpr h]
  simp only [faultIn_ok, bind, Except.bind, hty]
  rfl

theorem operand_of_digit {v : Value} (hdigit : c.isDigit = true)
    (hliteral : literal? ((c :: l).takeWhile Char.isDigit) = some (v, ty)) :
    operand s (fuel + 1) pass (c :: l) =
      .ok (.value ⟨ty, [.push v], (c :: l).dropWhile Char.isDigit, pass⟩) := by
  have hne (d : Char) (hd : d.isDigit = false) : c ≠ d := by
    rintro rfl
    rw [hdigit] at hd
    cases hd
  rw [operand, if_neg (hne _ rfl), if_neg (hne _ rfl), if_neg (hne _ rfl), if_neg (hne _ rfl),
    if_pos hdigit]
  dsimp only
  rw [hliteral]

theorem operand_of_name? (hname : name? text = some (name, rest)) :
    operand s (fuel + 1) pass text = member s fuel s.scope.record name pass rest >>= fun part =>
      .ok (.value { part with code := .loadRecord :: part.code }) := by
  obtain ⟨c, l, rfl, hc⟩ := name?_cons hname
  have hne (d : Char) (hd : isNameStart d = false) : c ≠ d := by
    rintro rfl
    rw [hc] at hd
    cases hd
  have hdigit : ¬ c.isDigit = true := by simp [not_isDigit_of_isNameStart hc]
  rw [operand, if_neg (hne _ rfl), if_neg (hne _ rfl), if_neg (hne _ rfl), if_neg (hne _ rfl),
    if_neg hdigit, hname]
  rfl

/-- A reader goes on to an expression that starts here. -/
theorem chain_of_operand {op : Operand σ} (htext : skipBlanks text = c :: l)
    (hcomma : c ≠ ',') (hclose : c ≠ ')') (hop : operand s fuel pass (c :: l) = .ok op) :
    chain s (fuel + 1) place none pass text =
      match op with
      | .value part => do
        let tail ← chain s fuel place (some part.ty) part.pass part.rest
        return { tail with code := part.code ++ tail.code }
      | .reused i ty rest => return ⟨ty, [.loadLocal i], skipRest place rest, pass⟩
      | .pending rest => chain s fuel place none pass rest := by
  have htext : text.dropWhile Text.isAsciiBlank = c :: l := htext
  rw [chain]
  simp only [htext, hcomma, hclose, or_self, if_false, hop]
  cases op <;> rfl

theorem chain_finish (hskip : skipBlanks text = rest) (hends : Ends place rest) :
    chain s (fuel + 1) place context pass text = finish s context pass rest := by
  have htext : text.dropWhile Text.isAsciiBlank = rest := hskip
  rw [chain]
  cases place with
  | top =>
      obtain rfl : rest = [] := hends
      simp only [htext, if_true]
  | argument =>
      obtain ⟨c, l, rfl, hc⟩ := hends
      simp only [htext, hc, if_true, reduceCtorEq, and_false, if_false]
  | group =>
      obtain ⟨l, rfl⟩ := hends
      simp only [htext, or_true, if_true, reduceCtorEq, Char.reduceEq, false_and, if_false]

theorem chain_select (hskip : skipBlanks text = '.' :: l)
    (hname : name? (skipBlanks l) = some (name, rest)) :
    chain s (fuel + 1) place (some ty) pass text = member s fuel ty name pass rest >>= fun part =>
      chain s fuel place (some part.ty) part.pass part.rest >>= fun tail =>
        .ok { tail with code := part.code ++ tail.code } := by
  have htext : text.dropWhile Text.isAsciiBlank = '.' :: l := hskip
  have hname : name? (l.dropWhile Text.isAsciiBlank) = some (name, rest) := hname
  rw [chain]
  simp only [htext, Char.reduceEq, or_self, if_false, if_true, hname]
  rfl

theorem chain_store (hskip : skipBlanks text = '>' :: l) :
    chain s (fuel + 1) place (some ty) pass text =
      faultIn pass (slot (s.position l) l) >>= fun r =>
        chain s fuel place (some ty) { pass with locals := pass.locals.set r.1 ty } r.2 >>=
          fun tail => .ok { tail with code := .storeLocal r.1 :: tail.code } := by
  have htext : text.dropWhile Text.isAsciiBlank = '>' :: l := hskip
  rw [chain]
  simp only [htext, Char.reduceEq, or_self, if_false, if_true]
  rfl

-- Four units of fuel for each character and two more are enough for an expression: each call gives
-- up one, and at least one character is read from one expression to the next inside it.
mutual

theorem Reads.chain_eq {place ctx pass text} {part : Part σ}
    (h : Reads s.scope place ctx pass text part) {n : Nat} (hfuel : 4 * text.length + 2 ≤ n) :
    chain s n place ctx pass text = .ok part := by
  obtain ⟨fuel, rfl⟩ : ∃ fuel, n = fuel + 1 := ⟨n - 1, by omega⟩
  match h with
  | .finish hends => exact chain_finish rfl hends
  | .value hstart htail =>
      obtain ⟨c, l, hcons, hcomma, hclose, -⟩ := hstart.head
      have hlen : (skipBlanks text).length ≤ text.length := List.length_dropWhile_le _ text
      have hrest := hstart.length_lt
      have hop : operand s fuel pass (skipBlanks text) = .ok (.value _) :=
        hstart.operand_eq (by omega)
      rw [hcons] at hop
      rw [chain_of_operand hcons hcomma hclose hop]
      dsimp only
      rw [htail.chain_eq (by omega)]
      rfl
  | .reused hl hi hty =>
      obtain ⟨fuel, rfl⟩ : ∃ n, fuel = n + 1 :=
        ⟨fuel - 1, by have := length_lt_of_skipBlanks hl; omega⟩
      exact chain_of_operand hl (by decide) (by decide) (operand_reused hi hty)
  | .pending hl hi hty hpart =>
      have hlen := length_lt_of_skipBlanks hl
      have hrest := hi.length_le
      rw [List.length_cons] at hrest
      obtain ⟨fuel, rfl⟩ : ∃ n, fuel = n + 1 := ⟨fuel - 1, by omega⟩
      rw [chain_of_operand hl (by decide) (by decide) (operand_pending hi hty)]
      exact hpart.chain_eq (by omega)
  | .select (l := l) hl hname hhead htail =>
      have hlen := length_lt_of_skipBlanks hl
      have hafter : (skipBlanks l).length ≤ l.length := List.length_dropWhile_le _ l
      have hrest := name?_length_lt hname
      have hpart := hhead.length_le
      refine (chain_select hl hname).trans (bind_eq_ok.mpr ⟨_, hhead.member_eq (by omega), ?_⟩)
      exact bind_eq_ok.mpr ⟨_, htail.chain_eq (by omega), rfl⟩
  | .store (l := l) hl hi htail =>
      have hlen := length_lt_of_skipBlanks hl
      have hrest := hi.length_le
      refine (chain_store hl).trans ?_
      refine bind_eq_ok.mpr ⟨_, faultIn_eq_ok.mpr (slot_eq_ok.mpr hi), ?_⟩
      exact bind_eq_ok.mpr ⟨_, htail.chain_eq (by omega), rfl⟩

theorem Starts.operand_eq {pass text} {part : Part σ} (h : Starts s.scope pass text part)
    {n : Nat} (hfuel : 4 * text.length + 1 ≤ n) :
    operand s n pass text = .ok (.value part) := by
  obtain ⟨fuel, rfl⟩ : ∃ fuel, n = fuel + 1 := ⟨n - 1, by omega⟩
  match h with
  | .load hi hmark hty => exact operand_load hi hmark hty
  | .side hside => rw [operand, if_neg (by decide), if_pos rfl, hside]
  | .group (l := l) hpart hrest =>
      rw [List.length_cons] at hfuel
      have hchain := hpart.chain_eq (n := fuel) (by omega)
      rw [operand, if_neg (by decide), if_neg (by decide), if_pos rfl, hchain]
      simp only [bind, Except.bind, hrest]
      rfl
  | .literal hdigit hliteral => exact operand_of_digit hdigit hliteral
  | .member hname hpart =>
      have hrest := name?_length_lt hname
      refine (operand_of_name? hname).trans ?_
      exact bind_eq_ok.mpr ⟨_, hpart.member_eq (by omega), rfl⟩

theorem Selects.member_eq {receiver name pass text} {part : Part σ}
    (h : Selects s.scope receiver name pass text part) {n : Nat}
    (hfuel : 4 * text.length + 2 ≤ n) :
    member s n receiver name pass text = .ok part := by
  obtain ⟨fuel, rfl⟩ : ∃ fuel, n = fuel + 1 := ⟨n - 1, by omega⟩
  match h with
  | .call (l := l) hargs hm =>
      have hlen : (skipBlanks l).length ≤ l.length := List.length_dropWhile_le _ l
      rw [List.length_cons] at hfuel
      have hargs := hargs.arguments_eq (n := fuel) (by omega)
      rw [skipBlanks] at hargs
      rw [member, hargs]
      simp only [bind, Except.bind, hm]
      rfl
  | .field hcall hmark hf =>
      rw [member]
      · rw [hf]
        rfl
      · exact hcall
      · exact hmark

theorem Takes.arguments_eq {pass text} {args : Arguments σ} (h : Takes s.scope pass text args)
    {n : Nat} (hfuel : 4 * text.length + 4 ≤ n) : arguments s n pass text = .ok args := by
  obtain ⟨fuel, rfl⟩ : ∃ fuel, n = fuel + 1 := ⟨n - 1, by omega⟩
  match h with
  | .nothing => rfl
  | .several hclose hargs =>
      rw [arguments]
      · exact hargs.furtherArguments_eq (by omega)
      · exact hclose

theorem TakesMore.furtherArguments_eq {pass text} {args : Arguments σ}
    (h : TakesMore s.scope pass text args) {n : Nat} (hfuel : 4 * text.length + 3 ≤ n) :
    furtherArguments s n pass text = .ok args := by
  obtain ⟨fuel, rfl⟩ : ∃ fuel, n = fuel + 1 := ⟨n - 1, by omega⟩
  match h with
  | .more hpart hrest hargs =>
      have hlen := hpart.length_le
      rw [hrest, List.length_cons] at hlen
      rw [furtherArguments, hpart.chain_eq (by omega)]
      simp only [bind, Except.bind, hrest, hargs.furtherArguments_eq (n := fuel) (by omega)]
      rfl
  | .last hpart hrest =>
      rw [furtherArguments, hpart.chain_eq (by omega)]
      simp only [bind, Except.bind, hrest]
      rfl

end

end Directive

/-- A directive that has a reading compiles to what the reading gives. -/
theorem Pass.compile_of_reads {scope : Scope σ} {pass : Pass} {directive : String}
    {part : Directive.Part σ} (hblank : Text.allBlank directive = false)
    (h : Directive.Reads scope .top none pass directive.toList part) :
    pass.compile scope directive = .ok (⟨directive, part.code, part.ty⟩, part.pass) := by
  have hchain := h.chain_eq (s := ⟨scope, Directive.byteLength directive.toList⟩)
    (n := 4 * directive.toList.length + 4) (by omega)
  rw [compile, if_neg (by simp [hblank])]
  dsimp only
  rw [hchain]
  rfl

end FlagSelect
