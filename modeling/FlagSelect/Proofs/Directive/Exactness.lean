import FlagSelect.Proofs.Directive.Halting

/-!
# What halts fails

Along each way of giving up the readers do fail, with the fault that it ends in, and so these ways are
all that there is to a failure. Main statement: `Pass.compile_error_iff`.
-/

namespace FlagSelect

variable {σ : Type}

namespace Directive

variable {s : Source σ} {place : Place} {context : Option Ty} {ty : Ty} {pass : Pass}
  {text l rest : List Char} {c : Char} {n : Nat} {call call' : Call} {halt : Halt}
  {stopped : Fault × Pass} {name : String}

/-- Fuel that is enough for a reader. -/
def Call.need (call : Call) : Nat :=
  4 * call.text.length +
    match call.stage with
    | .expression _ _ => 2
    | .operand => 1
    | .member _ _ => 2
    | .arguments => 4
    | .furtherArguments => 3

theorem Call.exists_fuel (h : call.need ≤ n) : ∃ fuel, n = fuel + 1 := by
  have hpos : 0 < call.need := by
    unfold need
    split <;> omega
  exact ⟨n - 1, by omega⟩

def Call.Fails (s : Source σ) (n : Nat) (stopped : Fault × Pass) (call : Call) : Prop :=
  match call.stage with
  | .expression place context => chain s n place context call.pass call.text = .error stopped
  | .operand => operand s n call.pass call.text = .error stopped
  | .member receiver name => member s n receiver name call.pass call.text = .error stopped
  | .arguments => arguments s n call.pass call.text = .error stopped
  | .furtherArguments => furtherArguments s n call.pass call.text = .error stopped

theorem chain_start (hskip : skipBlanks text = c :: l) (hcomma : c ≠ ',') (hclose : c ≠ ')')
    (h : operand s n pass (c :: l) = .error stopped) :
    chain s (n + 1) place none pass text = .error stopped := by
  have htext : text.dropWhile Text.isAsciiBlank = c :: l := hskip
  rw [chain]
  simp only [htext, hcomma, hclose, or_self, if_false, h]
  rfl

theorem Next.fails (h : Next s.scope call call')
    (hfails : ∀ n, call'.need ≤ n → call'.Fails s n stopped) (hneed : call.need ≤ n) :
    call.Fails s n stopped := by
  obtain ⟨fuel, rfl⟩ := Call.exists_fuel hneed
  have hinner (h : call'.need ≤ fuel) := hfails fuel h
  clear hfails
  cases h with
  | start hskip hcomma hclose =>
      have hlength := length_lt_of_skipBlanks hskip
      refine chain_start hskip hcomma hclose (hinner ?_)
      simp only [Call.need, List.length_cons] at hneed ⊢
      omega
  | @started place pass text head hstarts =>
      obtain ⟨c, l, hcons, hcomma, hclose, -⟩ := hstarts.head
      have hblanks : (skipBlanks text).length ≤ text.length := List.length_dropWhile_le _ text
      have hlength := hstarts.length_lt
      simp only [Call.need] at hneed hinner
      have hop : operand s fuel pass (skipBlanks text) = .ok (.value head) :=
        hstarts.operand_eq (by omega)
      rw [hcons] at hop
      refine (chain_of_operand hcons hcomma hclose hop).trans ?_
      exact bind_eq_error.mpr (.inl (hinner (by omega)))
  | pending hskip hi hnone =>
      have hlength := length_lt_of_skipBlanks hskip
      have hrest := hi.length_le
      rw [List.length_cons] at hrest
      simp only [Call.need] at hneed hinner
      obtain ⟨fuel, rfl⟩ : ∃ n, fuel = n + 1 := ⟨fuel - 1, by omega⟩
      refine (chain_of_operand hskip (by decide) (by decide) (operand_pending hi hnone)).trans ?_
      exact hinner (by omega)
  | @select place ty pass text l name rest hskip hname =>
      have hlength := length_lt_of_skipBlanks hskip
      have hblanks : (skipBlanks l).length ≤ l.length := List.length_dropWhile_le _ l
      have hrest := name?_length_lt hname
      simp only [Call.need] at hneed hinner
      refine (chain_select hskip hname).trans ?_
      exact bind_eq_error.mpr (.inl (hinner (by omega)))
  | @selected place ty pass text l name rest head hskip hname hselects =>
      have hlength := length_lt_of_skipBlanks hskip
      have hblanks : (skipBlanks l).length ≤ l.length := List.length_dropWhile_le _ l
      have hrest := name?_length_lt hname
      have hpart := hselects.length_le
      simp only [Call.need] at hneed hinner
      refine (chain_select hskip hname).trans ?_
      refine bind_eq_error.mpr (.inr ⟨head, hselects.member_eq (by omega), ?_⟩)
      exact bind_eq_error.mpr (.inl (hinner (by omega)))
  | @stored place ty pass text l i rest hskip hi =>
      have hlength := length_lt_of_skipBlanks hskip
      have hrest := hi.length_le
      simp only [Call.need] at hneed hinner
      refine (chain_store hskip).trans ?_
      refine bind_eq_error.mpr (.inr ⟨(i, rest), faultIn_eq_ok.mpr (slot_eq_ok.mpr hi), ?_⟩)
      exact bind_eq_error.mpr (.inl (hinner (by omega)))
  | @group pass l =>
      simp only [Call.need, List.length_cons] at hneed hinner
      have hpart : chain s fuel .group none pass l = .error stopped := hinner (by omega)
      simp only [Call.Fails]
      rw [operand, if_neg (by decide), if_neg (by decide), if_pos rfl, hpart]
      rfl
  | record hname =>
      have hrest := name?_length_lt hname
      simp only [Call.need] at hneed hinner
      refine (operand_of_name? hname).trans ?_
      exact bind_eq_error.mpr (.inl (hinner (by omega)))
  | @call receiver name pass l =>
      have hblanks : (skipBlanks l).length ≤ l.length := List.length_dropWhile_le _ l
      simp only [Call.need, List.length_cons] at hneed hinner
      simp only [Call.Fails]
      rw [member]
      exact bind_eq_error.mpr (.inl (hinner (by omega)))
  | several hclose =>
      simp only [Call.need] at hneed hinner
      simp only [Call.Fails]
      rw [arguments]
      · exact hinner (by omega)
      · exact hclose
  | argument =>
      simp only [Call.need] at hneed hinner
      simp only [Call.Fails]
      rw [furtherArguments]
      exact bind_eq_error.mpr (.inl (hinner (by omega)))
  | @more pass text part rest hreads hrest =>
      have hlength := hreads.length_le
      rw [hrest, List.length_cons] at hlength
      simp only [Call.need] at hneed hinner
      have hmore : furtherArguments s fuel part.pass rest = .error stopped := hinner (by omega)
      simp only [Call.Fails]
      rw [furtherArguments, hreads.chain_eq (by omega)]
      simp only [bind, Except.bind, hrest, hmore]

theorem Raises.fails (h : Raises s call halt) (hneed : call.need ≤ n) :
    call.Fails s n (halt.fault, halt.pass) := by
  obtain ⟨fuel, rfl⟩ := Call.exists_fuel hneed
  cases h with
  | @unclosed place context pass text hplace hskip =>
      have htext : text.dropWhile Text.isAsciiBlank = [] := hskip
      simp only [Call.Fails]
      rw [chain]
      simp only [htext, hplace, if_false]
  | @terminator context pass text c l hskip hc =>
      have htext : text.dropWhile Text.isAsciiBlank = c :: l := hskip
      simp only [Call.Fails]
      rw [chain]
      simp only [htext, hc, if_true]
  | @comma context pass text l hskip =>
      have htext : text.dropWhile Text.isAsciiBlank = ',' :: l := hskip
      simp only [Call.Fails]
      rw [chain]
      simp only [htext, true_or, if_true, reduceCtorEq, if_false, and_self]
  | empty hskip hends => exact chain_finish hskip hends
  | @nameless place ty pass text l hskip hname =>
      have htext : text.dropWhile Text.isAsciiBlank = '.' :: l := hskip
      have hname : name? (l.dropWhile Text.isAsciiBlank) = none := hname
      simp only [Call.Fails]
      rw [chain]
      simp only [htext, Char.reduceEq, or_self, if_false, if_true, hname]
      rfl
  | store hskip hslot =>
      refine (chain_store hskip).trans (bind_eq_error.mpr (.inl ?_))
      exact faultIn_eq_error.mpr ⟨hslot, rfl⟩
  | @question place ty pass text l hskip =>
      have htext : text.dropWhile Text.isAsciiBlank = '?' :: l := hskip
      simp only [Call.Fails]
      rw [chain]
      simp only [htext, Char.reduceEq, or_self, if_false, if_true]
  | @other place ty pass text c l hskip hcomma hclose hdot hstore hmark =>
      have htext : text.dropWhile Text.isAsciiBlank = c :: l := hskip
      simp only [Call.Fails]
      rw [chain]
      simp only [htext, hcomma, hclose, hdot, hstore, hmark, or_self, if_false]
  | load hslot =>
      simp only [Call.Fails]
      rw [operand, if_pos rfl]
      exact bind_eq_error.mpr (.inl (faultIn_eq_error.mpr ⟨hslot, rfl⟩))
  | unset hi hmark hnone =>
      simp only [Call.Fails]
      rw [operand, if_pos rfl, slot_eq_ok.mpr hi]
      simp only [faultIn_ok, bind, Except.bind, hnone]
      rfl
  | side hside =>
      simp only [Call.Fails]
      rw [operand, if_neg (by decide), if_pos rfl, hside]
  | @group pass l part hreads hrest =>
      simp only [Call.need, List.length_cons] at hneed
      simp only [Call.Fails]
      rw [operand, if_neg (by decide), if_neg (by decide), if_pos rfl,
        hreads.chain_eq (by omega)]
      simp only [bind, Except.bind, hrest]
      rfl
  | void =>
      simp only [Call.Fails]
      rw [operand, if_neg (by decide), if_neg (by decide), if_neg (by decide), if_pos rfl]
  | @literal pass c l hdigit hliteral =>
      have hne (d : Char) (hd : d.isDigit = false) : c ≠ d := by
        rintro rfl
        rw [hdigit] at hd
        cases hd
      simp only [Call.Fails]
      rw [operand, if_neg (hne _ rfl), if_neg (hne _ rfl), if_neg (hne _ rfl), if_neg (hne _ rfl),
        if_pos hdigit]
      dsimp only
      rw [hliteral]
  | start hload hside hgroup hvoid hdigit hname =>
      simp only [Call.Fails]
      rw [operand, if_neg hload, if_neg hside, if_neg hgroup, if_neg hvoid,
        if_neg (by simp [hdigit]), hname]
  | @call receiver name pass l args fault htakes hoverload =>
      have hblanks : (skipBlanks l).length ≤ l.length := List.length_dropWhile_le _ l
      simp only [Call.need, List.length_cons] at hneed
      have hargs : arguments s fuel pass (l.dropWhile Text.isAsciiBlank) = .ok args :=
        htakes.arguments_eq (by omega)
      simp only [Call.Fails]
      rw [member, hargs]
      refine bind_eq_error.mpr (.inr ⟨args, rfl, bind_eq_error.mpr (.inl ?_)⟩)
      exact faultIn_eq_error.mpr ⟨hoverload, rfl⟩
  | mark => rfl
  | field hcall hmark hfield =>
      simp only [Call.Fails]
      rw [member]
      · rw [hfield]
        rfl
      · exact hcall
      · exact hmark
  | @argument pass text part hreads hrest =>
      simp only [Call.need] at hneed
      simp only [Call.Fails]
      rw [furtherArguments, hreads.chain_eq (by omega)]
      simp only [bind, Except.bind, hrest]
      rfl

theorem Halts.fails (h : Halts s call halt) (hneed : call.need ≤ n) :
    call.Fails s n (halt.fault, halt.pass) := by
  induction h generalizing n with
  | raise hraises => exact hraises.fails hneed
  | next hnext _ ih => exact hnext.fails (fun _ h => ih h) hneed

end Directive

/-- A directive fails if it is blank, and else exactly in the ways in which readers give up. -/
theorem Pass.compile_error_iff {scope : Scope σ} {pass pass' : Pass} {directive : String}
    {fault : Fault} : pass.compile scope directive = .error (fault, pass') ↔
      if Text.allBlank directive = true then fault = .empty ∧ pass' = pass
      else ∃ rest, Directive.Halts ⟨scope, Directive.byteLength directive.toList⟩
        ⟨.expression .top none, pass, directive.toList⟩ ⟨fault, pass', rest⟩ := by
  rw [compile]
  split
  · simp [eq_comm]
  constructor
  · intro h
    rcases Directive.bind_eq_error.mp h with h | ⟨_, _, h⟩
    · exact Directive.chain_halts (by omega) h
    · cases h
  · rintro ⟨rest, hrest⟩
    refine Directive.bind_eq_error.mpr (.inl (hrest.fails ?_))
    simp [Directive.Call.need]

end FlagSelect
