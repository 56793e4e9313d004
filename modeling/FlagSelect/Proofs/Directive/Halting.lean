import FlagSelect.Proofs.Directive.Completeness

/-!
# Halts

The ways in which the readers give up, without their fuel: a reader goes on to the next, with what
has been read in between, until one of them finds something it cannot take. Main statement:
`chain_halts`.
-/

namespace FlagSelect

variable {σ : Type} {scope : Scope σ}

namespace Directive

/-- A reader and what it is given. -/
inductive Stage where
  | expression (place : Place) (context : Option Ty)
  | operand
  | member (receiver : Ty) (name : String)
  | arguments
  | furtherArguments

/-- A reader, the pass at its start and the text in front of which it starts. -/
structure Call where
  stage : Stage
  pass : Pass
  text : List Char

/-- A fault, the pass there and the text in front of which it is found. -/
structure Halt where
  fault : Fault
  pass : Pass
  rest : List Char

/-- Readers that go on to a reader, either inside them or behind what they have read. -/
inductive Next (scope : Scope σ) : Call → Call → Prop
  | start {place pass text c l} : skipBlanks text = c :: l → c ≠ ',' → c ≠ ')' →
      Next scope ⟨.expression place none, pass, text⟩ ⟨.operand, pass, c :: l⟩
  | started {place pass text head} : Starts scope pass (skipBlanks text) head →
      Next scope ⟨.expression place none, pass, text⟩
        ⟨.expression place (some head.ty), head.pass, head.rest⟩
  | pending {place pass text l i rest} : skipBlanks text = '<' :: l → Numeral l i ('?' :: rest) →
      pass.locals.get? i = none →
      Next scope ⟨.expression place none, pass, text⟩ ⟨.expression place none, pass, rest⟩
  | select {place ty pass text l name rest} : skipBlanks text = '.' :: l →
      name? (skipBlanks l) = some (name, rest) →
      Next scope ⟨.expression place (some ty), pass, text⟩ ⟨.member ty name, pass, rest⟩
  | selected {place ty pass text l name rest head} : skipBlanks text = '.' :: l →
      name? (skipBlanks l) = some (name, rest) → Selects scope ty name pass rest head →
      Next scope ⟨.expression place (some ty), pass, text⟩
        ⟨.expression place (some head.ty), head.pass, head.rest⟩
  | stored {place ty pass text l i rest} : skipBlanks text = '>' :: l → Numeral l i rest →
      Next scope ⟨.expression place (some ty), pass, text⟩
        ⟨.expression place (some ty), { pass with locals := pass.locals.set i ty }, rest⟩
  | group {pass l} : Next scope ⟨.operand, pass, '(' :: l⟩ ⟨.expression .group none, pass, l⟩
  | record {pass text name rest} : name? text = some (name, rest) →
      Next scope ⟨.operand, pass, text⟩ ⟨.member scope.record name, pass, rest⟩
  | call {receiver name pass l} :
      Next scope ⟨.member receiver name, pass, '(' :: l⟩ ⟨.arguments, pass, skipBlanks l⟩
  | several {pass text} : (∀ l, text ≠ ')' :: l) →
      Next scope ⟨.arguments, pass, text⟩ ⟨.furtherArguments, pass, text⟩
  | argument {pass text} :
      Next scope ⟨.furtherArguments, pass, text⟩ ⟨.expression .argument none, pass, text⟩
  | more {pass text part rest} : Reads scope .argument none pass text part →
      part.rest = ',' :: rest →
      Next scope ⟨.furtherArguments, pass, text⟩ ⟨.furtherArguments, part.pass, rest⟩

variable {s : Source σ}

/-- What a reader cannot take. -/
inductive Raises (s : Source σ) : Call → Halt → Prop
  | unclosed {place context pass text} : place ≠ .top → skipBlanks text = [] →
      Raises s ⟨.expression place context, pass, text⟩ ⟨.unexpectedEnd .closing, pass, []⟩
  | terminator {context pass text c l} : skipBlanks text = c :: l → c = ',' ∨ c = ')' →
      Raises s ⟨.expression .top context, pass, text⟩
        ⟨.strayTerminator (s.position (c :: l)) c, pass, c :: l⟩
  | comma {context pass text l} : skipBlanks text = ',' :: l →
      Raises s ⟨.expression .group context, pass, text⟩
        ⟨s.unexpected (',' :: l) .closing, pass, ',' :: l⟩
  | empty {place pass text rest} : skipBlanks text = rest → Ends place rest →
      Raises s ⟨.expression place none, pass, text⟩ ⟨s.unexpected rest .expression, pass, rest⟩
  | nameless {place ty pass text l} : skipBlanks text = '.' :: l → name? (skipBlanks l) = none →
      Raises s ⟨.expression place (some ty), pass, text⟩
        ⟨s.unexpected (skipBlanks l) .identifier, pass, skipBlanks l⟩
  | store {place ty pass text l fault} : skipBlanks text = '>' :: l →
      slot (s.position l) l = .error fault →
      Raises s ⟨.expression place (some ty), pass, text⟩ ⟨fault, pass, l⟩
  | question {place ty pass text l} : skipBlanks text = '?' :: l →
      Raises s ⟨.expression place (some ty), pass, text⟩
        ⟨s.unexpected ('?' :: l) .questionMarkAfterSlot, pass, '?' :: l⟩
  | other {place ty pass text c l} : skipBlanks text = c :: l → c ≠ ',' → c ≠ ')' → c ≠ '.' →
      c ≠ '>' → c ≠ '?' →
      Raises s ⟨.expression place (some ty), pass, text⟩
        ⟨s.unexpected (c :: l) .suffix, pass, c :: l⟩
  | load {pass l fault} : slot (s.position l) l = .error fault →
      Raises s ⟨.operand, pass, '<' :: l⟩ ⟨fault, pass, l⟩
  | unset {pass l i rest} : Numeral l i rest → (∀ l, rest ≠ '?' :: l) →
      pass.locals.get? i = none →
      Raises s ⟨.operand, pass, '<' :: l⟩ ⟨.unsetSlot i, pass, rest⟩
  | side {pass l} : s.scope.side = none →
      Raises s ⟨.operand, pass, '^' :: l⟩ ⟨.noSideProvider, pass, '^' :: l⟩
  | group {pass l part} : Reads s.scope .group none pass l part → part.rest = [] →
      Raises s ⟨.operand, pass, '(' :: l⟩ ⟨.unexpectedEnd .closing, part.pass, []⟩
  | void {pass l} : Raises s ⟨.operand, pass, '>' :: l⟩
      ⟨.storeOnVoid (s.position ('>' :: l)), pass, '>' :: l⟩
  | literal {pass c l} : c.isDigit = true → literal? ((c :: l).takeWhile Char.isDigit) = none →
      Raises s ⟨.operand, pass, c :: l⟩ ⟨s.unexpected (c :: l) .smallLiteral, pass, c :: l⟩
  | start {pass c l} : c ≠ '<' → c ≠ '^' → c ≠ '(' → c ≠ '>' → c.isDigit = false →
      name? (c :: l) = none →
      Raises s ⟨.operand, pass, c :: l⟩ ⟨s.unexpected (c :: l) .expression, pass, c :: l⟩
  | call {receiver name pass l args fault} : Takes s.scope pass (skipBlanks l) args →
      overload s.scope.schema receiver name args.types = .error fault →
      Raises s ⟨.member receiver name, pass, '(' :: l⟩ ⟨fault, args.pass, args.rest⟩
  | mark {receiver name pass l} : Raises s ⟨.member receiver name, pass, '?' :: l⟩
      ⟨s.unexpected ('?' :: l) .questionMarkAfterSlot, pass, '?' :: l⟩
  | field {receiver name pass text fault} : (∀ l, text ≠ '(' :: l) → (∀ l, text ≠ '?' :: l) →
      field s.scope.schema receiver name = .error fault →
      Raises s ⟨.member receiver name, pass, text⟩ ⟨fault, pass, text⟩
  | argument {pass text part} : Reads s.scope .argument none pass text part → part.rest = [] →
      Raises s ⟨.furtherArguments, pass, text⟩ ⟨.unexpectedEnd .closing, part.pass, []⟩

/-- A reader that gives up, be it inside or behind what has been read. -/
inductive Halts (s : Source σ) : Call → Halt → Prop
  | raise {call halt} : Raises s call halt → Halts s call halt
  | next {call call' halt} : Next s.scope call call' → Halts s call' halt → Halts s call halt

theorem faultIn_eq_error {α : Type} {pass pass' : Pass} {r : Except Fault α} {fault : Fault} :
    faultIn pass r = .error (fault, pass') ↔ r = .error fault ∧ pass' = pass := by
  cases r with
  | ok a => simp
  | error fault' => simp [eq_comm]

theorem finish_eq_error {ctx pass pass' rest fault}
    (h : finish s ctx pass rest = .error (fault, pass')) :
    ctx = none ∧ fault = s.unexpected rest .expression ∧ pass' = pass := by
  cases ctx with
  | none => cases h; exact ⟨rfl, rfl, rfl⟩
  | some ty => cases h

-- By recursion on the fuel, arm by arm as the readers are written. There is enough of it, so that
-- no reader fails for want of fuel.
mutual

theorem chain_halts {fuel place ctx pass text fault pass'} (hfuel : 4 * text.length + 2 ≤ fuel)
    (h : chain s fuel place ctx pass text = .error (fault, pass')) :
    ∃ rest, Halts s ⟨.expression place ctx, pass, text⟩ ⟨fault, pass', rest⟩ := by
  match fuel with
  | 0 => omega
  | fuel + 1 =>
      rw [chain] at h
      cases htext : text.dropWhile Text.isAsciiBlank with
      | nil =>
          have hskip : skipBlanks text = [] := htext
          simp only [htext] at h
          split at h
          · next hplace =>
              obtain ⟨rfl, rfl, rfl⟩ := finish_eq_error h
              subst hplace
              exact ⟨_, .raise (.empty hskip rfl)⟩
          · next hplace =>
              cases h
              exact ⟨_, .raise (.unclosed hplace hskip)⟩
      | cons c l =>
          have hskip : skipBlanks text = c :: l := htext
          have hlength := length_lt_of_skipBlanks hskip
          simp only [htext] at h
          split at h
          · next hc =>
              split at h
              · next hplace =>
                  cases h
                  subst hplace
                  exact ⟨_, .raise (.terminator hskip hc)⟩
              next hplace =>
              split at h
              · next hgroup =>
                  obtain ⟨rfl, rfl⟩ := hgroup
                  cases h
                  exact ⟨_, .raise (.comma hskip)⟩
              next hgroup =>
              obtain ⟨rfl, rfl, rfl⟩ := finish_eq_error h
              refine ⟨_, .raise (.empty hskip ?_)⟩
              cases place with
              | top => exact absurd rfl hplace
              | argument => exact ⟨c, l, rfl, hc⟩
              | group =>
                  obtain rfl : c = ')' := hc.resolve_left fun hc => hgroup ⟨hc, rfl⟩
                  exact ⟨l, rfl⟩
          next hc =>
          obtain ⟨hcomma, hclose⟩ := not_or.mp hc
          split at h
          · rcases bind_eq_error.mp h with hop | ⟨op, hop, h⟩
            · obtain ⟨rest, hrest⟩ := operand_halts (by rw [List.length_cons]; omega) hop
              exact ⟨rest, .next (.start hskip hcomma hclose) hrest⟩
            have hread := operand_reads hop
            rw [← hskip] at hread
            cases op with
            | value head =>
                have hlt := hread.length_lt
                rcases bind_eq_error.mp h with htail | ⟨_, _, h⟩
                · rw [hskip, List.length_cons] at hlt
                  obtain ⟨rest, hrest⟩ := chain_halts (by omega) htail
                  exact ⟨rest, .next (.started hread) hrest⟩
                · cases h
            | reused i ty rest => cases h
            | pending rest =>
                obtain ⟨l, i, hl, hi, hnone⟩ := hread
                have hlt := length_lt_of_skipBlanks hl
                have hle := hi.length_le
                rw [List.length_cons] at hle
                obtain ⟨rest, hrest⟩ := chain_halts (by omega) h
                exact ⟨rest, .next (.pending hl hi hnone) hrest⟩
          · next ty =>
            split at h
            · next hdot =>
                subst hdot
                split at h
                · next hname =>
                    cases h
                    exact ⟨_, .raise (.nameless hskip hname)⟩
                · next name rest hname =>
                    have hblanks := List.length_dropWhile_le Text.isAsciiBlank l
                    have hlt := name?_length_lt hname
                    rcases bind_eq_error.mp h with hhead | ⟨head, hhead, h⟩
                    · obtain ⟨rest, hrest⟩ := member_halts (by omega) hhead
                      exact ⟨rest, .next (.select hskip hname) hrest⟩
                    have hselects := member_selects hhead
                    have hle := hselects.length_le
                    rcases bind_eq_error.mp h with htail | ⟨_, _, h⟩
                    · obtain ⟨rest, hrest⟩ := chain_halts (by omega) htail
                      exact ⟨rest, .next (.selected hskip hname hselects) hrest⟩
                    · cases h
            next hdot =>
            split at h
            · next hstore =>
                subst hstore
                rcases bind_eq_error.mp h with hi | ⟨⟨i, rest⟩, hi, h⟩
                · obtain ⟨hslot, rfl⟩ := faultIn_eq_error.mp hi
                  exact ⟨_, .raise (.store hskip hslot)⟩
                replace hi : Numeral l i rest := slot_eq_ok.mp (faultIn_eq_ok.mp hi)
                have hle := hi.length_le
                rcases bind_eq_error.mp h with htail | ⟨_, _, h⟩
                · obtain ⟨rest, hrest⟩ := chain_halts (by dsimp only; omega) htail
                  exact ⟨rest, .next (.stored hskip hi) hrest⟩
                · cases h
            next hstore =>
            split at h
            · next hmark =>
                subst hmark
                cases h
                exact ⟨_, .raise (.question hskip)⟩
            · next hmark =>
                cases h
                exact ⟨_, .raise (.other hskip hcomma hclose hdot hstore hmark)⟩

theorem operand_halts {fuel pass c l fault pass'} (hfuel : 4 * (c :: l).length + 1 ≤ fuel)
    (h : operand s fuel pass (c :: l) = .error (fault, pass')) :
    ∃ rest, Halts s ⟨.operand, pass, c :: l⟩ ⟨fault, pass', rest⟩ := by
  match fuel with
  | 0 => omega
  | fuel + 1 =>
      rw [List.length_cons] at hfuel
      rw [operand] at h
      split at h
      · next hc =>
          subst hc
          rcases bind_eq_error.mp h with hi | ⟨⟨i, rest⟩, hi, h⟩
          · obtain ⟨hslot, rfl⟩ := faultIn_eq_error.mp hi
            exact ⟨_, .raise (.load hslot)⟩
          replace hi := slot_eq_ok.mp (faultIn_eq_ok.mp hi)
          dsimp only at h
          split at h
          · cases h
          · cases h
          · cases h
          · next hmark hnone => cases h; exact ⟨_, .raise (.unset hi hmark hnone)⟩
      next hload =>
      split at h
      · next hc =>
          subst hc
          split at h
          · next hside => cases h; exact ⟨_, .raise (.side hside)⟩
          · cases h
      next hside =>
      split at h
      · next hc =>
          subst hc
          rcases bind_eq_error.mp h with hpart | ⟨part, hpart, h⟩
          · obtain ⟨rest, hrest⟩ := chain_halts (by omega) hpart
            exact ⟨rest, .next .group hrest⟩
          have hread := chain_reads hpart
          split at h
          · cases h
          · next hclose =>
              cases h
              rcases hread.ends with hnil | ⟨rest, hrest⟩
              · exact ⟨_, .raise (.group hread hnil)⟩
              · exact absurd hrest (hclose rest)
      next hgroup =>
      split at h
      · next hc => subst hc; cases h; exact ⟨_, .raise .void⟩
      next hvoid =>
      split at h
      · next hdigit =>
          simp only at h
          split at h
          · cases h
          · next hliteral => cases h; exact ⟨_, .raise (.literal hdigit hliteral)⟩
      next hdigit =>
      split at h
      · next name rest hname =>
          have hlt := name?_length_lt hname
          rw [List.length_cons] at hlt
          rcases bind_eq_error.mp h with hpart | ⟨part, hpart, h⟩
          · obtain ⟨rest, hrest⟩ := member_halts (by omega) hpart
            exact ⟨rest, .next (.record hname) hrest⟩
          · cases h
      · next hname =>
          cases h
          exact ⟨_, .raise (.start hload hside hgroup hvoid (by simpa using hdigit) hname)⟩

theorem member_halts {fuel receiver name pass text fault pass'}
    (hfuel : 4 * text.length + 2 ≤ fuel)
    (h : member s fuel receiver name pass text = .error (fault, pass')) :
    ∃ rest, Halts s ⟨.member receiver name, pass, text⟩ ⟨fault, pass', rest⟩ := by
  match fuel with
  | 0 => omega
  | fuel + 1 =>
      unfold member at h
      split at h
      · next l =>
          have hblanks := List.length_dropWhile_le Text.isAsciiBlank l
          rw [List.length_cons] at hfuel
          rcases bind_eq_error.mp h with hargs | ⟨args, hargs, h⟩
          · obtain ⟨rest, hrest⟩ := arguments_halts (by omega) hargs
            exact ⟨rest, .next .call hrest⟩
          rcases bind_eq_error.mp h with hm | ⟨_, _, h⟩
          · obtain ⟨hoverload, rfl⟩ := faultIn_eq_error.mp hm
            exact ⟨_, .raise (.call (arguments_takes hargs) hoverload)⟩
          · cases h
      · cases h
        exact ⟨_, .raise .mark⟩
      · next hcall hmark =>
          rcases bind_eq_error.mp h with hf | ⟨_, _, h⟩
          · obtain ⟨hfield, rfl⟩ := faultIn_eq_error.mp hf
            exact ⟨_, .raise (.field hcall hmark hfield)⟩
          · cases h

theorem arguments_halts {fuel pass text fault pass'} (hfuel : 4 * text.length + 4 ≤ fuel)
    (h : arguments s fuel pass text = .error (fault, pass')) :
    ∃ rest, Halts s ⟨.arguments, pass, text⟩ ⟨fault, pass', rest⟩ := by
  match fuel with
  | 0 => omega
  | fuel + 1 =>
      by_cases hclose : ∃ l, text = ')' :: l
      · obtain ⟨l, rfl⟩ := hclose
        cases h
      · have hclose l : text ≠ ')' :: l := fun hl => hclose ⟨l, hl⟩
        rw [arguments] at h
        · obtain ⟨rest, hrest⟩ := furtherArguments_halts (by omega) h
          exact ⟨rest, .next (.several hclose) hrest⟩
        · exact hclose

theorem furtherArguments_halts {fuel pass text fault pass'} (hfuel : 4 * text.length + 3 ≤ fuel)
    (h : furtherArguments s fuel pass text = .error (fault, pass')) :
    ∃ rest, Halts s ⟨.furtherArguments, pass, text⟩ ⟨fault, pass', rest⟩ := by
  match fuel with
  | 0 => omega
  | fuel + 1 =>
      rw [furtherArguments] at h
      rcases bind_eq_error.mp h with hpart | ⟨part, hpart, h⟩
      · obtain ⟨rest, hrest⟩ := chain_halts (by omega) hpart
        exact ⟨rest, .next .argument hrest⟩
      have hread := chain_reads hpart
      have hle := hread.length_le
      split at h
      · next rest hcomma =>
          rw [hcomma, List.length_cons] at hle
          rcases bind_eq_error.mp h with hmore | ⟨_, _, h⟩
          · obtain ⟨rest, hrest⟩ := furtherArguments_halts (by omega) hmore
            exact ⟨rest, .next (.more hread hcomma) hrest⟩
          · cases h
      · cases h
      · next hnil => cases h; exact ⟨_, .raise (.argument hread hnil)⟩
      · next hcomma hclose hnil =>
          rcases hread.ends with hrest | ⟨c, rest, hrest, rfl | rfl⟩
          · exact absurd hrest hnil
          · exact absurd hrest (hcomma rest)
          · exact absurd hrest (hclose rest)

end

end Directive

end FlagSelect
