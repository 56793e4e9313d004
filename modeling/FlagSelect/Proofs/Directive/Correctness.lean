import FlagSelect.Proofs.Directive.Extent
import FlagSelect.Proofs.Directive.Interpreter
import FlagSelect.Proofs.Directive.Soundness

/-!
# Correctness of compiled directives

The programs of directives do what the directives say when they are interpreted: the same values or
the same fault, the same contents of the slots and the same calls of the host in the same order. In
particular a reuse that was settled while compiling is what a test of the slot would have come to.
Main statement: `Pass.compileAll_correct`.
-/

namespace FlagSelect

variable {σ β γ : Type} {roots : Roots} {scope : Scope σ} {pass : Pass} {live : Live σ}
  {m m' : Machine (Recorder σ)} {code code' : List (Instr (Recorder σ))}

theorem Machine.reached_append (h : m.run roots code = .ok m')
    (code' : List (Instr (Recorder σ))) :
    m.reached roots (code ++ code') = m'.reached roots code' := by
  induction code generalizing m with
  | nil => cases h; rfl
  | cons i code ih =>
      obtain ⟨m₁, hstep, h⟩ := Directive.bind_eq_ok.mp h
      rw [List.cons_append, reached, hstep]
      exact ih h

theorem Machine.reached_append_of_error {stopped : EvalFault × Recorder σ}
    (h : m.run roots code = .error stopped) (code' : List (Instr (Recorder σ))) :
    m.reached roots (code ++ code') = m.reached roots code := by
  induction code generalizing m with
  | nil => cases h
  | cons i code ih =>
      rw [List.cons_append, reached, reached]
      rcases Directive.bind_eq_error.mp h with h | ⟨m₁, hstep, h⟩
      · rw [h]
      · rw [hstep]
        exact ih h

/-- Whether code on a machine and an interpretation come to results that belong together, or stop
with the same fault, the same contents of the slots and the same host. -/
inductive Tally (roots : Roots) (together : Machine (Recorder σ) → β → Prop)
    (m : Machine (Recorder σ)) (code : List (Instr (Recorder σ))) : Interpretation σ β → Prop
  | ok {m' : Machine (Recorder σ)} {b : β} : m.run roots code = .ok m' → together m' b →
      Tally roots together m code (.ok b)
  | stopped {fault : EvalFault} {live : Live σ} : m.run roots code = .error (fault, live.host) →
      (m.reached roots code).locals.get? = live.slots →
      Tally roots together m code (.error (some (fault, live)))

namespace Tally

variable {together : Machine (Recorder σ) → β → Prop} {next : Machine (Recorder σ) → γ → Prop}
  {r : Interpretation σ β} {g : β → Interpretation σ γ} {i : Instr (Recorder σ)}

theorem append (h : Tally roots together m code r)
    (hnext : ∀ m' b, together m' b → Tally roots next m' code' (g b)) :
    Tally roots next m (code ++ code') (r >>= g) := by
  cases h with
  | @ok m' b hrun hb =>
      have hreached := Machine.reached_append hrun code'
      have hrun' : m.run roots (code ++ code') = m'.run roots code' := by
        rw [Machine.run_append, hrun]
        rfl
      change Tally roots next m (code ++ code') (g b)
      have hg := hnext m' b hb
      generalize g b = s at hg
      cases hg with
      | ok hrest hc => exact .ok (hrun'.trans hrest) hc
      | stopped hrest hslots => exact .stopped (hrun'.trans hrest) (hreached ▸ hslots)
  | stopped hrun hslots =>
      have hreached := Machine.reached_append_of_error hrun code'
      refine .stopped ?_ (hreached ▸ hslots)
      rw [Machine.run_append, hrun]
      rfl

theorem step {b : β} (hstep : m.step roots i = .ok m') (hb : together m' b) :
    Tally roots together m [i] (.ok b) :=
  .ok (by rw [Machine.run_cons, hstep]; rfl) hb

theorem cons (hstep : m.step roots i = .ok m') (h : Tally roots together m' code r) :
    Tally roots together m (i :: code) r := by
  have hrun : m.run roots (i :: code) = m'.run roots code := by
    rw [Machine.run_cons, hstep]
    rfl
  have hreached : m.reached roots (i :: code) = m'.reached roots code := by
    rw [Machine.reached, hstep]
  cases h with
  | ok hrest hb => exact .ok (hrun.trans hrest) hb
  | stopped hrest hslots => exact .stopped (hrun.trans hrest) (hreached ▸ hslots)

/-- A step that accesses the host. -/
theorem access {e : Evaluation (Recorder σ) (Value × Recorder σ)} {base : List Value}
    {b : Value × Recorder σ → β}
    (hstep : m.step roots i =
      e >>= fun w => .ok { m with stack := w.1 :: base, host := w.2 })
    (hslots : m.locals.get? = live.slots)
    (hb : ∀ w, together { m with stack := w.1 :: base, host := w.2 } (b w)) :
    Tally roots together m [i] (Directive.interpreted live e >>= fun w => .ok (b w)) := by
  cases e with
  | ok w => exact step hstep (hb w)
  | error stopped =>
      change Tally roots together m [i] (.error (some (stopped.1, { live with host := stopped.2 })))
      refine .stopped ?_ ?_
      · rw [Machine.run_cons, hstep]
        rfl
      · rw [Machine.reached, hstep]
        exact hslots

theorem map {next : Machine (Recorder σ) → γ → Prop} (h : Tally roots together m code r)
    (hnext : ∀ m' b, together m' b → ∃ c, g b = .ok c ∧ next m' c) :
    Tally roots next m code (r >>= g) := by
  cases h with
  | ok hrun hb =>
      obtain ⟨c, hc, hnext⟩ := hnext _ _ hb
      rw [Directive.bind_eq_ok.mpr ⟨_, rfl, hc⟩]
      exact .ok hrun hnext
  | stopped hrun hslots => exact .stopped hrun hslots

end Tally

/-- Whether a machine at some point of a pass has what an interpretation has at hand there. -/
structure Agrees (roots : Roots) (pass : Pass) (live : Live σ) (m : Machine (Recorder σ)) :
    Prop where
  types : ∀ i, pass.locals.get? i = (live.locals.get? i).map Typed.ty
  values : ∀ i, m.locals.get? i = (live.locals.get? i).map Typed.value
  host : m.host = live.host
  side : pass.resolved = true → m.side = roots.side

namespace Agrees

variable {i : Slot} {ty : Ty} {v : Typed} {stack : List Value}

theorem withStack (h : Agrees roots pass live m) :
    Agrees roots pass live { m with stack := stack } :=
  ⟨h.types, h.values, h.host, h.side⟩

theorem slot (h : Agrees roots pass live m) (hty : pass.locals.get? i = some ty) :
    ∃ v, live.locals.get? i = some v ∧ v.ty = ty ∧ m.locals.get? i = some v.value := by
  obtain ⟨v, hv, hvty⟩ := Option.map_eq_some_iff.mp ((h.types i).symm.trans hty)
  exact ⟨v, hv, hvty, by rw [h.values i, hv]; rfl⟩

theorem no_slot (h : Agrees roots pass live m) (hnone : pass.locals.get? i = none) :
    live.locals.get? i = none :=
  Option.map_eq_none_iff.mp ((h.types i).symm.trans hnone)

theorem store (h : Agrees roots pass live m) (hv : v.ty = ty) :
    Agrees roots { pass with locals := pass.locals.set i ty }
      { live with locals := live.locals.set i v }
      { m with locals := m.locals.set i v.value } := by
  subst hv
  refine ⟨fun j => ?_, fun j => ?_, h.host, h.side⟩
  · by_cases hj : j = i
    · subst hj
      simp
    · simpa [Slots.get?_set_of_ne hj] using h.types j
  · by_cases hj : j = i
    · subst hj
      simp
    · simpa [Slots.get?_set_of_ne hj] using h.values j

theorem slots (h : Agrees roots pass live m) : m.locals.get? = live.slots :=
  funext h.values

theorem start {host : σ} : Agrees roots {} { host := { host } } { host := { host } } :=
  ⟨fun _ => rfl, fun _ => rfl, rfl, fun h => by cases h⟩

end Agrees

namespace Directive

variable {ty : Ty} {l rest text : List Char} {base : List Value} {i : Slot} {fuel : Nat}
  {place : Place} {v : Typed} {name : String}

/-- Whether a machine has the value on top of a stack that an interpretation has reached. -/
structure Gives (roots : Roots) (pass : Pass) (ty : Ty) (rest : List Char) (base : List Value)
    (m : Machine (Recorder σ)) (r : Reached σ) : Prop where
  ty : r.value.ty = ty
  rest : r.rest = rest
  stack : m.stack = r.value.value :: base
  agrees : Agrees roots pass r.live m

theorem Gives.upTo {rest' : List Char} {r : Reached σ} (h : Gives roots pass ty rest base m r) :
    Gives roots pass ty rest' base m { r with rest := rest' } :=
  ⟨h.ty, rfl, h.stack, h.agrees⟩

structure GivesArguments (roots : Roots) (pass : Pass) (types : List Ty) (rest : List Char)
    (base : List Value) (m : Machine (Recorder σ)) (r : ReachedArguments σ) : Prop where
  types : r.values.map Typed.ty = types
  rest : r.rest = rest
  stack : m.stack = (r.values.map Typed.value).reverse ++ base
  agrees : Agrees roots pass r.live m

/-! ## Steps of the interpreter -/

theorem numeral?_eq (h : Numeral l i rest) : numeral? l = some (i, rest) := by
  rw [numeral?, h.1, h.2]
  rfl

theorem asked?_eq (h : Numeral l i ('?' :: rest)) : asked? ('<' :: l) = some (i, rest) := by
  simp only [asked?, numeral?_eq h]

theorem asked?_eq_none {c : Char} (h : c ≠ '<') : asked? (c :: l) = none := by
  unfold asked?
  split
  · next heq => exact absurd (List.cons.inj heq).1 h
  · rfl

theorem Starts.asked? {part : Part σ} (h : Starts scope pass text part) :
    asked? text = none := by
  cases h with
  | load hi hrest _ =>
      simp only [Directive.asked?, numeral?_eq hi]
      split
      · next heq => exact absurd (Prod.mk.inj (Option.some.inj heq)).2 (hrest _)
      · rfl
  | side _ => rfl
  | group _ _ => rfl
  | literal hdigit _ =>
      refine asked?_eq_none ?_
      rintro rfl
      exact absurd hdigit (by decide)
  | member hname _ =>
      obtain ⟨c, l, rfl, hc⟩ := name?_cons hname
      refine asked?_eq_none ?_
      rintro rfl
      exact absurd hc (by decide)

theorem expression_finish (h : Ends place (skipBlanks text)) :
    expression scope roots (fuel + 1) place (some v) live text =
      .ok ⟨v, skipBlanks text, live⟩ := by
  cases place with
  | top =>
      rw [Ends] at h
      rw [expression, h]
  | argument =>
      obtain ⟨c, rest, h, hc⟩ := h
      rcases hc with rfl | rfl <;> rw [expression, h] <;> simp
  | group =>
      obtain ⟨rest, h⟩ := h
      rw [expression, h]
      simp

theorem expression_pending (hl : skipBlanks text = '<' :: l) (hi : Numeral l i ('?' :: rest))
    (hnone : live.locals.get? i = none) :
    expression scope roots (fuel + 1) place none live text =
      expression scope roots fuel place none live rest := by
  simp only [expression, hl, asked?_eq hi, hnone]

theorem expression_reused (hl : skipBlanks text = '<' :: l) (hi : Numeral l i ('?' :: rest))
    (hv : live.locals.get? i = some v) :
    expression scope roots (fuel + 1) place none live text =
      .ok ⟨v, skipRest place rest, live⟩ := by
  simp only [expression, hl, asked?_eq hi, hv]

theorem expression_start (h : asked? (skipBlanks text) = none) :
    expression scope roots (fuel + 1) place none live text = (do
      let first ← start scope roots fuel live (skipBlanks text)
      expression scope roots fuel place (some first.value) first.live first.rest) := by
  simp only [expression, h]

theorem expression_select (hl : skipBlanks text = '.' :: l)
    (hname : name? (skipBlanks l) = some (name, rest)) :
    expression scope roots (fuel + 1) place (some v) live text = (do
      let next ← select scope roots fuel v name live rest
      expression scope roots fuel place (some next.value) next.live next.rest) := by
  simp only [expression, hl, hname]

theorem expression_store (hl : skipBlanks text = '>' :: l) (hi : Numeral l i rest) :
    expression scope roots (fuel + 1) place (some v) live text =
      expression scope roots fuel place (some v) { live with locals := live.locals.set i v }
        rest := by
  simp only [expression, hl, numeral?_eq hi]

theorem start_literal {c : Char} {ty : Ty} {w : Value} (hdigit : c.isDigit = true)
    (hliteral : literal? ((c :: l).takeWhile Char.isDigit) = some (w, ty)) :
    start scope roots (fuel + 1) live (c :: l) =
      .ok ⟨⟨ty, w⟩, (c :: l).dropWhile Char.isDigit, live⟩ := by
  have hname : name? (c :: l) = none := by
    cases h : name? (c :: l) with
    | none => rfl
    | some r =>
        obtain ⟨_, _, heq, hstart⟩ := name?_cons h
        cases heq
        rw [not_isDigit_of_isNameStart hstart] at hdigit
        cases hdigit
  rw [List.takeWhile_cons_of_pos hdigit] at hliteral
  rw [start]
  · simp only [hname, List.takeWhile_cons_of_pos hdigit, List.isEmpty_cons, hliteral]
  all_goals
    rintro l' heq
    cases heq
    exact absurd hdigit (by decide)

theorem start_member (hname : name? text = some (name, rest)) :
    start scope roots (fuel + 1) live text =
      select scope roots fuel ⟨scope.record, roots.record⟩ name live rest := by
  obtain ⟨c, l, rfl, hc⟩ := name?_cons hname
  rw [start]
  · simp only [hname]
  all_goals
    rintro l' heq
    cases heq
    exact absurd hc (by decide)

theorem select_call {args : ReachedArguments σ} {f : Method σ}
    (hf : overload scope.schema v.ty name (args.values.map Typed.ty) = .ok f) :
    (do
      let f ← found (overload scope.schema v.ty name (args.values.map Typed.ty))
      let (w, host) ← interpreted args.live
        (f.recorded.invoke v.value (args.values.map Typed.value) args.live.host)
      return (⟨⟨f.result, w⟩, args.rest, { args.live with host }⟩ : Reached σ)) =
    interpreted args.live
      (f.recorded.invoke v.value (args.values.map Typed.value) args.live.host) >>=
        fun r => .ok ⟨⟨f.result, r.1⟩, args.rest, { args.live with host := r.2 }⟩ := by
  rw [hf]
  rfl

theorem select_field {f : Field σ} (hcall : ∀ l, text ≠ '(' :: l)
    (hf : field scope.schema v.ty name = .ok f) :
    select scope roots (fuel + 1) v name live text =
      interpreted live (f.recorded.read v.value live.host) >>=
        fun r => .ok ⟨⟨f.ty, r.1⟩, text, { live with host := r.2 }⟩ := by
  rw [select, hf]
  · rfl
  · exact hcall

/-! ## Readings and interpretations -/

theorem tally_loadLocal {ty : Ty} (hm : Agrees roots pass live m) (hstack : m.stack = base)
    (hty : pass.locals.get? i = some ty) : ∃ v, live.locals.get? i = some v ∧
      Tally roots (Gives roots pass ty rest base) m [.loadLocal i] (.ok ⟨v, rest, live⟩) := by
  obtain ⟨v, hlive, hvty, hv⟩ := hm.slot hty
  refine ⟨v, hlive, ?_⟩
  have hstep : m.step roots (.loadLocal i) = .ok (m.push v.value) := by
    rw [Machine.step, hv]
  exact .step hstep ⟨hvty, rfl, by rw [← hstack]; rfl, hm.withStack⟩

theorem step_invoke {f : Method (Recorder σ)} {u : Value} {vs : List Value} {n : Nat}
    (hn : vs.length = n) (hstack : m.stack = vs.reverse ++ u :: base) :
    m.step roots (.invoke f n) =
      f.invoke u vs m.host >>= fun r => .ok { m with stack := r.1 :: base, host := r.2 } := by
  have hlength : vs.reverse.length = n := by rw [List.length_reverse, hn]
  rw [Machine.step, hstack, ← hlength, List.drop_left, List.take_left, List.reverse_reverse]
  rfl

-- By induction on the reading. The interpreter makes no more calls than its fuel covers, since each
-- part leaves a shorter text; and what lies below on the stack is left open, since arguments are
-- computed on top of the receiver of their call.
mutual

theorem Reads.tally {place ctx pass text part} (h : Reads scope place ctx pass text part)
    (hside : scope.side.isSome → roots.side.isSome) {fuel live m base w}
    (hfuel : 4 * text.length + 4 ≤ fuel) (hw : w.map Typed.ty = ctx)
    (hm : Agrees roots pass live m) (hstack : m.stack = (w.map Typed.value).toList ++ base) :
    Tally roots (Gives roots part.pass part.ty part.rest base) m (part.code.map Instr.recorded)
      (expression scope roots fuel place w live text) := by
  cases fuel with
  | zero => omega
  | succ fuel =>
  match h with
  | .finish hends =>
      obtain ⟨v, rfl, hty⟩ := Option.map_eq_some_iff.mp hw
      rw [expression_finish hends]
      exact .ok rfl ⟨hty, rfl, hstack, hm⟩
  | .value hstart htail =>
      obtain rfl := Option.map_eq_none_iff.mp hw
      have hblanks : (skipBlanks text).length ≤ text.length := List.length_dropWhile_le _ text
      have hlength := hstart.length_lt
      rw [List.map_append, expression_start hstart.asked?]
      refine (hstart.tally hside (by omega) hm hstack).append fun m' r hr => ?_
      rw [hr.rest]
      exact htail.tally hside (by omega) (congrArg some hr.ty) hr.agrees hr.stack
  | .reused hl hi hty =>
      obtain rfl := Option.map_eq_none_iff.mp hw
      obtain ⟨v, hv, htally⟩ := tally_loadLocal hm hstack hty
      rw [expression_reused hl hi hv]
      exact htally
  | .pending hl hi hnone hpart =>
      obtain rfl := Option.map_eq_none_iff.mp hw
      have hlength := length_lt_of_skipBlanks hl
      have hrest := hi.length_le
      rw [List.length_cons] at hrest
      rw [expression_pending hl hi (hm.no_slot hnone)]
      exact hpart.tally hside (by omega) rfl hm hstack
  | .select hl hname hhead htail =>
      obtain ⟨v, rfl, hty⟩ := Option.map_eq_some_iff.mp hw
      have hlength := length_lt_of_skipBlanks hl
      have hrest := Nat.lt_of_lt_of_le (name?_length_lt hname) (List.length_dropWhile_le _ _)
      have hleft := hhead.length_le
      rw [List.map_append, expression_select hl hname]
      refine (hhead.tally hside (by omega) hty hm hstack).append fun m' r hr => ?_
      rw [hr.rest]
      exact htail.tally hside (by omega) (congrArg some hr.ty) hr.agrees hr.stack
  | .store (i := i) hl hi htail =>
      obtain ⟨v, rfl, hty⟩ := Option.map_eq_some_iff.mp hw
      have hlength := length_lt_of_skipBlanks hl
      have hrest := hi.length_le
      have hstep : m.step roots (.storeLocal i) =
          .ok { m with locals := m.locals.set i v.value } := by
        rw [Machine.step, hstack]
        rfl
      rw [List.map_cons, Instr.recorded, expression_store hl hi]
      exact .cons hstep (htail.tally hside (by omega) hw (hm.store hty) hstack)

theorem Starts.tally {pass text part} (h : Starts scope pass text part)
    (hside : scope.side.isSome → roots.side.isSome) {fuel live m base}
    (hfuel : 4 * text.length + 3 ≤ fuel) (hm : Agrees roots pass live m) (hstack : m.stack = base) :
    Tally roots (Gives roots part.pass part.ty part.rest base) m (part.code.map Instr.recorded)
      (start scope roots fuel live text) := by
  cases fuel with
  | zero => omega
  | succ fuel =>
  match h with
  | .load hi _ hty =>
      obtain ⟨v, hv, htally⟩ := tally_loadLocal hm hstack hty
      simp only [start, numeral?_eq hi, hv]
      exact htally
  | .side hty =>
      obtain ⟨v, hv⟩ := Option.isSome_iff_exists.mp (hside (by simp [hty]))
      simp only [start, hty, hv, List.map_cons, List.map_nil]
      cases hresolved : pass.resolved with
      | true =>
          have hkept := hm.side hresolved
          have hstep : m.step roots .loadSide = .ok (m.push v) := by
            simp only [Machine.step, hkept, hv]
          exact .step hstep ⟨rfl, rfl, by rw [← hstack]; rfl, hm.types, hm.values, hm.host,
            fun _ => hkept⟩
      | false =>
          have hstep : m.step roots .resolveSide = .ok ({ m with side := some v }.push v) := by
            simp only [Machine.step, hv]
          exact .step hstep ⟨rfl, rfl, by rw [← hstack]; rfl, hm.types, hm.values, hm.host,
            fun _ => hv.symm⟩
  | .group hpart hrest =>
      rw [List.length_cons] at hfuel
      refine (hpart.tally hside (w := none) (by omega) rfl hm hstack).map fun m' r hr => ?_
      exact ⟨_, by rw [hr.rest, hrest]; rfl, hr.upTo⟩
  | .literal hdigit hliteral =>
      rw [start_literal hdigit hliteral]
      exact .step rfl ⟨rfl, rfl, by rw [← hstack]; rfl, hm.withStack⟩
  | .member hname hpart =>
      have hrest := name?_length_lt hname
      rw [start_member hname]
      refine .cons rfl (hpart.tally (m := m.push roots.record) hside (by omega) rfl hm.withStack ?_)
      rw [← hstack]
      rfl

theorem Selects.tally {receiver name pass text part}
    (h : Selects scope receiver name pass text part)
    (hside : scope.side.isSome → roots.side.isSome) {fuel live m base} {v : Typed}
    (hfuel : 4 * text.length + 6 ≤ fuel) (hv : v.ty = receiver) (hm : Agrees roots pass live m)
    (hstack : m.stack = v.value :: base) :
    Tally roots (Gives roots part.pass part.ty part.rest base) m (part.code.map Instr.recorded)
      (select scope roots fuel v name live text) := by
  cases fuel with
  | zero => omega
  | succ fuel =>
  match h with
  | .call (l := l) hargs hmethod =>
      have hblanks : (skipBlanks l).length ≤ l.length := List.length_dropWhile_le _ l
      rw [List.length_cons] at hfuel
      rw [List.map_append, select]
      refine (hargs.tally hside (by omega) hm hstack).append fun m' args hgiven => ?_
      rw [← hgiven.types, ← hv] at hmethod
      have hlength := congrArg List.length hgiven.types
      rw [List.length_map] at hlength
      have hm' := hgiven.agrees
      rw [select_call hmethod, ← hm'.host]
      refine .access (step_invoke ?_ hgiven.stack) hm'.slots fun w =>
        ⟨rfl, hgiven.rest, rfl, hm'.types, hm'.values, rfl, hm'.side⟩
      rw [List.length_map, hlength]
  | .field hcall hmark hfield =>
      rw [← hv] at hfield
      rw [select_field hcall hfield, ← hm.host]
      refine .access ?_ hm.slots fun w => ⟨rfl, rfl, rfl, hm.types, hm.values, rfl, hm.side⟩
      rw [Instr.recorded, Machine.step, hstack]
      rfl

theorem Takes.tally {pass text args} (h : Takes scope pass text args)
    (hside : scope.side.isSome → roots.side.isSome) {fuel live m base}
    (hfuel : 4 * text.length + 6 ≤ fuel) (hm : Agrees roots pass live m) (hstack : m.stack = base) :
    Tally roots (GivesArguments roots args.pass args.types args.rest base) m
      (args.code.map Instr.recorded) (take scope roots fuel live text) := by
  cases fuel with
  | zero => omega
  | succ fuel =>
  match h with
  | .nothing => exact .ok rfl ⟨rfl, rfl, hstack, hm⟩
  | .several hclose hargs =>
      rw [take]
      · exact hargs.tally hside (by omega) hm hstack
      · exact hclose

theorem TakesMore.tally {pass text args} (h : TakesMore scope pass text args)
    (hside : scope.side.isSome → roots.side.isSome) {fuel live m base}
    (hfuel : 4 * text.length + 5 ≤ fuel) (hm : Agrees roots pass live m) (hstack : m.stack = base) :
    Tally roots (GivesArguments roots args.pass args.types args.rest base) m
      (args.code.map Instr.recorded) (takeMore scope roots fuel live text) := by
  cases fuel with
  | zero => omega
  | succ fuel =>
  match h with
  | .more hpart hrest hargs =>
      have hlength := hpart.length_le
      rw [hrest, List.length_cons] at hlength
      rw [List.map_append]
      refine (hpart.tally hside (w := none) (by omega) rfl hm hstack).append fun m' r hr => ?_
      rw [hr.rest, hrest]
      refine (hargs.tally hside (by omega) hr.agrees hr.stack).map fun m'' more hmore => ?_
      refine ⟨_, rfl, ?_, hmore.rest, ?_, hmore.agrees⟩
      · simp [hr.ty, hmore.types]
      · simp [hmore.stack]
  | .last hpart hrest =>
      refine (hpart.tally hside (w := none) (by omega) rfl hm hstack).map fun m' r hr => ?_
      refine ⟨⟨[r.value], _, r.live⟩, ?_, congrArg (fun ty => [ty]) hr.ty, rfl, hr.stack, hr.agrees⟩
      rw [hr.rest, hrest]
      rfl

end

end Directive

/-! ## Directives -/

/-- Whether a program and an interpreted directive come to the same. -/
inductive Same (roots : Roots) (pass : Pass) (m : Machine (Recorder σ)) (p : Program (Recorder σ)) :
    Interpretation σ (Typed × Live σ) → Prop
  | ok {v : Typed} {live : Live σ} {m' : Machine (Recorder σ)} :
      m.eval roots p = .ok (v.value, m') → Agrees roots pass live m' →
      Same roots pass m p (.ok (v, live))
  | stopped {fault : EvalFault} {live : Live σ} : m.eval roots p = .error (fault, live.host) →
      (Machine.reached roots { m with stack := [] } p.code).locals.get? = live.slots →
      Same roots pass m p (.error (some (fault, live)))

theorem Pass.compile_same {pass' : Pass} {directive : String} {program : Program σ}
    (hside : scope.side.isSome → roots.side.isSome)
    (h : pass.compile scope directive = .ok (program, pass')) (hm : Agrees roots pass live m) :
    Same roots pass' m program.recorded (live.interpret scope roots directive) := by
  obtain ⟨part, hpart, rfl, rfl⟩ := compile_reads h
  have htally := hpart.tally hside (m := { m with stack := [] }) (w := none) (Nat.le_refl _) rfl
    hm.withStack rfl
  unfold Live.interpret
  dsimp only
  generalize Directive.expression _ _ _ _ _ _ _ = r at htally
  cases htally with
  | @ok m' r hrun hr =>
      have heval : m.eval roots (Program.recorded ⟨directive, part.code, part.ty⟩) =
          .ok (r.value.value, { m' with stack := [] }) := by
        rw [Machine.eval]
        refine Directive.bind_eq_ok.mpr ⟨m', hrun, ?_⟩
        rw [hr.stack]
        rfl
      have hrest := hr.rest.trans (hpart.rest_of_top rfl)
      rw [Directive.bind_eq_ok.mpr ⟨r, rfl, if_pos (by rw [hrest]; rfl)⟩]
      exact .ok heval hr.agrees.withStack
  | stopped hrun hslots =>
      refine .stopped ?_ hslots
      exact Directive.bind_eq_error.mpr (.inl hrun)

theorem Pass.compileAll_same {pass' : Pass} {directives : List String}
    {programs : List (Program σ)} (hside : scope.side.isSome → roots.side.isSome)
    (h : pass.compileAll scope directives = .ok (programs, pass')) (hm : Agrees roots pass live m) :
    (m.observeEach roots (programs.map Program.recorded)).map some =
      (live.interpretEach scope roots directives).map Live.observe := by
  induction directives generalizing pass programs live m with
  | nil => cases h; rfl
  | cons directive directives ih =>
      obtain ⟨program, next, programs, hcompile, hrest, rfl⟩ := compileAll_cons h
      have hsame := compile_same hside hcompile hm
      rw [List.map_cons, Machine.observeEach, Live.interpretEach]
      generalize live.interpret scope roots directive = r at hsame
      cases hsame with
      | ok heval hagrees =>
          rw [heval]
          simp only [List.map_cons, Live.observe, hagrees.slots, hagrees.host]
          rw [ih hrest hagrees]
      | stopped heval hslots =>
          rw [heval]
          simp only [List.map_cons, List.map_nil, Live.observe, hslots]

/-- The programs of directives that compile in one pass come to what the directives come to when
they are interpreted, one after the other: to the same value or the same fault, with the same
contents of the slots and after the same calls of the host, each with the same receiver and
arguments. That calls are written down changes nothing else about the programs. -/
theorem Pass.compileAll_correct {pass : Pass} {directives : List String}
    {programs : List (Program σ)} (hside : scope.side.isSome → roots.side.isSome)
    (h : ({} : Pass).compileAll scope directives = .ok (programs, pass)) (host : σ) :
    (({ host := { host } } : Machine (Recorder σ)).observeEach roots
        (programs.map Program.recorded)).map some =
      (({ host := { host } } : Live σ).interpretEach scope roots directives).map Live.observe ∧
    (({ host := { host } } : Machine (Recorder σ)).observeEach roots
        (programs.map Program.recorded)).map Observation.unrecorded =
      ({ host } : Machine σ).observeEach roots programs :=
  ⟨compileAll_same hside h .start, Machine.observeEach_recorded⟩

/-- Tickers with a ticker at their side. -/
def pairedScope : Scope Nat := ⟨⟨[ticker]⟩, .object "Ticker", some (.object "Ticker")⟩

def pairedRoots : Roots := ⟨.object ⟨0, 0⟩, some (.object ⟨1, 0⟩)⟩

/-- A store in an argument, a reuse that leaves an unfinished call behind, and a call on a stored
object with a stored argument. -/
def pairedDirectives : List String := ["^.tick(peer>1)>2", "<2?.tick(", "<1.tick(<2)"]

/-- The host is called twice, and the second directive has the value of the first. -/
theorem compileAll_correct_paired :
    ∃ programs pass, ({} : Pass).compileAll pairedScope pairedDirectives = .ok (programs, pass) ∧
      ((({ host := { host := 0 } } : Machine (Recorder Nat)).observeEach pairedRoots
        (programs.map Program.recorded)).map some).map (·.map (·.outcome)) =
      [some (.ok (.long 0)), some (.ok (.long 0)), some (.ok (.long 1))] := by
  have hcompile : (({} : Pass).compileAll pairedScope pairedDirectives).toOption.isSome := by
    decide +kernel
  cases h : ({} : Pass).compileAll pairedScope pairedDirectives with
  | error fault =>
      rw [h] at hcompile
      cases hcompile
  | ok result =>
      obtain ⟨programs, pass⟩ := result
      refine ⟨programs, pass, rfl, ?_⟩
      have hside : pairedScope.side.isSome → pairedRoots.side.isSome := fun _ => rfl
      rw [(Pass.compileAll_correct hside h 0).1]
      decide +kernel

end FlagSelect
