import FlagSelect.Proofs.Directive.Completeness
import FlagSelect.Proofs.Directive.Correctness

/-!
# Stores

What a directive stores it says in its text, and both the pass and the machine hold on to it until
the next store to the same slot. Main statements: `Pass.compile_stores`, `Pass.answers_of_known` and
`Machine.eval_stores`.
-/

namespace FlagSelect

variable {σ : Type} {scope : Scope σ} {i : Slot} {ty : Ty} {code code' : List (Instr σ)}

namespace Directive

variable {text text' l rest rest' : List Char} {name : String} {pass pass' pass'' : Pass}

/-- The slots that a text mentions, be it in `<N` or in `>N`. -/
def mentioned : List Char → List Slot
  | [] => []
  | c :: l =>
    if c = '<' ∨ c = '>' then ((numeral? l).map Prod.fst).toList ++ mentioned l else mentioned l

/-- A directive that starts with `<N?`. -/
def Asks (i : Slot) (directive : String) : Prop :=
  (asked? (skipBlanks directive.toList)).map Prod.fst = some i

instance {directive : String} : Decidable (Asks i directive) :=
  inferInstanceAs (Decidable (_ = _))

theorem asks_iff {directive : String} : Asks i directive ↔
    ∃ l rest, skipBlanks directive.toList = '<' :: l ∧ Numeral l i ('?' :: rest) := by
  constructor
  · intro h
    obtain ⟨⟨j, rest⟩, hasked, hi⟩ := Option.map_eq_some_iff.mp h
    obtain rfl : j = i := hi
    unfold asked? at hasked
    split at hasked
    · next l hl =>
        split at hasked
        · next hnumeral =>
            cases hasked
            obtain ⟨k, hslot, hk⟩ := Option.map_eq_some_iff.mp hnumeral
            obtain ⟨rfl, hdrop⟩ := Prod.mk.inj hk
            exact ⟨l, rest, hl, hslot, hdrop⟩
        · cases hasked
    · cases hasked
  · rintro ⟨l, rest, hl, hi⟩
    rw [Asks, hl, asked?_eq hi]
    rfl

theorem mentioned_suffix (h : l <:+ text) : mentioned l ⊆ mentioned text := by
  obtain ⟨front, rfl⟩ := h
  induction front with
  | nil => exact List.Subset.refl _
  | cons c front ih =>
      rw [List.cons_append, mentioned]
      split
      · exact List.subset_append_of_subset_right _ ih
      · exact ih

theorem mem_mentioned (h : '>' :: l <:+ text) (hi : Numeral l i rest) : i ∈ mentioned text := by
  refine mentioned_suffix h ?_
  rw [mentioned, if_pos (.inr rfl), numeral?_eq hi]
  exact List.mem_cons_self

/-! ## Suffixes -/

theorem skipBlanks_suffix : skipBlanks text <:+ text :=
  List.dropWhile_suffix _

theorem suffix_of_skipBlanks {c : Char} (h : skipBlanks text = c :: l) : l <:+ text :=
  (List.suffix_cons c l).trans (h ▸ skipBlanks_suffix)

theorem Numeral.suffix (h : Numeral l i rest) : rest <:+ l :=
  h.2 ▸ List.dropWhile_suffix _

theorem Numeral.suffix_cons {c : Char} (h : Numeral l i (c :: rest)) : rest <:+ l :=
  (List.suffix_cons c rest).trans h.suffix

theorem name?_suffix (h : name? text = some (name, rest)) : rest <:+ text := by
  obtain ⟨c, l, rfl, hc⟩ := name?_cons h
  rw [name?, if_pos hc] at h
  cases h
  exact (List.dropWhile_suffix _).trans (List.suffix_cons c l)

theorem skipBalanced_suffix {atComma : Bool} {depth : Nat} :
    skipBalanced atComma depth text <:+ text := by
  induction text generalizing depth with
  | nil => exact List.suffix_refl _
  | cons c l ih =>
      have hcons := List.suffix_cons c l
      unfold skipBalanced
      split
      · exact ih.trans hcons
      split
      · cases depth with
        | zero => exact List.suffix_refl _
        | succ depth => exact ih.trans hcons
      split
      · exact List.suffix_refl _
      · exact ih.trans hcons

theorem skipRest_suffix {place : Place} : skipRest place text <:+ text := by
  cases place with
  | top => exact List.nil_suffix
  | argument => exact skipBalanced_suffix
  | group => exact skipBalanced_suffix

/-! ## Readings -/

/-- What the code for the front of a text stores: what the text says, and the pass knows the type of
it. -/
structure Stores (text : List Char) (pass : Pass) (code : List (Instr σ)) (rest : List Char)
    (pass' : Pass) : Prop where
  rest : rest <:+ text
  mentioned : ∀ i, .storeLocal i ∈ code → i ∈ mentioned text
  stored : ∀ i, .storeLocal i ∈ code → ∃ ty, pass'.locals.get? i = some ty
  kept : ∀ i, .storeLocal i ∉ code → pass'.locals.get? i = pass.locals.get? i

/-- Code without stores. -/
theorem Stores.nothing (hrest : rest <:+ text) (hcode : ∀ i, .storeLocal i ∉ code)
    (hlocals : pass'.locals = pass.locals) : Stores text pass code rest pass' where
  rest := hrest
  mentioned i hi := absurd hi (hcode i)
  stored i hi := absurd hi (hcode i)
  kept _ _ := by rw [hlocals]

/-- One instruction that is no store. -/
theorem Stores.instr {instr : Instr σ} (hrest : rest <:+ text) (hinstr : ∀ i, .storeLocal i ≠ instr)
    (hlocals : pass'.locals = pass.locals) : Stores text pass [instr] rest pass' :=
  .nothing hrest (fun i hi => hinstr i (List.mem_singleton.mp hi)) hlocals

theorem Stores.store (h : '>' :: l <:+ text) (hi : Numeral l i rest) :
    Stores (σ := σ) text pass [.storeLocal i] rest
      { pass with locals := pass.locals.set i ty } where
  rest := hi.suffix.trans ((List.suffix_cons _ l).trans h)
  mentioned j hj := by
    cases List.mem_singleton.mp hj
    exact mem_mentioned h hi
  stored j hj := by
    cases List.mem_singleton.mp hj
    exact ⟨ty, Slots.get?_set_self⟩
  kept j hj := Slots.get?_set_of_ne fun h => hj (h ▸ List.mem_singleton_self _)

theorem Stores.append (h : Stores text pass code rest pass')
    (h' : Stores rest pass' code' rest' pass'') :
    Stores text pass (code ++ code') rest' pass'' where
  rest := h'.rest.trans h.rest
  mentioned i hi := by
    rcases List.mem_append.mp hi with hi | hi
    · exact h.mentioned i hi
    · exact mentioned_suffix h.rest (h'.mentioned i hi)
  stored i hi := by
    by_cases hlater : .storeLocal i ∈ code'
    · exact h'.stored i hlater
    · rw [h'.kept i hlater]
      exact h.stored i ((List.mem_append.mp hi).resolve_right hlater)
  kept i hi := by
    rw [List.mem_append, not_or] at hi
    rw [h'.kept i hi.2, h.kept i hi.1]

theorem Stores.cons {instr : Instr σ} (h : Stores text pass code rest pass')
    (hsuffix : text <:+ text') (hinstr : ∀ i, .storeLocal i ≠ instr) :
    Stores text' pass (instr :: code) rest pass' :=
  (Stores.instr hsuffix hinstr rfl).append h

/-- Text in front of what is read does not matter. -/
theorem Stores.after (h : Stores text pass code rest pass') (hsuffix : text <:+ text') :
    Stores text' pass code rest pass' where
  rest := h.rest.trans hsuffix
  mentioned i hi := mentioned_suffix hsuffix (h.mentioned i hi)
  stored := h.stored
  kept := h.kept

theorem Stores.upto (h : Stores text pass code rest pass') (hsuffix : rest' <:+ rest) :
    Stores text pass code rest' pass' :=
  { h with rest := hsuffix.trans h.rest }

mutual

theorem Reads.stores {place ctx pass text part} (h : Reads scope place ctx pass text part) :
    Stores text pass part.code part.rest part.pass := by
  match h with
  | .finish _ => exact .nothing skipBlanks_suffix (fun _ hi => by cases hi) rfl
  | .value hstart htail => exact (hstart.stores.after skipBlanks_suffix).append htail.stores
  | .reused hl hi _ =>
      have hrest := hi.suffix_cons.trans (suffix_of_skipBlanks hl)
      exact .instr (skipRest_suffix.trans hrest) nofun rfl
  | .pending hl hi _ hpart =>
      exact hpart.stores.after (hi.suffix_cons.trans (suffix_of_skipBlanks hl))
  | .select hl hname hhead htail =>
      have hrest := (name?_suffix hname).trans (skipBlanks_suffix.trans (suffix_of_skipBlanks hl))
      exact (hhead.stores.after hrest).append htail.stores
  | .store hl hi htail => exact (Stores.store (hl ▸ skipBlanks_suffix) hi).append htail.stores

theorem Starts.stores {pass text part} (h : Starts scope pass text part) :
    Stores text pass part.code part.rest part.pass := by
  match h with
  | .load hi _ _ => exact .instr (hi.suffix.trans (List.suffix_cons _ _)) nofun rfl
  | .side _ =>
      refine .instr (List.suffix_cons _ _) (fun i hi => ?_) rfl
      split at hi <;> cases hi
  | .group hpart hrest =>
      have hclose := hrest ▸ List.suffix_cons ')' _
      exact (hpart.stores.after (List.suffix_cons _ _)).upto hclose
  | .literal _ _ => exact .instr (List.dropWhile_suffix _) nofun rfl
  | .member hname hpart =>
      exact hpart.stores.cons (name?_suffix hname) nofun

theorem Selects.stores {receiver name pass text part}
    (h : Selects scope receiver name pass text part) :
    Stores text pass part.code part.rest part.pass := by
  match h with
  | .call hargs _ =>
      exact (hargs.stores.after (skipBlanks_suffix.trans (List.suffix_cons _ _))).append
        (.instr (List.suffix_refl _) nofun rfl)
  | .field _ _ _ => exact .instr (List.suffix_refl _) nofun rfl

theorem Takes.stores {pass text args} (h : Takes scope pass text args) :
    Stores text pass args.code args.rest args.pass := by
  match h with
  | .nothing => exact .nothing (List.suffix_cons _ _) (fun _ hi => by cases hi) rfl
  | .several _ hargs => exact hargs.stores

theorem TakesMore.stores {pass text args} (h : TakesMore scope pass text args) :
    Stores text pass args.code args.rest args.pass := by
  match h with
  | .more hpart hrest hargs =>
      exact (hpart.stores.upto (hrest ▸ List.suffix_cons _ _)).append hargs.stores
  | .last hpart hrest => exact hpart.stores.upto (hrest ▸ List.suffix_cons _ _)

end

end Directive

open Directive (mentioned Asks Stores)

namespace Pass

variable {pass pass' : Pass} {directive : String} {program : Program σ}

theorem compile_stores (h : pass.compile scope directive = .ok (program, pass')) :
    ∃ rest, Stores directive.toList pass program.code rest pass' := by
  obtain ⟨part, hpart, rfl, rfl⟩ := compile_reads h
  exact ⟨part.rest, hpart.stores⟩

/-- In this pass whatever asks for the slot is no more than a look into it. -/
def Answers (scope : Scope σ) (pass : Pass) (i : Slot) (ty : Ty) : Prop :=
  ∀ directive, Asks i directive →
    pass.compile scope directive = .ok (⟨directive, [.loadLocal i], ty⟩, pass)

theorem answers_of_known (h : pass.locals.get? i = some ty) : pass.Answers scope i ty := by
  intro directive hasks
  obtain ⟨l, rest, hl, hi⟩ := Directive.asks_iff.mp hasks
  refine compile_of_reads ?_ (Directive.Reads.reused hl hi h)
  have hmem : '<' ∈ directive.toList :=
    Directive.skipBlanks_suffix.subset (hl ▸ List.mem_cons_self)
  rw [Text.allBlank, List.all_eq_false]
  exact ⟨'<', hmem, by decide⟩

end Pass

namespace Machine

variable {roots : Roots} {m m' : Machine σ} {p : Program σ} {v w : Value}

theorem step_locals {instr : Instr σ} (h : m.step roots instr = .ok m')
    (hi : instr ≠ .storeLocal i) : m'.locals.get? i = m.locals.get? i := by
  cases instr with
  | loadRecord => cases h; rfl
  | resolveSide =>
      rw [step] at h
      split at h
      · cases h; rfl
      · cases h
  | loadSide =>
      rw [step] at h
      split at h
      · cases h; rfl
      · cases h
  | loadField f =>
      rw [step] at h
      split at h
      · obtain ⟨_, -, h⟩ := Directive.bind_eq_ok.mp h
        cases h
        rfl
      · cases h
  | loadLocal j =>
      rw [step] at h
      split at h
      · cases h; rfl
      · cases h
  | storeLocal j =>
      rw [step] at h
      split at h
      · cases h
        exact Slots.get?_set_of_ne fun hj => hi (hj ▸ rfl)
      · cases h
  | invoke method argc =>
      rw [step] at h
      split at h
      · obtain ⟨_, -, h⟩ := Directive.bind_eq_ok.mp h
        cases h
        rfl
      · cases h
  | push v => cases h; rfl

theorem run_locals (h : m.run roots code = .ok m') (hi : .storeLocal i ∉ code) :
    m'.locals.get? i = m.locals.get? i := by
  induction code generalizing m with
  | nil => cases h; rfl
  | cons instr code ih =>
      rw [List.mem_cons, not_or] at hi
      obtain ⟨next, hstep, h⟩ := Directive.bind_eq_ok.mp h
      rw [ih h hi.2, step_locals hstep (Ne.symm hi.1)]

/-- The value that lies on top when code stores to the slot for the last time. -/
def StoresLast (roots : Roots) (m : Machine σ) (code : List (Instr σ)) (i : Slot) (w : Value) :
    Prop :=
  ∃ front back mid, code = front ++ .storeLocal i :: back ∧ .storeLocal i ∉ back ∧
    m.run roots front = .ok mid ∧ mid.stack.head? = some w

theorem step_storeLocal (h : m.step roots (.storeLocal i) = .ok m') :
    ∃ w, m.stack.head? = some w ∧ m'.locals.get? i = some w := by
  rw [step] at h
  split at h
  · next w rest hstack =>
      cases h
      exact ⟨w, by rw [hstack]; rfl, Slots.get?_set_self⟩
  · cases h

theorem run_stores (h : m.run roots code = .ok m') (hi : .storeLocal i ∈ code) :
    ∃ w, m.StoresLast roots code i w ∧ m'.locals.get? i = some w := by
  induction code generalizing m with
  | nil => cases hi
  | cons instr code ih =>
      obtain ⟨next, hstep, hrun⟩ := Directive.bind_eq_ok.mp h
      by_cases hlater : .storeLocal i ∈ code
      · obtain ⟨w, ⟨front, back, mid, rfl, hback, hfront, hw⟩, hslot⟩ := ih hrun hlater
        refine ⟨w, ⟨instr :: front, back, mid, rfl, hback, ?_, hw⟩, hslot⟩
        rw [run_cons, hstep]
        exact hfront
      · obtain rfl := (List.mem_cons.mp hi).resolve_right hlater
        obtain ⟨w, hw, hslot⟩ := step_storeLocal hstep
        refine ⟨w, ⟨[], code, m, rfl, hlater, rfl, hw⟩, ?_⟩
        exact (run_locals hrun hlater).trans hslot

theorem eval_eq_ok (h : m.eval roots p = .ok (v, m')) :
    ∃ last, ({ m with stack := [] } : Machine σ).run roots p.code = .ok last ∧
      m' = { last with stack := [] } := by
  obtain ⟨last, hrun, h⟩ := Directive.bind_eq_ok.mp h
  refine ⟨last, hrun, ?_⟩
  split at h <;> cases h
  rfl

theorem eval_locals (h : m.eval roots p = .ok (v, m')) (hi : .storeLocal i ∉ p.code) :
    m'.locals.get? i = m.locals.get? i := by
  obtain ⟨last, hrun, rfl⟩ := eval_eq_ok h
  have hlocals := run_locals hrun hi
  exact hlocals

/-- After a program the slot holds what the program has stored in it last. -/
theorem eval_stores (h : m.eval roots p = .ok (v, m')) (hi : .storeLocal i ∈ p.code) :
    ∃ w, ({ m with stack := [] } : Machine σ).StoresLast roots p.code i w ∧
      m'.locals.get? i = some w := by
  obtain ⟨last, hrun, rfl⟩ := eval_eq_ok h
  have hstores := run_stores hrun hi
  exact hstores

theorem eval_loadLocal (hcode : p.code = [.loadLocal i]) (hw : m.locals.get? i = some w) :
    m.eval roots p = .ok (w, { m with stack := [] }) := by
  have hrun : ({ m with stack := [] } : Machine σ).run roots p.code =
      .ok (({ m with stack := [] } : Machine σ).push w) := by
    rw [hcode, run_cons, step]
    simp only [hw]
    rfl
  rw [eval, hrun]
  rfl

end Machine

end FlagSelect
