import FlagSelect.Proofs.Directive.Supply

/-!
# Directives that fail

A directive that fails leaves its pass as it stood there: with slots that its code, which is lost,
would have filled, and with the side object taken for fetched. Programs of later directives may
count on either. Main statement: `Pass.attempts_supply`.
-/

namespace FlagSelect

variable {σ : Type} {scope : Scope σ} {pass : Pass} {ds : List String} {item : Item}

/-- A directive that has been compiled, be it without success. -/
structure Attempt (σ : Type) where
  before : Pass
  outcome : Directive.Outcome (Program σ × Pass)

namespace Attempt

def after (a : Attempt σ) : Pass :=
  match a.outcome with
  | .ok (_, pass) => pass
  | .error (_, pass) => pass

def program? (a : Attempt σ) : Option (Program σ) :=
  match a.outcome with
  | .ok (program, _) => some program
  | .error _ => none

/-- Whether the directive has failed and left something known that was not known before. -/
def Orphans (a : Attempt σ) (item : Item) : Prop :=
  a.program? = none ∧ ¬ a.before.Knows item ∧ a.after.Knows item

/-- The instructions of the program, or none where there is no program. -/
def emitted (a : Attempt σ) : List (Instr σ) := (a.program?.map (·.code)).getD []

def programs (attempts : List (Attempt σ)) : List (Program σ) := attempts.filterMap program?

/-- The instructions of the programs, one program after the other. -/
def code (attempts : List (Attempt σ)) : List (Instr σ) := attempts.flatMap emitted

end Attempt

/-- Compiles directives in order in one pass, which goes on after a failure as it stands there. -/
def Pass.attempts (scope : Scope σ) (pass : Pass) : List String → List (Attempt σ)
  | [] => []
  | directive :: rest =>
    let a : Attempt σ := ⟨pass, pass.compile scope directive⟩
    a :: a.after.attempts scope rest

namespace Attempt

variable {a : Attempt σ} {p : Program σ} {done todo : List (Attempt σ)} {directive : String}

theorem emitted_eq (hp : a.program? = some p) : a.emitted = p.code := by
  rw [emitted, hp]
  rfl

theorem mem_supplied_snoc :
    item ∈ supplied (code (done ++ [a])) ↔
      item ∈ supplied (code done) ∨ item ∈ supplied a.emitted := by
  rw [code, List.flatMap_append, List.flatMap_singleton, mem_supplied_append]
  rfl

theorem accounts (h : a.outcome = a.before.compile scope directive) (hp : a.program? = some p) :
    Accounts scope a.before 0 p.code a.after 1 := by
  unfold program? at hp
  split at hp
  · next program pass houtcome =>
      cases hp
      rw [after, houtcome]
      exact Pass.compile_accounts (h.symm.trans houtcome)
  · cases hp

/-- What is known after a directive was known before, or comes from its program, or is orphaned. -/
theorem knows_after (h : a.outcome = a.before.compile scope directive)
    (hitem : a.after.Knows item) :
    a.before.Knows item ∨ item ∈ supplied a.emitted ∨ a.Orphans item := by
  cases hp : a.program? with
  | none =>
      by_cases hbefore : a.before.Knows item
      · exact .inl hbefore
      · exact .inr (.inr ⟨hp, hbefore, hitem⟩)
  | some p =>
      rcases ((accounts h hp).knows item).mp hitem with hbefore | hsupplied
      · exact .inl hbefore
      · exact .inr (.inl (emitted_eq hp ▸ hsupplied))

end Attempt

namespace Pass

open Attempt (programs code)

variable {a : Attempt σ} {p : Program σ} {done todo : List (Attempt σ)}

theorem attempts_split (h : pass.attempts scope ds = done ++ a :: todo) :
    ∃ directive, a.outcome = a.before.compile scope directive := by
  induction ds generalizing pass done with
  | nil => simp [attempts] at h
  | cons d ds ih =>
      cases done with
      | nil =>
          obtain ⟨rfl, -⟩ := List.cons.inj h
          exact ⟨d, rfl⟩
      | cons b done => exact ih (List.cons.inj h).2

/-- What is known at some point comes from the start, from a program or from a failure. -/
theorem attempts_knows (h : pass.attempts scope ds = done ++ a :: todo)
    (hitem : a.before.Knows item) :
    pass.Knows item ∨ item ∈ supplied (code done) ∨ ∃ b ∈ done, b.Orphans item := by
  induction ds generalizing pass done with
  | nil => simp [attempts] at h
  | cons d ds ih =>
      cases done with
      | nil =>
          obtain ⟨rfl, -⟩ := List.cons.inj h
          exact .inl hitem
      | cons b done =>
          obtain ⟨rfl, hrest⟩ := List.cons.inj h
          rw [code, List.flatMap_cons, mem_supplied_append]
          rcases ih hrest with hknown | hsupplied | ⟨c, hc, horphan⟩
          · rcases Attempt.knows_after rfl hknown with hbefore | hsupplied | horphan
            · exact .inl hbefore
            · exact .inr (.inl (.inl hsupplied))
            · exact .inr (.inr ⟨_, List.mem_cons_self, horphan⟩)
          · exact .inr (.inl (.inr hsupplied))
          · exact .inr (.inr ⟨c, List.mem_cons_of_mem _ hc, horphan⟩)

theorem not_knows_start : ¬ ({} : Pass).Knows item := by
  cases item <;> simp [Knows]

/-- What an instruction needs has been supplied in front of it, unless a failure has orphaned it. -/
theorem attempts_needs (h : ({} : Pass).attempts scope ds = done ++ a :: todo)
    (hp : a.program? = some p) {front back : List (Instr σ)} {instr : Instr σ}
    (hcode : p.code = front ++ instr :: back) (hneeds : instr.needs? = some item) :
    item ∈ supplied (code done ++ front) ∨ ∃ b ∈ done, b.Orphans item := by
  obtain ⟨directive, houtcome⟩ := attempts_split h
  rw [mem_supplied_append]
  rcases (Attempt.accounts houtcome hp).needs front instr back item hcode hneeds with
    hknown | hfront
  · rcases attempts_knows h hknown with hstart | hdone | horphan
    · exact absurd hstart not_knows_start
    · exact .inl (.inl hdone)
    · exact .inr horphan
  · exact .inl (.inr hfront)

section Evaluation

variable {roots : Roots} {m m' : Machine σ} {v : Value} {cause : Breach} {host : σ}
  (hside : scope.side.isSome → roots.side.isSome)

theorem attempts_holds (h : ({} : Pass).attempts scope ds = done ++ a :: todo)
    (hp : a.program? = some p) (hm : ∀ item ∈ supplied (code done), m.Holds item)
    (heval : m.eval roots p = .ok (v, m')) :
    ∀ item ∈ supplied (code (done ++ [a])), m'.Holds item := by
  obtain ⟨directive, houtcome⟩ := attempts_split h
  intro item hitem
  rw [Attempt.mem_supplied_snoc, Attempt.emitted_eq hp] at hitem
  exact Machine.eval_holds (Attempt.accounts houtcome hp) heval (hitem.imp_left (hm item))

include hside

/-- A program only asks in vain for what a failure has orphaned, if the machine holds what the
programs before it have supplied. -/
theorem attempts_eval (h : ({} : Pass).attempts scope ds = done ++ a :: todo)
    (hp : a.program? = some p) (hm : ∀ item ∈ supplied (code done), m.Holds item)
    (heval : m.eval roots p = .error (.breach cause, host)) :
    ∃ item, cause = item.breach ∧ ∃ b ∈ done, b.Orphans item := by
  obtain ⟨directive, houtcome⟩ := attempts_split h
  obtain ⟨front, instr, back, item, hcode, hneeds, hcause, hlacks, hfront⟩ :=
    Machine.eval_breach (Attempt.accounts houtcome hp) hside heval
  rcases attempts_needs h hp hcode hneeds with hsupplied | horphan
  · rcases mem_supplied_append.mp hsupplied with hdone | hitem
    · exact absurd (hm item hdone) hlacks
    · exact absurd hitem hfront
  · exact ⟨item, hcause, horphan⟩

-- By induction on the directives that are still to come, from a machine that holds what the programs
-- of the others have supplied.
theorem attempts_breach (h : ({} : Pass).attempts scope ds = done ++ todo)
    (hm : ∀ item ∈ supplied (code done), m.Holds item)
    (hbreach : (p, .error (.breach cause, host)) ∈
      (programs todo).zip (m.evalEach roots (programs todo))) :
    ∃ front a back item, done ++ todo = front ++ a :: back ∧ a.program? = some p ∧
      cause = item.breach ∧ ∃ b ∈ front, b.Orphans item := by
  induction todo generalizing done m with
  | nil => cases hbreach
  | cons a todo ih =>
      have hshift : done ++ a :: todo = (done ++ [a]) ++ todo := by simp
      cases hp : a.program? with
      | none =>
          have hprograms : programs (a :: todo) = programs todo := List.filterMap_cons_none hp
          rw [hprograms] at hbreach
          rw [hshift] at h ⊢
          refine ih h (fun item hitem => hm item ?_) hbreach
          rw [Attempt.mem_supplied_snoc, Attempt.emitted, hp] at hitem
          exact hitem.resolve_right nofun
      | some q =>
          have hprograms : programs (a :: todo) = q :: programs todo :=
            List.filterMap_cons_some hp
          rw [hprograms, Machine.evalEach] at hbreach
          cases heval : m.eval roots q with
          | error stopped =>
              simp only [heval, List.zip_cons_cons, List.zip_nil_right, List.mem_singleton,
                Prod.mk.injEq] at hbreach
              obtain ⟨rfl, hstopped⟩ := hbreach
              rw [← hstopped] at heval
              obtain ⟨item, hcause, horphan⟩ := attempts_eval hside h hp hm heval
              exact ⟨done, a, todo, item, rfl, hp, hcause, horphan⟩
          | ok r =>
              obtain ⟨v, m'⟩ := r
              simp only [heval, List.zip_cons_cons, List.mem_cons, Prod.mk.injEq, reduceCtorEq,
                and_false, false_or] at hbreach
              have hholds := attempts_holds h hp hm heval
              rw [hshift] at h ⊢
              exact ih h hholds hbreach

end Evaluation

/-- Directives are compiled in order in one pass, and those that fail have no programs. Then each
program finds what it needs, be it the value of a slot or the side object, supplied by an
instruction in front, unless a directive in front that failed was the first to make it known to the
pass; and where the programs run in order on one machine, nothing but the lack of something orphaned
in this way can breach the rules of the machine. -/
theorem attempts_supply (scope : Scope σ) (ds : List String) (roots : Roots)
    (hside : scope.side.isSome → roots.side.isSome) (host : σ) :
    (∀ done a todo p front instr back item,
      ({} : Pass).attempts scope ds = done ++ a :: todo → a.program? = some p →
      p.code = front ++ instr :: back → instr.needs? = some item →
      item ∈ supplied (code done ++ front) ∨ ∃ b ∈ done, b.Orphans item) ∧
    ∀ p cause host', (p, .error (.breach cause, host')) ∈
      (programs (({} : Pass).attempts scope ds)).zip
        (({ host } : Machine σ).evalEach roots (programs (({} : Pass).attempts scope ds))) →
      ∃ done a todo item, ({} : Pass).attempts scope ds = done ++ a :: todo ∧
        a.program? = some p ∧ cause = item.breach ∧ ∃ b ∈ done, b.Orphans item := by
  refine ⟨fun _ _ _ _ _ _ _ _ h hp hcode hneeds => attempts_needs h hp hcode hneeds,
    fun p cause host' hbreach => ?_⟩
  exact attempts_breach hside (List.nil_append _).symm nofun hbreach

/-- A scope in which everything starts from values of no particular type. -/
def openScope : Scope Unit := ⟨{}, .any, some .any⟩

/-- The first directive fails behind a store, and the second asks for what would be in the slot. -/
theorem attempts_supply_store :
    ∃ done a todo, ({} : Pass).attempts openScope ["^>0.", "<0"] = done ++ a :: todo ∧
      ∃ b ∈ done, b.Orphans (.slot 0) := by
  have hside : openScope.side.isSome → (some Value.null).isSome := fun _ => rfl
  obtain ⟨-, hbreaches⟩ := attempts_supply openScope ["^>0.", "<0"] ⟨.null, some .null⟩ hside ()
  obtain ⟨done, a, todo, item, h, -, hcause, horphan⟩ :=
    hbreaches ⟨"<0", [.loadLocal 0], .any⟩ (.unsetSlot 0) () (.head _)
  cases item with
  | side => cases hcause
  | slot i =>
      obtain rfl := Breach.unsetSlot.inj hcause
      exact ⟨done, a, todo, h, horphan⟩

/-- Behind a failure a slot is asked for that no instruction fills, and a side object that no
instruction fetches. -/
theorem attempts_poisoned :
    ({ host := () } : Machine Unit).evalEach ⟨.null, some .null⟩
        (programs (({} : Pass).attempts openScope ["^>0.", "<0"])) =
      [.error (.breach (.unsetSlot 0), ())] ∧
    ({ host := () } : Machine Unit).evalEach ⟨.null, some .null⟩
        (programs (({} : Pass).attempts openScope ["^.", "^"])) =
      [.error (.breach .sideUnresolved, ())] :=
  ⟨rfl, rfl⟩

end Pass

end FlagSelect
