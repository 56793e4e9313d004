import FlagSelect.Proofs.Plan
import FlagSelect.Statement.Executor

/-!
# Evaluating the programs of a plan

Main statement: `Template.bindValues_harmless`.
-/

namespace FlagSelect

variable {σ : Type} {scope : Scope σ} {roots : Roots} {m : Machine σ} {flags : Flags}
  {programs : List (Program σ)} {e : Error}

def EvalFault.IsBreach : EvalFault → Prop
  | .breach _ => True
  | _ => False

theorem receiver_not_breach {name : String} {hostClass : Nat} {v : Value} {fault : EvalFault}
    (h : receiver name hostClass v = .error fault) : ¬ fault.IsBreach := by
  unfold receiver at h
  split at h
  · split at h
    · cases h
    · cases h; exact id
  · cases h; exact id
  · cases h; exact id

theorem Field.read_not_breach {f : Field σ} {v : Value} {host : σ} :
    Yields (fun fault => ¬ fault.IsBreach) (fun _ => True) (f.read v host) := by
  unfold Field.read
  split
  · exact trivial
  · next hreceiver => exact receiver_not_breach hreceiver

theorem Method.invoke_not_breach {f : Method σ} {v : Value} {args : List Value} {host : σ} :
    Yields (fun fault => ¬ fault.IsBreach) (fun _ => True) (f.invoke v args host) := by
  unfold Method.invoke
  split
  · next hreceiver => exact receiver_not_breach hreceiver
  · split
    · exact trivial
    · exact id

/-- Types that say nothing about values, so that any host respects them. -/
def Meaning.untyped (hside : scope.side.isSome → roots.side.isSome) : Meaning scope roots where
  Has _ _ := True
  Stops fault := ¬ fault.IsBreach
  record := trivial
  side ty hty := by
    obtain ⟨v, hv⟩ := Option.isSome_iff_exists.mp (hside (by simp [hty]))
    exact ⟨v, hv, trivial⟩
  literal _ _ _ _ := trivial
  read _ _ _ _ _ _ _ := Field.read_not_breach
  invoke _ _ _ _ _ _ _ _ _ _ := Method.invoke_not_breach

theorem Machine.length_evalEach_le (programs : List (Program σ)) :
    (m.evalEach roots programs).length ≤ programs.length := by
  induction programs generalizing m with
  | nil => exact Nat.le_refl 0
  | cons p rest ih =>
      rw [evalEach]
      split
      · exact Nat.succ_le_succ ih
      · exact Nat.succ_le_succ (Nat.zero_le _)

theorem Pass.evalEach_not_breach {ds : List String} {pass : Pass}
    (hside : scope.side.isSome → roots.side.isSome)
    (h : ({} : Pass).compileAll scope ds = .ok (programs, pass)) {host : σ} :
    ∀ r ∈ ({ host } : Machine σ).evalEach roots programs,
      Yields (fun fault => ¬ fault.IsBreach) (fun _ => True) r := by
  intro r hr
  rw [← List.map_snd_zip (Machine.length_evalEach_le programs)] at hr
  obtain ⟨⟨p, r⟩, hzip, rfl⟩ := List.mem_map.mp hr
  exact (evalEach_typed (M := .untyped hside) h Machine.follows_start p r hzip).mono
    fun _ _ => trivial

/-- What stops the programs of a plan is what stops one of them. -/
theorem evalAll_error (h : (evalAll flags roots m programs).1 = .error e) :
    ∃ p fault host, (p, .error (fault, host)) ∈ programs.zip (m.evalEach roots programs) ∧
      e = .ofEvalFault flags p.directive fault := by
  induction programs generalizing m with
  | nil => cases h
  | cons p rest ih =>
      unfold evalAll at h
      unfold Machine.evalEach
      split at h
      · next fault host heval =>
          cases h
          exact ⟨p, fault, host, by simp [heval], rfl⟩
      · next v m' heval =>
          split at h
          · cases h
          · next err host hrest =>
              cases h
              obtain ⟨q, fault, host, hq, he⟩ := ih (by rw [hrest])
              exact ⟨q, fault, host, by simp [heval, hq], he⟩

/-- An outcome that is no fatal error. An aggregate is none: it gathers resource errors alone. -/
def Harmless {α : Type} (r : Except Error α) : Prop :=
  ∀ e, r = .error e → e.isFatal = false

theorem Template.evalEach_harmless {t : Template σ} {p : Plan σ} (h : t.plan flags = .ok p)
    (roots : Roots) (hside : t.scope.side.isSome → roots.side.isSome) {host : σ} :
    ∀ r ∈ ({ host } : Machine σ).evalEach roots (p.bindings.map (·.program)),
      Yields (fun fault => ¬ fault.IsBreach) (fun _ => True) r := by
  obtain ⟨-, pass, hpass⟩ := plan_ok h
  exact Pass.evalEach_not_breach hside hpass

theorem Template.bindValues_harmless {t : Template σ} {p : Plan σ} {side : Option Value}
    (h : t.plan flags = .ok p) (hside : t.scope.side.isSome → side.isSome) (record : Object)
    (host : σ) : Harmless (p.bindValues side record host).1 := by
  intro e he
  obtain ⟨q, fault, host', hq, rfl⟩ := evalAll_error he
  have hfault := evalEach_harmless h ⟨.object record, side⟩ hside _ (List.of_mem_zip hq).2
  cases fault with
  | breach cause => exact absurd trivial hfault
  | _ => rfl

/-! ## Values -/

/-- Whether programs, one after the other on one machine, have these values, and leave the machine
as it is then. -/
inductive Evaluates (roots : Roots) : Machine σ → List (Program σ) → List Value → Machine σ → Prop
    where
  | nil {m : Machine σ} : Evaluates roots m [] [] m
  | cons {m m' m'' : Machine σ} {p : Program σ} {rest : List (Program σ)} {v : Value}
      {vs : List Value} : m.eval roots p = .ok (v, m') → Evaluates roots m' rest vs m'' →
      Evaluates roots m (p :: rest) (v :: vs) m''

variable {vs : List Value} {host : σ}

theorem evaluates_of_evalAll (h : evalAll flags roots m programs = (.ok vs, host)) :
    ∃ m', Evaluates roots m programs vs m' ∧ m'.host = host := by
  induction programs generalizing m vs with
  | nil =>
      cases h
      exact ⟨m, .nil, rfl⟩
  | cons p rest ih =>
      unfold evalAll at h
      split at h
      · cases h
      next heval =>
        split at h <;> rename_i hrest <;> cases h
        obtain ⟨m', hvalues, hhost⟩ := ih hrest
        exact ⟨m', .cons heval hvalues, hhost⟩

theorem evalAll_of_evaluates {m' : Machine σ} (h : Evaluates roots m programs vs m') :
    evalAll flags roots m programs = (.ok vs, m'.host) := by
  induction h with
  | nil => rfl
  | cons heval _ ih =>
      unfold evalAll
      simp only [heval, ih]

/-- A failure is that of the first program that fails. -/
theorem evalAll_eq_error (h : evalAll flags roots m programs = (.error e, host)) :
    ∃ before p after vs m' fault, programs = before ++ p :: after ∧
      Evaluates roots m before vs m' ∧ m'.eval roots p = .error (fault, host) ∧
      e = .ofEvalFault flags p.directive fault := by
  induction programs generalizing m with
  | nil => cases h
  | cons p rest ih =>
      unfold evalAll at h
      split at h
      next heval =>
        cases h
        exact ⟨[], p, rest, [], m, _, rfl, .nil, heval, rfl⟩
      next heval =>
        split at h <;> rename_i hrest <;> cases h
        obtain ⟨before, q, after, vs, m', fault, rfl, hvalues, hfault, he⟩ := ih hrest
        exact ⟨p :: before, q, after, _, m', fault, rfl, .cons heval hvalues, hfault, he⟩

end FlagSelect
