import FlagSelect.Proofs.Directive.Members
import FlagSelect.Proofs.Directive.Sequence
import FlagSelect.Proofs.Plan
import FlagSelect.Storage.Statement

/-!
# Type soundness

Over a schema whose members keep to their declarations, the programs of directives keep to the types
that the directives were given. Main statement: `Pass.compileAll_sound`.
-/

namespace FlagSelect

variable {σ : Type} {schema : Schema σ} {scope : Scope σ} {roots : Roots} {ty : Ty} {v : Value}

/-- Whether a value may stand where a type is declared. Null may stand anywhere, and anything where
an object of no particular type is wanted. -/
inductive Conforms (schema : Schema σ) : Ty → Value → Prop
  | null {ty : Ty} : Conforms schema ty .null
  | any {v : Value} : Conforms schema .any v
  | anything {v : Value} : Conforms schema (.scalar .object) v
  | scalar {k : Kind} {v : Value} : v.kind = k → Conforms schema (.scalar k) v
  | object {name : String} {t : HostType σ} {o : Object} : schema.find? name = some t →
      o.hostClass = t.hostClass → Conforms schema (.object name) (.object o)

/-- Whether getters and methods, on objects of their type and with arguments for their parameters,
give values of the types that they declare. -/
structure Schema.Honest (schema : Schema σ) : Prop where
  fields : ∀ t ∈ schema.types, ∀ f ∈ t.fields, ∀ (o : Object) host, o.hostClass = t.hostClass →
    Conforms schema f.ty (f.get o host).1
  methods : ∀ t ∈ schema.types, ∀ m ∈ t.methods, ∀ (o : Object) args host,
    o.hostClass = t.hostClass → List.Forall₂ (Conforms schema) m.params args →
    ∀ v host', m.call o args host = (.ok v, host') → Conforms schema m.result v

/-- The faults that are not the fault of the program. -/
inductive EvalFault.External : EvalFault → Prop
  | nullReceiver {member} : External (.nullReceiver member)
  | host {member message} : External (.host member message)

/-- What a receiver of a registered type is. -/
theorem Conforms.receiver {name member : String} {t : HostType σ}
    (h : Conforms schema (.object name) v) (ht : schema.find? name = some t) :
    (∃ o, receiver member t.hostClass v = .ok o ∧ o.hostClass = t.hostClass) ∨
      receiver member t.hostClass v = .error (.nullReceiver member) := by
  cases h with
  | null => exact .inr rfl
  | @object _ u o hu ho =>
      obtain rfl : t = u := Option.some.inj (ht.symm.trans hu)
      exact .inl ⟨o, by simp [FlagSelect.receiver, ho], ho⟩

theorem Conforms.of_accepts {p u : Ty} (h : Conforms schema u v) (hpu : p = .any ∨ p = u) :
    Conforms schema p v := by
  rcases hpu with rfl | rfl
  · exact .any
  · exact h

theorem Conforms.params {params types : List Ty} {args : List Value}
    (hparams : List.Forall₂ (fun p u => p = .any ∨ p = u) params types)
    (hargs : List.Forall₂ (Conforms schema) types args) :
    List.Forall₂ (Conforms schema) params args := by
  induction hparams generalizing args with
  | nil => exact hargs
  | cons hpu _ ih =>
      cases hargs with
      | cons hv hargs => exact .cons (hv.of_accepts hpu) (ih hargs)

theorem Conforms.literal {digits : List Char} (h : Directive.literal? digits = some (v, ty)) :
    Conforms schema ty v := by
  unfold Directive.literal? at h
  dsimp only at h
  split at h
  · cases h; exact .scalar rfl
  split at h
  · cases h; exact .scalar rfl
  · cases h

theorem Schema.Honest.read (h : schema.Honest) {receiver : Ty} {name : String} {f : Field σ}
    {host : σ} (hf : Directive.field schema receiver name = .ok f)
    (hv : Conforms schema receiver v) :
    Yields EvalFault.External (fun r => Conforms schema f.ty r.1) (f.read v host) := by
  obtain ⟨n, t, rfl, ht, hfield⟩ := Directive.field_ok hf
  have hmem : f ∈ t.fields := List.mem_of_find?_eq_some hfield
  have hclass := t.fields_hostClass f hmem
  unfold Field.read
  rw [hclass]
  rcases hv.receiver ht with ⟨o, hreceiver, ho⟩ | hreceiver
  · rw [hreceiver]
    exact h.fields t (schema.mem_of_find? ht) f hmem o host ho
  · rw [hreceiver]
    exact .nullReceiver

theorem Schema.Honest.invoke (h : schema.Honest) {receiver : Ty} {name : String} {types : List Ty}
    {m : Method σ} {args : List Value} {host : σ}
    (hm : Directive.overload schema receiver name types = .ok m) (hv : Conforms schema receiver v)
    (hargs : List.Forall₂ (Conforms schema) types args) :
    Yields EvalFault.External (fun r => Conforms schema m.result r.1) (m.invoke v args host) := by
  obtain ⟨n, t, rfl, ht, hfind⟩ := Directive.overload_ok hm
  have hmem : m ∈ t.methods := (List.mem_filter.mp (List.mem_of_find?_eq_some hfind)).1
  have hclass := t.methods_hostClass m hmem
  have hparams : List.Forall₂ (Conforms schema) m.params args := by
    have haccepts := List.find?_some hfind
    exact Conforms.params (Method.accepts_forall₂ haccepts) hargs
  unfold Method.invoke
  rw [hclass]
  rcases hv.receiver ht with ⟨o, hreceiver, ho⟩ | hreceiver
  · rw [hreceiver]
    cases hcall : m.call o args host with
    | mk r host' =>
        cases r with
        | ok w =>
            simp only [hcall]
            exact h.methods t (schema.mem_of_find? ht) m hmem o args host ho hparams w host' hcall
        | error message =>
            simp only [hcall]
            exact .host
  · rw [hreceiver]
    exact .nullReceiver

/-- The meaning that an honest schema gives to types. -/
def Schema.Honest.meaning (h : scope.schema.Honest)
    (hrecord : Conforms scope.schema scope.record roots.record)
    (hside : ∀ ty, scope.side = some ty →
      ∃ v, roots.side = some v ∧ Conforms scope.schema ty v) : Meaning scope roots where
  Has := Conforms scope.schema
  Stops := EvalFault.External
  record := hrecord
  side := hside
  literal _ _ _ hliteral := .literal hliteral
  read _ _ _ _ _ hf hv := h.read hf hv
  invoke _ _ _ _ _ _ _ hm hv hargs := h.invoke hm hv hargs

/-! ## Binding -/

theorem Conforms.settable (h : Conforms schema ty v) :
    Storage.Cell.settable ty.kind.setter v = true := by
  cases h with
  | null => simp [Storage.Cell.settable, Value.isNull]
  | any => rfl
  | anything => rfl
  | scalar hk => simp [Storage.Cell.settable, Ty.kind, hk]
  | object _ _ => rfl

theorem Conforms.kind_of_object {o : Object} (h : Conforms schema ty (.object o)) :
    ty.kind = .object := by
  cases h with
  | any => rfl
  | anything => rfl
  | scalar hk => exact hk.symm
  | object _ _ => rfl

theorem Conforms.bound (h : Conforms schema ty v) :
    (∃ c, Storage.Cell.bound ty.kind.setter v = .ok c) ∨ ∃ o, v = .object o := by
  rw [Storage.Cell.bound, h.settable]
  cases v with
  | object o => exact .inr ⟨o, rfl⟩
  | _ => exact .inl ⟨_, rfl⟩

/-- Bound with the setter of its type, a value is unsupported only if it is an object, and then
nothing but objects and null was promised. -/
theorem Conforms.bind {s : Storage.Statement} {index : Nat} {w : Value} {setter : Setter}
    (h : Conforms schema ty v)
    (hbind : s.bind index ty.kind.setter v = .error (.unsupportedBind w setter)) :
    ty.kind = .object ∧ ∃ o, v = .object o := by
  rcases h.bound with ⟨c, hc⟩ | ⟨o, rfl⟩
  · rw [Storage.Statement.bind, hc] at hbind
    split at hbind
    · cases hbind
    · cases index <;> cases hbind
  · exact ⟨h.kind_of_object, o, rfl⟩

/-! ## Programs -/

/-- Of the programs of directives that compile in one pass, none is stopped but by a null receiver
or by the host, and each value is of the type of its program and can be bound as such, unless it is
an object where no other kind was promised. A plan binds each value as of its program's type. -/
theorem Pass.compileAll_sound {directives : List String} {programs : List (Program σ)} {pass : Pass}
    {host : σ} (hschema : scope.schema.Honest)
    (hrecord : Conforms scope.schema scope.record roots.record)
    (hside : ∀ ty, scope.side = some ty →
      ∃ v, roots.side = some v ∧ Conforms scope.schema ty v)
    (h : ({} : Pass).compileAll scope directives = .ok (programs, pass)) :
    (∀ p r, (p, r) ∈ programs.zip (({ host } : Machine σ).evalEach roots programs) →
      (∃ fault host', r = .error (fault, host') ∧ fault.External) ∨
      ∃ v m, r = .ok (v, m) ∧ Conforms scope.schema p.result v ∧
        ∀ (s : Storage.Statement) index w setter,
          s.bind index p.result.kind.setter v = .error (.unsupportedBind w setter) →
            p.result.kind = .object ∧ ∃ o, v = .object o) ∧
    ∀ (t : Template σ) flags plan, t.plan flags = .ok plan →
      ∀ b ∈ plan.bindings, b.setter = b.program.result.kind.setter := by
  refine ⟨fun p r hr => ?_, fun t flags plan hplan => Template.plan_setter hplan⟩
  have htyped := evalEach_typed (M := hschema.meaning hrecord hside) h Machine.follows_start p r hr
  cases r with
  | error stopped => exact .inl ⟨stopped.1, stopped.2, rfl, htyped⟩
  | ok result =>
      exact .inr ⟨result.1, result.2, rfl, htyped, fun _ _ _ _ hbind => Conforms.bind htyped hbind⟩

/-- An object that counts the calls of its one method and has itself for a field. -/
def ticker : HostType Nat where
  name := "Ticker"
  hostClass := 0
  fields := [⟨"peer", .object "Ticker", 0, fun o n => (.object o, n)⟩]
  methods := [⟨"tick", [.any], .scalar .long, 0,
    fun _ _ n => (.ok (.long (Int64.ofNat n)), n + 1)⟩]

def tickerScope : Scope Nat := ⟨⟨[ticker]⟩, .object "Ticker", none⟩

theorem honest_ticker : tickerScope.schema.Honest where
  fields t ht f hf o host ho := by
    obtain rfl := List.mem_singleton.mp ht
    obtain rfl := List.mem_singleton.mp hf
    exact .object rfl ho
  methods t ht m hm o args host ho hargs v host' hcall := by
    obtain rfl := List.mem_singleton.mp ht
    obtain rfl := List.mem_singleton.mp hm
    cases hcall
    exact .scalar rfl

/-- A count that one directive stores and another takes over. -/
theorem compileAll_sound_ticker :
    ∃ programs pass, ({} : Pass).compileAll tickerScope ["peer.tick(1)>3", "<3?.peer"] =
        .ok (programs, pass) ∧
      ∀ p r, (p, r) ∈ programs.zip
          (({ host := 0 } : Machine Nat).evalEach ⟨.object ⟨0, 0⟩, none⟩ programs) →
        ∀ v m, r = .ok (v, m) → Conforms tickerScope.schema p.result v := by
  have hcompile : (({} : Pass).compileAll tickerScope
      ["peer.tick(1)>3", "<3?.peer"]).toOption.isSome := by decide +kernel
  cases h : ({} : Pass).compileAll tickerScope ["peer.tick(1)>3", "<3?.peer"] with
  | error fault =>
      rw [h] at hcompile
      cases hcompile
  | ok result =>
      obtain ⟨programs, pass⟩ := result
      refine ⟨programs, pass, rfl, fun p r hr v m hv => ?_⟩
      have hsound := (Pass.compileAll_sound honest_ticker (.object rfl rfl)
        (fun _ hty => by cases hty) h).1 p r hr
      rcases hsound with ⟨fault, host, hfault, -⟩ | ⟨w, m', hw, hconforms, -⟩
      · rw [hv] at hfault
        cases hfault
      · rw [hv] at hw
        cases hw
        exact hconforms

end FlagSelect
