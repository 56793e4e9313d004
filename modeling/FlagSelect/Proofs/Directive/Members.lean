import FlagSelect.Proofs.Directive.Reading
import Mathlib.Data.List.Forall2

/-!
# Members

Where the fields and methods come from that directives reach.
-/

namespace FlagSelect

variable {σ : Type} {schema : Schema σ} {receiver : Ty} {name : String} {types : List Ty}

theorem Schema.mem_of_find? {t : HostType σ} (h : schema.find? name = some t) : t ∈ schema.types :=
  List.mem_of_find?_eq_some h

/-- The parameters of a method take its arguments one by one. -/
theorem Method.accepts_forall₂ {m : Method σ} (h : m.accepts types = true) :
    List.Forall₂ (fun p u => p = .any ∨ p = u) m.params types := by
  simp only [accepts, Bool.and_eq_true, beq_iff_eq, List.all_eq_true] at h
  refine List.forall₂_iff_zip.mpr ⟨h.1, fun {p u} hpu => ?_⟩
  exact Ty.accepts_iff.mp (h.2 (p, u) hpu)

namespace Directive

theorem members_eq_some {t : HostType σ} (h : members schema receiver = .ok (some t)) :
    ∃ n, receiver = .object n ∧ schema.find? n = some t := by
  cases receiver with
  | object n =>
      cases hfind : schema.find? n with
      | none =>
          rw [members, hfind] at h
          cases h
      | some u =>
          rw [members, hfind] at h
          cases h
          exact ⟨n, rfl, hfind⟩
  | scalar _ => cases h
  | any => cases h

/-- A field that is reached is the first of its name in the registered type of the receiver. -/
theorem field_ok {f : Field σ} (h : field schema receiver name = .ok f) :
    ∃ n t, receiver = .object n ∧ schema.find? n = some t ∧ t.field? name = some f := by
  obtain ⟨t?, hmembers, h⟩ := bind_eq_ok.mp h
  cases t? with
  | none => cases h
  | some t =>
      obtain ⟨n, hn, hfind⟩ := members_eq_some hmembers
      cases hf : t.field? name with
      | none => simp only [Option.bind_some, hf] at h; cases h
      | some g =>
          simp only [Option.bind_some, hf] at h
          cases h
          exact ⟨n, t, hn, hfind, hf⟩

/-- A method that is called is the first of its name in the registered type of the receiver that
takes the arguments. -/
theorem overload_ok {m : Method σ} (h : overload schema receiver name types = .ok m) :
    ∃ n t, receiver = .object n ∧ schema.find? n = some t ∧
      (t.overloads name types.length).find? (·.accepts types) = some m := by
  obtain ⟨t?, hmembers, h⟩ := bind_eq_ok.mp h
  cases t? with
  | none => cases h
  | some t =>
      obtain ⟨n, hn, hfind⟩ := members_eq_some hmembers
      dsimp only at h
      split at h
      · cases h
      · split at h
        · next g hg =>
            cases h
            exact ⟨n, t, hn, hfind, hg⟩
        · cases h

end Directive

end FlagSelect
