/-!
# Local slots

Directives of one statement share 256 slots. `Slots α` says what each of them holds, if anything.
-/

namespace FlagSelect

/-- The number of a local slot. -/
abbrev Slot := Fin 256

structure Slots (α : Type) where
  entries : List (Slot × α) := []

namespace Slots

variable {α : Type} {s : Slots α} {i j : Slot} {a : α}

/-- What the slot holds. -/
def get? (s : Slots α) (i : Slot) : Option α :=
  s.entries.lookup i

/-- Puts a value into the slot in place of what it held. -/
def set (s : Slots α) (i : Slot) (a : α) : Slots α :=
  ⟨(i, a) :: s.entries.filter (·.1 != i)⟩

@[simp] theorem get?_empty : ({} : Slots α).get? i = none := rfl

@[simp] theorem get?_set_self : (s.set i a).get? i = some a := by
  simp [get?, set]

theorem get?_set_of_ne (h : j ≠ i) : (s.set i a).get? j = s.get? j := by
  have hne : (j == i) = false := by simpa using h
  simp only [get?, set, List.lookup_cons, hne]
  induction s.entries with
  | nil => rfl
  | cons e l ih =>
    obtain ⟨k, b⟩ := e
    by_cases hk : k = i
    · subst hk
      simp [hne, List.lookup_cons, ih]
    · simp [hk, List.lookup_cons, ih]

end Slots

end FlagSelect
