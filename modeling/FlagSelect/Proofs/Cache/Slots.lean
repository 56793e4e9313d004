import FlagSelect.Proofs.Cache.Custody
import Mathlib.Algebra.Group.Nat.Defs

/-!
# What the functions of the table do to its slots

An executor in the table stands in the slot for its flags (`Seated`), and in a table of a power of
two of slots that slot is their remainder. Entries that stand apart from one another do so in the
doubled table too, so that doubling only sheds the dead.
-/

namespace FlagSelect.Cache

variable {σ δ ρ : Type} [Driver δ] {c c' : Cache σ δ} {t u : Ticket} {ts : List Ticket}
  {i j k : Nat} {flags : Flags}

/-- Whether an executor stands in the slot of an index. -/
def Seats (c : Cache σ δ) (i : Nat) (t : Ticket) : Prop := c.slots[i]? = some (some t)

/-- Whether each executor in the table stands in the slot for its flags. -/
def Seated (c : Cache σ δ) : Prop := ∀ i t, c.Seats i t → i = slotIndex c.capacity t.flags

/-- Whether an executor stands in the table. -/
def InTable (c : Cache σ δ) (t : Ticket) : Prop := ∃ i, c.Seats i t

theorem slotIndex_two_pow : slotIndex (2 ^ k) flags = flags.toNat % 2 ^ k :=
  Nat.and_two_pow_sub_one_eq_mod ..

theorem slotIndex_lt (hc : c.capacity = 2 ^ k) : slotIndex c.capacity flags < c.capacity := by
  rw [hc, slotIndex_two_pow]
  exact Nat.mod_lt _ (Nat.two_pow_pos k)

theorem Seats.unique (ht : c.Seats i t) (hu : c.Seats i u) : t = u := by
  rw [Seats, ht] at hu
  cases hu
  rfl

theorem mem_slots_iff : some t ∈ c.slots.toList ↔ c.InTable t := by
  simp [List.mem_iff_getElem?, InTable, Seats]

theorem resident?_eq_some :
    c.resident? flags = some t ↔ c.Seats (slotIndex c.capacity flags) t := by
  simp [resident?, Seats, Option.join_eq_some_iff]

theorem Seated.resident? (h : Seated c) (ht : c.InTable t) : c.resident? t.flags = some t := by
  obtain ⟨i, hi⟩ := ht
  rw [resident?_eq_some, ← h i t hi]
  exact hi

theorem InTable.of_resident? (h : c.resident? flags = some t) : c.InTable t :=
  ⟨_, resident?_eq_some.mp h⟩

theorem alive_congr (hheld : c'.held = c.held) (hretained : c'.retained = c.retained) :
    c'.alive = c.alive := by
  funext t
  simp [alive, hheld, hretained]

/-! ## Writing a slot -/

@[simp] theorem capacity_setSlot {o : Option Ticket} :
    (c.setSlot flags o).capacity = c.capacity := by
  simp [capacity, setSlot]

theorem seats_setSlot {o : Option Ticket} (hlt : slotIndex c.capacity flags < c.capacity) :
    (c.setSlot flags o).Seats i t ↔
      if i = slotIndex c.capacity flags then o = some t else c.Seats i t := by
  have hlt : slotIndex c.capacity flags < c.slots.size := hlt
  simp only [Seats, setSlot, Array.getElem?_setIfInBounds, hlt, eq_comm (a := i)]
  split <;> simp

/-! ## Doubling -/

/-- The doubled table with no one in it yet. -/
def widened (c : Cache σ δ) : Cache σ δ :=
  { c with slots := Array.replicate (2 * c.capacity) none }

@[simp] theorem capacity_widened : c.widened.capacity = 2 * c.capacity := by
  simp [widened, capacity]

theorem not_seats_widened : ¬ c.widened.Seats i t := by
  simp [widened, Seats, Array.getElem?_replicate]

@[simp] theorem capacity_rehash {o : Option Ticket} : (c.rehash o).capacity = c.capacity := by
  cases o with
  | none => rfl
  | some t =>
      simp only [rehash]
      split
      · exact capacity_setSlot
      · simp [capacity]

@[simp] theorem alive_rehash {o : Option Ticket} : (c.rehash o).alive = c.alive :=
  alive_congr (by simp) (by simp)

theorem seats_rehash_of_dead (h : c.alive t = false) :
    (c.rehash (some t)).Seats i u ↔ c.Seats i u := by
  simp [rehash, h, Seats]

theorem capacity_rehashAll (os : List (Option Ticket)) :
    (os.foldl rehash c).capacity = c.capacity := by
  induction os generalizing c with
  | nil => rfl
  | cons o os ih => exact ih.trans capacity_rehash

section Rehashing

variable {os : List (Option Ticket)} (hlt : ∀ flags, slotIndex c.capacity flags < c.capacity)

include hlt

theorem seats_rehash_of_ne {o : Option Ticket}
    (h : ∀ u, o = some u → c.alive u = true → slotIndex c.capacity u.flags ≠ i) :
    (c.rehash o).Seats i t ↔ c.Seats i t := by
  cases o with
  | none => rfl
  | some u =>
      cases halive : c.alive u with
      | false => exact seats_rehash_of_dead halive
      | true =>
          simp only [rehash, halive, if_true, seats_setSlot (hlt _), (h u rfl halive).symm,
            if_false]

/-- An index at which no entry arrives stays as it is. -/
theorem seats_rehashAll_of_ne
    (h : ∀ u, some u ∈ os → c.alive u = true → slotIndex c.capacity u.flags ≠ i) :
    (os.foldl rehash c).Seats i t ↔ c.Seats i t := by
  induction os generalizing c with
  | nil => rfl
  | cons o os ih =>
      refine (ih (c := c.rehash o) ?_ fun u hu => ?_).trans
        (seats_rehash_of_ne hlt fun u hu => h u (by simp [hu]))
      · simpa using hlt
      · simpa using h u (List.mem_cons_of_mem o hu)

/-- An entry arrives if no other one arrives at its index. -/
theorem seats_rehashAll (ht : some t ∈ os) (halive : c.alive t = true)
    (hsole : ∀ u, some u ∈ os → c.alive u = true →
      slotIndex c.capacity u.flags = slotIndex c.capacity t.flags → u = t) :
    (os.foldl rehash c).Seats (slotIndex c.capacity t.flags) t := by
  induction os generalizing c with
  | nil => cases ht
  | cons o os ih =>
      have hlt' : ∀ flags, slotIndex (c.rehash o).capacity flags < (c.rehash o).capacity := by
        simpa using hlt
      by_cases hrest : some t ∈ os
      · have hkept := ih hlt' hrest (by simpa using halive)
          (by simpa using fun u hu => hsole u (List.mem_cons_of_mem o hu))
        rwa [capacity_rehash] at hkept
      · obtain rfl : o = some t := by simpa [hrest, eq_comm] using ht
        rw [List.foldl_cons, seats_rehashAll_of_ne hlt']
        · simp [rehash, halive, seats_setSlot (hlt _)]
        · intro u hu hau hindex
          rw [capacity_rehash] at hindex
          obtain rfl := hsole u (List.mem_cons_of_mem _ hu) (by simpa using hau) hindex
          exact hrest hu

end Rehashing

theorem capacity_grow : c.grow.capacity = 2 * c.capacity :=
  (capacity_rehashAll _).trans capacity_widened

/-- Entries with different slots have different slots in the doubled table. -/
theorem Seated.slotIndex_injective (h : Seated c) (hc : c.capacity = 2 ^ k) (ht : c.Seats i t)
    (hu : c.Seats j u)
    (heq : slotIndex (2 * c.capacity) t.flags = slotIndex (2 * c.capacity) u.flags) :
    i = j ∧ t = u := by
  have hdouble : 2 * c.capacity = 2 ^ (k + 1) := by rw [hc, Nat.pow_succ']
  rw [hdouble, slotIndex_two_pow, slotIndex_two_pow] at heq
  have hmod (flags : Flags) : flags.toNat % 2 ^ (k + 1) % 2 ^ k = slotIndex c.capacity flags := by
    rw [hc, slotIndex_two_pow, Nat.mod_mod_of_dvd _ (Nat.pow_dvd_pow 2 (Nat.le_succ k))]
  have hij : i = j := by rw [h i t ht, h j u hu, ← hmod, ← hmod, heq]
  subst hij
  exact ⟨rfl, ht.unique hu⟩

/-- Doubling moves the live entries to their new slots and leaves out the dead. -/
theorem Seated.seats_grow (h : Seated c) (hc : c.capacity = 2 ^ k) :
    c.grow.Seats i t ↔
      i = slotIndex (2 * c.capacity) t.flags ∧ c.InTable t ∧ c.alive t = true := by
  have hlt : ∀ flags, slotIndex c.widened.capacity flags < c.widened.capacity := fun _ =>
    slotIndex_lt (k := k + 1) (by rw [capacity_widened, hc, Nat.pow_succ'])
  have harrive (u : Ticket) (hu : c.InTable u) (halive : c.alive u = true) :
      c.grow.Seats (slotIndex (2 * c.capacity) u.flags) u := by
    have hsole (v : Ticket) (hv : some v ∈ c.slots.toList) (_ : c.alive v = true)
        (heq : slotIndex c.widened.capacity v.flags = slotIndex c.widened.capacity u.flags) :
        v = u := by
      obtain ⟨i, hi⟩ := mem_slots_iff.mp hv
      obtain ⟨j, hj⟩ := hu
      rw [capacity_widened] at heq
      exact (h.slotIndex_injective hc hi hj heq).2
    have hseat := seats_rehashAll hlt (mem_slots_iff.mpr hu) halive hsole
    rwa [capacity_widened] at hseat
  constructor
  · intro hi
    by_cases hsome : ∃ u, c.InTable u ∧ c.alive u = true ∧ slotIndex (2 * c.capacity) u.flags = i
    · obtain ⟨u, hu, halive, rfl⟩ := hsome
      obtain rfl := hi.unique (harrive u hu halive)
      exact ⟨rfl, hu, halive⟩
    · have hnone (u : Ticket) (hu : some u ∈ c.slots.toList) (halive : c.widened.alive u = true) :
          slotIndex c.widened.capacity u.flags ≠ i := by
        intro heq
        rw [capacity_widened] at heq
        exact hsome ⟨u, mem_slots_iff.mp hu, halive, heq⟩
      exact absurd ((seats_rehashAll_of_ne hlt hnone).mp hi) not_seats_widened
  · rintro ⟨rfl, ht, halive⟩
    exact harrive t ht halive

/-! ## Working off notices -/

@[simp] theorem capacity_reclaim : (c.reclaim t).capacity = c.capacity := by
  unfold reclaim
  dsimp only
  split <;> simp [capacity, setSlot]

@[simp] theorem resizes_reclaim : (c.reclaim t).counters.resizes = c.counters.resizes := by
  unfold reclaim
  dsimp only
  split <;> simp

/-- A notice frees the slot of its executor and no other. -/
theorem Seated.seats_reclaim (h : Seated c)
    (hflags : ∀ u, c.InTable u → u.number = t.number → u.flags = t.flags) :
    (c.reclaim t).Seats i u ↔ c.Seats i u ∧ u.number ≠ t.number := by
  have hseats : (c.closeQuietly t).Seats i u ↔ c.Seats i u := by simp [Seats]
  have hresident : (c.closeQuietly t).resident? t.flags = c.resident? t.flags := by
    simp [Cache.resident?, capacity]
  have hcapacity : (c.closeQuietly t).capacity = c.capacity := by simp [capacity]
  have hown (hu : c.Seats i u) (hnumber : u.number = t.number) :
      i = slotIndex c.capacity t.flags ∧ c.resident? t.flags = some u := by
    rw [← hflags u ⟨i, hu⟩ hnumber]
    exact ⟨h i u hu, h.resident? ⟨i, hu⟩⟩
  unfold reclaim
  dsimp only
  rw [hresident]
  split
  next hany =>
    obtain ⟨r, hr, hnumber⟩ := (Option.any_eq_true _ _).mp hany
    have hseat := resident?_eq_some.mp hr
    have hlt : slotIndex (c.closeQuietly t).capacity t.flags < (c.closeQuietly t).capacity := by
      rw [hcapacity]
      exact (Array.getElem?_eq_some_iff.mp hseat).1
    refine (seats_setSlot (c := c.closeQuietly t) hlt).trans ?_
    rw [hseats, hcapacity]
    constructor
    · intro hu
      split at hu
      · cases hu
      · next hne => exact ⟨hu, fun hn => hne (hown hu hn).1⟩
    · rintro ⟨hu, hne⟩
      rw [if_neg]
      · exact hu
      · rintro rfl
        obtain rfl := hu.unique hseat
        exact hne (by simpa using hnumber)
  next hany =>
    refine hseats.trans ⟨fun hu => ⟨hu, fun hn => hany ?_⟩, And.left⟩
    rw [(hown hu hn).2]
    simpa using hn

theorem Seated.seats_reclaimAll (h : Seated c)
    (hflags : ∀ t ∈ ts, ∀ u, c.InTable u → u.number = t.number → u.flags = t.flags) :
    (ts.foldl reclaim c).Seats i u ↔ c.Seats i u ∧ ¬ Names ts u.number := by
  induction ts generalizing c with
  | nil => simp
  | cons t ts ih =>
      have hreclaim {i : Nat} {u : Ticket} :
          (c.reclaim t).Seats i u ↔ c.Seats i u ∧ u.number ≠ t.number :=
        h.seats_reclaim (hflags t List.mem_cons_self)
      have hseated : Seated (c.reclaim t) := fun i u hu => by
        rw [capacity_reclaim]
        exact h i u (hreclaim.mp hu).1
      refine (ih hseated fun v hv u hu => ?_).trans ?_
      · obtain ⟨i, hi⟩ := hu
        exact hflags v (List.mem_cons_of_mem t hv) u ⟨i, (hreclaim.mp hi).1⟩
      · rw [hreclaim, names_cons, not_or, and_assoc, ne_comm]

theorem drain_table : c.drain.capacity = c.capacity ∧
    c.drain.counters.resizes = c.counters.resizes := by
  have hfold (ts : List Ticket) (c : Cache σ δ) : (ts.foldl reclaim c).capacity = c.capacity ∧
      (ts.foldl reclaim c).counters.resizes = c.counters.resizes := by
    induction ts generalizing c with
    | nil => exact ⟨rfl, rfl⟩
    | cons t ts ih => simpa using ih (c.reclaim t)
  exact hfold c.notices { c with notices := [] }

/-- Working off all notices frees the slots of their executors and no others. -/
theorem Seated.seats_drain (h : Seated c)
    (hflags : ∀ t ∈ c.notices, ∀ u, c.InTable u → u.number = t.number → u.flags = t.flags) :
    c.drain.Seats i u ↔ c.Seats i u ∧ ¬ Names c.notices u.number :=
  Seated.seats_reclaimAll (c := { c with notices := [] }) h hflags

/-! ## Notices -/

theorem settle_eq (hdropped : c.dropped = false) :
    c.settle t = { c with notices := c.notices ++ [t].filter fun u => !c.alive u } := by
  unfold settle
  split
  next halive => simp [halive]
  next halive => simp [halive, hdropped]

/-- Of those that someone has let go of, the dead get a notice each, in order. -/
theorem settleAll_eq (ts : List Ticket) (hdropped : c.dropped = false) :
    ts.foldl settle c = { c with notices := c.notices ++ ts.filter fun u => !c.alive u } := by
  induction ts generalizing c with
  | nil => simp
  | cons t ts ih =>
      have halive : (c.settle t).alive = c.alive := alive_congr (by simp) (by simp)
      rw [List.foldl_cons, ih (by simpa using hdropped), halive, settle_eq hdropped]
      simp only [List.append_assoc, ← List.filter_append, List.singleton_append]

theorem settleAll_notices (ts : List Ticket) (hdropped : c.dropped = false) :
    (ts.foldl settle c).notices = c.notices ++ ts.filter fun u => !c.alive u := by
  rw [settleAll_eq ts hdropped]

end FlagSelect.Cache
