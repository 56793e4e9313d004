import FlagSelect.Proofs.Cache.Upkeep
import FlagSelect.Proofs.Cache.Lifetime
import Mathlib.Logic.Function.Iterate

/-!
# The layout of the table

What can be said of the table of a cache between operations, and of each doubling of it in the
course of a lookup. Main statement: `Run.table_layout`.
-/

namespace FlagSelect.Cache

variable {σ δ ρ : Type} [Driver δ] {c c' : Cache σ δ} {s : Setup σ ρ} {t : Ticket} {n : Nat}
  {flags : Flags}

/-- The layout of the table of a cache with such settings. -/
structure Layout (settings : Settings) (c : Cache σ δ) : Prop where
  capacity : c.capacity = settings.initialCapacity * 2 ^ c.counters.resizes
  power : ∃ k, c.capacity = 2 ^ k
  bound : c.capacity ≤ settings.maxCapacity
  /-- The slot for some flags is within the table. -/
  within : ∀ flags, slotIndex c.capacity flags < c.slots.size
  seat : ∀ i t, c.Seats i t →
    i = slotIndex c.capacity t.flags ∧ i = t.flags.toNat % c.capacity
  /-- No flags have two slots. -/
  sole : ∀ i j t u, c.Seats i t → c.Seats j u → t.flags = u.flags → i = j
  apart : ∀ i j t u, c.Seats i t → c.Seats j u → t.generation = u.generation → i = j
  generation : ∀ i t, c.Seats i t → t.generation ≤ c.executors.size
  accounted : ∀ i t, c.Seats i t → c.alive t = true ∨ t ∈ c.notices
  retained : ∀ t ∈ c.retained, c.alive t = true ∧ c.resident? t.flags = some t
  room : c.retained.length ≤ settings.retained

/-- What becomes of the live executors in a table that is doubled. -/
structure Spreads (settings : Settings) (c : Cache σ δ) : Prop where
  /-- No two of them have the same slot in the doubled table. -/
  apart : ∀ i j t u, c.Seats i t → c.Seats j u → c.alive t = true → c.alive u = true →
    slotIndex c.grow.capacity t.flags = slotIndex c.grow.capacity u.flags → i = j
  /-- Each of them has its slot there. -/
  stay : ∀ i t, c.Seats i t → c.alive t = true →
    c.grow.Seats (slotIndex c.grow.capacity t.flags) t
  capacity : c.grow.capacity = 2 * c.capacity
  bound : c.grow.capacity ≤ settings.maxCapacity

theorem Orderly.layout (hv : s.settings.Valid) (h : Orderly s c []) : Layout s.settings c where
  capacity := h.capacity
  power := h.exists_capacity hv
  bound := h.bound
  within flags := by
    obtain ⟨k, hk⟩ := h.exists_capacity hv
    exact slotIndex_lt hk
  seat i t ht := by
    obtain ⟨k, hk⟩ := h.exists_capacity hv
    have hi := h.seated i t ht
    refine ⟨hi, ?_⟩
    rw [hi, hk, slotIndex_two_pow]
  sole i j t u ht hu heq := by rw [h.seated i t ht, h.seated j u hu, heq]
  apart i j t u ht hu heq := by
    have heq := (h.made t (.inl (.inl ⟨i, ht⟩))).flags_eq (h.made u (.inl (.inl ⟨j, hu⟩)))
      (Nat.succ.inj heq)
    rw [h.seated i t ht, h.seated j u hu, heq]
  generation i t ht := (h.made t (.inl (.inl ⟨i, ht⟩))).lt
  accounted i t ht := by
    refine (h.kept t (.inl ⟨i, ht⟩)).imp alive_iff_kept.mpr ?_
    rintro ⟨n, hn, heq⟩
    have heq := (h.made n (.inr (.inl hn))).eq (h.made t (.inl (.inl ⟨i, ht⟩))) heq
    exact heq ▸ hn
  retained t ht :=
    ⟨alive_iff_kept.mpr (.inr ⟨t, ht, rfl⟩), h.seated.resident? (h.retained t ht)⟩
  room := h.room

theorem Orderly.spreads {ts : List Ticket} (hv : s.settings.Valid) (h : Orderly s c ts)
    (hroom : c.capacity < s.settings.maxCapacity) : Spreads s.settings c := by
  obtain ⟨k, hk⟩ := h.exists_capacity hv
  constructor
  case apart =>
    intro i j t u ht hu _ _ heq
    rw [capacity_grow] at heq
    exact (h.seated.slotIndex_injective hk ht hu heq).1
  case stay =>
    intro i t ht halive
    rw [capacity_grow]
    exact (h.seated.seats_grow hk).mpr ⟨rfl, ⟨i, ht⟩, halive⟩
  case capacity => exact capacity_grow
  case bound => rw [capacity_grow]; exact h.two_mul_capacity_le hv hroom

/-- A table that has doubled so often and has not its full size yet is in order. -/
theorem Orderly.grows {ts : List Ticket} (hv : s.settings.Valid) (h : Orderly s c ts)
    (hroom : (Cache.grow^[n] c).capacity < s.settings.maxCapacity) :
    Orderly s (Cache.grow^[n] c) ts := by
  induction n with
  | zero => exact h
  | succ n ih =>
      rw [Function.iterate_succ_apply'] at hroom ⊢
      rw [capacity_grow] at hroom
      have hless : (Cache.grow^[n] c).capacity < s.settings.maxCapacity := by omega
      exact (ih hless).grow hv hless

/-- The table of a cache with accepted settings keeps its layout, and wherever a lookup that has
made an executor doubles it, all live executors find slots of their own in a table of at most full
size. -/
theorem Run.table_layout [RecordHost σ ρ] {w : World σ δ} {past : List (Cache σ δ)}
    (hs : s.settings.defect? = none) (h : Run s w (c :: past)) (hdropped : c.dropped = false) :
    Layout s.settings c ∧
    ∀ flags t c' n, c.drain.synthesize s flags = (.ok t, c') →
      (grow^[n] c').capacity < s.settings.maxCapacity → Spreads s.settings (grow^[n] c') := by
  have hv := Settings.valid_of_defect? hs
  have horderly := h.orderly hv hdropped
  refine ⟨horderly.layout hv, fun flags t c' n hsyn hroom => ?_⟩
  have hspec := synthesis c.drain s flags
  rw [hsyn] at hspec
  exact ((hspec.orderly_ok horderly.drain).1.grows hv hroom).spreads hv hroom

/-- A table that starts with one slot, and may double once. -/
def tightQuery : Setup Scripted.Host (List Value) :=
  { plainQuery with settings := { initialCapacity := 1, maxCapacity := 2, retained := 1 } }

/-- Of three executors the second makes the table double, and the third has the slot of the first,
which a caller holds, and of none that is retained. -/
theorem layout_of_crowded : ∃ c past, Run tightQuery stubbornWorld (c :: past) ∧
    c.counters.resizes = 1 ∧ c.counters.evictions = 1 ∧ c.evicted = [⟨0, 0⟩] ∧
    Layout tightQuery.settings c := by
  have h := Run.start (s := tightQuery) (w := stubbornWorld)
    |>.perform (.lookup 0) rfl
    |>.perform (.lookup 1) rfl
    |>.perform (.lookup 2) rfl
  exact ⟨_, _, h, rfl, rfl, rfl, (h.table_layout (by decide) rfl).1⟩

end FlagSelect.Cache
