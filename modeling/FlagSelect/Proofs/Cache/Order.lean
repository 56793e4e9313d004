import FlagSelect.Proofs.Cache.Slots
import FlagSelect.Proofs.Plan

/-!
# The order that a cache keeps

Every executor that someone keeps alive has a place: a slot, the evicted list or, while a lookup is
under way, the hands of that lookup. What is retained has the slot for its flags, and what is dead
and has a place has a notice too. `Orderly s c ts` says this of a cache and the executors `ts` that
are yet to be placed; every function of the cache keeps it, and so do runs (`Run.orderly`).
-/

namespace FlagSelect

variable {σ δ ρ : Type} [Driver δ]

/-- Capacities that are powers of two, the first no larger than the last. -/
structure Settings.Valid (settings : Settings) : Prop where
  initial : ∃ a, settings.initialCapacity = 2 ^ a
  max : ∃ b, settings.maxCapacity = 2 ^ b
  le : settings.initialCapacity ≤ settings.maxCapacity

theorem exists_of_isPowerOfTwo {n : Nat} (h : isPowerOfTwo n = true) : ∃ a, n = 2 ^ a := by
  simp only [isPowerOfTwo, Bool.and_eq_true, beq_iff_eq, Nat.one_shiftLeft] at h
  exact ⟨n.log2, h.2.symm⟩

theorem Settings.valid_of_defect? {settings : Settings} (h : settings.defect? = none) :
    settings.Valid := by
  unfold defect? at h
  split at h
  · cases h
  next hinitial =>
  split at h
  · cases h
  next hmax =>
  split at h
  · cases h
  next hle =>
  exact ⟨exists_of_isPowerOfTwo (not_not.mp hinitial),
    exists_of_isPowerOfTwo (not_not.mp (not_or.mp hmax).1), Nat.le_of_not_lt hle⟩

namespace Cache

variable {c c' : Cache σ δ} {s : Setup σ ρ} {t u : Ticket} {ts us rs : List Ticket} {k : Nat}
  {flags : Flags}

/-- Whether someone keeps the executor of a number alive. -/
def Kept (c : Cache σ δ) (k : Nat) : Prop := k ∈ c.held ∨ Names c.retained k

/-- Whether an executor with the number of a ticket has been made for the flags on it. -/
def Made (c : Cache σ δ) (t : Ticket) : Prop :=
  ∃ p, planAt c.executors t.number = some p ∧ p.flags = t.flags

/-- Whether an executor has a place. -/
def Placed (c : Cache σ δ) (t : Ticket) : Prop := c.InTable t ∨ t ∈ c.evicted

theorem alive_iff_kept : c.alive t = true ↔ c.Kept t.number := alive_iff

theorem alive_eq_false : c.alive t = false ↔ ¬ c.Kept t.number := by
  rw [← alive_iff_kept, Bool.not_eq_true]

theorem Made.lt (h : c.Made t) : t.number < c.executors.size := by
  obtain ⟨p, hp, -⟩ := h
  simp only [planAt, Option.map_eq_some_iff, Array.getElem?_eq_some_iff] at hp
  obtain ⟨_, ⟨hlt, -⟩, -⟩ := hp
  exact hlt

theorem Made.flags_eq (ht : c.Made t) (hu : c.Made u) (h : t.number = u.number) :
    t.flags = u.flags := by
  obtain ⟨p, hp, ht⟩ := ht
  obtain ⟨q, hq, hu⟩ := hu
  rw [h, hq] at hp
  cases hp
  exact ht.symm.trans hu

theorem Made.eq (ht : c.Made t) (hu : c.Made u) (h : t.number = u.number) : t = u := by
  have hflags := ht.flags_eq hu h
  cases t
  cases u
  cases h
  cases hflags
  rfl

theorem Made.congr (h : c.Made t) (hplans : planAt c'.executors = planAt c.executors) :
    c'.Made t := by
  unfold Made
  rwa [hplans]

theorem nodup_numbers (hmade : ∀ u ∈ us, c.Made u) (h : (us.map Ticket.flags).Nodup) :
    (us.map Ticket.number).Nodup := by
  rw [List.Nodup, List.pairwise_map] at h ⊢
  exact h.imp_of_mem fun ht hu hne heq => hne ((hmade _ ht).flags_eq (hmade _ hu) heq)

theorem Holds.made (h : c.Holds t) : c.Made t := by
  obtain ⟨e, he, hflags⟩ := h.flags
  exact ⟨e.plan, by simp [planAt, he], hflags⟩

structure Orderly (s : Setup σ ρ) (c : Cache σ δ) (ts : List Ticket) : Prop where
  dropped : c.dropped = false
  capacity : c.capacity = s.settings.initialCapacity * 2 ^ c.counters.resizes
  bound : c.capacity ≤ s.settings.maxCapacity
  seated : Seated c
  made : ∀ t, c.Placed t ∨ t ∈ c.notices ∨ t ∈ ts → c.Made t
  /-- The dead that still have a place have a notice. -/
  kept : ∀ t, c.Placed t → c.Kept t.number ∨ Names c.notices t.number
  placed : ∀ k, c.Kept k → (∃ t, c.Placed t ∧ t.number = k) ∨ Names ts k
  apart : ∀ t u, c.InTable t → u ∈ c.evicted → t.number ≠ u.number
  evicted : (c.evicted.map Ticket.number).Nodup
  loose : ∀ t ∈ ts, ∀ u, c.Placed u → t.number ≠ u.number
  retained : ∀ t ∈ c.retained, c.InTable t
  distinct : (c.retained.map Ticket.flags).Nodup
  room : c.retained.length ≤ s.settings.retained
  /-- Only the dead have notices, and each has one. -/
  dead : ∀ t ∈ c.notices, ¬ c.Kept t.number
  once : (c.notices.map Ticket.number).Nodup

theorem placed_congr (hslots : c'.slots = c.slots) (hevicted : c'.evicted = c.evicted) :
    c'.Placed t ↔ c.Placed t := by
  simp [Placed, InTable, Seats, hslots, hevicted]

theorem Orderly.congr (h : Orderly s c ts) (hslots : c'.slots = c.slots)
    (hevicted : c'.evicted = c.evicted) (hretained : c'.retained = c.retained)
    (hnotices : c'.notices = c.notices) (hdropped : c'.dropped = c.dropped)
    (hresizes : c'.counters.resizes = c.counters.resizes)
    (hplans : planAt c'.executors = planAt c.executors) (hkept : ∀ k, c'.Kept k ↔ c.Kept k) :
    Orderly s c' ts := by
  have hcapacity : c'.capacity = c.capacity := by rw [Cache.capacity, hslots, Cache.capacity]
  have hseats (i : Nat) (t : Ticket) : c'.Seats i t ↔ c.Seats i t := by rw [Seats, hslots, Seats]
  have htable (t : Ticket) : c'.InTable t ↔ c.InTable t := exists_congr fun i => hseats i t
  have hplaced (t : Ticket) : c'.Placed t ↔ c.Placed t := placed_congr hslots hevicted
  constructor
  case dropped => exact hdropped.trans h.dropped
  case capacity => rw [hcapacity, hresizes, h.capacity]
  case bound => exact hcapacity ▸ h.bound
  case seated => exact fun i t ht => hcapacity ▸ h.seated i t ((hseats i t).mp ht)
  case made => exact fun t ht => (h.made t (by rwa [← hplaced, ← hnotices])).congr hplans
  case kept => exact fun t ht => by rw [hkept, hnotices]; exact h.kept t ((hplaced t).mp ht)
  case placed => exact fun k hk => by simpa only [hplaced] using h.placed k ((hkept k).mp hk)
  case apart => exact fun t u ht hu => h.apart t u ((htable t).mp ht) (hevicted ▸ hu)
  case evicted => exact hevicted ▸ h.evicted
  case loose => exact fun t ht u hu => h.loose t ht u ((hplaced u).mp hu)
  case retained => exact fun t ht => (htable t).mpr (h.retained t (hretained ▸ ht))
  case distinct => exact hretained ▸ h.distinct
  case room => exact hretained ▸ h.room
  case dead => exact fun t ht => by rw [hkept]; exact h.dead t (hnotices ▸ ht)
  case once => exact hnotices ▸ h.once

/-! ## Letting go -/

/-- When callers and the retention list change to keep fewer executors alive, the order is there
again once those that someone has let go of are settled. -/
theorem Orderly.letGo (h : Orderly s c ts) {hs : List Nat} {rs us : List Ticket}
    (hkept : ∀ k, k ∈ hs ∨ Names rs k → c.Kept k)
    (hlost : ∀ k, c.Kept k → (k ∈ hs ∨ Names rs k) ∨ Names us k)
    (hmade : ∀ u ∈ us, c.Kept u.number ∧ c.Made u) (hnodup : (us.map Ticket.number).Nodup)
    (hretained : ∀ r ∈ rs, c.InTable r) (hdistinct : (rs.map Ticket.flags).Nodup)
    (hroom : rs.length ≤ s.settings.retained) :
    Orderly s (us.foldl settle { c with held := hs, retained := rs }) ts := by
  generalize hlast : us.foldl settle { c with held := hs, retained := rs } = last
  have hframe := settleAll_frame (c := { c with held := hs, retained := rs }) us
  have hnotices := settleAll_notices (c := { c with held := hs, retained := rs }) us h.dropped
  rw [hlast] at hframe hnotices
  obtain ⟨hheld, hslots, hevicted, hlatest, hdropped, hcounters, -, hplans⟩ := hframe
  have hkept' (k : Nat) : last.Kept k ↔ k ∈ hs ∨ Names rs k := by rw [Kept, hheld, hlatest]
  have hplaced (t : Ticket) : last.Placed t ↔ c.Placed t := placed_congr hslots hevicted
  have hnoticed (t : Ticket) :
      t ∈ last.notices ↔ t ∈ c.notices ∨ t ∈ us ∧ ¬ last.Kept t.number := by
    have halive : ({ c with held := hs, retained := rs } : Cache σ δ).alive t = last.alive t := by
      rw [alive, alive, hheld, hlatest]
    simp [hnotices, halive, alive_eq_false]
  have hcapacity : last.capacity = c.capacity := by rw [Cache.capacity, hslots, Cache.capacity]
  constructor
  case dropped => exact hdropped.trans h.dropped
  case capacity => rw [hcapacity, hcounters, h.capacity]
  case bound => exact hcapacity ▸ h.bound
  case seated =>
    intro i t ht
    rw [Seats, hslots] at ht
    rw [hcapacity]
    exact h.seated i t ht
  case made =>
    intro t ht
    rw [hplaced, hnoticed] at ht
    refine Made.congr ?_ hplans
    rcases ht with ht | (ht | ht) | ht
    · exact h.made t (.inl ht)
    · exact h.made t (.inr (.inl ht))
    · exact (hmade t ht.1).2
    · exact h.made t (.inr (.inr ht))
  case kept =>
    intro t ht
    have ht := (hplaced t).mp ht
    by_cases hlive : last.Kept t.number
    · exact .inl hlive
    · right
      -- Whoever dies now is among those that are settled, and gets its notice there.
      rcases h.kept t ht with hk | ⟨n, hn, heq⟩
      · obtain ⟨u, hu, heq⟩ := (hlost t.number hk).resolve_left fun hk => hlive ((hkept' _).mpr hk)
        exact ⟨u, (hnoticed u).mpr (.inr ⟨hu, heq ▸ hlive⟩), heq⟩
      · exact ⟨n, (hnoticed n).mpr (.inl hn), heq⟩
  case placed =>
    intro k hk
    simpa only [hplaced] using h.placed k (hkept k ((hkept' k).mp hk))
  case apart =>
    intro t u ht hu
    refine h.apart t u ?_ (hevicted ▸ hu)
    obtain ⟨i, hi⟩ := ht
    exact ⟨i, by rwa [Seats, hslots] at hi⟩
  case evicted => rw [hevicted]; exact h.evicted
  case loose => exact fun t ht u hu => h.loose t ht u ((hplaced u).mp hu)
  case retained =>
    intro t ht
    rw [hlatest] at ht
    obtain ⟨i, hi⟩ := hretained t ht
    exact ⟨i, by rwa [Seats, hslots]⟩
  case distinct => rw [hlatest]; exact hdistinct
  case room => rw [hlatest]; exact hroom
  case dead =>
    intro t ht hlive
    rcases (hnoticed t).mp ht with ht | ht
    · exact h.dead t ht (hkept _ ((hkept' _).mp hlive))
    · exact ht.2 hlive
  case once =>
    rw [hnotices, List.map_append]
    refine List.nodup_append.mpr ⟨h.once, hnodup.sublist (List.filter_sublist.map _), ?_⟩
    rintro k hk _ hk' rfl
    obtain ⟨n, hn, rfl⟩ := List.mem_map.mp hk
    obtain ⟨u, hu, heq⟩ := List.mem_map.mp hk'
    exact h.dead n hn (heq ▸ (hmade u (List.mem_of_mem_filter hu)).1)

/-- When some leave the retention list and others come to its front, those that leave are
settled. -/
theorem Orderly.giveUp {stay : List Ticket} (h : Orderly s c ts) (front : List Ticket)
    (hperm : (stay ++ us).Perm c.retained)
    (hfront : ∀ t ∈ front, c.InTable t ∧ c.Kept t.number ∧ ∀ u ∈ stay, u.flags ≠ t.flags)
    (hdistinct : (front.map Ticket.flags).Nodup)
    (hroom : (front ++ stay).length ≤ s.settings.retained) :
    Orderly s (us.foldl settle { c with retained := front ++ stay }) ts := by
  have hnames (k : Nat) : Names c.retained k ↔ Names stay k ∨ Names us k := by
    rw [← names_append]
    exact exists_congr fun t => and_congr_left' hperm.mem_iff.symm
  have hstay (u : Ticket) (hu : u ∈ stay) : u ∈ c.retained :=
    hperm.mem_iff.mp (List.mem_append_left us hu)
  have hleave (u : Ticket) (hu : u ∈ us) : u ∈ c.retained :=
    hperm.mem_iff.mp (List.mem_append_right stay hu)
  have hmade (u : Ticket) (hu : u ∈ us) : c.Made u :=
    h.made u (.inl (.inl (h.retained u (hleave u hu))))
  have hflags := (hperm.map Ticket.flags).nodup_iff.mpr h.distinct
  rw [List.map_append, List.nodup_append] at hflags
  refine h.letGo ?_ ?_ ?_ (nodup_numbers hmade hflags.2.1) ?_ ?_ hroom
  · rintro k (hk | hk)
    · exact .inl hk
    · rcases names_append.mp hk with ⟨t, ht, rfl⟩ | hk
      · exact (hfront t ht).2.1
      · exact .inr ((hnames k).mpr (.inl hk))
  · rintro k (hk | hk)
    · exact .inl (.inl hk)
    · exact ((hnames k).mp hk).imp_left fun hk => .inr (names_append.mpr (.inr hk))
  · exact fun u hu => ⟨.inr ⟨u, hleave u hu, rfl⟩, hmade u hu⟩
  · intro u hu
    rcases List.mem_append.mp hu with hu | hu
    · exact (hfront u hu).1
    · exact h.retained u (hstay u hu)
  · rw [List.map_append, List.nodup_append]
    refine ⟨hdistinct, hflags.1, ?_⟩
    rintro _ hmem _ hmem' heq
    obtain ⟨v, hv, rfl⟩ := List.mem_map.mp hmem
    obtain ⟨u, hu, rfl⟩ := List.mem_map.mp hmem'
    exact (hfront v hv).2.2 u hu heq.symm

theorem Orderly.dismiss (h : Orderly s c ts) : Orderly s (c.dismiss flags) ts :=
  h.giveUp []
    (List.perm_append_comm.trans (List.filter_append_perm _ _)) (fun _ ht => by cases ht) .nil
    (Nat.le_trans (List.length_filter_le _ _) h.room)

/-- The executor with the slot for its flags may become the latest of the retention list. -/
theorem Orderly.retain (h : Orderly s c ts) (ht : c.InTable t) (hlive : c.Kept t.number) :
    Orderly s (c.retain s.settings.retained t) ts := by
  unfold Cache.retain
  split
  · exact h
  next hlimit =>
    obtain ⟨n, hn⟩ := Nat.exists_eq_succ_of_ne_zero hlimit
    dsimp only
    rw [hn, List.take_succ_cons, List.drop_succ_cons]
    refine h.giveUp [t] ?_ ?_ (by simp) ?_
    · refine (List.perm_append_comm_assoc _ _ _).trans ?_
      rw [List.take_append_drop]
      exact List.filter_append_perm _ _
    · intro u hu
      obtain rfl := List.mem_singleton.mp hu
      exact ⟨ht, hlive, fun v hv => by simpa using (List.mem_filter.mp (List.mem_of_mem_take hv)).2⟩
    · rw [hn]
      exact Nat.succ_le_succ (List.length_take_le n _)

theorem Orderly.release (h : Orderly s c ts) (ht : c.Made t) : Orderly s (c.release t) ts := by
  unfold Cache.release
  split
  next hheld =>
    have hheld : t.number ∈ c.held := by simpa using hheld
    refine show Orderly s ([t].foldl settle
      { c with held := c.held.erase t.number, retained := c.retained }) ts from
      h.letGo ?_ ?_ ?_ ?_ h.retained h.distinct h.room
    · exact fun k hk => hk.imp_left List.mem_of_mem_erase
    · rintro k (hk | hk)
      · by_cases hkt : k = t.number
        · exact .inr (by simp [hkt])
        · exact .inl (.inl ((List.mem_erase_of_ne hkt).mpr hk))
      · exact .inl (.inr hk)
    · intro u hu
      obtain rfl := List.mem_singleton.mp hu
      exact ⟨.inl hheld, ht⟩
    · simp
  next => exact h

theorem Orderly.discard (h : Orderly s c (t :: ts)) (ht : ¬ c.Kept t.number) : Orderly s c ts where
  __ := h
  made u hu := h.made u (hu.imp_right (Or.imp_right (List.mem_cons_of_mem t)))
  placed k hk := by
    refine (h.placed k hk).imp_right fun hn => (names_cons.mp hn).resolve_left ?_
    rintro rfl
    exact ht hk
  loose u hu := h.loose u (List.mem_cons_of_mem t hu)

/-! ## Working off notices -/

theorem drain_evicted : c.drain.evicted = c.evicted.filter c.alive := by
  have hframe := reclaimAll_frame (c := { c with notices := [] }) c.notices
  have halive : (c.notices.foldl reclaim { c with notices := [] }).alive = c.alive :=
    alive_congr hframe.1 hframe.2.2.1
  rw [Cache.drain, halive, hframe.2.1]

theorem kept_drain : c.drain.Kept k ↔ c.Kept k := by simp [Kept]

theorem Orderly.seats_drain {i : Nat} (h : Orderly s c ts) :
    c.drain.Seats i u ↔ c.Seats i u ∧ ¬ Names c.notices u.number := by
  refine h.seated.seats_drain fun t ht u hu heq => ?_
  exact (h.made u (.inl (.inl hu))).flags_eq (h.made t (.inr (.inl ht))) heq

theorem Orderly.inTable_drain (h : Orderly s c ts) :
    c.drain.InTable u ↔ c.InTable u ∧ c.Kept u.number := by
  constructor
  · rintro ⟨i, hi⟩
    obtain ⟨hi, hnone⟩ := h.seats_drain.mp hi
    exact ⟨⟨i, hi⟩, (h.kept u (.inl ⟨i, hi⟩)).resolve_right hnone⟩
  · rintro ⟨⟨i, hi⟩, hlive⟩
    refine ⟨i, h.seats_drain.mpr ⟨hi, ?_⟩⟩
    rintro ⟨n, hn, heq⟩
    exact h.dead n hn (heq ▸ hlive)

theorem Orderly.placed_drain (h : Orderly s c ts) :
    c.drain.Placed u ↔ c.Placed u ∧ c.Kept u.number := by
  rw [Placed, Placed, h.inTable_drain, drain_evicted, List.mem_filter, alive_iff_kept,
    or_and_right]

theorem Orderly.drain (h : Orderly s c ts) : Orderly s c.drain ts := by
  have htable (u : Ticket) (hu : c.drain.InTable u) : c.InTable u := by
    obtain ⟨i, hi⟩ := hu
    exact ⟨i, (h.seats_drain.mp hi).1⟩
  obtain ⟨hcapacity, hresizes⟩ := drain_table (c := c)
  obtain ⟨-, hretained, hnotices, hdropped, -, hplans⟩ := drain_frame (c := c)
  constructor
  case dropped => exact hdropped.trans h.dropped
  case capacity => rw [hcapacity, hresizes, h.capacity]
  case bound => exact hcapacity ▸ h.bound
  case seated => exact fun i t ht => hcapacity ▸ h.seated i t (h.seats_drain.mp ht).1
  case made =>
    intro t ht
    rw [h.placed_drain, hnotices] at ht
    refine (h.made t ?_).congr hplans
    rcases ht with ht | ht | ht
    · exact .inl ht.1
    · cases ht
    · exact .inr (.inr ht)
  case kept => exact fun t ht => .inl (kept_drain.mpr (h.placed_drain.mp ht).2)
  case placed =>
    intro k hk
    have hk := kept_drain.mp hk
    refine (h.placed k hk).imp_left ?_
    rintro ⟨t, ht, rfl⟩
    exact ⟨t, h.placed_drain.mpr ⟨ht, hk⟩, rfl⟩
  case apart =>
    intro t u ht hu
    rw [drain_evicted] at hu
    exact h.apart t u (htable t ht) (List.mem_of_mem_filter hu)
  case evicted => rw [drain_evicted]; exact h.evicted.sublist (List.filter_sublist.map _)
  case loose => exact fun t ht u hu => h.loose t ht u (h.placed_drain.mp hu).1
  case retained =>
    intro t ht
    rw [hretained] at ht
    obtain ⟨i, hi⟩ := h.retained t ht
    refine ⟨i, h.seats_drain.mpr ⟨hi, ?_⟩⟩
    rintro ⟨n, hn, heq⟩
    exact h.dead n hn (heq ▸ .inr ⟨t, ht, rfl⟩)
  case distinct => rw [hretained]; exact h.distinct
  case room => rw [hretained]; exact h.room
  case dead => rw [hnotices]; exact fun t ht => by cases ht
  case once => rw [hnotices]; exact .nil

/-! ## Doubling -/

theorem Orderly.exists_capacity (hv : s.settings.Valid) (h : Orderly s c ts) :
    ∃ k, c.capacity = 2 ^ k := by
  obtain ⟨a, ha⟩ := hv.initial
  exact ⟨a + c.counters.resizes, by rw [h.capacity, ha, Nat.pow_add]⟩

theorem Orderly.two_mul_capacity_le (hv : s.settings.Valid) (h : Orderly s c ts)
    (hroom : c.capacity < s.settings.maxCapacity) : 2 * c.capacity ≤ s.settings.maxCapacity := by
  obtain ⟨k, hk⟩ := h.exists_capacity hv
  obtain ⟨b, hb⟩ := hv.max
  rw [hk, hb] at hroom
  rw [hk, hb, ← Nat.pow_succ']
  exact Nat.pow_le_pow_right Nat.two_pos ((Nat.pow_lt_pow_iff_right Nat.one_lt_two).mp hroom)

theorem grow_resizes : c.grow.counters.resizes = c.counters.resizes + 1 := by
  simp [Cache.grow, -Array.foldl_toList]

theorem kept_grow : c.grow.Kept k ↔ c.Kept k := by simp [Kept]

theorem Orderly.inTable_grow (hv : s.settings.Valid) (h : Orderly s c ts) :
    c.grow.InTable u ↔ c.InTable u ∧ c.Kept u.number := by
  obtain ⟨k, hk⟩ := h.exists_capacity hv
  simp [InTable, h.seated.seats_grow hk, alive_iff_kept]

theorem Orderly.grow (hv : s.settings.Valid) (h : Orderly s c ts)
    (hroom : c.capacity < s.settings.maxCapacity) : Orderly s c.grow ts := by
  obtain ⟨k, hk⟩ := h.exists_capacity hv
  obtain ⟨-, hevicted, hretained, hnotices, hdropped, -, hplans⟩ := grow_frame (c := c)
  have hplaced (u : Ticket) (hu : c.grow.Placed u) : c.Placed u := by
    rw [Placed, h.inTable_grow hv, hevicted] at hu
    exact hu.imp_left And.left
  constructor
  case dropped => exact hdropped.trans h.dropped
  case capacity => rw [capacity_grow, grow_resizes, h.capacity, Nat.pow_succ']; ac_rfl
  case bound => rw [capacity_grow]; exact h.two_mul_capacity_le hv hroom
  case seated => exact fun i t ht => by rw [capacity_grow]; exact ((h.seated.seats_grow hk).mp ht).1
  case made =>
    intro t ht
    rw [hnotices] at ht
    exact (h.made t (ht.imp_left (hplaced t))).congr hplans
  case kept =>
    intro t ht
    rw [kept_grow, hnotices]
    exact h.kept t (hplaced t ht)
  case placed =>
    intro k hk
    have hk := kept_grow.mp hk
    refine (h.placed k hk).imp_left ?_
    rintro ⟨t, ht, rfl⟩
    refine ⟨t, ?_, rfl⟩
    rw [Placed, h.inTable_grow hv, hevicted]
    exact ht.imp_left fun ht => ⟨ht, hk⟩
  case apart =>
    intro t u ht hu
    exact h.apart t u ((h.inTable_grow hv).mp ht).1 (hevicted ▸ hu)
  case evicted => rw [hevicted]; exact h.evicted
  case loose => exact fun t ht u hu => h.loose t ht u (hplaced u hu)
  case retained =>
    intro t ht
    rw [hretained] at ht
    exact (h.inTable_grow hv).mpr ⟨h.retained t ht, .inr ⟨t, ht, rfl⟩⟩
  case distinct => rw [hretained]; exact h.distinct
  case room => rw [hretained]; exact h.room
  case dead =>
    intro t ht
    rw [kept_grow]
    exact h.dead t (hnotices ▸ ht)
  case once => rw [hnotices]; exact h.once

/-! ## Placing -/

/-- The cache with an executor in the slot for its flags; whoever stood there is evicted if
alive. -/
def seat (c : Cache σ δ) (t : Ticket) : Cache σ δ :=
  { c with evicted := c.evicted ++ (c.resident? t.flags).toList.filter c.alive }.setSlot t.flags
    (some t)

theorem Orderly.inTable_seat (hv : s.settings.Valid) (h : Orderly s c ts) :
    (c.seat t).InTable u ↔ u = t ∨ c.InTable u ∧ c.resident? t.flags ≠ some u := by
  obtain ⟨k, hk⟩ := h.exists_capacity hv
  have hseats (i : Nat) : (c.seat t).Seats i u ↔
      if i = slotIndex c.capacity t.flags then some t = some u else c.Seats i u :=
    seats_setSlot (slotIndex_lt hk)
  simp only [InTable, hseats]
  constructor
  · rintro ⟨i, hi⟩
    split at hi
    · exact .inl (Option.some.inj hi).symm
    next hne =>
      refine .inr ⟨⟨i, hi⟩, fun hr => hne ?_⟩
      rw [h.seated i u hi, ← h.seated _ u (resident?_eq_some.mp hr)]
  · rintro (rfl | ⟨⟨i, hi⟩, hr⟩)
    · exact ⟨slotIndex c.capacity u.flags, by simp⟩
    · refine ⟨i, ?_⟩
      rw [if_neg]
      · exact hi
      · rintro rfl
        exact hr (resident?_eq_some.mpr hi)

theorem mem_seat_evicted :
    u ∈ (c.seat t).evicted ↔ u ∈ c.evicted ∨ c.resident? t.flags = some u ∧ c.Kept u.number := by
  simp [seat, alive_iff_kept]

theorem Orderly.seat (hv : s.settings.Valid) (h : Orderly s c [t]) (hlive : c.Kept t.number)
    (hfree : ∀ r, c.resident? t.flags = some r → r ∉ c.retained) : Orderly s (c.seat t) [] := by
  have hplaced (u : Ticket) (hu : (c.seat t).Placed u) : u = t ∨ c.Placed u := by
    rw [Placed, h.inTable_seat hv, mem_seat_evicted] at hu
    rcases hu with (rfl | hu) | hu | hu
    · exact .inl rfl
    · exact .inr (.inl hu.1)
    · exact .inr (.inr hu)
    · exact .inr (.inl (.of_resident? hu.1))
  have hkept (k : Nat) : (c.seat t).Kept k ↔ c.Kept k := Iff.rfl
  have hcapacity : (c.seat t).capacity = c.capacity := capacity_setSlot
  have hmade : c.Made t := h.made t (.inr (.inr (List.mem_singleton_self t)))
  have hself (u : Ticket) (hu : c.Placed u) : t.number ≠ u.number :=
    h.loose t (List.mem_singleton_self t) u hu
  constructor
  case dropped => exact h.dropped
  case capacity => exact hcapacity.trans h.capacity
  case bound => exact hcapacity ▸ h.bound
  case seated =>
    intro i u hu
    obtain ⟨k, hk⟩ := h.exists_capacity hv
    have hu := (seats_setSlot (slotIndex_lt hk)).mp hu
    rw [hcapacity]
    split at hu
    · cases hu; assumption
    · exact h.seated i u hu
  case made =>
    rintro u (hu | hu | hu)
    · rcases hplaced u hu with rfl | hu
      · exact hmade
      · exact h.made u (.inl hu)
    · exact h.made u (.inr (.inl hu))
    · cases hu
  case kept =>
    intro u hu
    rcases hplaced u hu with rfl | hu
    · exact .inl hlive
    · exact h.kept u hu
  case placed =>
    intro k hk
    left
    -- The former resident, if it is alive, has gone from the slot to the evicted list.
    simp only [Placed, h.inTable_seat hv, mem_seat_evicted]
    rcases h.placed k hk with ⟨u, hu, rfl⟩ | hk
    · refine ⟨u, ?_, rfl⟩
      rcases hu with hu | hu
      · by_cases hr : c.resident? t.flags = some u
        · exact .inr (.inr ⟨hr, hk⟩)
        · exact .inl (.inr ⟨hu, hr⟩)
      · exact .inr (.inl hu)
    · obtain ⟨u, hu, rfl⟩ := hk
      exact ⟨u, .inl (.inl (List.mem_singleton.mp hu)), rfl⟩
  case apart =>
    intro u v hu hv' heq
    rcases (h.inTable_seat hv).mp hu with rfl | ⟨hu, hr⟩
    · rcases mem_seat_evicted.mp hv' with hv' | hv'
      · exact hself v (.inr hv') heq
      · exact hself v (.inl (.of_resident? hv'.1)) heq
    · rcases mem_seat_evicted.mp hv' with hv' | hv'
      · exact h.apart u v hu hv' heq
      · have hvt := InTable.of_resident? hv'.1
        obtain rfl := (h.made u (.inl (.inl hu))).eq (h.made v (.inl (.inl hvt))) heq
        exact hr hv'.1
  case evicted =>
    show ((c.evicted ++ (c.resident? t.flags).toList.filter c.alive).map Ticket.number).Nodup
    rw [List.map_append, List.nodup_append]
    refine ⟨h.evicted, ?_, ?_⟩
    · refine List.Nodup.sublist (List.filter_sublist.map _) ?_
      cases c.resident? t.flags <;> simp
    · rintro _ hmem _ hmem' heq
      obtain ⟨v, hv', rfl⟩ := List.mem_map.mp hmem
      obtain ⟨r, hr, rfl⟩ := List.mem_map.mp hmem'
      have hr : c.resident? t.flags = some r := by simpa using List.mem_of_mem_filter hr
      exact h.apart r v (.of_resident? hr) hv' heq.symm
  case loose => exact fun u hu => by cases hu
  case retained =>
    intro u hu
    exact (h.inTable_seat hv).mpr (.inr ⟨h.retained u hu, fun hr => hfree u hr hu⟩)
  case distinct => exact h.distinct
  case room => exact h.room
  case dead => exact h.dead
  case once => exact h.once

end Cache

end FlagSelect
