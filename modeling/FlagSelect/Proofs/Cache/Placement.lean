import FlagSelect.Proofs.Cache.Layout

/-!
# Where a lookup puts an executor

A table doubles for as long as a live executor for other flags has the slot, and at its full size
that executor loses it. `Placement` lists these steps, and `Effect` says what a lookup as a whole
leaves: who has a slot, what has been counted and who is retained. Main statement: `Orderly.effect`.
-/

namespace FlagSelect.Cache

variable {σ δ ρ : Type} [Driver δ] {c c' : Cache σ δ} {s : Setup σ ρ} {t u r : Ticket}
  {o : Option Ticket} {k m n : Nat} {flags : Flags}

/-- Whether flags are different and have the same slot all the same in a table of so many slots. -/
def Clash (n : Nat) (f g : Flags) : Prop := f ≠ g ∧ f.toNat % n = g.toNat % n

instance {f g : Flags} : Decidable (Clash n f g) := inferInstanceAs (Decidable (_ ∧ _))

theorem Seated.clash (h : Seated c) (hc : c.capacity = 2 ^ k) (hr : c.resident? flags = some r)
    (hne : r.flags ≠ flags) : Clash c.capacity r.flags flags := by
  refine ⟨hne, ?_⟩
  have hindex := h _ r (resident?_eq_some.mp hr)
  rw [hc, slotIndex_two_pow, slotIndex_two_pow] at hindex
  rw [hc, hindex]

/-- How an executor comes to its slot, with the live executor that loses it, if any. -/
inductive Placement (maxCapacity : Nat) (t : Ticket) :
    Cache σ δ → Option Ticket → Cache σ δ → Prop where
  | vacant {c : Cache σ δ} : c.resident? t.flags = none →
      Placement maxCapacity t c none (c.setSlot t.flags (some t))
  | stale {c : Cache σ δ} {r : Ticket} : c.resident? t.flags = some r →
      r.flags = t.flags ∨ ¬ c.alive r →
      Placement maxCapacity t c none ((c.closeQuietly r).setSlot t.flags (some t))
  | doubled {c c' : Cache σ δ} {r : Ticket} {o : Option Ticket} : c.resident? t.flags = some r →
      r.flags ≠ t.flags → c.capacity < maxCapacity → Placement maxCapacity t c.grow o c' →
      Placement maxCapacity t c o c'
  | displacing {c : Cache σ δ} {r : Ticket} : c.resident? t.flags = some r →
      r.flags ≠ t.flags → maxCapacity ≤ c.capacity →
      Placement maxCapacity t c (some r) ((c.evict r).setSlot t.flags (some t))

/-- With enough doublings left an executor is displaced at the full size only. -/
theorem placement (hroom : m ≤ c.capacity * 2 ^ n) :
    ∃ o, Placement m t c o (c.place m t n) := by
  induction n generalizing c with
  | zero =>
      unfold place
      split
      next hr => exact ⟨_, .vacant hr⟩
      next r hr =>
        split
        next hstale => exact ⟨_, .stale hr hstale⟩
        next hlive => exact ⟨_, .displacing hr (not_or.mp hlive).1 (by simpa using hroom)⟩
  | succ n ih =>
      unfold place
      split
      next hr => exact ⟨_, .vacant hr⟩
      next r hr =>
        split
        next hstale => exact ⟨_, .stale hr hstale⟩
        next hlive =>
          have hne := (not_or.mp hlive).1
          dsimp only
          split
          next hless =>
            have hgrown : m ≤ c.grow.capacity * 2 ^ n := by
              rwa [capacity_grow, Nat.mul_comm 2, Nat.mul_assoc, ← Nat.pow_succ']
            obtain ⟨o, ho⟩ := ih hgrown
            exact ⟨o, .doubled hr hne hless ho⟩
          next hfull => exact ⟨_, .displacing hr hne (Nat.le_of_not_lt hfull)⟩

/-! ## Placing an executor -/

theorem grow_counters :
    c.grow.counters = { c.counters with resizes := c.counters.resizes + 1 } := by
  simp [grow, -Array.foldl_toList]

theorem evict_counters :
    (c.evict r).counters = { c.counters with evictions := c.counters.evictions + 1 } := by
  simp [evict]

/-- What comes of placing an executor in a table of live ones. -/
structure Lands (maxCapacity : Nat) (t : Ticket) (c : Cache σ δ) (o : Option Ticket)
    (c' : Cache σ δ) : Prop where
  table : ∀ u, c'.InTable u ↔ u = t ∨ c.InTable u ∧ o ≠ some u
  counters : ∃ resizes, c'.counters = { c.counters with
    resizes, evictions := c.counters.evictions + o.toList.length }
  retained : o = none → c'.retained = c.retained
  displaced : ∀ r, o = some r → c.InTable r ∧ Clash maxCapacity r.flags t.flags
  crowded : ∀ j, c.capacity ≤ 2 ^ j → 2 ^ j < c'.capacity →
    ∃ u, c.InTable u ∧ Clash (2 ^ j) u.flags t.flags

theorem not_lt_capacity (h : c'.capacity = c.capacity) (hk : c.capacity ≤ k) : ¬ k < c'.capacity :=
  h ▸ Nat.not_lt.mpr hk

theorem inTable_congr (hslots : c'.slots = c.slots) : c'.InTable u ↔ c.InTable u := by
  simp only [InTable, Seats, hslots]

theorem Placement.lands (h : Placement s.settings.maxCapacity t c o c') (hv : s.settings.Valid)
    (hc : Orderly s c [t]) (hlive : ∀ u, c.InTable u → c.Kept u.number)
    (hfresh : ∀ u, c.InTable u → u.flags ≠ t.flags) : Lands s.settings.maxCapacity t c o c' := by
  induction h with
  | @vacant c hr =>
      constructor
      case table =>
        intro u
        have hseat : (c.setSlot t.flags (some t)).InTable u ↔ (c.seat t).InTable u :=
          inTable_congr rfl
        rw [hseat, hc.inTable_seat hv, hr]
      case counters => exact ⟨_, rfl⟩
      case retained => exact fun _ => rfl
      case displaced =>
        intro r hr
        cases hr
      case crowded => exact fun j hj hlt => absurd hlt (not_lt_capacity capacity_setSlot hj)
  | @stale c r hr hstale =>
      have hr := InTable.of_resident? hr
      rcases hstale with hflags | hdead
      · exact absurd hflags (hfresh r hr)
      · exact absurd (alive_iff_kept.mpr (hlive r hr)) hdead
  | @doubled c c' r o hr hne hroom _ ih =>
      obtain ⟨k, hk⟩ := hc.exists_capacity hv
      have htable (u : Ticket) : c.grow.InTable u ↔ c.InTable u := by
        rw [hc.inTable_grow hv]
        exact and_iff_left_of_imp (hlive u)
      have hgrow := ih (hc.grow hv hroom)
        (fun u hu => kept_grow.mpr (hlive u ((htable u).mp hu)))
        fun u hu => hfresh u ((htable u).mp hu)
      constructor
      case table => exact fun u => by rw [hgrow.table, htable]
      case counters =>
        obtain ⟨resizes, hcounters⟩ := hgrow.counters
        exact ⟨resizes, by rw [hcounters, grow_counters]⟩
      case retained => exact fun ho => (hgrow.retained ho).trans grow_frame.2.2.1
      case displaced => exact fun u hu => by rw [← htable]; exact hgrow.displaced u hu
      case crowded =>
        intro j hj hlt
        -- Either it is this doubling, with `r` in the way, or a later one.
        rcases Nat.eq_or_lt_of_le hj with hj | hj
        · exact ⟨r, .of_resident? hr, hj ▸ hc.seated.clash hk hr hne⟩
        · have hdouble : c.grow.capacity ≤ 2 ^ j := by
            rw [hk, Nat.pow_lt_pow_iff_right Nat.one_lt_two] at hj
            rw [capacity_grow, hk, ← Nat.pow_succ']
            exact Nat.pow_le_pow_right Nat.two_pos hj
          obtain ⟨u, hu, hclash⟩ := hgrow.crowded j hdouble hlt
          exact ⟨u, (htable u).mp hu, hclash⟩
  | @displacing c r hr hne hfull =>
      obtain ⟨k, hk⟩ := hc.exists_capacity hv
      have hcapacity : c.capacity = s.settings.maxCapacity := Nat.le_antisymm hc.bound hfull
      have hslots : ((c.evict r).setSlot t.flags (some t)).slots = (c.seat t).slots := by
        simp [setSlot, Cache.seat, Cache.capacity]
      constructor
      case table => exact fun u => by rw [inTable_congr hslots, hc.inTable_seat hv, hr]
      case counters => exact ⟨c.counters.resizes, by simp [evict_counters]⟩
      case retained =>
        intro ho
        cases ho
      case displaced =>
        intro u hu
        cases hu
        exact ⟨.of_resident? hr, hcapacity ▸ hc.seated.clash hk hr hne⟩
      case crowded =>
        intro j hj hlt
        refine absurd hlt (not_lt_capacity ?_ hj)
        rw [Cache.capacity, hslots]
        simp [Cache.capacity, Cache.seat, setSlot]

/-! ## Looking an executor up -/

/-- Whether an executor for some flags is alive and has a slot. -/
def Present (c : Cache σ δ) (flags : Flags) (t : Ticket) : Prop :=
  c.InTable t ∧ c.Kept t.number ∧ t.flags = flags

theorem Orderly.present_unique (h : Orderly s c []) (ht : c.Present flags t)
    (hu : c.Present flags u) : t = u := by
  have hr := h.seated.resident? ht.1
  rw [ht.2.2, ← hu.2.2, h.seated.resident? hu.1] at hr
  exact (Option.some.inj hr).symm

theorem Orderly.hit_drain (h : Orderly s c []) : c.drain.Hit flags t ↔ c.Present flags t := by
  rw [Hit, alive_iff_kept, kept_drain, Present]
  constructor
  · rintro ⟨hr, hflags, hlive⟩
    exact ⟨(h.inTable_drain.mp (.of_resident? hr)).1, hlive, hflags⟩
  · rintro ⟨ht, hlive, rfl⟩
    exact ⟨h.drain.seated.resident? (h.inTable_drain.mpr ⟨ht, hlive⟩), rfl, hlive⟩

theorem drain_counters : c.drain.counters =
    { c.counters with reclaimed := c.counters.reclaimed + c.notices.length } := by
  have hreclaim (c : Cache σ δ) (t : Ticket) : (c.reclaim t).counters =
      { c.counters with reclaimed := c.counters.reclaimed + 1 } := by
    unfold reclaim
    dsimp only
    split <;> simp
  have hfold (ts : List Ticket) (c : Cache σ δ) : (ts.foldl reclaim c).counters =
      { c.counters with reclaimed := c.counters.reclaimed + ts.length } := by
    induction ts generalizing c with
    | nil => rfl
    | cons t ts ih =>
        rw [List.foldl_cons, ih, hreclaim, List.length_cons, Nat.add_assoc, Nat.add_comm 1]
  exact hfold c.notices { c with notices := [] }

/-- The retention list with an executor made the latest of it. -/
def latest (limit : Nat) (t : Ticket) (retained : List Ticket) : List Ticket :=
  (t :: retained.filter (·.flags != t.flags)).take limit

theorem retain_retained {limit : Nat} (h : c.retained.length ≤ limit) :
    (c.retain limit t).retained = latest limit t c.retained := by
  unfold retain
  split
  next hlimit =>
    subst hlimit
    simpa [latest] using h
  next => simp [latest, -List.foldl_append]

/-- Who a lookup gives, and how it is counted. -/
inductive Ending (c : Cache σ δ) (flags : Flags) : Except Error Ticket → Counters → Prop where
  | hit {t : Ticket} {reclaimed : Nat} : c.Present flags t →
      Ending c flags (.ok t) { c.counters with hits := c.counters.hits + 1, reclaimed }
  | failed {e : Error} {reclaimed : Nat} : (∀ t, ¬ c.Present flags t) →
      Ending c flags (.error e) { c.counters with reclaimed }
  | made {reclaimed resizes evictions : Nat} : (∀ t, ¬ c.Present flags t) →
      Ending c flags (.ok (c.nextTicket flags))
        { syntheses := c.counters.syntheses + 1, hits := c.counters.hits, reclaimed, resizes,
          evictions }

/-- What a lookup leaves, where `o` is the live executor that loses its slot, if any. -/
structure Effect (s : Setup σ ρ) (c : Cache σ δ) (flags : Flags) (o : Option Ticket)
    (x : Except Error Ticket × Cache σ δ) : Prop where
  ending : Ending c flags x.1 x.2.counters
  table : ∀ u, x.2.InTable u ↔ x.1 = .ok u ∨ c.InTable u ∧ c.Kept u.number ∧ o ≠ some u
  evictions : x.2.counters.evictions = c.counters.evictions + o.toList.length
  displaced : ∀ r, o = some r →
    c.InTable r ∧ c.Kept r.number ∧ Clash s.settings.maxCapacity r.flags flags
  failed : ∀ e, x.1 = .error e → x.2.retained = c.retained ∧ x.2.capacity = c.capacity
  retained : o = none → ∀ t, x.1 = .ok t →
    x.2.retained = latest s.settings.retained t c.retained
  /-- Wherever the table doubles, a live executor was in the way. -/
  crowded : ∀ j, c.capacity ≤ 2 ^ j → 2 ^ j < x.2.capacity →
    ∃ u, c.InTable u ∧ c.Kept u.number ∧ Clash (2 ^ j) u.flags flags

theorem Synthesis.effect_error {e : Error} (h : Synthesis s c flags (.error e, c')) :
    c'.slots = c.slots ∧ c'.counters = c.counters ∧ c'.retained = c.retained := by
  cases h with
  | noPlan _ => exact ⟨rfl, rfl, rfl⟩
  | unprepared _ _ _ => simp

theorem Synthesis.effect_ok (h : Synthesis s c flags (.ok t, c')) :
    t = c.nextTicket flags ∧ c'.retained = c.retained ∧ c'.notices = c.notices ∧
      c'.counters = { c.counters with syntheses := c.counters.syntheses + 1 } := by
  cases h with
  | prepared _ _ _ => simp [countSynthesis]
  | postponed _ _ => exact ⟨rfl, rfl, rfl, rfl⟩

theorem Orderly.effect_hit (h : Orderly s c []) (hhit : c.drain.Hit flags t) :
    Effect s c flags none (.ok t, (c.drain.countHit.hold t).retain s.settings.retained t) := by
  have hpresent := h.hit_drain.mp hhit
  have htable (u : Ticket) :
      ((c.drain.countHit.hold t).retain s.settings.retained t).InTable u ↔
        c.InTable u ∧ c.Kept u.number := by
    rw [← h.inTable_drain]
    exact inTable_congr (by simp [Cache.hold])
  have hcapacity : ((c.drain.countHit.hold t).retain s.settings.retained t).capacity =
      c.capacity := by
    refine Eq.trans ?_ (drain_table (c := c)).1
    simp [Cache.capacity, Cache.hold]
  constructor
  case ending =>
    simp only [retain_frame, Cache.hold, countHit, drain_counters]
    exact .hit hpresent
  case table =>
    intro u
    rw [htable]
    constructor
    · exact fun hu => .inr ⟨hu.1, hu.2, (Option.some_ne_none u).symm⟩
    · rintro (hu | hu)
      · cases hu
        exact ⟨hpresent.1, hpresent.2.1⟩
      · exact ⟨hu.1, hu.2.1⟩
  case evictions => simp [Cache.hold, countHit, drain_counters]
  case displaced =>
    intro r hr
    cases hr
  case failed =>
    intro e he
    cases he
  case retained =>
    intro _ u hu
    cases hu
    rw [retain_retained (by simpa [Cache.hold] using h.room)]
    simp [Cache.hold]
  case crowded => exact fun j hj hlt => absurd hlt (not_lt_capacity hcapacity hj)

theorem Orderly.effect_failed {e : Error} (h : Orderly s c [])
    (hmiss : ∀ t, ¬ c.Present flags t) (hsyn : Synthesis s c.drain flags (.error e, c')) :
    Effect s c flags none (.error e, c') := by
  obtain ⟨hslots, hcounters, hretained⟩ := hsyn.effect_error
  have hcapacity : c'.capacity = c.capacity := by
    rw [Cache.capacity, hslots]
    exact drain_table.1
  constructor
  case ending =>
    simp only [hcounters, drain_counters]
    exact .failed hmiss
  case table =>
    intro u
    rw [inTable_congr hslots, h.inTable_drain]
    simp
  case evictions => simp [hcounters, drain_counters]
  case displaced =>
    intro r hr
    cases hr
  case failed => exact fun _ _ => ⟨by simp [hretained], hcapacity⟩
  case retained =>
    intro _ t ht
    cases ht
  case crowded => exact fun j hj hlt => absurd hlt (not_lt_capacity hcapacity hj)

/-- What a new executor meets when it comes to be placed: live executors for other flags. -/
structure Newcomer (s : Setup σ ρ) (t : Ticket) (c : Cache σ δ) : Prop where
  orderly : Orderly s c [t]
  live : ∀ u, c.InTable u → c.Kept u.number
  fresh : ∀ u, c.InTable u → u.flags ≠ t.flags
  placement : ∃ o, Placement s.settings.maxCapacity t c o
    (c.place s.settings.maxCapacity t s.settings.maxCapacity.log2)

theorem Synthesis.newcomer (hsyn : Synthesis s c.drain flags (.ok t, c')) (hv : s.settings.Valid)
    (h : Orderly s c []) (hmiss : ∀ t, ¬ c.Present flags t) : Newcomer s t c' := by
  obtain ⟨hc', hflags, hslots⟩ := hsyn.orderly_ok h.drain
  have hnotices : c'.notices = [] := hsyn.effect_ok.2.2.1.trans drain_frame.2.2.1
  have htable (u : Ticket) : c'.InTable u ↔ c.InTable u ∧ c.Kept u.number :=
    (inTable_congr hslots).trans h.inTable_drain
  constructor
  case orderly => exact hc'
  case live => exact fun u hu => (hc'.kept u (.inl hu)).resolve_right (by simp [hnotices])
  case fresh =>
    exact fun u hu heq => hmiss u ⟨((htable u).mp hu).1, ((htable u).mp hu).2, heq.trans hflags⟩
  case placement =>
    obtain ⟨b, hb⟩ := hv.max
    obtain ⟨k, hk⟩ := hc'.exists_capacity hv
    -- The loop starts with as many doublings as can be needed.
    refine Cache.placement ?_
    rw [hb, Nat.log2_two_pow, hk]
    exact Nat.le_mul_of_pos_left _ (Nat.two_pow_pos k)

theorem Orderly.effect_made (hv : s.settings.Valid) (h : Orderly s c [])
    (hmiss : ∀ t, ¬ c.Present flags t) (hsyn : Synthesis s c.drain flags (.ok t, c')) :
    ∃ o, Effect s c flags o (.ok t,
      (c'.place s.settings.maxCapacity t s.settings.maxCapacity.log2).retain
        s.settings.retained t) := by
  obtain ⟨hc', hlive, hfresh, o, ho⟩ := hsyn.newcomer hv h hmiss
  obtain ⟨-, hflags, hslots⟩ := hsyn.orderly_ok h.drain
  obtain ⟨ht, hretained, -, hcounters⟩ := hsyn.effect_ok
  have htable (u : Ticket) : c'.InTable u ↔ c.InTable u ∧ c.Kept u.number :=
    (inTable_congr hslots).trans h.inTable_drain
  have hcapacity : c'.capacity = c.capacity := by
    rw [Cache.capacity, hslots]
    exact drain_table.1
  have horderly := (hc'.place (n := s.settings.maxCapacity.log2) hv (hsyn.held rfl) hfresh).1
  generalize c'.place s.settings.maxCapacity t s.settings.maxCapacity.log2 = c'' at ho horderly
  have hlands := ho.lands hv hc' hlive hfresh
  obtain ⟨resizes, hcounted⟩ := hlands.counters
  have hsame (u : Ticket) : (c''.retain s.settings.retained t).InTable u ↔ c''.InTable u :=
    inTable_congr (by simp)
  refine ⟨o, ?_⟩
  constructor
  case ending =>
    simp only [retain_frame, hcounted, hcounters, drain_counters, ht]
    rw [nextTicket, drain_frame.2.2.2.2.1]
    exact .made hmiss
  case table =>
    intro u
    rw [hsame, hlands.table, htable, Except.ok.injEq, eq_comm, and_assoc]
  case evictions => simp [hcounted, hcounters, drain_counters]
  case displaced =>
    intro r hr
    obtain ⟨hr, hclash⟩ := hlands.displaced r hr
    obtain ⟨hr, hkept⟩ := (htable r).mp hr
    exact ⟨hr, hkept, hflags ▸ hclash⟩
  case failed =>
    intro e he
    cases he
  case retained =>
    intro hnone u hu
    cases hu
    rw [retain_retained horderly.room, hlands.retained hnone, hretained]
    simp
  case crowded =>
    intro j hj hlt
    have hlt : 2 ^ j < c''.capacity := by simpa [Cache.capacity] using hlt
    obtain ⟨u, hu, hclash⟩ := hlands.crowded j (hcapacity ▸ hj) hlt
    obtain ⟨hu, hkept⟩ := (htable u).mp hu
    exact ⟨u, hu, hkept, hflags ▸ hclash⟩

theorem Orderly.effect (hv : s.settings.Valid) (h : Orderly s c []) (flags : Flags) :
    ∃ o, Effect s c flags o (c.lookup s flags) := by
  have hx := lookup_spec c s flags
  generalize c.lookup s flags = x at hx
  have hmiss (hnone : ∀ t, ¬ c.drain.Hit flags t) (t : Ticket) : ¬ c.Present flags t := fun ht =>
    hnone t (h.hit_drain.mpr ht)
  cases hx with
  | hit hhit => exact ⟨none, h.effect_hit hhit⟩
  | failed hnone hsyn => exact ⟨none, h.effect_failed (hmiss hnone) hsyn⟩
  | made hnone hsyn => exact h.effect_made hv (hmiss hnone) hsyn

end FlagSelect.Cache
