import FlagSelect.Proofs.Cache.Placement
import FlagSelect.Proofs.Cache.Reload
import Mathlib.Logic.Function.Iterate

/-!
# What an eviction changes

In a table of live executors the steps of placing a new one have closed forms: doublings change the
slots alone, and an eviction closes one statement, takes one executor off the retention list and
puts it on the evicted list, or its notice in the queue. Main statement: `Orderly.evicts`.
-/

namespace FlagSelect.Cache

variable {σ δ ρ : Type} [Driver δ] {c c' d : Cache σ δ} {s : Setup σ ρ} {t u r : Ticket}
  {o : Option Ticket} {ts us : List Ticket} {k n : Nat} {flags : Flags}

/-! ## Closed forms -/

theorem rehashAll_of_alive {os : List (Option Ticket)} (h : ∀ u, some u ∈ os → c.alive u = true) :
    (os.foldl rehash c).executors = c.executors ∧ (os.foldl rehash c).world = c.world := by
  induction os generalizing c with
  | nil => exact ⟨rfl, rfl⟩
  | cons o os ih =>
      obtain ⟨hexecutors, hworld⟩ := ih (c := c.rehash o) fun u hu => by
        rw [alive_rehash]
        exact h u (List.mem_cons_of_mem o hu)
      have hone : (c.rehash o).executors = c.executors ∧ (c.rehash o).world = c.world := by
        cases o with
        | none => exact ⟨rfl, rfl⟩
        | some u => simp [rehash, h u List.mem_cons_self, setSlot]
      exact ⟨hexecutors.trans hone.1, hworld.trans hone.2⟩

/-- A doubling closes no statement if no one in the table is dead. -/
theorem grow_of_live (hlive : ∀ u, c.InTable u → c.Kept u.number) :
    c.grow.executors = c.executors ∧ c.grow.world = c.world :=
  rehashAll_of_alive (c := { c with slots := Array.replicate (2 * c.capacity) none })
    fun u hu => alive_iff_kept.mpr (hlive u (mem_slots_iff.mp hu))

theorem Orderly.eq_of_retained (h : Orderly s c ts) (hr : c.InTable r) (hu : u ∈ c.retained)
    (heq : u.flags = r.flags) : u = r := by
  have hresident := h.seated.resident? (h.retained u hu)
  rw [heq, h.seated.resident? hr] at hresident
  exact (Option.some.inj hresident).symm

section Evict

variable (h : Orderly s c ts) (hr : c.InTable r)

include h hr

theorem Orderly.eq_of_number (hu : u ∈ c.retained) (heq : u.number = r.number) : u = r :=
  (h.made u (.inl (.inl (h.retained u hu)))).eq (h.made r (.inl (.inl hr))) heq

theorem Orderly.alive_dismissed (hheld : d.held = c.held)
    (hretained : d.retained = c.retained.filter (·.flags != r.flags)) :
    d.alive r = true ↔ r.number ∈ c.held := by
  rw [alive_iff, hheld, hretained]
  refine or_iff_left ?_
  rintro ⟨u, hu, heq⟩
  obtain ⟨hu, hflags⟩ := List.mem_filter.mp hu
  simp [h.eq_of_number hr hu heq] at hflags

theorem Orderly.dismissed_dead (hlive : c.Kept r.number) (hheld : d.held = c.held)
    (hretained : d.retained = c.retained.filter (·.flags != r.flags)) :
    (c.retained.filter (·.flags == r.flags)).filter (fun u => !d.alive u) =
      if r.number ∈ c.held then [] else [r] := by
  have halive := h.alive_dismissed hr hheld hretained
  have hown (u : Ticket) (hu : u ∈ c.retained) : u.flags = r.flags ↔ u = r :=
    ⟨h.eq_of_retained hr hu, congrArg Ticket.flags⟩
  split
  next hin =>
    refine List.filter_eq_nil_iff.mpr fun u hu => ?_
    obtain ⟨hu, hflags⟩ := List.mem_filter.mp hu
    rw [(hown u hu).mp (by simpa using hflags), halive.mpr hin]
    decide
  next hout =>
    -- Whoever is alive and not held is retained, and no other one is for the same flags.
    obtain ⟨u, hu, heq⟩ := hlive.resolve_left hout
    have hr' : r ∈ c.retained := h.eq_of_number hr hu heq ▸ hu
    have hsole : c.retained.filter (·.flags == r.flags) = [r] := by
      rw [List.filter_congr (q := (· == r)) fun u hu => by simp [hown u hu], List.filter_beq,
        List.count_eq_one_of_mem h.distinct.of_map hr']
      rfl
    rw [hsole, List.filter_singleton, Bool.eq_false_iff.mpr (mt halive.mp hout)]
    rfl

theorem Orderly.evict_eq (hlive : c.Kept r.number) : c.evict r = { c.closeQuietly r with
    retained := c.retained.filter (·.flags != r.flags)
    evicted := c.evicted ++ if r.number ∈ c.held then [r] else []
    notices := c.notices ++ if r.number ∈ c.held then [] else [r]
    counters := { c.counters with evictions := c.counters.evictions + 1 } } := by
  have hretained : (c.closeQuietly r).retained = c.retained := by simp
  have hdead := h.dismissed_dead (d := { c.closeQuietly r with
    retained := c.retained.filter (·.flags != r.flags) }) hr hlive (by simp) rfl
  have hdismiss : (c.closeQuietly r).dismiss r.flags = { c.closeQuietly r with
      retained := c.retained.filter (·.flags != r.flags)
      notices := c.notices ++ if r.number ∈ c.held then [] else [r] } := by
    rw [Cache.dismiss, settleAll_eq _ (by simpa using h.dropped), hretained, hdead]
    simp
  have halive := h.alive_dismissed (d := (c.closeQuietly r).dismiss r.flags) hr (by simp)
    (by rw [hdismiss])
  rw [hdismiss] at halive
  rw [Cache.evict, hdismiss]
  simp only [halive]
  split <;> simp

end Evict

/-! ## Placing -/

/-- The cache after `t` has taken the slot of `r`, the table having doubled `n` times before. -/
def displaced (n : Nat) (t r : Ticket) (c : Cache σ δ) : Cache σ δ :=
  { c with
    executors := (c.closeQuietly r).executors
    slots := ((grow^[n] c).setSlot t.flags (some t)).slots
    evicted := c.evicted ++ if r.number ∈ c.held then [r] else []
    retained := c.retained.filter (·.flags != r.flags)
    notices := c.notices ++ if r.number ∈ c.held then [] else [r]
    counters := { c.counters with
      resizes := c.counters.resizes + n, evictions := c.counters.evictions + 1 }
    world := (c.closeQuietly r).world }

theorem displaced_grow (hlive : ∀ u, c.InTable u → c.Kept u.number) :
    displaced n t r c.grow = displaced (n + 1) t r c := by
  obtain ⟨hexecutors, hworld⟩ := grow_of_live hlive
  obtain ⟨hexecutors, hworld⟩ := closeQuietly_congr (t := r) hexecutors hworld
  unfold displaced
  rw [hexecutors, hworld, Function.iterate_succ_apply]
  simp [grow_counters, Nat.add_assoc, Nat.add_comm 1]

theorem Orderly.displaced_eq (h : Orderly s c ts) (hlive : ∀ u, c.InTable u → c.Kept u.number)
    (hr : c.resident? t.flags = some r) :
    (c.evict r).setSlot t.flags (some t) = displaced 0 t r c := by
  have hr := InTable.of_resident? hr
  rw [h.evict_eq hr (hlive r hr)]
  simp [displaced, setSlot, Cache.capacity]

theorem Placement.displaced (h : Placement s.settings.maxCapacity t c o c') (hv : s.settings.Valid)
    (hc : Orderly s c [t]) (hlive : ∀ u, c.InTable u → c.Kept u.number) (ho : o = some r) :
    ∃ n, (grow^[n] c).capacity = s.settings.maxCapacity ∧
      (grow^[n] c).resident? t.flags = some r ∧ c' = displaced n t r c := by
  induction h with
  | vacant _ | stale _ _ => cases ho
  | doubled _ _ hroom _ ih =>
      have hlive' (u : Ticket) (hu : (grow _).InTable u) : (grow _).Kept u.number :=
        kept_grow.mpr ((hc.inTable_grow hv).mp hu).2
      -- Before and after a doubling the closed form is the same.
      obtain ⟨n, hfull, hr, hc'⟩ := ih (hc.grow hv hroom) hlive' ho
      exact ⟨n + 1, hfull, hr, hc'.trans (displaced_grow hlive)⟩
  | displacing hr _ hfull =>
      cases ho
      exact ⟨0, Nat.le_antisymm hc.bound hfull, hr, hc.displaced_eq hlive hr⟩

/-- What comes of placing `t` in a cache where the resident `r` loses its slot. -/
structure Evicts (s : Setup σ ρ) (t r : Ticket) (c c' : Cache σ δ) : Prop where
  /-- At full size nothing changes but what concerns the resident. -/
  displaced : ∃ n, (grow^[n] c).capacity = s.settings.maxCapacity ∧
    (grow^[n] c).resident? t.flags = some r ∧ c' = displaced n t r c
  clash : Clash s.settings.maxCapacity r.flags t.flags
  resident : c.InTable r
  table : ∀ u, c'.InTable u ↔ u = t ∨ c.InTable u ∧ u ≠ r
  evictions : c'.counters.evictions = c.counters.evictions + 1
  closed : ¬ c'.HasOpen r.number
  others : ∀ k, k ≠ r.number → c'.executors[k]? = c.executors[k]?
  /-- Nothing is asked of the driver but to close the resident's statement, if it is open. -/
  world : c'.world = { c.world with driver := (closeEach (c.openOf [r]) c.world.driver).2 }
  retained : r ∉ c'.retained
  tracked : r ∈ c'.evicted ↔ r.number ∈ c'.held
  noticed : r ∈ c'.notices ↔ r.number ∉ c'.held

theorem Placement.evicts (h : Placement s.settings.maxCapacity t c (some r) c')
    (hv : s.settings.Valid) (hc : Orderly s c [t]) (hlive : ∀ u, c.InTable u → c.Kept u.number)
    (hfresh : ∀ u, c.InTable u → u.flags ≠ t.flags) : Evicts s t r c c' := by
  have hlands := h.lands hv hc hlive hfresh
  obtain ⟨hr, hclash⟩ := hlands.displaced r rfl
  obtain ⟨n, hfull, hresident, hc'⟩ := h.displaced hv hc hlive rfl
  have hcloses : Closes c [r] c' := by
    rw [hc']
    exact (Closes.close c r).congr rfl rfl
  constructor
  case displaced => exact ⟨n, hfull, hresident, hc'⟩
  case clash => exact hclash
  case resident => exact hr
  case table =>
    intro u
    rw [hlands.table, ne_eq, Option.some.injEq, eq_comm (a := r)]
  case evictions => rw [hc']; rfl
  case closed => exact fun hopen => (hcloses.hasOpen.mp hopen).1 (by simp)
  case others => exact fun k hk => hcloses.getElem?_executors (by simpa using hk.symm)
  case world => exact hcloses.world_eq (by simp)
  case retained => simp [hc', Cache.displaced]
  case tracked =>
    have hnot : r ∉ c.evicted := fun hmem => hc.apart r r hr hmem rfl
    rw [hc']
    by_cases hheld : r.number ∈ c.held <;> simp [Cache.displaced, hheld, hnot]
  case noticed =>
    have hnot : r ∉ c.notices := fun hmem => hc.dead r hmem (hlive r hr)
    rw [hc']
    by_cases hheld : r.number ∈ c.held <;> simp [Cache.displaced, hheld, hnot]

/-! ## Lookups -/

theorem exists_place (hcount : c.counters.evictions < (c.lookup s flags).2.counters.evictions) :
    ∃ t c₁, (∀ u, ¬ c.drain.Hit flags u) ∧ c.drain.synthesize s flags = (.ok t, c₁) ∧
      c.lookup s flags = (.ok t,
        (c₁.place s.settings.maxCapacity t s.settings.maxCapacity.log2).retain
          s.settings.retained t) := by
  unfold lookup at hcount ⊢
  dsimp only at hcount ⊢
  cases hfilter : (c.drain.resident? flags).filter
      fun r => r.flags == flags && c.drain.alive r with
  | some t =>
      rw [hfilter] at hcount
      simp [hold, drain_counters] at hcount
  | none =>
      have hmiss (u : Ticket) : ¬ c.drain.Hit flags u := by
        rw [← hit_iff, hfilter]
        exact (Option.some_ne_none u).symm
      have hsyn := synthesis c.drain s flags
      rw [hfilter] at hcount
      rcases hmade : c.drain.synthesize s flags with ⟨_ | t, c₁⟩ <;> rw [hmade] at hcount hsyn
      · simp [hsyn.effect_error.2.1, drain_counters] at hcount
      · exact ⟨t, c₁, hmiss, rfl, rfl⟩

theorem Orderly.evicts (hv : s.settings.Valid) (h : Orderly s c [])
    (hmiss : ∀ u, ¬ c.drain.Hit flags u) (hsyn : Synthesis s c.drain flags (.ok t, c'))
    (hcount : c.counters.evictions <
      (c'.place s.settings.maxCapacity t s.settings.maxCapacity.log2).counters.evictions) :
    ∃ r, c.InTable r ∧ c.Kept r.number ∧
      Evicts s t r c' (c'.place s.settings.maxCapacity t s.settings.maxCapacity.log2) := by
  obtain ⟨hc', hlive, hfresh, o, ho⟩ := hsyn.newcomer hv h fun u hu => hmiss u (h.hit_drain.mpr hu)
  have htable (u : Ticket) : c'.InTable u ↔ c.InTable u ∧ c.Kept u.number :=
    (inTable_congr (hsyn.orderly_ok h.drain).2.2).trans h.inTable_drain
  obtain ⟨resizes, hplaced⟩ := (ho.lands hv hc' hlive hfresh).counters
  rw [hplaced, hsyn.effect_ok.2.2.2] at hcount
  cases o with
  | none => simp [drain_counters] at hcount
  | some r =>
      have hevicts := ho.evicts hv hc' hlive hfresh
      exact ⟨r, ((htable r).mp hevicts.resident).1, ((htable r).mp hevicts.resident).2, hevicts⟩

end FlagSelect.Cache
