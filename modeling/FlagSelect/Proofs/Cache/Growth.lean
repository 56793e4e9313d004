import FlagSelect.Proofs.Cache.Reload
import FlagSelect.Proofs.Cache.Served
import Mathlib.Data.Finset.Card
import Mathlib.Order.Bounds.Defs

/-!
# How far a table grows

As long as all executors given out are kept alive and there is a table for them, a table doubles
just until they all have slots of their own. Main statement: `Chronicle.least_capacity`.
-/

namespace FlagSelect.Cache

variable {n : Nat} {fs : List Flags}

theorem Apart.of_dvd {m : Nat} (h : Apart n fs) (hdvd : n ∣ m) : Apart m fs := by
  rintro f hf g hg ⟨hne, hmod⟩
  refine h f hf g hg ⟨hne, ?_⟩
  rw [← Nat.mod_mod_of_dvd f.toNat hdvd, hmod, Nat.mod_mod_of_dvd _ hdvd]

variable {σ δ ρ : Type} [Driver δ] {s : Setup σ ρ} {c : Cache σ δ} {t u : Ticket}

theorem Orderly.eq_of_mod_eq {ts : List Ticket} (hv : s.settings.Valid) (h : Orderly s c ts)
    (ht : c.InTable t) (hu : c.InTable u)
    (hmod : t.flags.toNat % c.capacity = u.flags.toNat % c.capacity) : t = u := by
  obtain ⟨k, hk⟩ := h.exists_capacity hv
  have hindex : slotIndex c.capacity t.flags = slotIndex c.capacity u.flags := by
    rw [hk, slotIndex_two_pow, slotIndex_two_pow, ← hk, hmod]
  have ht := resident?_eq_some.mp (h.seated.resident? ht)
  rw [hindex] at ht
  exact ht.unique (resident?_eq_some.mp (h.seated.resident? hu))

theorem Orderly.occupied_eq (h : Orderly s c [])
    (hfs : ∀ f, f ∈ fs ↔ ∃ t, c.InTable t ∧ t.flags = f) : c.occupied = fs.toFinset.card := by
  have hmem (t : Ticket) : t ∈ c.slots.toList.filterMap id ↔ c.InTable t := by
    rw [← mem_slots_iff, List.mem_filterMap]
    simp
  have hnodup : (c.slots.toList.filterMap id).Nodup :=
    (h.known_nodup.of_map _).sublist (List.sublist_append_left _ _)
  have hflags : ((c.slots.toList.filterMap id).map Ticket.flags).Nodup := by
    refine hnodup.map_on fun t ht u hu heq => ?_
    have hr := h.seated.resident? ((hmem t).mp ht)
    rw [heq, h.seated.resident? ((hmem u).mp hu)] at hr
    exact (Option.some.inj hr).symm
  have hsame : fs.toFinset = ((c.slots.toList.filterMap id).map Ticket.flags).toFinset := by
    ext f
    simp only [List.mem_toFinset, hfs, List.mem_map, hmem]
  rw [hsame, List.toFinset_card_of_nodup hflags, List.length_map,
    List.length_filterMap_eq_countP, occupied, ← Array.countP_toList]
  rfl

variable [RecordHost σ ρ] {w : World σ δ} {x : Deed σ δ} {past : List (Deed σ δ)}

/-- What a table is like while all executors given out are alive and displace no one. -/
structure Grown (s : Setup σ ρ) (past : List (Deed σ δ)) (c : Cache σ δ) : Prop where
  inTable : ∀ t ∈ served s past, c.InTable t
  evictions : c.counters.evictions = 0
  syntheses : c.counters.syntheses = (used s past).toFinset.card
  /-- In no smaller table would they all have slots of their own. -/
  crowded : ∀ j, s.settings.initialCapacity ≤ 2 ^ j → 2 ^ j < c.capacity →
    ¬ Apart (2 ^ j) (used s past)

theorem Grown.turn (h : Grown s past x.before) (hturn : Turn s x)
    (hserved : ∀ u, x.before.InTable u → u ∈ served s past)
    (halive : ∀ t ∈ served s past, x.before.Kept t.number ∧ (x.after s).Kept t.number)
    (hapart : Apart s.settings.maxCapacity (used s (x :: past))) :
    Grown s (x :: past) (x.after s) := by
  have hstays := hturn.not_displaces hapart hserved
  constructor
  case inTable =>
    intro t ht
    rcases mem_served_cons.mp ht with ht | ht
    · exact (hturn.given t ht).2
    · exact (hturn.stays t (h.inTable t ht) (halive t ht).2).resolve_left (hstays t)
  case evictions =>
    have hsame := hturn.evictions.resolve_left fun ⟨r, hr⟩ => hstays r hr
    exact hsame.trans h.evictions
  case syntheses =>
    cases hgiven : x.given? s with
    | none =>
        have hsame := hturn.syntheses.resolve_left fun ⟨t, ht⟩ => by cases hgiven.symm.trans ht.1
        rw [hsame, h.syntheses, used_of_not_given hgiven]
    | some t =>
        have hsought := (hturn.given t hgiven).1
        rw [used_of_given hgiven, List.toFinset_cons]
        by_cases hhit : x.Hits s
        · -- Who is found has been given out before.
          have hsame := hturn.syntheses.resolve_left fun ⟨u, hu⟩ => (hturn.made u hu).2 hhit
          obtain ⟨_, u, hflags, hu⟩ := hturn.hits.mp hhit
          cases hsought.symm.trans hflags
          have hused : t.flags ∈ used s past := hu.2.2 ▸ flags_mem_used (hserved u hu.1)
          rw [Finset.insert_eq_of_mem (List.mem_toFinset.mpr hused), hsame, h.syntheses]
        · have hfresh : t.flags ∉ used s past := fun hused => by
            obtain ⟨u, hu, hflags⟩ := List.mem_map.mp hused
            exact hhit (hturn.hits.mpr
              ⟨t.flags, u, hsought, h.inTable u hu, (halive u hu).1, hflags⟩)
          rw [Finset.card_insert_of_notMem (by simpa using hfresh),
            (hturn.makes t hgiven hhit).2, h.syntheses]
  case crowded =>
    intro j hj hlt hall
    by_cases hless : 2 ^ j < x.before.capacity
    · exact h.crowded j hj hless (hall.mono used_subset_cons)
    · obtain ⟨t, u, ht, hu, hclash⟩ := hturn.crowded j (Nat.le_of_not_lt hless) hlt
      exact hall u.flags (used_subset_cons (flags_mem_used (hserved u hu))) t.flags
        (flags_mem_used (mem_served_cons.mpr (.inl ht))) hclash

theorem grown_start (hv : s.settings.Valid) : Grown s [] (start s w) where
  inTable := nofun
  evictions := rfl
  syntheses := rfl
  crowded j hj hlt := by
    have hcapacity : (start s w).capacity = s.settings.initialCapacity := by
      rw [(orderly_start hv).capacity]
      exact Nat.mul_one _
    exact absurd (hcapacity ▸ hlt) (Nat.not_lt.mpr hj)

theorem Chronicle.grown (hv : s.settings.Valid) (h : Chronicle s w past c)
    (hdropped : c.dropped = false) (halive : ∀ t ∈ served s past, c.Kept t.number)
    (hapart : Apart s.settings.maxCapacity (used s past)) : Grown s past c := by
  refine h.induct (P := fun past c => (∀ t ∈ served s past, c.Kept t.number) →
    Apart s.settings.maxCapacity (used s past) → Grown s past c) hv
    (fun _ _ => grown_start hv) (fun x past hpast ih hc hop hafter halive hapart => ?_) hdropped
    halive hapart
  have hturn := hc.turn hv hop hafter.dropped
  -- Whoever is alive now was alive before, as the dead stay dead.
  have hlive (t : Ticket) (ht : t ∈ served s past) :
      x.before.Kept t.number ∧ (x.after s).Kept t.number := by
    have hk := halive t (mem_served_cons.mpr (.inr ht))
    exact ⟨hturn.dead t (hpast.made_of_mem_served hv hc.dropped ht) hk, hk⟩
  exact (ih (fun t ht => (hlive t ht).1) (hapart.mono used_subset_cons)).turn hturn
    (fun u hu => hpast.mem_served hv hc.dropped hu) hlive hapart

/-- While all executors given out are kept alive, the table has the least capacity at which the
flags they have been looked up for all have slots of their own, if there is one that it may have. Each
executor is in its slot, was made once and is given out whenever its flags are looked up. -/
theorem Chronicle.least_capacity (hs : s.settings.defect? = none) (h : Chronicle s w past c)
    (hdropped : c.dropped = false) (halive : ∀ t ∈ served s past, c.alive t = true)
    (hleast : IsLeast {n | (∃ k, n = 2 ^ k) ∧ s.settings.initialCapacity ≤ n ∧
      Apart n (used s past)} n)
    (hmax : n ≤ s.settings.maxCapacity) :
    c.capacity = n ∧ c.counters.resizes = Nat.log2 (n / s.settings.initialCapacity) ∧
    c.counters.evictions = 0 ∧ c.counters.syntheses = (used s past).toFinset.card ∧
    c.occupied = (used s past).toFinset.card ∧
    (∀ t ∈ served s past, c.Seats (t.flags.toNat % n) t) ∧
    ∀ t ∈ served s past, ∀ u ∈ served s past, t.flags = u.flags → t = u := by
  have hv := Settings.valid_of_defect? hs
  have hc := h.run.orderly hv hdropped
  obtain ⟨⟨⟨j, rfl⟩, hinitial, hapart⟩, hlower⟩ := hleast
  obtain ⟨k, hk⟩ := hc.exists_capacity hv
  have hdvd : 2 ^ j ∣ s.settings.maxCapacity := by
    obtain ⟨b, hb⟩ := hv.max
    rw [hb] at hmax ⊢
    exact Nat.pow_dvd_pow 2 ((Nat.pow_le_pow_iff_right Nat.one_lt_two).mp hmax)
  have hgrown := h.grown hv hdropped (fun t ht => alive_iff_kept.mp (halive t ht))
    (hapart.of_dvd hdvd)
  have hsame (t u : Ticket) (ht : t ∈ served s past) (hu : u ∈ served s past)
      (hmod : t.flags.toNat % c.capacity = u.flags.toNat % c.capacity) : t = u :=
    hc.eq_of_mod_eq hv (hgrown.inTable t ht) (hgrown.inTable u hu) hmod
  -- In no smaller table would they have slots of their own, and in this one they have.
  have hcapacity : c.capacity = 2 ^ j := by
    apply Nat.le_antisymm
    · exact Nat.le_of_not_lt fun hlt => hgrown.crowded j hinitial hlt hapart
    · refine hlower ⟨⟨k, hk⟩, ?_, ?_⟩
      · rw [hc.capacity]
        exact Nat.le_mul_of_pos_right _ (Nat.two_pow_pos _)
      · rintro f hf g hg ⟨hne, hmod⟩
        obtain ⟨t, ht, rfl⟩ := List.mem_map.mp hf
        obtain ⟨u, hu, rfl⟩ := List.mem_map.mp hg
        exact hne (congrArg Ticket.flags (hsame t u ht hu hmod))
  refine ⟨hcapacity, ?_, hgrown.evictions, hgrown.syntheses, ?_, fun t ht => ?_,
    fun t ht u hu heq => hsame t u ht hu (by rw [heq])⟩
  · obtain ⟨a, ha⟩ := hv.initial
    rw [← hcapacity, hc.capacity, ha, Nat.mul_div_cancel_left _ (Nat.two_pow_pos a),
      Nat.log2_two_pow]
  · refine hc.occupied_eq fun f => ?_
    rw [used, List.mem_map]
    constructor
    · rintro ⟨t, ht, rfl⟩
      exact ⟨t, hgrown.inTable t ht, rfl⟩
    · rintro ⟨t, ht, rfl⟩
      exact ⟨t, h.mem_served hv hdropped ht, rfl⟩
  · have hseat := resident?_eq_some.mp (hc.seated.resident? (hgrown.inTable t ht))
    rwa [hcapacity, slotIndex_two_pow] at hseat

/-- A table that starts with two slots and may double three times. -/
def narrow : Setup Scripted.Host (List Value) :=
  { plainQuery with settings := { initialCapacity := 2, maxCapacity := 16, retained := 1 } }

/-- Four executors for even flags, one of them looked up twice, have eight slots for them. -/
theorem least_capacity_of_even : ∃ c past, Chronicle narrow stubbornWorld past c ∧
    used narrow past = [2, 6, 4, 2, 0] ∧ c.capacity = 8 ∧ c.counters.resizes = 2 ∧
    c.counters.syntheses = 4 ∧ c.occupied = 4 ∧ c.Seats 6 ⟨6, 3⟩ := by
  obtain ⟨c, past, h, hdropped, hused, halive, hlast⟩ : ∃ c past,
      Chronicle narrow stubbornWorld past c ∧ c.dropped = false ∧
      used narrow past = [2, 6, 4, 2, 0] ∧ (∀ t ∈ served narrow past, c.alive t = true) ∧
      ⟨6, 3⟩ ∈ served narrow past := by
    have h := Chronicle.start (s := narrow) (w := stubbornWorld)
      |>.perform (.lookup 0) rfl
      |>.perform (.lookup 2) rfl
      |>.perform (.lookup 4) rfl
      |>.perform (.lookup 6) rfl
      |>.perform (.lookup 2) rfl
    exact ⟨_, _, h, rfl, by decide +kernel, by decide +kernel, by decide +kernel⟩
  have hleast : IsLeast {n | (∃ k, n = 2 ^ k) ∧ narrow.settings.initialCapacity ≤ n ∧
      Apart n (used narrow past)} 8 := by
    rw [hused]
    refine ⟨⟨⟨3, rfl⟩, by decide, by decide⟩, ?_⟩
    rintro _ ⟨⟨k, rfl⟩, -, hapart⟩
    by_contra hless
    have hk : k < 3 := (Nat.pow_lt_pow_iff_right Nat.one_lt_two).mp (Nat.lt_of_not_le hless)
    obtain rfl | rfl | rfl : k = 0 ∨ k = 1 ∨ k = 2 := by omega
    all_goals exact absurd hapart (by decide)
  obtain ⟨hcapacity, hresizes, -, hsyntheses, hoccupied, hseats, -⟩ :=
    h.least_capacity (by decide) hdropped halive hleast (by decide)
  have hcard : (used narrow past).toFinset.card = 4 := by
    rw [hused]
    decide
  exact ⟨c, past, h, hused, hcapacity, hresizes, hsyntheses.trans hcard, hoccupied.trans hcard,
    hseats ⟨6, 3⟩ hlast⟩

end FlagSelect.Cache
