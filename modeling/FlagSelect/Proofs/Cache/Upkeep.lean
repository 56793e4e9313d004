import FlagSelect.Proofs.Cache.Order

/-!
# Runs keep the order

A lookup works off notices, makes an executor, places it and retains it, and each of these keeps the
order. Main statement: `Run.orderly`.
-/

namespace FlagSelect.Cache

variable {σ δ ρ : Type} [Driver δ] {c c' : Cache σ δ} {s : Setup σ ρ} {t u r : Ticket}
  {ts : List Ticket} {k n : Nat} {flags : Flags}

theorem kept_congr (hheld : c'.held = c.held) (hretained : c'.retained = c.retained) :
    c'.Kept k ↔ c.Kept k := by
  rw [Kept, hheld, hretained, Kept]

theorem Orderly.closeQuietly (h : Orderly s c ts) : Orderly s (c.closeQuietly t) ts :=
  h.congr (by simp) (by simp) (by simp) (by simp) (by simp) (by simp) (by simp)
    fun _ => kept_congr (by simp) (by simp)

theorem Orderly.closeAll (h : Orderly s c ts) (us : List Ticket) :
    Orderly s (us.foldl Cache.closeQuietly c) ts := by
  induction us generalizing c with
  | nil => exact h
  | cons u us ih => exact ih h.closeQuietly

theorem Orderly.hold (h : Orderly s c ts) (hlive : c.Kept t.number) : Orderly s (c.hold t) ts := by
  refine h.congr rfl rfl rfl rfl rfl rfl rfl fun k => ?_
  simp only [Kept, Cache.hold, List.mem_cons]
  constructor
  · rintro ((rfl | hk) | hk)
    · exact hlive
    · exact .inl hk
    · exact .inr hk
  · rintro (hk | hk)
    · exact .inl (.inr hk)
    · exact .inr hk

theorem release_held : (c.release t).held = c.held.erase t.number := by
  unfold Cache.release
  split
  · simp
  next hnot => rw [List.erase_of_not_mem (by simpa using hnot)]

/-! ## Placing -/

theorem Orderly.seat_congr (hv : s.settings.Valid) (h : Orderly s c [t]) (hlive : c.Kept t.number)
    (hfree : ∀ r, c.resident? t.flags = some r → r ∉ c.retained)
    (hslots : c'.slots = (c.seat t).slots) (hevicted : c'.evicted = (c.seat t).evicted)
    (hheld : c'.held = c.held) (hretained : c'.retained = c.retained)
    (hnotices : c'.notices = c.notices) (hdropped : c'.dropped = c.dropped)
    (hresizes : c'.counters.resizes = c.counters.resizes)
    (hplans : planAt c'.executors = planAt c.executors) :
    Orderly s c' [] ∧ c'.InTable t := by
  constructor
  · exact (h.seat hv hlive hfree).congr hslots hevicted hretained hnotices hdropped hresizes hplans
      fun _ => kept_congr hheld hretained
  · have hself : (c.seat t).InTable t := (h.inTable_seat hv).mpr (.inl rfl)
    simpa only [InTable, Seats, hslots] using hself

theorem Orderly.vacant (hv : s.settings.Valid) (h : Orderly s c [t]) (hlive : c.Kept t.number)
    (hr : c.resident? t.flags = none) :
    Orderly s (c.setSlot t.flags (some t)) [] ∧ (c.setSlot t.flags (some t)).InTable t :=
  h.seat_congr hv hlive (by simp [hr]) rfl (by simp [Cache.seat, setSlot, hr]) rfl rfl rfl rfl rfl
    rfl

theorem Orderly.replace (hv : s.settings.Valid) (h : Orderly s c [t]) (hlive : c.Kept t.number)
    (hr : c.resident? t.flags = some r) (hdead : ¬ c.Kept r.number) :
    Orderly s ((c.closeQuietly r).setSlot t.flags (some t)) [] ∧
      ((c.closeQuietly r).setSlot t.flags (some t)).InTable t := by
  have hfree (u : Ticket) (hu : c.resident? t.flags = some u) : u ∉ c.retained := by
    rw [hr] at hu
    cases hu
    exact fun hmem => hdead (.inr ⟨r, hmem, rfl⟩)
  refine h.seat_congr hv hlive hfree ?_ ?_ ?_ ?_ ?_ ?_ ?_ ?_ <;>
    simp [Cache.seat, setSlot, Cache.capacity, hr, alive_eq_false.mpr hdead]

/-- The slot of a live executor can be taken once that executor is evicted. -/
theorem Orderly.displace (hv : s.settings.Valid) (h : Orderly s c [t]) (hheld : t.number ∈ c.held)
    (hr : c.resident? t.flags = some r) :
    Orderly s ((c.evict r).setSlot t.flags (some t)) [] ∧
      ((c.evict r).setSlot t.flags (some t)).InTable t := by
  generalize hdismiss : (c.closeQuietly r).dismiss r.flags = c₁
  have hheld₁ : c₁.held = c.held := by rw [← hdismiss]; simp
  have hslots₁ : c₁.slots = c.slots := by rw [← hdismiss]; simp
  have hretained : c₁.retained = c.retained.filter (·.flags != r.flags) := by
    rw [← hdismiss]
    simp [Cache.dismiss]
  have hr₁ : c₁.resident? t.flags = some r := by
    rw [Cache.resident?, Cache.capacity, hslots₁]
    exact hr
  have h₁ : Orderly s c₁ [t] := hdismiss ▸ h.closeQuietly.dismiss
  have hlive : c₁.Kept t.number := by
    rw [Kept, hheld₁]
    exact .inl hheld
  have hfree (u : Ticket) (hu : c₁.resident? t.flags = some u) : u ∉ c₁.retained := by
    rw [hr₁] at hu
    cases hu
    simp [hretained]
  have hevict : c.evict r = { c₁ with
      evicted := if c₁.alive r then c₁.evicted ++ [r] else c₁.evicted
      counters := { c₁.counters with evictions := c₁.counters.evictions + 1 } } := by
    rw [Cache.evict, hdismiss]
  rw [hevict]
  refine h₁.seat_congr hv hlive hfree rfl ?_ rfl rfl rfl rfl rfl rfl
  cases halive : c₁.alive r <;> simp [Cache.seat, setSlot, hr₁, halive]

/-- An executor for other flags than all in the table has its slot in the end. -/
theorem Orderly.place (hv : s.settings.Valid) (h : Orderly s c [t]) (hheld : t.number ∈ c.held)
    (hfresh : ∀ u, c.InTable u → u.flags ≠ t.flags) :
    Orderly s (c.place s.settings.maxCapacity t n) [] ∧
      (c.place s.settings.maxCapacity t n).InTable t := by
  induction n generalizing c with
  | zero =>
      unfold Cache.place
      split
      next hr => exact h.vacant hv (.inl hheld) hr
      next r hr =>
        split
        next hfree =>
          have hdead := hfree.resolve_left (hfresh r (.of_resident? hr))
          exact h.replace hv (.inl hheld) hr (by rwa [← alive_iff_kept])
        next => exact h.displace hv hheld hr
  | succ n ih =>
      unfold Cache.place
      split
      next hr => exact h.vacant hv (.inl hheld) hr
      next r hr =>
        split
        next hfree =>
          have hdead := hfree.resolve_left (hfresh r (.of_resident? hr))
          exact h.replace hv (.inl hheld) hr (by rwa [← alive_iff_kept])
        next =>
          dsimp only
          split
          next hroom =>
            exact ih (h.grow hv hroom) (by simpa) fun u hu =>
              hfresh u ((h.inTable_grow hv).mp hu).1
          next => exact h.displace hv hheld hr

/-! ## Making -/

theorem kept_enlist {plan : Plan σ} :
    (c.enlist flags plan).Kept k ↔ k = c.executors.size ∨ c.Kept k := by
  simp [Kept, or_assoc]

theorem Made.enlist {plan : Plan σ} (h : c.Made t) : (c.enlist flags plan).Made t := by
  obtain ⟨p, hp, hflags⟩ := h
  refine ⟨p, ?_, hflags⟩
  simpa [planAt, Array.getElem?_push, Nat.ne_of_lt (Made.lt ⟨p, hp, hflags⟩)] using hp

theorem made_nextTicket {plan : Plan σ} (hplan : plan.flags = flags) :
    (c.enlist flags plan).Made (c.nextTicket flags) :=
  ⟨plan, by simp [planAt, nextTicket], hplan⟩

theorem Orderly.enlist {plan : Plan σ} (h : Orderly s c []) (hplan : plan.flags = flags) :
    Orderly s (c.enlist flags plan) [c.nextTicket flags] := by
  have hself (u : Ticket) (hu : c.Made u) : c.executors.size ≠ u.number := Nat.ne_of_gt hu.lt
  constructor
  case dropped => exact h.dropped
  case capacity => exact h.capacity
  case bound => exact h.bound
  case seated => exact h.seated
  case made =>
    rintro u (hu | hu | hu)
    · exact (h.made u (.inl hu)).enlist
    · exact (h.made u (.inr (.inl hu))).enlist
    · obtain rfl := List.mem_singleton.mp hu
      exact made_nextTicket hplan
  case kept => exact fun u hu => (h.kept u hu).imp_left fun hk => kept_enlist.mpr (.inr hk)
  case placed =>
    intro k hk
    rcases kept_enlist.mp hk with rfl | hk
    · exact .inr ⟨c.nextTicket flags, List.mem_singleton_self _, rfl⟩
    · exact .inl ((h.placed k hk).resolve_right names_nil)
  case apart => exact h.apart
  case evicted => exact h.evicted
  case loose =>
    intro t ht u hu
    obtain rfl := List.mem_singleton.mp ht
    exact hself u (h.made u (.inl hu))
  case retained => exact h.retained
  case distinct => exact h.distinct
  case room => exact h.room
  case dead =>
    intro u hu hk
    rcases kept_enlist.mp hk with hk | hk
    · exact hself u (h.made u (.inr (.inl hu))) hk.symm
    · exact h.dead u hu hk
  case once => exact h.once

theorem Orderly.prepare (h : Orderly s c ts) : Orderly s (c.prepare t).2 ts :=
  h.congr (by simp) (by simp) (by simp) (by simp) (by simp) (by simp) (by simp)
    fun _ => kept_congr (by simp) (by simp)

theorem Orderly.lt_of_kept (h : Orderly s c []) (hk : c.Kept k) : k < c.executors.size := by
  obtain ⟨u, hu, rfl⟩ := (h.placed k hk).resolve_right names_nil
  exact (h.made u (.inl hu)).lt

theorem Synthesis.orderly_error {e : Error} (hr : Synthesis s c flags (.error e, c'))
    (h : Orderly s c []) : Orderly s c' [] := by
  cases hr with
  | noPlan _ => exact h
  | @unprepared plan _ hplan _ _ =>
      have hflags := (Template.plan_ok hplan).1
      have hprepare := (h.enlist hflags).prepare (t := c.nextTicket flags)
      refine (hprepare.release ((made_nextTicket hflags).congr (by simp))).discard ?_
      have hnew : ¬ c.Kept c.executors.size := fun hk => Nat.lt_irrefl _ (h.lt_of_kept hk)
      rw [Kept, release_held]
      simpa [nextTicket, Kept] using hnew

theorem Synthesis.orderly_ok (hr : Synthesis s c flags (.ok t, c')) (h : Orderly s c []) :
    Orderly s c' [t] ∧ t.flags = flags ∧ c'.slots = c.slots := by
  cases hr with
  | prepared hplan _ _ =>
      have horderly := (h.enlist (Template.plan_ok hplan).1).prepare (t := c.nextTicket flags)
      exact ⟨horderly.congr rfl rfl rfl rfl rfl rfl rfl fun _ => Iff.rfl, rfl, by simp⟩
  | postponed hplan _ =>
      have horderly := h.enlist (Template.plan_ok hplan).1
      exact ⟨horderly.congr rfl rfl rfl rfl rfl rfl rfl fun _ => Iff.rfl, rfl, by simp⟩

/-! ## Operations -/

theorem Orderly.lookup (hv : s.settings.Valid) (h : Orderly s c []) (flags : Flags) :
    Orderly s (c.lookup s flags).2 [] := by
  have hx := lookup_spec c s flags
  generalize c.lookup s flags = x at hx
  cases hx with
  | @hit t hhit =>
      obtain ⟨hr, -, halive⟩ := hhit
      have hlive := alive_iff_kept.mp halive
      have hcount : Orderly s c.drain.countHit [] :=
        h.drain.congr rfl rfl rfl rfl rfl rfl rfl fun _ => Iff.rfl
      exact (hcount.hold hlive).retain (.of_resident? hr) (.inl List.mem_cons_self)
  | failed _ hsyn => exact hsyn.orderly_error h.drain
  | @made t c' hmiss hsyn =>
      obtain ⟨hc', hflags, hslots⟩ := hsyn.orderly_ok h.drain
      -- After the notices all that stands in the table is alive, so that what stands there for
      -- these flags would have been found.
      have hfresh (u : Ticket) (hu : c'.InTable u) : u.flags ≠ t.flags := by
        intro heq
        have hu : c.drain.InTable u := by simpa only [InTable, Seats, hslots] using hu
        refine hmiss u ⟨?_, heq.trans hflags, ?_⟩
        · rw [← hflags, ← heq]
          exact h.drain.seated.resident? hu
        · exact alive_iff_kept.mpr (kept_drain.mpr (h.placed_drain.mp (.inl hu)).2)
      have hheld := hsyn.held rfl
      obtain ⟨hplace, htable⟩ := hc'.place hv hheld hfresh
      exact hplace.retain htable (.inl (by simpa using hheld))

theorem Orderly.query [RecordHost σ ρ] {record : Object} (h : Orderly s c ts) :
    Orderly s (c.query s t record).2 ts :=
  h.congr (by simp) (by simp) (by simp) (by simp) (by simp) (by simp) (by simp)
    fun _ => kept_congr (by simp) (by simp)

theorem Orderly.bindValues {record : Object} (h : Orderly s c ts) :
    Orderly s (c.bindValues s t record).2 ts :=
  h.congr (by simp) (by simp) (by simp) (by simp) (by simp) (by simp) (by simp)
    fun _ => kept_congr (by simp) (by simp)

theorem Orderly.reload (h : Orderly s c []) : Orderly s c.reload.2 [] := by
  rw [reload_snd]
  exact h.drain.closeAll _

/-- Whoever is given an executor is given one that has been made for the flags. -/
theorem Orderly.made_lookup (h : Orderly s c []) {x : Except Error Ticket × Cache σ δ}
    (hx : Lookup s c flags x) (ht : x.1 = .ok t) : x.2.Made t := by
  cases hx with
  | hit hhit =>
      cases ht
      have hmade := h.drain.made t (.inl (.inl (.of_resident? hhit.1)))
      exact hmade.congr (by simp [Cache.hold])
  | failed _ _ => cases ht
  | made _ hsyn =>
      cases ht
      obtain ⟨hc', -, -⟩ := hsyn.orderly_ok h.drain
      exact (hc'.made t (.inr (.inr (List.mem_singleton_self t)))).congr (by simp)

theorem Orderly.handle [RecordHost σ ρ] {record : Object} (hv : s.settings.Valid)
    (h : Orderly s c []) : Orderly s (c.handle s record).2 [] := by
  have horderly := h.lookup hv (RecordHost.flags c.world.host record)
  have hspec := lookup_spec c s (RecordHost.flags c.world.host record)
  unfold Cache.handle
  split <;> rename_i heq <;> rw [heq] at horderly hspec
  · exact horderly
  · exact horderly.query.release ((h.made_lookup hspec rfl).congr (by simp))

theorem Orderly.perform [RecordHost σ ρ] (hv : s.settings.Valid) (h : Orderly s c [])
    (op : Operation σ) (hop : op.Allowed c) (hdropped : (op.perform s c).dropped = false) :
    Orderly s (op.perform s c) [] := by
  cases op with
  | lookup flags => exact h.lookup hv flags
  | handle record => exact h.handle hv
  | reload => exact h.reload
  | drop => cases hdropped
  | pin t => exact h.hold (.inl hop.held)
  | unpin t => exact h.release hop.made
  | prepare t => exact h.prepare
  | query t record => exact h.query
  | bindValues t record => exact h.bindValues
  | elsewhere host => exact h.congr rfl rfl rfl rfl rfl rfl rfl fun _ => Iff.rfl

theorem not_inTable_start {w : World σ δ} : ¬ (start s w).InTable t := by
  simp [start, empty, InTable, Seats, Array.getElem?_replicate]

theorem orderly_start {w : World σ δ} (hv : s.settings.Valid) : Orderly s (start s w) [] := by
  have hplaced (t : Ticket) : ¬ (start s w).Placed t := by
    rintro (ht | hmem)
    · exact not_inTable_start ht
    · cases hmem
  have hkept (k : Nat) : ¬ (start s w).Kept k := by
    rintro (hk | ⟨_, hk, -⟩) <;> cases hk
  have hcapacity : (start s w).capacity = s.settings.initialCapacity := by
    simp [start, empty, Cache.capacity]
  constructor
  case dropped => rfl
  case capacity => rw [hcapacity]; exact (Nat.mul_one _).symm
  case bound => rw [hcapacity]; exact hv.le
  case seated => exact fun i t ht => absurd ⟨i, ht⟩ not_inTable_start
  case made =>
    rintro t (ht | ht | ht)
    · exact absurd ht (hplaced t)
    · cases ht
    · cases ht
  case kept => exact fun t ht => absurd ht (hplaced t)
  case placed => exact fun k hk => absurd hk (hkept k)
  case apart => exact fun t u _ hu => by cases hu
  case evicted => exact .nil
  case loose => exact fun t ht => by cases ht
  case retained => exact fun t ht => by cases ht
  case distinct => exact .nil
  case room => exact Nat.zero_le _
  case dead => exact fun t ht => by cases ht
  case once => exact .nil

/-- A cache that is gone does not come back. -/
theorem Operation.dropped_of_perform [RecordHost σ ρ] {op : Operation σ} (hop : op.Allowed c)
    (h : (op.perform s c).dropped = false) : c.dropped = false := by
  cases op with
  | lookup _ | handle _ | reload | drop => exact hop
  | pin t | elsewhere host => exact h
  | unpin t | prepare t | query t record | bindValues t record => simpa [perform] using h

/-- A cache that is not gone yet is in order. -/
theorem Run.orderly [RecordHost σ ρ] {w : World σ δ} {past : List (Cache σ δ)}
    (hv : s.settings.Valid) (h : Run s w (c :: past)) (hdropped : c.dropped = false) :
    Orderly s c [] := by
  refine Run.invariant (P := fun c => c.dropped = false → Orderly s c [])
    (fun _ => orderly_start hv) (fun c op hc hop hd => ?_) h hdropped
  exact (hc (op.dropped_of_perform hop hd)).perform hv op hop hd

end FlagSelect.Cache
