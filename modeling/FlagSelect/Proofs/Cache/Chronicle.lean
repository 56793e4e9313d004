import FlagSelect.Proofs.Cache.Moves
import FlagSelect.Proofs.Cache.Placement

/-!
# Chronicles

A chronicle is a run together with what was done in it. `Turn` says what one deed does to the table,
to the retention list and to the counters, and what it leaves as it was; whatever holds of a cache
on account of its past follows from that by induction. Main statement: `Chronicle.induct`.
-/

namespace FlagSelect.Cache

variable {σ δ ρ : Type} [Driver δ] {s : Setup σ ρ} {c c' : Cache σ δ} {t u : Ticket}
  {o : Option Ticket} {k : Nat} {flags : Flags}

/-! ## The dead -/

theorem Orderly.tracked (h : Orderly s c []) : Tracked c c.notices where
  seated := h.seated
  made t ht := by
    refine h.made t ?_
    rcases ht with ht | ht | ht
    · exact .inl (.inl ht)
    · exact .inl (.inl (h.retained t ht))
    · exact .inr (.inl ht)
  dead := h.dead

section Dead

variable [RecordHost σ ρ]

theorem Moves.made (hm : Moves s c c') (ht : c.Made t) : c'.Made t := by
  induction hm with
  | refl => exact ht
  | tail _ hmove ih =>
      cases hmove with
      | make _ => exact ih.enlist
      | prepare _ | query _ _ | close _ | write _ => exact ih.congr (by simp)
      | elsewhere _ | keep _ _ _ _ | post _ _ | serve _ | resize _ | note _ _ _ => exact ih

theorem Moves.dead (hm : Moves s c c') (ht : c.Made t) (hkept : c'.Kept t.number) :
    c.Kept t.number := by
  induction hm with
  | refl => exact hkept
  | tail hmoves hmove ih =>
      refine ih ?_
      cases hmove with
      | make _ => exact (kept_enlist.mp hkept).resolve_left (Nat.ne_of_lt (Moves.made hmoves ht).lt)
      | keep held retained halive _ => exact halive _ hkept
      | prepare _ | query _ _ | close _ | write _ => exact (kept_congr (by simp) (by simp)).mp hkept
      | elsewhere _ | post _ _ | serve _ | resize _ | note _ _ _ => exact hkept

end Dead

/-! ## Operations -/

/-- The flags for which an operation looks an executor up, if it does. -/
def Operation.sought [RecordHost σ ρ] (c : Cache σ δ) : Operation σ → Option Flags
  | lookup flags => some flags
  | handle record => some (RecordHost.flags c.world.host record)
  | reload | drop | pin _ | unpin _ | prepare _ | query _ _ | bindValues _ _ | elsewhere _ => none

theorem Effect.congr {x : Except Error Ticket × Cache σ δ} (h : Effect s c flags o x)
    (hslots : c'.slots = x.2.slots) (hretained : c'.retained = x.2.retained)
    (hcounters : c'.counters = x.2.counters) : Effect s c flags o (x.1, c') := by
  have hcapacity : c'.capacity = x.2.capacity := by rw [capacity, hslots, capacity]
  constructor
  case ending => exact hcounters ▸ h.ending
  case table => exact fun u => (inTable_congr hslots).trans (h.table u)
  case evictions => exact hcounters ▸ h.evictions
  case displaced => exact h.displaced
  case failed => exact fun e he => by rw [hretained, hcapacity]; exact h.failed e he
  case retained => exact fun ho t ht => hretained.trans (h.retained ho t ht)
  case crowded => exact fun j hj hlt => h.crowded j hj (hcapacity ▸ hlt)

theorem Ending.flags_eq {n : Counters} (h : Ending c flags (.ok t) n) : t.flags = flags := by
  cases h with
  | hit ht => exact ht.2.2
  | made _ => rfl

theorem Ending.syntheses {y : Except Error Ticket} {n : Counters} (h : Ending c flags y n) :
    (∃ t, y = .ok t ∧ ∀ u, ¬ c.Present flags u) ∨ n.syntheses = c.counters.syntheses := by
  cases h with
  | hit _ | failed _ => exact .inr rfl
  | made hnone => exact .inl ⟨_, rfl, hnone⟩

/-- A lookup that fails displaces no one. -/
theorem Effect.given {y : Except Error Ticket} (h : Effect s c flags (some u) (y, c')) :
    ∃ t, y = .ok t := by
  have hending : Ending c flags y c'.counters := h.ending
  have hcounted : c'.counters.evictions = c.counters.evictions + 1 := h.evictions
  generalize c'.counters = n at hending hcounted
  cases hending with
  | hit _ | made _ => exact ⟨_, rfl⟩
  | failed _ => exact absurd hcounted (Nat.succ_ne_self _).symm

/-- What an operation leaves as it was that looks nothing up. -/
structure Rests (c c' : Cache σ δ) : Prop where
  retained : c'.retained = c.retained
  capacity : c'.capacity = c.capacity
  counters : ∃ reclaimed, c'.counters = { c.counters with reclaimed }
  leaves : ∀ u, c'.InTable u → c.InTable u
  stays : ∀ u, c.InTable u → c.Kept u.number → c'.InTable u

theorem Rests.of_frame (hslots : c'.slots = c.slots) (hretained : c'.retained = c.retained)
    (hcounters : c'.counters = c.counters) : Rests c c' where
  retained := hretained
  capacity := by rw [Cache.capacity, hslots, Cache.capacity]
  counters := ⟨_, hcounters⟩
  leaves _ hu := (inTable_congr hslots).mp hu
  stays _ hu _ := (inTable_congr hslots).mpr hu

theorem Orderly.rests_reload (h : Orderly s c []) : Rests c c.reload.2 := by
  have hslots : c.reload.2.slots = c.drain.slots := by rw [reload_snd]; simp
  constructor
  case retained => simp
  case capacity => rw [Cache.capacity, hslots]; exact drain_table.1
  case counters =>
    rw [reload_snd]
    exact ⟨c.counters.reclaimed + c.notices.length, by simp [drain_counters]⟩
  case leaves => exact fun u hu => (h.inTable_drain.mp ((inTable_congr hslots).mp hu)).1
  case stays => exact fun u hu hk => (inTable_congr hslots).mpr (h.inTable_drain.mpr ⟨hu, hk⟩)

section Operations

variable [RecordHost σ ρ]

theorem Orderly.effect_handle (hv : s.settings.Valid) (h : Orderly s c []) (record : Object) :
    ∃ o, Effect s c (RecordHost.flags c.world.host record) o
      ((c.lookup s (RecordHost.flags c.world.host record)).1, (c.handle s record).2) := by
  obtain ⟨o, ho⟩ := h.effect hv (RecordHost.flags c.world.host record)
  refine ⟨o, ?_⟩
  unfold Cache.handle
  split <;> rename_i heq <;> rw [heq] at ho ⊢
  · exact ho
  · exact ho.congr (by simp) (by simp) (by simp)

/-- An operation looks an executor up or lets the table be. -/
theorem Orderly.effect_or_rests (hv : s.settings.Valid) (h : Orderly s c []) (op : Operation σ)
    (hdropped : (op.perform s c).dropped = false) :
    (∃ flags o, op.sought c = some flags ∧
      Effect s c flags o ((c.lookup s flags).1, op.perform s c)) ∨
    (op.sought c = none ∧ Rests c (op.perform s c)) := by
  cases op with
  | lookup flags =>
      obtain ⟨o, ho⟩ := h.effect hv flags
      exact .inl ⟨flags, o, rfl, ho⟩
  | handle record =>
      obtain ⟨o, ho⟩ := h.effect_handle hv record
      exact .inl ⟨_, o, rfl, ho⟩
  | drop => cases hdropped
  | reload => exact .inr ⟨rfl, h.rests_reload⟩
  | pin t | elsewhere host => exact .inr ⟨rfl, .of_frame rfl rfl rfl⟩
  | unpin t | prepare t | query t record | bindValues t record =>
      exact .inr ⟨rfl, .of_frame (by simp [Operation.perform]) (by simp [Operation.perform])
        (by simp [Operation.perform])⟩

end Operations

/-! ## Deeds -/

/-- An operation with the cache that it is carried out on. -/
structure Deed (σ δ : Type) [Driver δ] where
  before : Cache σ δ
  op : Operation σ

/-- The deeds of a run, the latest first, and the cache after them. -/
inductive Chronicle [RecordHost σ ρ] (s : Setup σ ρ) (w : World σ δ) :
    List (Deed σ δ) → Cache σ δ → Prop where
  | start : Chronicle s w [] (start s w)
  | perform {c : Cache σ δ} {past : List (Deed σ δ)} (op : Operation σ) :
      Chronicle s w past c → op.Allowed c → Chronicle s w (⟨c, op⟩ :: past) (op.perform s c)

variable [RecordHost σ ρ]

namespace Deed

def sought (x : Deed σ δ) : Option Flags := x.op.sought x.before

def after (s : Setup σ ρ) (x : Deed σ δ) : Cache σ δ := x.op.perform s x.before

/-- The executor that is looked up, if the lookup comes to one. -/
def given? (s : Setup σ ρ) (x : Deed σ δ) : Option Ticket :=
  x.sought.bind fun flags => (x.before.lookup s flags).1.toOption

/-- Whether a lookup is counted as one that found a live executor. -/
def Hits (s : Setup σ ρ) (x : Deed σ δ) : Prop :=
  (x.after s).counters.hits = x.before.counters.hits + 1

/-- Whether the executor that is looked up is counted as one that has been made. -/
def Makes (s : Setup σ ρ) (x : Deed σ δ) (t : Ticket) : Prop :=
  x.given? s = some t ∧ (x.after s).counters.syntheses = x.before.counters.syntheses + 1

/-- Whether a live executor loses its slot, and that is counted. -/
def Displaces (s : Setup σ ρ) (x : Deed σ δ) (r : Ticket) : Prop :=
  (x.after s).counters.evictions = x.before.counters.evictions + 1 ∧
    x.before.InTable r ∧ x.before.alive r = true ∧ ¬ (x.after s).InTable r

end Deed

theorem Chronicle.run {w : World σ δ} {past : List (Deed σ δ)} (h : Chronicle s w past c) :
    Run s w (c :: past.map Deed.before) := by
  induction h with
  | start => exact .start
  | perform op _ hop ih => exact ih.perform op hop

theorem Run.chronicle {w : World σ δ} {past : List (Cache σ δ)} (h : Run s w (c :: past)) :
    ∃ deeds, Chronicle s w deeds c ∧ deeds.map Deed.before = past := by
  generalize hl : c :: past = l at h
  induction h generalizing c past with
  | start => cases hl; exact ⟨[], .start, rfl⟩
  | perform op _ hop ih =>
      cases hl
      obtain ⟨deeds, hdeeds, rfl⟩ := ih rfl
      exact ⟨_, hdeeds.perform op hop, rfl⟩

/-- What a deed that is not the end of the cache does to the table, and how it is counted. -/
structure Turn (s : Setup σ ρ) (x : Deed σ δ) : Prop where
  lasts : ∀ t, x.before.Made t → (x.after s).Made t
  dead : ∀ t, x.before.Made t → (x.after s).Kept t.number → x.before.Kept t.number
  enters : ∀ u, (x.after s).InTable u → x.Makes s u ∨ x.before.InTable u
  stays : ∀ u, x.before.InTable u → (x.after s).Kept u.number →
    x.Displaces s u ∨ (x.after s).InTable u
  displaces : ∀ r, x.Displaces s r →
    ∃ t, x.given? s = some t ∧ Clash s.settings.maxCapacity r.flags t.flags
  evictions : (∃ r, x.Displaces s r) ∨
    (x.after s).counters.evictions = x.before.counters.evictions
  given : ∀ t, x.given? s = some t → x.sought = some t.flags ∧ (x.after s).InTable t
  hits : x.Hits s ↔ ∃ flags t, x.sought = some flags ∧ x.before.Present flags t
  same : ∀ flags t, x.sought = some flags → x.before.Present flags t → x.given? s = some t
  makes : ∀ t, x.given? s = some t → ¬ x.Hits s → x.Makes s t
  made : ∀ t, x.Makes s t → t.number = x.before.executors.size ∧ ¬ x.Hits s
  syntheses : (∃ t, x.Makes s t) ∨
    (x.after s).counters.syntheses = x.before.counters.syntheses
  retained : (∀ r, ¬ x.Displaces s r) → (x.after s).retained =
    (x.given? s).elim x.before.retained fun t => latest s.settings.retained t x.before.retained
  crowded : ∀ j, x.before.capacity ≤ 2 ^ j → 2 ^ j < (x.after s).capacity →
    ∃ t u, x.given? s = some t ∧ x.before.InTable u ∧ Clash (2 ^ j) u.flags t.flags

namespace Deed

variable {x : Deed σ δ}

theorem given?_eq_some (hsought : x.sought = some flags) :
    x.given? s = some t ↔ (x.before.lookup s flags).1 = .ok t := by
  rw [given?, hsought, Option.bind_some]
  cases (x.before.lookup s flags).1 <;> simp [Except.toOption]

theorem given?_eq_none (hsought : x.sought = none) : x.given? s = none := by
  rw [given?, hsought, Option.bind_none]

/-- Who is displaced is who loses the slot in the course of the lookup. -/
theorem displaces_iff {y : Except Error Ticket}
    (h : Effect s x.before flags o (y, x.after s)) : x.Displaces s u ↔ o = some u := by
  rw [Displaces, h.evictions, h.table, alive_iff_kept]
  constructor
  · rintro ⟨-, hu, hlive, hgone⟩
    by_contra ho
    exact hgone (.inr ⟨hu, hlive, ho⟩)
  · rintro rfl
    obtain ⟨hu, hlive, hne, -⟩ := h.displaced u rfl
    refine ⟨rfl, hu, hlive, ?_⟩
    rintro (rfl | ⟨-, -, ho⟩)
    · exact hne h.ending.flags_eq
    · exact ho rfl

/-- How a lookup is counted tells who was there. -/
theorem counted {y : Except Error Ticket} (hsought : x.sought = some flags)
    (h : Effect s x.before flags o (y, x.after s)) (hy : (x.before.lookup s flags).1 = y) :
    (x.Hits s ↔ ∃ t, x.before.Present flags t) ∧
      ∀ t, x.Makes s t ↔ y = .ok t ∧ ∀ u, ¬ x.before.Present flags u := by
  simp only [Hits, Makes, given?_eq_some hsought, hy]
  have hending : Ending x.before flags y (x.after s).counters := h.ending
  generalize (x.after s).counters = n at hending
  cases hending with
  | @hit t _ ht => simpa using ⟨t, ht⟩
  | failed hnone => simpa using hnone
  | made hnone => simpa using hnone

theorem turn_of_effect {y : Except Error Ticket} (h : Orderly s x.before [])
    (hlasts : ∀ t, x.before.Made t → (x.after s).Made t)
    (hdead : ∀ t, x.before.Made t → (x.after s).Kept t.number → x.before.Kept t.number)
    (hsought : x.sought = some flags) (heffect : Effect s x.before flags o (y, x.after s))
    (hy : (x.before.lookup s flags).1 = y) : Turn s x := by
  obtain ⟨hhits, hmakes⟩ := counted hsought heffect hy
  have hgiven (t : Ticket) : x.given? s = some t ↔ y = .ok t := by
    rw [given?_eq_some hsought, hy]
  have hending : Ending x.before flags y (x.after s).counters := heffect.ending
  generalize (x.after s).counters = n at hending
  constructor
  case lasts => exact hlasts
  case dead => exact hdead
  case enters =>
    intro u hu
    rcases (heffect.table u).mp hu with hyu | hu
    · subst hyu
      cases hending with
      | hit hu => exact .inr hu.1
      | made hnone => exact .inl ((hmakes _).mpr ⟨rfl, hnone⟩)
    · exact .inr hu.1
  case stays =>
    intro u hu hk
    rw [displaces_iff heffect, heffect.table]
    have hk := hdead u (h.made u (.inl (.inl hu))) hk
    exact (em (o = some u)).imp_right fun ho => .inr ⟨hu, hk, ho⟩
  case displaces =>
    intro r hr
    have ho := (displaces_iff heffect).mp hr
    obtain ⟨t, rfl⟩ := (ho ▸ heffect).given
    exact ⟨t, (hgiven t).mpr rfl, hending.flags_eq ▸ (heffect.displaced r ho).2.2⟩
  case evictions =>
    cases o with
    | none => exact .inr heffect.evictions
    | some r => exact .inl ⟨r, (displaces_iff heffect).mpr rfl⟩
  case given =>
    intro t ht
    have ht := (hgiven t).mp ht
    subst ht
    exact ⟨hending.flags_eq ▸ hsought, (heffect.table t).mpr (.inl rfl)⟩
  case hits =>
    rw [hhits]
    constructor
    · rintro ⟨t, ht⟩
      exact ⟨flags, t, hsought, ht⟩
    · rintro ⟨flags', t, hsought', ht⟩
      cases hsought.symm.trans hsought'
      exact ⟨t, ht⟩
  case same =>
    intro flags' t hsought' ht
    cases hsought.symm.trans hsought'
    rw [hgiven]
    cases hending with
    | hit hu => exact congrArg Except.ok (h.present_unique hu ht)
    | failed hnone => exact absurd ht (hnone t)
    | made hnone => exact absurd ht (hnone t)
  case makes =>
    intro t ht hnot
    rw [hhits, not_exists] at hnot
    exact (hmakes t).mpr ⟨(hgiven t).mp ht, hnot⟩
  case made =>
    intro t ht
    obtain ⟨hyt, hnone⟩ := (hmakes t).mp ht
    subst hyt
    refine ⟨?_, fun hhit => ?_⟩
    · cases hending with
      | hit hu => exact absurd hu (hnone t)
      | made _ => rfl
    · obtain ⟨u, hu⟩ := hhits.mp hhit
      exact hnone u hu
  case syntheses =>
    refine heffect.ending.syntheses.imp_left ?_
    rintro ⟨t, hyt, hnone⟩
    exact ⟨t, (hmakes t).mpr ⟨hyt, hnone⟩⟩
  case retained =>
    intro hstays
    cases y with
    | error e =>
        have hnone : x.given? s = none := by rw [given?, hsought, Option.bind_some, hy]; rfl
        rw [hnone]
        exact (heffect.failed e rfl).1
    | ok t =>
        rw [(hgiven t).mpr rfl]
        refine heffect.retained ?_ t rfl
        cases o with
        | none => rfl
        | some r => exact absurd ((displaces_iff heffect).mpr rfl) (hstays r)
  case crowded =>
    intro j hj hlt
    obtain ⟨u, hu, -, hclash⟩ := heffect.crowded j hj hlt
    cases y with
    | error e =>
        exact absurd hlt (not_lt_capacity (heffect.failed e rfl).2 hj)
    | ok t => exact ⟨t, u, (hgiven t).mpr rfl, hu, hending.flags_eq ▸ hclash⟩

end Deed

theorem Orderly.turn {x : Deed σ δ} (hv : s.settings.Valid) (h : Orderly s x.before [])
    (hop : x.op.Allowed x.before) (hdropped : (x.after s).dropped = false) : Turn s x := by
  have hmoves : Moves s x.before (x.after s) := x.op.moves hop h.tracked
  have hlasts (t : Ticket) : x.before.Made t → (x.after s).Made t := hmoves.made
  have hdead (t : Ticket) : x.before.Made t → (x.after s).Kept t.number → x.before.Kept t.number :=
    hmoves.dead
  -- Only lookups touch the table, apart from the notices that a reload works off.
  rcases h.effect_or_rests hv x.op hdropped with ⟨flags, o, hsought, heffect⟩ | ⟨hsought, hrests⟩
  · exact Deed.turn_of_effect h hlasts hdead hsought heffect rfl
  · obtain ⟨n, hcounters⟩ := hrests.counters
    have hgiven : x.given? s = none := Deed.given?_eq_none hsought
    have hmakes (t : Ticket) : ¬ x.Makes s t := fun ht => by
      rw [Deed.Makes, hgiven] at ht
      cases ht.1
    have hcounters : (x.after s).counters = { x.before.counters with reclaimed := n } := hcounters
    constructor
    case lasts => exact hlasts
    case dead => exact hdead
    case enters => exact fun u hu => .inr (hrests.leaves u hu)
    case stays =>
      intro u hu hk
      exact .inr (hrests.stays u hu (hdead u (h.made u (.inl (.inl hu))) hk))
    case displaces =>
      intro r hr
      have := hr.1
      simp [hcounters] at this
    case evictions => exact .inr (by rw [hcounters])
    case given => simp [hgiven]
    case hits =>
      have hsought : x.sought = none := hsought
      simp [Deed.Hits, hcounters, hsought]
    case same =>
      intro flags t ht
      cases hsought.symm.trans ht
    case makes => simp [hgiven]
    case made => exact fun t ht => absurd ht (hmakes t)
    case syntheses => exact .inr (by rw [hcounters])
    case retained => exact fun _ => by rw [hgiven]; exact hrests.retained
    case crowded => exact fun j hj hlt => absurd hlt (not_lt_capacity hrests.capacity hj)

/-! ## Chronicles of a cache that is still there -/

/-- What holds of an empty cache without a past and is kept by every deed holds after whatever has
been done, up to the end of the cache. -/
theorem Chronicle.induct {w : World σ δ} {P : List (Deed σ δ) → Cache σ δ → Prop}
    (hv : s.settings.Valid) (hstart : P [] (Cache.start s w))
    (hkeep : ∀ (x : Deed σ δ) (past : List (Deed σ δ)), Chronicle s w past x.before →
      P past x.before → Orderly s x.before [] → x.op.Allowed x.before →
      Orderly s (x.after s) [] → P (x :: past) (x.after s))
    {past : List (Deed σ δ)} (h : Chronicle s w past c) (hdropped : c.dropped = false) :
    P past c := by
  induction h with
  | start => exact hstart
  | perform op hpast hop ih =>
      have hbefore := Operation.dropped_of_perform hop hdropped
      have hafter := (hpast.perform op hop).run.orderly hv hdropped
      exact hkeep ⟨_, op⟩ _ hpast (ih hbefore) (hpast.run.orderly hv hbefore) hop hafter

end FlagSelect.Cache
