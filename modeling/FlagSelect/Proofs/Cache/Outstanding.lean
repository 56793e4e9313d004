import FlagSelect.Proofs.Cache.Chronicle
import FlagSelect.Proofs.Cache.Failure

/-!
# Executors come and go

An executor is alive from its making on, until the last to keep it lets go. From then on its notice
is in the queue, until a lookup, a reload or the end of the cache works it off. Main statement:
`Orderly.outstanding_perform`.
-/

namespace FlagSelect.Cache

variable {σ δ ρ : Type} [Driver δ] {c c' : Cache σ δ} {s : Setup σ ρ} {t u : Ticket}
  {ts us rs : List Ticket} {k n : Nat} {flags : Flags}

/-- Whether an executor is alive or has a notice in the queue. -/
def Outstanding (c : Cache σ δ) (k : Nat) : Prop := c.Kept k ∨ Names c.notices k

theorem outstanding_congr (hheld : c'.held = c.held) (hretained : c'.retained = c.retained)
    (hnotices : c'.notices = c.notices) : c'.Outstanding k ↔ c.Outstanding k := by
  rw [Outstanding, kept_congr hheld hretained, hnotices, Outstanding]

/-! ## Letting go -/

/-- If fewer executors are kept alive, those let go of get a notice when they are settled. -/
theorem outstanding_letGo {hs : List Nat} (hdropped : c.dropped = false)
    (hkept : ∀ k, k ∈ hs ∨ Names rs k → c.Kept k)
    (hlost : ∀ k, c.Kept k → (k ∈ hs ∨ Names rs k) ∨ Names us k)
    (hus : ∀ u ∈ us, c.Kept u.number) :
    (us.foldl settle { c with held := hs, retained := rs }).Outstanding k ↔ c.Outstanding k := by
  have hframe := settleAll_frame (c := { c with held := hs, retained := rs }) us
  have hlive : (us.foldl settle { c with held := hs, retained := rs }).Kept k ↔
      k ∈ hs ∨ Names rs k := by
    rw [Kept, hframe.1, hframe.2.2.2.1]
  have hnotices := settleAll_notices (c := { c with held := hs, retained := rs }) us hdropped
  rw [Outstanding, hlive, hnotices, names_append, Outstanding]
  constructor
  · rintro (hk | hk | ⟨u, hu, rfl⟩)
    · exact .inl (hkept k hk)
    · exact .inr hk
    · exact .inl (hus u (List.mem_of_mem_filter hu))
  · rintro (hk | hk)
    · by_cases hstill : k ∈ hs ∨ Names rs k
      · exact .inl hstill
      · obtain ⟨u, hu, rfl⟩ := (hlost k hk).resolve_left hstill
        refine .inr (.inr ⟨u, List.mem_filter.mpr ⟨hu, ?_⟩, rfl⟩)
        rw [Bool.not_eq_true', alive_eq_false]
        exact hstill
    · exact .inr (.inl hk)

theorem outstanding_giveUp (hdropped : c.dropped = false) (hrs : ∀ r ∈ rs, c.Kept r.number)
    (hus : us ⊆ c.retained) (hlost : ∀ r ∈ c.retained, r ∈ rs ∨ r ∈ us) :
    (us.foldl settle { c with retained := rs }).Outstanding k ↔ c.Outstanding k := by
  refine outstanding_letGo hdropped ?_ ?_ fun u hu => .inr ⟨u, hus hu, rfl⟩
  · rintro k (hk | ⟨r, hr, rfl⟩)
    · exact .inl hk
    · exact hrs r hr
  · rintro k (hk | ⟨r, hr, rfl⟩)
    · exact .inl (.inl hk)
    · exact (hlost r hr).imp (fun hr => .inr ⟨r, hr, rfl⟩) fun hr => ⟨r, hr, rfl⟩

theorem outstanding_dismiss (hdropped : c.dropped = false) :
    (c.dismiss flags).Outstanding k ↔ c.Outstanding k := by
  refine outstanding_giveUp hdropped (fun r hr => .inr ⟨r, List.mem_of_mem_filter hr, rfl⟩)
    (fun _ hu => List.mem_of_mem_filter hu) fun r hr => ?_
  by_cases hflags : r.flags = flags
  · exact .inr (List.mem_filter.mpr ⟨hr, by simpa using hflags⟩)
  · exact .inl (List.mem_filter.mpr ⟨hr, by simpa using hflags⟩)

theorem outstanding_retain {limit : Nat} (hdropped : c.dropped = false) (ht : c.Kept t.number) :
    (c.retain limit t).Outstanding k ↔ c.Outstanding k := by
  unfold retain
  split
  · exact Iff.rfl
  next hlimit =>
    obtain ⟨n, rfl⟩ := Nat.exists_eq_succ_of_ne_zero hlimit
    dsimp only
    rw [List.take_succ_cons, List.drop_succ_cons]
    have hothers (r : Ticket) (hr : r ∈ c.retained.filter (·.flags != t.flags)) :
        r ∈ c.retained := List.mem_of_mem_filter hr
    refine outstanding_giveUp hdropped ?_ ?_ fun r hr => ?_
    · intro r hr
      rcases List.mem_cons.mp hr with rfl | hr
      · exact ht
      · exact .inr ⟨r, hothers r (List.mem_of_mem_take hr), rfl⟩
    · intro r hr
      rcases List.mem_append.mp hr with hr | hr
      · exact List.mem_of_mem_filter hr
      · exact hothers r (List.mem_of_mem_drop hr)
    · by_cases hflags : r.flags = t.flags
      · exact .inr (List.mem_append_left _ (List.mem_filter.mpr ⟨hr, by simpa using hflags⟩))
      · have hr : r ∈ c.retained.filter (·.flags != t.flags) :=
          List.mem_filter.mpr ⟨hr, by simpa using hflags⟩
        rw [← List.take_append_drop n (c.retained.filter _), List.mem_append] at hr
        exact hr.imp (List.mem_cons_of_mem t) (List.mem_append_right _)

theorem outstanding_release (hdropped : c.dropped = false) :
    (c.release t).Outstanding k ↔ c.Outstanding k := by
  unfold release
  split
  next hheld =>
    have hheld : t.number ∈ c.held := by simpa using hheld
    have hlost (k : Nat) (hk : c.Kept k) :
        (k ∈ c.held.erase t.number ∨ Names c.retained k) ∨ Names [t] k := by
      rcases hk with hk | hk
      · by_cases hkt : k = t.number
        · exact .inr ⟨t, List.mem_singleton_self t, hkt.symm⟩
        · exact .inl (.inl ((List.mem_erase_of_ne hkt).mpr hk))
      · exact .inl (.inr hk)
    refine outstanding_letGo hdropped (fun k hk => hk.imp_left List.mem_of_mem_erase) hlost ?_
    intro u hu
    rw [List.mem_singleton.mp hu]
    exact .inl hheld
  next => exact Iff.rfl

theorem outstanding_hold (ht : c.Kept t.number) :
    (c.hold t).Outstanding k ↔ c.Outstanding k := by
  have hkept : (c.hold t).Kept k ↔ k = t.number ∨ c.Kept k := by
    simp [Kept, hold, or_assoc]
  rw [Outstanding, hkept, Outstanding]
  constructor
  · rintro ((rfl | hk) | hk)
    · exact .inl ht
    · exact .inl hk
    · exact .inr hk
  · exact fun hk => hk.imp_left .inr

/-! ## The table -/

theorem outstanding_evict (hdropped : c.dropped = false) :
    (c.evict t).Outstanding k ↔ c.Outstanding k := by
  have hclose : (c.closeQuietly t).Outstanding k ↔ c.Outstanding k :=
    outstanding_congr (by simp) (by simp) (by simp)
  rw [← hclose]
  exact outstanding_dismiss (by simpa using hdropped)

theorem outstanding_place {maxCapacity : Nat} (hdropped : c.dropped = false) :
    (c.place maxCapacity t n).Outstanding k ↔ c.Outstanding k := by
  apply And.right
  apply place_keeps (P := fun c' => c'.dropped = false ∧ (c'.Outstanding k ↔ c.Outstanding k))
  case hc => exact ⟨hdropped, Iff.rfl⟩
  case hseat =>
    refine fun c' hc' => ⟨by simpa using hc'.1, .trans ?_ hc'.2⟩
    exact outstanding_congr (by simp) (by simp) (by simp)
  case hclose =>
    refine fun c' r hc' => ⟨by simpa using hc'.1, .trans ?_ hc'.2⟩
    exact outstanding_congr (by simp) (by simp) (by simp)
  case hgrow =>
    refine fun c' hc' => ⟨by simpa using hc'.1, .trans ?_ hc'.2⟩
    exact outstanding_congr (by simp) (by simp) (by simp)
  case hevict => exact fun c' r hc' =>
    ⟨by simpa using hc'.1, (outstanding_evict hc'.1).trans hc'.2⟩

theorem place_counters {m : Nat} :
    ∃ resizes evictions, (c.place m t n).counters =
      { c.counters with resizes, evictions } := by
  apply place_keeps (P := fun c' => ∃ resizes evictions, c'.counters =
    { c.counters with resizes, evictions })
  case hc => exact ⟨_, _, rfl⟩
  case hseat => exact fun c' hc' => by simpa using hc'
  case hclose => exact fun c' r hc' => by simpa using hc'
  case hgrow =>
    rintro c' ⟨resizes, evictions, hc'⟩
    exact ⟨resizes + 1, evictions, by rw [grow_counters, hc']⟩
  case hevict =>
    rintro c' r ⟨resizes, evictions, hc'⟩
    exact ⟨resizes, evictions + 1, by rw [evict_counters, hc']⟩

theorem outstanding_drain : c.drain.Outstanding k ↔ c.Kept k := by
  rw [Outstanding, kept_drain, drain_frame.2.2.1]
  exact or_iff_left names_nil

/-! ## Lookups -/

/-- Whether an executor has been made between two states. -/
def New (c c' : Cache σ δ) (k : Nat) : Prop := c.executors.size ≤ k ∧ k < c'.executors.size

theorem not_new (hsize : c'.executors.size = c.executors.size) : ¬ New c c' k :=
  fun h => Nat.not_lt.mpr h.1 (hsize ▸ h.2)

theorem new_succ (hsize : c'.executors.size = c.executors.size + 1) :
    New c c' k ↔ k = c.executors.size := by
  rw [New, hsize]
  omega

theorem outstanding_enlist {plan : Plan σ} :
    (c.enlist flags plan).Outstanding k ↔ c.Outstanding k ∨ k = c.executors.size := by
  rw [Outstanding, kept_enlist, Outstanding, or_assoc, or_comm]
  exact Iff.rfl

theorem Synthesis.outstanding {r : Except Error Ticket × Cache σ δ} (h : Synthesis s c flags r)
    (hdropped : c.dropped = false) :
    r.2.Outstanding k ↔ c.Outstanding k ∨ New c r.2 k := by
  have henlist (plan : Plan σ) :
      (c.enlist flags plan).Outstanding k ↔ c.Outstanding k ∨ k = c.executors.size :=
    outstanding_enlist
  cases h with
  | noPlan _ => exact (or_iff_left (not_new rfl)).symm
  | @unprepared plan _ _ _ _ =>
      -- The executor dies as soon as it is made, and its notice is in the queue from then on.
      rw [outstanding_release (by simpa using hdropped), new_succ (by simp), ← henlist plan]
      exact outstanding_congr (by simp) (by simp) (by simp)
  | @prepared plan _ _ _ =>
      rw [new_succ (by simp), ← henlist plan]
      exact outstanding_congr (by simp) (by simp) (by simp)
  | @postponed plan _ _ =>
      rw [new_succ (by simp), ← henlist plan]
      exact outstanding_congr (by simp) (by simp) (by simp)

theorem Lookup.dropped {r : Except Error Ticket × Cache σ δ} (h : Lookup s c flags r) :
    r.2.dropped = c.dropped := by
  cases h with
  | hit _ => simp [hold]
  | failed _ hsyn => simpa using hsyn.dropped
  | made _ hsyn => simpa using hsyn.dropped

theorem Lookup.outstanding {r : Except Error Ticket × Cache σ δ} (h : Lookup s c flags r)
    (hdropped : c.dropped = false) : r.2.Outstanding k ↔ c.Kept k ∨ New c r.2 k := by
  have hdrained : c.drain.dropped = false := by simpa using hdropped
  have hsize : c.drain.executors.size = c.executors.size := by simp
  cases h with
  | @hit t hhit =>
      have hlive : c.drain.countHit.Kept t.number := alive_iff_kept.mp hhit.2.2
      have hcount : c.drain.countHit.Outstanding k ↔ c.Kept k := outstanding_drain
      rw [outstanding_retain (by simpa [hold] using hdropped) (.inl List.mem_cons_self),
        outstanding_hold hlive, hcount]
      exact (or_iff_left (not_new (by simp [hold]))).symm
  | failed _ hsyn =>
      rw [hsyn.outstanding hdrained, outstanding_drain, New, New, hsize]
  | @made t c' _ hsyn =>
      have hdropped' : c'.dropped = false := hsyn.dropped.trans hdrained
      have hheld := hsyn.held rfl
      rw [outstanding_retain (by simpa using hdropped') (.inl (by simpa using hheld)),
        outstanding_place hdropped', hsyn.outstanding hdrained, outstanding_drain, New, New, hsize]
      simp

/-! ## Operations -/

/-- The cache with nothing retained any more. -/
def unretained (c : Cache σ δ) : Cache σ δ :=
  c.retained.foldl settle { c with retained := [] }

theorem Orderly.unretained (h : Orderly s c []) : Orderly s c.unretained [] :=
  have hperm : ([] ++ c.retained).Perm c.retained := .refl _
  h.giveUp [] hperm (fun _ ht => by cases ht) .nil (Nat.zero_le _)

/-- The notices that an operation works off. -/
def Operation.worksOff (c : Cache σ δ) : Operation σ → List Ticket
  | lookup _ | handle _ | reload => c.notices
  | drop => c.unretained.notices
  | pin _ | unpin _ | prepare _ | query _ _ | bindValues _ _ | elsewhere _ => []

theorem Orderly.kept_iff (h : Orderly s c []) :
    c.Kept k ↔ c.Outstanding k ∧ ¬ Names c.notices k := by
  constructor
  · refine fun hk => ⟨.inl hk, ?_⟩
    rintro ⟨t, ht, rfl⟩
    exact h.dead t ht hk
  · exact fun hk => hk.1.resolve_right hk.2

theorem Orderly.outstanding_unretained (h : Orderly s c []) :
    c.unretained.Outstanding k ↔ c.Outstanding k :=
  outstanding_giveUp h.dropped (fun _ hr => by cases hr) (List.Subset.refl _) fun _ hr => .inr hr

theorem Orderly.outstanding_of_worksOff (h : Orderly s c []) {op : Operation σ}
    (hk : Names (op.worksOff c) k) : c.Outstanding k := by
  cases op with
  | lookup _ | handle _ | reload => exact .inr hk
  | drop => exact h.outstanding_unretained.mp (.inr hk)
  | pin _ | unpin _ | prepare _ | query _ _ | bindValues _ _ | elsewhere _ =>
      exact absurd hk names_nil

theorem Orderly.once_worksOff (h : Orderly s c []) (op : Operation σ) :
    ((op.worksOff c).map Ticket.number).Nodup := by
  cases op with
  | lookup _ | handle _ | reload => exact h.once
  | drop => exact h.unretained.once
  | pin _ | unpin _ | prepare _ | query _ _ | bindValues _ _ | elsewhere _ => exact .nil

section Operations

variable [RecordHost σ ρ]

theorem outstanding_handle (record : Object) (hdropped : c.dropped = false) :
    (c.handle s record).2.Outstanding k ↔ c.Kept k ∨ New c (c.handle s record).2 k := by
  have hspec := lookup_spec c s (RecordHost.flags c.world.host record)
  have hlookup := hspec.outstanding (k := k) hdropped
  unfold handle
  split <;> rename_i heq <;> rw [heq] at hlookup hspec
  · exact hlookup
  next t c' =>
    have hdropped' : c'.dropped = false := hspec.dropped.trans hdropped
    rw [outstanding_release (by simpa using hdropped')]
    have hquery : (c'.query s t record).2.Outstanding k ↔ c'.Outstanding k :=
      outstanding_congr (by simp) (by simp) (by simp)
    rw [hquery, hlookup]
    simp [New]

/-- Only what works off notices makes executors disappear. -/
theorem Orderly.outstanding_perform (h : Orderly s c []) {op : Operation σ} (hop : op.Allowed c) :
    (op.perform s c).Outstanding k ↔
      (c.Outstanding k ∧ ¬ Names (op.worksOff c) k) ∨ New c (op.perform s c) k := by
  have hidle (hsize : (op.perform s c).executors.size = c.executors.size)
      (hsame : (op.perform s c).Outstanding k ↔ c.Outstanding k) :
      (op.perform s c).Outstanding k ↔
        (c.Outstanding k ∧ ¬ Names [] k) ∨ New c (op.perform s c) k := by
    rw [or_iff_left (not_new hsize), hsame]
    exact (and_iff_left names_nil).symm
  cases op with
  | lookup flags =>
      rw [Operation.worksOff, ← h.kept_iff]
      exact (lookup_spec c s flags).outstanding h.dropped
  | handle record =>
      rw [Operation.worksOff, ← h.kept_iff]
      exact outstanding_handle record h.dropped
  | reload =>
      have hsize : c.reload.2.executors.size = c.executors.size := by simp
      rw [Operation.worksOff, ← h.kept_iff, ← outstanding_drain, Operation.perform,
        or_iff_left (not_new hsize), reload_snd]
      exact outstanding_congr (by simp) (by simp) (by simp)
  | drop =>
      have hsize : c.drop.executors.size = c.executors.size := by simp
      rw [Operation.worksOff, ← h.outstanding_unretained, ← h.unretained.kept_iff,
        ← outstanding_drain, Operation.perform, or_iff_left (not_new hsize)]
      exact outstanding_congr (by simp [Cache.drop, Cache.unretained])
        (by simp [Cache.drop, Cache.unretained]) (by simp [Cache.drop, Cache.unretained])
  | pin t => exact hidle rfl (outstanding_hold (.inl hop.held))
  | unpin t => exact hidle (by simp [Operation.perform]) (outstanding_release h.dropped)
  | prepare t =>
      exact hidle (by simp [Operation.perform]) (outstanding_congr (by simp [Operation.perform])
        (by simp [Operation.perform]) (by simp [Operation.perform]))
  | query t record =>
      exact hidle (by simp [Operation.perform]) (outstanding_congr (by simp [Operation.perform])
        (by simp [Operation.perform]) (by simp [Operation.perform]))
  | bindValues t record =>
      exact hidle (by simp [Operation.perform]) (outstanding_congr (by simp [Operation.perform])
        (by simp [Operation.perform]) (by simp [Operation.perform]))
  | elsewhere host => exact hidle rfl Iff.rfl

end Operations

end FlagSelect.Cache
