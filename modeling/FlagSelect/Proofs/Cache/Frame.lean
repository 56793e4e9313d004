import FlagSelect.Proofs.Cache.Run

/-!
# What the operations of a cache leave alone

One lemma for each function says which parts of the cache it does not touch. An executor keeps its
plan for good, so `planAt` is among them wherever no executor is made.
-/

namespace FlagSelect

variable {σ δ ρ : Type} [Driver δ]

namespace Executor

variable {e : Executor σ δ} {w : World σ δ}

@[simp] theorem ensure_plan : (e.ensure w).executor.plan = e.plan := by
  unfold ensure
  split
  · rfl
  · split
    · rfl
    · dsimp only; split <;> rfl

@[simp] theorem prepare_plan : (e.prepare w).executor.plan = e.plan := ensure_plan

@[simp] theorem close_plan : (e.close w).2.1.plan = e.plan := by
  unfold close
  split
  · rfl
  · dsimp only; split <;> rfl

@[simp] theorem query_plan [RecordHost σ ρ] {side : Option Value} {project : RowProjection ρ}
    {record : Object} : (e.query side project record w).executor.plan = e.plan := by
  unfold query
  split
  · rfl
  · rename_i values host _
    have hens : (e.ensure { w with host }).executor.plan = e.plan := ensure_plan
    split <;> rename_i heq <;> rw [heq] at hens
    · exact hens
    · split
      · exact hens
      · dsimp only; split <;> exact hens

end Executor

namespace Cache

variable {c : Cache σ δ} {t : Ticket}

/-- The plans of executors, by number. -/
def planAt (es : Array (Executor σ δ)) (k : Nat) : Option (Plan σ) :=
  es[k]?.map Executor.plan

theorem Holds.of_planAt (hheld : t.number ∈ c.held)
    (hflags : (planAt c.executors t.number).map (·.flags) = some t.flags) : c.Holds t := by
  obtain ⟨p, hp, hflags⟩ := Option.map_eq_some_iff.mp hflags
  obtain ⟨e, he, rfl⟩ := Option.map_eq_some_iff.mp hp
  exact ⟨hheld, e, he, hflags⟩

theorem getElem?_update {k j : Nat} {e e' : Executor σ δ} {w : World σ δ}
    (h : c.executors[k]? = some e) :
    (c.update k e' w).executors[j]? = if k = j then some e' else c.executors[j]? := by
  obtain ⟨hk, -⟩ := Array.getElem?_eq_some_iff.mp h
  simp [update, Array.getElem?_setIfInBounds, hk]

theorem planAt_update {k : Nat} {e e' : Executor σ δ} {w : World σ δ}
    (h : c.executors[k]? = some e) (hplan : e'.plan = e.plan) :
    planAt (c.update k e' w).executors = planAt c.executors := by
  funext j
  simp only [planAt, getElem?_update h]
  split
  · rename_i hj
    subst hj
    rw [h, Option.map_some, Option.map_some, hplan]
  · rfl

/-! ## Executors and their statements -/

theorem update_frame (k : Nat) (e : Executor σ δ) (w : World σ δ) :
    (c.update k e w).held = c.held ∧ (c.update k e w).slots = c.slots ∧
      (c.update k e w).evicted = c.evicted ∧ (c.update k e w).retained = c.retained ∧
      (c.update k e w).notices = c.notices ∧ (c.update k e w).dropped = c.dropped ∧
      (c.update k e w).counters = c.counters ∧
      (c.update k e w).executors.size = c.executors.size :=
  ⟨rfl, rfl, rfl, rfl, rfl, rfl, rfl, Array.size_setIfInBounds ..⟩

@[simp] theorem close_frame :
    (c.close t).2.held = c.held ∧ (c.close t).2.slots = c.slots ∧
      (c.close t).2.evicted = c.evicted ∧ (c.close t).2.retained = c.retained ∧
      (c.close t).2.notices = c.notices ∧ (c.close t).2.dropped = c.dropped ∧
      (c.close t).2.counters = c.counters ∧
      (c.close t).2.executors.size = c.executors.size ∧
      planAt (c.close t).2.executors = planAt c.executors := by
  unfold close
  split
  · simp
  · rename_i e he
    simpa [planAt_update he] using update_frame t.number (e.close c.world).2.1 _

@[simp] theorem closeQuietly_frame :
    (c.closeQuietly t).held = c.held ∧ (c.closeQuietly t).slots = c.slots ∧
      (c.closeQuietly t).evicted = c.evicted ∧ (c.closeQuietly t).retained = c.retained ∧
      (c.closeQuietly t).notices = c.notices ∧ (c.closeQuietly t).dropped = c.dropped ∧
      (c.closeQuietly t).counters = c.counters ∧
      (c.closeQuietly t).executors.size = c.executors.size ∧
      planAt (c.closeQuietly t).executors = planAt c.executors :=
  close_frame

@[simp] theorem prepare_frame :
    (c.prepare t).2.held = c.held ∧ (c.prepare t).2.slots = c.slots ∧
      (c.prepare t).2.evicted = c.evicted ∧ (c.prepare t).2.retained = c.retained ∧
      (c.prepare t).2.notices = c.notices ∧ (c.prepare t).2.dropped = c.dropped ∧
      (c.prepare t).2.counters = c.counters ∧
      (c.prepare t).2.executors.size = c.executors.size ∧
      planAt (c.prepare t).2.executors = planAt c.executors := by
  unfold prepare
  split
  · simp
  · rename_i e he
    simpa [planAt_update he] using update_frame t.number (e.prepare c.world).executor _

@[simp] theorem query_frame [RecordHost σ ρ] {s : Setup σ ρ} {record : Object} :
    (c.query s t record).2.held = c.held ∧ (c.query s t record).2.slots = c.slots ∧
      (c.query s t record).2.evicted = c.evicted ∧ (c.query s t record).2.retained = c.retained ∧
      (c.query s t record).2.notices = c.notices ∧ (c.query s t record).2.dropped = c.dropped ∧
      (c.query s t record).2.counters = c.counters ∧
      (c.query s t record).2.executors.size = c.executors.size ∧
      planAt (c.query s t record).2.executors = planAt c.executors := by
  unfold query
  split
  · simp
  · rename_i e he
    simpa [planAt_update he] using
      update_frame t.number (e.query s.side s.project record c.world).executor _

@[simp] theorem bindValues_frame {s : Setup σ ρ} {record : Object} :
    (c.bindValues s t record).2.held = c.held ∧ (c.bindValues s t record).2.slots = c.slots ∧
      (c.bindValues s t record).2.evicted = c.evicted ∧
      (c.bindValues s t record).2.retained = c.retained ∧
      (c.bindValues s t record).2.notices = c.notices ∧
      (c.bindValues s t record).2.dropped = c.dropped ∧
      (c.bindValues s t record).2.counters = c.counters ∧
      (c.bindValues s t record).2.executors = c.executors ∧
      (c.bindValues s t record).2.world.driver = c.world.driver := by
  unfold bindValues
  split <;> simp

/-! ## Holding and letting go -/

@[simp] theorem settle_frame :
    (c.settle t).held = c.held ∧ (c.settle t).slots = c.slots ∧
      (c.settle t).evicted = c.evicted ∧ (c.settle t).retained = c.retained ∧
      (c.settle t).dropped = c.dropped ∧ (c.settle t).counters = c.counters ∧
      (c.settle t).executors.size = c.executors.size ∧
      planAt (c.settle t).executors = planAt c.executors := by
  unfold settle
  split
  · simp
  · split
    · simp
    · exact ⟨rfl, rfl, rfl, rfl, rfl, rfl, rfl, rfl⟩

@[simp] theorem settleAll_frame (ts : List Ticket) :
    (ts.foldl settle c).held = c.held ∧ (ts.foldl settle c).slots = c.slots ∧
      (ts.foldl settle c).evicted = c.evicted ∧ (ts.foldl settle c).retained = c.retained ∧
      (ts.foldl settle c).dropped = c.dropped ∧ (ts.foldl settle c).counters = c.counters ∧
      (ts.foldl settle c).executors.size = c.executors.size ∧
      planAt (ts.foldl settle c).executors = planAt c.executors := by
  induction ts generalizing c with
  | nil => simp
  | cons t ts ih => simpa using ih (c := c.settle t)

@[simp] theorem release_frame :
    (c.release t).slots = c.slots ∧ (c.release t).evicted = c.evicted ∧
      (c.release t).retained = c.retained ∧ (c.release t).dropped = c.dropped ∧
      (c.release t).counters = c.counters ∧
      (c.release t).executors.size = c.executors.size ∧
      planAt (c.release t).executors = planAt c.executors := by
  unfold release
  split <;> simp

@[simp] theorem retain_frame {limit : Nat} :
    (c.retain limit t).held = c.held ∧ (c.retain limit t).slots = c.slots ∧
      (c.retain limit t).evicted = c.evicted ∧ (c.retain limit t).dropped = c.dropped ∧
      (c.retain limit t).counters = c.counters ∧
      (c.retain limit t).executors.size = c.executors.size ∧
      planAt (c.retain limit t).executors = planAt c.executors := by
  unfold retain
  split <;> simp [-List.foldl_append]

@[simp] theorem dismiss_frame {flags : Flags} :
    (c.dismiss flags).held = c.held ∧ (c.dismiss flags).slots = c.slots ∧
      (c.dismiss flags).evicted = c.evicted ∧ (c.dismiss flags).dropped = c.dropped ∧
      (c.dismiss flags).counters = c.counters ∧
      (c.dismiss flags).executors.size = c.executors.size ∧
      planAt (c.dismiss flags).executors = planAt c.executors := by
  simp [dismiss]

/-! ## The table -/

@[simp] theorem setSlot_frame {flags : Flags} {o : Option Ticket} :
    (c.setSlot flags o).held = c.held ∧ (c.setSlot flags o).evicted = c.evicted ∧
      (c.setSlot flags o).retained = c.retained ∧ (c.setSlot flags o).notices = c.notices ∧
      (c.setSlot flags o).dropped = c.dropped ∧ (c.setSlot flags o).counters = c.counters ∧
      (c.setSlot flags o).executors = c.executors ∧ (c.setSlot flags o).world = c.world ∧
      planAt (c.setSlot flags o).executors = planAt c.executors :=
  ⟨rfl, rfl, rfl, rfl, rfl, rfl, rfl, rfl, rfl⟩

@[simp] theorem rehash_frame {o : Option Ticket} :
    (c.rehash o).held = c.held ∧ (c.rehash o).evicted = c.evicted ∧
      (c.rehash o).retained = c.retained ∧ (c.rehash o).notices = c.notices ∧
      (c.rehash o).dropped = c.dropped ∧ (c.rehash o).counters = c.counters ∧
      (c.rehash o).executors.size = c.executors.size ∧
      planAt (c.rehash o).executors = planAt c.executors := by
  cases o with
  | none => simp [rehash]
  | some r =>
      simp only [rehash]
      split <;> simp

@[simp] theorem rehashAll_frame (os : List (Option Ticket)) :
    (os.foldl rehash c).held = c.held ∧ (os.foldl rehash c).evicted = c.evicted ∧
      (os.foldl rehash c).retained = c.retained ∧ (os.foldl rehash c).notices = c.notices ∧
      (os.foldl rehash c).dropped = c.dropped ∧ (os.foldl rehash c).counters = c.counters ∧
      (os.foldl rehash c).executors.size = c.executors.size ∧
      planAt (os.foldl rehash c).executors = planAt c.executors := by
  induction os generalizing c with
  | nil => simp
  | cons o os ih => simpa using ih (c := c.rehash o)

@[simp] theorem grow_frame :
    c.grow.held = c.held ∧ c.grow.evicted = c.evicted ∧ c.grow.retained = c.retained ∧
      c.grow.notices = c.notices ∧ c.grow.dropped = c.dropped ∧
      c.grow.executors.size = c.executors.size ∧ planAt c.grow.executors = planAt c.executors := by
  simp [grow, -Array.foldl_toList]

@[simp] theorem evict_frame :
    (c.evict t).held = c.held ∧ (c.evict t).slots = c.slots ∧ (c.evict t).dropped = c.dropped ∧
      (c.evict t).executors.size = c.executors.size ∧
      planAt (c.evict t).executors = planAt c.executors := by
  simp [evict]

/-- What every step of placing an executor keeps holds when it has been placed. -/
theorem place_keeps {P : Cache σ δ → Prop} {maxCapacity n : Nat} (hc : P c)
    (hseat : ∀ c, P c → P (c.setSlot t.flags (some t)))
    (hclose : ∀ c r, P c → P (c.closeQuietly r)) (hgrow : ∀ c, P c → P c.grow)
    (hevict : ∀ c r, P c → P (c.evict r)) : P (c.place maxCapacity t n) := by
  induction n generalizing c with
  | zero =>
      unfold place
      split
      · exact hseat _ hc
      · split
        · exact hseat _ (hclose _ _ hc)
        · exact hseat _ (hevict _ _ hc)
  | succ n ih =>
      unfold place
      split
      · exact hseat _ hc
      · split
        · exact hseat _ (hclose _ _ hc)
        · dsimp only
          split
          · exact ih (hgrow _ hc)
          · exact hseat _ (hevict _ _ hc)

@[simp] theorem place_frame {maxCapacity n : Nat} :
    (c.place maxCapacity t n).held = c.held ∧ (c.place maxCapacity t n).dropped = c.dropped ∧
      (c.place maxCapacity t n).executors.size = c.executors.size ∧
      planAt (c.place maxCapacity t n).executors = planAt c.executors := by
  apply place_keeps (P := fun d => d.held = c.held ∧ d.dropped = c.dropped ∧
    d.executors.size = c.executors.size ∧ planAt d.executors = planAt c.executors)
  case hc => exact ⟨rfl, rfl, rfl, rfl⟩
  all_goals simp +contextual

@[simp] theorem reclaim_frame :
    (c.reclaim t).held = c.held ∧ (c.reclaim t).evicted = c.evicted ∧
      (c.reclaim t).retained = c.retained ∧ (c.reclaim t).notices = c.notices ∧
      (c.reclaim t).dropped = c.dropped ∧
      (c.reclaim t).executors.size = c.executors.size ∧
      planAt (c.reclaim t).executors = planAt c.executors := by
  unfold reclaim
  dsimp only
  split <;> simp

theorem reclaimAll_frame (ts : List Ticket) :
    (ts.foldl reclaim c).held = c.held ∧ (ts.foldl reclaim c).evicted = c.evicted ∧
      (ts.foldl reclaim c).retained = c.retained ∧ (ts.foldl reclaim c).notices = c.notices ∧
      (ts.foldl reclaim c).dropped = c.dropped ∧
      (ts.foldl reclaim c).executors.size = c.executors.size ∧
      planAt (ts.foldl reclaim c).executors = planAt c.executors := by
  induction ts generalizing c with
  | nil => simp
  | cons t ts ih => simpa using ih (c := c.reclaim t)

@[simp] theorem drain_frame :
    c.drain.held = c.held ∧ c.drain.retained = c.retained ∧ c.drain.notices = [] ∧
      c.drain.dropped = c.dropped ∧ c.drain.executors.size = c.executors.size ∧
      planAt c.drain.executors = planAt c.executors := by
  simp [drain, reclaimAll_frame]

@[simp] theorem closeQuietlyAll_frame (ts : List Ticket) :
    (ts.foldl closeQuietly c).held = c.held ∧ (ts.foldl closeQuietly c).slots = c.slots ∧
      (ts.foldl closeQuietly c).evicted = c.evicted ∧
      (ts.foldl closeQuietly c).retained = c.retained ∧
      (ts.foldl closeQuietly c).notices = c.notices ∧
      (ts.foldl closeQuietly c).dropped = c.dropped ∧
      (ts.foldl closeQuietly c).counters = c.counters ∧
      (ts.foldl closeQuietly c).executors.size = c.executors.size ∧
      planAt (ts.foldl closeQuietly c).executors = planAt c.executors := by
  induction ts generalizing c with
  | nil => simp
  | cons t ts ih => simpa using ih (c := c.closeQuietly t)

/-! ## Working with a cache -/

theorem closeAll_snd (ts : List Ticket) : (c.closeAll ts).2 = ts.foldl closeQuietly c := by
  induction ts generalizing c with
  | nil => rfl
  | cons t ts ih =>
      have hclose : (c.close t).2 = c.closeQuietly t := rfl
      unfold closeAll
      split <;> rename_i heq <;> rw [heq] at hclose <;> subst hclose <;> exact ih

theorem reload_snd : c.reload.2 = c.drain.known.foldl closeQuietly c.drain := by
  have hclose := closeAll_snd (c := c.drain) c.drain.known
  unfold reload
  dsimp only
  split <;> rename_i heq <;> rw [heq] at hclose <;> exact hclose

@[simp] theorem reload_frame :
    c.reload.2.held = c.held ∧ c.reload.2.retained = c.retained ∧ c.reload.2.notices = [] ∧
      c.reload.2.dropped = c.dropped ∧ c.reload.2.executors.size = c.executors.size ∧
      planAt c.reload.2.executors = planAt c.executors := by
  simp [reload_snd]

@[simp] theorem drop_frame :
    c.drop.held = c.held ∧ c.drop.retained = [] ∧ c.drop.notices = [] ∧
      c.drop.dropped = true ∧ c.drop.executors.size = c.executors.size ∧
      planAt c.drop.executors = planAt c.executors := by
  simp [drop]

end Cache

end FlagSelect
