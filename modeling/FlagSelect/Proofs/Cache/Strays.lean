import FlagSelect.Proofs.Cache.Custody
import Mathlib.Data.List.Basic

/-!
# Executors made in vain

An executor whose statement could not be prepared is dead before anyone gets it, and only its number
and a notice are left of it. `Cache.including` puts such a stray among the executors of a cache, and
every function of the cache does there what it does without it. Main statement:
`perform_including`.
-/

namespace FlagSelect

variable {σ δ ρ : Type} [Driver δ]

/-- What the number of an executor is if `k` others come before the one of number `n`. -/
def delay (n k j : Nat) : Nat := if j < n then j else j + k

theorem delay_injective (n k : Nat) : Function.Injective (delay n k) := by
  intro i j h
  unfold delay at h
  split at h <;> split at h <;> omega

theorem delay_of_lt {n k j : Nat} (h : j < n) : delay n k j = j := if_pos h

theorem delay_of_le {n k j : Nat} (h : n ≤ j) : delay n k j = j + k := if_neg (Nat.not_lt.mpr h)

theorem delay_one_ne (n j : Nat) : delay n 1 j ≠ n := by
  unfold delay
  split <;> omega

@[simp] theorem delay_zero (n : Nat) : delay n 0 = id := by
  funext j
  simp [delay]

def Ticket.delay (n k : Nat) (t : Ticket) : Ticket := ⟨t.flags, FlagSelect.delay n k t.number⟩

@[simp] theorem Ticket.delay_zero (n : Nat) : Ticket.delay n 0 = id := by
  funext t
  simp [Ticket.delay]

theorem Ticket.delay_of_lt {n k : Nat} {t : Ticket} (h : t.number < n) : t.delay n k = t := by
  rw [Ticket.delay, FlagSelect.delay_of_lt h]

theorem Ticket.map_delay {n k : Nat} {ts : List Ticket} (h : ∀ t ∈ ts, t.number < n) :
    ts.map (Ticket.delay n k) = ts :=
  (List.map_congr_left fun t ht => Ticket.delay_of_lt (h t ht)).trans (List.map_id ts)

/-- An executor that was made in vain. -/
structure Stray (σ : Type) where
  plan : Plan σ
  number : Nat
  /-- Whether its notice is queued, the first of all, or has been worked off. -/
  waiting : Bool

namespace Stray

variable (v : Stray σ)

def ticket : Ticket := ⟨v.plan.flags, v.number⟩

/-- What another executor's ticket becomes when the stray is put in. -/
def shift (t : Ticket) : Ticket := t.delay v.number 1

@[simp] theorem shift_flags (t : Ticket) : (v.shift t).flags = t.flags := rfl

@[simp] theorem shift_number (t : Ticket) : (v.shift t).number = delay v.number 1 t.number := rfl

/-- The stray once its notice has been worked off. -/
def settled : Stray σ := { v with waiting := false }

@[simp] theorem settled_frame : v.settled.plan = v.plan ∧ v.settled.number = v.number ∧
    v.settled.waiting = false ∧ v.settled.shift = v.shift :=
  ⟨rfl, rfl, rfl, rfl⟩

end Stray

namespace Cache

/-- The cache with a stray among its executors. -/
def including (c : Cache σ δ) (v : Stray σ) : Cache σ δ where
  executors := (c.executors.toList.insertIdx v.number { plan := v.plan }).toArray
  held := c.held.map (delay v.number 1)
  slots := c.slots.map (Option.map v.shift)
  evicted := c.evicted.map v.shift
  retained := c.retained.map v.shift
  notices := (if v.waiting then [v.ticket] else []) ++ c.notices.map v.shift
  dropped := c.dropped
  counters := { c.counters with
    reclaimed := c.counters.reclaimed + if v.waiting then 0 else 1 }
  world := c.world

variable {c : Cache σ δ} {v : Stray σ} {s : Setup σ ρ} {t : Ticket} {flags : Flags}

/-! ## Executors -/

theorem getElem?_including (k : Nat) :
    (c.including v).executors[delay v.number 1 k]? = c.executors[k]? := by
  simp only [including, List.getElem?_toArray, List.getElem?_insertIdx, delay,
    Array.getElem?_toList]
  split
  next => rfl
  next hk =>
    rw [if_neg (by omega), if_neg (by omega), Nat.add_sub_cancel]

theorem update_including (k : Nat) (e : Executor σ δ) (w : World σ δ) :
    (c.including v).update (delay v.number 1 k) e w = (c.update k e w).including v := by
  have hset :
      (c.executors.toList.insertIdx v.number { plan := v.plan }).set (delay v.number 1 k) e =
      (c.executors.toList.set k e).insertIdx v.number { plan := v.plan } := by
    refine List.ext_getElem? fun j => ?_
    simp only [List.getElem?_insertIdx, List.getElem?_set, List.length_set,
      List.length_insertIdx, delay]
    grind
  simp [including, update, hset]

theorem close_including : (c.including v).close (v.shift t) =
    ((c.close t).1, (c.close t).2.including v) := by
  unfold close
  rw [Stray.shift_number, getElem?_including]
  split
  · rfl
  · simp only [update_including]
    rfl

theorem closeQuietly_including :
    (c.including v).closeQuietly (v.shift t) = (c.closeQuietly t).including v :=
  congrArg Prod.snd close_including

theorem prepare_including : (c.including v).prepare (v.shift t) =
    ((c.prepare t).1, (c.prepare t).2.including v) := by
  unfold prepare
  rw [Stray.shift_number, getElem?_including]
  split
  · rfl
  · simp only [update_including]
    rfl

theorem query_including [RecordHost σ ρ] {record : Object} :
    (c.including v).query s (v.shift t) record =
      ((c.query s t record).1, (c.query s t record).2.including v) := by
  unfold query
  rw [Stray.shift_number, getElem?_including]
  split
  · rfl
  · simp only [update_including]
    rfl

theorem bindValues_including {record : Object} :
    (c.including v).bindValues s (v.shift t) record =
      ((c.bindValues s t record).1, (c.bindValues s t record).2.including v) := by
  unfold bindValues
  rw [Stray.shift_number, getElem?_including]
  split <;> rfl

/-! ## Holds -/

theorem alive_including : (c.including v).alive (v.shift t) = c.alive t := by
  rw [Bool.eq_iff_iff, alive_iff, alive_iff]
  simp [including, Names, (delay_injective v.number 1).eq_iff]

theorem settle_including :
    (c.including v).settle (v.shift t) = (c.settle t).including v := by
  unfold settle
  rw [alive_including]
  split
  · rfl
  · show (if c.dropped = true then _ else _) = _
    split
    · exact closeQuietly_including
    · simp [including]

theorem foldl_including {α : Type} {f : Cache σ δ → α → Cache σ δ} {g : α → α}
    (h : ∀ (c : Cache σ δ) a, f (c.including v) (g a) = (f c a).including v) (l : List α)
    (c : Cache σ δ) : (l.map g).foldl f (c.including v) = (l.foldl f c).including v := by
  rw [List.foldl_map]
  exact List.foldl_hom (fun c : Cache σ δ => c.including v) h

theorem hold_including : (c.including v).hold (v.shift t) = (c.hold t).including v := rfl

theorem release_including : (c.including v).release (v.shift t) = (c.release t).including v := by
  have hinj := delay_injective v.number 1
  have hcontains : (c.including v).held.contains (v.shift t).number = c.held.contains t.number := by
    rw [Bool.eq_iff_iff]
    simp [including, hinj.eq_iff]
  have herase : ({ c.including v with held := (c.including v).held.erase (v.shift t).number } :
      Cache σ δ) = Cache.including { c with held := c.held.erase t.number } v := by
    simp [including, List.map_erase hinj]
  unfold release
  rw [hcontains, herase]
  split
  · exact settle_including
  · rfl

theorem retain_including {limit : Nat} :
    (c.including v).retain limit (v.shift t) = (c.retain limit t).including v := by
  unfold retain
  split
  · rfl
  · rw [← foldl_including (v := v) (g := v.shift) fun c t => settle_including]
    simp [including, List.filter_map, Function.comp_def]

theorem dismiss_including : (c.including v).dismiss flags = (c.dismiss flags).including v := by
  unfold dismiss
  rw [← foldl_including (v := v) (g := v.shift) fun c t => settle_including]
  simp [including, List.filter_map, Function.comp_def]

/-! ## The table -/

theorem capacity_including : (c.including v).capacity = c.capacity := by
  simp [capacity, including]

theorem resident?_including :
    (c.including v).resident? flags = (c.resident? flags).map v.shift := by
  unfold resident?
  rw [capacity_including]
  simp only [including, Array.getElem?_map]
  cases c.slots[slotIndex c.capacity flags]? <;> rfl

theorem setSlot_including (o : Option Ticket) :
    (c.including v).setSlot flags (o.map v.shift) = (c.setSlot flags o).including v := by
  unfold setSlot
  rw [capacity_including]
  simp [including, Array.map_setIfInBounds]

theorem rehash_including (o : Option Ticket) :
    (c.including v).rehash (o.map v.shift) = (c.rehash o).including v := by
  cases o with
  | none => rfl
  | some t =>
      simp only [rehash, Option.map_some, alive_including, Stray.shift_flags]
      split
      · exact setSlot_including (some t)
      · exact closeQuietly_including

theorem grow_including : (c.including v).grow = c.grow.including v := by
  have hwidened : ({ c.including v with
      slots := Array.replicate (2 * (c.including v).capacity) none } : Cache σ δ) =
      Cache.including { c with slots := Array.replicate (2 * c.capacity) none } v := by
    rw [capacity_including]
    simp [including]
  have hslots : (c.including v).slots.toList = c.slots.toList.map (Option.map v.shift) := by
    simp [including]
  unfold grow
  rw [hwidened, hslots, foldl_including fun c o => rehash_including o]
  rfl

theorem evict_including : (c.including v).evict (v.shift t) = (c.evict t).including v := by
  unfold evict
  rw [closeQuietly_including, Stray.shift_flags, dismiss_including]
  dsimp only
  rw [alive_including]
  cases ((c.closeQuietly t).dismiss t.flags).alive t <;> simp [including]

theorem place_including {maxCapacity n : Nat} :
    (c.including v).place maxCapacity (v.shift t) n = (c.place maxCapacity t n).including v := by
  have hseat {c : Cache σ δ} : (c.including v).setSlot t.flags (some (v.shift t)) =
      (c.setSlot t.flags (some t)).including v := setSlot_including (some t)
  induction n generalizing c with
  | zero =>
      unfold place
      rw [Stray.shift_flags, resident?_including]
      cases c.resident? t.flags with
      | none => exact hseat
      | some r =>
          simp only [Option.map_some, Stray.shift_flags, alive_including, closeQuietly_including,
            evict_including, hseat]
          split <;> rfl
  | succ n ih =>
      unfold place
      rw [Stray.shift_flags, resident?_including]
      cases c.resident? t.flags with
      | none => exact hseat
      | some r =>
          simp only [Option.map_some, Stray.shift_flags, alive_including, closeQuietly_including,
            evict_including, hseat, capacity_including, grow_including, ih]
          split
          · rfl
          · split <;> rfl

/-! ## Notices -/

theorem reclaim_including : (c.including v).reclaim (v.shift t) = (c.reclaim t).including v := by
  have hany : (((c.closeQuietly t).including v).resident? t.flags).any
      (·.number == delay v.number 1 t.number) =
      ((c.closeQuietly t).resident? t.flags).any (·.number == t.number) := by
    rw [resident?_including]
    cases (c.closeQuietly t).resident? t.flags with
    | none => rfl
    | some r =>
        rw [Bool.eq_iff_iff]
        simp [(delay_injective v.number 1).eq_iff]
  have hfree : ((c.closeQuietly t).including v).setSlot t.flags none =
      ((c.closeQuietly t).setSlot t.flags none).including v := setSlot_including none
  unfold reclaim
  rw [closeQuietly_including, Stray.shift_flags, Stray.shift_number]
  dsimp only
  rw [hany, hfree]
  split <;> simp [including, Nat.add_right_comm]

theorem update_self {k : Nat} {e : Executor σ δ} {w : World σ δ} (he : c.executors[k]? = some e) :
    c.update k e w = { c with world := w } := by
  have hset : c.executors.setIfInBounds k e = c.executors := by
    refine Array.ext_getElem? fun j => ?_
    rw [Array.getElem?_setIfInBounds]
    split
    next hj =>
      subst hj
      rw [if_pos (Array.getElem?_eq_some_iff.mp he).1, he]
    next => rfl
  rw [update, hset]

theorem closeQuietly_of_not_hasOpen (h : ¬ c.HasOpen t.number) : c.closeQuietly t = c := by
  unfold closeQuietly close
  split
  · rfl
  next e he =>
    have hnone : e.statement = none := by
      by_contra hsome
      exact h ⟨e, he, Option.isSome_iff_ne_none.mpr hsome⟩
    simp [Executor.close, hnone, update_self he]

theorem not_hasOpen_stray : ¬ (c.including v).HasOpen v.number := by
  rintro ⟨e, he, hopen⟩
  simp only [including, List.getElem?_toArray, List.getElem?_insertIdx, Nat.lt_irrefl, if_false,
    if_true] at he
  split at he
  · cases he
    cases hopen
  · cases he

theorem reclaim_stray (hwaiting : v.waiting = true) :
    ({ c.including v with notices := [] } : Cache σ δ).reclaim v.ticket =
      Cache.including { c with notices := [] } v.settled := by
  have hclose : ({ c.including v with notices := [] } : Cache σ δ).closeQuietly v.ticket =
      { c.including v with notices := [] } :=
    closeQuietly_of_not_hasOpen (not_hasOpen_stray (c := c) (v := v))
  have hany : ¬ ((c.including v).resident? v.ticket.flags).any (·.number == v.ticket.number) := by
    rw [resident?_including]
    cases c.resident? v.ticket.flags with
    | none => simp
    | some r => simpa [Stray.ticket] using delay_one_ne v.number r.number
  have hresident : ({ c.including v with notices := [] } : Cache σ δ).resident? v.ticket.flags =
      (c.including v).resident? v.ticket.flags := rfl
  unfold reclaim
  dsimp only
  rw [hclose, hresident, if_neg hany]
  simp [including, hwaiting]

theorem drain_including : (c.including v).drain = c.drain.including v.settled := by
  have hnotices : (c.including v).notices.foldl reclaim { c.including v with notices := [] } =
      (c.notices.foldl reclaim { c with notices := [] }).including v.settled := by
    cases hwaiting : v.waiting with
    | false =>
        have hsettled : v.settled = v := by
          cases v
          cases hwaiting
          rfl
        rw [hsettled, ← foldl_including (v := v) (g := v.shift) fun c t => reclaim_including]
        simp [including, hwaiting]
    | true =>
        -- The notice of the stray is the first, and there is nothing to close or to free for it.
        have hcons : (c.including v).notices = v.ticket :: c.notices.map v.settled.shift := by
          simp [including, hwaiting]
        rw [hcons, List.foldl_cons, reclaim_stray hwaiting,
          foldl_including fun c t => reclaim_including]
  have hevicted (c : Cache σ δ) :
      (c.including v.settled).evicted.filter (c.including v.settled).alive =
        (c.evicted.filter c.alive).map v.shift := by
    have halive : (c.including v.settled).alive ∘ v.settled.shift = c.alive :=
      funext fun t => alive_including
    rw [← halive]
    exact List.filter_map
  unfold drain
  rw [hnotices]
  dsimp only
  rw [hevicted]
  rfl

/-! ## Lookups -/

section Later

variable (hv : v.number ≤ c.executors.size)

include hv

theorem nextTicket_including :
    (c.including v).nextTicket flags = v.shift (c.nextTicket flags) := by
  simp [nextTicket, including, Stray.shift, Ticket.delay, delay_of_le hv, List.length_insertIdx, hv]

theorem enlist_including {plan : Plan σ} :
    (c.including v).enlist flags plan = (c.enlist flags plan).including v := by
  have hpush (e e' : Executor σ δ) : (c.executors.toList ++ [e]).insertIdx v.number e' =
      c.executors.toList.insertIdx v.number e' ++ [e] := by
    refine List.ext_getElem? fun j => ?_
    simp only [List.getElem?_insertIdx, List.getElem?_append, List.length_insertIdx,
      List.length_append, Array.length_toList]
    grind
  unfold enlist
  rw [nextTicket_including hv]
  simp [including, hold, hpush, World.count]

theorem Synthesis.including {x : Except Error Ticket × Cache σ δ} (h : Synthesis s c flags x) :
    Synthesis s (c.including v) flags (x.1.map v.shift, x.2.including v) := by
  have henlist {plan : Plan σ} : (c.including v).enlist flags plan =
      (c.enlist flags plan).including v := enlist_including hv
  have hnext : (c.including v).nextTicket flags = v.shift (c.nextTicket flags) :=
    nextTicket_including hv
  have hprepare {plan : Plan σ} :
      ((c.including v).enlist flags plan).prepare ((c.including v).nextTicket flags) =
        (((c.enlist flags plan).prepare (c.nextTicket flags)).1,
          ((c.enlist flags plan).prepare (c.nextTicket flags)).2.including v) := by
    rw [henlist, hnext, prepare_including]
  cases h with
  | noPlan hplan => exact .noPlan hplan
  | unprepared hplan heager hfail =>
      have h := Synthesis.unprepared (c := c.including v) hplan heager
        (by rw [hprepare]; exact hfail)
      rwa [hprepare, hnext, release_including] at h
  | prepared hplan heager hok =>
      have h := Synthesis.prepared (c := c.including v) hplan heager (by rw [hprepare]; exact hok)
      rwa [hprepare, hnext] at h
  | postponed hplan hlazy =>
      have h := Synthesis.postponed (c := c.including v) hplan hlazy
      rwa [henlist, hnext] at h

end Later

theorem Synthesis.unique {x y : Except Error Ticket × Cache σ δ} (hx : Synthesis s c flags x)
    (hy : Synthesis s c flags y) : x = y := by
  cases hx <;> cases hy <;> simp_all

theorem Hit.unique {u : Ticket} (ht : c.Hit flags t) (hu : c.Hit flags u) : t = u :=
  Option.some.inj (ht.1.symm.trans hu.1)

theorem Lookup.unique {x y : Except Error Ticket × Cache σ δ} (hx : Lookup s c flags x)
    (hy : Lookup s c flags y) : x = y := by
  cases hx with
  | hit ht =>
      cases hy with
      | hit hu => rw [ht.unique hu]
      | failed hnone _ => exact absurd ht (hnone _)
      | made hnone _ => exact absurd ht (hnone _)
  | failed hnone hsyn =>
      cases hy with
      | hit hu => exact absurd hu (hnone _)
      | failed _ hsyn' => exact hsyn.unique hsyn'
      | made _ hsyn' => cases hsyn.unique hsyn'
  | made hnone hsyn =>
      cases hy with
      | hit hu => exact absurd hu (hnone _)
      | failed _ hsyn' => cases hsyn.unique hsyn'
      | made _ hsyn' => cases hsyn.unique hsyn'; rfl

theorem hit_including {u : Ticket} :
    (c.including v).Hit flags u ↔ ∃ t, u = v.shift t ∧ c.Hit flags t := by
  unfold Hit
  rw [resident?_including, Option.map_eq_some_iff]
  constructor
  · rintro ⟨⟨t, ht, rfl⟩, hflags, halive⟩
    rw [alive_including] at halive
    exact ⟨t, rfl, ht, hflags, halive⟩
  · rintro ⟨t, rfl, ht, hflags, halive⟩
    rw [alive_including]
    exact ⟨⟨t, ht, rfl⟩, hflags, halive⟩

theorem Lookup.including (hv : v.number ≤ c.executors.size)
    {x : Except Error Ticket × Cache σ δ} (h : Lookup s c flags x) :
    Lookup s (c.including v) flags (x.1.map v.shift, x.2.including v.settled) := by
  have hdrain := drain_including (c := c) (v := v)
  have hsize : v.settled.number ≤ c.drain.executors.size := by
    rw [drain_frame.2.2.2.2.1]
    exact hv
  have hnone (hnone : ∀ t, ¬ c.drain.Hit flags t) (u : Ticket) :
      ¬ (c.including v).drain.Hit flags u := by
    rw [hdrain, hit_including]
    rintro ⟨t, -, ht⟩
    exact hnone t ht
  cases h with
  | @hit t ht =>
      have h := Lookup.hit (s := s) (hdrain ▸ hit_including.mpr ⟨t, rfl, ht⟩)
      rw [hdrain] at h
      have hretain : ((c.drain.including v.settled).countHit.hold (v.settled.shift t)).retain
          s.settings.retained (v.settled.shift t) =
          ((c.drain.countHit.hold t).retain s.settings.retained t).including v.settled :=
        retain_including (c := c.drain.countHit.hold t)
      rwa [hretain] at h
  | failed hmiss hsyn => exact .failed (hnone hmiss) (hdrain ▸ hsyn.including hsize)
  | made hmiss hsyn =>
      have h := Lookup.made (hnone hmiss) (hdrain ▸ hsyn.including hsize)
      rwa [place_including, retain_including] at h

theorem lookup_including (hv : v.number ≤ c.executors.size) : (c.including v).lookup s flags =
    ((c.lookup s flags).1.map v.shift, (c.lookup s flags).2.including v.settled) :=
  (lookup_spec _ s flags).unique ((lookup_spec c s flags).including hv)

theorem handle_including [RecordHost σ ρ] {record : Object} (hv : v.number ≤ c.executors.size) :
    (c.including v).handle s record =
      ((c.handle s record).1, (c.handle s record).2.including v.settled) := by
  unfold handle
  have hflags : RecordHost.flags (c.including v).world.host record =
      RecordHost.flags c.world.host record := rfl
  rw [hflags, lookup_including hv]
  rcases c.lookup s (RecordHost.flags c.world.host record) with ⟨e | t, c'⟩
  · rfl
  · simp only [Except.map]
    rw [← v.settled_frame.2.2.2, query_including, release_including]

theorem closeAll_including (ts : List Ticket) : (c.including v).closeAll (ts.map v.shift) =
    ((c.closeAll ts).1, (c.closeAll ts).2.including v) := by
  induction ts generalizing c with
  | nil => rfl
  | cons t ts ih =>
      rw [List.map_cons, closeAll, closeAll, close_including]
      rcases c.close t with ⟨e | b, c'⟩
      · simp only [ih]
      · simp only [ih]

theorem known_including : (c.including v).known = c.known.map v.shift := by
  simp [known, including, List.filterMap_map, List.map_filterMap]

theorem reload_including : (c.including v).reload =
    (c.reload.1, c.reload.2.including v.settled) := by
  unfold reload
  rw [drain_including]
  dsimp only
  rw [known_including, closeAll_including]
  rcases c.drain.closeAll c.drain.known with ⟨failures, c'⟩
  cases failures <;> rfl

theorem drop_including : (c.including v).drop = c.drop.including v.settled := by
  have hretained : (c.including v).retained.foldl settle { c.including v with retained := [] } =
      (c.retained.foldl settle { c with retained := [] }).including v :=
    foldl_including (fun c t => settle_including) c.retained { c with retained := [] }
  unfold drop
  rw [hretained, drain_including]
  dsimp only
  rw [known_including, foldl_including fun c t => closeQuietly_including]
  simp [including]

/-! ## Operations -/

/-- The operation where the executors that it names have been delayed. -/
def Operation.delay (n k : Nat) : Operation σ → Operation σ
  | pin t => pin (t.delay n k)
  | unpin t => unpin (t.delay n k)
  | prepare t => prepare (t.delay n k)
  | query t record => query (t.delay n k) record
  | bindValues t record => bindValues (t.delay n k) record
  | op => op

@[simp] theorem Operation.delay_zero (n : Nat) :
    (Operation.delay n 0 : Operation σ → Operation σ) = id := by
  funext op
  cases op <;> simp [Operation.delay]

theorem perform_including [RecordHost σ ρ] (hv : v.number ≤ c.executors.size) (op : Operation σ) :
    (op.delay v.number 1).perform s (c.including v) = (op.perform s c).including v ∨
    (op.delay v.number 1).perform s (c.including v) = (op.perform s c).including v.settled := by
  cases op with
  | lookup flags => exact .inr (congrArg Prod.snd (lookup_including hv))
  | handle record => exact .inr (congrArg Prod.snd (handle_including hv))
  | reload => exact .inr (congrArg Prod.snd reload_including)
  | drop => exact .inr drop_including
  | pin t => exact .inl hold_including
  | unpin t => exact .inl release_including
  | prepare t => exact .inl (congrArg Prod.snd prepare_including)
  | query t record => exact .inl (congrArg Prod.snd query_including)
  | bindValues t record => exact .inl (congrArg Prod.snd bindValues_including)
  | elsewhere host => exact .inl rfl

end Cache

end FlagSelect
