import FlagSelect.Proofs.Cache.Closings
import FlagSelect.Proofs.Cache.Layout
import Mathlib.Data.List.Nodup

/-!
# What a reload reaches

A reload closes every statement that is open: first those of executors with a notice, then those of
the live executors in the slots and on the evicted list, each once, and whether or not others fail
to close. Main statement: `Run.reload_reaches`.
-/

namespace FlagSelect

variable {σ δ ρ : Type} [Driver δ]

/-- Closes statements in order, whatever becomes of each, and lists what failed to close. -/
def closeEach : List (Plan σ × Driver.Statement δ) → δ → List ResourceError × δ
  | [], d => ([], d)
  | (p, st) :: rest, d =>
    match Driver.close st d with
    | (.ok (), d) => closeEach rest d
    | (.error fault, d) =>
      let (failures, d) := closeEach rest d
      (p.resourceError .close fault :: failures, d)

namespace Executor

/-- Whether a statement has been prepared for a plan, on a connection acquired for it. -/
def Prepares (p : Plan σ) (d : δ) (st : Driver.Statement δ) : Prop :=
  ∃ d' d'', Driver.acquire d = (.ok (), d') ∧ Driver.prepare p.sql d' = (.ok st, d'')

/-- Whether the next use of an executor prepares a statement, if it gets so far. -/
structure PreparesAnew [RecordHost σ ρ] (e : Executor σ δ) : Prop where
  prepare : ∀ w : World σ δ, (e.prepare w).outcome = .ok () →
    ∃ st, (e.prepare w).executor.statement = some st ∧ Prepares e.plan w.driver st
  query : ∀ side (project : RowProjection ρ) record (w : World σ δ),
    (e.query side project record w).outcome = .ok () →
    ∃ st, (e.query side project record w).executor.statement = some st ∧
      Prepares e.plan w.driver st

variable {e : Executor σ δ} {w : World σ δ}

theorem ensure_prepares {st : Driver.Statement δ} (h : e.statement = none)
    (hok : (e.ensure w).outcome = .ok st) :
    (e.ensure w).executor.statement = some st ∧ Prepares e.plan w.driver st := by
  unfold ensure at hok ⊢
  rw [h] at hok ⊢
  rcases hacquire : Driver.acquire w.driver with ⟨_ | _, d⟩
  · simp only [hacquire] at hok
    cases hok
  rcases hprepare : Driver.prepare e.plan.sql d with ⟨_ | st', d'⟩
  · simp only [hacquire, hprepare] at hok
    cases hok
  · simp only [hacquire, hprepare] at hok ⊢
    cases hok
    exact ⟨rfl, d, d', hacquire, hprepare⟩

/-- A query that gets as far as to need the statement leaves the executor with it. -/
theorem query_executor [RecordHost σ ρ] {side : Option Value} {project : RowProjection ρ}
    {record : Object} {values : List Value} {host : σ}
    (hvalues : e.plan.bindValues side record w.host = (.ok values, host)) :
    (e.query side project record w).executor = (e.ensure { w with host }).executor := by
  unfold query
  rw [hvalues]
  dsimp only
  split <;> rename_i heq <;> rw [heq]
  split
  · rfl
  · dsimp only
    split <;> rfl

theorem query_ok [RecordHost σ ρ] {side : Option Value} {project : RowProjection ρ}
    {record : Object} (hok : (e.query side project record w).outcome = .ok ()) :
    ∃ values host st, e.plan.bindValues side record w.host = (.ok values, host) ∧
      (e.ensure { w with host }).outcome = .ok st := by
  unfold query at hok
  split at hok
  · cases hok
  next values host hvalues =>
    split at hok
    · cases hok
    next st e' w' hens => exact ⟨values, host, st, hvalues, by rw [hens]⟩

theorem preparesAnew [RecordHost σ ρ] (h : e.statement = none) : PreparesAnew e where
  prepare w hok := by
    have hok : (e.ensure w).outcome.map (fun _ => ()) = .ok () := hok
    cases hens : (e.ensure w).outcome with
    | error err => rw [hens] at hok; cases hok
    | ok st => exact ⟨st, ensure_prepares h hens⟩
  query side project record w hok := by
    obtain ⟨values, host, st, hvalues, hens⟩ := query_ok hok
    rw [query_executor hvalues]
    exact ⟨st, ensure_prepares h hens⟩

end Executor

namespace Cache

variable {c c' : Cache σ δ} {s : Setup σ ρ} {t : Ticket} {ts : List Ticket} {k : Nat}

/-- The open statements of executors, in order, each with the plan that it is for. -/
def openOf (c : Cache σ δ) (ts : List Ticket) : List (Plan σ × Driver.Statement δ) :=
  ts.filterMap fun t => c.executors[t.number]?.bind fun e => e.statement.map (e.plan, ·)

theorem openOf_cons : c.openOf (t :: ts) = c.openOf [t] ++ c.openOf ts :=
  List.filterMap_append (l := [t])

theorem openOf_congr (h : ∀ t ∈ ts, c'.executors[t.number]? = c.executors[t.number]?) :
    c'.openOf ts = c.openOf ts :=
  List.filterMap_congr fun t ht => by rw [h t ht]

theorem close_eq : (c.openOf [t] = [] ∧ c.close t = (.ok false, c)) ∨
    ∃ p st, c.openOf [t] = [(p, st)] ∧
      (c.close t).2.world = { c.world with driver := (Driver.close st c.world.driver).2 } ∧
      (c.close t).1 = match (Driver.close st c.world.driver).1 with
        | .ok () => .ok true
        | .error fault => .error (p.resourceError .close fault) := by
  unfold close
  split
  next hnone => exact .inl ⟨by simp [openOf, hnone], rfl⟩
  next e he =>
    cases hst : e.statement with
    | none =>
        left
        have hself : c.executors.setIfInBounds t.number e = c.executors := by
          refine Array.ext_getElem? fun k => ?_
          rw [Array.getElem?_setIfInBounds]
          split
          next heq =>
            subst heq
            rw [he, if_pos (Array.getElem?_eq_some_iff.mp he).1]
          next => rfl
        refine ⟨by simp [openOf, he, hst], ?_⟩
        simp [Executor.close, hst, update, hself]
    | some st =>
        right
        refine ⟨e.plan, st, by simp [openOf, he, hst], ?_⟩
        rcases hclose : Driver.close st c.world.driver with ⟨_ | _, d⟩ <;>
          simp [Executor.close, hst, hclose, update]

theorem getElem?_close (h : k ≠ t.number) :
    (c.close t).2.executors[k]? = c.executors[k]? := by
  unfold close
  split
  · rfl
  next e he => simp [getElem?_update he, h.symm]

/-- Closing the statements of different executors closes each that is open, in order. -/
theorem closeAll_eq (hnodup : (ts.map Ticket.number).Nodup) :
    (c.closeAll ts).1 = (closeEach (c.openOf ts) c.world.driver).1 ∧
      (c.closeAll ts).2.world =
        { c.world with driver := (closeEach (c.openOf ts) c.world.driver).2 } := by
  induction ts generalizing c with
  | nil => exact ⟨rfl, rfl⟩
  | cons t ts ih =>
      rw [List.map_cons, List.nodup_cons] at hnodup
      have hrest : (c.close t).2.openOf ts = c.openOf ts := openOf_congr fun u hu =>
        getElem?_close fun heq => hnodup.1 (heq ▸ List.mem_map_of_mem hu)
      rw [openOf_cons, closeAll]
      rcases close_eq (c := c) (t := t) with ⟨hnone, hclose⟩ | ⟨p, st, hsome, hworld, hresult⟩
      · rw [hnone, hclose, List.nil_append]
        exact ih hnodup.2
      · obtain ⟨hfailures, hdriver⟩ := ih (c := (c.close t).2) hnodup.2
        rw [hrest, hworld] at hfailures hdriver
        rw [hsome, List.singleton_append, closeEach]
        rcases hclose : c.close t with ⟨r, c'⟩
        rw [hclose] at hfailures hdriver hresult
        rcases hst : Driver.close st c.world.driver with ⟨fault | _, d⟩ <;>
          simp only [hst] at hfailures hdriver hresult <;> subst hresult
        · exact ⟨congrArg (p.resourceError .close fault :: ·) hfailures, hdriver⟩
        · exact ⟨hfailures, hdriver⟩

theorem Closes.world_eq (h : Closes c ts c') (hnodup : (ts.map Ticket.number).Nodup) :
    c'.world = { c.world with driver := (closeEach (c.openOf ts) c.world.driver).2 } := by
  rw [h.world, ← closeAll_snd]
  exact (closeAll_eq hnodup).2

theorem Closes.getElem?_executors (h : Closes c ts c') (hk : ¬ Names ts k) :
    c'.executors[k]? = c.executors[k]? := by
  rw [h.executors]
  clear h
  induction ts generalizing c with
  | nil => rfl
  | cons t ts ih =>
      rw [names_cons, not_or] at hk
      exact (ih hk.2).trans (getElem?_close (Ne.symm hk.1))

theorem reload_outcome : c.reload.1 =
    match (c.drain.closeAll c.drain.known).1 with
    | [] => .ok ()
    | failures => .error (.aggregate failures) := by
  unfold reload
  dsimp only
  rcases c.drain.closeAll c.drain.known with ⟨_ | _, _⟩ <;> rfl

/-! ## Who is reached -/

theorem drain_slots (h : Orderly s c ts) : c.drain.slots = c.slots.map (Option.filter c.alive) := by
  have halive {i : Nat} {u : Ticket} : c.drain.Seats i u ↔ c.Seats i u ∧ c.alive u = true := by
    rw [h.seats_drain]
    refine and_congr_right fun hu => ?_
    rw [alive_iff_kept]
    constructor
    · exact (h.kept u (.inl ⟨i, hu⟩)).resolve_right
    · rintro hlive ⟨n, hn, heq⟩
      exact h.dead n hn (heq ▸ hlive)
  have hsize : c.drain.slots.size = c.slots.size := drain_table.1
  refine Array.ext_getElem? fun i => ?_
  rw [Array.getElem?_map]
  by_cases hi : i < c.slots.size
  · rw [Array.getElem?_eq_getElem hi, Array.getElem?_eq_getElem (hsize ▸ hi), Option.map_some]
    congr 1
    ext u
    have hu := halive (i := i) (u := u)
    rw [Seats, Seats, Array.getElem?_eq_getElem hi, Array.getElem?_eq_getElem (hsize ▸ hi)] at hu
    simpa [Option.filter_eq_some_iff] using hu
  · rw [Array.getElem?_eq_none (Nat.le_of_not_lt hi),
      Array.getElem?_eq_none (hsize ▸ Nat.le_of_not_lt hi), Option.map_none]

theorem drain_known (h : Orderly s c ts) : c.drain.known = c.known.filter c.alive := by
  rw [known, known, drain_slots h, drain_evicted, List.filter_append, Array.toList_map,
    List.filterMap_map, List.filter_filterMap]
  congr 2

theorem mem_known : t ∈ c.known ↔ c.Placed t := by
  rw [known, List.mem_append, List.mem_filterMap, Placed, ← mem_slots_iff]
  simp

theorem Orderly.known_nodup (h : Orderly s c ts) : (c.known.map Ticket.number).Nodup := by
  rw [known, List.map_append, List.nodup_append]
  refine ⟨?_, h.evicted, ?_⟩
  · rw [List.Nodup, List.pairwise_map, List.pairwise_filterMap, List.pairwise_iff_getElem]
    intro i j hi hj hij t ht u hu heq
    have hseats {i : Nat} {t : Ticket} (hi : i < c.slots.toList.length)
        (ht : id c.slots.toList[i] = some t) : c.Seats i t := by
      rw [Seats, ← Array.getElem?_toList, List.getElem?_eq_getElem hi]
      exact congrArg some ht
    have ht := hseats hi ht
    have hu := hseats hj hu
    have hflags := (h.made t (.inl (.inl ⟨i, ht⟩))).flags_eq (h.made u (.inl (.inl ⟨j, hu⟩))) heq
    rw [h.seated i t ht, h.seated j u hu, hflags] at hij
    exact Nat.lt_irrefl _ hij
  · rintro _ hmem _ hmem' heq
    obtain ⟨t, ht, rfl⟩ := List.mem_map.mp hmem
    obtain ⟨u, hu, rfl⟩ := List.mem_map.mp hmem'
    refine h.apart t u (mem_slots_iff.mp ?_) hu heq
    simpa using ht

theorem Orderly.ne_of_notice {n : Ticket} (h : Orderly s c ts) (hn : n ∈ c.notices)
    (ht : t ∈ c.known.filter c.alive) : n.number ≠ t.number := fun heq =>
  h.dead n hn (heq ▸ alive_iff_kept.mp (List.mem_filter.mp ht).2)

theorem Orderly.reached_nodup (h : Orderly s c ts) :
    ((c.notices ++ c.known.filter c.alive).map Ticket.number).Nodup := by
  rw [List.map_append, List.nodup_append]
  refine ⟨h.once, h.known_nodup.sublist (List.filter_sublist.map _), ?_⟩
  rintro _ hmem _ hmem' heq
  obtain ⟨n, hn, rfl⟩ := List.mem_map.mp hmem
  obtain ⟨t, ht, rfl⟩ := List.mem_map.mp hmem'
  exact h.ne_of_notice hn ht heq

/-- An open statement is that of a live executor, which has a place, or of one with a notice. -/
theorem Orderly.reached_of_hasOpen (h : Orderly s c []) (hcustody : Custody c [])
    (hk : c.HasOpen k) : Names (c.notices ++ c.known.filter c.alive) k := by
  rw [names_append]
  have hkept (hk : c.Kept k) : Names (c.known.filter c.alive) k := by
    obtain ⟨t, ht, rfl⟩ := (h.placed k hk).resolve_right names_nil
    exact ⟨t, List.mem_filter.mpr ⟨mem_known.mpr ht, alive_iff_kept.mpr hk⟩, rfl⟩
  rcases hcustody.kept k hk with hk | hk | hk | hk
  · exact .inr (hkept (.inl hk))
  · exact .inr (hkept (.inr hk))
  · exact .inl hk
  · exact absurd hk names_nil

/-- What a reload of a cache does. Where statements are closed, the executors with a notice come
first, then the live ones in the slots and after them those on the evicted list. -/
structure Reached [RecordHost σ ρ] (c : Cache σ δ) : Prop where
  /-- Whoever is kept alive has one place, a slot or one on the evicted list. -/
  placed : ∀ k, c.Kept k → (c.known.map Ticket.number).count k = 1
  closed : ∀ k, ¬ c.reload.2.HasOpen k
  /-- Whoever has an open statement is met once. -/
  met : ∀ k, c.HasOpen k →
    ((c.notices ++ c.known.filter c.alive).map Ticket.number).count k = 1
  world : c.reload.2.world = { c.world with
    driver := (closeEach (c.openOf (c.notices ++ c.known.filter c.alive)) c.world.driver).2 }
  /-- Nobody hears of the failures of those with a notice, but of all others. -/
  outcome : c.reload.1 =
    match (closeEach (c.openOf (c.known.filter c.alive))
      (closeEach (c.openOf c.notices) c.world.driver).2).1 with
    | [] => .ok ()
    | failures => .error (.aggregate failures)
  capacity : c.reload.2.capacity = c.capacity
  slots : c.reload.2.slots = c.slots.map (Option.filter c.alive)
  evicted : c.reload.2.evicted = c.evicted.filter c.alive
  retained : c.reload.2.retained = c.retained
  held : c.reload.2.held = c.held
  anew : ∀ (k : Nat) (e : Executor σ δ), c.reload.2.executors[k]? = some e → e.PreparesAnew

/-- A reload of a cache in order, whether or not it has an error for its outcome, reaches all open
statements, and leaves all that is alive where it is. -/
theorem Run.reload_reaches [RecordHost σ ρ] {w : World σ δ} {past : List (Cache σ δ)}
    (hs : s.settings.defect? = none) (h : Run s w (c :: past)) (hdropped : c.dropped = false) :
    c.Reached := by
  have horderly := h.orderly (Settings.valid_of_defect? hs) hdropped
  have hdrain := drain_known horderly
  have hcloses := closes_reload (c := c)
  rw [hdrain] at hcloses
  have hmet (k : Nat) (hk : c.HasOpen k) : Names (c.notices ++ c.known.filter c.alive) k :=
    horderly.reached_of_hasOpen h.custody hk
  have hclosed (k : Nat) : ¬ c.reload.2.HasOpen k := fun hk =>
    (hcloses.hasOpen.mp hk).1 (hmet k (hcloses.hasOpen.mp hk).2)
  constructor
  case placed =>
    intro k hk
    obtain ⟨t, ht, rfl⟩ := (horderly.placed k hk).resolve_right names_nil
    exact List.count_eq_one_of_mem horderly.known_nodup
      (List.mem_map_of_mem (mem_known.mpr ht))
  case closed => exact hclosed
  case met =>
    intro k hk
    obtain ⟨t, ht, rfl⟩ := hmet k hk
    exact List.count_eq_one_of_mem horderly.reached_nodup (List.mem_map_of_mem ht)
  case world => exact hcloses.world_eq horderly.reached_nodup
  case outcome =>
    have hopen : c.drain.openOf (c.known.filter c.alive) = c.openOf (c.known.filter c.alive) := by
      refine openOf_congr fun t ht => closes_drain.getElem?_executors ?_
      rintro ⟨n, hn, heq⟩
      exact horderly.ne_of_notice hn ht heq
    have hlive : ((c.known.filter c.alive).map Ticket.number).Nodup :=
      horderly.known_nodup.sublist (List.filter_sublist.map _)
    rw [reload_outcome, hdrain, (closeAll_eq hlive).1, hopen, closes_drain.world_eq horderly.once]
  case capacity => rw [reload_snd]; simpa [Cache.capacity] using (drain_table (c := c)).1
  case slots => rw [reload_snd]; simpa using drain_slots horderly
  case evicted => rw [reload_snd]; simpa using drain_evicted
  case retained => simp
  case held => simp
  case anew =>
    intro k e he
    refine Executor.preparesAnew ?_
    cases hst : e.statement with
    | none => rfl
    | some st => exact absurd ⟨e, he, by simp [hst]⟩ (hclosed k)

/-- Of three executors with open statements one is dead and has a notice, one has a slot, and one
has been evicted but is held and was prepared again. -/
theorem reload_reaches_crowded : ∃ c past, Run tightQuery stubbornWorld (c :: past) ∧
    c.notices = [⟨1, 1⟩] ∧ c.known.filter c.alive = [⟨2, 2⟩, ⟨0, 0⟩] ∧
    (∀ k < 3, (c.openOf [⟨0, k⟩]).length = 1) ∧ c.Reached := by
  have h := Run.start (s := tightQuery) (w := stubbornWorld)
    |>.perform (.lookup 0) rfl
    |>.perform (.lookup 1) rfl
    |>.perform (.unpin ⟨1, 1⟩) ⟨by decide, _, rfl, rfl⟩
    |>.perform (.lookup 2) rfl
    |>.perform (.prepare ⟨0, 0⟩) ⟨by decide, _, rfl, rfl⟩
  exact ⟨_, _, h, rfl, rfl, by decide, h.reload_reaches (by decide) rfl⟩

end Cache

end FlagSelect
