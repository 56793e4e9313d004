import FlagSelect.Proofs.Cache.Reload
import FlagSelect.Proofs.Cache.Strays

/-!
# Lookups that fail

A lookup that fails leaves the table, the retention list and the counters as they were when the
notices had been worked off, and no statement open. If it got as far as to make an executor, that
executor is a stray, so that all that comes later goes as it would have gone. Main statement:
`Run.failed_lookup`.
-/

namespace FlagSelect

variable {σ δ ρ : Type} [Driver δ]

namespace Executor

variable {e : Executor σ δ} {w : World σ δ}

theorem prepare_error {err : Error} (h : (e.prepare w).outcome = .error err) :
    (e.prepare w).executor = e ∧ (e.prepare w).world.host = w.host := by
  unfold prepare ensure at h ⊢
  cases hst : e.statement with
  | some st => simp [hst, Except.map] at h
  | none =>
      simp only [hst] at h ⊢
      rcases hacquire : Driver.acquire w.driver with ⟨_ | _, d⟩
      · exact ⟨rfl, rfl⟩
      · simp only [hacquire] at h ⊢
        rcases hprepare : Driver.prepare e.plan.sql d with ⟨_ | st, d'⟩
        · exact ⟨rfl, rfl⟩
        · simp [hprepare, Except.map] at h

theorem prepare_ok {st : Driver.Statement δ} (h : Prepares e.plan w.driver st) :
    (e.prepare w).outcome = .ok () := by
  obtain ⟨d, d', hacquire, hprepare⟩ := h
  unfold prepare ensure
  cases e.statement with
  | some st => rfl
  | none => simp [hacquire, hprepare, Except.map]

end Executor

namespace Cache

variable {c c' : Cache σ δ} {s : Setup σ ρ} {w : World σ δ} {t : Ticket} {flags : Flags} {n k : Nat}
  {e : Error}

/-! ## Making an executor in vain -/

theorem getElem?_nextTicket {plan : Plan σ} :
    (c.enlist flags plan).executors[(c.nextTicket flags).number]? = some { plan } := by
  simp [nextTicket]

/-- What is left of an executor that is let go of as soon as it is made is its number and a
notice. -/
theorem release_enlist (hc : Orderly s c []) {plan : Plan σ} :
    ({ c.enlist flags plan with world := w } : Cache σ δ).release (c.nextTicket flags) =
      { c with
        executors := c.executors.push { plan }
        notices := c.notices ++ [c.nextTicket flags]
        world := w } := by
  have hnew : ¬ c.Kept c.executors.size := fun hk => Nat.lt_irrefl _ (hc.lt_of_kept hk)
  have hdead : ({ c.enlist flags plan with
      world := w, held := c.held } : Cache σ δ).alive (c.nextTicket flags) = false :=
    alive_eq_false.mpr hnew
  have herase : (c.executors.size :: c.held).erase (c.nextTicket flags).number = c.held := by
    simp [nextTicket]
  unfold release
  rw [enlist_frame.1, herase, if_pos (by simp [nextTicket])]
  unfold settle
  rw [hdead]
  simp [hc.dropped]

theorem Synthesis.failed (h : Synthesis s c flags (.error e, c')) (hc : Orderly s c []) :
    c' = c ∨ ∃ (plan : Plan σ) (w : World σ δ), plan.flags = flags ∧ w.host = c.world.host ∧
      c' = { c with
        executors := c.executors.push { plan }
        notices := c.notices ++ [c.nextTicket flags]
        world := w } := by
  cases h with
  | noPlan _ => exact .inl rfl
  | @unprepared plan _ hplan _ hfail =>
      unfold prepare at hfail ⊢
      simp only [getElem?_nextTicket] at hfail ⊢
      obtain ⟨hsame, hhost⟩ := Executor.prepare_error hfail
      rw [hsame, update_self getElem?_nextTicket]
      exact .inr ⟨plan, _, (Template.plan_ok hplan).1, hhost, release_enlist hc⟩

/-! ## The stray -/

/-- A new executor that nobody has got is a stray. -/
theorem Orderly.stray (hc : Orderly s c []) (hnotices : c.notices = []) (plan : Plan σ)
    (hplan : plan.flags = flags) :
    ({ c with
      executors := c.executors.push { plan }
      notices := c.notices ++ [c.nextTicket flags]
      world := w } : Cache σ δ) =
      Cache.including { c with world := w } ⟨plan, c.executors.size, true⟩ := by
  -- All other numbers are lower than the stray's, so that no ticket changes.
  have hplaced (t : Ticket) (ht : c.Placed t) : t.number < c.executors.size :=
    (hc.made t (.inl ht)).lt
  have hheld : c.held.map (delay c.executors.size 1) = c.held :=
    (List.map_congr_left fun k hk => delay_of_lt (hc.lt_of_kept (.inl hk))).trans (List.map_id _)
  have hslots : c.slots.map (Option.map (Ticket.delay c.executors.size 1)) = c.slots := by
    refine Array.ext_getElem? fun i => ?_
    rw [Array.getElem?_map]
    rcases hi : c.slots[i]? with _ | _ | t
    · rfl
    · rfl
    · exact congrArg (some ∘ some) (Ticket.delay_of_lt (hplaced t (.inl ⟨i, hi⟩)))
  have hevicted := Ticket.map_delay (k := 1) fun t ht => hplaced t (.inr ht)
  have hretained := Ticket.map_delay (k := 1) fun t ht => hplaced t (.inl (hc.retained t ht))
  have hpush : (c.executors.toList.insertIdx c.executors.size { plan }).toArray =
      c.executors.push { plan } := by
    rw [← Array.length_toList, List.insertIdx_length_self, ← Array.toList_push]
  unfold including Stray.shift
  simp only [hheld, hslots, hevicted, hretained, hpush, hnotices]
  simp [nextTicket, Stray.ticket, hplan]

/-! ## What comes later -/

/-- Whether a cache differs from another one by `k` executors made in vain, from number `n` on,
whose notices have been worked off. -/
structure Shifted (n k : Nat) (c c' : Cache σ δ) : Prop where
  executors : ∀ j, c'.executors[delay n k j]? = c.executors[j]?
  held : c'.held = c.held.map (delay n k)
  slots : c'.slots = c.slots.map (Option.map (Ticket.delay n k))
  evicted : c'.evicted = c.evicted.map (Ticket.delay n k)
  retained : c'.retained = c.retained.map (Ticket.delay n k)
  notices : c'.notices = c.notices.map (Ticket.delay n k)
  dropped : c'.dropped = c.dropped
  counters : c'.counters = { c.counters with reclaimed := c.counters.reclaimed + k }
  world : c'.world = c.world

theorem shifted_including {v : Stray σ} : Shifted v.number 1 c (c.including v.settled) where
  executors := getElem?_including
  held := rfl
  slots := rfl
  evicted := rfl
  retained := rfl
  notices := rfl
  dropped := rfl
  counters := rfl
  world := rfl

theorem shifted_refl : Shifted n 0 c c where
  executors _ := by simp
  held := by simp
  slots := by simp
  evicted := by simp
  retained := by simp
  notices := by simp
  dropped := rfl
  counters := rfl
  world := rfl

/-- Whether nothing stands in the way of making an executor for some flags. -/
def Makable (s : Setup σ ρ) (c : Cache σ δ) (flags : Flags) : Prop :=
  ∃ plan, s.template.plan flags = .ok plan ∧ (s.settings.prepareEagerly = true →
    ∃ st, Executor.Prepares plan c.drain.world.driver st)

theorem Makable.lookup_ok (h : Makable s c flags) : ∃ t, (c.lookup s flags).1 = .ok t := by
  obtain ⟨plan, hplan, hprepares⟩ := h
  have hx := lookup_spec c s flags
  generalize c.lookup s flags = x at hx
  cases hx with
  | hit _ => exact ⟨_, rfl⟩
  | made _ _ => exact ⟨_, rfl⟩
  | failed _ hsyn =>
      cases hsyn with
      | noPlan hnone => cases hplan.symm.trans hnone
      | unprepared hplan' heager hfail =>
          cases hplan.symm.trans hplan'
          obtain ⟨st, hst⟩ := hprepares heager
          unfold prepare at hfail
          simp only [getElem?_nextTicket] at hfail
          cases hfail.symm.trans (Executor.prepare_ok (e := { plan })
            (w := (c.drain.enlist flags plan).world) hst)

theorem Synthesis.size_le {x : Except Error Ticket × Cache σ δ} (h : Synthesis s c flags x) :
    c.executors.size ≤ x.2.executors.size := by
  cases h <;> simp

theorem Lookup.size_le {x : Except Error Ticket × Cache σ δ} (h : Lookup s c flags x) :
    c.executors.size ≤ x.2.executors.size := by
  have hdrain : c.drain.executors.size = c.executors.size := drain_frame.2.2.2.2.1
  cases h with
  | hit _ => simp [hold]
  | failed _ hsyn => exact hdrain ▸ hsyn.size_le
  | made _ hsyn => simpa [hdrain] using hsyn.size_le

/-- What is left after a failed lookup of a cache whose notices had been worked off. -/
structure Untouched (flags : Flags) (c c' : Cache σ δ) : Prop where
  slots : c'.slots = c.slots
  capacity : c'.capacity = c.capacity
  evicted : c'.evicted = c.evicted
  retained : c'.retained = c.retained
  held : c'.held = c.held
  dropped : c'.dropped = c.dropped
  counters : c'.counters = c.counters
  host : c'.world.host = c.world.host
  opened : ∀ k, c'.HasOpen k ↔ c.HasOpen k
  /-- The lookup has left no trace, or an executor that no one has got. -/
  trace : c' = c ∨ ∃ plan : Plan σ, plan.flags = flags ∧
    c'.executors = c.executors.push { plan } ∧ c'.notices = [⟨flags, c.executors.size⟩]

theorem Synthesis.untouched (h : Synthesis s c flags (.error e, c')) (hc : Orderly s c [])
    (hnotices : c.notices = []) : Untouched flags c c' := by
  rcases h.failed hc with rfl | ⟨plan, w, hplan, hhost, rfl⟩
  · exact ⟨rfl, rfl, rfl, rfl, rfl, rfl, rfl, rfl, fun _ => Iff.rfl, .inl rfl⟩
  · have hopen (k : Nat) : (c.enlist flags plan).HasOpen k ↔ c.HasOpen k := hasOpen_enlist
    exact ⟨rfl, rfl, rfl, rfl, rfl, rfl, rfl, hhost, hopen,
      .inr ⟨plan, hplan, rfl, by rw [hnotices]; rfl⟩⟩

/-- Whether a lookup goes on one cache as on another but for `k` executors made in vain. -/
structure Resumes (s : Setup σ ρ) (n k : Nat) (c c' : Cache σ δ) (flags : Flags) : Prop where
  outcome : (c'.lookup s flags).1 = (c.lookup s flags).1.map (Ticket.delay n k)
  after : Shifted n k (c.lookup s flags).2 (c'.lookup s flags).2
  succeeds : Makable s c flags →
    ∃ t, (c.lookup s flags).1 = .ok t ∧ (c'.lookup s flags).1 = .ok (t.delay n k)

theorem Resumes.of_outcome (houtcome : (c'.lookup s flags).1 =
    (c.lookup s flags).1.map (Ticket.delay n k))
    (hafter : Shifted n k (c.lookup s flags).2 (c'.lookup s flags).2) :
    Resumes s n k c c' flags where
  outcome := houtcome
  after := hafter
  succeeds h := by
    obtain ⟨t, ht⟩ := h.lookup_ok
    exact ⟨t, ht, by rw [houtcome, ht]; rfl⟩

theorem resumes_refl : Resumes s n 0 c c flags :=
  .of_outcome (by cases (c.lookup s flags).1 <;> simp [Except.map]) shifted_refl

theorem resumes_including {v : Stray σ} (hv : v.number ≤ c.executors.size) :
    Resumes s v.number 1 c (c.including v) flags := by
  have hlookup : (c.including v).lookup s flags = _ := lookup_including hv
  refine .of_outcome (congrArg Prod.fst hlookup) ?_
  rw [hlookup]
  exact shifted_including

section Follow

variable [RecordHost σ ρ]

/-- The cache after some operations, where the world may have changed in any way before each. -/
def follow (s : Setup σ ρ) (c : Cache σ δ) (later : List (World σ δ × Operation σ)) : Cache σ δ :=
  later.foldl (fun c (w, op) => op.perform s { c with world := w }) c

theorem size_le_perform (op : Operation σ) :
    c.executors.size ≤ (op.perform s c).executors.size := by
  cases op with
  | lookup flags => exact (lookup_spec c s flags).size_le
  | handle record =>
      have hspec := lookup_spec c s (RecordHost.flags c.world.host record)
      simp only [Operation.perform, handle]
      split <;> rename_i heq <;> rw [heq] at hspec
      · exact hspec.size_le
      · simpa using hspec.size_le
  | reload => simp [Operation.perform, reload_snd]
  | drop => simp [Operation.perform, drop]
  | pin t | elsewhere host => exact Nat.le_refl _
  | unpin t | prepare t | query t record | bindValues t record => simp [Operation.perform]

theorem follow_world (later : List (World σ δ × Operation σ)) (w w' : World σ δ) :
    ({ follow s { c with world := w } later with world := w' } : Cache σ δ) =
      { follow s c later with world := w' } := by
  cases later <;> rfl

theorem follow_including {v : Stray σ} (hv : v.number ≤ c.executors.size)
    (later : List (World σ δ × Operation σ)) : ∃ v' : Stray σ, v'.number = v.number ∧
      v.number ≤ (follow s c later).executors.size ∧
      follow s (c.including v) (later.map (Prod.map id (Operation.delay v.number 1))) =
        (follow s c later).including v' := by
  induction later generalizing c v with
  | nil => exact ⟨v, rfl, hv, rfl⟩
  | cons x later ih =>
      obtain ⟨w, op⟩ := x
      have hsize : v.number ≤ (op.perform s { c with world := w }).executors.size :=
        Nat.le_trans hv (size_le_perform (c := { c with world := w }) op)
      rcases perform_including (s := s) (c := { c with world := w }) hv op with h | h
      · obtain ⟨v', hnumber, hsize', heq⟩ := ih hsize
        exact ⟨v', hnumber, hsize', (congrArg (follow s · _) h).trans heq⟩
      · obtain ⟨v', hnumber, hsize', heq⟩ := ih (v := v.settled) hsize
        exact ⟨v', hnumber, hsize', (congrArg (follow s · _) h).trans heq⟩

theorem resumes_follow {v : Stray σ} (hv : v.number ≤ c.executors.size)
    (later : List (World σ δ × Operation σ)) (w w' : World σ δ) :
    Resumes s v.number 1 { follow s c later with world := w' }
      { follow s (Cache.including { c with world := w } v)
          (later.map (Prod.map id (Operation.delay v.number 1))) with world := w' } flags := by
  obtain ⟨v', hnumber, hle, hfollow⟩ :=
    follow_including (s := s) (c := { c with world := w }) hv later
  -- Whatever operation comes first has a world of its own.
  rw [hfollow, ← follow_world later w w', ← hnumber]
  exact resumes_including (by rw [hnumber]; exact hle)

/-! ## Failed lookups -/

/-- A lookup that fails leaves the cache as it was when the notices had been worked off, but for an
executor made in vain and its notice. Whatever is done later, in whatever world, a lookup goes as it
would have gone, and succeeds if nothing stands in its way: only the executors made since have
numbers one higher, and one notice more has been worked off. -/
theorem Run.failed_lookup {past : List (Cache σ δ)} (hs : s.settings.defect? = none)
    (h : Run s w (c :: past)) (hdropped : c.dropped = false)
    (hfail : (c.lookup s flags).1 = .error e) :
    Untouched flags c.drain (c.lookup s flags).2 ∧
    ∃ k ≤ 1, (c.lookup s flags).2.notices.length = k ∧
      ∀ (s' : Setup σ ρ) (later : List (World σ δ × Operation σ)) (w' : World σ δ)
        (flags' : Flags), Resumes s' c.executors.size k
          { follow s' c.drain later with world := w' }
          { follow s' (c.lookup s flags).2
              (later.map (Prod.map id (Operation.delay c.executors.size k))) with world := w' }
          flags' := by
  have hv := Settings.valid_of_defect? hs
  have hdrain := (h.orderly hv hdropped).drain
  have hnotices : c.drain.notices = [] := drain_frame.2.2.1
  have hsize : c.drain.executors.size = c.executors.size := drain_frame.2.2.2.2.1
  have hx := lookup_spec c s flags
  generalize c.lookup s flags = x at hx hfail ⊢
  cases hx with
  | hit _ => cases hfail
  | made _ _ => cases hfail
  | failed _ hsyn =>
      refine ⟨hsyn.untouched hdrain hnotices, ?_⟩
      rcases hsyn.failed hdrain with rfl | ⟨plan, w₁, hplan, -, rfl⟩
      · refine ⟨0, Nat.zero_le 1, by rw [hnotices]; rfl, fun s' later w' flags' => ?_⟩
        simpa using resumes_refl
      · refine ⟨1, Nat.le_refl 1, by rw [hnotices]; rfl, fun s' later w' flags' => ?_⟩
        rw [hdrain.stray hnotices plan hplan, ← hsize]
        exact resumes_follow (v := ⟨plan, c.drain.executors.size, true⟩) (Nat.le_refl _) later w₁ w'

end Follow

/-- A query whose statements are prepared as soon as its executors are made. -/
def eagerQuery : Setup Scripted.Host (List Value) :=
  { plainQuery with
    settings := { initialCapacity := 1, maxCapacity := 4, retained := 1, prepareEagerly := true } }

/-- A world in which no statement can be prepared. -/
def barredWorld : World Scripted.Host Scripted.Connection where
  host := {}
  driver := { failures := { prepare := true } }

/-- The second of two lookups that fail leaves an executor made in vain. When statements can be
prepared again, what is made after another lookup has the number 3 and not 2. -/
theorem failed_lookup_of_barred : ∃ c past e, Run eagerQuery barredWorld (c :: past) ∧
    (c.lookup eagerQuery 0).1 = .error e ∧ Untouched 0 c.drain (c.lookup eagerQuery 0).2 ∧
    (c.lookup eagerQuery 0).2.notices = [⟨0, 1⟩] ∧
    ({ follow eagerQuery c.drain [(stubbornWorld, .lookup 3)] with
        world := stubbornWorld }.lookup eagerQuery 0).1 = .ok ⟨0, 2⟩ ∧
    ({ follow eagerQuery (c.lookup eagerQuery 0).2 [(stubbornWorld, .lookup 3)] with
        world := stubbornWorld }.lookup eagerQuery 0).1 = .ok ⟨0, 3⟩ := by
  have h := Run.start (s := eagerQuery) (w := barredWorld) |>.perform (.lookup 0) rfl
  obtain ⟨huntouched, k, -, hk, hresumes⟩ := h.failed_lookup (by decide) rfl
    (show (Cache.lookup _ eagerQuery 0).1 = .error _ from rfl)
  obtain rfl : k = 1 := hk.symm
  have hsame := hresumes eagerQuery [(stubbornWorld, .lookup 3)] stubbornWorld 0
  obtain ⟨t, ht, ht'⟩ := hsame.succeeds ⟨_, rfl, fun _ => ⟨_, _, _, rfl, rfl⟩⟩
  obtain rfl : t = ⟨0, 2⟩ := by
    cases ht
    rfl
  exact ⟨_, _, _, h, rfl, huntouched, rfl, ht, ht'⟩

end Cache

end FlagSelect
