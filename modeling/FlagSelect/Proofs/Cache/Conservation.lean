import FlagSelect.Proofs.Cache.Outstanding

/-!
# What the counters add up to

Lookups are hits, makings of executors or failures, and the executors made are the living, those
with a notice in the queue and the reclaimed. `Deed.Entry` says what one deed adds to the counters,
and `Tally` what becomes of the executors in the end. Main statement: `Chronicle.conservation`.
-/

namespace FlagSelect.Cache

variable {σ δ ρ : Type} [Driver δ] {c c' : Cache σ δ} {s : Setup σ ρ} {t : Ticket}
  {ts us : List Ticket} {k : Nat} {flags : Flags}

/-! ## Counting -/

theorem Synthesis.size_error {e : Error} (h : Synthesis s c flags (.error e, c')) :
    c'.executors.size = c.executors.size +
      if s.settings.prepareEagerly && (s.template.plan flags).isOk then 1 else 0 := by
  cases h with
  | noPlan hplan => simp [hplan, Except.isOk, Except.toBool]
  | unprepared hplan heager _ => simp [hplan, heager, Except.isOk, Except.toBool]

theorem Synthesis.size_ok (h : Synthesis s c flags (.ok t, c')) :
    c'.executors.size = c.executors.size + 1 := by
  cases h <;> simp

/-- What a lookup adds to the counters, if `failed` says whether it fails and `vain` whether it
makes an executor all the same. -/
structure Counts (failed vain : Bool) (c c' : Cache σ δ) : Prop where
  asked : c'.counters.hits + c'.counters.syntheses + (if failed then 1 else 0) =
    c.counters.hits + c.counters.syntheses + 1
  made : c'.counters.syntheses + c.executors.size + (if vain then 1 else 0) =
    c.counters.syntheses + c'.executors.size
  reclaimed : c'.counters.reclaimed = c.counters.reclaimed + c.notices.length

theorem Lookup.counts {r : Except Error Ticket × Cache σ δ} (h : Lookup s c flags r) :
    Counts (!r.1.isOk) (!r.1.isOk && s.settings.prepareEagerly && (s.template.plan flags).isOk)
      c r.2 := by
  have hsize : c.drain.executors.size = c.executors.size := by simp
  cases h with
  | hit _ =>
      constructor <;>
        simp [Except.isOk, Except.toBool, hold, countHit, drain_counters]
      omega
  | failed _ hsyn =>
      have hcounters := hsyn.effect_error.2.1
      have hmade := hsyn.size_error
      constructor <;>
        simp [Except.isOk, Except.toBool, hcounters, hmade, drain_counters]
      omega
  | @made t c' _ hsyn =>
      have hcounters := hsyn.effect_ok.2.2.2
      have hmade := hsyn.size_ok
      obtain ⟨_, _, hplace⟩ := place_counters (c := c') (t := t)
        (m := s.settings.maxCapacity) (n := s.settings.maxCapacity.log2)
      constructor <;>
        simp [Except.isOk, Except.toBool, hplace, hcounters, hmade, drain_counters]
      all_goals omega

variable [RecordHost σ ρ] {w : World σ δ} {past : List (Deed σ δ)}

theorem handle_counts (record : Object) :
    (c.handle s record).2.counters =
      (c.lookup s (RecordHost.flags c.world.host record)).2.counters ∧
    (c.handle s record).2.executors.size =
      (c.lookup s (RecordHost.flags c.world.host record)).2.executors.size := by
  unfold handle
  split <;> rename_i heq <;> rw [heq]
  · exact ⟨rfl, rfl⟩
  · simp

namespace Deed

def failed (s : Setup σ ρ) (x : Deed σ δ) : Bool :=
  x.sought.any fun flags => !(x.before.lookup s flags).1.isOk

/-- Whether a lookup fails though there is a plan, for want of the statement that should be there at
once. -/
def vain (s : Setup σ ρ) (x : Deed σ δ) : Bool :=
  x.failed s && s.settings.prepareEagerly &&
    x.sought.any fun flags => (s.template.plan flags).isOk

/-- An executor is made in vain if it cannot be prepared. -/
theorem vain_iff {x : Deed σ δ} : x.vain s = true ↔ ∃ flags plan e, x.sought = some flags ∧
    (∀ t, ¬ x.before.drain.Hit flags t) ∧ s.settings.prepareEagerly = true ∧
    s.template.plan flags = .ok plan ∧ ((x.before.drain.enlist flags plan).prepare
      (x.before.drain.nextTicket flags)).1 = .error e := by
  cases hsought : x.sought with
  | none => simp [vain, hsought]
  | some flags =>
      have hspec := lookup_spec x.before s flags
      rw [vain, failed, hsought, Option.any_some, Option.any_some]
      generalize x.before.lookup s flags = r at hspec
      constructor
      · intro hvain
        cases hspec with
        | hit _ | made _ _ => simp [Except.isOk, Except.toBool] at hvain
        | failed hmiss hsyn =>
            cases hsyn with
            | noPlan hplan => simp [hplan, Except.isOk, Except.toBool] at hvain
            | unprepared hplan heager hfail =>
                exact ⟨flags, _, _, rfl, hmiss, heager, hplan, hfail⟩
      · rintro ⟨_, plan, e, ⟨⟩, hmiss, heager, hplan, hfail⟩
        cases hspec with
        | hit hhit => exact absurd hhit (hmiss _)
        | failed _ _ => simp [heager, hplan, Except.isOk, Except.toBool]
        | made _ hsyn =>
            cases hsyn with
            | prepared hplan' _ hok =>
                cases hplan.symm.trans hplan'
                cases hok.symm.trans hfail
            | postponed _ hlazy => cases heager.symm.trans hlazy

/-- What a deed adds to the counters. -/
structure Entry (s : Setup σ ρ) (x : Deed σ δ) : Prop where
  asked : (x.after s).counters.hits + (x.after s).counters.syntheses +
      (if x.failed s then 1 else 0) =
    x.before.counters.hits + x.before.counters.syntheses + (if x.sought.isSome then 1 else 0)
  made : (x.after s).counters.syntheses + x.before.executors.size + (if x.vain s then 1 else 0) =
    x.before.counters.syntheses + (x.after s).executors.size
  reclaimed : (x.after s).counters.reclaimed =
    x.before.counters.reclaimed + (x.op.worksOff x.before).length

theorem entry_of_lookup {x : Deed σ δ} {flags : Flags} (hsought : x.sought = some flags)
    (hcounters : (x.after s).counters = (x.before.lookup s flags).2.counters)
    (hsize : (x.after s).executors.size = (x.before.lookup s flags).2.executors.size)
    (hworks : x.op.worksOff x.before = x.before.notices) : Entry s x := by
  have hfailed : x.failed s = !(x.before.lookup s flags).1.isOk := by
    rw [failed, hsought, Option.any_some]
  have hvain : x.vain s =
      (x.failed s && s.settings.prepareEagerly && (s.template.plan flags).isOk) := by
    rw [vain, hsought, Option.any_some]
  have hcounts := (lookup_spec x.before s flags).counts
  rw [← hfailed, ← hvain] at hcounts
  constructor
  case asked => rw [hcounters, hcounts.asked, hsought]; rfl
  case made => rw [hcounters, hsize, hcounts.made]
  case reclaimed => rw [hcounters, hworks, hcounts.reclaimed]

theorem entry_of_idle {x : Deed σ δ} (hsought : x.sought = none)
    (hcounters : (x.after s).counters = { x.before.counters with
      reclaimed := x.before.counters.reclaimed + (x.op.worksOff x.before).length })
    (hsize : (x.after s).executors.size = x.before.executors.size) : Entry s x := by
  have hfailed : x.failed s = false := by rw [failed, hsought, Option.any_none]
  have hvain : x.vain s = false := by rw [vain, hfailed, Bool.false_and, Bool.false_and]
  constructor <;> simp [hcounters, hsize, hfailed, hvain, hsought]

theorem entry (s : Setup σ ρ) (x : Deed σ δ) : Entry s x := by
  obtain ⟨c, op⟩ := x
  cases op with
  | lookup flags => exact entry_of_lookup rfl rfl rfl rfl
  | handle record =>
      exact entry_of_lookup rfl (handle_counts record).1 (handle_counts record).2 rfl
  | reload =>
      exact entry_of_idle rfl (by simp [after, Operation.perform, reload_snd, drain_counters,
        Operation.worksOff]) (by simp [after, Operation.perform])
  | drop =>
      exact entry_of_idle rfl (by simp [after, Operation.perform, Cache.drop, drain_counters,
        Operation.worksOff, unretained]) (by simp [after, Operation.perform])
  | pin t | elsewhere host => exact entry_of_idle rfl rfl rfl
  | unpin t | prepare t | query t record | bindValues t record =>
      exact entry_of_idle rfl (by simp [after, Operation.perform, Operation.worksOff])
        (by simp [after, Operation.perform])

end Deed

/-! ## Executors come and go -/

/-- The notices that have been worked off, in their order. -/
def workedOff : List (Deed σ δ) → List Ticket
  | [] => []
  | x :: past => workedOff past ++ x.op.worksOff x.before

/-- Every executor ever made is outstanding, or its notice has been worked off, and that once. -/
structure Tally (past : List (Deed σ δ)) (c : Cache σ δ) : Prop where
  each : ∀ k, k < c.executors.size ↔ c.Outstanding k ∨ Names (workedOff past) k
  apart : ∀ k, c.Outstanding k → ¬ Names (workedOff past) k
  once : ((workedOff past).map Ticket.number).Nodup

theorem mem_numbers : k ∈ ts.map Ticket.number ↔ Names ts k := List.mem_map

theorem nodup_numbers_append : ((ts ++ us).map Ticket.number).Nodup ↔
    (ts.map Ticket.number).Nodup ∧ (us.map Ticket.number).Nodup ∧
      ∀ k, Names us k → ¬ Names ts k := by
  rw [List.map_append, List.nodup_append']
  refine and_congr_right fun _ => and_congr_right fun _ => ?_
  rw [List.disjoint_comm, List.disjoint_left]
  simp only [mem_numbers]

theorem Tally.perform {x : Deed σ δ} (h : Tally past x.before) (hc : Orderly s x.before [])
    (hop : x.op.Allowed x.before) : Tally (x :: past) (x.after s) := by
  have hout (k : Nat) : (x.after s).Outstanding k ↔
      (x.before.Outstanding k ∧ ¬ Names (x.op.worksOff x.before) k) ∨ New x.before (x.after s) k :=
    hc.outstanding_perform hop
  have hworks (k : Nat) (hk : Names (x.op.worksOff x.before) k) : x.before.Outstanding k :=
    hc.outstanding_of_worksOff hk
  have hsize : x.before.executors.size ≤ (x.after s).executors.size := size_le_perform x.op
  have hold (k : Nat) (hk : Names (workedOff (x :: past)) k) : k < x.before.executors.size := by
    rw [h.each]
    exact (names_append.mp hk).elim .inr fun hk => .inl (hworks k hk)
  constructor
  case each =>
    intro k
    rw [hout, workedOff, names_append]
    constructor
    · intro hk
      rcases Nat.lt_or_ge k x.before.executors.size with hlt | hge
      · rcases (h.each k).mp hlt with hk | hgone
        · by_cases hworked : Names (x.op.worksOff x.before) k
          · exact .inr (.inr hworked)
          · exact .inl (.inl ⟨hk, hworked⟩)
        · exact .inr (.inl hgone)
      · exact .inl (.inr ⟨hge, hk⟩)
    · rintro ((⟨hk, -⟩ | hnew) | hgone)
      · exact Nat.lt_of_lt_of_le ((h.each k).mpr (.inl hk)) hsize
      · exact hnew.2
      · exact Nat.lt_of_lt_of_le (hold k (names_append.mpr hgone)) hsize
  case apart =>
    intro k hk hgone
    rcases (hout k).mp hk with ⟨hk, hstays⟩ | hnew
    · exact (names_append.mp hgone).elim (h.apart k hk) hstays
    · exact Nat.not_lt.mpr hnew.1 (hold k hgone)
  case once =>
    rw [workedOff, nodup_numbers_append]
    exact ⟨h.once, hc.once_worksOff x.op, fun k hk => h.apart k (hworks k hk)⟩

theorem Chronicle.tally (hv : s.settings.Valid) (h : Chronicle s w past c)
    (hdropped : c.dropped = false) : Tally past c := by
  refine h.induct (P := Tally) hv ⟨fun k => ?_, fun k _ => names_nil, .nil⟩ ?_ hdropped
  · simp [Outstanding, Kept, Cache.start, empty, workedOff]
  · exact fun x past _ hpast hc hop _ => hpast.perform hc hop

/-! ## The counters -/

instance : Decidable (Names ts k) := inferInstanceAs (Decidable (∃ t ∈ ts, t.number = k))

instance : Decidable (c.Kept k) := inferInstanceAs (Decidable (_ ∨ _))

/-- How many executors are alive. -/
def living (c : Cache σ δ) : Nat := (List.range c.executors.size).countP (c.Kept ·)

/-- What the counters say of a cache and what has been done with it. -/
structure Conserves (s : Setup σ ρ) (past : List (Deed σ δ)) (c : Cache σ δ) : Prop where
  balance : c.counters.syntheses + past.countP (Deed.vain s) =
    c.living + c.counters.reclaimed + c.notices.length
  /-- Every executor ever made is alive, has a notice or has been counted as reclaimed. -/
  each : ∀ k, k < c.executors.size ↔
    c.Kept k ∨ Names c.notices k ∨ Names (workedOff past) k
  alive : ∀ k, c.Kept k → ¬ Names (workedOff past ++ c.notices) k
  reclaimed : c.counters.reclaimed = (workedOff past).length
  once : ((workedOff past ++ c.notices).map Ticket.number).Nodup

theorem Chronicle.asked (h : Chronicle s w past c) :
    past.countP (·.sought.isSome) =
      c.counters.hits + c.counters.syntheses + past.countP (Deed.failed s) := by
  induction h with
  | start => rfl
  | @perform c past op hpast hop ih =>
      have hentry := (Deed.entry s ⟨c, op⟩).asked
      rw [List.countP_cons, List.countP_cons, ih]
      simp only [Deed.after] at hentry
      omega

theorem Chronicle.made (h : Chronicle s w past c) :
    c.counters.syntheses + past.countP (Deed.vain s) = c.executors.size := by
  induction h with
  | start => rfl
  | @perform c past op hpast hop ih =>
      have hentry := (Deed.entry s ⟨c, op⟩).made
      rw [List.countP_cons]
      simp only [Deed.after] at hentry
      omega

theorem Chronicle.reclaimed (h : Chronicle s w past c) :
    c.counters.reclaimed = (workedOff past).length := by
  induction h with
  | start => rfl
  | @perform c past op hpast hop ih =>
      rw [workedOff, List.length_append, ← ih]
      exact (Deed.entry s ⟨c, op⟩).reclaimed

theorem Tally.conserves (h : Tally past c) (hpast : Chronicle s w past c)
    (hdead : ∀ t ∈ c.notices, ¬ c.Kept t.number) (honce : (c.notices.map Ticket.number).Nodup) :
    Conserves s past c := by
  have honce : ((workedOff past ++ c.notices).map Ticket.number).Nodup :=
    nodup_numbers_append.mpr ⟨h.once, honce, fun k hk => h.apart k (.inr hk)⟩
  have halive (k : Nat) (hk : c.Kept k) : ¬ Names (workedOff past ++ c.notices) k := by
    rw [names_append, not_or]
    exact ⟨h.apart k (.inl hk), fun ⟨t, ht, htk⟩ => hdead t ht (htk ▸ hk)⟩
  constructor
  case balance =>
    -- Those that are not alive are, in some order, those whose notices are listed.
    have hgone : ((List.range c.executors.size).filter (¬ c.Kept ·)).Perm
        ((workedOff past ++ c.notices).map Ticket.number) := by
      rw [List.perm_ext_iff_of_nodup (List.nodup_range.filter _) honce]
      intro k
      have halive := halive k
      rw [names_append] at halive
      rw [List.mem_filter, List.mem_range, h.each, mem_numbers, names_append, Outstanding,
        decide_eq_true_eq]
      tauto
    have hcount := List.length_eq_countP_add_countP (c.Kept ·) (l := List.range c.executors.size)
    have hlength := hgone.length_eq
    rw [← List.countP_eq_length_filter, List.length_map, List.length_append] at hlength
    rw [List.length_range] at hcount
    simp only [decide_eq_true_eq] at hcount
    rw [hpast.made, hpast.reclaimed, living]
    omega
  case each => exact fun k => by rw [h.each, Outstanding, or_assoc]
  case alive => exact halive
  case reclaimed => exact hpast.reclaimed
  case once => exact honce

theorem Chronicle.conserves_drop (hv : s.settings.Valid) (h : Chronicle s w past c)
    (hdropped : c.dropped = false) : Conserves s (⟨c, .drop⟩ :: past) c.drop := by
  have hc := h.run.orderly hv hdropped
  have htally := (h.tally hv hdropped).perform (x := ⟨c, .drop⟩) hc hdropped
  refine htally.conserves (h.perform .drop hdropped) ?_ ?_ <;> simp [Deed.after, Operation.perform]

/-- Every lookup is counted as a hit or as the making of an executor, or fails. Of the executors
made, in vain or not, each is alive, has a notice in the queue or has been counted as reclaimed, and
that once; so it is to the end of the cache, after which no counters are left. -/
theorem Chronicle.conservation (hs : s.settings.defect? = none) (h : Chronicle s w past c) :
    past.countP (·.sought.isSome) =
      c.counters.hits + c.counters.syntheses + past.countP (Deed.failed s) ∧
    (c.dropped = false →
      Conserves s past c ∧ Conserves s (⟨c, .drop⟩ :: past) c.drop) := by
  have hv := Settings.valid_of_defect? hs
  refine ⟨h.asked, fun hdropped => ⟨?_, h.conserves_drop hv hdropped⟩⟩
  have hc := h.run.orderly hv hdropped
  exact (h.tally hv hdropped).conserves h hc.dead hc.once

/-- Two lookups make an executor each and fail. The first executor has been reclaimed by the second
lookup; the end of the cache reclaims the other. -/
theorem conservation_of_barred : ∃ c past, Chronicle eagerQuery barredWorld past c ∧
    past.countP (·.sought.isSome) = 2 ∧ past.countP (Deed.failed eagerQuery) = 2 ∧
    past.countP (Deed.vain eagerQuery) = 2 ∧ c.counters.syntheses = 0 ∧
    c.counters.reclaimed = 1 ∧ c.notices = [⟨0, 1⟩] ∧ c.drop.counters.reclaimed = 2 ∧
    Conserves eagerQuery past c ∧ Conserves eagerQuery (⟨c, .drop⟩ :: past) c.drop := by
  have h := Chronicle.start (s := eagerQuery) (w := barredWorld)
    |>.perform (.lookup 0) rfl |>.perform (.lookup 0) rfl
  obtain ⟨hlookups, hconserves⟩ := h.conservation (by decide)
  obtain ⟨hnow, hend⟩ := hconserves rfl
  exact ⟨_, _, h, rfl, rfl, rfl, rfl, rfl, rfl, rfl, hnow, hend⟩

end FlagSelect.Cache
