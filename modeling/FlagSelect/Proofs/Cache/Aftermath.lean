import FlagSelect.Proofs.Cache.Eviction
import FlagSelect.Proofs.Cache.Outstanding
import FlagSelect.Proofs.Cache.Transparency
import FlagSelect.Proofs.Storage.Audit

/-!
# What becomes of the evicted

An executor that has lost its slot never has one again. As long as a caller holds it, it runs and is
on the evicted list, where reloads and the end of the cache find it; after that it has a notice.
Main statement: `Run.eviction`.
-/

namespace FlagSelect.Cache

variable {σ δ ρ : Type} [Driver δ] {C : Contract δ} {refusal : String → DriverFault}
  {c d : Cache σ δ} {s : Setup σ ρ} {w : World σ δ} {t r : Ticket} {k : Nat} {flags : Flags}

/-! ## Who closes a statement -/

theorem Orderly.closed_reload (h : Orderly s c []) (hcustody : Custody c []) :
    ¬ c.reload.2.HasOpen k := by
  have hcloses := closes_reload (c := c)
  rw [drain_known h] at hcloses
  exact fun hk => (hcloses.hasOpen.mp hk).1
    (h.reached_of_hasOpen hcustody (hcloses.hasOpen.mp hk).2)

theorem Orderly.closed_drop (h : Orderly s c []) (hcustody : Custody c []) :
    ¬ c.drop.HasOpen k := by
  have hunretained : Custody c.unretained [] :=
    (hcustody.retained h.dropped fun k hk => .inr (by simpa using hk)).settleAll
  have hcloses : Closes c.unretained (c.unretained.notices ++ c.unretained.drain.known) c.drop :=
    (closes_drain.trans (.closeAll _ _)).congr rfl rfl
  rw [drain_known h.unretained] at hcloses
  exact fun hk => (hcloses.hasOpen.mp hk).1
    (h.unretained.reached_of_hasOpen hunretained (hcloses.hasOpen.mp hk).2)

variable [RecordHost σ ρ] {past later : List (Cache σ δ)} {op : Operation σ}

/-- An executor that nobody keeps has no open statement after its notice has been worked off. -/
theorem Orderly.closed_of_worksOff (h : Orderly s c []) (hcustody : Custody c [])
    (hop : op.Allowed c) (hworks : op.worksOff c = c.notices) (hdead : ¬ c.Kept k)
    (hk : k < c.executors.size) : ¬ (op.perform s c).HasOpen k := by
  intro hopen
  -- An open statement would be that of an executor that is alive or has a notice.
  have hout : (op.perform s c).Outstanding k := by
    rcases (hcustody.perform op hop).kept k hopen with hk | hk | hk | hk
    · exact .inl (.inl hk)
    · exact .inl (.inr hk)
    · exact .inr hk
    · exact absurd hk names_nil
  rw [h.outstanding_perform hop, hworks] at hout
  rcases hout with ⟨hk | hk, hnot⟩ | hnew
  · exact hdead hk
  · exact hnot hk
  · exact Nat.not_lt.mpr hnew.1 hk

/-- An executor that a caller holds queries as a new one. -/
theorem Run.query_new (hrefuses : C.Refuses refusal) (h : Run s w (c :: past)) (ht : c.Holds t) :
    ∃ plan, s.template.plan t.flags = .ok plan ∧ ∀ record,
      (c.query s t record).1 =
          (({ plan } : Executor σ δ).query s.side s.project record c.world).outcome ∧
        C.Same (c.query s t record).2.world
          (({ plan } : Executor σ δ).query s.side s.project record c.world).world := by
  obtain ⟨plan, hplan, hat⟩ := h.planned.made ht.made
  obtain ⟨e, he, heq⟩ := Option.map_eq_some_iff.mp hat
  refine ⟨plan, hplan, fun record => ?_⟩
  have hfit := (h.owned hrefuses).fit _ e he
  have hnew : ({ plan } : Executor σ δ).Fit C c.world.driver := .of_none rfl
  obtain ⟨houtcome, hsame, -⟩ :=
    hfit.query_agree s.side s.project record hrefuses hnew heq.symm (.refl c.world)
  unfold Cache.query
  rw [he]
  exact ⟨houtcome, hsame⟩

/-! ## Later on -/

/-- What holds of one state of a run and is kept by every operation holds of all later states. -/
theorem Run.since {P : Cache σ δ → Prop} (h : Run s w (d :: later))
    (hsuffix : c :: past <:+ d :: later) (hc : P c)
    (hkeep : ∀ (c : Cache σ δ) (past : List (Cache σ δ)) (op : Operation σ),
      Run s w (c :: past) → op.Allowed c → P c → P (op.perform s c)) : P d := by
  generalize hl : d :: later = l at h hsuffix
  induction h generalizing d later with
  | start =>
      cases hl
      rcases List.suffix_cons_iff.mp hsuffix with heq | hsuffix
      · cases heq
        exact hc
      · cases List.suffix_nil.mp hsuffix
  | perform op hrun hop ih =>
      cases hl
      rcases List.suffix_cons_iff.mp hsuffix with heq | hsuffix
      · cases heq
        exact hc
      · exact hkeep _ _ op hrun hop (ih rfl hsuffix)

/-- Whether an executor has been made and has no slot. -/
structure Displaced (r : Ticket) (c : Cache σ δ) : Prop where
  made : c.Made r
  away : c.dropped = false → ¬ c.InTable r

theorem Run.displaced_perform (hv : s.settings.Valid) (h : Run s w (c :: past))
    (hop : op.Allowed c) (hr : Displaced r c) : Displaced r (op.perform s c) where
  made := (op.moves hop h.tracked).made hr.made
  away hdropped hin := by
    have hbefore := op.dropped_of_perform hop hdropped
    have hturn : Turn s ⟨c, op⟩ := (h.orderly hv hbefore).turn hv hop hdropped
    -- Whoever comes into the table has been made just now.
    rcases hturn.enters r hin with hmakes | hin
    · exact Nat.ne_of_lt hr.made.lt (hturn.made r hmakes).1
    · exact hr.away hbefore hin

/-- What is left of an executor without a slot, whose statement may have been prepared again. -/
structure Aftermath (s : Setup σ ρ) (r : Ticket) (c : Cache σ δ) : Prop where
  away : c.dropped = false → ¬ c.InTable r
  retained : r ∉ c.retained
  evicted : c.dropped = false → r.number ∈ c.held → r ∈ c.evicted
  query : ∀ (C : Contract δ) (refusal : String → DriverFault), C.Refuses refusal → c.Holds r →
    ∃ plan, s.template.plan r.flags = .ok plan ∧ ∀ record,
      (c.query s r record).1 =
          (({ plan } : Executor σ δ).query s.side s.project record c.world).outcome ∧
        C.Same (c.query s r record).2.world
          (({ plan } : Executor σ δ).query s.side s.project record c.world).world
  reload : c.dropped = false → ¬ c.reload.2.HasOpen r.number
  drop : c.dropped = false → ¬ c.drop.HasOpen r.number
  /-- When the last owner has let go of it, its notice is worked off at the next opportunity. -/
  noticed : c.dropped = false → r.number ∉ c.held → c.HasOpen r.number → r ∈ c.notices
  lookup : c.dropped = false → r.number ∉ c.held → ∀ flags, ¬ (c.lookup s flags).2.HasOpen r.number
  handle : c.dropped = false → r.number ∉ c.held →
    ∀ record, ¬ (c.handle s record).2.HasOpen r.number
  /-- If there is no cache left, the last owner closes the statement itself. -/
  gone : c.dropped = true → r.number ∉ c.held → ¬ c.HasOpen r.number

theorem Run.aftermath (hv : s.settings.Valid) (h : Run s w (c :: past)) (hr : Displaced r c) :
    Aftermath s r c := by
  have hcustody := h.custody
  have horderly (hdropped : c.dropped = false) : Orderly s c [] := h.orderly hv hdropped
  have hretained : r ∉ c.retained := by
    cases hdropped : c.dropped with
    | false => exact fun hmem => hr.away hdropped ((horderly hdropped).retained r hmem)
    | true => rw [(hcustody.gone hdropped).1]; exact List.not_mem_nil
  have hdead (hdropped : c.dropped = false) (hheld : r.number ∉ c.held) : ¬ c.Kept r.number := by
    rintro (hk | ⟨u, hu, heq⟩)
    · exact hheld hk
    · have hu' := (horderly hdropped).made u (.inl (.inl ((horderly hdropped).retained u hu)))
      exact hretained (hu'.eq hr.made heq ▸ hu)
  constructor
  case away => exact hr.away
  case retained => exact hretained
  case evicted =>
    intro hdropped hheld
    have hc := horderly hdropped
    obtain ⟨u, hu, heq⟩ := (hc.placed r.number (.inl hheld)).resolve_right names_nil
    obtain rfl := (hc.made u (.inl hu)).eq hr.made heq
    exact hu.resolve_left (hr.away hdropped)
  case query => exact fun C refusal hrefuses ht => h.query_new hrefuses ht
  case reload => exact fun hdropped => (horderly hdropped).closed_reload hcustody
  case drop => exact fun hdropped => (horderly hdropped).closed_drop hcustody
  case noticed =>
    intro hdropped hheld hopen
    rcases hcustody.kept r.number hopen with hk | hk | ⟨u, hu, heq⟩ | hk
    · exact absurd hk hheld
    · exact absurd (.inr hk) (hdead hdropped hheld)
    · exact ((horderly hdropped).made u (.inr (.inl hu))).eq hr.made heq ▸ hu
    · exact absurd hk names_nil
  case lookup =>
    exact fun hdropped hheld flags => show ¬ (Operation.perform s c (.lookup flags)).HasOpen _ from
      (horderly hdropped).closed_of_worksOff hcustody hdropped rfl (hdead hdropped hheld) hr.made.lt
  case handle =>
    exact fun hdropped hheld record =>
      show ¬ (Operation.perform s c (.handle record)).HasOpen _ from
        (horderly hdropped).closed_of_worksOff hcustody hdropped rfl (hdead hdropped hheld)
          hr.made.lt
  case gone =>
    intro hdropped hheld hopen
    obtain ⟨hnone, hqueue⟩ := hcustody.gone hdropped
    rcases hcustody.kept r.number hopen with hk | hk | hk | hk
    · exact hheld hk
    · exact names_nil (hnone ▸ hk)
    · exact names_nil (hqueue ▸ hk)
    · exact names_nil hk

/-! ## Evictions -/

theorem sought_frame (hsought : op.sought c = some flags) :
    (op.perform s c).slots = (c.lookup s flags).2.slots ∧
      (op.perform s c).counters = (c.lookup s flags).2.counters := by
  cases op with
  | lookup _ => cases hsought; exact ⟨rfl, rfl⟩
  | handle record =>
      cases hsought
      simp only [Operation.perform, handle]
      split <;> rename_i heq <;> rw [heq]
      · exact ⟨rfl, rfl⟩
      · simp
  | reload | drop | pin _ | unpin _ | prepare _ | query _ _ | bindValues _ _ | elsewhere _ =>
      cases hsought

/-- A lookup that evicts someone takes one slot, at full size, from one live executor for other
flags. That executor is closed and no longer retained, and nothing else changes on its account. It
has no slot ever after, but runs for as long as a caller holds it, and no statement that it prepares
again outlasts a reload, the end of the cache or its last owner. -/
theorem Run.eviction (hs : s.settings.defect? = none) (h : Run s w (c :: past))
    (hop : op.Allowed c) (hsought : op.sought c = some flags)
    (hcount : c.counters.evictions < (op.perform s c).counters.evictions) :
    (op.perform s c).counters.evictions = c.counters.evictions + 1 ∧
    ∃ t r c₁ c₂, c.drain.synthesize s flags = (.ok t, c₁) ∧
      c₁.place s.settings.maxCapacity t s.settings.maxCapacity.log2 = c₂ ∧
      c.lookup s flags = (.ok t, c₂.retain s.settings.retained t) ∧ t.flags = flags ∧
      c.InTable r ∧ c.alive r = true ∧ Evicts s t r c₁ c₂ ∧
      ∀ (d : Cache σ δ) (later : List (Cache σ δ)), Run s w (d :: later) →
        op.perform s c :: c :: past <:+ d :: later → Aftermath s r d := by
  have hv := Settings.valid_of_defect? hs
  have hdropped : c.dropped = false := by
    cases op with
    | lookup _ | handle _ => exact hop
    | reload | drop | pin _ | unpin _ | prepare _ | query _ _ | bindValues _ _ | elsewhere _ =>
        cases hsought
  have hc := h.orderly hv hdropped
  obtain ⟨hslots, hcounters⟩ := sought_frame (s := s) hsought
  rw [hcounters] at hcount ⊢
  obtain ⟨t, c₁, hmiss, hmade, hlookup⟩ := exists_place hcount
  have hsyn : Synthesis s c.drain flags (.ok t, c₁) := hmade ▸ synthesis c.drain s flags
  have hflags : t.flags = flags := by rw [hsyn.effect_ok.1]; rfl
  have hevictions : c₁.counters.evictions = c.counters.evictions := by
    rw [hsyn.effect_ok.2.2.2, drain_counters]
  rw [hlookup] at hslots hcount ⊢
  obtain ⟨r, hr, hlive, hevicts⟩ := hc.evicts hv hmiss hsyn (by simpa using hcount)
  have hfirst : Displaced r (op.perform s c) := by
    refine ⟨(op.moves hop h.tracked).made (hc.made r (.inl (.inl hr))), fun _ hin => ?_⟩
    have hin := (inTable_congr (hslots.trans retain_frame.2.1)).mp hin
    rcases (hevicts.table r).mp hin with rfl | ⟨-, hne⟩
    · exact hevicts.clash.1 rfl
    · exact hne rfl
  refine ⟨?_, t, r, c₁, _, hmade, rfl, rfl, hflags, hr, alive_iff_kept.mpr hlive, hevicts, ?_⟩
  · simpa [hevictions] using hevicts.evictions
  · exact fun d later hlater hsuffix => hlater.aftermath hv
      (hlater.since hsuffix hfirst fun _ _ _ hrun hop hr => hrun.displaced_perform hv hop hr)

/-- The records of `sizedQuery`, over a database that writes down what it executes. -/
def auditedWorld : World Scripted.Host (Storage.Audit threeRows) where
  host := sizedWorld.host
  driver := ⟨{}, []⟩

/-- An executor with an open statement is evicted while a caller holds it. Its next query prepares
the statement again, and comes to what a new executor would come to. -/
theorem eviction_of_held : ∃ (c d c₁ c₂ : Cache Scripted.Host (Storage.Audit threeRows))
    (past later : List (Cache _ _)) (plan : Plan Scripted.Host),
    Run sizedQuery auditedWorld (c :: past) ∧ Run sizedQuery auditedWorld (d :: later) ∧
    (c.openOf [⟨0, 0⟩]).length = 1 ∧ c.counters.evictions = 0 ∧ d.counters.evictions = 1 ∧
    Evicts sizedQuery ⟨2, 2⟩ ⟨0, 0⟩ c₁ c₂ ∧ d.evicted = [⟨0, 0⟩] ∧
    (d.openOf [⟨0, 0⟩]).length = 1 ∧ Aftermath sizedQuery ⟨0, 0⟩ d ∧
    sizedQuery.template.plan 0 = .ok plan ∧ (d.query sizedQuery ⟨0, 0⟩ ⟨0, 2⟩).1 =
      (({ plan } : Executor Scripted.Host (Storage.Audit threeRows)).query none
        sizedQuery.project ⟨0, 2⟩ d.world).outcome := by
  have h := Run.start (s := sizedQuery) (w := auditedWorld)
    |>.perform (.lookup 0) (show Cache.dropped _ = false by decide +kernel)
    |>.perform (.query ⟨0, 0⟩ ⟨0, 2⟩) (.of_planAt (by decide +kernel) (by decide +kernel))
    |>.perform (.lookup 1) (show Cache.dropped _ = false by decide +kernel)
  have hlookup := h.perform (.lookup 2) (show Cache.dropped _ = false by decide +kernel)
  have h' := hlookup.perform (.query ⟨0, 0⟩ ⟨0, 2⟩)
    (.of_planAt (by decide +kernel) (by decide +kernel))
  obtain ⟨-, t, r, c₁, c₂, -, -, hgiven, -, hr, -, hevicts, hafter⟩ := h.eviction (by decide)
    (show Operation.Allowed _ (.lookup 2) from show Cache.dropped _ = false by decide +kernel) rfl
    (by decide +kernel)
  have hgiven := congrArg (·.1.toOption) hgiven
  obtain rfl : ⟨2, 2⟩ = t := Option.some.inj (Eq.trans (by decide +kernel) hgiven)
  have htable (l : List (Option Ticket)) (hl : l = [some ⟨0, 0⟩, some ⟨1, 1⟩])
      (hin : some r ∈ l) : r = ⟨0, 0⟩ ∨ r = ⟨1, 1⟩ := by simpa [hl] using hin
  obtain rfl : r = ⟨0, 0⟩ := by
    refine (htable _ (by decide +kernel) (mem_slots_iff.mpr hr)).resolve_right ?_
    rintro rfl
    exact absurd hevicts.clash (by decide)
  have haftermath := hafter _ _ h' (List.suffix_cons _ _)
  obtain ⟨plan, hplan, hquery⟩ := haftermath.query _ _ Storage.Audit.refuses
    (.of_planAt (by decide +kernel) (by decide +kernel))
  refine ⟨_, _, c₁, c₂, _, _, plan, h, h', ?_, ?_, ?_, hevicts, ?_, ?_, haftermath, hplan,
    (hquery ⟨0, 2⟩).1⟩
  all_goals decide +kernel

end FlagSelect.Cache
