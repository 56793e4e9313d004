import FlagSelect.Proofs.Cache.Frame

/-!
# What a lookup does

`Synthesis` and `Lookup` list the ways in which making an executor and looking one up can end, each
with the state that it leaves.
-/

namespace FlagSelect

variable {σ δ ρ : Type} [Driver δ]

theorem Template.synthesize_of_error {t : Template σ} {flags : Flags} {profile : Profile}
    {e : Error} (h : t.plan flags = .error e) :
    t.synthesize flags profile = (.error e, profile) := by
  simp [synthesize, h]

theorem Template.synthesize_of_ok {t : Template σ} {flags : Flags} {profile : Profile}
    {p : Plan σ} (h : t.plan flags = .ok p) :
    t.synthesize flags profile = (.ok p, profile.count .synthesize) := by
  simp [synthesize, h]

namespace Cache

variable {c : Cache σ δ} {s : Setup σ ρ} {flags : Flags}

/-- The ticket of the executor made next. -/
def nextTicket (c : Cache σ δ) (flags : Flags) : Ticket := ⟨flags, c.executors.size⟩

/-- The cache with a new executor, which a caller holds. -/
def enlist (c : Cache σ δ) (flags : Flags) (plan : Plan σ) : Cache σ δ :=
  { c with
    executors := c.executors.push { plan }
    world := c.world.count .synthesize }.hold (c.nextTicket flags)

/-- One more plan made and put into the table. -/
def countSynthesis (c : Cache σ δ) : Cache σ δ :=
  { c with counters := { c.counters with syntheses := c.counters.syntheses + 1 } }

/-- One more lookup that found a live executor. -/
def countHit (c : Cache σ δ) : Cache σ δ :=
  { c with counters := { c.counters with hits := c.counters.hits + 1 } }

@[simp] theorem enlist_frame {plan : Plan σ} :
    (c.enlist flags plan).held = c.executors.size :: c.held ∧
      (c.enlist flags plan).slots = c.slots ∧ (c.enlist flags plan).evicted = c.evicted ∧
      (c.enlist flags plan).retained = c.retained ∧ (c.enlist flags plan).notices = c.notices ∧
      (c.enlist flags plan).dropped = c.dropped ∧
      (c.enlist flags plan).counters = c.counters ∧
      (c.enlist flags plan).executors = c.executors.push { plan } :=
  ⟨rfl, rfl, rfl, rfl, rfl, rfl, rfl, rfl⟩

@[simp] theorem countSynthesis_frame :
    c.countSynthesis.held = c.held ∧ c.countSynthesis.slots = c.slots ∧
      c.countSynthesis.evicted = c.evicted ∧ c.countSynthesis.retained = c.retained ∧
      c.countSynthesis.notices = c.notices ∧ c.countSynthesis.dropped = c.dropped ∧
      c.countSynthesis.executors = c.executors ∧ c.countSynthesis.world = c.world :=
  ⟨rfl, rfl, rfl, rfl, rfl, rfl, rfl, rfl⟩

@[simp] theorem countHit_frame :
    c.countHit.held = c.held ∧ c.countHit.slots = c.slots ∧ c.countHit.evicted = c.evicted ∧
      c.countHit.retained = c.retained ∧ c.countHit.notices = c.notices ∧
      c.countHit.dropped = c.dropped ∧ c.countHit.executors = c.executors ∧
      c.countHit.world = c.world :=
  ⟨rfl, rfl, rfl, rfl, rfl, rfl, rfl, rfl⟩

/-- How the making of an executor can end: without a plan, without the statement that should have
been prepared at once, or with an executor. -/
inductive Synthesis (s : Setup σ ρ) (c : Cache σ δ) (flags : Flags) :
    Except Error Ticket × Cache σ δ → Prop where
  | noPlan {e : Error} : s.template.plan flags = .error e → Synthesis s c flags (.error e, c)
  | unprepared {plan : Plan σ} {e : Error} : s.template.plan flags = .ok plan →
      s.settings.prepareEagerly = true →
      ((c.enlist flags plan).prepare (c.nextTicket flags)).1 = .error e →
      Synthesis s c flags (.error e,
        ((c.enlist flags plan).prepare (c.nextTicket flags)).2.release (c.nextTicket flags))
  | prepared {plan : Plan σ} : s.template.plan flags = .ok plan →
      s.settings.prepareEagerly = true →
      ((c.enlist flags plan).prepare (c.nextTicket flags)).1 = .ok () →
      Synthesis s c flags (.ok (c.nextTicket flags),
        ((c.enlist flags plan).prepare (c.nextTicket flags)).2.countSynthesis)
  | postponed {plan : Plan σ} : s.template.plan flags = .ok plan →
      s.settings.prepareEagerly = false →
      Synthesis s c flags (.ok (c.nextTicket flags), (c.enlist flags plan).countSynthesis)

theorem synthesis (c : Cache σ δ) (s : Setup σ ρ) (flags : Flags) :
    Synthesis s c flags (c.synthesize s flags) := by
  cases hplan : s.template.plan flags with
  | error e =>
      rw [synthesize, Template.synthesize_of_error hplan]
      exact .noPlan hplan
  | ok plan =>
      rw [synthesize, Template.synthesize_of_ok hplan]
      cases heager : s.settings.prepareEagerly with
      | true =>
          simp only [if_true]
          split <;> rename_i hp
          · exact .unprepared hplan heager hp
          · exact .prepared hplan heager hp
      | false => exact .postponed hplan heager

theorem Synthesis.dropped {r : Except Error Ticket × Cache σ δ} (h : Synthesis s c flags r) :
    r.2.dropped = c.dropped := by
  cases h <;> simp

/-- The caller holds the executor that has been made. -/
theorem Synthesis.held {r : Except Error Ticket × Cache σ δ} (h : Synthesis s c flags r)
    {t : Ticket} (ht : r.1 = .ok t) : t.number ∈ r.2.held := by
  cases h with
  | noPlan _ => cases ht
  | unprepared _ _ _ => cases ht
  | prepared _ _ _ => cases ht; simp [nextTicket]
  | postponed _ _ => cases ht; simp [nextTicket]

/-- Whether the slot for some flags has a live executor for just these flags. -/
def Hit (c : Cache σ δ) (flags : Flags) (t : Ticket) : Prop :=
  c.resident? flags = some t ∧ t.flags = flags ∧ c.alive t = true

/-- How a lookup can end: with the executor that is there, without one, or with a new one. -/
inductive Lookup (s : Setup σ ρ) (c : Cache σ δ) (flags : Flags) :
    Except Error Ticket × Cache σ δ → Prop where
  | hit {t : Ticket} : c.drain.Hit flags t →
      Lookup s c flags (.ok t, (c.drain.countHit.hold t).retain s.settings.retained t)
  | failed {e : Error} {c' : Cache σ δ} : (∀ t, ¬ c.drain.Hit flags t) →
      Synthesis s c.drain flags (.error e, c') → Lookup s c flags (.error e, c')
  | made {t : Ticket} {c' : Cache σ δ} : (∀ t, ¬ c.drain.Hit flags t) →
      Synthesis s c.drain flags (.ok t, c') →
      Lookup s c flags (.ok t,
        (c'.place s.settings.maxCapacity t s.settings.maxCapacity.log2).retain
          s.settings.retained t)

theorem hit_iff {t : Ticket} :
    (c.resident? flags).filter (fun r => r.flags == flags && c.alive r) = some t ↔
      c.Hit flags t := by
  simp [Option.filter_eq_some_iff, Hit]

/-- The caller holds the executor that has been looked up. -/
theorem Lookup.held {r : Except Error Ticket × Cache σ δ} (h : Lookup s c flags r) {t : Ticket}
    (ht : r.1 = .ok t) : t.number ∈ r.2.held := by
  cases h with
  | hit _ => cases ht; simp [hold]
  | failed _ _ => cases ht
  | made _ hsyn => cases ht; simpa using hsyn.held rfl

theorem lookup_spec (c : Cache σ δ) (s : Setup σ ρ) (flags : Flags) :
    Lookup s c flags (c.lookup s flags) := by
  unfold lookup
  dsimp only
  split
  · rename_i t ht
    exact .hit (hit_iff.mp ht)
  · rename_i hnone
    have hmiss (t : Ticket) : ¬ c.drain.Hit flags t := by
      rw [← hit_iff, hnone]
      exact fun h => by cases h
    have hsyn := synthesis c.drain s flags
    split <;> rename_i heq <;> rw [heq] at hsyn
    · exact .failed hmiss hsyn
    · exact .made hmiss hsyn

end Cache

end FlagSelect
