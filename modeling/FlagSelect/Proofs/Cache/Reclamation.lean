import FlagSelect.Proofs.Cache.Layout
import FlagSelect.Proofs.Cache.Moves
import FlagSelect.Proofs.Cache.Reload

/-!
# Working off notices

A notice may wait for any while. When it is worked off at last, others may have been made for the
flags of the dead executor, its slot may be another's and the table may have grown; the number on
the notice, which no one else ever has, tells its own slot and statement from theirs (`Spares`).
Where callers let go between the functions of the cache only, working off all notices leaves nothing
of the dead (`Swept`). Main statement: `Run.reclamation`.
-/

namespace FlagSelect.Cache

variable {σ δ ρ : Type} [Driver δ] {s : Setup σ ρ} {c c' : Cache σ δ} {t : Ticket}
  {ts us : List Ticket}

/-- Whether no notice waits, all that has a place is alive, and no dead executor has a statement
open. -/
structure Swept (c : Cache σ δ) : Prop where
  notices : c.notices = []
  slots : ∀ i t, c.Seats i t → c.alive t = true
  evicted : ∀ t ∈ c.evicted, c.alive t = true
  closed : ∀ k, c.HasOpen k → c.Kept k

/-- Whether a notice is of a dead executor, and working it off frees the slot of that executor and
closes the statement of that executor, as far as there are any, and no others. -/
structure Spares (c : Cache σ δ) (t : Ticket) : Prop where
  made : c.Made t
  dead : c.alive t = false
  slots : ∀ i u, (c.reclaim t).Seats i u ↔ c.Seats i u ∧ u.number ≠ t.number
  evicted : (c.reclaim t).evicted = c.evicted
  /-- Others keep their statements. -/
  executors : ∀ k, k ≠ t.number → (c.reclaim t).executors[k]? = c.executors[k]?
  closed : ¬ (c.reclaim t).HasOpen t.number
  /-- The driver is asked for nothing but to close the statement of the executor, if that is
  open. -/
  world : (c.reclaim t).world =
    { c.world with driver := (closeEach (c.openOf [t]) c.world.driver).2 }

theorem Orderly.swept (h : Orderly s c []) (hcustody : Custody c []) : Swept c.drain where
  notices := by simp
  slots i t ht := alive_iff_kept.mpr (kept_drain.mpr (h.placed_drain.mp (.inl ⟨i, ht⟩)).2)
  evicted t ht := alive_iff_kept.mpr (kept_drain.mpr (h.placed_drain.mp (.inr ht)).2)
  closed k hk := by
    rcases hcustody.drain.kept k hk with hk | hk | hk | hk
    · exact .inl hk
    · exact .inr hk
    · simp at hk
    · exact absurd hk names_nil

/-! ## One notice -/

theorem Tracked.flags_eq (h : Tracked c (t :: ts)) (u : Ticket) (hu : c.InTable u)
    (hnumber : u.number = t.number) : u.flags = t.flags :=
  (h.made u (.inl hu)).flags_eq (h.made t (.inr (.inr List.mem_cons_self))) hnumber

theorem Tracked.spares (h : Tracked c (t :: ts)) : Spares c t where
  made := h.made t (.inr (.inr List.mem_cons_self))
  dead := alive_eq_false.mpr (h.dead t List.mem_cons_self)
  slots _ _ := h.seated.seats_reclaim h.flags_eq
  evicted := by simp
  executors k hk := closes_reclaim.getElem?_executors (by simpa using hk.symm)
  closed hopen := (closes_reclaim.hasOpen.mp hopen).1 (by simp)
  world := closes_reclaim.world_eq (by simp)

theorem Tracked.reclaim (h : Tracked c (t :: ts)) : Tracked (c.reclaim t) ts where
  seated i u hu := by
    rw [capacity_reclaim]
    exact h.seated i u ((h.seated.seats_reclaim h.flags_eq).mp hu).1
  made u hu := by
    refine (h.made u ?_).congr (by simp)
    rcases hu with ⟨i, hi⟩ | hu | hu
    · exact .inl ⟨i, ((h.seated.seats_reclaim h.flags_eq).mp hi).1⟩
    · exact .inr (.inl (by simpa using hu))
    · exact .inr (.inr (List.mem_cons_of_mem t hu))
  dead u hu := by
    rw [kept_congr (c := c) (by simp) (by simp)]
    exact h.dead u (List.mem_cons_of_mem t hu)

theorem Tracked.reclaimAll (h : Tracked c (us ++ ts)) : Tracked (us.foldl Cache.reclaim c) ts := by
  induction us generalizing c with
  | nil => exact h
  | cons u us ih => exact ih h.reclaim

/-! ## Runs -/

/-- Whenever a lookup starts in a run, working off the notices leaves nothing of the dead. Whatever
has happened after a run, on other threads too and with functions of the cache that are not at
their end, each notice that is worked off spares all others. -/
theorem Run.reclamation [RecordHost σ ρ] {w : World σ δ} {past : List (Cache σ δ)}
    (hs : s.settings.defect? = none) (h : Run s w (c :: past)) :
    (c.dropped = false → Swept c.drain) ∧
    ∀ c', Moves s c c' → ∀ before t after, c'.notices = before ++ t :: after →
      Spares (before.foldl Cache.reclaim { c' with notices := [] }) t := by
  refine ⟨fun hdropped => ?_, fun c' hmoves before t after hnotices => ?_⟩
  · exact (h.orderly (Settings.valid_of_defect? hs) hdropped).swept h.custody
  · have htracked := h.tracked.moves hmoves
    rw [hnotices] at htracked
    have hqueue : Tracked { c' with notices := [] } (before ++ t :: after) :=
      htracked.congr rfl rfl rfl rfl
    exact hqueue.reclaimAll.spares

/-- After a lookup, its executor is dead, and the notice of that waits. -/
def bereaved : Cache Scripted.Host Scripted.Connection :=
  { ((start tightQuery stubbornWorld).lookup tightQuery 0).2 with
    held := [], retained := [], notices := [⟨0, 0⟩] }

/-- While the notice waits, another executor has been made for the same flags. -/
def renewed : Cache Scripted.Host Scripted.Connection :=
  (bereaved.synthesize tightQuery 0).2.place 2 ⟨0, 1⟩ 1

/-- A third executor has made the table double, and the notice still waits. -/
theorem reclamation_of_delayed : ∃ c past c', Run tightQuery stubbornWorld (c :: past) ∧
    Moves tightQuery c c' ∧ c'.notices = [⟨0, 0⟩] ∧ c'.slots = #[some ⟨0, 1⟩, some ⟨1, 2⟩] ∧
    Spares { c' with notices := [] } ⟨0, 0⟩ := by
  have h : Run tightQuery stubbornWorld
      [((start tightQuery stubbornWorld).lookup tightQuery 0).2, start tightQuery stubbornWorld] :=
    Run.start.perform (.lookup 0) rfl
  have hdead : Moves tightQuery ((start tightQuery stubbornWorld).lookup tightQuery 0).2
      bereaved := by
    refine .head (.keep [] [] ?_ fun t ht => by cases ht) (.single (.post ?_ ?_))
    · rintro k (hk | ⟨_, hk, -⟩) <;> cases hk
    · exact h.tracked.made ⟨0, 0⟩ (.inl ⟨0, rfl⟩)
    · rintro (hk | ⟨_, hk, -⟩) <;> cases hk
  have hrenewed : Moves tightQuery ((start tightQuery stubbornWorld).lookup tightQuery 0).2
      renewed :=
    hdead.trans ((synthesis bereaved tightQuery 0).moves_place (h.tracked.moves hdead) rfl 2 1)
  have hgrown := hrenewed.trans
    ((synthesis renewed tightQuery 1).moves_place (h.tracked.moves hrenewed) rfl 2 1)
  exact ⟨_, _, _, h, hgrown, rfl, rfl, (h.reclamation (by decide)).2 _ hgrown [] _ [] rfl⟩

end FlagSelect.Cache
