import FlagSelect.Proofs.Cache.Standing

/-!
# What has been given out

The executors that lookups have given out, and the flags that they were looked up for. As long as
all these flags have slots of their own in a table of full size, no one is displaced.
-/

namespace FlagSelect.Cache

variable {σ δ ρ : Type} [Driver δ] {n : Nat} {flags : Flags} {fs gs : List Flags}

/-- Whether some flags have slots of their own in a table of so many slots. -/
def Apart (n : Nat) (fs : List Flags) : Prop := ∀ f ∈ fs, ∀ g ∈ fs, ¬ Clash n f g

-- The instances are named: there are finitely many flags, and a search might go through them all.
instance : Decidable (Apart n fs) :=
  @List.decidableBAll _ _ (fun f => List.decidableBAll (fun g => ¬ Clash n f g) fs) fs

theorem Apart.mono (h : Apart n gs) (hsub : fs ⊆ gs) : Apart n fs := fun f hf g hg =>
  h f (hsub hf) g (hsub hg)

variable [RecordHost σ ρ] {s : Setup σ ρ} {w : World σ δ} {c : Cache σ δ} {t u r : Ticket}
  {x : Deed σ δ} {past : List (Deed σ δ)}

/-- The executors that have been given out, the latest first. -/
def served (s : Setup σ ρ) (past : List (Deed σ δ)) : List Ticket :=
  past.filterMap (Deed.given? s)

/-- The flags for which executors have been given out, the latest first. -/
def used (s : Setup σ ρ) (past : List (Deed σ δ)) : List Flags :=
  (served s past).map Ticket.flags

theorem used_of_given (h : x.given? s = some t) :
    used s (x :: past) = t.flags :: used s past := by
  rw [used, served, List.filterMap_cons_some h, List.map_cons, used, served]

theorem used_of_not_given (h : x.given? s = none) : used s (x :: past) = used s past := by
  rw [used, served, List.filterMap_cons_none h, used, served]

theorem mem_served_cons :
    t ∈ served s (x :: past) ↔ x.given? s = some t ∨ t ∈ served s past := by
  simp [served]

theorem flags_mem_used (h : t ∈ served s past) : t.flags ∈ used s past :=
  List.mem_map_of_mem h

theorem used_subset_cons : used s past ⊆ used s (x :: past) := by
  intro f hf
  obtain ⟨t, ht, rfl⟩ := List.mem_map.mp hf
  exact flags_mem_used (mem_served_cons.mpr (.inr ht))

theorem Standing.mem_served (h : Standing s past t) : t ∈ served s past := by
  obtain ⟨later, x, earlier, rfl, hmakes, -⟩ := h
  exact List.mem_filterMap.mpr ⟨x, by simp, hmakes.1⟩

theorem Chronicle.mem_served (hv : s.settings.Valid) (h : Chronicle s w past c)
    (hdropped : c.dropped = false) (ht : c.InTable t) : t ∈ served s past :=
  ((h.told hv hdropped).standing t ht).mem_served

theorem Chronicle.made_of_mem_served (hv : s.settings.Valid) (h : Chronicle s w past c)
    (hdropped : c.dropped = false) (ht : t ∈ served s past) : c.Made t := by
  refine h.induct (P := fun past c => ∀ t ∈ served s past, c.Made t) hv nofun
    (fun x past _ ih hc hop hafter t ht => ?_) hdropped t ht
  have hturn := hc.turn hv hop hafter.dropped
  rcases mem_served_cons.mp ht with ht | ht
  · exact hafter.made t (.inl (.inl (hturn.given t ht).2))
  · exact hturn.lasts t (ih t ht)

theorem Turn.not_displaces (h : Turn s x)
    (hapart : Apart s.settings.maxCapacity (used s (x :: past)))
    (hserved : ∀ u, x.before.InTable u → u ∈ served s past) (r : Ticket) : ¬ x.Displaces s r := by
  intro hr
  obtain ⟨t, ht, hclash⟩ := h.displaces r hr
  exact hapart r.flags (used_subset_cons (flags_mem_used (hserved r hr.2.1))) t.flags
    (flags_mem_used (mem_served_cons.mpr (.inl ht))) hclash

end FlagSelect.Cache
