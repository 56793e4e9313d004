import FlagSelect.Proofs.Cache.Custody

/-!
# What a cache does to statements on its own

Apart from the making of executors, and from what callers ask of theirs, a cache closes statements
and does nothing else to executors and to the world. `Closes c ts c'` says so of the way from `c` to
`c'`, with the executors in the order in which their statements are closed.
-/

namespace FlagSelect.Cache

variable {σ δ ρ : Type} [Driver δ] {c c' c'' : Cache σ δ} {t : Ticket} {ts us : List Ticket}
  {k : Nat}

theorem closeQuietly_congr (hexecutors : c'.executors = c.executors) (hworld : c'.world = c.world) :
    (c'.closeQuietly t).executors = (c.closeQuietly t).executors ∧
      (c'.closeQuietly t).world = (c.closeQuietly t).world := by
  unfold closeQuietly close
  rw [hexecutors, hworld]
  split
  · exact ⟨hexecutors, hworld⟩
  · simp [update, hexecutors]

/-- Whether all that has become of executors and the world is that statements were closed. -/
structure Closes (c : Cache σ δ) (ts : List Ticket) (c' : Cache σ δ) : Prop where
  executors : c'.executors = (ts.foldl closeQuietly c).executors
  world : c'.world = (ts.foldl closeQuietly c).world

namespace Closes

theorem of_eq (hexecutors : c'.executors = c.executors) (hworld : c'.world = c.world) :
    Closes c [] c' :=
  ⟨hexecutors, hworld⟩

theorem refl (c : Cache σ δ) : Closes c [] c := .of_eq rfl rfl

theorem closeAll (c : Cache σ δ) (ts : List Ticket) : Closes c ts (ts.foldl closeQuietly c) :=
  ⟨rfl, rfl⟩

theorem close (c : Cache σ δ) (t : Ticket) : Closes c [t] (c.closeQuietly t) :=
  closeAll c [t]

theorem trans (h : Closes c ts c') (h' : Closes c' us c'') : Closes c (ts ++ us) c'' := by
  have hcongr : (us.foldl closeQuietly c').executors =
        (us.foldl closeQuietly (ts.foldl closeQuietly c)).executors ∧
      (us.foldl closeQuietly c').world =
        (us.foldl closeQuietly (ts.foldl closeQuietly c)).world := by
    obtain ⟨hexecutors, hworld⟩ := h
    clear h'
    generalize ts.foldl closeQuietly c = d at hexecutors hworld ⊢
    induction us generalizing c' d with
    | nil => exact ⟨hexecutors, hworld⟩
    | cons u us ih =>
        obtain ⟨hexecutors, hworld⟩ := closeQuietly_congr (t := u) hexecutors hworld
        exact ih _ hexecutors hworld
  constructor
  · rw [List.foldl_append, ← hcongr.1, h'.executors]
  · rw [List.foldl_append, ← hcongr.2, h'.world]

/-- Nothing but closings before, and nothing at all after. -/
theorem congr (h : Closes c ts c') (hexecutors : c''.executors = c'.executors)
    (hworld : c''.world = c'.world) : Closes c ts c'' :=
  ⟨hexecutors.trans h.executors, hworld.trans h.world⟩

theorem hasOpen (h : Closes c ts c') : c'.HasOpen k ↔ ¬ Names ts k ∧ c.HasOpen k := by
  have hfold : (ts.foldl closeQuietly c).HasOpen k ↔ ¬ Names ts k ∧ c.HasOpen k := by
    clear h
    induction ts generalizing c with
    | nil => simp
    | cons t ts ih =>
        rw [List.foldl_cons, ih, hasOpen_closeQuietly, names_cons, not_or, and_assoc,
          and_left_comm, ne_comm]
  rw [← hfold, HasOpen, h.executors, HasOpen]

end Closes

/-- Whether all that has become of executors and the world is that some statements were closed. -/
def ClosesSome (c c' : Cache σ δ) : Prop := ∃ ts, Closes c ts c'

namespace ClosesSome

theorem of_eq (hexecutors : c'.executors = c.executors) (hworld : c'.world = c.world) :
    ClosesSome c c' :=
  ⟨[], .of_eq hexecutors hworld⟩

theorem refl (c : Cache σ δ) : ClosesSome c c := of_eq rfl rfl

theorem trans (h : ClosesSome c c') (h' : ClosesSome c' c'') : ClosesSome c c'' := by
  obtain ⟨ts, hts⟩ := h
  obtain ⟨us, hus⟩ := h'
  exact ⟨ts ++ us, hts.trans hus⟩

/-- What is neither an executor nor the world may change first. -/
theorem after (h : ClosesSome c' c'') (hexecutors : c'.executors = c.executors)
    (hworld : c'.world = c.world) : ClosesSome c c'' :=
  (of_eq hexecutors hworld).trans h

theorem foldl {α : Type} {f : Cache σ δ → α → Cache σ δ}
    (hf : ∀ (c : Cache σ δ) a, ClosesSome c (f c a)) (l : List α) (c : Cache σ δ) :
    ClosesSome c (l.foldl f c) := by
  induction l generalizing c with
  | nil => exact refl c
  | cons a l ih => exact (hf c a).trans (ih (f c a))

end ClosesSome

/-! ## The functions of a cache -/

theorem closes_settle (c : Cache σ δ) (t : Ticket) : ClosesSome c (c.settle t) := by
  unfold settle
  split
  · exact .refl c
  · split
    · exact ⟨[t], .close c t⟩
    · exact .of_eq rfl rfl

theorem closes_release : ClosesSome c (c.release t) := by
  unfold release
  split
  · exact (closes_settle _ t).after rfl rfl
  · exact .refl c

theorem closes_retain {limit : Nat} : ClosesSome c (c.retain limit t) := by
  unfold retain
  split
  · exact .refl c
  · exact (ClosesSome.foldl closes_settle _ _).after rfl rfl

theorem closes_dismiss {flags : Flags} : ClosesSome c (c.dismiss flags) := by
  unfold dismiss
  exact (ClosesSome.foldl closes_settle _ _).after rfl rfl

theorem closes_rehash (c : Cache σ δ) (o : Option Ticket) : ClosesSome c (c.rehash o) := by
  cases o with
  | none => exact .refl c
  | some r =>
      simp only [rehash]
      split
      · exact .of_eq rfl rfl
      · exact ⟨[r], .close c r⟩

theorem closes_grow : ClosesSome c c.grow := by
  have hfold : ClosesSome c
      (c.slots.toList.foldl rehash { c with slots := Array.replicate (2 * c.capacity) none }) :=
    (ClosesSome.foldl closes_rehash _ _).after rfl rfl
  exact hfold.trans (.of_eq rfl rfl)

theorem closes_evict : ClosesSome c (c.evict t) := by
  have hclose : ClosesSome c (c.closeQuietly t) := ⟨[t], .close c t⟩
  exact (hclose.trans closes_dismiss).trans (.of_eq rfl rfl)

theorem closes_place {maxCapacity n : Nat} : ClosesSome c (c.place maxCapacity t n) := by
  apply place_keeps (P := ClosesSome c)
  case hc => exact .refl c
  case hseat => exact fun _ hd => hd.trans (.of_eq rfl rfl)
  case hclose => exact fun d r hd => hd.trans ⟨[r], .close d r⟩
  case hgrow => exact fun _ hd => hd.trans closes_grow
  case hevict => exact fun _ _ hd => hd.trans closes_evict

theorem closes_reclaim : Closes c [t] (c.reclaim t) := by
  unfold reclaim
  dsimp only
  split <;> exact (Closes.close c t).congr rfl rfl

/-- Working off notices closes the statements of their executors, in order. -/
theorem closes_drain : Closes c c.notices c.drain := by
  have hfold (ts : List Ticket) (c : Cache σ δ) : Closes c ts (ts.foldl reclaim c) := by
    induction ts generalizing c with
    | nil => exact .refl c
    | cons t ts ih => exact closes_reclaim.trans (ih (c.reclaim t))
  have hqueue : Closes c [] { c with notices := [] } := .of_eq rfl rfl
  exact (hqueue.trans (hfold c.notices _)).congr rfl rfl

/-- After the notices a reload closes the statements of all that the cache then knows of. -/
theorem closes_reload : Closes c (c.notices ++ c.drain.known) c.reload.2 := by
  rw [reload_snd]
  exact closes_drain.trans (.closeAll _ _)

theorem closes_drop : ClosesSome c c.drop := by
  have hsettle : ClosesSome c (c.retained.foldl settle { c with retained := [] }) :=
    (ClosesSome.foldl closes_settle _ _).after rfl rfl
  have hdrain := hsettle.trans ⟨_, closes_drain⟩
  exact (hdrain.trans ⟨_, .closeAll _ _⟩).trans (.of_eq rfl rfl)

end FlagSelect.Cache
