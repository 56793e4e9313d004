import FlagSelect.Proofs.Cache.Lookup

/-!
# Who answers for an open statement

An executor with an open statement is alive, or a notice of its death is queued. While a function
of the cache is under way this may fail for a few executors that it is yet to settle or to close;
`Custody c ts` lists them.
-/

namespace FlagSelect.Cache

variable {σ δ ρ : Type} [Driver δ] {c c' : Cache σ δ} {t : Ticket} {ts us : List Ticket} {k : Nat}

/-- Whether the executor of a number has a statement open. -/
def HasOpen (c : Cache σ δ) (k : Nat) : Prop :=
  ∃ e, c.executors[k]? = some e ∧ e.statement.isSome

/-- Whether one of the tickets is for the executor of a number. -/
def Names (ts : List Ticket) (k : Nat) : Prop := ∃ t ∈ ts, t.number = k

@[simp] theorem names_nil : ¬ Names [] k := by simp [Names]

@[simp] theorem names_cons : Names (t :: ts) k ↔ t.number = k ∨ Names ts k := by simp [Names]

@[simp] theorem names_append : Names (us ++ ts) k ↔ Names us k ∨ Names ts k := by
  simp [Names, or_and_right, exists_or]

/-- Every open statement is that of an executor that someone keeps alive, that has a notice queued
or that is among `ts`. A cache that is gone keeps nothing alive and works off no notices. -/
structure Custody (c : Cache σ δ) (ts : List Ticket) : Prop where
  kept : ∀ k, c.HasOpen k → k ∈ c.held ∨ Names c.retained k ∨ Names c.notices k ∨ Names ts k
  gone : c.dropped = true → c.retained = [] ∧ c.notices = []

theorem alive_iff : c.alive t = true ↔ t.number ∈ c.held ∨ Names c.retained t.number := by
  simp [alive, Names]

/-! ## Open statements -/

theorem hasOpen_update {e e' : Executor σ δ} {w : World σ δ} {j : Nat}
    (h : c.executors[k]? = some e) :
    (c.update k e' w).HasOpen j ↔ if k = j then e'.statement.isSome = true else c.HasOpen j := by
  simp only [HasOpen, getElem?_update h]
  split
  · simp
  · rfl

theorem hasOpen_closeQuietly :
    (c.closeQuietly t).HasOpen k ↔ k ≠ t.number ∧ c.HasOpen k := by
  unfold closeQuietly close
  split
  · rename_i hnone
    constructor
    · rintro ⟨e, he, ho⟩
      refine ⟨?_, e, he, ho⟩
      rintro rfl
      rw [hnone] at he
      cases he
    · exact fun h => h.2
  · rename_i e he
    have hclosed : (e.close c.world).2.1.statement = none := by
      unfold Executor.close
      split
      · assumption
      · dsimp only
        split <;> rfl
    refine (hasOpen_update (w := (e.close c.world).2.2) he).trans ?_
    rw [hclosed]
    by_cases hk : t.number = k
    · simp [hk]
    · simp [hk, Ne.symm hk]

/-- A function that reaches the statement of executor `t` alone opens no other. -/
theorem hasOpen_of_update {e e' : Executor σ δ} {w : World σ δ} {j : Nat}
    (h : c.executors[k]? = some e) (ho : (c.update k e' w).HasOpen j) : j = k ∨ c.HasOpen j := by
  rw [hasOpen_update h] at ho
  split at ho
  · exact .inl (Eq.symm ‹_›)
  · exact .inr ho

theorem hasOpen_of_prepare (h : (c.prepare t).2.HasOpen k) : k = t.number ∨ c.HasOpen k := by
  unfold prepare at h
  split at h
  · exact .inr h
  · rename_i he
    exact hasOpen_of_update he h

theorem hasOpen_of_query [RecordHost σ ρ] {s : Setup σ ρ} {record : Object}
    (h : (c.query s t record).2.HasOpen k) : k = t.number ∨ c.HasOpen k := by
  unfold query at h
  split at h
  · exact .inr h
  · rename_i he
    exact hasOpen_of_update he h

theorem hasOpen_enlist {flags : Flags} {plan : Plan σ} :
    (c.enlist flags plan).HasOpen k ↔ c.HasOpen k := by
  simp only [HasOpen, enlist, hold, Array.getElem?_push]
  split
  · rename_i hk
    rw [hk, Array.getElem?_eq_none (Nat.le_refl _)]
    simp
  · rfl

/-! ## Custody -/

theorem Custody.mono (h : Custody c ts) (hts : ∀ k, Names ts k → Names us k) : Custody c us where
  kept k hk := by
    rcases h.kept k hk with hh | hh | hh | hh
    · exact .inl hh
    · exact .inr (.inl hh)
    · exact .inr (.inr (.inl hh))
    · exact .inr (.inr (.inr (hts k hh)))
  gone := h.gone

/-- Custody passes to a cache that keeps all that this one keeps and has no further statement
open. -/
theorem Custody.of_frame (h : Custody c ts) (hopen : ∀ k, c'.HasOpen k → c.HasOpen k)
    (hheld : c'.held = c.held) (hretained : c'.retained = c.retained)
    (hnotices : c'.notices = c.notices) (hdropped : c'.dropped = c.dropped) : Custody c' ts where
  kept k hk := by
    rw [hheld, hretained, hnotices]
    exact h.kept k (hopen k hk)
  gone hd := by
    rw [hretained, hnotices]
    exact h.gone (hdropped ▸ hd)

/-- A statement may be opened for an executor that is held. -/
theorem Custody.opened (h : Custody c ts) (ht : t.number ∈ c.held)
    (hopen : ∀ k, c'.HasOpen k → k = t.number ∨ c.HasOpen k)
    (hheld : c'.held = c.held) (hretained : c'.retained = c.retained)
    (hnotices : c'.notices = c.notices) (hdropped : c'.dropped = c.dropped) : Custody c' ts where
  kept k hk := by
    rw [hheld, hretained, hnotices]
    rcases hopen k hk with rfl | hk
    · exact .inl ht
    · exact h.kept k hk
  gone hd := by
    rw [hretained, hnotices]
    exact h.gone (hdropped ▸ hd)

theorem Custody.closeQuietly (h : Custody c (t :: ts)) : Custody (c.closeQuietly t) ts where
  kept k hk := by
    obtain ⟨hne, ho⟩ := hasOpen_closeQuietly.mp hk
    simpa [hne.symm] using h.kept k ho
  gone := by simpa using h.gone

/-- Closing one more statement is always possible. -/
theorem Custody.closeQuietly_any (h : Custody c ts) : Custody (c.closeQuietly t) ts :=
  Custody.closeQuietly (h.mono fun _ hk => names_cons.mpr (.inr hk))

theorem Custody.settle (h : Custody c (t :: ts)) : Custody (c.settle t) ts := by
  unfold Cache.settle
  split
  · rename_i halive
    refine ⟨fun k hk => ?_, h.gone⟩
    rcases h.kept k hk with hh | hh | hh | hh
    · exact .inl hh
    · exact .inr (.inl hh)
    · exact .inr (.inr (.inl hh))
    · rcases names_cons.mp hh with rfl | hh
      · exact (alive_iff.mp halive).elim .inl (fun hr => .inr (.inl hr))
      · exact .inr (.inr (.inr hh))
  · split
    · exact h.closeQuietly
    · rename_i hdropped
      refine ⟨fun k hk => ?_, fun hd => absurd hd hdropped⟩
      rcases h.kept k hk with hh | hh | hh | hh
      · exact .inl hh
      · exact .inr (.inl hh)
      · exact .inr (.inr (.inl (names_append.mpr (.inl hh))))
      · rcases names_cons.mp hh with rfl | hh
        · exact .inr (.inr (.inl (by simp)))
        · exact .inr (.inr (.inr hh))

theorem Custody.settleAll (h : Custody c (us ++ ts)) : Custody (us.foldl Cache.settle c) ts := by
  induction us generalizing c with
  | nil => exact h
  | cons u us ih => exact ih h.settle

theorem Custody.closeAll (h : Custody c ts) (us : List Ticket) :
    Custody (us.foldl Cache.closeQuietly c) ts := by
  induction us generalizing c with
  | nil => exact h
  | cons u us ih => exact ih h.closeQuietly_any

/-- When the retention list is replaced, whoever leaves it is to be settled. -/
theorem Custody.retained (h : Custody c []) {rs : List Ticket} (hdropped : c.dropped = false)
    (hrs : ∀ k, Names c.retained k → Names rs k ∨ Names us k) :
    Custody { c with retained := rs } us where
  kept k hk := by
    rcases h.kept k hk with hh | hh | hh | hh
    · exact .inl hh
    · exact (hrs k hh).elim (fun hr => .inr (.inl hr)) (fun hu => .inr (.inr (.inr hu)))
    · exact .inr (.inr (.inl hh))
    · exact absurd hh names_nil
  gone hd := by
    rw [hdropped] at hd
    cases hd

theorem names_of_filter {p : Ticket → Bool} (h : Names ts k) :
    Names (ts.filter p) k ∨ Names (ts.filter fun t => !p t) k := by
  obtain ⟨t, ht, rfl⟩ := h
  cases hp : p t with
  | true => exact .inl ⟨t, List.mem_filter.mpr ⟨ht, hp⟩, rfl⟩
  | false => exact .inr ⟨t, List.mem_filter.mpr ⟨ht, by simp [hp]⟩, rfl⟩

theorem Custody.retain (h : Custody c []) (hdropped : c.dropped = false) {limit : Nat} :
    Custody (c.retain limit t) [] := by
  unfold Cache.retain
  split
  · exact h
  · refine Custody.settleAll (h.retained hdropped fun k hk => ?_)
    rw [List.append_nil, names_append]
    rcases names_of_filter (p := (·.flags == t.flags)) hk with hsame | hother
    · exact .inr (.inl hsame)
    · obtain ⟨r, hr, rfl⟩ := hother
      have hlatest := List.mem_cons_of_mem t hr
      rw [← List.take_append_drop limit (t :: _), List.mem_append] at hlatest
      exact hlatest.elim (fun hm => .inl ⟨r, hm, rfl⟩) (fun hm => .inr (.inr ⟨r, hm, rfl⟩))

theorem Custody.dismiss (h : Custody c []) (hdropped : c.dropped = false) {flags : Flags} :
    Custody (c.dismiss flags) [] := by
  refine Custody.settleAll (h.retained hdropped fun k hk => ?_)
  rw [List.append_nil]
  exact (names_of_filter (p := (·.flags == flags)) hk).symm

theorem Custody.setSlot (h : Custody c ts) {flags : Flags} {o : Option Ticket} :
    Custody (c.setSlot flags o) ts :=
  h.of_frame (fun _ hk => hk) rfl rfl rfl rfl

theorem Custody.rehash (h : Custody c ts) {o : Option Ticket} : Custody (c.rehash o) ts := by
  cases o with
  | none => exact h
  | some r =>
      simp only [Cache.rehash]
      split
      · exact h.setSlot
      · exact h.closeQuietly_any

theorem Custody.grow (h : Custody c ts) : Custody c.grow ts := by
  have hfold (os : List (Option Ticket)) {c : Cache σ δ} (h : Custody c ts) :
      Custody (os.foldl Cache.rehash c) ts := by
    induction os generalizing c with
    | nil => exact h
    | cons o os ih => exact ih h.rehash
  have hempty : Custody { c with slots := Array.replicate (2 * c.capacity) none } ts :=
    h.of_frame (fun _ hk => hk) rfl rfl rfl rfl
  exact (hfold c.slots.toList hempty).of_frame (fun _ hk => hk) rfl rfl rfl rfl

theorem Custody.evict (h : Custody c []) (hdropped : c.dropped = false) :
    Custody (c.evict t) [] := by
  have hdismiss : Custody ((c.closeQuietly t).dismiss t.flags) [] :=
    h.closeQuietly_any.dismiss (by simpa)
  exact hdismiss.of_frame (fun _ hk => hk) rfl rfl rfl rfl

theorem Custody.place (h : Custody c []) (hdropped : c.dropped = false) {maxCapacity n : Nat} :
    Custody (c.place maxCapacity t n) [] := by
  apply And.right
  apply place_keeps (P := fun d => d.dropped = false ∧ Custody d [])
  case hc => exact ⟨hdropped, h⟩
  case hseat => exact fun _ hd => ⟨hd.1, hd.2.setSlot⟩
  case hclose => exact fun _ _ hd => ⟨by simpa using hd.1, hd.2.closeQuietly_any⟩
  case hgrow => exact fun _ hd => ⟨by simpa using hd.1, hd.2.grow⟩
  case hevict => exact fun _ _ hd => ⟨by simpa using hd.1, hd.2.evict hd.1⟩

theorem Custody.reclaim (h : Custody c (t :: ts)) : Custody (c.reclaim t) ts := by
  unfold Cache.reclaim
  dsimp only
  split <;> exact h.closeQuietly.of_frame (fun _ hk => hk) rfl rfl rfl rfl

theorem Custody.drain (h : Custody c []) : Custody c.drain [] := by
  have hfold (us : List Ticket) {c : Cache σ δ} (h : Custody c us) :
      Custody (us.foldl Cache.reclaim c) [] := by
    induction us generalizing c with
    | nil => exact h
    | cons u us ih => exact ih h.reclaim
  have hqueue : Custody { c with notices := [] } c.notices := by
    refine ⟨fun k hk => ?_, fun hd => ⟨(h.gone hd).1, rfl⟩⟩
    have := h.kept k hk
    simp only [names_nil, or_false, false_or] at this ⊢
    exact this
  exact (hfold c.notices hqueue).of_frame (fun _ hk => hk) rfl rfl rfl rfl

theorem Custody.hold (h : Custody c ts) : Custody (c.hold t) ts where
  kept k hk := (h.kept k hk).imp_left (List.mem_cons_of_mem _)
  gone := h.gone

theorem Custody.release (h : Custody c []) : Custody (c.release t) [] := by
  unfold Cache.release
  split
  · refine Custody.settle ⟨fun k hk => ?_, h.gone⟩
    rcases h.kept k hk with hh | hh | hh | hh
    · by_cases hkt : k = t.number
      · exact .inr (.inr (.inr (by simp [hkt])))
      · exact .inl ((List.mem_erase_of_ne hkt).mpr hh)
    · exact .inr (.inl hh)
    · exact .inr (.inr (.inl hh))
    · exact absurd hh names_nil
  · exact h

theorem Custody.prepare (h : Custody c ts) (ht : t.number ∈ c.held) : Custody (c.prepare t).2 ts :=
  h.opened ht (fun _ => hasOpen_of_prepare) (by simp) (by simp) (by simp) (by simp)

theorem Custody.query [RecordHost σ ρ] {s : Setup σ ρ} {record : Object} (h : Custody c ts)
    (ht : t.number ∈ c.held) : Custody (c.query s t record).2 ts :=
  h.opened ht (fun _ => hasOpen_of_query) (by simp) (by simp) (by simp) (by simp)

theorem Custody.bindValues {s : Setup σ ρ} {record : Object} (h : Custody c ts) :
    Custody (c.bindValues s t record).2 ts :=
  h.of_frame (fun _ => by simp [HasOpen]) (by simp) (by simp) (by simp) (by simp)

theorem Custody.enlist (h : Custody c ts) {flags : Flags} {plan : Plan σ} :
    Custody (c.enlist flags plan) ts := by
  have hhold := h.hold (t := c.nextTicket flags)
  exact hhold.of_frame (fun _ hk => hasOpen_enlist (c := c).mp hk) rfl rfl rfl rfl

/-! ## Operations -/

theorem Synthesis.custody {s : Setup σ ρ} {flags : Flags} {r : Except Error Ticket × Cache σ δ}
    (h : Synthesis s c flags r) (hc : Custody c []) : Custody r.2 [] := by
  have hself (plan : Plan σ) : (c.nextTicket flags).number ∈ (c.enlist flags plan).held :=
    List.mem_cons_self
  cases h with
  | noPlan _ => exact hc
  | @unprepared plan _ _ _ _ => exact (hc.enlist.prepare (hself plan)).release
  | @prepared plan _ _ _ =>
      exact (hc.enlist.prepare (hself plan)).of_frame (fun _ hk => hk) rfl rfl rfl rfl
  | postponed _ _ => exact hc.enlist.of_frame (fun _ hk => hk) rfl rfl rfl rfl

theorem Lookup.custody {s : Setup σ ρ} {flags : Flags} {r : Except Error Ticket × Cache σ δ}
    (h : Lookup s c flags r) (hc : Custody c []) (hdropped : c.dropped = false) :
    Custody r.2 [] := by
  cases h with
  | @hit t _ =>
      have hcount : Custody c.drain.countHit [] :=
        hc.drain.of_frame (fun _ hk => hk) rfl rfl rfl rfl
      exact (hcount.hold (t := t)).retain (by simpa [Cache.hold])
  | failed _ hsyn => exact hsyn.custody hc.drain
  | made _ hsyn =>
      have hd := hsyn.dropped.trans ((drain_frame (c := c)).2.2.2.1.trans hdropped)
      exact ((hsyn.custody hc.drain).place hd).retain (by simpa using hd)

theorem Custody.reload (h : Custody c []) : Custody c.reload.2 [] := by
  rw [reload_snd]
  exact h.drain.closeAll _

theorem Custody.drop (h : Custody c []) (hdropped : c.dropped = false) : Custody c.drop [] := by
  have hretained : Custody { c with retained := [] } (c.retained ++ []) :=
    h.retained hdropped fun k hk => .inr (by simpa using hk)
  have hclosed := hretained.settleAll.drain.closeAll
    (c.retained.foldl Cache.settle { c with retained := [] }).drain.known
  refine ⟨fun k hk => ?_, fun _ => by simp⟩
  simpa using hclosed.kept k hk

theorem Custody.handle [RecordHost σ ρ] {s : Setup σ ρ} {record : Object} (h : Custody c [])
    (hdropped : c.dropped = false) : Custody (c.handle s record).2 [] := by
  have hlookup := lookup_spec c s (RecordHost.flags c.world.host record)
  unfold Cache.handle
  split <;> rename_i heq <;> rw [heq] at hlookup
  · exact hlookup.custody h hdropped
  · exact ((hlookup.custody h hdropped).query (hlookup.held rfl)).release

theorem Custody.perform [RecordHost σ ρ] {s : Setup σ ρ} (h : Custody c []) (op : Operation σ)
    (hop : op.Allowed c) : Custody (op.perform s c) [] := by
  cases op with
  | lookup flags => exact (lookup_spec c s flags).custody h hop
  | handle record => exact h.handle hop
  | reload => exact h.reload
  | drop => exact h.drop hop
  | pin t => exact h.hold
  | unpin t => exact h.release
  | prepare t => exact h.prepare hop.held
  | query t record => exact h.query hop.held
  | bindValues t record => exact h.bindValues
  | elsewhere host => exact h.of_frame (fun _ hk => hk) rfl rfl rfl rfl

theorem Run.custody [RecordHost σ ρ] {s : Setup σ ρ} {w : World σ δ} {past : List (Cache σ δ)}
    (h : Run s w (c :: past)) : Custody c [] := by
  refine Run.invariant (P := fun c => Custody c []) ?_ (fun c op hc hop => hc.perform op hop) h
  refine ⟨?_, fun _ => ⟨rfl, rfl⟩⟩
  rintro k ⟨e, he, -⟩
  simp [Cache.start, Cache.empty] at he

end FlagSelect.Cache
