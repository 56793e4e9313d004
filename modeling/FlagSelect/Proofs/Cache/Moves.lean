import FlagSelect.Proofs.Cache.Upkeep
import Mathlib.Logic.Relation

/-!
# The single moves of a cache

A caller may let go of an executor on another thread while a function of the cache is under way, so
that notices come at any time and wait for any while. `Move` lists the single things that can happen
to a cache, and every function of the cache is a sequence of them (`Run.moves`); what one move keeps
is thus kept however the functions of a cache and its callers come between each other. Main
statements: `Tracked.moves`, `Run.moves`.
-/

namespace FlagSelect.Cache

variable {σ δ ρ : Type} [Driver δ] {s : Setup σ ρ} {c c' : Cache σ δ}
  {t u : Ticket} {ts : List Ticket} {i k n : Nat} {flags : Flags} {o : Option Ticket}

/-- One thing that can happen to a cache, on whatever thread. -/
inductive Move [RecordHost σ ρ] (s : Setup σ ρ) : Cache σ δ → Cache σ δ → Prop where
  /-- An executor is made, and held by who makes it. -/
  | make {c : Cache σ δ} {flags : Flags} {plan : Plan σ} : s.template.plan flags = .ok plan →
      Move s c (c.enlist flags plan)
  | prepare {c : Cache σ δ} (t : Ticket) : Move s c (c.prepare t).2
  | query {c : Cache σ δ} (t : Ticket) (record : Object) : Move s c (c.query s t record).2
  | close {c : Cache σ δ} (t : Ticket) : Move s c (c.closeQuietly t)
  | elsewhere {c : Cache σ δ} (host : σ) : Move s c { c with world := { c.world with host } }
  /-- Callers and the retention list let go of executors, and take hold of such as are alive. -/
  | keep {c : Cache σ δ} (held : List Nat) (retained : List Ticket) :
      (∀ k, k ∈ held ∨ Names retained k → c.Kept k) → (∀ t ∈ retained, c.Made t) →
      Move s c { c with held, retained }
  /-- A notice of a dead executor joins the queue. -/
  | post {c : Cache σ δ} {t : Ticket} : c.Made t → ¬ c.Kept t.number →
      Move s c { c with notices := c.notices ++ [t] }
  /-- Notices leave the queue. -/
  | serve {c : Cache σ δ} {notices : List Ticket} : notices ⊆ c.notices →
      Move s c { c with notices }
  /-- The slot for some flags is freed, or taken by an executor for these flags. -/
  | write {c : Cache σ δ} {flags : Flags} {o : Option Ticket} :
      (∀ t, o = some t → c.Made t ∧ t.flags = flags) → Move s c (c.setSlot flags o)
  /-- The table is replaced by an empty one. -/
  | resize {c : Cache σ δ} (n : Nat) : Move s c { c with slots := Array.replicate n none }
  | note {c : Cache σ δ} (evicted : List Ticket) (counters : Counters) (dropped : Bool) :
      Move s c { c with evicted, counters, dropped }

/-- Whatever moves lead from one state of a cache to another. -/
abbrev Moves [RecordHost σ ρ] (s : Setup σ ρ) : Cache σ δ → Cache σ δ → Prop :=
  Relation.ReflTransGen (Move s)

/-! ## What every move keeps -/

/-- Whether each executor in the table stands in the slot for its flags, all executors known to the
cache have been made for the flags that they are known under, and those with a notice among `ts`
are dead. -/
structure Tracked (c : Cache σ δ) (ts : List Ticket) : Prop where
  seated : Seated c
  made : ∀ t, c.InTable t ∨ t ∈ c.retained ∨ t ∈ ts → c.Made t
  dead : ∀ t ∈ ts, ¬ c.Kept t.number

theorem Tracked.congr (h : Tracked c ts) (hslots : c'.slots = c.slots) (hheld : c'.held = c.held)
    (hretained : c'.retained = c.retained)
    (hplans : planAt c'.executors = planAt c.executors) : Tracked c' ts where
  seated i t ht := by
    rw [Seats, hslots] at ht
    rw [capacity, hslots]
    exact h.seated i t ht
  made t ht := by
    simp only [InTable, Seats, hslots, hretained] at ht
    exact (h.made t ht).congr hplans
  dead t ht := by
    rw [kept_congr hheld hretained]
    exact h.dead t ht

theorem seats_of_setSlot (h : (c.setSlot flags o).Seats i t) :
    (i = slotIndex c.capacity flags ∧ o = some t) ∨ c.Seats i t := by
  simp only [Seats, setSlot, Array.getElem?_setIfInBounds] at h
  split at h
  next hi =>
    split at h
    · exact .inl ⟨hi.symm, Option.some.inj h⟩
    · cases h
  next => exact .inr h

theorem not_seats_replicate :
    ¬ ({ c with slots := Array.replicate n none } : Cache σ δ).Seats i t := by
  simp [Seats, Array.getElem?_replicate]

theorem Tracked.setSlot (h : Tracked c ts) (ho : ∀ t, o = some t → c.Made t ∧ t.flags = flags) :
    Tracked (c.setSlot flags o) ts where
  seated i t ht := by
    rw [capacity_setSlot]
    rcases seats_of_setSlot ht with ⟨rfl, hsome⟩ | ht
    · rw [(ho t hsome).2]
    · exact h.seated i t ht
  made t ht := by
    rcases ht with ⟨i, hi⟩ | ht
    · rcases seats_of_setSlot hi with ⟨-, hsome⟩ | hi
      · exact (ho t hsome).1
      · exact h.made t (.inl ⟨i, hi⟩)
    · exact h.made t (.inr ht)
  dead := h.dead

theorem Tracked.move [RecordHost σ ρ] (h : Tracked c c.notices) (hm : Move s c c') :
    Tracked c' c'.notices := by
  cases hm with
  | make hplan =>
      constructor
      case seated => exact h.seated
      case made => exact fun t ht => (h.made t ht).enlist
      case dead =>
        intro t ht hk
        rcases kept_enlist.mp hk with hk | hk
        · exact Nat.ne_of_lt (h.made t (.inr (.inr ht))).lt hk
        · exact h.dead t ht hk
  | prepare t =>
      rw [prepare_frame.2.2.2.2.1]
      exact h.congr (by simp) (by simp) (by simp) (by simp)
  | query t record =>
      rw [query_frame.2.2.2.2.1]
      exact h.congr (by simp) (by simp) (by simp) (by simp)
  | close t =>
      rw [closeQuietly_frame.2.2.2.2.1]
      exact h.congr (by simp) (by simp) (by simp) (by simp)
  | elsewhere host => exact h.congr rfl rfl rfl rfl
  | keep held retained hkept hmade =>
      constructor
      case seated => exact h.seated
      case made =>
        rintro t (ht | ht | ht)
        · exact h.made t (.inl ht)
        · exact hmade t ht
        · exact h.made t (.inr (.inr ht))
      case dead => exact fun t ht hk => h.dead t ht (hkept _ hk)
  | post ht hdead =>
      constructor
      case seated => exact h.seated
      case made =>
        rintro u (hu | hu | hu)
        · exact h.made u (.inl hu)
        · exact h.made u (.inr (.inl hu))
        · rcases List.mem_append.mp hu with hu | hu
          · exact h.made u (.inr (.inr hu))
          · exact List.mem_singleton.mp hu ▸ ht
      case dead =>
        intro u hu
        rcases List.mem_append.mp hu with hu | hu
        · exact h.dead u hu
        · exact List.mem_singleton.mp hu ▸ hdead
  | serve hsub =>
      constructor
      case seated => exact h.seated
      case made => exact fun t ht => h.made t (ht.imp_right (Or.imp_right (hsub ·)))
      case dead => exact fun t ht => h.dead t (hsub ht)
  | write ho => exact h.setSlot ho
  | resize n =>
      constructor
      case seated => exact fun i t ht => absurd ht not_seats_replicate
      case made =>
        rintro t (⟨i, hi⟩ | ht)
        · exact absurd hi not_seats_replicate
        · exact h.made t (.inr ht)
      case dead => exact h.dead
  | note evicted counters dropped => exact h.congr rfl rfl rfl rfl

theorem Tracked.moves [RecordHost σ ρ] (h : Tracked c c.notices) (hm : Moves s c c') :
    Tracked c' c'.notices := by
  induction hm with
  | refl => exact h
  | tail _ hmove ih => exact ih.move hmove

theorem tracked_start {w : World σ δ} : Tracked (start s w) (start s w).notices where
  seated i t ht := by simp [start, empty, Seats, Array.getElem?_replicate] at ht
  made t ht := by simp [start, empty, InTable, Seats, Array.getElem?_replicate] at ht
  dead t ht := by cases ht

/-! ## The functions of a cache -/

theorem Synthesis.madeFor {r : Except Error Ticket × Cache σ δ} (hr : Synthesis s c flags r)
    (ht : r.1 = .ok t) : r.2.Made t := by
  cases hr with
  | noPlan _ => cases ht
  | unprepared _ _ _ => cases ht
  | prepared hplan _ _ =>
      cases ht
      exact (made_nextTicket (Template.plan_ok hplan).1).congr (by simp)
  | postponed hplan _ =>
      cases ht
      exact (made_nextTicket (Template.plan_ok hplan).1).congr rfl

section Functions

variable [RecordHost σ ρ]

theorem moves_settle (ht : c.Made t) : Moves s c (c.settle t) := by
  unfold settle
  split
  · exact .refl
  next halive =>
    split
    · exact .single (.close t)
    · exact .single (.post ht (by rwa [← alive_iff_kept]))

theorem moves_settleAll (hts : ∀ t ∈ ts, c.Made t) : Moves s c (ts.foldl settle c) := by
  induction ts generalizing c with
  | nil => exact .refl
  | cons t ts ih =>
      have hrest (u : Ticket) (hu : u ∈ ts) : (c.settle t).Made u :=
        (hts u (List.mem_cons_of_mem t hu)).congr (by simp)
      exact (moves_settle (hts t List.mem_cons_self)).trans (ih hrest)

theorem moves_closeAll (ts : List Ticket) : Moves s c (ts.foldl closeQuietly c) := by
  induction ts generalizing c with
  | nil => exact .refl
  | cons t ts ih => exact .head (.close t) ih

theorem moves_hold (hlive : c.Kept t.number) (h : Tracked c ts) : Moves s c (c.hold t) := by
  refine .single (.keep (t.number :: c.held) c.retained ?_ fun u hu => h.made u (.inr (.inl hu)))
  rintro k (hk | hk)
  · rcases List.mem_cons.mp hk with rfl | hk
    · exact hlive
    · exact .inl hk
  · exact .inr hk

theorem moves_release (ht : c.Made t) (h : Tracked c ts) : Moves s c (c.release t) := by
  unfold release
  split
  · refine .head (.keep (c.held.erase t.number) c.retained ?_ fun u hu => ?_)
      (moves_settle (ht.congr rfl))
    · exact fun k hk => hk.imp_left List.mem_of_mem_erase
    · exact h.made u (.inr (.inl hu))
  · exact .refl

/-- When some of the retained give way to executors that are alive, they are settled. -/
theorem moves_retained {rs us : List Ticket} (hrs : ∀ r ∈ rs, c.Kept r.number ∧ c.Made r)
    (hus : ∀ u ∈ us, c.Made u) :
    Moves s c (us.foldl settle { c with retained := rs }) := by
  refine .head (.keep c.held rs ?_ fun r hr => (hrs r hr).2) (moves_settleAll hus)
  rintro k (hk | ⟨r, hr, rfl⟩)
  · exact .inl hk
  · exact (hrs r hr).1

theorem Tracked.retained (h : Tracked c ts) (ht : t ∈ c.retained) :
    c.Kept t.number ∧ c.Made t :=
  ⟨.inr ⟨t, ht, rfl⟩, h.made t (.inr (.inl ht))⟩

theorem moves_retain {limit : Nat} (ht : c.Kept t.number ∧ c.Made t) (h : Tracked c ts) :
    Moves s c (c.retain limit t) := by
  unfold retain
  split
  · exact .refl
  · have hlatest (u : Ticket) (hu : u ∈ t :: c.retained.filter (·.flags != t.flags)) :
        c.Kept u.number ∧ c.Made u := by
      rcases List.mem_cons.mp hu with rfl | hu
      · exact ht
      · exact h.retained (List.mem_of_mem_filter hu)
    refine moves_retained (fun u hu => hlatest u (List.mem_of_mem_take hu)) fun u hu => ?_
    rcases List.mem_append.mp hu with hu | hu
    · exact (h.retained (List.mem_of_mem_filter hu)).2
    · exact (hlatest u (List.mem_of_mem_drop hu)).2

theorem moves_dismiss (h : Tracked c ts) : Moves s c (c.dismiss flags) :=
  moves_retained (fun _ hu => h.retained (List.mem_of_mem_filter hu))
    fun _ hu => (h.retained (List.mem_of_mem_filter hu)).2

theorem moves_rehash (ho : ∀ t, o = some t → c.Made t) : Moves s c (c.rehash o) := by
  cases o with
  | none => exact .refl
  | some r =>
      simp only [rehash]
      split
      · refine .single (.write fun t ht => ?_)
        cases ht
        exact ⟨ho r rfl, rfl⟩
      · exact .single (.close r)

theorem moves_grow (h : Tracked c ts) : Moves s c c.grow := by
  have hfold (os : List (Option Ticket)) (c : Cache σ δ) (hos : ∀ t, some t ∈ os → c.Made t) :
      Moves s c (os.foldl rehash c) := by
    induction os generalizing c with
    | nil => exact .refl
    | cons o os ih =>
        have hrest (t : Ticket) (ht : some t ∈ os) : (c.rehash o).Made t :=
          (hos t (List.mem_cons_of_mem o ht)).congr (by simp)
        refine (moves_rehash fun t ht => ?_).trans (ih _ hrest)
        exact hos t (ht ▸ List.mem_cons_self)
  have hslots (t : Ticket) (ht : some t ∈ c.slots.toList) : c.Made t :=
    h.made t (.inl (mem_slots_iff.mp ht))
  have hwiden : Moves s c c.widened := .single (.resize (2 * c.capacity))
  exact (hwiden.trans (hfold c.slots.toList c.widened hslots)).tail (.note _ _ _)

theorem moves_evict (h : Tracked c ts) : Moves s c (c.evict t) := by
  have hclosed : Tracked (c.closeQuietly t) ts :=
    h.congr (by simp) (by simp) (by simp) (by simp)
  exact .head (.close t) ((moves_dismiss hclosed).tail (.note _ _ _))

theorem moves_place (maxCapacity n : Nat) (ht : c.Made t) (h : Tracked c c.notices) :
    Moves s c (c.place maxCapacity t n) := by
  apply And.left
  apply place_keeps
    (P := fun d => Moves s c d ∧ planAt d.executors = planAt c.executors)
  case hc => exact ⟨.refl, rfl⟩
  case hseat =>
    refine fun d hd => ⟨hd.1.tail (.write fun u hu => ?_), hd.2⟩
    cases hu
    exact ⟨ht.congr hd.2, rfl⟩
  case hclose => exact fun _ r hd => ⟨hd.1.tail (.close r), by simpa using hd.2⟩
  case hgrow => exact fun _ hd => ⟨hd.1.trans (moves_grow (h.moves hd.1)), by simpa using hd.2⟩
  case hevict => exact fun _ _ hd => ⟨hd.1.trans (moves_evict (h.moves hd.1)), by simpa using hd.2⟩

theorem moves_reclaim : Moves s c (c.reclaim t) := by
  unfold reclaim
  dsimp only
  split
  · refine .head (.close t) (.head (.write fun _ hu => ?_) (.single (.note _ _ _)))
    cases hu
  · exact .head (.close t) (.single (.note _ _ _))

theorem moves_drain : Moves s c c.drain := by
  have hfold (ts : List Ticket) (c : Cache σ δ) : Moves s c (ts.foldl reclaim c) := by
    induction ts generalizing c with
    | nil => exact .refl
    | cons t ts ih => exact moves_reclaim.trans (ih _)
  exact .head (.serve (List.nil_subset _)) ((hfold c.notices _).tail (.note _ _ _))

theorem Synthesis.moves {r : Except Error Ticket × Cache σ δ} (hr : Synthesis s c flags r)
    (h : Tracked c c.notices) : Moves s c r.2 := by
  cases hr with
  | noPlan _ => exact .refl
  | @unprepared plan _ hplan _ _ =>
      have hprepare : Moves s c ((c.enlist flags plan).prepare (c.nextTicket flags)).2 :=
        .head (.make hplan) (.single (.prepare _))
      have hmade := made_nextTicket (c := c) (Template.plan_ok hplan).1
      exact hprepare.trans (moves_release (hmade.congr (by simp)) (h.moves hprepare))
  | prepared hplan _ _ => exact .head (.make hplan) (.head (.prepare _) (.single (.note _ _ _)))
  | postponed hplan _ => exact .head (.make hplan) (.single (.note _ _ _))

/-- A new executor can be put into the table, whether or not the notices were worked off. -/
theorem Synthesis.moves_place {r : Except Error Ticket × Cache σ δ} (hr : Synthesis s c flags r)
    (h : Tracked c c.notices) (ht : r.1 = .ok t) (maxCapacity n : Nat) :
    Moves s c (r.2.place maxCapacity t n) :=
  (hr.moves h).trans (Cache.moves_place maxCapacity n (hr.madeFor ht) (h.moves (hr.moves h)))

theorem Lookup.moves {r : Except Error Ticket × Cache σ δ} (hr : Lookup s c flags r)
    (h : Tracked c c.notices) : Moves s c r.2 := by
  have hdrain : Moves s c c.drain := moves_drain
  have htracked := h.moves hdrain
  cases hr with
  | @hit t hhit =>
      have hlive : c.drain.Kept t.number := alive_iff_kept.mp hhit.2.2
      have hmade := htracked.made t (.inl (.of_resident? hhit.1))
      have hcount : Moves s c c.drain.countHit := hdrain.tail (.note _ _ _)
      have hhold := hcount.trans (moves_hold hlive (h.moves hcount))
      exact hhold.trans (moves_retain ⟨.inl List.mem_cons_self, hmade.congr rfl⟩ (h.moves hhold))
  | failed _ hsyn => exact hdrain.trans (hsyn.moves htracked)
  | made _ hsyn =>
      have hplace := hdrain.trans (hsyn.moves_place htracked rfl s.settings.maxCapacity
        s.settings.maxCapacity.log2)
      refine hplace.trans (moves_retain ⟨.inl ?_, (hsyn.madeFor rfl).congr (by simp)⟩
        (h.moves hplace))
      simpa using hsyn.held rfl

theorem Lookup.madeFor {r : Except Error Ticket × Cache σ δ} (hr : Lookup s c flags r)
    (h : Tracked c c.notices) (ht : r.1 = .ok t) : r.2.Made t := by
  cases hr with
  | hit hhit =>
      cases ht
      have htracked := h.moves (moves_drain (s := s))
      exact (htracked.made t (.inl (.of_resident? hhit.1))).congr (by simp [Cache.hold])
  | failed _ _ => cases ht
  | made _ hsyn =>
      cases ht
      exact (hsyn.madeFor rfl).congr (by simp)

theorem moves_handle {record : Object} (h : Tracked c c.notices) :
    Moves s c (c.handle s record).2 := by
  have hspec := lookup_spec c s (RecordHost.flags c.world.host record)
  unfold handle
  split <;> rename_i heq <;> rw [heq] at hspec
  · exact hspec.moves h
  next t _ =>
    have hquery := (hspec.moves h).tail (.query t record)
    exact hquery.trans (moves_release ((hspec.madeFor h rfl).congr (by simp)) (h.moves hquery))

theorem moves_reload : Moves s c c.reload.2 := by
  rw [reload_snd]
  exact moves_drain.trans (moves_closeAll _)

theorem moves_drop (h : Tracked c c.notices) : Moves s c c.drop := by
  have hsettle : Moves s c (c.retained.foldl settle { c with retained := [] }) :=
    moves_retained (fun _ hr => by cases hr) fun _ hu => (h.retained hu).2
  exact ((hsettle.trans moves_drain).trans (moves_closeAll _)).trans
    (.head (.resize 0) (.single (.note [] _ true)))

theorem moves_bindValues {record : Object} : Moves s c (c.bindValues s t record).2 := by
  unfold bindValues
  split
  · exact .refl
  · exact .single (.elsewhere _)

theorem Operation.moves (op : Operation σ) (hop : op.Allowed c) (h : Tracked c c.notices) :
    Moves s c (op.perform s c) := by
  cases op with
  | lookup flags => exact (lookup_spec c s flags).moves h
  | handle record => exact moves_handle h
  | reload => exact moves_reload
  | drop => exact moves_drop h
  | pin t => exact moves_hold (.inl hop.held) h
  | unpin t => exact moves_release hop.made h
  | prepare t => exact .single (.prepare t)
  | query t record => exact .single (.query t record)
  | bindValues t record => exact moves_bindValues
  | elsewhere host => exact .single (.elsewhere host)

/-- A run is a sequence of moves. -/
theorem Run.moves {w : World σ δ} {past : List (Cache σ δ)} (h : Run s w (c :: past)) :
    Moves s (Cache.start s w) c :=
  h.invariant (P := fun c => Moves s (Cache.start s w) c) .refl fun _ op hc hop =>
    hc.trans (op.moves hop (tracked_start.moves hc))

theorem Run.tracked {w : World σ δ} {past : List (Cache σ δ)} (h : Run s w (c :: past)) :
    Tracked c c.notices :=
  tracked_start.moves h.moves

end Functions

end FlagSelect.Cache
