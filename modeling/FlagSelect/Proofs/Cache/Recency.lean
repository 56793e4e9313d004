import FlagSelect.Proofs.Cache.Reclamation
import FlagSelect.Proofs.Cache.Served
import Mathlib.Data.Finset.Card

/-!
# Least recently used

As long as all flags looked up have slots of their own in a table of full size, the retention list
holds the flags used last, each once, and a lookup for which no caller holds the executor finds it
by how many other flags have been used since. Main statement: `Chronicle.least_recent`.
-/

namespace FlagSelect.Cache

variable {f g : Flags} {fs : List Flags} {n : Nat}

/-! ## The flags used last -/

/-- The flags in a history of uses, each at its latest one. -/
def recency : List Flags → List Flags
  | [] => []
  | f :: fs => f :: (recency fs).filter (· ≠ f)

theorem nodup_recency (fs : List Flags) : (recency fs).Nodup := by
  induction fs with
  | nil => exact .nil
  | cons f fs ih =>
      refine List.nodup_cons.mpr ⟨fun hf => ?_, ih.filter _⟩
      simpa using List.of_mem_filter hf

@[simp] theorem mem_recency : f ∈ recency fs ↔ f ∈ fs := by
  induction fs with
  | nil => rfl
  | cons g fs ih =>
      by_cases hf : f = g
      · simp [recency, hf]
      · simp [recency, hf, ih]

theorem takeWhile_filter_ne (hne : f ≠ g) (fs : List Flags) :
    (fs.filter (· ≠ g)).takeWhile (· ≠ f) = (fs.takeWhile (· ≠ f)).filter (· ≠ g) := by
  induction fs with
  | nil => rfl
  | cons h fs ih =>
      by_cases hg : h = g
      · subst hg
        simpa [hne.symm] using ih
      · by_cases hf : h = f
        · simp [hf, hne]
        · simpa [hf, hg] using ih

/-- Before some flags come just those that have been used since. -/
theorem takeWhile_recency (fs : List Flags) :
    ((recency fs).takeWhile (· ≠ f)).toFinset = (fs.takeWhile (· ≠ f)).toFinset := by
  induction fs with
  | nil => rfl
  | cons g fs ih =>
      by_cases hg : g = f
      · simp [recency, hg]
      · have hfilter := takeWhile_filter_ne (Ne.symm hg) (recency fs)
        ext h
        have ih := Finset.ext_iff.mp ih h
        by_cases hh : h = g <;> simp_all [recency]

theorem mem_take_iff (fs : List Flags) :
    f ∈ fs.take n ↔ f ∈ fs ∧ (fs.takeWhile (· ≠ f)).length < n := by
  induction fs generalizing n with
  | nil => simp
  | cons g fs ih =>
      cases n with
      | zero => simp
      | succ n =>
          by_cases hg : g = f
          · simp [hg]
          · simp [hg, Ne.symm hg, ih]

/-- How far back the latest use of some flags is, counted in other flags used since. -/
theorem mem_take_recency : f ∈ (recency fs).take n ↔
    f ∈ fs ∧ (fs.takeWhile (· ≠ f)).toFinset.card < n := by
  have hnodup : ((recency fs).takeWhile (· ≠ f)).Nodup :=
    (nodup_recency fs).sublist (List.takeWhile_sublist _)
  rw [mem_take_iff, mem_recency, ← takeWhile_recency, List.toFinset_card_of_nodup hnodup]

/-- What is behind the last that there is room for plays no part when others come to the front. -/
theorem take_filter_take (h : fs.Nodup) :
    ((fs.take (n + 1)).filter (· ≠ f)).take n = (fs.filter (· ≠ f)).take n := by
  induction fs generalizing n with
  | nil => simp
  | cons g fs ih =>
      obtain ⟨hg, hfs⟩ := List.nodup_cons.mp h
      by_cases hgf : g = f
      · subst hgf
        have hall (k : Nat) : (fs.take k).filter (· ≠ g) = fs.take k :=
          List.filter_eq_self.mpr fun x hx => by
            simpa using fun (hxg : x = g) => hg (hxg ▸ List.mem_of_mem_take hx)
        have hself : fs.filter (· ≠ g) = fs := by simpa using hall fs.length
        have hgone (gs : List Flags) : (g :: gs).filter (· ≠ g) = gs.filter (· ≠ g) :=
          List.filter_cons_of_neg (by simp)
        rw [List.take_succ_cons, hgone, hgone, hall, hself, List.take_take, Nat.min_self]
      · cases n with
        | zero => simp
        | succ n => simpa [hgf] using ih hfs

theorem take_recency_cons (fs : List Flags) :
    (f :: ((recency fs).take n).filter (· ≠ f)).take n = (recency (f :: fs)).take n := by
  cases n with
  | zero => rfl
  | succ n => rw [recency, List.take_succ_cons, List.take_succ_cons, take_filter_take
      (nodup_recency fs)]

/-! ## Retention -/

variable {σ δ ρ : Type} [Driver δ] {s : Setup σ ρ} {c c' : Cache σ δ} {t : Ticket} {k : Nat}
  {flags : Flags}

theorem map_latest {limit : Nat} (ts : List Ticket) : (latest limit t ts).map Ticket.flags =
    (t.flags :: (ts.map Ticket.flags).filter (· ≠ t.flags)).take limit := by
  simp [latest, List.map_take, List.filter_map, Function.comp_def, bne, beq_eq_decide]

theorem Orderly.present_iff (h : Orderly s c []) (hheld : c.held = []) :
    c.Present flags t ↔ t ∈ c.retained ∧ t.flags = flags := by
  constructor
  · rintro ⟨ht, hlive, hflags⟩
    rw [Kept, hheld] at hlive
    obtain ⟨u, hu, hnumber⟩ := hlive.resolve_left List.not_mem_nil
    have hmade := h.made u (.inl (.inl (h.retained u hu)))
    exact ⟨hmade.eq (h.made t (.inl (.inl ht))) hnumber ▸ hu, hflags⟩
  · rintro ⟨ht, hflags⟩
    exact ⟨h.retained t ht, .inr ⟨t, ht, rfl⟩, hflags⟩

/-! ## Closing -/

theorem ClosesSome.hasOpen (h : ClosesSome c c') (hk : c'.HasOpen k) : c.HasOpen k := by
  obtain ⟨ts, hts⟩ := h
  exact (hts.hasOpen.mp hk).2

theorem Synthesis.hasOpen {x : Except Error Ticket × Cache σ δ} (h : Synthesis s c flags x)
    (hk : x.2.HasOpen k) : k = c.executors.size ∨ c.HasOpen k := by
  have hprepare {plan : Plan σ}
      (hk : ((c.enlist flags plan).prepare (c.nextTicket flags)).2.HasOpen k) :
      k = c.executors.size ∨ c.HasOpen k :=
    (hasOpen_of_prepare hk).imp_right hasOpen_enlist.mp
  cases h with
  | noPlan _ => exact .inr hk
  | unprepared _ _ _ => exact hprepare (closes_release.hasOpen hk)
  | prepared _ _ _ => exact hprepare hk
  | @postponed plan _ _ =>
      have hk : (c.enlist flags plan).HasOpen k := hk
      exact .inr (hasOpen_enlist.mp hk)

theorem Lookup.hasOpen {x : Except Error Ticket × Cache σ δ} (h : Lookup s c flags x)
    (hk : x.2.HasOpen k) : k = c.executors.size ∨ c.drain.HasOpen k := by
  have hsize : c.drain.executors.size = c.executors.size := drain_frame.2.2.2.2.1
  cases h with
  | @hit t _ =>
      have hk : (c.drain.countHit.hold t).HasOpen k := closes_retain.hasOpen hk
      exact .inr hk
  | failed _ hsyn => exact hsize ▸ hsyn.hasOpen hk
  | made _ hsyn =>
      exact hsize ▸ hsyn.hasOpen (closes_place.hasOpen (closes_retain.hasOpen hk))

variable [RecordHost σ ρ] {w : World σ δ} {past : List (Deed σ δ)}

theorem hasOpen_of_handle {record : Object} (hk : (c.handle s record).2.HasOpen k) :
    k = c.executors.size ∨ c.drain.HasOpen k ∨
      ∃ t, (⟨c, .handle record⟩ : Deed σ δ).given? s = some t ∧ k = t.number := by
  have hspec := lookup_spec c s (RecordHost.flags c.world.host record)
  have hgiven (t : Ticket) := Deed.given?_eq_some (s := s) (t := t)
    (x := (⟨c, .handle record⟩ : Deed σ δ)) rfl
  unfold handle at hk
  split at hk <;> rename_i heq <;> rw [heq] at hspec
  · exact (hspec.hasOpen hk).imp_right .inl
  next t _ =>
    rcases hasOpen_of_query (closes_release.hasOpen hk) with hk | hk
    · exact .inr (.inr ⟨t, (hgiven t).mpr (congrArg Prod.fst heq), hk⟩)
    · exact (hspec.hasOpen hk).imp_right .inl

theorem Turn.alive_or_new {x : Deed σ δ} (h : Turn s x) (ht : x.given? s = some t) :
    x.before.Kept t.number ∨ t.number = x.before.executors.size := by
  by_cases hhit : x.Hits s
  · obtain ⟨flags, u, hsought, hu⟩ := h.hits.mp hhit
    obtain rfl : u = t := Option.some.inj ((h.same flags u hsought hu).symm.trans ht)
    exact .inl hu.2.1
  · exact .inr (h.made t (h.makes t ht hhit)).1

/-- The next lookup or reload closes the statements of the dead. -/
theorem Orderly.not_hasOpen (hv : s.settings.Valid) (h : Orderly s c []) (hcustody : Custody c [])
    (ht : c.Made t) (hdead : ¬ c.Kept t.number) (op : Operation σ)
    (hop : (op.sought c).isSome ∨ op = .reload) : ¬ (op.perform s c).HasOpen t.number := by
  have hdrain : ¬ c.drain.HasOpen t.number := fun hk =>
    hdead (kept_drain.mp ((h.swept hcustody).closed _ hk))
  have hold : t.number ≠ c.executors.size := Nat.ne_of_lt ht.lt
  -- What the operation itself opens belongs to someone who is alive or new.
  intro hk
  cases op with
  | lookup flags => exact ((lookup_spec c s flags).hasOpen hk).elim hold hdrain
  | handle record =>
      rcases hasOpen_of_handle hk with hk | hk | ⟨u, hu, hk⟩
      · exact hold hk
      · exact hdrain hk
      · have hturn := h.turn_of_sought hv (.handle record) rfl
        rcases hturn.alive_or_new hu with hlive | hnew
        · exact hdead (hk ▸ hlive)
        · exact hold (hk.trans hnew)
  | reload =>
      have hk : c.reload.2.HasOpen t.number := hk
      rw [reload_snd] at hk
      exact hdrain ((Closes.closeAll _ _).hasOpen.mp hk).2
  | drop | pin _ | unpin _ | prepare _ | query _ _ | bindValues _ _ | elsewhere _ =>
      rcases hop with hop | hop <;> cases hop

/-! ## Least recently used -/

theorem Chronicle.map_retained (hv : s.settings.Valid) (h : Chronicle s w past c)
    (hdropped : c.dropped = false) (hapart : Apart s.settings.maxCapacity (used s past)) :
    c.retained.map Ticket.flags = (recency (used s past)).take s.settings.retained := by
  refine h.induct (P := fun past c => Apart s.settings.maxCapacity (used s past) →
    c.retained.map Ticket.flags = (recency (used s past)).take s.settings.retained) hv ?_
    (fun x past hpast ih hc hop hafter hapart => ?_) hdropped hapart
  · exact fun _ => List.take_nil.symm
  · have hturn := hc.turn hv hop hafter.dropped
    have hbefore := ih (hapart.mono used_subset_cons)
    rw [hturn.retained (hturn.not_displaces hapart fun u hu => hpast.mem_served hv hc.dropped hu)]
    cases hgiven : x.given? s with
    | none => rw [used_of_not_given hgiven, Option.elim_none, hbefore]
    | some t => rw [used_of_given hgiven, Option.elim_some, map_latest, hbefore, take_recency_cons]

/-- Where callers hold nothing and all flags looked up so far have slots of their own in a table of
full size, a lookup that comes to an executor finds it if its flags have been looked up before and
fewer other flags since than there is room for, and makes it otherwise. The statement of an executor
that is retained no more is closed by the next lookup or reload. -/
theorem Chronicle.least_recent (hs : s.settings.defect? = none) (h : Chronicle s w past c)
    (hdropped : c.dropped = false) (hheld : c.held = [])
    (hapart : Apart s.settings.maxCapacity (used s past)) :
    (∀ (op : Operation σ) t, (⟨c, op⟩ : Deed σ δ).given? s = some t →
      ((⟨c, op⟩ : Deed σ δ).Hits s ↔ t.flags ∈ used s past ∧
        ((used s past).takeWhile (· ≠ t.flags)).toFinset.card < s.settings.retained) ∧
      (¬ (⟨c, op⟩ : Deed σ δ).Hits s → (⟨c, op⟩ : Deed σ δ).Makes s t)) ∧
    ∀ t ∈ served s past, t ∉ c.retained → ∀ op : Operation σ,
      (op.sought c).isSome ∨ op = .reload → ¬ (op.perform s c).HasOpen t.number := by
  have hv := Settings.valid_of_defect? hs
  have hc := h.run.orderly hv hdropped
  refine ⟨fun op t ht => ?_, fun t ht hgone op hop => ?_⟩
  · obtain ⟨flags, hsought, -⟩ := Option.bind_eq_some_iff.mp ht
    have hturn := hc.turn_of_sought hv op hsought
    have hflags := (hturn.given t ht).1
    refine ⟨?_, hturn.makes t ht⟩
    rw [← mem_take_recency, ← h.map_retained hv hdropped hapart, hturn.hits, List.mem_map]
    constructor
    · rintro ⟨flags, u, hsought, hu⟩
      cases hflags.symm.trans hsought
      exact ⟨u, (hc.present_iff hheld).mp hu⟩
    · rintro ⟨u, hu⟩
      exact ⟨t.flags, u, hflags, (hc.present_iff hheld).mpr hu⟩
  · have hmade := h.made_of_mem_served hv hdropped ht
    refine hc.not_hasOpen hv h.run.custody hmade (fun hlive => hgone ?_) op hop
    rw [Kept, hheld] at hlive
    obtain ⟨u, hu, hnumber⟩ := hlive.resolve_left List.not_mem_nil
    exact (hc.made u (.inl (.inl (hc.retained u hu)))).eq hmade hnumber ▸ hu

/-- A table that keeps the two executors used last, and whose slots are enough for four. -/
def lastTwo : Setup Scripted.Host (List Value) :=
  { plainQuery with settings := { initialCapacity := 1, maxCapacity := 4, retained := 2 } }

/-- Of three executors, none of them held, the first has fallen out, though its statement is still
open. It is made once more, and the second one is found. -/
theorem least_recent_of_three : ∃ c past, Chronicle lastTwo stubbornWorld past c ∧
    c.held = [] ∧ used lastTwo past = [2, 1, 0] ∧ c.HasOpen 0 ∧
    (⟨c, .lookup 1⟩ : Deed _ _).Hits lastTwo ∧
    (⟨c, .lookup 0⟩ : Deed _ _).Makes lastTwo ⟨0, 3⟩ ∧
    ¬ ((Operation.lookup 1).perform lastTwo c).HasOpen 0 := by
  have h := Chronicle.start (s := lastTwo) (w := stubbornWorld)
    |>.perform (.lookup 0) rfl
    |>.perform (.unpin ⟨0, 0⟩) (.of_planAt (by decide +kernel) (by decide +kernel))
    |>.perform (.lookup 1) rfl
    |>.perform (.unpin ⟨1, 1⟩) (.of_planAt (by decide +kernel) (by decide +kernel))
    |>.perform (.lookup 2) rfl
    |>.perform (.unpin ⟨2, 2⟩) (.of_planAt (by decide +kernel) (by decide +kernel))
  obtain ⟨hlookup, hclosed⟩ := h.least_recent (by decide) rfl rfl (by decide +kernel)
  have hmiss := (hlookup (.lookup 0) ⟨0, 3⟩ rfl).1.not.mpr (by decide +kernel)
  refine ⟨_, _, h, rfl, by decide +kernel, ⟨_, rfl, rfl⟩, ?_, ?_, ?_⟩
  · exact (hlookup (.lookup 1) ⟨1, 1⟩ rfl).1.mpr (by decide +kernel)
  · exact (hlookup (.lookup 0) ⟨0, 3⟩ rfl).2 hmiss
  · exact hclosed ⟨0, 0⟩ (by decide +kernel) (by decide +kernel) (.lookup 1) (.inl rfl)

end FlagSelect.Cache
