import FlagSelect.Proofs.Cache.Chronicle

/-!
# Which executor a lookup finds

What has been done with a cache tells which executor a lookup finds: the one made last for the
flags, as long as someone keeps it alive and no one has taken its slot away. Main statement:
`Chronicle.exact_hits`.
-/

namespace FlagSelect.Cache

variable {σ δ ρ : Type} [Driver δ] [RecordHost σ ρ] {s : Setup σ ρ} {w : World σ δ}
  {c : Cache σ δ} {t u r : Ticket} {x : Deed σ δ} {past later earlier : List (Deed σ δ)}
  {flags : Flags}

/-- Whether an executor is the one made last for its flags and has not been displaced since. -/
def Standing (s : Setup σ ρ) (past : List (Deed σ δ)) (t : Ticket) : Prop :=
  ∃ later x earlier, past = later ++ x :: earlier ∧ x.Makes s t ∧
    ∀ y ∈ later, (∀ u, y.Makes s u → u.flags ≠ t.flags) ∧ ¬ y.Displaces s t

theorem not_standing_nil : ¬ Standing s ([] : List (Deed σ δ)) t := by
  rintro ⟨later, x, earlier, heq, -⟩
  cases later <;> cases heq

theorem standing_cons : Standing s (x :: past) t ↔ x.Makes s t ∨
    Standing s past t ∧ (∀ u, x.Makes s u → u.flags ≠ t.flags) ∧ ¬ x.Displaces s t := by
  constructor
  · rintro ⟨later, y, earlier, heq, hmakes, hlater⟩
    cases later with
    | nil =>
        cases heq
        exact .inl hmakes
    | cons z later =>
        cases heq
        exact .inr ⟨⟨later, y, earlier, rfl, hmakes, fun z hz => hlater z (.tail _ hz)⟩,
          hlater x (.head _)⟩
  · rintro (hmakes | ⟨⟨later, y, earlier, rfl, hmakes, hlater⟩, hx⟩)
    · exact ⟨[], x, past, rfl, hmakes, nofun⟩
    · exact ⟨x :: later, y, earlier, rfl, hmakes, List.forall_mem_cons.mpr ⟨hx, hlater⟩⟩

/-- What the past of a cache tells of its table. -/
structure Told (s : Setup σ ρ) (past : List (Deed σ δ)) (c : Cache σ δ) : Prop where
  standing : ∀ t, c.InTable t → Standing s past t
  made : ∀ t, Standing s past t → c.Made t
  inTable : ∀ t, Standing s past t → c.Kept t.number → c.InTable t

theorem Told.turn (h : Told s past x.before) (hturn : Turn s x)
    (hafter : Orderly s (x.after s) []) : Told s (x :: past) (x.after s) := by
  constructor
  case standing =>
    intro t ht
    rw [standing_cons]
    by_cases hmakes : x.Makes s t
    · exact .inl hmakes
    · have hbefore := (hturn.enters t ht).resolve_left hmakes
      refine .inr ⟨h.standing t hbefore, fun u hu heq => hmakes ?_, fun hgone => hgone.2.2.2 ht⟩
      -- Whoever is made for the flags of `t` has the slot of `t`, and so is `t`.
      have hslot := hafter.seated.resident? (hturn.given u hu.1).2
      rw [heq, hafter.seated.resident? ht] at hslot
      cases hslot
      exact hu
  case made =>
    intro t ht
    rcases standing_cons.mp ht with hmakes | ⟨ht, -⟩
    · exact hafter.made t (.inl (.inl (hturn.given t hmakes.1).2))
    · exact hturn.lasts t (h.made t ht)
  case inTable =>
    intro t ht hlive
    rcases standing_cons.mp ht with hmakes | ⟨ht, -, hstays⟩
    · exact (hturn.given t hmakes.1).2
    · have hbefore := h.inTable t ht (hturn.dead t (h.made t ht) hlive)
      exact (hturn.stays t hbefore hlive).resolve_left hstays

theorem told_start : Told s [] (start s w) where
  standing _ ht := absurd ht not_inTable_start
  made _ ht := absurd ht not_standing_nil
  inTable _ ht := absurd ht not_standing_nil

theorem Chronicle.told (hv : s.settings.Valid) (h : Chronicle s w past c)
    (hdropped : c.dropped = false) : Told s past c :=
  h.induct hv told_start
    (fun _ _ _ htold hc hop hafter => htold.turn (hc.turn hv hop hafter.dropped) hafter) hdropped

theorem Turn.clash (h : Turn s x) (hr : x.Displaces s r) :
    ∃ flags, x.sought = some flags ∧ Clash s.settings.maxCapacity r.flags flags := by
  obtain ⟨t, ht, hclash⟩ := h.displaces r hr
  exact ⟨t.flags, (h.given t ht).1, hclash⟩

theorem Chronicle.displaces (hv : s.settings.Valid) (h : Chronicle s w past c)
    (hdropped : c.dropped = false) (hx : x ∈ past) (hr : x.Displaces s r) :
    ∃ flags, x.sought = some flags ∧ Clash s.settings.maxCapacity r.flags flags := by
  refine Chronicle.induct (P := fun past _ => ∀ x ∈ past, ∀ r, x.Displaces s r →
    ∃ flags, x.sought = some flags ∧ Clash s.settings.maxCapacity r.flags flags) hv nofun
    (fun y past _ ih hc hop hafter => ?_) h hdropped x hx r hr
  exact List.forall_mem_cons.mpr ⟨fun r hr => (hc.turn hv hop hafter.dropped).clash hr, ih⟩

/-- Who has been given out keeps the slot while someone keeps it alive, unless flags are looked up
with which it clashes in a table of full size. -/
theorem Chronicle.inTable_of_given (hv : s.settings.Valid)
    (h : Chronicle s w (later ++ x :: earlier) c) (hdropped : c.dropped = false)
    (hgiven : x.given? s = some t) (hlive : c.Kept t.number)
    (hapart : ∀ y ∈ later, ∀ flags, y.sought = some flags →
      ¬ Clash s.settings.maxCapacity t.flags flags) : c.InTable t := by
  -- By induction on what has been done since; that the executor has been made goes along, as only
  -- then the dead stay dead.
  refine (Chronicle.induct (P := fun past c => ∀ later, past = later ++ x :: earlier →
    (∀ y ∈ later, ∀ flags, y.sought = some flags →
      ¬ Clash s.settings.maxCapacity t.flags flags) →
    c.Made t ∧ (c.Kept t.number → c.InTable t)) hv ?_ ?_ h hdropped later rfl
    hapart).2 hlive
  · intro later hnil
    cases later <;> cases hnil
  · intro y past _ ih hc hop hafter later heq hapart
    have hturn := hc.turn hv hop hafter.dropped
    cases later with
    | nil =>
        cases heq
        have htable := (hturn.given t hgiven).2
        exact ⟨hafter.made t (.inl (.inl htable)), fun _ => htable⟩
    | cons z later =>
        cases heq
        have ⟨hy, hlater⟩ := List.forall_mem_cons.mp hapart
        obtain ⟨hmade, hstays⟩ := ih later rfl hlater
        refine ⟨hturn.lasts t hmade, fun hlive => ?_⟩
        have htable := hstays (hturn.dead t hmade hlive)
        refine (hturn.stays t htable hlive).resolve_left fun hgone => ?_
        obtain ⟨flags, hsought, hclash⟩ := hturn.clash hgone
        exact hy flags hsought hclash

/-- How a lookup goes after what has been done. -/
structure HitRule (s : Setup σ ρ) (past : List (Deed σ δ)) (c : Cache σ δ) (flags : Flags) :
    Prop where
  hits : (⟨c, .lookup flags⟩ : Deed σ δ).Hits s ↔
    ∃ t, Standing s past t ∧ t.flags = flags ∧ c.alive t = true
  found : ∀ t, Standing s past t → t.flags = flags → c.alive t = true →
    (c.lookup s flags).1 = .ok t
  otherwise : ¬ (⟨c, .lookup flags⟩ : Deed σ δ).Hits s →
    (∃ e, (c.lookup s flags).1 = .error e) ∨
    ∃ t, (⟨c, .lookup flags⟩ : Deed σ δ).Makes s t ∧ (c.lookup s flags).1 = .ok t ∧
      t.flags = flags ∧ (c.lookup s flags).2.resident? flags = some t ∧
      ∀ u, c.Made u → u.generation < t.generation

theorem Orderly.turn_of_sought (hv : s.settings.Valid) (h : Orderly s c []) (op : Operation σ)
    (hsought : op.sought c = some flags) : Turn s ⟨c, op⟩ := by
  cases op with
  | lookup flags => exact h.turn hv h.dropped (h.lookup hv flags).dropped
  | handle record => exact h.turn hv h.dropped (h.handle hv).dropped
  | reload | drop | pin _ | unpin _ | prepare _ | query _ _ | bindValues _ _ | elsewhere _ =>
      cases hsought

theorem given?_lookup : (⟨c, .lookup flags⟩ : Deed σ δ).given? s = some t ↔
    (c.lookup s flags).1 = .ok t :=
  Deed.given?_eq_some (x := ⟨c, .lookup flags⟩) rfl

theorem Told.hitRule (hv : s.settings.Valid) (h : Told s past c) (hc : Orderly s c [])
    (flags : Flags) : HitRule s past c flags := by
  have hturn := hc.turn_of_sought hv (.lookup flags) rfl
  have hpresent (t : Ticket) :
      c.Present flags t ↔ Standing s past t ∧ t.flags = flags ∧ c.alive t = true := by
    rw [alive_iff_kept, Present]
    constructor
    · rintro ⟨ht, hlive, hflags⟩
      exact ⟨h.standing t ht, hflags, hlive⟩
    · rintro ⟨ht, hflags, hlive⟩
      exact ⟨h.inTable t ht hlive, hlive, hflags⟩
  constructor
  case hits =>
    rw [hturn.hits]
    constructor
    · rintro ⟨_, t, ⟨⟩, ht⟩
      exact ⟨t, (hpresent t).mp ht⟩
    · rintro ⟨t, ht⟩
      exact ⟨flags, t, rfl, (hpresent t).mpr ht⟩
  case found =>
    intro t ht hflags hlive
    exact given?_lookup.mp (hturn.same flags t rfl ((hpresent t).mpr ⟨ht, hflags, hlive⟩))
  case otherwise =>
    intro hmiss
    cases hr : (c.lookup s flags).1 with
    | error e => exact .inl ⟨e, rfl⟩
    | ok t =>
        have ht := given?_lookup.mpr hr
        have hmakes := hturn.makes t ht hmiss
        obtain ⟨hsought, htable⟩ := hturn.given t ht
        cases hsought
        have hafter := hc.lookup hv t.flags
        refine .inr ⟨t, hmakes, rfl, rfl, hafter.seated.resident? htable, fun u hu => ?_⟩
        have hnumber : t.number = c.executors.size := (hturn.made t hmakes).1
        exact Nat.succ_lt_succ (hnumber ▸ hu.lt)

/-- A lookup finds the executor made last for the flags, if someone keeps it alive and nobody has
displaced it, and otherwise fails or makes the latest one of all. Only flags with which it clashes
in a table of full size displace an executor, so that one that is kept alive is found for as long as
none of these are looked up. -/
theorem Chronicle.exact_hits (hs : s.settings.defect? = none) (h : Chronicle s w past c)
    (hdropped : c.dropped = false) :
    (∀ flags, HitRule s past c flags) ∧
    (∀ x ∈ past, ∀ r, x.Displaces s r →
      ∃ flags, x.sought = some flags ∧ Clash s.settings.maxCapacity r.flags flags) ∧
    ∀ later x earlier t, past = later ++ x :: earlier → x.given? s = some t →
      c.alive t = true →
      (∀ y ∈ later, ∀ flags, y.sought = some flags →
        ¬ Clash s.settings.maxCapacity t.flags flags) →
      (⟨c, .lookup t.flags⟩ : Deed σ δ).Hits s ∧ (c.lookup s t.flags).1 = .ok t := by
  have hv := Settings.valid_of_defect? hs
  have hc := h.run.orderly hv hdropped
  refine ⟨(h.told hv hdropped).hitRule hv hc, fun x hx r hr => h.displaces hv hdropped hx hr, ?_⟩
  rintro later x earlier t rfl hgiven halive hapart
  have hlive := alive_iff_kept.mp halive
  have hpresent : c.Present t.flags t :=
    ⟨h.inTable_of_given hv hdropped hgiven hlive hapart, hlive, rfl⟩
  have hturn := hc.turn_of_sought hv (.lookup t.flags) rfl
  exact ⟨hturn.hits.mpr ⟨t.flags, t, rfl, hpresent⟩,
    given?_lookup.mp (hturn.same t.flags t rfl hpresent)⟩

/-- Of three executors that callers hold the third has the slot of the first, for whose flags
another one is made, and the second is found where it was. -/
theorem exact_hits_of_displaced : ∃ c past, Chronicle tightQuery stubbornWorld past c ∧
    c.counters.evictions = 1 ∧ c.alive ⟨0, 0⟩ = true ∧ HitRule tightQuery past c 0 ∧
    (c.lookup tightQuery 0).1 = .ok ⟨0, 3⟩ ∧ (c.lookup tightQuery 1).1 = .ok ⟨1, 1⟩ := by
  have h := Chronicle.start (s := tightQuery) (w := stubbornWorld)
    |>.perform (.lookup 0) rfl
    |>.perform (.lookup 1) rfl
    |>.perform (.lookup 2) rfl
  have hrules := h.exact_hits (by decide) rfl
  refine ⟨_, _, h, rfl, rfl, hrules.1 0, rfl, ?_⟩
  refine (hrules.2.2 [_] _ _ ⟨1, 1⟩ rfl rfl rfl fun y hy flags hflags hclash => ?_).2
  cases List.mem_singleton.mp hy
  cases hflags
  exact absurd hclash.2 (by decide)

end FlagSelect.Cache
