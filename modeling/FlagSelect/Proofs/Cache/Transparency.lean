import FlagSelect.Proofs.Cache.Closings
import FlagSelect.Proofs.Cache.Ownership
import FlagSelect.Proofs.Cache.Safety
import FlagSelect.Proofs.Statement.Transcript
import FlagSelect.Proofs.Storage.Database

/-!
# A cache cannot be told from none

Over a driver that keeps its contract, whatever is used of a cache is as if each record had been
handled by an executor of its own: what the cache keeps open is in order (`Tended`), and it prepares
and closes statements on its own, but does not use them. Main statement: `Run.transparent`.
-/

namespace FlagSelect

variable {σ δ ρ : Type} [Driver δ]

/-- Handles a record without a cache, by an executor that is made for it. -/
def Setup.handle [RecordHost σ ρ] (s : Setup σ ρ) (record : Object) (w : World σ δ) :
    Except Error Unit × World σ δ :=
  match s.template.plan (RecordHost.flags w.host record) with
  | .error e => (.error e, w)
  | .ok plan =>
    let r := ({ plan } : Executor σ δ).query s.side s.project record w
    (r.outcome, r.world)

namespace Cache

variable {C : Contract δ} {c c' : Cache σ δ} {s : Setup σ ρ} {t : Ticket} {k : Nat}
  {e e' : Executor σ δ} {w : World σ δ} {flags : Flags} {record : Object}

/-- Whether each executor is ready, with a statement that is its own. -/
structure Tended (C : Contract δ) (c : Cache σ δ) : Prop where
  accepted : ∀ (k : Nat) (e : Executor σ δ), c.executors[k]? = some e → C.accepts e.plan.sql
  ready : ∀ (k : Nat) (e : Executor σ δ), c.executors[k]? = some e → e.Ready C c.world.driver
  sole : ∀ (j k : Nat) (e e' : Executor σ δ) (st : Driver.Statement δ),
    c.executors[j]? = some e → c.executors[k]? = some e' →
    e.statement = some st → e'.statement = some st → j = k

theorem Tended.congr (h : Tended C c) (hexecutors : c'.executors = c.executors)
    (hdriver : c'.world.driver = c.world.driver) : Tended C c' where
  accepted k e he := h.accepted k e (hexecutors ▸ he)
  ready k e he := hdriver ▸ h.ready k e (hexecutors ▸ he)
  sole j k e e' st he he' := h.sole j k e e' st (hexecutors ▸ he) (hexecutors ▸ he')

theorem Tended.owned (h : Tended C c) : Owned C c where
  fit k e he := ⟨h.ready k e he, fun _ _ => h.accepted k e he⟩
  sole := h.sole

theorem Tended.of_owned (h : Owned C c)
    (haccepted : ∀ (k : Nat) (e : Executor σ δ), c.executors[k]? = some e → C.accepts e.plan.sql) :
    Tended C c where
  accepted := haccepted
  ready k e he := (h.fit k e he).ready
  sole := h.sole

/-- An executor that does not touch the statements of others keeps the cache tended. -/
theorem Tended.update (h : Tended C c) (he : c.executors[k]? = some e)
    (hk : Executor.Handles C e c.world.driver e' w.driver) : Tended C (c.update k e' w) := by
  have haccepts := h.accepted k e he
  refine .of_owned (h.owned.update he hk (hk.fit haccepts)) fun j u hu => ?_
  rw [getElem?_update he] at hu
  split at hu
  · cases hu
    rw [hk.plan]
    exact haccepts
  · exact h.accepted j u hu

theorem Tended.closeQuietly (h : Tended C c) (t : Ticket) :
    Tended C (c.closeQuietly t) ∧ C.Same c.world (c.closeQuietly t).world := by
  unfold Cache.closeQuietly Cache.close
  split
  · exact ⟨h, .refl c.world⟩
  next e he =>
    obtain ⟨hhandles, hsame⟩ := Executor.close_handles (h.ready _ e he)
    exact ⟨h.update he hhandles, hsame⟩

theorem Tended.closes (h : Tended C c) (hc : ClosesSome c c') :
    Tended C c' ∧ C.Same c.world c'.world := by
  obtain ⟨ts, hts⟩ := hc
  have hfold : Tended C (ts.foldl Cache.closeQuietly c) ∧
      C.Same c.world (ts.foldl Cache.closeQuietly c).world := by
    clear hts
    induction ts generalizing c with
    | nil => exact ⟨h, .refl c.world⟩
    | cons t ts ih =>
        obtain ⟨hclose, hsame⟩ := h.closeQuietly t
        obtain ⟨hrest, hsame'⟩ := ih hclose
        exact ⟨hrest, hsame.trans hsame'⟩
  rw [hts.world]
  exact ⟨hfold.1.congr hts.executors (congrArg World.driver hts.world), hfold.2⟩

theorem Tended.prepare (h : Tended C c) (t : Ticket) :
    Tended C (c.prepare t).2 ∧ C.Same c.world (c.prepare t).2.world ∧
      (c.prepare t).1 = .ok () := by
  unfold Cache.prepare
  split
  · exact ⟨h, .refl c.world, rfl⟩
  next e he =>
    obtain ⟨hhandles, hsame, hok⟩ :=
      Executor.prepare_handles (h.accepted _ e he) (h.ready _ e he)
    exact ⟨h.update he hhandles, hsame, hok⟩

theorem Tended.enlist {plan : Plan σ} (h : Tended C c) (haccepts : C.accepts plan.sql) :
    Tended C (c.enlist flags plan) := by
  refine .of_owned h.owned.enlist fun k e he => ?_
  rcases of_enlist he with rfl | he
  · exact haccepts
  · exact h.accepted k e he

/-! ## Lookups -/

/-- Whether all statements of a template can be prepared. -/
def Accepted (C : Contract δ) (s : Setup σ ρ) : Prop :=
  ∀ flags plan, s.template.plan flags = .ok plan → C.accepts plan.sql

theorem Synthesis.tended {x : Except Error Ticket × Cache σ δ} (hx : Synthesis s c flags x)
    (h : Tended C c) (haccepted : Accepted C s) :
    Tended C x.2 ∧ C.Same c.world x.2.world ∧
      ∀ e, x.1 = .error e → s.template.plan flags = .error e := by
  have henlist {plan : Plan σ} (hplan : s.template.plan flags = .ok plan) :
      Tended C (c.enlist flags plan) :=
    h.enlist (haccepted flags plan hplan)
  cases hx with
  | noPlan hplan => exact ⟨h, .refl c.world, fun e he => by cases he; exact hplan⟩
  | unprepared hplan _ herror =>
      rw [((henlist hplan).prepare _).2.2] at herror
      cases herror
  | prepared hplan _ _ =>
      obtain ⟨hprepare, hsame, -⟩ := (henlist hplan).prepare (c.nextTicket flags)
      exact ⟨hprepare.congr rfl rfl, ⟨hsame.host, hsame.store⟩, fun e he => by cases he⟩
  | postponed hplan _ =>
      exact ⟨(henlist hplan).congr rfl rfl, ⟨rfl, rfl⟩, fun e he => by cases he⟩

theorem Lookup.tended {x : Except Error Ticket × Cache σ δ} (hx : Lookup s c flags x)
    (h : Tended C c) (haccepted : Accepted C s) :
    Tended C x.2 ∧ C.Same c.world x.2.world ∧
      ∀ e, x.1 = .error e → s.template.plan flags = .error e := by
  obtain ⟨hdrain, hsame⟩ := h.closes ⟨_, closes_drain⟩
  cases hx with
  | @hit t _ =>
      have hhold : Tended C (c.drain.countHit.hold t) := hdrain.congr rfl rfl
      obtain ⟨hretain, hsame'⟩ := hhold.closes closes_retain
      exact ⟨hretain, hsame.trans ⟨hsame'.host, hsame'.store⟩, fun e he => by cases he⟩
  | failed _ hsyn =>
      obtain ⟨hsyn', hsame', herror⟩ := hsyn.tended hdrain haccepted
      exact ⟨hsyn', hsame.trans hsame', herror⟩
  | made _ hsyn =>
      obtain ⟨hsyn', hsame', -⟩ := hsyn.tended hdrain haccepted
      obtain ⟨hretain, hsame''⟩ := hsyn'.closes (closes_place.trans closes_retain)
      exact ⟨hretain, (hsame.trans hsame').trans hsame'', fun e he => by cases he⟩

theorem Tended.lookup (h : Tended C c) (haccepted : Accepted C s) (flags : Flags) :
    Tended C (c.lookup s flags).2 ∧ C.Same c.world (c.lookup s flags).2.world ∧
      ∀ e, (c.lookup s flags).1 = .error e → s.template.plan flags = .error e :=
  (lookup_spec c s flags).tended h haccepted

theorem Synthesis.flags_eq {x : Except Error Ticket × Cache σ δ} (hx : Synthesis s c flags x)
    (ht : x.1 = .ok t) : t.flags = flags := by
  cases hx with
  | noPlan _ | unprepared _ _ _ => cases ht
  | prepared _ _ _ | postponed _ _ => cases ht; rfl

theorem Lookup.flags_eq {x : Except Error Ticket × Cache σ δ} (hx : Lookup s c flags x)
    (ht : x.1 = .ok t) : t.flags = flags := by
  cases hx with
  | hit hhit => cases ht; exact hhit.2.1
  | failed _ _ => cases ht
  | made _ hsyn => cases ht; exact hsyn.flags_eq rfl

theorem Orderly.planned_lookup (h : Orderly s c []) (hplanned : Planned s c) (flags : Flags)
    (t : Ticket) (ht : (c.lookup s flags).1 = .ok t) :
    ∃ plan, s.template.plan flags = .ok plan ∧
      planAt (c.lookup s flags).2.executors t.number = some plan := by
  have hlookup := lookup_spec c s flags
  have hmade := (hplanned.lookup flags).made (h.made_lookup hlookup ht)
  rwa [hlookup.flags_eq ht] at hmade

/-! ## Queries -/

section Queries

variable [RecordHost σ ρ]

theorem Tended.query (h : Tended C c) : Tended C (c.query s t record).2 := by
  unfold Cache.query
  split
  · exact h
  next e he =>
    have hready := h.ready _ e he
    have hagree := Executor.query_agree s.side s.project record rfl (h.accepted _ e he) hready
      hready (.refl c.world)
    exact h.update he hagree.2.2

/-- A query by an executor of the cache comes to the same as one by a new executor. -/
theorem Tended.query_new {plan : Plan σ} (h : Tended C c) (record : Object)
    (ht : planAt c.executors t.number = some plan) (hw : C.Same c.world w) :
    (c.query s t record).1 =
        (({ plan } : Executor σ δ).query s.side s.project record w).outcome ∧
      C.Same (c.query s t record).2.world
        (({ plan } : Executor σ δ).query s.side s.project record w).world := by
  obtain ⟨e, he, hplan⟩ := Option.map_eq_some_iff.mp ht
  have hnew : Executor.Ready C { plan } w.driver := fun st hst => by cases hst
  obtain ⟨houtcome, hsame, -⟩ := Executor.query_agree s.side s.project record hplan.symm
    (h.accepted _ e he) (h.ready _ e he) hnew hw
  unfold Cache.query
  rw [he]
  exact ⟨houtcome, hsame⟩

theorem Tended.release (h : Tended C c) (t : Ticket) :
    Tended C (c.release t) ∧ C.Same c.world (c.release t).world :=
  h.closes closes_release

theorem Tended.handle (h : Tended C c) (haccepted : Accepted C s) :
    Tended C (c.handle s record).2 := by
  have hlookup := (h.lookup haccepted (RecordHost.flags c.world.host record)).1
  unfold Cache.handle
  split <;> rename_i heq <;> rw [heq] at hlookup
  · exact hlookup
  · exact (hlookup.query.release _).1

theorem Tended.perform (h : Tended C c) (haccepted : Accepted C s) (op : Operation σ) :
    Tended C (op.perform s c) := by
  cases op with
  | lookup flags => exact (h.lookup haccepted flags).1
  | handle record => exact h.handle haccepted
  | reload => exact (h.closes ⟨_, closes_reload⟩).1
  | drop => exact (h.closes closes_drop).1
  | pin t => exact h.congr rfl rfl
  | unpin t => exact (h.release t).1
  | prepare t => exact (h.prepare t).1
  | query t record => exact h.query
  | bindValues t record => exact h.congr (by simp [Operation.perform]) (by simp [Operation.perform])
  | elsewhere host => exact h.congr rfl rfl

theorem Run.tended {past : List (Cache σ δ)} (haccepted : Accepted C s)
    (h : Run s w (c :: past)) : Tended C c := by
  refine Run.invariant (P := Tended C) ?_ (fun c op hc _ => hc.perform haccepted op) h
  have hempty (k : Nat) : (Cache.start s w).executors[k]? = none := by
    simp [Cache.start, empty]
  constructor
  · exact fun k e he => by cases (hempty k).symm.trans he
  · exact fun k e he => by cases (hempty k).symm.trans he
  · exact fun j k e e' st he => by cases (hempty j).symm.trans he

/-- To handle a record with a cache comes to the same as without. -/
theorem Tended.handle_same (h : Tended C c) (haccepted : Accepted C s) (horderly : Orderly s c [])
    (hplanned : Planned s c) (record : Object) :
    (c.handle s record).1 = (s.handle record c.world).1 ∧
      C.Same (c.handle s record).2.world (s.handle record c.world).2 := by
  obtain ⟨hlookup, hsame, herror⟩ := h.lookup haccepted (RecordHost.flags c.world.host record)
  have hgiven := horderly.planned_lookup hplanned (RecordHost.flags c.world.host record)
  unfold Cache.handle Setup.handle
  generalize c.lookup s (RecordHost.flags c.world.host record) = x at hlookup hsame herror hgiven
  obtain ⟨e | t, c'⟩ := x
  · rw [herror e rfl]
    exact ⟨rfl, hsame.symm⟩
  · obtain ⟨plan, hplan, hat⟩ := hgiven t rfl
    obtain ⟨houtcome, hquery⟩ := hlookup.query_new (s := s) record hat hsame.symm
    rw [hplan]
    exact ⟨houtcome, ((hlookup.query.release t).2.symm).trans hquery⟩

/-- Whether an operation reaches statements on behalf of nobody. -/
def Operation.Idle : Operation σ → Prop
  | lookup _ | reload | drop | pin _ | unpin _ | prepare _ => True
  | handle _ | query _ _ | bindValues _ _ | elsewhere _ => False

theorem Tended.idle (h : Tended C c) (haccepted : Accepted C s) {op : Operation σ}
    (hop : op.Idle) : C.Same c.world (op.perform s c).world := by
  cases op with
  | lookup flags => exact (h.lookup haccepted flags).2.1
  | reload => exact (h.closes ⟨_, closes_reload⟩).2
  | drop => exact (h.closes closes_drop).2
  | pin t => exact .refl c.world
  | unpin t => exact (h.release t).2
  | prepare t => exact (h.prepare t).2.1
  | handle _ | query _ _ | bindValues _ _ | elsewhere _ => exact hop.elim

/-- What is the same with a cache as without one. -/
structure Transparent (C : Contract δ) (s : Setup σ ρ) (c : Cache σ (Transcript δ)) : Prop where
  /-- An executor that is looked up has the plan of its flags. -/
  given : ∀ flags t, (c.lookup s flags).1 = .ok t →
    ∃ plan, s.template.plan flags = .ok plan ∧
      planAt (c.lookup s flags).2.executors t.number = some plan
  refused : ∀ flags e, (c.lookup s flags).1 = .error e → s.template.plan flags = .error e
  outcome : ∀ record, (c.handle s record).1 = (s.handle record c.world).1
  use : ∀ record, C.SameUse (c.handle s record).2.world (s.handle record c.world).2
  /-- An executor that a caller holds queries as a new one. -/
  held : ∀ t, c.Holds t → ∃ plan, s.template.plan t.flags = .ok plan ∧ ∀ record,
    (c.query s t record).1 =
        (({ plan } : Executor σ (Transcript δ)).query s.side s.project record c.world).outcome ∧
      C.SameUse (c.query s t record).2.world
        (({ plan } : Executor σ (Transcript δ)).query s.side s.project record c.world).world
  /-- What the cache does on its own may prepare and close statements, and nothing else. -/
  idle : ∀ op : Operation σ, op.Idle → C.SameUse c.world (op.perform s c).world

/-- A cache with accepted settings, over a driver that prepares all statements of its template, is
transparent: to handle a record comes to the same outcome, for the host and for the statement, as a
query by an executor that is new. -/
theorem Run.transparent {s : Setup σ ρ} {w : World σ (Transcript δ)} {c : Cache σ (Transcript δ)}
    {past : List (Cache σ (Transcript δ))} (hs : s.settings.defect? = none)
    (haccepted : Accepted C s) (h : Run s w (c :: past)) (hdropped : c.dropped = false) :
    Transparent C s c := by
  have haccepted : Accepted C.transcript s := haccepted
  have horderly := h.orderly (Settings.valid_of_defect? hs) hdropped
  have htended := h.tended haccepted
  have hhandle := htended.handle_same haccepted horderly h.planned
  constructor
  case given => exact horderly.planned_lookup h.planned
  case refused => exact fun flags e he => (htended.lookup haccepted flags).2.2 e he
  case outcome => exact fun record => (hhandle record).1
  case use => exact fun record => (hhandle record).2.sameUse
  case held =>
    intro t ht
    obtain ⟨plan, hplan, hat⟩ := h.planned.made ht.made
    refine ⟨plan, hplan, fun record => ?_⟩
    obtain ⟨houtcome, hsame⟩ := htended.query_new record hat (.refl c.world)
    exact ⟨houtcome, hsame.sameUse⟩
  case idle => exact fun op hop => (htended.idle haccepted hop).sameUse

end Queries

/-- A database of one table with three rows, which compiles every statement to a query for so many
of them as are asked for. -/
def threeRows (sql : String) : Except String Storage.Query :=
  .ok ⟨sql, 1, fun cells =>
    match cells with
    | [.integer n] =>
      { rows := ([1, 2, 3].take n.toInt.toNat).map fun x => ⟨[("x", .integer x)]⟩ }
    | _ => { rows := [], failure := some (.engine "datatype mismatch") }⟩

/-- A query for so many rows as the record says, with the table of `tightQuery`. -/
def sizedQuery : Setup Scripted.Host (List Value) where
  template :=
    ⟨⟨"sized", [⟨0, "t", none⟩], [⟨⟨0, ["x"]⟩, .scalar .long⟩], [], { limit := some "size" }⟩,
      ⟨[({ name := "Record", hostClass := 2 } : HostType Scripted.Host).addField "size"
        (.scalar .long) (Scripted.Host.getter "size")]⟩, .object "Record", none⟩
  side := none
  project := Scripted.projectAll
  settings := tightQuery.settings

/-- Three records, of which the first and the last have the same flags. -/
def sizedWorld : World Scripted.Host (Transcript (Storage.Database threeRows)) where
  host := ⟨#[{ flags := 0, fields := [("size", .long 2)] },
    { flags := 1, fields := [("size", .long 3)] }, { flags := 0, fields := [("size", .long 1)] }]⟩
  driver := ⟨{}, []⟩

/-- A statement is bound anew for a record for which fewer rows are asked, and is closed later on
when its executor, which a caller holds, loses its slot. -/
theorem transparent_of_crowded : ∃ c past, Run sizedQuery sizedWorld (c :: past) ∧
    c.counters.hits = 2 ∧ c.counters.resizes = 1 ∧ c.counters.evictions = 1 ∧
    c.world.driver.acts.length = 12 ∧
    Transparent (Storage.Database.contract threeRows) sizedQuery c := by
  have haccepted : Accepted (Storage.Database.contract threeRows) sizedQuery :=
    fun _ _ _ => ⟨_, rfl⟩
  have h := Run.start (s := sizedQuery) (w := sizedWorld)
    |>.perform (.lookup 0) (show Cache.dropped _ = false by decide +kernel)
    |>.perform (.handle ⟨0, 2⟩) (show Cache.dropped _ = false by decide +kernel)
    |>.perform (.handle ⟨2, 2⟩) (show Cache.dropped _ = false by decide +kernel)
    |>.perform (.handle ⟨1, 2⟩) (show Cache.dropped _ = false by decide +kernel)
    |>.perform (.lookup 2) (show Cache.dropped _ = false by decide +kernel)
  have htransparent := h.transparent (by decide) haccepted (by decide +kernel)
  refine ⟨_, _, h, ?_, ?_, ?_, ?_, htransparent⟩
  all_goals decide +kernel

end Cache

end FlagSelect
