import FlagSelect.Proofs.Cache.Bookkeeping
import FlagSelect.Proofs.Cache.Custody
import FlagSelect.Scripted.Connection

/-!
# The lifetime of statements

Over a ledger the calls of a whole run can be looked at. Main statement: `Run.statements_closed`.
-/

namespace FlagSelect.Cache

variable {σ δ ρ : Type} [Driver δ] {s : Setup σ ρ} {w : World σ δ} {c : Cache σ (Ledger δ)}
  {past : List (Cache σ (Ledger δ))}

/-- The calls for statements so far, the latest first. -/
def entries (c : Cache σ (Ledger δ)) : List Entry := c.world.driver.entries

theorem books_start : (start s w.beginLedger).books = ⟨fun _ => none, [], 0⟩ := by
  have ho : (start s w.beginLedger).opens = fun _ => none := by
    funext k
    simp [opens, start, empty]
  rw [books, ho]
  rfl

variable [RecordHost σ ρ]

/-- Along a run the owners of statements do not change. -/
theorem Run.sound (h : Run s w.beginLedger (c :: past)) :
    ∃ owner, ∀ d ∈ c :: past, d.books.next ≤ c.books.next ∧ d.books.Sound owner := by
  generalize hl : c :: past = l at h
  induction h generalizing c past with
  | start =>
      cases hl
      refine ⟨id, fun d hd => ?_⟩
      obtain rfl := List.mem_singleton.mp hd
      refine ⟨Nat.le_refl _, ?_⟩
      rw [books_start]
      exact Books.sound_empty
  | @perform c₀ past₀ op hrun hop ih =>
      cases hl
      obtain ⟨owner, hall⟩ := ih rfl
      obtain ⟨-, hsound⟩ := hall c₀ List.mem_cons_self
      have hticks : Ticks c₀.books (op.perform s c₀).books := ticks_perform op
      obtain ⟨hnext, owner', hold, hsound'⟩ := hsound.ticks hticks
      -- What older states know of was prepared before, and keeps its owner.
      refine ⟨owner', fun d hd => ?_⟩
      rcases List.mem_cons.mp hd with rfl | hd
      · exact ⟨Nat.le_refl _, hsound'⟩
      · obtain ⟨hle, hd⟩ := hall d hd
        refine ⟨Nat.le_trans hle hnext, hd.congr fun n hn => ?_⟩
        exact hold n (Nat.lt_of_lt_of_le hn hle)

/-- Once the cache and all executors are gone, no executor has a statement open. -/
theorem Run.opens_eq_none (h : Run s w.beginLedger (c :: past)) (hdropped : c.dropped = true)
    (hheld : c.held = []) (k : Nat) : c.opens k = none := by
  have hcustody := h.custody
  obtain ⟨hretained, hnotices⟩ := hcustody.gone hdropped
  have hclosed : ¬ c.HasOpen k := by
    intro ho
    have := hcustody.kept k ho
    simp [hheld, hretained, hnotices] at this
  cases he : c.executors[k]? with
  | none => simp [opens, he]
  | some e =>
      cases hs : e.statement with
      | none => simp [opens, he, Executor.number?, hs]
      | some _ => exact absurd ⟨e, he, by simp [hs]⟩ hclosed

/-- Whatever fails in a run, a statement is closed at most once, and nothing is done with it after
that. Each open statement is the one that its owner has open, from its preparation on, and an
executor owns at most one open statement at a time. Once the cache and every executor are gone, each
statement that was prepared has been closed. -/
theorem Run.statements_closed (h : Run s w.beginLedger (c :: past)) :
    (∀ n, c.entries.count ⟨n, .close⟩ ≤ 1) ∧
    (∀ later before n, c.entries = later ++ ⟨n, .close⟩ :: before → ∀ e ∈ later, e.statement ≠ n) ∧
    (∃ owner : Nat → Nat,
      (∀ d ∈ c :: past, ∀ n, IsOpen d.entries n ↔ ∃ k, d.opens k = some n) ∧
      (∀ d ∈ c :: past, ∀ k n, d.opens k = some n → owner n = k) ∧
      ∀ later before, c.entries = later ++ before →
        ∀ m n, IsOpen before m → IsOpen before n → owner m = owner n → m = n) ∧
    (c.dropped = true → c.held = [] →
      ∀ n, ⟨n, .prepare⟩ ∈ c.entries → c.entries.count ⟨n, .close⟩ = 1) := by
  obtain ⟨owner, hall⟩ := h.sound
  obtain ⟨-, hc⟩ := hall c List.mem_cons_self
  refine ⟨hc.count_close_le, fun _ _ _ hsplit => hc.closed_for_good hsplit, ⟨owner, ?_, ?_, ?_⟩, ?_⟩
  · intro d hd n
    exact ⟨fun hn => ⟨owner n, (hall d hd).2.owned n hn⟩,
      fun ⟨k, hk⟩ => ((hall d hd).2.opened k n hk).1⟩
  · intro d hd k n hk
    exact ((hall d hd).2.opened k n hk).2
  · exact hc.exclusive
  · intro hdropped hheld n hn
    exact hc.count_close_eq (h.opens_eq_none hdropped hheld) hn

/-- The query for one column of one table, under any flags. -/
def plainQuery : Setup Scripted.Host (List Value) where
  template := ⟨⟨"plain", [⟨0, "t", none⟩], [⟨⟨0, ["x"]⟩, .scalar .long⟩], [], {}⟩,
    {}, .object "Record", none⟩
  side := none
  project := Scripted.projectAll
  settings := {}

/-- A world in which no statement closes without failure. -/
def stubbornWorld : World Scripted.Host Scripted.Connection where
  host := {}
  driver := { failures := { close := true } }

/-- An executor that is held over a reload and over the end of its cache prepares three statements,
and each of them is closed once. -/
theorem statements_closed_of_outlived :
    ∃ c past, Run plainQuery stubbornWorld.beginLedger (c :: past) ∧ c.dropped = true ∧
      c.held = [] ∧ ∀ n < 3, c.entries.count ⟨n, .close⟩ = 1 := by
  have held {c : Cache Scripted.Host (Ledger Scripted.Connection)} (hheld : 0 ∈ c.held)
      (hflags : (planAt c.executors 0).map Plan.flags = some 5) : c.Holds ⟨5, 0⟩ := by
    refine ⟨hheld, ?_⟩
    cases he : c.executors[0]? with
    | none => simp [planAt, he] at hflags
    | some e => exact ⟨e, rfl, by simpa [planAt, he] using hflags⟩
  have h := Run.start (s := plainQuery) (w := stubbornWorld.beginLedger)
    |>.perform (.lookup 5) rfl
    |>.perform (.query ⟨5, 0⟩ ⟨0, 0⟩) (held (by decide) rfl)
    |>.perform .reload rfl
    |>.perform (.prepare ⟨5, 0⟩) (held (by decide) rfl)
    |>.perform .drop rfl
    |>.perform (.query ⟨5, 0⟩ ⟨0, 0⟩) (held (by decide) rfl)
    |>.perform (.unpin ⟨5, 0⟩) (held (by decide) rfl)
  have of_prepared {c past} (h : Run plainQuery stubbornWorld.beginLedger (c :: past))
      (hdropped : c.dropped = true) (hheld : c.held = [])
      (hprepared : ∀ n < 3, ⟨n, .prepare⟩ ∈ c.entries) :
      ∃ c past, Run plainQuery stubbornWorld.beginLedger (c :: past) ∧ c.dropped = true ∧
        c.held = [] ∧ ∀ n < 3, c.entries.count ⟨n, .close⟩ = 1 :=
    ⟨c, past, h, hdropped, hheld, fun n hn =>
      h.statements_closed.2.2.2 hdropped hheld n (hprepared n hn)⟩
  exact of_prepared h rfl rfl (by decide)

end FlagSelect.Cache
