import FlagSelect.Proofs.Cache.Closings
import FlagSelect.Proofs.Statement.Conduct

/-!
# The books of a cache

Over a ledger, whatever a cache does to the statements of its executors is a sequence of `Tick`s:
every function of the cache reaches a statement through the executor that it belongs to.
-/

namespace FlagSelect.Cache

variable {σ δ ρ : Type} [Driver δ] {c : Cache σ (Ledger δ)} {t : Ticket}

/-- The open statement of each executor. -/
def opens (c : Cache σ (Ledger δ)) (k : Nat) : Option Nat :=
  c.executors[k]?.bind Executor.number?

def books (c : Cache σ (Ledger δ)) : Books :=
  c.world.driver.books c.opens

theorem books_congr {c' : Cache σ (Ledger δ)} (he : c'.executors = c.executors)
    (hd : c'.world.driver = c.world.driver) : c'.books = c.books := by
  have ho : c'.opens = c.opens := by
    funext k
    rw [opens, opens, he]
  rw [books, books, ho, hd]

theorem opens_eq_update {k : Nat} {e : Executor σ (Ledger δ)} (h : c.executors[k]? = some e) :
    Function.update c.opens k e.number? = c.opens := by
  have hk : c.opens k = e.number? := by rw [opens, h, Option.bind_some]
  rw [← hk, Function.update_eq_self]

theorem opens_update {k : Nat} {e e' : Executor σ (Ledger δ)} {w : World σ (Ledger δ)}
    (h : c.executors[k]? = some e) :
    (c.update k e' w).opens = Function.update c.opens k e'.number? := by
  funext j
  by_cases hj : j = k
  · subst hj
    rw [opens, getElem?_update h, if_pos rfl, Option.bind_some, Function.update_self]
  · rw [opens, getElem?_update h, if_neg (Ne.symm hj), Function.update_of_ne hj, opens]

/-- What an executor does on its own line of the books, the cache does. -/
theorem ticks_update {k : Nat} {e e' : Executor σ (Ledger δ)} {w : World σ (Ledger δ)}
    (h : c.executors[k]? = some e)
    (ht : Ticks (e.books c.opens k c.world.driver) (e'.books c.opens k w.driver)) :
    Ticks c.books (c.update k e' w).books := by
  have hfrom : e.books c.opens k c.world.driver = c.books := by
    rw [Executor.books, opens_eq_update h, books]
  have hto : e'.books c.opens k w.driver = (c.update k e' w).books := by
    rw [Executor.books, ← opens_update h (w := w)]
    rfl
  rwa [hfrom, hto] at ht

theorem ticks_close : Ticks c.books (c.close t).2.books := by
  unfold close
  split
  · exact .refl
  · rename_i he
    exact ticks_update he Executor.ticks_close

theorem ticks_closeQuietly : Ticks c.books (c.closeQuietly t).books := ticks_close

theorem ticks_prepare : Ticks c.books (c.prepare t).2.books := by
  unfold prepare
  split
  · exact .refl
  · rename_i he
    exact ticks_update he Executor.ticks_prepare

theorem ticks_query [RecordHost σ ρ] {s : Setup σ ρ} {record : Object} :
    Ticks c.books (c.query s t record).2.books := by
  unfold query
  split
  · exact .refl
  · rename_i he
    exact ticks_update he Executor.ticks_query

theorem ticks_bindValues {s : Setup σ ρ} {record : Object} :
    Ticks c.books (c.bindValues s t record).2.books := by
  have hsame : (c.bindValues s t record).2.books = c.books := books_congr (by simp) (by simp)
  rw [hsame]

/-- Closing statements is a sequence of ticks. -/
theorem ClosesSome.ticks {c' : Cache σ (Ledger δ)} (h : ClosesSome c c') :
    Ticks c.books c'.books := by
  obtain ⟨ts, h⟩ := h
  rw [books_congr h.executors (congrArg World.driver h.world)]
  clear h
  induction ts generalizing c with
  | nil => exact .refl
  | cons t ts ih => exact ticks_closeQuietly.trans ih

theorem ticks_drain : Ticks c.books c.drain.books :=
  ClosesSome.ticks ⟨_, closes_drain⟩

/-- A new executor has no statement. -/
theorem books_enlist (c : Cache σ (Ledger δ)) (flags : Flags) (plan : Plan σ) :
    (c.enlist flags plan).books = c.books := by
  have ho : (c.enlist flags plan).opens = c.opens := by
    funext k
    simp only [opens, enlist, hold, Array.getElem?_push]
    split
    · rename_i hk
      rw [Array.getElem?_eq_none (Nat.le_of_eq hk.symm)]
      rfl
    · rfl
  rw [books, books, ho]
  rfl

theorem Synthesis.ticks {s : Setup σ ρ} {flags : Flags}
    {r : Except Error Ticket × Cache σ (Ledger δ)} (h : Synthesis s c flags r) :
    Ticks c.books r.2.books := by
  cases h with
  | noPlan _ => exact .refl
  | @unprepared plan e _ _ _ =>
      have hprep := ticks_prepare (c := c.enlist flags plan) (t := c.nextTicket flags)
      rw [books_enlist] at hprep
      exact hprep.trans closes_release.ticks
  | @prepared plan _ _ _ =>
      have hprep := ticks_prepare (c := c.enlist flags plan) (t := c.nextTicket flags)
      rwa [books_enlist] at hprep
  | @postponed plan _ _ =>
      change Ticks c.books (c.enlist flags plan).books
      rw [books_enlist]

theorem Lookup.ticks {s : Setup σ ρ} {flags : Flags}
    {r : Except Error Ticket × Cache σ (Ledger δ)} (h : Lookup s c flags r) :
    Ticks c.books r.2.books := by
  cases h with
  | @hit t _ =>
      exact ticks_drain.trans (closes_retain (c := c.drain.countHit.hold t)).ticks
  | failed _ hsyn => exact ticks_drain.trans hsyn.ticks
  | made _ hsyn =>
      exact ((ticks_drain.trans hsyn.ticks).trans closes_place.ticks).trans closes_retain.ticks

theorem ticks_lookup {s : Setup σ ρ} {flags : Flags} :
    Ticks c.books (c.lookup s flags).2.books :=
  (lookup_spec c s flags).ticks

theorem ticks_handle [RecordHost σ ρ] {s : Setup σ ρ} {record : Object} :
    Ticks c.books (c.handle s record).2.books := by
  have hlookup := (lookup_spec c s (RecordHost.flags c.world.host record)).ticks
  unfold handle
  split <;> rename_i heq <;> rw [heq] at hlookup
  · exact hlookup
  · exact (hlookup.trans ticks_query).trans closes_release.ticks

theorem ticks_perform [RecordHost σ ρ] {s : Setup σ ρ} (op : Operation σ) :
    Ticks c.books (op.perform s c).books := by
  cases op with
  | lookup flags => exact ticks_lookup
  | handle record => exact ticks_handle
  | reload => exact ClosesSome.ticks ⟨_, closes_reload⟩
  | drop => exact closes_drop.ticks
  | pin t => exact .refl
  | unpin t => exact closes_release.ticks
  | prepare t => exact ticks_prepare
  | query t record => exact ticks_query
  | bindValues t record => exact ticks_bindValues
  | elsewhere host => exact .refl

end FlagSelect.Cache
