import FlagSelect.Cache.Lookup

/-!
# Runs over a cache

A run is a finite sequence of operations, each by a caller who may carry it out: lookups, `handle`,
`reload` and `drop` need the cache itself, and everything done with an executor needs a hold on it.
Executors that lost their slot and executors that outlive the cache are held like any other.
-/

namespace FlagSelect.Cache

variable {σ δ ρ : Type} [Driver δ]

/-- Whether a ticket is that of an executor that some caller holds. -/
structure Holds (c : Cache σ δ) (t : Ticket) : Prop where
  held : t.number ∈ c.held
  flags : ∃ e, c.executors[t.number]? = some e ∧ e.plan.flags = t.flags

inductive Operation (σ : Type) where
  | lookup (flags : Flags)
  | handle (record : Object)
  | reload
  | drop
  /-- A caller that holds an executor takes hold of it once more. -/
  | pin (t : Ticket)
  | unpin (t : Ticket)
  | prepare (t : Ticket)
  | query (t : Ticket) (record : Object)
  | bindValues (t : Ticket) (record : Object)
  /-- The host changes on its own. -/
  | elsewhere (host : σ)

namespace Operation

/-- Whether someone may carry out the operation. -/
def Allowed (c : Cache σ δ) : Operation σ → Prop
  | lookup _ | handle _ | reload | drop => c.dropped = false
  | pin t | unpin t | prepare t | query t _ | bindValues t _ => c.Holds t
  | elsewhere _ => True

/-- The cache after the operation, whatever its outcome. -/
def perform [RecordHost σ ρ] (s : Setup σ ρ) (c : Cache σ δ) : Operation σ → Cache σ δ
  | lookup flags => (c.lookup s flags).2
  | handle record => (c.handle s record).2
  | reload => c.reload.2
  | drop => c.drop
  | pin t => c.hold t
  | unpin t => c.release t
  | prepare t => (c.prepare t).2
  | query t record => (c.query s t record).2
  | bindValues t record => (c.bindValues s t record).2
  | elsewhere host => { c with world := { c.world with host } }

end Operation

/-- The states of a run from an empty cache in world `w`, the latest first. -/
inductive Run [RecordHost σ ρ] (s : Setup σ ρ) (w : World σ δ) : List (Cache σ δ) → Prop where
  | start : Run s w [start s w]
  | perform {c : Cache σ δ} {past : List (Cache σ δ)} (op : Operation σ) :
      Run s w (c :: past) → op.Allowed c → Run s w (op.perform s c :: c :: past)

/-- What holds of an empty cache and is kept by every operation holds at the end of every run. -/
theorem Run.invariant [RecordHost σ ρ] {s : Setup σ ρ} {w : World σ δ} {P : Cache σ δ → Prop}
    (hstart : P (Cache.start s w))
    (hkeep : ∀ c (op : Operation σ), P c → op.Allowed c → P (op.perform s c))
    {c : Cache σ δ} {past : List (Cache σ δ)} (h : Run s w (c :: past)) : P c := by
  generalize hl : c :: past = l at h
  induction h generalizing c past with
  | start => cases hl; exact hstart
  | perform op _ hop ih => cases hl; exact hkeep _ op (ih rfl) hop

end FlagSelect.Cache
