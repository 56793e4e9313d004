import FlagSelect.Cache.Basic

/-!
# The table of a cache

The capacity is a power of two, and the slot for some flags is their remainder by it. An executor
that meets another one in its slot makes the table double, as often as it takes, until the table
has its full size; there it takes the slot over.
-/

namespace FlagSelect.Cache

variable {σ δ : Type} [Driver δ]

/-- The slot for some flags in a table of a capacity that is a power of two. -/
def slotIndex (capacity : Nat) (flags : Flags) : Nat :=
  flags.toNat &&& (capacity - 1)

/-- The executor in the slot for some flags. -/
def resident? (c : Cache σ δ) (flags : Flags) : Option Ticket :=
  (c.slots[slotIndex c.capacity flags]?).join

/-- Writes the slot for some flags. -/
def setSlot (c : Cache σ δ) (flags : Flags) (t : Option Ticket) : Cache σ δ :=
  { c with slots := c.slots.setIfInBounds (slotIndex c.capacity flags) t }

/-- Moves one entry of the former table to its slot in the present one, if it is alive. -/
def rehash (c : Cache σ δ) : Option Ticket → Cache σ δ
  | none => c
  | some t => if c.alive t then c.setSlot t.flags (some t) else c.closeQuietly t

/-- Doubles the table. -/
def grow (c : Cache σ δ) : Cache σ δ :=
  let c := c.slots.toList.foldl rehash { c with slots := Array.replicate (2 * c.capacity) none }
  { c with counters := { c.counters with resizes := c.counters.resizes + 1 } }

/-- Takes the slot of a live executor for other flags away from it. -/
def evict (c : Cache σ δ) (resident : Ticket) : Cache σ δ :=
  let c := (c.closeQuietly resident).dismiss resident.flags
  { c with
    evicted := if c.alive resident then c.evicted ++ [resident] else c.evicted
    counters := { c.counters with evictions := c.counters.evictions + 1 } }

/-- Puts an executor into the table. A slot whose executor is dead, or is for the same flags, is
free to take; `doublings` is how often the table may still double. -/
def place (c : Cache σ δ) (maxCapacity : Nat) (t : Ticket) (doublings : Nat) : Cache σ δ :=
  match c.resident? t.flags with
  | none => c.setSlot t.flags (some t)
  | some r =>
    if r.flags = t.flags ∨ ¬ c.alive r then (c.closeQuietly r).setSlot t.flags (some t)
    else
      match doublings with
      | n + 1 =>
        if c.capacity < maxCapacity then c.grow.place maxCapacity t n
        else (c.evict r).setSlot t.flags (some t)
      | 0 => (c.evict r).setSlot t.flags (some t)

/-- Works off one notice: the statement is closed, and the slot is freed if it is still the dead
executor's own. -/
def reclaim (c : Cache σ δ) (t : Ticket) : Cache σ δ :=
  let c := c.closeQuietly t
  let c := if (c.resident? t.flags).any (·.number == t.number) then c.setSlot t.flags none else c
  { c with counters := { c.counters with reclaimed := c.counters.reclaimed + 1 } }

/-- Works off all notices, and forgets evicted executors that are dead. -/
def drain (c : Cache σ δ) : Cache σ δ :=
  let c := c.notices.foldl reclaim { c with notices := [] }
  { c with evicted := c.evicted.filter c.alive }

end FlagSelect.Cache
