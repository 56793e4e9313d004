import FlagSelect.Settings.Basic
import FlagSelect.Statement.Executor

/-!
# The state of a cache

A cache keeps executors in a table with one slot for each remainder of the flags by its capacity.
A slot does not keep its executor alive: callers that hold the executor do, and so does the
retention list, which has the executors used last. When the last of these lets go, the executor is
dead, and a notice joins the queue that the next lookup works off; once the cache itself is gone,
the statement is closed on the spot.

All executors ever made are kept in the order of their making, the dead ones too, so that an
executor can be named by its number.
-/

namespace FlagSelect

/-- What everything that knows of an executor holds of it: its flags and its number. -/
structure Ticket where
  flags : Flags
  number : Nat
deriving DecidableEq

/-- The generation of an executor; the first has generation one. -/
def Ticket.generation (t : Ticket) : Nat := t.number + 1

/-- What has happened in a cache so far. -/
structure Counters where
  /-- Plans made and put into the table. -/
  syntheses : Nat := 0
  /-- Lookups that found a live executor. -/
  hits : Nat := 0
  /-- Doublings of the table. -/
  resizes : Nat := 0
  /-- Notices of dead executors worked off. -/
  reclaimed : Nat := 0
  /-- Live executors that lost their slot in a table of full size. -/
  evictions : Nat := 0
deriving DecidableEq

structure Cache (σ δ : Type) [Driver δ] where
  executors : Array (Executor σ δ) := #[]
  /-- The executors that callers hold, once for each time they hold it. -/
  held : List Nat := []
  slots : Array (Option Ticket)
  /-- Executors that lost their slot while a caller held them. -/
  evicted : List Ticket := []
  /-- The executors used last, the latest first, no flags twice. -/
  retained : List Ticket := []
  /-- Notices of dead executors, the oldest first. -/
  notices : List Ticket := []
  /-- Whether the cache is gone. -/
  dropped : Bool := false
  counters : Counters := {}
  world : World σ δ

namespace Cache

variable {σ δ : Type} [Driver δ]

/-- An empty cache with so many slots. -/
def empty (capacity : Nat) (world : World σ δ) : Cache σ δ where
  slots := Array.replicate capacity none
  world := world

def capacity (c : Cache σ δ) : Nat := c.slots.size

/-- The number of taken slots, by a live executor or by one whose notice is still queued. -/
def occupied (c : Cache σ δ) : Nat := c.slots.countP Option.isSome

/-- Whether someone keeps the executor alive. -/
def alive (c : Cache σ δ) (t : Ticket) : Bool :=
  c.held.contains t.number || c.retained.any (·.number == t.number)

/-- Replaces the executor of a number, and the world with it. -/
def update (c : Cache σ δ) (number : Nat) (e : Executor σ δ) (w : World σ δ) : Cache σ δ :=
  { c with executors := c.executors.setIfInBounds number e, world := w }

/-- Closes the statement of an executor if it is open, and says whether it was. -/
def close (c : Cache σ δ) (t : Ticket) : Except ResourceError Bool × Cache σ δ :=
  match c.executors[t.number]? with
  | none => (.ok false, c)
  | some e =>
    let (r, e, w) := e.close c.world
    (r, c.update t.number e w)

/-- Closes the statement of an executor; nobody hears of a failure. -/
def closeQuietly (c : Cache σ δ) (t : Ticket) : Cache σ δ :=
  (c.close t).2

/-- What follows when someone has let go of an executor: nothing if someone else keeps it alive,
else a notice, or the closing of the statement if no cache is left to work off notices. -/
def settle (c : Cache σ δ) (t : Ticket) : Cache σ δ :=
  if c.alive t then c
  else if c.dropped then c.closeQuietly t
  else { c with notices := c.notices ++ [t] }

/-- A caller takes hold of an executor. -/
def hold (c : Cache σ δ) (t : Ticket) : Cache σ δ :=
  { c with held := t.number :: c.held }

/-- A caller lets go of an executor that it holds. -/
def release (c : Cache σ δ) (t : Ticket) : Cache σ δ :=
  if c.held.contains t.number then { c with held := c.held.erase t.number }.settle t else c

/-- Makes an executor the latest of the retention list, which has room for `limit`. The one retained
for the same flags so far leaves it, or else the one used longest ago if there is no room. -/
def retain (c : Cache σ δ) (limit : Nat) (t : Ticket) : Cache σ δ :=
  if limit = 0 then c
  else
    let same := c.retained.filter (·.flags == t.flags)
    let latest := t :: c.retained.filter (·.flags != t.flags)
    (same ++ latest.drop limit).foldl settle { c with retained := latest.take limit }

/-- Takes the executor for some flags off the retention list. -/
def dismiss (c : Cache σ δ) (flags : Flags) : Cache σ δ :=
  (c.retained.filter (·.flags == flags)).foldl settle
    { c with retained := c.retained.filter (·.flags != flags) }

end Cache

end FlagSelect
