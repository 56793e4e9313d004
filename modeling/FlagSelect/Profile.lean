/-!
# Profile

How often each phase of handling a record came to its end. A phase that fails is not counted.
-/

namespace FlagSelect

inductive Phase where
  | synthesize | prepare | bind | execute | materialize
deriving DecidableEq

structure Profile where
  synthesize : Nat := 0
  prepare : Nat := 0
  bind : Nat := 0
  execute : Nat := 0
  materialize : Nat := 0
deriving DecidableEq

/-- Counts one more end of a phase. -/
def Profile.count (p : Profile) : Phase → Profile
  | .synthesize => { p with synthesize := p.synthesize + 1 }
  | .prepare => { p with prepare := p.prepare + 1 }
  | .bind => { p with bind := p.bind + 1 }
  | .execute => { p with execute := p.execute + 1 }
  | .materialize => { p with materialize := p.materialize + 1 }

end FlagSelect
