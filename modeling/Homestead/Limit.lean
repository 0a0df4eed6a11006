import Homestead.Amount

/-!
# Limits on the use of an effect

How often an effect may be applied: without limit, a number of times in each round, or once. Each
copy of a card counts the uses of each of its effects; `Uses.record?` counts one more use if the
limit allows it, and `Uses.reset` starts the next round, at which a single use stays spent.
-/

namespace Homestead

/-- How often an effect may be applied. -/
inductive Limit where
  | unlimited
  /-- At most so many times between two resets. -/
  | perRound (uses : Count)
  /-- Once for the whole life of the copy. -/
  | once
  deriving DecidableEq, Repr

/-- How often an effect of one copy was applied since the last reset. -/
structure Uses where
  count : Count
  deriving DecidableEq, Repr

namespace Uses

/-- The counter of an effect that was never applied. -/
def fresh : Uses := ⟨0⟩

/-- May the effect be applied once more? -/
def allows (u : Uses) : Limit → Bool
  | .unlimited => true
  | .perRound n => u.count < n
  | .once => u.count == 0

/-- Counts one more use, if the limit allows it; the count stops at the largest one. -/
def record? (u : Uses) (limit : Limit) : Option Uses :=
  if u.allows limit then some ⟨u.count.succ⟩ else none

/-- Starts a round: the counter returns to zero unless the limit is a single use. -/
def reset (u : Uses) : Limit → Uses
  | .once => u
  | _ => fresh

end Uses

end Homestead
