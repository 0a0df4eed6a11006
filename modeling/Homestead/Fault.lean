/-!
# Faults: why a run ends

A fault ends the run it occurs in: no later step sees the state it happened in. Everything a
caller can recover from is a refusal (`Homestead.Refusal`) instead.

* `Fault`: the causes, with their wording in `Fault.message`;
* `Checked α`: a computation that may end in a fault.
-/

namespace Homestead

/-- An arithmetic operation whose result has to fit its width. -/
inductive Arithmetic where
  | add
  | subtract
  | negate
  deriving DecidableEq, Repr

/-- The verb by which a message names the operation. -/
def Arithmetic.verb : Arithmetic → String
  | .add => "add"
  | .subtract => "subtract"
  | .negate => "negate"

/-- Why a run ended. -/
inductive Fault where
  /-- The exact result of an operation does not fit its width. -/
  | overflow (operation : Arithmetic)
  /-- A setup for nobody. -/
  | setupWithoutPlayers
  /-- A setup for more players than there are seat numbers. -/
  | setupTooLarge
  /-- A seating without any seat. -/
  | seatingEmpty
  /-- A seating of more places than there are seat numbers. -/
  | seatingTooLarge
  /-- A place asked for by number that the seating does not have. -/
  | noSuchPlace (size number : Nat)
  deriving DecidableEq, Repr

def Fault.message : Fault → String
  | .overflow operation => "attempt to " ++ operation.verb ++ " with overflow"
  | .setupWithoutPlayers => "Must have at least 1 player"
  | .setupTooLarge => "At most 255 players supported"
  | .seatingEmpty => "a game needs at least one farm"
  | .seatingTooLarge => "seats are numbered 0..=254"
  | .noSuchPlace size number =>
    "index out of bounds: the len is " ++ toString size ++ " but the index is " ++ toString number

/-- A computation that may end the run. -/
abbrev Checked (α : Type) := Except Fault α

end Homestead
