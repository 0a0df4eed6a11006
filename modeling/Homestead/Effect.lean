import Homestead.Bundle
import Homestead.Condition
import Homestead.Identifier
import Homestead.Limit
import Homestead.Special

/-!
# Effects

An effect of a card fires at its moment, possibly under a condition and within a limit. It takes its
costs from the owner's store and then gives its gains, victory points and boon
(`Homestead.Effect.Apply`).
-/

namespace Homestead

/-- One thing that a card does. -/
structure Effect where
  id : EffectId
  moment : Moment
  gains : Bundle
  costs : Bundle
  points : Amount
  condition : Option Condition
  special : Option Special
  limit : Limit
  deriving DecidableEq, Repr

namespace Effect

/-- The effect that does nothing, at a moment. -/
def new (id : EffectId) (moment : Moment) : Effect :=
  ⟨id, moment, .empty, .empty, 0, none, none, .unlimited⟩

def gaining (e : Effect) (r : Resource) (n : Amount) : Effect :=
  { e with gains := e.gains.push r n }

def costing (e : Effect) (r : Resource) (n : Amount) : Effect :=
  { e with costs := e.costs.push r n }

def withPoints (e : Effect) (points : Amount) : Effect := { e with points := points }

def withCondition (e : Effect) (c : Condition) : Effect := { e with condition := some c }

def withSpecial (e : Effect) (special : Special) : Effect := { e with special := some special }

def withLimit (e : Effect) (limit : Limit) : Effect := { e with limit := limit }

/-- The text of the effect's condition, empty without one. -/
def conditionText (e : Effect) : String :=
  match e.condition with
  | some c => c.value
  | none => ""

/-- Does the effect accept a payload? Without a condition it does. A condition that has no verdict
on the payload stops the effects of actions only. -/
def accepts (e : Effect) (payload : Payload) : Bool :=
  match e.condition with
  | none => true
  | some c => (c.evaluate payload).getD (e.moment ≠ .onAction)

end Effect

end Homestead
