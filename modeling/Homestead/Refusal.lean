import Homestead.Amount
import Homestead.Identifier
import Homestead.Resource
import Homestead.Seat
import Homestead.Special

/-!
# Refusals: why an operation was declined

A declined operation leaves everything as it was and names its cause, unlike a fault
(`Homestead.Fault`), which ends the run. There are three sorts: the input names something unknown or
already taken, a card cannot be played, or an effect could not be applied. `Refusal.message` words
them.
-/

namespace Homestead

/-- A part of a farm that a requirement counts. -/
inductive Holding where
  | familyMembers
  | rooms
  | fields
  | pastures
  deriving DecidableEq, Repr

/-- How a message names a part of a farm. -/
def Holding.label : Holding → String
  | .familyMembers => "family members"
  | .rooms => "rooms"
  | .fields => "fields"
  | .pastures => "pastures"

/-- What a farm lacks of a requirement. -/
inductive Shortfall where
  | resource (amount : Amount) (resource : Resource)
  | holding (least : Count) (holding : Holding)
  | card (name : String)
  | tag (tag : String)
  deriving DecidableEq, Repr

def Shortfall.message : Shortfall → String
  | .resource amount r => "needs " ++ toString amount.toInt ++ " " ++ r.name
  | .holding least what => "needs " ++ toString least.toNat ++ " " ++ what.label
  | .card name => "needs card " ++ name
  | .tag text => "needs a card tagged " ++ text

/-- What is wrong with an input. -/
inductive Misuse where
  | noFarm (seat : Seat)
  | notOwned (seat : Seat) (copy : CopyId)
  | alreadyOwned (seat : Seat) (copy : CopyId)
  | idTaken (card : CardId)
  | nameTaken (name : String)
  /-- A cause that a caller words itself. -/
  | other (text : String)
  deriving DecidableEq, Repr

def Misuse.message : Misuse → String
  | .noFarm seat => "no farm for " ++ toString seat
  | .notOwned seat copy => toString seat ++ " does not own " ++ toString copy
  | .alreadyOwned seat copy => toString seat ++ " already owns " ++ toString copy
  | .idTaken card => toString card ++ " already in catalog"
  | .nameTaken name => "card named " ++ name ++ " already in catalog"
  | .other text => text

/-- What stands against playing a card. -/
inductive Objection where
  | occupationOwned
  | uniqueImprovementOwned
  | unmet (shortfall : Shortfall)
  | priceTooHigh
  | flatCostTooHigh
  /-- A cause that a caller words itself. -/
  | other (text : String)
  deriving DecidableEq, Repr

def Objection.message : Objection → String
  | .occupationOwned => "occupation already owned"
  | .uniqueImprovementOwned => "unique improvement already owned"
  | .unmet shortfall => shortfall.message
  | .priceTooHigh => "cannot pay play cost"
  | .flatCostTooHigh => "cannot pay flat cost"
  | .other text => text

/-- Why an effect could not be applied. -/
inductive Obstacle where
  | noBoon (special : Special)
  | notEnough (resource : Resource)
  /-- A cause that a caller words itself. -/
  | other (text : String)
  deriving DecidableEq, Repr

def Obstacle.message : Obstacle → String
  | .noBoon special => "no behavior for " ++ special.name ++ " on this card"
  | .notEnough resource => "not enough " ++ resource.name
  | .other text => text

/-- Why an operation was declined. -/
inductive Refusal where
  | invalidInput (cause : Misuse)
  | cannotPlay (card : String) (cause : Objection)
  | effectFailed (card : String) (cardId : CardId) (effect : EffectId) (cause : Obstacle)
  deriving DecidableEq, Repr

def Refusal.message : Refusal → String
  | .invalidInput cause => "invalid input: " ++ cause.message
  | .cannotPlay card cause => "cannot play " ++ card ++ ": " ++ cause.message
  | .effectFailed card cardId effect cause =>
    "effect " ++ toString effect ++ " of " ++ card ++ " (" ++ toString cardId ++ ") failed: " ++
      cause.message

end Homestead
