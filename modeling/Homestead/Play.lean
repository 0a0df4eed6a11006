import Homestead.Registry.Dispatch
import Homestead.Requirement.Unmet

/-!
# Playing a card

Whether a farm may play a card is decided first (`Card.objection?`): an occupation or a unique
improvement of the same name must not be owned, every requirement has to be met, and the prices have
to be payable one after the other, and the flat cost after them. The check pays on a scratch store,
so two prices of two wood need four.

Playing (`Registry.play`) then pays, adds the copy to the farm, applies the effects of the moment of
play, registers the copy and installs what the card brings. An effect that is refused at that moment
does not undo the play.
-/

namespace Homestead

/-! ## Paying several prices -/

namespace Price

/-- Takes several prices from a store that covers each when its turn comes. -/
def payAll? : List Price → Store → Checked (Option Store)
  | [], s => return some s
  | p :: rest, s => do
    match ← p.pay? s with
    | none => return none
    | some s => payAll? rest s

/-- Takes several prices from a store, whether or not it covers them. -/
def payAll (prices : List Price) (s : Store) : Checked Store :=
  prices.foldlM (fun s p => p.pay s) s

end Price

namespace Card

/-! ## The check -/

/-- The objection that the farm owns a card of that name already. -/
def duplicate? (c : Card) (f : Farm) : Option Objection :=
  if c.isOccupation ∧ f.hasOccupation c.name then some .occupationOwned
  else if c.isUnique ∧ f.hasImprovement c.name then some .uniqueImprovementOwned
  else none

/-- What stands against a farm's playing the card, if anything does. -/
def objection? (c : Card) (f : Farm) : Checked (Option Objection) := do
  match c.duplicate? f with
  | some objection => return some objection
  | none =>
    match ← c.requirements.findSomeM? fun q => q.unmet? f with
    | some shortfall => return some (.unmet shortfall)
    | none =>
      match ← Price.payAll? c.prices f.store with
      | none => return some .priceTooHigh
      | some scratch =>
        if ← scratch.covers c.flatCost then return none else return some .flatCostTooHigh

def canPlay (c : Card) (f : Farm) : Checked Bool := do
  return (← c.objection? f).isNone

/-- Refuses what stands against a farm's playing the card. -/
def check (c : Card) (f : Farm) : Checked (Except Refusal Unit) := do
  match ← c.objection? f with
  | some objection => return .error (.cannotPlay c.name objection)
  | none => return .ok ()

/-! ## The play -/

/-- Takes the prices and the flat cost of a card from a store. -/
def payFor (c : Card) (s : Store) : Checked Store := do
  (← Price.payAll c.prices s).withdrawAll c.flatCost

/-- Gives a store the points, the cooking ratios and the storage of a card. -/
def install (c : Card) (s : Store) : Checked Store := do
  let s ← if c.points = 0 then pure s else s.addPoints c.points
  let s := if c.cooking.isEmpty then s else s.addKitchen c.id
  let s := c.cooking.foldl (fun s e => s.addRatio e.1 e.2) s
  c.storage.foldlM (fun s e => s.addCapacity e.1 e.2) s

end Card

/-- What became of playing a card. -/
structure Played where
  /-- The identifier of the new copy. -/
  copy : CopyId
  /-- What became of the effects of the moment of play. -/
  outcome : Outcome
  deriving DecidableEq, Repr

/-- Plays a card on a farm that may play it: everything but the registration. -/
def Farm.play (f : Farm) (seat : Seat) (card : Card) (id : CopyId) (policy : PaymentPolicy) :
    Checked (Farm × Played) := do
  let store ← card.payFor f.store
  let (copy, store, outcome) ←
    (Copy.new id card).trigger (.new .immediate seat) policy store
  let store ← card.install store
  return ({ f with store := store }.add copy, ⟨id, outcome⟩)

/-- Plays a card for a seat as a copy with a given identifier, or refuses to. -/
def Registry.play (r : Registry) (farms : Seating Farm) (seat : Seat) (card : Card) (id : CopyId) :
    Checked (Except Refusal (Registry × Seating Farm × Played)) := do
  match farms.get? seat with
  | none => return .error (.invalidInput (.noFarm seat))
  | some farm =>
    if farm.owns id then return .error (.invalidInput (.alreadyOwned seat id))
    else
      match ← card.check farm with
      | .error refusal => return .error refusal
      | .ok () =>
        let (farm, played) ← farm.play seat card id r.policy
        let farms := farms.set seat farm
        return .ok (r.register farms seat id, farms, played)

end Homestead
