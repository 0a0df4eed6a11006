import Homestead.Farm

/-!
# What a farm lacks

`Requirement.unmet?` names the first part of a requirement that a farm does not meet, in the order
resources, family members, rooms, fields, pastures, cards, tags.
-/

namespace Homestead

/-- How many of a holding a store has. -/
def Store.holding (s : Store) : Holding → Count
  | .familyMembers => s.family
  | .rooms => s.rooms
  | .fields => s.fields
  | .pastures => s.pastures

namespace Requirement

/-- How many of a holding a requirement asks for. -/
def least (q : Requirement) : Holding → Count
  | .familyMembers => q.family
  | .rooms => q.rooms
  | .fields => q.fields
  | .pastures => q.pastures

/-- The first holding of which a store has too few. -/
def unmetHolding? (q : Requirement) (s : Store) : Option Holding :=
  [.familyMembers, .rooms, .fields, .pastures].find? fun h => s.holding h < q.least h

/-- The first shortfall in what a farm holds and owns, resources apart. -/
def unmetBesides? (q : Requirement) (f : Farm) : Option Shortfall :=
  (q.unmetHolding? f.store).map (fun h => .holding (q.least h) h)
    <|> (q.cards.find? fun name => !f.hasCard name).map .card
    <|> (q.tags.find? fun tag => !f.hasTag tag).map .tag

/-- The first part of a requirement that a farm does not meet. -/
def unmet? (q : Requirement) (f : Farm) : Checked (Option Shortfall) := do
  match ← f.store.shortOf? q.resources with
  | some r => return some (.resource (← q.resources.amountOf r) r)
  | none => return q.unmetBesides? f

def isMet (q : Requirement) (f : Farm) : Checked Bool := do
  return (← q.unmet? f).isNone

end Requirement

end Homestead
