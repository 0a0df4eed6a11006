import Homestead.Enumerated

/-!
# Special effects

An effect can carry a label for something that only certain cards do. What the label means for a
card is looked up in the table of boons (`Homestead.Boon`).
-/

namespace Homestead

/-- The label of a card-specific behaviour. -/
inductive Special where
  | extraWood
  | extraGrain
  | fenceDiscount
  | roomDiscount
  | bakingBonus
  | animalCapacity
  deriving DecidableEq, Repr

namespace Special

def name : Special → String
  | extraWood => "ExtraWood"
  | extraGrain => "ExtraGrain"
  | fenceDiscount => "FenceDiscount"
  | roomDiscount => "RoomDiscount"
  | bakingBonus => "BakingBonus"
  | animalCapacity => "AnimalCapacity"

instance : Enumerated Special where
  all := [extraWood, extraGrain, fenceDiscount, roomDiscount, bakingBonus, animalCapacity]
  name := name
  mem_all k := by cases k <;> decide
  nodup_all := by decide
  name_injective {a b} := by cases a <;> cases b <;> decide

end Special

end Homestead
