import Homestead.Enumerated

/-!
# Temporary bonuses

A card can grant a bonus that lasts until the next round starts.
-/

namespace Homestead

/-- What a temporary bonus is good for. -/
inductive Bonus where
  /-- Fences that need no wood. -/
  | freeFences
  /-- A reduction of the next room's cost. -/
  | roomDiscount
  /-- Further fields that may be sown. -/
  | extraSowing
  /-- Further food when baking. -/
  | bakingBonus
  /-- Further animals that the farm can hold. -/
  | animalCapacity
  deriving DecidableEq, Repr

namespace Bonus

/-- The name of a bonus, by which it is written. -/
def name : Bonus → String
  | freeFences => "FreeFences"
  | roomDiscount => "RoomDiscount"
  | extraSowing => "ExtraSowing"
  | bakingBonus => "BakingBonus"
  | animalCapacity => "AnimalCapacity"

/-- The label of a bonus, by which it is shown. -/
def label : Bonus → String
  | freeFences => "free_fences"
  | roomDiscount => "room_discount"
  | extraSowing => "extra_sowing"
  | bakingBonus => "baking_bonus"
  | animalCapacity => "animal_capacity"

instance : Enumerated Bonus where
  all := [freeFences, roomDiscount, extraSowing, bakingBonus, animalCapacity]
  name := name
  mem_all k := by cases k <;> decide
  nodup_all := by decide
  name_injective {a b} := by cases a <;> cases b <;> decide

instance : ToString Bonus := ⟨label⟩

end Bonus

end Homestead
