import Homestead.Enumerated

/-!
# Resources

The ten goods that a farm keeps in its store, in the order in which balances are listed. Three of
them are animals. A resource is written by its name, which is also what a text condition sees.
-/

namespace Homestead

/-- A good held in a farm's store. -/
inductive Resource where
  | wood
  | clay
  | reed
  | stone
  | grain
  | vegetable
  | sheep
  | boar
  | cattle
  | food
  deriving DecidableEq, Repr

namespace Resource

def name : Resource → String
  | wood => "Wood"
  | clay => "Clay"
  | reed => "Reed"
  | stone => "Stone"
  | grain => "Grain"
  | vegetable => "Vegetable"
  | sheep => "Sheep"
  | boar => "Boar"
  | cattle => "Cattle"
  | food => "Food"

instance : Enumerated Resource where
  all := [wood, clay, reed, stone, grain, vegetable, sheep, boar, cattle, food]
  name := name
  mem_all k := by cases k <;> decide
  nodup_all := by decide
  name_injective {a b} := by cases a <;> cases b <;> decide

instance : ToString Resource := ⟨name⟩

/-- Is the resource kept in pastures and bred at harvest? -/
def isAnimal : Resource → Bool
  | sheep | boar | cattle => true
  | _ => false

end Resource

end Homestead
