import Homestead.Catalog
import Homestead.Deck.Ids

/-!
# The customary cards

A small deck of eight occupations and seven improvements.
-/

namespace Homestead.Deck

/-! ## Occupations -/

/-- A further wood from every forest. -/
def woodCutter : Card :=
  Card.occupation woodCutterId "Wood Cutter"
    |>.withTrade .gatherer
    |>.withTag "wood"
    |>.withEffect (Effect.new ⟨1⟩ .onAction
      |>.gaining .wood 1
      |>.withCondition (.freeText "Forest"))

/-- A grain for a day's labour, once a round. -/
def seasonalWorker : Card :=
  Card.occupation seasonalWorkerId "Seasonal Worker"
    |>.withEffect (Effect.new ⟨1⟩ .onAction
      |>.gaining .grain 1
      |>.withCondition (.actionNamed "Day Laborer")
      |>.withLimit (.perRound 1))

/-- A wood whenever fields are worked. -/
def firewoodCollector : Card :=
  Card.occupation firewoodCollectorId "Firewood Collector"
    |>.withTrade .gatherer
    |>.withTag "wood"
    |>.withEffect (Effect.new ⟨1⟩ .onAction
      |>.withCondition (.actionOf .farming)
      |>.withSpecial .extraWood)

/-- Free fences when fences are built, once a round. -/
def hedgeKeeper : Card :=
  Card.occupation hedgeKeeperId "Hedge Keeper"
    |>.withTrade .herder
    |>.withEffect (Effect.new ⟨1⟩ .onAction
      |>.withCondition (.actionNamed "Fences")
      |>.withSpecial .fenceDiscount
      |>.withLimit (.perRound 1))

/-- Two wood when played, and a room discount whenever something is built. -/
def carpenter : Card :=
  Card.occupation carpenterId "Carpenter"
    |>.withTrade .craftsman
    |>.withFlatCost .food 1
    |>.withEffect (Effect.new ⟨1⟩ .immediate
      |>.gaining .wood 2
      |>.withLimit .once)
    |>.withEffect (Effect.new ⟨2⟩ .onAction
      |>.withCondition (.actionOf .building)
      |>.withSpecial .roomDiscount)

/-- Room for further animals while they breed. -/
def animalTamer : Card :=
  Card.occupation animalTamerId "Animal Tamer"
    |>.withTrade .herder
    |>.withRequirement (Requirement.nothing.withPastures 1)
    |>.withEffect (Effect.new ⟨1⟩ .breedingPhase
      |>.withSpecial .animalCapacity
      |>.withLimit (.perRound 1))

/-- A grain from the fields at harvest. -/
def fieldWatchman : Card :=
  Card.occupation fieldWatchmanId "Field Watchman"
    |>.withRequirement (Requirement.nothing.withFields 1)
    |>.withEffect (Effect.new ⟨1⟩ .fieldPhase
      |>.withSpecial .extraGrain
      |>.withLimit (.perRound 1))

/-- A food after animals bred. -/
def stablehand : Card :=
  Card.occupation stablehandId "Stablehand"
    |>.withTrade .herder
    |>.withEffect (Effect.new ⟨1⟩ .onBreeding |>.gaining .food 1)

/-! ## Improvements -/

/-- A hearth for vegetables and meat. -/
def fireplace : Card :=
  Card.majorImprovement fireplaceId "Fireplace"
    |>.withTag "cooking"
    |>.withPrice (Price.free.withResource .clay 2)
    |>.withPoints 1
    |>.withCooking .vegetable 2
    |>.withCooking .sheep 2
    |>.withCooking .boar 2
    |>.withCooking .cattle 3

/-- An oven for grain. -/
def clayOven : Card :=
  Card.majorImprovement clayOvenId "Clay Oven"
    |>.withTag "baking"
    |>.withPrice (Price.free |>.withResource .clay 3 |>.withResource .stone 1)
    |>.withPoints 2
    |>.withCooking .grain 5
    |>.withEffect (Effect.new ⟨1⟩ .immediate
      |>.withSpecial .bakingBonus
      |>.withLimit .once)

/-- A food at the start of every round. -/
def well : Card :=
  Card.majorImprovement wellId "Well"
    |>.withPrice (Price.free |>.withResource .wood 1 |>.withResource .stone 3)
    |>.withPoints 4
    |>.withEffect (Effect.new ⟨1⟩ .onRoundStart |>.gaining .food 1)

/-- Room for grain, and a grain after the harvest. -/
def granary : Card :=
  Card.improvement granaryId "Granary"
    |>.withPrice (Price.free.withResource .wood 3)
    |>.withPoints 1
    |>.withStorage .grain 8
    |>.withEffect (Effect.new ⟨1⟩ .harvestEnd
      |>.gaining .grain 1
      |>.withLimit (.perRound 1))

/-- Three food for a reed at the start of each harvest. -/
def basketmakersWorkshop : Card :=
  Card.majorImprovement basketmakersWorkshopId "Basketmaker's Workshop"
    |>.withPrice (Price.free |>.withResource .reed 2 |>.withResource .stone 2)
    |>.withPoints 2
    |>.withEffect (Effect.new ⟨1⟩ .harvestStart
      |>.costing .reed 1
      |>.gaining .food 3
      |>.withLimit (.perRound 1))

/-- Two food for a wood while feeding. -/
def joinery : Card :=
  Card.majorImprovement joineryId "Joinery"
    |>.withPrice (Price.free |>.withResource .wood 2 |>.withResource .stone 2)
    |>.withPoints 2
    |>.withEffect (Effect.new ⟨1⟩ .feedingPhase
      |>.costing .wood 1
      |>.gaining .food 2
      |>.withLimit (.perRound 1))

/-- A grain when grain seeds are taken. -/
def cornScoop : Card :=
  Card.improvement cornScoopId "Corn Scoop"
    |>.withPrice (Price.free.withResource .wood 1)
    |>.withEffect (Effect.new ⟨1⟩ .onAction
      |>.gaining .grain 1
      |>.withCondition (.actionNamed "Grain Seeds"))

/-! ## The deck -/

def occupations : List Card :=
  [woodCutter, seasonalWorker, firewoodCollector, hedgeKeeper, carpenter, animalTamer,
    fieldWatchman, stablehand]

def improvements : List Card :=
  [fireplace, clayOven, well, granary, basketmakersWorkshop, joinery, cornScoop]

def catalog : Catalog := .ofList (occupations ++ improvements)

end Homestead.Deck
