import Homestead.Document
import Homestead.Store

/-!
# Documents of stores and setups

The written forms of bundles, setups and stores. Of the bonuses, cooking ratios and storage
capacities of a store those are written that were ever granted, also where they are zero.
-/

namespace Homestead.Documented

instance : Documented CardId where
  write id := write id.number
  read? d := (read? d).map CardId.mk

instance : Documented Bundle where
  write b := write b.entries
  read? d := (read? d).map Bundle.mk

instance : Documented Setup where
  write s :=
    .record [("player_count", write s.players), ("payment_policy", write s.policy),
      ("starting_resources", write s.resources), ("starting_family_members", write s.family),
      ("starting_rooms", write s.rooms)]
  read? d := do
    let [players, policy, resources, family, rooms] ←
      d.parts? ["player_count", "payment_policy", "starting_resources", "starting_family_members",
        "starting_rooms"] | none
    return ⟨← read? players, ← read? policy, ← read? resources, ← read? family, ← read? rooms⟩

instance : Documented Store where
  write s :=
    .record [("balances", writeCells s.balances), ("victory_points", write s.points),
      ("family_members", write s.family), ("available_workers", write s.workers),
      ("rooms", write s.rooms), ("fields", write s.fields), ("pastures", write s.pastures),
      ("temp_bonuses", writeEntries s.bonuses), ("cooking_facilities", write s.kitchens),
      ("cooking_ratios", writeEntries s.ratios), ("storage", writeEntries s.capacities)]
  read? d := do
    let [balances, points, family, workers, rooms, fields, pastures, bonuses, kitchens, ratios,
        capacities] ←
      d.parts? ["balances", "victory_points", "family_members", "available_workers", "rooms",
        "fields", "pastures", "temp_bonuses", "cooking_facilities", "cooking_ratios", "storage"]
      | none
    return {
      balances := ← readCells? balances
      points := ← read? points
      family := ← read? family
      workers := ← read? workers
      rooms := ← read? rooms
      fields := ← read? fields
      pastures := ← read? pastures
      bonuses := ← readEntries? bonuses
      kitchens := ← read? kitchens
      ratios := ← readEntries? ratios
      capacities := ← readEntries? capacities }

end Homestead.Documented
