import Homestead.Card
import Homestead.Document.Event
import Homestead.Document.Store

/-!
# Documents of cards

The written forms of effects, requirements, prices and cards.
-/

namespace Homestead.Documented

instance : Documented EffectId where
  write id := write id.number
  read? d := (read? d).map EffectId.mk

instance : Documented Limit where
  write
    | .unlimited => .text "Unlimited"
    | .perRound n => .tagged "PerRound" (write n)
    | .once => .text "Once"
  read? d :=
    match d.bareTag? with
    | some "Unlimited" => some .unlimited
    | some "Once" => some .once
    | _ =>
      match d.fullTag? with
      | some ("PerRound", d) => (read? d).map .perRound
      | _ => none

instance : Documented Uses where
  write u := .record [("uses", write u.count)]
  read? d := do
    let [count] ← d.parts? ["uses"] | none
    return ⟨← read? count⟩

instance : Documented Effect where
  write e :=
    .record [("id", write e.id), ("trigger", write e.moment), ("gains", write e.gains),
      ("costs", write e.costs), ("victory_points", write e.points),
      ("condition", write e.condition), ("special", write e.special), ("usage", write e.limit)]
  read? d := do
    let [id, moment, gains, costs, points, condition, special, limit] ←
      d.parts? ["id", "trigger", "gains", "costs", "victory_points", "condition", "special",
        "usage"] | none
    return {
      id := ← read? id
      moment := ← read? moment
      gains := ← read? gains
      costs := ← read? costs
      points := ← read? points
      condition := ← read? condition
      special := ← read? special
      limit := ← read? limit }

instance : Documented Requirement where
  write q :=
    .record [("resources", write q.resources), ("min_family_members", write q.family),
      ("min_rooms", write q.rooms), ("min_fields", write q.fields),
      ("min_pastures", write q.pastures), ("required_cards", write q.cards),
      ("required_tags", write q.tags)]
  read? d := do
    let [resources, family, rooms, fields, pastures, cards, tags] ←
      d.parts? ["resources", "min_family_members", "min_rooms", "min_fields", "min_pastures",
        "required_cards", "required_tags"] | none
    return {
      resources := ← read? resources
      family := ← read? family
      rooms := ← read? rooms
      fields := ← read? fields
      pastures := ← read? pastures
      cards := ← read? cards
      tags := ← read? tags }

instance : Documented Price where
  write p :=
    .record [("resources", write p.resources), ("workers", write p.workers),
      ("victory_points", write p.points), ("food", write p.food)]
  read? d := do
    let [resources, workers, points, food] ←
      d.parts? ["resources", "workers", "victory_points", "food"] | none
    return ⟨← read? resources, ← read? workers, ← read? points, ← read? food⟩

instance : Documented Occupation where
  write o := .record [("occupation_type", write o.trade), ("flat_cost", write o.flatCost)]
  read? d := do
    let [trade, flatCost] ← d.parts? ["occupation_type", "flat_cost"] | none
    return ⟨← read? trade, ← read? flatCost⟩

instance : Documented Improvement where
  write i :=
    .record [("category", write i.rank), ("unique", write i.unique),
      ("victory_points", write i.points), ("cooking", write i.cooking),
      ("storage", write i.storage)]
  read? d := do
    let [rank, unique, points, cooking, storage] ←
      d.parts? ["category", "unique", "victory_points", "cooking", "storage"] | none
    return ⟨← read? rank, ← read? unique, ← read? points, ← read? cooking, ← read? storage⟩

instance : Documented CardKind where
  write
    | .occupation info => .tagged "Occupation" (write info)
    | .improvement info => .tagged "Improvement" (write info)
  read? d :=
    match d.fullTag? with
    | some ("Occupation", d) => (read? d).map .occupation
    | some ("Improvement", d) => (read? d).map .improvement
    | _ => none

instance : Documented Card where
  write c :=
    .record [("id", write c.id), ("name", write c.name), ("tags", write c.tags),
      ("effects", write c.effects), ("conditions", write c.requirements),
      ("costs", write c.prices), ("kind", write c.kind)]
  read? d := do
    let [id, name, tags, effects, requirements, prices, kind] ←
      d.parts? ["id", "name", "tags", "effects", "conditions", "costs", "kind"] | none
    return {
      id := ← read? id
      name := ← read? name
      tags := ← read? tags
      effects := ← read? effects
      requirements := ← read? requirements
      prices := ← read? prices
      kind := ← read? kind }

end Homestead.Documented
