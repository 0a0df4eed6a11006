import Homestead.Play

/-!
# Games

A game has a farm for each seat, the registry of their copies, the number of rounds that were
started and the identifier that the next copy will get. Each operation here keeps the registry in
step with the copies that the farms own.

* `Game.start`: the game of a setup;
* `Game.play`, `Game.discard`, `Game.discardAll`, `Game.cook`: what a seat does;
* `Game.trigger`, `Game.triggerEach`, `Game.beginRound`, `Game.harvest`: dispatching events;
* `Game.clearRegistry`, `Game.rebuildRegistry`: the registry alone.
-/

namespace Homestead

structure Game where
  setup : Setup
  farms : Seating Farm
  registry : Registry
  /-- The number of rounds that were started. -/
  round : Count
  /-- The number of the next copy. -/
  nextCopy : Count

namespace Game

/-- The game of a setup before its first round. -/
def start (setup : Setup) : Checked Game := do
  let seats ← Seating.ofFn setup.players id
  let store ← Store.ofSetup setup
  return {
    setup := setup
    farms := seats.map fun seat => .withStore seat store
    registry := .new setup.policy
    round := 0
    nextCopy := 1 }

def seats (g : Game) : List Seat := g.farms.seats

def farm? (g : Game) (seat : Seat) : Option Farm := g.farms.get? seat

/-- The farm of a seat, or the refusal that there is none. -/
def farm (g : Game) (seat : Seat) : Except Refusal Farm :=
  match g.farm? seat with
  | some farm => .ok farm
  | none => .error (.invalidInput (.noFarm seat))

def withFarm (g : Game) (seat : Seat) (farm : Farm) : Game :=
  { g with farms := g.farms.set seat farm }

/-! ## Cards -/

/-- May a seat play a card? A seat without a farm may not. -/
def canPlay (g : Game) (seat : Seat) (card : Card) : Checked Bool :=
  match g.farm? seat with
  | some farm => card.canPlay farm
  | none => return false

/-- Plays a card for a seat as the next copy, or refuses to. -/
def play (g : Game) (seat : Seat) (card : Card) : Checked (Except Refusal (Game × Played)) := do
  match ← g.registry.play g.farms seat card ⟨g.nextCopy⟩ with
  | .error refusal => return .error refusal
  | .ok (registry, farms, played) =>
    let nextCopy ← g.nextCopy.plus 1
    return .ok ({ g with farms := farms, registry := registry, nextCopy := nextCopy }, played)

/-- Takes one copy from a seat, with its registration. -/
def discard (g : Game) (seat : Seat) (id : CopyId) : Except Refusal (Game × Copy) := do
  match (← g.farm seat).remove? id with
  | none => .error (.invalidInput (.notOwned seat id))
  | some (copy, farm) =>
    return ({ g.withFarm seat farm with registry := g.registry.unregister seat id }, copy)

/-- Takes every copy from a seat, with their registrations. -/
def discardAll (g : Game) (seat : Seat) : Except Refusal (Game × List Copy) := do
  let (copies, farm) := (← g.farm seat).removeAll
  return ({ g.withFarm seat farm with registry := g.registry.unregisterSeat seat }, copies)

/-- Cooks on a seat's farm and tells the food gained. -/
def cook (g : Game) (seat : Seat) (r : Resource) (n : Count) : Except Refusal (Game × Amount) := do
  let (farm, food) := (← g.farm seat).cook r n
  return (g.withFarm seat farm, food)

/-! ## Dispatch -/

def trigger (g : Game) (seat : Seat) (event : Event) : Checked (Game × Report) := do
  let (registry, farms, report) ← g.registry.trigger g.farms seat event
  return ({ g with registry := registry, farms := farms }, report)

/-- Dispatches events to seats one after the other. -/
def triggerEach : List (Seat × Event) → Game → Checked (Game × List Report)
  | [], g => return (g, [])
  | (seat, event) :: rest, g => do
    let (g, report) ← g.trigger seat event
    let (g, reports) ← triggerEach rest g
    return (g, report :: reports)

/-- Dispatches an event of its own to every seat in turn order. -/
def triggerSeats (g : Game) (event : Seat → Event) : Checked (Game × List Report) :=
  triggerEach (g.seats.map fun seat => (seat, event seat)) g

/-- Dispatches an event to every seat in turn order, as an event that concerns that seat. -/
def triggerAll (g : Game) (event : Event) : Checked (Game × List Report) :=
  g.triggerSeats event.forSeat

/-- A seat uses an action space. -/
def act (g : Game) (seat : Seat) (action : Action) : Checked (Game × Report) :=
  g.trigger seat (.action seat action)

/-- A seat ends its turn. -/
def endTurn (g : Game) (seat : Seat) : Checked (Game × Report) :=
  g.trigger seat (.new .onTurnEnd seat)

/-- Starts a round on every farm, and then dispatches its start to every seat. -/
def beginRound (g : Game) : Checked (Game × List Report) := do
  let round ← g.round.plus 1
  { g with round := round, farms := g.farms.map Farm.startRound }.triggerSeats
    (.new .onRoundStart)

/-- Dispatches the moments of a harvest in order, each to every seat. -/
def harvest (g : Game) : Checked (Game × List Report) :=
  triggerEach (Moment.harvest.flatMap fun moment =>
    g.seats.map fun seat => (seat, .harvest moment seat g.round)) g

/-! ## The registry -/

/-- Ends every registration and starts the counters anew; the farms keep their copies. -/
def clearRegistry (g : Game) : Game := { g with registry := g.registry.clear }

/-- Every owned copy with its seat, by seat and then in the order of the farm. -/
def owned (g : Game) : List (Seat × CopyId) :=
  g.farms.entries.flatMap fun (seat, farm) => farm.copies.map fun c => (seat, c.id)

/-- Registers copies of a list that are not registered yet, and counts them. -/
def registerEach (farms : Seating Farm) : List (Seat × CopyId) → Registry → Registry × Nat
  | [], r => (r, 0)
  | (seat, id) :: rest, r =>
    match r.register? farms seat id with
    | none => registerEach farms rest r
    | some r => ((registerEach farms rest r).1, (registerEach farms rest r).2 + 1)

/-- Registers every owned copy that is not registered yet, and counts them. -/
def rebuildRegistry (g : Game) : Game × Nat :=
  let (registry, count) := registerEach g.farms g.owned g.registry
  ({ g with registry := registry }, count)

end Game

end Homestead
