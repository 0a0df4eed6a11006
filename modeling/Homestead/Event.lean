import Homestead.Amount
import Homestead.Resource
import Homestead.Seat

/-!
# Moments and events

Effects fire at *moments* of the game: when a card is played, when an action is taken, at the start
of a round, at the stages of a harvest. An *event* is one occurrence of a moment: the seat it
concerns, what happened (its *payload*) and possibly a free text that narrows down which effects it
is meant for.
-/

namespace Homestead

/-- A moment of the game at which effects can fire. An effect fires at its own moment alone. -/
inductive Moment where
  /-- When the card is played. -/
  | immediate
  /-- When the owner takes an action. -/
  | onAction
  | onHarvest
  /-- After animals bred. -/
  | onBreeding
  /-- At the end of the owner's turn. -/
  | onTurnEnd
  | onRoundStart
  /-- Never occurs; it marks effects that always hold. -/
  | passive
  | beforeHarvest
  | harvestStart
  | fieldPhase
  | feedingPhase
  | breedingPhase
  | harvestEnd
  deriving DecidableEq, Repr

namespace Moment

def name : Moment → String
  | immediate => "Immediate"
  | onAction => "OnAction"
  | onHarvest => "OnHarvest"
  | onBreeding => "OnBreeding"
  | onTurnEnd => "OnTurnEnd"
  | onRoundStart => "OnRoundStart"
  | passive => "Passive"
  | beforeHarvest => "BeforeHarvest"
  | harvestStart => "HarvestStart"
  | fieldPhase => "FieldPhase"
  | feedingPhase => "FeedingPhase"
  | breedingPhase => "BreedingPhase"
  | harvestEnd => "HarvestEnd"

instance : Enumerated Moment where
  all := [immediate, onAction, onHarvest, onBreeding, onTurnEnd, onRoundStart, passive,
    beforeHarvest, harvestStart, fieldPhase, feedingPhase, breedingPhase, harvestEnd]
  name := name
  mem_all k := by cases k <;> decide
  nodup_all := by decide
  name_injective {a b} := by cases a <;> cases b <;> decide

instance : ToString Moment := ⟨name⟩

/-- The moments of a harvest in the order in which they occur. -/
def harvest : List Moment :=
  [beforeHarvest, harvestStart, onHarvest, fieldPhase, feedingPhase, breedingPhase, onBreeding,
    harvestEnd]

def isHarvest (m : Moment) : Bool := m ∈ harvest

end Moment

/-- What an action space is for. -/
inductive ActionCategory where
  | gathering
  | farming
  | building
  | family
  | animals
  | improvement
  | occupation
  | special
  deriving DecidableEq, Repr

namespace ActionCategory

def name : ActionCategory → String
  | gathering => "Gathering"
  | farming => "Farming"
  | building => "Building"
  | family => "Family"
  | animals => "Animals"
  | improvement => "Improvement"
  | occupation => "Occupation"
  | special => "Special"

instance : Enumerated ActionCategory where
  all := [gathering, farming, building, family, animals, improvement, occupation, special]
  name := name
  mem_all k := by cases k <;> decide
  nodup_all := by decide
  name_injective {a b} := by cases a <;> cases b <;> decide

instance : ToString ActionCategory := ⟨name⟩

end ActionCategory

/-- The use of an action space. -/
structure Action where
  name : String
  category : ActionCategory
  deriving DecidableEq, Repr

/-- Resources that came to a farm, and from where. -/
structure Delivery where
  resource : Resource
  amount : Amount
  source : String
  deriving DecidableEq, Repr

/-- A stage of the harvest of a round. -/
structure Harvest where
  round : Count
  deriving DecidableEq, Repr

/-- What happened at an event. -/
inductive Payload where
  | none
  | action (action : Action)
  /-- Resources taken from an action space. -/
  | take (delivery : Delivery)
  /-- Resources received from anywhere. -/
  | receive (delivery : Delivery)
  | harvest (harvest : Harvest)
  deriving DecidableEq, Repr

/-- One occurrence of a moment. -/
structure Event where
  moment : Moment
  seat : Seat
  payload : Payload
  /-- The free text that an effect's condition has to be related to, if there is one. -/
  filter : Option String
  deriving DecidableEq, Repr

namespace Event

/-- The event of a moment at which nothing further is known. -/
def new (moment : Moment) (seat : Seat) : Event := ⟨moment, seat, .none, none⟩

def withPayload (e : Event) (payload : Payload) : Event := { e with payload := payload }

def withFilter (e : Event) (text : String) : Event := { e with filter := some text }

/-- The same event, concerning another seat. -/
def forSeat (e : Event) (seat : Seat) : Event := { e with seat := seat }

/-- A seat took an action. -/
def action (seat : Seat) (action : Action) : Event :=
  (new .onAction seat).withPayload (.action action)

/-- A stage of the harvest of a round. -/
def harvest (moment : Moment) (seat : Seat) (round : Count) : Event :=
  (new moment seat).withPayload (.harvest ⟨round⟩)

/-- The filter of the event; the empty text lets everything pass. -/
def filterText (e : Event) : String := e.filter.getD ""

/-- The action that was taken, if the event is about one. -/
def action? (e : Event) : Option Action :=
  match e.payload with
  | .action a => some a
  | _ => none

end Event

end Homestead
