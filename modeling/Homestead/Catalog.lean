import Homestead.Card
import Std.Data.HashMap

/-!
# Catalogs

A catalog holds the cards of a game, by identifier and by name. A card whose identifier or whose
name is already taken is refused, so neither index has two cards for one key.
-/

namespace Homestead

/-- The cards of a game, with an index by identifier and one by name. -/
structure Catalog where
  byId : Std.HashMap CardId Card
  idOfName : Std.HashMap String CardId

namespace Catalog

def empty : Catalog := ⟨∅, ∅⟩

instance : Inhabited Catalog := ⟨empty⟩

def get? (c : Catalog) (id : CardId) : Option Card := c.byId[id]?

def named? (c : Catalog) (name : String) : Option Card := do
  c.get? (← c.idOfName[name]?)

def contains (c : Catalog) (id : CardId) : Bool := c.byId.contains id

def size (c : Catalog) : Nat := c.byId.size

def isEmpty (c : Catalog) : Bool := c.byId.isEmpty

/-- The catalog with one more card, whose identifier and name must be free. -/
def insert (c : Catalog) (card : Card) : Except Refusal Catalog :=
  if c.byId.contains card.id then .error (.invalidInput (.idTaken card.id))
  else if c.idOfName.contains card.name then .error (.invalidInput (.nameTaken card.name))
  else .ok ⟨c.byId.insert card.id card, c.idOfName.insert card.name card.id⟩

/-- The catalog of the cards of a list, less those that clash with an earlier one. -/
def ofList (cards : List Card) : Catalog :=
  cards.foldl (fun c card => (c.insert card).toOption.getD c) empty

/-- The cards in the order of their identifiers. -/
def cards (c : Catalog) : List Card :=
  (c.byId.toList.map Prod.snd).mergeSort fun a b => a.id.number ≤ b.id.number

def occupations (c : Catalog) : List Card := c.cards.filter Card.isOccupation

def improvements (c : Catalog) : List Card := c.cards.filter Card.isImprovement

/-- The cards with a property, in the order of their identifiers. -/
def find (c : Catalog) (p : Card → Bool) : List Card := c.cards.filter p

end Catalog

end Homestead
