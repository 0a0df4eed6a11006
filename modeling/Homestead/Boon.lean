import Homestead.Deck.Ids
import Homestead.Special
import Homestead.Store

/-!
# Boons

What the label of a special effect means depends on the card. The table `Boon.of?` gives the boon of
a card and a label, for the few pairs that have one.
-/

namespace Homestead

/-- What a special effect does for the owner's store. -/
inductive Boon where
  | gain (resource : Resource) (amount : Amount)
  | bonus (bonus : Bonus) (amount : Amount)
  deriving DecidableEq, Repr

namespace Boon

/-- The pairs of card and label that have a boon. -/
def table : List ((CardId × Special) × Boon) :=
  [((Deck.firewoodCollectorId, .extraWood), .gain .wood 1),
    ((Deck.fieldWatchmanId, .extraGrain), .gain .grain 1),
    ((Deck.hedgeKeeperId, .fenceDiscount), .bonus .freeFences 3),
    ((Deck.carpenterId, .roomDiscount), .bonus .roomDiscount 1),
    ((Deck.animalTamerId, .animalCapacity), .bonus .animalCapacity 2),
    ((Deck.clayOvenId, .bakingBonus), .bonus .bakingBonus 1)]

/-- The boon of a card for a label. -/
def of? (card : CardId) (special : Special) : Option Boon := table.lookup (card, special)

/-- Grants a boon to a store. -/
def grant : Boon → Store → Checked Store
  | gain r n, s => s.add r n
  | bonus b n, s => s.addBonus b n

end Boon

end Homestead
