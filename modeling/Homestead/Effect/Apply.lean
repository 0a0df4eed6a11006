import Homestead.Boon
import Homestead.Card

/-!
# Applying an effect

Applying an effect of a card to a store first checks everything that can be refused: that the card
has a boon for the effect's label, and, under strict payment, that the balances reach the costs.
Then the costs are taken, the gains added, the victory points counted and the boon granted. So a
refused effect leaves no trace.
-/

namespace Homestead.Effect

/-- The boon that an effect of a card grants: none without a label, an obstacle if the card has no
boon for the label. -/
def boon (card : CardId) (e : Effect) : Except Obstacle (Option Boon) :=
  match e.special with
  | none => .ok none
  | some special =>
    match Boon.of? card special with
    | some boon => .ok (some boon)
    | none => .error (.noBoon special)

/-- The first cost of an effect that a store does not reach, where that matters. -/
def unpaid? (e : Effect) (policy : PaymentPolicy) (s : Store) : Checked (Option Resource) :=
  if policy.allowsNegative then return none else s.shortOf? e.costs

/-- Takes the costs and gives everything that an effect gives, with `boon` as its boon. -/
def settle (e : Effect) (boon : Option Boon) (s : Store) : Checked Store := do
  let s ← s.withdrawAll e.costs
  let s ← s.addAll e.gains
  let s ← if e.points = 0 then pure s else s.addPoints e.points
  match boon with
  | none => return s
  | some boon => boon.grant s

/-- Applies an effect of a card to a store, or refuses to. -/
def apply (e : Effect) (card : Card) (policy : PaymentPolicy) (s : Store) :
    Checked (Except Refusal Store) := do
  match e.boon card.id with
  | .error obstacle => return .error (.effectFailed card.name card.id e.id obstacle)
  | .ok boon =>
    match ← e.unpaid? policy s with
    | some r => return .error (.effectFailed card.name card.id e.id (.notEnough r))
    | none => .ok <$> e.settle boon s

end Homestead.Effect
