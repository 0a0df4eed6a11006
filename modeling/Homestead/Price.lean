import Homestead.Refusal
import Homestead.Store

/-!
# Prices

A price is paid when a card is played: resources, food besides, workers and victory points.
`Price.canPay` is the check and `Price.pay` the payment, which makes no check of its own;
`Price.tryPay` does both, and nothing when the check fails.
-/

namespace Homestead

/-- What has to be paid for a card. -/
structure Price where
  resources : Bundle
  workers : Count
  points : Amount
  /-- Food, in addition to any food among the resources. -/
  food : Amount
  deriving DecidableEq, Repr

namespace Price

def free : Price := ⟨.empty, 0, 0, 0⟩

def withResource (p : Price) (r : Resource) (n : Amount) : Price :=
  { p with resources := p.resources.push r n }

def withWorkers (p : Price) (n : Count) : Price := { p with workers := n }

def withPoints (p : Price) (n : Amount) : Price := { p with points := n }

/-- The price with another amount of food besides. -/
def withFood (p : Price) (n : Amount) : Price := { p with food := n }

/-- The resources of a price with the food besides as a last entry. -/
def goods (p : Price) : Bundle := p.resources.push .food p.food

def canPay (p : Price) (s : Store) : Checked Bool := do
  if ← s.covers p.goods then return p.workers ≤ s.workers ∧ p.points ≤ s.points
  else return false

/-- Takes the price from a store, whether or not the store covers it. -/
def pay (p : Price) (s : Store) : Checked Store := do
  let s ← s.withdrawAll p.goods
  (s.withdrawWorkers p.workers).addPoints (← p.points.opposite)

/-- Takes the price from a store that covers it. -/
def pay? (p : Price) (s : Store) : Checked (Option Store) := do
  if ← p.canPay s then some <$> p.pay s else return none

/-- Takes the price of a named card from a store, or refuses to. -/
def tryPay (p : Price) (s : Store) (card : String) : Checked (Except Refusal Store) := do
  match ← p.pay? s with
  | some s => return .ok s
  | none => return .error (.cannotPlay card .priceTooHigh)

end Price

end Homestead
