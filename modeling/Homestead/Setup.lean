import Homestead.Bundle

/-!
# Setups

A setup says how a game starts: how many players, how payments treat a balance that does not cover
them, and what every farm has at the beginning.
-/

namespace Homestead

/-- How a payment treats a balance that does not cover it. -/
inductive PaymentPolicy where
  /-- The payment is declined and nothing changes. -/
  | strict
  /-- The payment is made and the balance may go below zero. -/
  | allowNegative
  deriving DecidableEq, Repr

namespace PaymentPolicy

def name : PaymentPolicy → String
  | strict => "Strict"
  | allowNegative => "AllowNegative"

instance : Enumerated PaymentPolicy where
  all := [strict, allowNegative]
  name := name
  mem_all k := by cases k <;> decide
  nodup_all := by decide
  name_injective {a b} := by cases a <;> cases b <;> decide

/-- May a balance drop below zero? -/
def allowsNegative : PaymentPolicy → Bool
  | strict => false
  | allowNegative => true

end PaymentPolicy

/-- How a game starts. -/
structure Setup where
  players : Nat
  policy : PaymentPolicy
  resources : Bundle
  family : Count
  rooms : Count
  deriving DecidableEq, Repr

namespace Setup

/-- The customary setup for a number of players from 1 to 255: strict payment, empty stores, two
family members and two rooms on every farm. -/
def new (players : Nat) : Checked Setup :=
  if players = 0 then .error .setupWithoutPlayers
  else if players ≤ 255 then .ok ⟨players, .strict, .empty, 2, 2⟩
  else .error .setupTooLarge

def withPolicy (s : Setup) (policy : PaymentPolicy) : Setup := { s with policy := policy }

def withResources (s : Setup) (resources : Bundle) : Setup := { s with resources := resources }

def withFamily (s : Setup) (family : Count) : Setup := { s with family := family }

def withRooms (s : Setup) (rooms : Count) : Setup := { s with rooms := rooms }

end Setup

end Homestead
