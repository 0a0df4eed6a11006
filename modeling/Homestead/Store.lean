import Homestead.Bonus
import Homestead.Identifier
import Homestead.Setup
import Homestead.Table

/-!
# Stores

A store is everything a farm has apart from its cards: the balance of each resource, victory
points, family and workers, rooms, fields and pastures, temporary bonuses, and what its kitchens
and storage can do.

Arithmetic that leaves its width is a fault. Payments by entry (`Store.withdrawAll`) make no check
of their own; `Store.covers` is the check that goes before them. A bonus, a cooking ratio or a
storage capacity that was never granted is absent, which is not the same as zero when the store is
written.
-/

namespace Homestead

/-- Everything a farm has apart from its cards. -/
structure Store where
  balances : Table Resource Amount
  points : Amount
  family : Count
  /-- The family members who are not placed yet this round. -/
  workers : Count
  rooms : Count
  fields : Count
  pastures : Count
  bonuses : Table Bonus (Option Amount)
  /-- The cards that count as kitchens, in the order in which they became so. -/
  kitchens : List CardId
  /-- Food for one unit of a resource. -/
  ratios : Table Resource (Option Count)
  capacities : Table Resource (Option Count)
  deriving DecidableEq

namespace Store

def empty : Store where
  balances := .replicate 0
  points := 0
  family := 0
  workers := 0
  rooms := 0
  fields := 0
  pastures := 0
  bonuses := .replicate none
  kitchens := []
  ratios := .replicate none
  capacities := .replicate none

instance : Inhabited Store := ⟨empty⟩

/-! ## Resources -/

/-- The balance of a resource, below zero where a payment was allowed to take it there. -/
def balance (s : Store) (r : Resource) : Amount := s.balances.get r

def setBalance (s : Store) (r : Resource) (n : Amount) : Store :=
  { s with balances := s.balances.set r n }

/-- Adds an amount of a resource, which a negative amount takes away. -/
def add (s : Store) (r : Resource) (n : Amount) : Checked Store := do
  return s.setBalance r (← (s.balance r).plus n)

/-- Adds every entry of a bundle in order. -/
def addAll (s : Store) (b : Bundle) : Checked Store :=
  b.entries.foldlM (fun s e => s.add e.1 e.2) s

/-- Takes an amount of a resource away, whether or not the balance covers it. -/
def withdraw (s : Store) (r : Resource) (n : Amount) : Checked Store := do
  return s.setBalance r (← (s.balance r).minus n)

/-- Takes every entry of a bundle away in order, whether or not the balances cover them. -/
def withdrawAll (s : Store) (b : Bundle) : Checked Store :=
  b.entries.foldlM (fun s e => s.withdraw e.1 e.2) s

/-- Takes an amount of a resource away if the balance covers it. -/
def spend? (s : Store) (r : Resource) (n : Amount) : Checked (Option Store) :=
  if s.balance r < n then return none else some <$> s.withdraw r n

/-- Does the balance of a resource fall short of what a bundle declares for it? -/
def fallsShort (s : Store) (b : Bundle) (r : Resource) : Checked Bool := do
  return s.balance r < (← b.amountOf r)

/-- The first entry of a bundle whose resource falls short of the bundle's sum for it. -/
def shortOf? (s : Store) (b : Bundle) : Checked (Option Resource) := do
  return (← b.entries.findM? fun e => s.fallsShort b e.1).map Prod.fst

/-- Does every resource of a bundle reach the bundle's sum for it? -/
def covers (s : Store) (b : Bundle) : Checked Bool :=
  b.entries.allM fun e => return !(← s.fallsShort b e.1)

/-! ## Victory points -/

/-- Adds victory points, which a negative amount takes away. -/
def addPoints (s : Store) (n : Amount) : Checked Store := do
  return { s with points := ← s.points.plus n }

/-! ## Family and buildings -/

def addRooms (s : Store) (n : Count) : Checked Store := do
  return { s with rooms := ← s.rooms.plus n }

def addFields (s : Store) (n : Count) : Checked Store := do
  return { s with fields := ← s.fields.plus n }

def addPastures (s : Store) (n : Count) : Checked Store := do
  return { s with pastures := ← s.pastures.plus n }

/-- Places workers, if as many are available. -/
def useWorkers? (s : Store) (n : Count) : Option Store :=
  if s.workers < n then none else some { s with workers := s.workers.less n }

/-- Places workers, or all of them if fewer are available. -/
def withdrawWorkers (s : Store) (n : Count) : Store := { s with workers := s.workers.less n }

/-- Takes every family member back from the board. -/
def returnWorkers (s : Store) : Store := { s with workers := s.family }

/-! ## Temporary bonuses -/

/-- The size of a bonus, zero if it was not granted. -/
def bonus (s : Store) (b : Bonus) : Amount := (s.bonuses.get b).getD 0

/-- Grants more of a bonus. -/
def addBonus (s : Store) (b : Bonus) (n : Amount) : Checked Store := do
  return { s with bonuses := s.bonuses.set b (some (← (s.bonus b).plus n)) }

def clearBonuses (s : Store) : Store := { s with bonuses := .replicate none }

/-! ## Kitchens and storage -/

/-- Counts a card as a kitchen, once. -/
def addKitchen (s : Store) (card : CardId) : Store :=
  if card ∈ s.kitchens then s else { s with kitchens := s.kitchens ++ [card] }

/-- The food that one unit of a resource cooks to, zero without a ratio. -/
def ratio (s : Store) (r : Resource) : Count := (s.ratios.get r).getD 0

/-- Grants a cooking ratio; the best one stays. -/
def addRatio (s : Store) (r : Resource) (n : Count) : Store :=
  { s with ratios := s.ratios.set r (some (max (s.ratio r) n)) }

def capacity (s : Store) (r : Resource) : Count := (s.capacities.get r).getD 0

/-- Grants further storage capacity for a resource. -/
def addCapacity (s : Store) (r : Resource) (n : Count) : Checked Store := do
  return { s with capacities := s.capacities.set r (some (← (s.capacity r).plus n)) }

/-! ## Starting stores -/

/-- The store with which every farm starts. -/
def ofSetup (setup : Setup) : Checked Store :=
  { empty with family := setup.family, workers := setup.family, rooms := setup.rooms }.addAll
    setup.resources

/-! ## Reading a changed store -/

@[simp] theorem balance_setBalance_self (s : Store) (r : Resource) (n : Amount) :
    (s.setBalance r n).balance r = n := Table.get_set_self ..

theorem balance_setBalance_ne (s : Store) {r q : Resource} (h : r ≠ q) (n : Amount) :
    (s.setBalance r n).balance q = s.balance q := Table.get_set_ne _ h _

theorem balance_setBalance (s : Store) (r q : Resource) (n : Amount) :
    (s.setBalance r n).balance q = if r = q then n else s.balance q := Table.get_set ..

@[simp] theorem balance_empty (r : Resource) : empty.balance r = 0 := Table.get_replicate ..

end Store

end Homestead
