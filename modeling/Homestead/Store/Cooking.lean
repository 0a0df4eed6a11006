import Homestead.Store

/-!
# Cooking

A farm with a cooking ratio for a resource can turn units of it into food. Cooking happens as a
whole or not at all: nothing is cooked, and nothing changes, when the amount is zero or more than
the balance, when there is no ratio, when the resource is food itself, or when the food gained or
the new food balance would not be an amount.
-/

namespace Homestead.Store

/-- Cooks `n` units of `r`, if that is possible, and tells the food gained. -/
def cook? (s : Store) (r : Resource) (n : Count) : Option (Store × Amount) := do
  let units ← n.toAmount?
  let rate ← (s.ratio r).toAmount?
  guard (units ≠ 0 ∧ rate ≠ 0 ∧ r ≠ .food ∧ units ≤ s.balance r)
  let meal ← Amount.ofInt? (units.toInt * rate.toInt)
  let left ← Amount.ofInt? ((s.balance r).toInt - units.toInt)
  let larder ← Amount.ofInt? ((s.balance .food).toInt + meal.toInt)
  return ((s.setBalance r left).setBalance .food larder, meal)

/-- Cooks `n` units of `r`, or nothing, and tells the food gained. -/
def cook (s : Store) (r : Resource) (n : Count) : Store × Amount := (s.cook? r n).getD (s, 0)

end Homestead.Store
