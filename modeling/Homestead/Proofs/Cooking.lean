import Homestead.Proofs.Checked
import Homestead.Store.Cooking
import Mathlib.Algebra.Order.Ring.Int
import Mathlib.Tactic.ByContra

/-!
# Cooking

When a farm can cook is a condition on exact integers (`Store.CanCook`), and what it then comes to
is a relation between the store before and after (`Store.Cooked`). A store cooks if it can, and is
left as it was if it cannot (`Store.cooks_exactly`). Both compose over amounts: what can be cooked
at once can be cooked in batches, and in batches it comes to the same. For the converse the food
balance must not be below zero, since a debt leaves room for batches of which the sum is too large
to be an amount (`Store.cooking_in_batches`).
-/

namespace Homestead.Store

/-- In exact numbers, `n` units of `r` can be cooked. -/
structure CanCook (s : Store) (r : Resource) (n : Nat) : Prop where
  ne_food : r ≠ .food
  some_units : 1 ≤ n
  enough : (n : Int) ≤ (s.balance r).toInt
  some_rate : 1 ≤ (s.ratio r).toNat
  meal_le : n * (s.ratio r).toNat ≤ 2147483647
  larder_le : (s.balance .food).toInt + (n * (s.ratio r).toNat : Nat) ≤ 2147483647

/-- The units are gone and the food for them is there, and nothing else is different. -/
structure Cooked (s : Store) (r : Resource) (n : Nat) (t : Store) (meal : Int) : Prop where
  meal_eq : meal = (n * (s.ratio r).toNat : Nat)
  spent : (t.balance r).toInt = (s.balance r).toInt - n
  gained : (t.balance .food).toInt = (s.balance .food).toInt + meal
  others : ∀ q, q ≠ r → q ≠ .food → t.balance q = s.balance q
  rest : t = { s with balances := t.balances }

/-- The amounts for so many units and their rate, the food that they give and the food that there is
then. -/
structure Recipe (s : Store) (r : Resource) (n : Count) (units rate meal larder : Amount) :
    Prop where
  units_eq : units.toInt = n.toNat
  rate_eq : rate.toInt = (s.ratio r).toNat
  meal_eq : meal.toInt = units.toInt * rate.toInt
  larder_eq : larder.toInt = (s.balance .food).toInt + meal.toInt

/-- Units, the food for them and the food that there is then, if all of these are amounts and there
is anything to cook. -/
def plan? (s : Store) (r : Resource) (n : Count) : Option (Amount × Amount × Amount) := do
  let units ← n.toAmount?
  guard (¬(units = 0 ∨ s.ratio r = 0 ∨ r = .food))
  let meal ← (s.ratio r).toAmount?.bind fun rate => Amount.ofInt? (units.toInt * rate.toInt)
  let larder ← Amount.ofInt? ((s.balance .food).toInt + meal.toInt)
  return (units, meal, larder)

/-- Cooking with the units taken away as a payment, which the balance may not cover, and of which
the subtraction could overflow. -/
def cookByPayment (s : Store) (r : Resource) (n : Count) : Checked (Store × Amount) :=
  (s.plan? r n).elim (return (s, 0)) fun (units, meal, larder) => do
    match ← s.spend? r units with
    | none => return (s, 0)
    | some t => return (t.setBalance .food larder, meal)

/-- Cooks batches of a resource one after the other and tells the food gained by each. -/
def cookEach (r : Resource) : List Count → Store → Store × List Amount
  | [], s => (s, [])
  | n :: rest, s =>
    ((cookEach r rest (s.cook r n).1).1, (s.cook r n).2 :: (cookEach r rest (s.cook r n).1).2)

/-- The units of several batches together. -/
def unitsOf (batches : List Count) : Nat := (batches.map UInt32.toNat).sum

/-- The food of several batches together. -/
def foodOf (meals : List Amount) : Int := (meals.map Int32.toInt).sum

variable {s t u : Store} {r : Resource} {n total : Count} {a b : Nat} {meal : Amount} {m m' : Int}
  {batches order : List Count}

/-! ## Recipes -/

namespace Recipe

variable {units rate meal larder left : Amount}

/-- With amounts for everything, it depends on these alone whether there is anything to cook. -/
theorem canCook_iff (h : s.Recipe r n units rate meal larder) :
    s.CanCook r n.toNat ↔ units ≠ 0 ∧ rate ≠ 0 ∧ r ≠ .food ∧ units ≤ s.balance r := by
  obtain ⟨units_eq, rate_eq, meal_eq, larder_eq⟩ := h
  rw [units_eq, rate_eq, ← Int.natCast_mul] at meal_eq
  have units_zero : units = 0 ↔ n.toNat = 0 := by
    rw [← Int32.toInt_inj, units_eq, Int32.toInt_zero, Int.natCast_eq_zero]
  have rate_zero : rate = 0 ↔ (s.ratio r).toNat = 0 := by
    rw [← Int32.toInt_inj, rate_eq, Int32.toInt_zero, Int.natCast_eq_zero]
  rw [ne_eq, ne_eq, units_zero, rate_zero, Int32.le_iff_toInt_le, units_eq]
  constructor
  · intro can
    exact ⟨Nat.ne_of_gt can.some_units, Nat.ne_of_gt can.some_rate, can.ne_food, can.enough⟩
  · intro possible
    obtain ⟨some_units, some_rate, food, enough⟩ := possible
    have meal_fits := meal.toInt_lt
    have larder_fits := larder.toInt_lt
    exact ⟨food, Nat.pos_of_ne_zero some_units, enough, Nat.pos_of_ne_zero some_rate, by omega,
      by omega⟩

theorem cooked (h : s.Recipe r n units rate meal larder) (food : r ≠ .food)
    (hleft : left.toInt = (s.balance r).toInt - units.toInt) :
    s.Cooked r n.toNat ((s.setBalance r left).setBalance .food larder) meal.toInt where
  meal_eq := by rw [h.meal_eq, h.units_eq, h.rate_eq, Int.natCast_mul]
  spent := by
    rw [balance_setBalance_ne _ food.symm, balance_setBalance_self, hleft, h.units_eq]
  gained := by rw [balance_setBalance_self, h.larder_eq]
  others q hr hfood := by rw [balance_setBalance_ne _ hfood.symm, balance_setBalance_ne _ hr.symm]
  rest := rfl

theorem cook?_eq (h : s.Recipe r n units rate meal larder) (can : s.CanCook r n.toNat)
    (hleft : left.toInt = (s.balance r).toInt - units.toInt) :
    s.cook? r n = some ((s.setBalance r left).setBalance .food larder, meal) := by
  unfold cook?
  refine Option.bind_eq_some_iff.2 ⟨units, Amount.ofInt?_eq_some_iff.2 h.units_eq, ?_⟩
  refine Option.bind_eq_some_iff.2 ⟨rate, Amount.ofInt?_eq_some_iff.2 h.rate_eq, ?_⟩
  refine Option.bind_eq_some_iff.2 ⟨(), if_pos (h.canCook_iff.1 can), ?_⟩
  refine Option.bind_eq_some_iff.2 ⟨meal, Amount.ofInt?_eq_some_iff.2 h.meal_eq, ?_⟩
  refine Option.bind_eq_some_iff.2 ⟨left, Amount.ofInt?_eq_some_iff.2 hleft, ?_⟩
  exact Option.bind_eq_some_iff.2 ⟨larder, Amount.ofInt?_eq_some_iff.2 h.larder_eq, rfl⟩

theorem of_cook? {meal : Amount} (h : s.cook? r n = some (t, meal)) :
    ∃ units rate larder left, s.Recipe r n units rate meal larder ∧ s.CanCook r n.toNat ∧
      left.toInt = (s.balance r).toInt - units.toInt ∧
      t = (s.setBalance r left).setBalance .food larder := by
  unfold cook? at h
  obtain ⟨units, hunits, h⟩ := Option.bind_eq_some_iff.1 h
  obtain ⟨rate, hrate, h⟩ := Option.bind_eq_some_iff.1 h
  obtain ⟨_, hguard, h⟩ := Option.bind_eq_some_iff.1 h
  obtain ⟨food, hfood, h⟩ := Option.bind_eq_some_iff.1 h
  obtain ⟨left, hleft, h⟩ := Option.bind_eq_some_iff.1 h
  obtain ⟨larder, hlarder, h⟩ := Option.bind_eq_some_iff.1 h
  cases h
  rw [Count.toAmount?, Amount.ofInt?_eq_some_iff] at hunits hrate
  rw [Amount.ofInt?_eq_some_iff] at hfood hleft hlarder
  have recipe : s.Recipe r n units rate meal larder := ⟨hunits, hrate, hfood, hlarder⟩
  unfold guard at hguard
  split at hguard
  · rename_i possible
    exact ⟨units, rate, larder, left, recipe, recipe.canCook_iff.2 possible, hleft, rfl⟩
  · cases hguard

end Recipe

/-! ## Cooking at once -/

/-- What can be cooked comes up as amounts. -/
theorem CanCook.exists_recipe (h : s.CanCook r n.toNat) :
    ∃ units rate meal larder left : Amount, s.Recipe r n units rate meal larder ∧
      left.toInt = (s.balance r).toInt - units.toInt := by
  obtain ⟨-, some_units, enough, -, meal_le, larder_le⟩ := h
  have stock := (s.balance r).fits_toInt
  have pantry := (s.balance .food).fits_toInt
  unfold Amount.Fits at stock pantry
  have rate_le : (s.ratio r).toNat ≤ n.toNat * (s.ratio r).toNat :=
    Nat.le_mul_of_pos_left _ some_units
  obtain ⟨units, units_eq⟩ := Amount.exists_toInt_eq (n := n.toNat) (by unfold Amount.Fits; omega)
  obtain ⟨rate, rate_eq⟩ :=
    Amount.exists_toInt_eq (n := (s.ratio r).toNat) (by unfold Amount.Fits; omega)
  obtain ⟨meal, meal_eq⟩ := Amount.exists_toInt_eq (n := (n.toNat * (s.ratio r).toNat : Nat))
    (by unfold Amount.Fits; omega)
  obtain ⟨larder, larder_eq⟩ :=
    Amount.exists_toInt_eq (n := (s.balance .food).toInt + (n.toNat * (s.ratio r).toNat : Nat))
      (by unfold Amount.Fits; omega)
  obtain ⟨left, left_eq⟩ := Amount.exists_toInt_eq (n := (s.balance r).toInt - n.toNat)
    (by unfold Amount.Fits; omega)
  refine ⟨units, rate, meal, larder, left, ⟨units_eq, rate_eq, ?_, ?_⟩, ?_⟩
  · rw [meal_eq, units_eq, rate_eq, Int.natCast_mul]
  · rw [larder_eq, meal_eq]
  · rw [left_eq, units_eq]

theorem CanCook.cooked (h : s.CanCook r n.toNat) :
    s.Cooked r n.toNat (s.cook r n).1 (s.cook r n).2.toInt := by
  obtain ⟨units, rate, meal, larder, left, recipe, hleft⟩ := h.exists_recipe
  rw [cook, recipe.cook?_eq h hleft]
  exact recipe.cooked h.ne_food hleft

theorem cook_of_not_canCook (h : ¬s.CanCook r n.toNat) : s.cook r n = (s, 0) := by
  rw [cook]
  cases hcook : s.cook? r n with
  | none => rfl
  | some cooked =>
    obtain ⟨_, _, _, _, -, can, -⟩ := Recipe.of_cook? hcook
    exact absurd can h

/-- Either it could be cooked and was, or nothing happened. -/
theorem cook_cases (h : s.cook r n = (t, meal)) :
    (s.CanCook r n.toNat ∧ s.Cooked r n.toNat t meal.toInt) ∨ (t = s ∧ meal = 0) := by
  by_cases can : s.CanCook r n.toNat
  · have cooked := can.cooked
    rw [h] at cooked
    exact .inl ⟨can, cooked⟩
  · exact .inr (Prod.mk.inj (h.symm.trans (cook_of_not_canCook can)))

/-- Food comes of cooking just where it is possible. -/
theorem cook_ne_zero_iff : (s.cook r n).2 ≠ 0 ↔ s.CanCook r n.toNat := by
  constructor
  · intro some_food
    by_contra cannot
    rw [cook_of_not_canCook cannot] at some_food
    exact some_food rfl
  · intro can none
    have meal := can.cooked.meal_eq
    have some_food := Nat.mul_pos can.some_units can.some_rate
    rw [none, Int32.toInt_zero] at meal
    omega

theorem spend?_of_le {units left : Amount} (enough : units ≤ s.balance r)
    (hleft : left.toInt = (s.balance r).toInt - units.toInt) :
    s.spend? r units = .ok (some (s.setBalance r left)) := by
  have taken : s.withdraw r units = .ok (s.setBalance r left) := by
    rw [withdraw, Amount.minus_eq_ok_iff.2 hleft]
    rfl
  rw [spend?, if_neg (Int32.not_lt.2 enough), taken, Checked.map_ok]

theorem CanCook.plan?_eq {units rate meal larder : Amount} (h : s.CanCook r n.toNat)
    (recipe : s.Recipe r n units rate meal larder) : s.plan? r n = some (units, meal, larder) := by
  have possible : ¬(units = 0 ∨ s.ratio r = 0 ∨ r = .food) := by
    obtain ⟨units_ne, -, food, -⟩ := recipe.canCook_iff.1 h
    have some_rate := h.some_rate
    rw [not_or, not_or]
    refine ⟨units_ne, fun none => ?_, food⟩
    rw [none] at some_rate
    exact absurd some_rate (by decide)
  unfold plan?
  refine Option.bind_eq_some_iff.2 ⟨units, Amount.ofInt?_eq_some_iff.2 recipe.units_eq, ?_⟩
  refine Option.bind_eq_some_iff.2 ⟨(), if_pos possible, ?_⟩
  refine Option.bind_eq_some_iff.2 ⟨meal, ?_, ?_⟩
  · exact Option.bind_eq_some_iff.2 ⟨rate, Amount.ofInt?_eq_some_iff.2 recipe.rate_eq,
      Amount.ofInt?_eq_some_iff.2 recipe.meal_eq⟩
  · exact Option.bind_eq_some_iff.2 ⟨larder, Amount.ofInt?_eq_some_iff.2 recipe.larder_eq, rfl⟩

theorem canCook_of_plan? {units meal larder : Amount} (h : s.plan? r n = some (units, meal, larder))
    (enough : units ≤ s.balance r) : s.CanCook r n.toNat := by
  unfold plan? at h
  obtain ⟨units, hunits, h⟩ := Option.bind_eq_some_iff.1 h
  obtain ⟨_, hguard, h⟩ := Option.bind_eq_some_iff.1 h
  obtain ⟨meal, hmeal, h⟩ := Option.bind_eq_some_iff.1 h
  obtain ⟨larder, hlarder, h⟩ := Option.bind_eq_some_iff.1 h
  obtain ⟨rate, hrate, hmeal⟩ := Option.bind_eq_some_iff.1 hmeal
  cases h
  rw [Count.toAmount?, Amount.ofInt?_eq_some_iff] at hunits hrate
  rw [Amount.ofInt?_eq_some_iff] at hmeal hlarder
  have recipe : s.Recipe r n units rate meal larder := ⟨hunits, hrate, hmeal, hlarder⟩
  unfold guard at hguard
  split at hguard
  · rename_i possible
    rw [not_or, not_or] at possible
    obtain ⟨units_ne, ratio_ne, food⟩ := possible
    refine recipe.canCook_iff.2 ⟨units_ne, ?_, food, enough⟩
    rintro rfl
    refine ratio_ne (UInt32.toNat_inj.1 ?_)
    rw [Int32.toInt_zero] at hrate
    exact (Int.natCast_eq_zero.1 hrate.symm)
  · cases hguard

/-- Paying the units comes to the same, and the payment does not overflow. -/
theorem cookByPayment_eq (s : Store) (r : Resource) (n : Count) :
    s.cookByPayment r n = .ok (s.cook r n) := by
  by_cases can : s.CanCook r n.toNat
  · obtain ⟨units, rate, meal, larder, left, recipe, hleft⟩ := can.exists_recipe
    obtain ⟨-, -, -, enough⟩ := recipe.canCook_iff.1 can
    rw [cook, recipe.cook?_eq can hleft, cookByPayment, can.plan?_eq recipe]
    dsimp only [Option.elim_some]
    rw [spend?_of_le enough hleft]
    rfl
  · rw [cook_of_not_canCook can, cookByPayment]
    cases hplan : s.plan? r n with
    | none => rfl
    | some plan =>
      obtain ⟨units, meal, larder⟩ := plan
      have short : s.balance r < units := by
        by_contra enough
        exact can (canCook_of_plan? hplan (Int32.not_lt.1 enough))
      dsimp only [Option.elim_some]
      rw [spend?, if_pos short]
      rfl

/-- Cooking is exact and all or nothing. Food comes of it, as much as the rate says, just where in
exact integers there are units to cook, a rate for them, enough of the resource, which is no food,
and room for the food; the resource and the food then account for it and nothing else changes. In
every other case nothing happens at all. The payment of the units never overflows. -/
theorem cooks_exactly (s : Store) (r : Resource) (n : Count) :
    s.cookByPayment r n = .ok (s.cook r n) ∧
      ((s.cook r n).2 ≠ 0 ∧ s.Cooked r n.toNat (s.cook r n).1 (s.cook r n).2.toInt ↔
        s.CanCook r n.toNat) ∧
      (¬s.CanCook r n.toNat → s.cook r n = (s, 0)) :=
  ⟨cookByPayment_eq s r n,
    ⟨fun h => cook_ne_zero_iff.1 h.1, fun h => ⟨cook_ne_zero_iff.2 h, h.cooked⟩⟩,
    cook_of_not_canCook⟩

/-! ## Cooking in batches -/

namespace Cooked

theorem refl (s : Store) (r : Resource) : s.Cooked r 0 s 0 where
  meal_eq := by rw [Nat.zero_mul]; rfl
  spent := (Int.sub_zero _).symm
  gained := (Int.add_zero _).symm
  others _ _ _ := rfl
  rest := rfl

theorem ratio_eq (h : s.Cooked r a t m) (q : Resource) : t.ratio q = s.ratio q := by
  rw [h.rest]
  rfl

theorem trans (h : s.Cooked r a t m) (h' : t.Cooked r b u m') : s.Cooked r (a + b) u (m + m') where
  meal_eq := by
    rw [h.meal_eq, h'.meal_eq, h.ratio_eq, Nat.add_mul]
    omega
  spent := by
    rw [h'.spent, h.spent]
    omega
  gained := by rw [h'.gained, h.gained, Int.add_assoc]
  others q hr hfood := (h'.others q hr hfood).trans (h.others q hr hfood)
  rest := by
    rw [h'.rest, h.rest]

/-- What cooking comes to is determined. -/
theorem unique (h : s.Cooked r a t m) (h' : s.Cooked r a u m') (food : r ≠ .food) :
    t = u ∧ m = m' := by
  have meal : m = m' := h.meal_eq.trans h'.meal_eq.symm
  have balances : t.balances = u.balances := by
    apply Table.ext_get
    intro q
    by_cases hr : q = r
    · subst hr
      exact Int32.toInt_inj.1 (h.spent.trans h'.spent.symm)
    by_cases hfood : q = .food
    · subst hfood
      refine Int32.toInt_inj.1 (h.gained.trans ?_)
      rw [meal]
      exact h'.gained.symm
    · exact (h.others q hr hfood).trans (h'.others q hr hfood).symm
  refine ⟨?_, meal⟩
  rw [h.rest, h'.rest, balances]

end Cooked

/-- What can be cooked at once can be begun with a first batch. -/
theorem CanCook.first (h : s.CanCook r (a + b)) (some_units : 1 ≤ a) : s.CanCook r a := by
  obtain ⟨food, -, enough, some_rate, meal_le, larder_le⟩ := h
  rw [Nat.add_mul] at meal_le larder_le
  exact ⟨food, some_units, by omega, some_rate, by omega, by omega⟩

/-- After the first batch the others can still be cooked. -/
theorem CanCook.others (h : s.CanCook r (a + b)) (cooked : s.Cooked r a t m) (some_units : 1 ≤ b) :
    t.CanCook r b := by
  obtain ⟨food, -, enough, some_rate, meal_le, larder_le⟩ := h
  have spent := cooked.spent
  have gained := cooked.gained
  rw [Nat.add_mul] at meal_le larder_le
  rw [cooked.meal_eq] at gained
  rw [← cooked.ratio_eq r] at some_rate meal_le larder_le gained
  exact ⟨food, some_units, by omega, some_rate, by omega, by omega⟩

theorem unitsOf_cons (n : Count) (batches : List Count) :
    unitsOf (n :: batches) = n.toNat + unitsOf batches := List.sum_cons

theorem foodOf_cons (meal : Amount) (meals : List Amount) :
    foodOf (meal :: meals) = meal.toInt + foodOf meals := List.sum_cons

theorem unitsOf_perm (h : order.Perm batches) : unitsOf order = unitsOf batches :=
  (h.map UInt32.toNat).sum_nat

/-- Batches of which each gives food come to what their sum comes to. -/
theorem cooked_cookEach (h : ∀ meal ∈ (cookEach r batches s).2, meal ≠ 0) :
    s.Cooked r (unitsOf batches) (cookEach r batches s).1 (foodOf (cookEach r batches s).2) := by
  induction batches generalizing s with
  | nil => exact .refl s r
  | cons n rest ih =>
    obtain ⟨first, others⟩ := List.forall_mem_cons.1 h
    rw [unitsOf_cons, cookEach, foodOf_cons]
    exact (cook_ne_zero_iff.1 first).cooked.trans (ih others)

/-- Where the sum can be cooked, each batch gives food. -/
theorem cookEach_ne_zero (positive : ∀ n ∈ batches, 0 < n) (h : s.CanCook r (unitsOf batches)) :
    ∀ meal ∈ (cookEach r batches s).2, meal ≠ 0 := by
  induction batches generalizing s with
  | nil => nofun
  | cons n rest ih =>
    obtain ⟨some_units, positive⟩ := List.forall_mem_cons.1 positive
    rw [unitsOf_cons] at h
    have first := h.first (UInt32.lt_iff_toNat_lt.1 some_units)
    refine List.forall_mem_cons.2 ⟨cook_ne_zero_iff.2 first, ?_⟩
    cases rest with
    | nil => nofun
    | cons next rest =>
      have some_next : 1 ≤ next.toNat :=
        UInt32.lt_iff_toNat_lt.1 (positive next List.mem_cons_self)
      have some_others : 1 ≤ unitsOf (next :: rest) := by
        rw [unitsOf_cons]
        omega
      exact ih positive (h.others first.cooked some_others)

/-- Where each batch gives food, there was enough for all of them. -/
theorem unitsOf_le_balance (h : ∀ meal ∈ (cookEach r (n :: batches) s).2, meal ≠ 0) :
    (unitsOf (n :: batches) : Int) ≤ (s.balance r).toInt := by
  induction batches generalizing n s with
  | nil =>
    have first := cook_ne_zero_iff.1 (List.forall_mem_cons.1 h).1
    exact first.enough
  | cons next rest ih =>
    obtain ⟨first, others⟩ := List.forall_mem_cons.1 h
    have spent := (cook_ne_zero_iff.1 first).cooked.spent
    have enough := ih others
    rw [unitsOf_cons]
    omega

/-- Where each batch gives food, the sum can be cooked, unless the food balance was below zero. -/
theorem canCook_of_cookEach (solvent : 0 ≤ s.balance .food)
    (h : ∀ meal ∈ (cookEach r (n :: batches) s).2, meal ≠ 0) :
    s.CanCook r (unitsOf (n :: batches)) := by
  obtain ⟨food, some_units, -, some_rate, -, -⟩ :=
    cook_ne_zero_iff.1 (List.forall_mem_cons.1 h).1
  have cooked := cooked_cookEach h
  have pantry := Int32.le_iff_toInt_le.1 solvent
  have larder := ((cookEach r (n :: batches) s).1.balance .food).toInt_lt
  rw [cooked.gained, cooked.meal_eq] at larder
  rw [Int32.toInt_zero] at pantry
  have some_sum : 1 ≤ unitsOf (n :: batches) := by
    rw [unitsOf_cons]
    omega
  exact ⟨food, some_sum, unitsOf_le_balance h, some_rate, by omega, by omega⟩

/-- Whatever can be cooked at once can be cooked in batches of any sizes and in any order; each
gives food, together as much, and the store is the same in the end. If the food balance is not below
zero, what is cooked in batches can be cooked at once. -/
theorem cooking_in_batches (s : Store) (r : Resource) (nonempty : batches ≠ [])
    (positive : ∀ n ∈ batches, 0 < n) (sum : unitsOf batches = total.toNat)
    (perm : order.Perm batches) :
    ((s.cook r total).2 ≠ 0 →
      (∀ meal ∈ (cookEach r order s).2, meal ≠ 0) ∧
        foodOf (cookEach r order s).2 = (s.cook r total).2.toInt ∧
        (cookEach r order s).1 = (s.cook r total).1) ∧
    (0 ≤ s.balance .food → (∀ meal ∈ (cookEach r order s).2, meal ≠ 0) →
      (s.cook r total).2 ≠ 0 ∧ (s.cook r total).2.toInt = foodOf (cookEach r order s).2 ∧
        (s.cook r total).1 = (cookEach r order s).1) := by
  have units : unitsOf order = total.toNat := (unitsOf_perm perm).trans sum
  have same (can : s.CanCook r total.toNat) (each : ∀ meal ∈ (cookEach r order s).2, meal ≠ 0) :
      (cookEach r order s).1 = (s.cook r total).1 ∧
        foodOf (cookEach r order s).2 = (s.cook r total).2.toInt :=
    (units ▸ cooked_cookEach each).unique can.cooked can.ne_food
  constructor
  · intro some_food
    have can := cook_ne_zero_iff.1 some_food
    have each : ∀ meal ∈ (cookEach r order s).2, meal ≠ 0 :=
      cookEach_ne_zero (fun n hn => positive n (perm.mem_iff.1 hn)) (units ▸ can)
    obtain ⟨store, food⟩ := same can each
    exact ⟨each, food, store⟩
  · intro solvent each
    have can : s.CanCook r total.toNat := by
      rw [← units]
      cases order with
      | nil => exact absurd perm.nil_eq.symm nonempty
      | cons n rest => exact canCook_of_cookEach solvent each
    obtain ⟨store, food⟩ := same can each
    exact ⟨cook_ne_zero_iff.2 can, food.symm, store.symm⟩

/-- A store of so much grain and food in which a grain cooks to so much. -/
def granary (grain food : Amount) (rate : Count) : Store :=
  ((empty.addRatio .grain rate).setBalance .grain grain).setBalance .food food

/-- Five grain at two food each, at once and in two batches. -/
theorem cooking_in_batches_grain :
    (cookEach .grain [3, 2] (granary 6 1 2)).1 = ((granary 6 1 2).cook .grain 5).1 ∧
      foodOf (cookEach .grain [3, 2] (granary 6 1 2)).2 = 10 ∧
      ((granary 6 1 2).cook .grain 5).2 ≠ 0 := by
  have positive : ∀ n ∈ ([2, 3] : List Count), 0 < n := by simp
  have law := cooking_in_batches (granary 6 1 2) .grain (List.cons_ne_nil _ _) positive
    (rfl : _ = (5 : Count).toNat) (.swap 2 3 [])
  have some_food : ((granary 6 1 2).cook .grain 5).2 ≠ 0 := by decide
  obtain ⟨each, food, store⟩ := law.1 some_food
  exact ⟨store, food.trans (by decide), (law.2 (by decide) each).1⟩

/-- With a debt of food there is room for two batches of which the sum gives too much. -/
example : (cookEach .grain [1, 1] (granary 2 (-2147483648) 2147483647)).2 =
      [2147483647, 2147483647] ∧
    ((granary 2 (-2147483648) 2147483647).cook .grain 2).2 = 0 := by decide

end Homestead.Store
