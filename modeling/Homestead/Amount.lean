import Homestead.Fault

/-!
# Amounts and counts

Goods, points and bonuses are *amounts*, signed words of 32 bits; people, rooms, ratios and
identifiers are *counts*, unsigned words of 32 bits. Arithmetic on either is exact or a fault:
nothing wraps.

* `Amount.exact`, `Count.exact`: the word that stands for an integer, if there is one;
* `Amount.exact_eq_ok_iff`, `Count.exact_eq_ok_iff`: they succeed with the word of that very
  integer and on nothing else.
-/

namespace Homestead

/-- A signed quantity of 32 bits. -/
abbrev Amount := Int32

/-- An unsigned quantity of 32 bits. -/
abbrev Count := UInt32

/-! ## Amounts -/

namespace Amount

/-- The integers that an amount can stand for. -/
def Fits (n : Int) : Prop := -2147483648 ≤ n ∧ n < 2147483648

instance (n : Int) : Decidable (Fits n) := inferInstanceAs (Decidable (_ ∧ _))

/-- The amount that stands for `n`, if one does. -/
def ofInt? (n : Int) : Option Amount := if Fits n then some (Int32.ofInt n) else none

/-- The result `n` of an operation as an amount. -/
def exact (operation : Arithmetic) (n : Int) : Checked Amount :=
  match ofInt? n with
  | some a => .ok a
  | none => .error (.overflow operation)

def plus (a b : Amount) : Checked Amount := exact .add (a.toInt + b.toInt)

def minus (a b : Amount) : Checked Amount := exact .subtract (a.toInt - b.toInt)

def opposite (a : Amount) : Checked Amount := exact .negate (-a.toInt)

theorem fits_toInt (a : Amount) : Fits a.toInt := by
  have := a.le_toInt
  have := a.toInt_lt
  unfold Fits
  omega

theorem ofInt?_eq_some_iff {n : Int} {a : Amount} : ofInt? n = some a ↔ a.toInt = n := by
  unfold ofInt?
  constructor
  · intro h
    split at h
    · rename_i fits
      obtain rfl := Option.some.inj h
      exact Int32.toInt_ofInt_of_le (by have := fits.1; omega) (by have := fits.2; omega)
    · cases h
  · rintro rfl
    rw [if_pos (fits_toInt a), Int32.ofInt_toInt]

theorem ofInt?_toInt (a : Amount) : ofInt? a.toInt = some a := ofInt?_eq_some_iff.2 rfl

theorem exists_toInt_eq {n : Int} (h : Fits n) : ∃ a : Amount, a.toInt = n :=
  ⟨_, ofInt?_eq_some_iff.1 (if_pos h)⟩

theorem exact_eq_ok_iff {operation : Arithmetic} {n : Int} {a : Amount} :
    exact operation n = .ok a ↔ a.toInt = n := by
  rw [← ofInt?_eq_some_iff, exact]
  cases ofInt? n <;> simp

theorem plus_eq_ok_iff {a b c : Amount} : plus a b = .ok c ↔ c.toInt = a.toInt + b.toInt :=
  exact_eq_ok_iff

theorem minus_eq_ok_iff {a b c : Amount} : minus a b = .ok c ↔ c.toInt = a.toInt - b.toInt :=
  exact_eq_ok_iff

theorem opposite_eq_ok_iff {a b : Amount} : opposite a = .ok b ↔ b.toInt = -a.toInt :=
  exact_eq_ok_iff

end Amount

/-! ## Counts -/

namespace Count

/-- The count that stands for `n`, if one does. -/
def ofNat? (n : Nat) : Option Count := if n < UInt32.size then some (UInt32.ofNat n) else none

/-- The result `n` of an operation as a count. -/
def exact (operation : Arithmetic) (n : Nat) : Checked Count :=
  match ofNat? n with
  | some c => .ok c
  | none => .error (.overflow operation)

def plus (a b : Count) : Checked Count := exact .add (a.toNat + b.toNat)

/-- What is left of `a` once `b` is taken away, at least zero. -/
def less (a b : Count) : Count := if b ≤ a then a - b else 0

/-- One more, except that the largest count stays as it is. -/
def succ (a : Count) : Count := if a.toNat + 1 < UInt32.size then a + 1 else a

/-- The amount of the same size, if there is one. -/
def toAmount? (c : Count) : Option Amount := Amount.ofInt? c.toNat

theorem ofNat?_eq_some_iff {n : Nat} {c : Count} : ofNat? n = some c ↔ c.toNat = n := by
  unfold ofNat?
  constructor
  · intro h
    split at h
    · rename_i fits
      obtain rfl := Option.some.inj h
      exact Nat.mod_eq_of_lt fits
    · cases h
  · rintro rfl
    rw [if_pos c.toNat_lt_size, UInt32.ofNat_toNat]

theorem exact_eq_ok_iff {operation : Arithmetic} {n : Nat} {c : Count} :
    exact operation n = .ok c ↔ c.toNat = n := by
  rw [← ofNat?_eq_some_iff, exact]
  cases ofNat? n <;> simp

theorem plus_eq_ok_iff {a b c : Count} : plus a b = .ok c ↔ c.toNat = a.toNat + b.toNat :=
  exact_eq_ok_iff

theorem toNat_less (a b : Count) : (less a b).toNat = a.toNat - b.toNat := by
  unfold less
  split
  · exact UInt32.toNat_sub_of_le _ _ ‹_›
  · rename_i more
    rw [UInt32.le_iff_toNat_le] at more
    rw [UInt32.toNat_zero]
    omega

theorem toNat_succ (a : Count) : (succ a).toNat = min (a.toNat + 1) (UInt32.size - 1) := by
  have := a.toNat_lt_size
  unfold succ
  split
  · rename_i fits
    rw [UInt32.toNat_add, UInt32.toNat_one, Nat.mod_eq_of_lt fits]
    omega
  · omega

end Count

end Homestead
