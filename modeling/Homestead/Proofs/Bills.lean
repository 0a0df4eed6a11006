import Homestead.Proofs.Ledger
import Homestead.Proofs.Sufficiency

/-!
# What several prices come to

The check of several prices pays them one after the other on a scratch store. If nothing in them is
negative, this is to compare the store with the sums of all of them (`Price.Affordable`,
`Price.exists_payAll?`): what was taken for earlier prices is missing when a later one is compared,
and a price that the store reaches can be paid without a fault.

So the order of the prices does not matter, nor how one is split into several (`Price.SameBill`).
-/

namespace Homestead

namespace Price

/-- The price has an entry for the resource, or some food besides where that is the resource. -/
def Asks (p : Price) (r : Resource) : Prop := p.resources.Asks r ∨ r = .food ∧ p.food ≠ 0

/-- Nothing in the price is negative. -/
structure Nonnegative (p : Price) : Prop where
  resources : ∀ e ∈ p.resources.entries, 0 ≤ e.2
  food : 0 ≤ p.food
  points : 0 ≤ p.points

/-- Nothing in the price is negative, and what it takes of each resource is an amount. -/
structure Proper (p : Price) : Prop extends Nonnegative p where
  fits : ∀ r, Amount.Fits (p.cost r)

/-- What several prices take of a resource. -/
def costs (prices : List Price) (r : Resource) : Int := (prices.map fun p => p.cost r).sum

/-- The workers that several prices place. -/
def workersOf (prices : List Price) : Nat := (prices.map fun p => p.workers.toNat).sum

/-- The victory points that several prices give up. -/
def pointsOf (prices : List Price) : Int := (prices.map fun p => p.points.toInt).sum

/-- The store has what the prices take together, of each resource that one of them asks for. -/
structure Affordable (prices : List Price) (s : Store) : Prop where
  goods : ∀ r, (∃ p ∈ prices, p.Asks r) → costs prices r ≤ (s.balance r).toInt
  workers : workersOf prices ≤ s.workers.toNat
  points : pointsOf prices ≤ s.points.toInt

/-- The prices of both lists ask for the same resources, and they come to the same. -/
structure SameBill (prices prices' : List Price) : Prop where
  asks : ∀ r, (∃ p ∈ prices, p.Asks r) ↔ ∃ p ∈ prices', p.Asks r
  costs : ∀ r, costs prices r = costs prices' r
  workers : workersOf prices = workersOf prices'
  points : pointsOf prices = pointsOf prices'

variable {s t : Store} {r : Resource} {p : Price} {prices prices' : List Price}

/-! ## Prices -/

instance (p : Price) (r : Resource) : Decidable (p.Asks r) := inferInstanceAs (Decidable (_ ∨ _))

instance (prices : List Price) (s : Store) : Decidable (Affordable prices s) :=
  decidable_of_iff
    ((∀ r ∈ (Enumerated.all : List Resource), (∃ p ∈ prices, p.Asks r) →
        costs prices r ≤ (s.balance r).toInt) ∧
      workersOf prices ≤ s.workers.toNat ∧ pointsOf prices ≤ s.points.toInt)
    ⟨fun ⟨goods, workers, points⟩ => ⟨fun r => goods r (Enumerated.mem_all r), workers, points⟩,
      fun h => ⟨fun r _ => h.goods r, h.workers, h.points⟩⟩

theorem asks_goods : p.goods.Asks r ↔ p.Asks r := by
  unfold goods Asks Bundle.Asks
  rw [Bundle.entries_push]
  by_cases none : p.food = 0 <;> simp [none, or_and_right, exists_or, eq_comm]

theorem Nonnegative.goods (h : p.Nonnegative) : ∀ e ∈ p.goods.entries, 0 ≤ e.2 := by
  intro e he
  rw [Price.goods, Bundle.entries_push] at he
  rcases List.mem_append.1 he with he | he
  · exact h.resources e he
  · split at he
    · cases he
    · rw [List.mem_singleton.1 he]
      exact h.food

theorem Nonnegative.cost_nonneg (h : p.Nonnegative) (r : Resource) : 0 ≤ p.cost r :=
  total_goods p r ▸ Bundle.total_nonneg h.goods r

theorem Proper.goods (h : p.Proper) : p.goods.Proper :=
  ⟨h.toNonnegative.goods, fun r => total_goods p r ▸ h.fits r⟩

theorem cost_eq_zero (h : ¬p.Asks r) : p.cost r = 0 :=
  total_goods p r ▸ Bundle.total_eq_zero_of_not_asks (mt asks_goods.1 h)

/-! ## Sums -/

theorem costs_append (ps qs : List Price) (r : Resource) :
    costs (ps ++ qs) r = costs ps r + costs qs r := by
  simp [costs]

theorem costs_singleton (p : Price) (r : Resource) : costs [p] r = p.cost r := List.sum_singleton

theorem workersOf_append (ps qs : List Price) :
    workersOf (ps ++ qs) = workersOf ps + workersOf qs := by
  simp [workersOf]

theorem pointsOf_append (ps qs : List Price) :
    pointsOf (ps ++ qs) = pointsOf ps + pointsOf qs := by
  simp [pointsOf]

theorem costs_nonneg (h : ∀ p ∈ prices, p.Nonnegative) (r : Resource) : 0 ≤ costs prices r := by
  refine List.sum_nonneg fun n hn => ?_
  obtain ⟨p, hp, rfl⟩ := List.mem_map.1 hn
  exact (h p hp).cost_nonneg r

/-- One of several prices takes no more than they take together. -/
theorem cost_le_costs (h : ∀ p ∈ prices, p.Nonnegative) (hp : p ∈ prices) (r : Resource) :
    p.cost r ≤ costs prices r := by
  refine List.single_le_sum (fun n hn => ?_) _ (List.mem_map_of_mem hp)
  obtain ⟨q, hq, rfl⟩ := List.mem_map.1 hn
  exact (h q hq).cost_nonneg r

theorem pointsOf_nonneg (h : ∀ p ∈ prices, p.Nonnegative) : 0 ≤ pointsOf prices := by
  refine List.sum_nonneg fun n hn => ?_
  obtain ⟨p, hp, rfl⟩ := List.mem_map.1 hn
  exact Amount.nonneg_iff.1 (h p hp).points

theorem costs_eq_zero (h : ¬∃ p ∈ prices, p.Asks r) : costs prices r = 0 := by
  refine List.sum_eq_zero fun n hn => ?_
  obtain ⟨p, hp, rfl⟩ := List.mem_map.1 hn
  exact cost_eq_zero fun asks => h ⟨p, hp, asks⟩

/-! ## Affordable prices -/

theorem affordable_singleton :
    Affordable [p] s ↔ s.Covers p.goods ∧ p.workers ≤ s.workers ∧ p.points ≤ s.points := by
  rw [Store.covers_iff, UInt32.le_iff_toNat_le, Int32.le_iff_toInt_le]
  simp only [asks_goods, total_goods]
  constructor
  · rintro ⟨goods, workers, points⟩
    simp only [costs, workersOf, pointsOf, List.map_cons, List.map_nil, List.sum_singleton] at *
    exact ⟨fun r asks => goods r ⟨p, List.mem_singleton_self p, asks⟩, workers, points⟩
  · rintro ⟨goods, workers, points⟩
    refine ⟨fun r asks => ?_, ?_, ?_⟩
    · obtain ⟨q, hq, asks⟩ := asks
      obtain rfl := List.mem_singleton.1 hq
      simpa [costs] using goods r asks
    · simpa [workersOf] using workers
    · simpa [pointsOf] using points

/-- A store that has what several prices take has what the first of them take. -/
theorem Affordable.front {ps qs : List Price} (h : Affordable (ps ++ qs) s)
    (nonneg : ∀ q ∈ qs, q.Nonnegative) : Affordable ps s := by
  obtain ⟨goods, workers, points⟩ := h
  refine ⟨fun r asks => ?_, ?_, ?_⟩
  · obtain ⟨p, hp, asks⟩ := asks
    have all := goods r ⟨p, List.mem_append_left qs hp, asks⟩
    have more := costs_nonneg nonneg r
    rw [costs_append] at all
    omega
  · rw [workersOf_append] at workers
    omega
  · have more := pointsOf_nonneg nonneg
    rw [pointsOf_append] at points
    omega

/-- Once a price is paid, what has to be affordable is the rest. -/
theorem affordable_cons (paid : s.Changes (fun r => -p.cost r) (-p.points.toInt) p.workers.toNat t)
    (first : Affordable [p] s) : Affordable (p :: prices) s ↔ Affordable prices t := by
  have hcosts (r : Resource) : costs (p :: prices) r = p.cost r + costs prices r := List.sum_cons
  have hworkers : workersOf (p :: prices) = p.workers.toNat + workersOf prices := List.sum_cons
  have hpoints : pointsOf (p :: prices) = p.points.toInt + pointsOf prices := List.sum_cons
  obtain ⟨balance, points, workers, -⟩ := paid
  constructor
  · rintro ⟨goods, enough, reached⟩
    refine ⟨fun r asks => ?_, by omega, by omega⟩
    obtain ⟨q, hq, asks⟩ := asks
    have all := goods r ⟨q, List.mem_cons_of_mem p hq, asks⟩
    have left := balance r
    have sum := hcosts r
    omega
  · rintro ⟨goods, enough, reached⟩
    refine ⟨fun r asks => ?_, by omega, by omega⟩
    have left := balance r
    have sum := hcosts r
    by_cases later : ∃ q ∈ prices, q.Asks r
    · have rest := goods r later
      omega
    · -- only the first price asks for the resource
      have rest := costs_eq_zero later
      obtain ⟨q, hq, asks⟩ := asks
      rcases List.mem_cons.1 hq with rfl | hq
      · have one := first.goods r ⟨q, List.mem_singleton_self q, asks⟩
        have single := costs_singleton q r
        omega
      · exact absurd ⟨q, hq, asks⟩ later

/-! ## Checking and paying -/

theorem canPay_eq (proper : p.Proper) (s : Store) :
    ∃ payable, p.canPay s = .ok payable ∧ (payable = true ↔ Affordable [p] s) := by
  rw [canPay, Store.covers_eq proper.goods, affordable_singleton]
  by_cases covered : s.Covers p.goods
  · simp only [covered, decide_true, Checked.ok_bind, if_true, true_and]
    exact ⟨_, rfl, decide_eq_true_iff⟩
  · simp only [covered, decide_false, Checked.ok_bind, false_and]
    exact ⟨false, rfl, iff_of_false Bool.false_ne_true id⟩

/-- A price without anything negative can be paid by a store that reaches it. -/
theorem Nonnegative.exists_pay (h : p.Nonnegative) (covered : s.Covers p.goods)
    (reached : p.points ≤ s.points) : ∃ t, p.pay s = .ok t := by
  obtain ⟨paid, hpaid, -⟩ := covered.exists_withdrawAll h.goods
  have nonneg := Amount.nonneg_iff.1 h.points
  have reached := Int32.le_iff_toInt_le.1 reached
  have bound := (Amount.fits_toInt p.points).2
  have below := (Amount.fits_toInt s.points).2
  -- what is not negative has an opposite, unlike the least amount
  obtain ⟨given, hgiven⟩ := Amount.exists_exact .negate (i := -p.points.toInt)
    (by unfold Amount.Fits; omega)
  have hgivenInt : given.toInt = -p.points.toInt := Amount.exact_eq_ok_iff.1 hgiven
  have kept : paid.points = s.points := by rw [(Store.Moves.of_withdrawAll hpaid).rest]
  obtain ⟨left, hleft⟩ := Amount.exists_exact .add (i := s.points.toInt + given.toInt)
    (by unfold Amount.Fits; omega)
  refine ⟨_, Checked.bind_eq_ok.2 ⟨paid, hpaid, Checked.bind_eq_ok.2 ⟨given, hgiven,
    Checked.bind_eq_ok.2 ⟨left, ?_, rfl⟩⟩⟩⟩
  change paid.points.plus given = .ok left
  rw [kept]
  exact hleft

theorem pay?_of_affordable (proper : p.Proper) (h : Affordable [p] s) :
    ∃ t, p.pay? s = .ok (some t) := by
  obtain ⟨payable, hpayable, hiff⟩ := canPay_eq proper s
  obtain ⟨covered, -, reached⟩ := affordable_singleton.1 h
  obtain ⟨t, ht⟩ := proper.toNonnegative.exists_pay covered reached
  exact ⟨t, pay?_eq_some_iff.2 ⟨hiff.2 h ▸ hpayable, ht⟩⟩

theorem pay?_of_not_affordable (proper : p.Proper) (h : ¬Affordable [p] s) :
    p.pay? s = .ok none := by
  obtain ⟨payable, hpayable, hiff⟩ := canPay_eq proper s
  rw [pay?, hpayable, Checked.ok_bind, if_neg (mt hiff.1 h)]
  rfl

/-- The check of several prices does not fault, and it succeeds if they are affordable together. -/
theorem exists_payAll? (proper : ∀ p ∈ prices, p.Proper) (points : 0 ≤ s.points) :
    ∃ scratch, payAll? prices s = .ok scratch ∧ (scratch.isSome ↔ Affordable prices s) := by
  induction prices generalizing s with
  | nil =>
    refine ⟨some s, rfl, iff_of_true rfl ⟨?_, Nat.zero_le _, Amount.nonneg_iff.1 points⟩⟩
    rintro r ⟨p, hp, -⟩
    cases hp
  | cons p prices ih =>
    obtain ⟨hp, hprices⟩ := List.forall_mem_cons.1 proper
    by_cases first : Affordable [p] s
    · obtain ⟨t, ht⟩ := pay?_of_affordable hp first
      have paid := changes_of_pay? ht
      have left : 0 ≤ t.points := by
        have reached : p.points.toInt ≤ s.points.toInt :=
          Int32.le_iff_toInt_le.1 (affordable_singleton.1 first).2.2
        have given := paid.points
        rw [Amount.nonneg_iff]
        omega
      obtain ⟨scratch, hscratch, hiff⟩ := ih hprices left
      refine ⟨scratch, ?_, hiff.trans (affordable_cons paid first).symm⟩
      rw [payAll?, ht]
      exact hscratch
    · refine ⟨none, ?_, iff_of_false nofun fun all => first ?_⟩
      · rw [payAll?, pay?_of_not_affordable hp first]
        rfl
      · have all : Affordable ([p] ++ prices) s := all
        exact all.front fun q hq => (hprices q hq).toNonnegative

/-- Prices that are affordable together are paid without a fault. -/
theorem Affordable.exists_payAll (h : Affordable prices s) (proper : ∀ p ∈ prices, p.Proper)
    (points : 0 ≤ s.points) :
    ∃ t, payAll? prices s = .ok (some t) ∧ payAll prices s = .ok t := by
  obtain ⟨scratch, hscratch, hiff⟩ := exists_payAll? proper points
  obtain ⟨t, rfl⟩ := Option.isSome_iff_exists.1 (hiff.2 h)
  exact ⟨t, hscratch, payAll_of_payAll? hscratch⟩

/-! ## Lists that come to the same -/

namespace SameBill

theorem of_perm (h : prices.Perm prices') : SameBill prices prices' where
  asks _ := exists_congr fun _ => and_congr_left fun _ => h.mem_iff
  costs _ := (h.map _).sum_eq
  workers := (h.map _).sum_eq
  points := (h.map _).sum_eq

/-- What stands between other prices can be replaced by what comes to the same. -/
theorem between (h : SameBill prices prices') (before after : List Price) :
    SameBill (before ++ prices ++ after) (before ++ prices' ++ after) where
  asks r := by
    have := h.asks r
    simp only [List.mem_append, or_and_right, exists_or, this]
  costs r := by rw [costs_append, costs_append, costs_append, costs_append, h.costs]
  workers := by
    rw [workersOf_append, workersOf_append, workersOf_append, workersOf_append, h.workers]
  points := by rw [pointsOf_append, pointsOf_append, pointsOf_append, pointsOf_append, h.points]

theorem affordable_iff (h : SameBill prices prices') :
    Affordable prices s ↔ Affordable prices' s := by
  constructor
  · rintro ⟨goods, workers, points⟩
    exact ⟨fun r asks => h.costs r ▸ goods r ((h.asks r).2 asks), h.workers ▸ workers,
      h.points ▸ points⟩
  · rintro ⟨goods, workers, points⟩
    exact ⟨fun r asks => h.costs r ▸ goods r ((h.asks r).1 asks), h.workers ▸ workers,
      h.points ▸ points⟩

/-- The parts of a proper price are proper, if nothing in them is negative. -/
theorem proper (h : SameBill [p] prices) (proper : p.Proper)
    (nonneg : ∀ q ∈ prices, q.Nonnegative) : ∀ q ∈ prices, q.Proper := by
  intro q hq
  refine ⟨nonneg q hq, fun r => ?_⟩
  have part := cost_le_costs nonneg hq r
  have whole := costs_singleton p r
  have same := h.costs r
  have low := (nonneg q hq).cost_nonneg r
  have high := (proper.fits r).2
  unfold Amount.Fits
  omega

end SameBill

end Price

end Homestead
