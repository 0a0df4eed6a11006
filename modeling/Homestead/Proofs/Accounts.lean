import Homestead.Proofs.Copy.Application

/-!
# Accounts

What payments and gains do to a store, in exact integers. A bundle is taken or added entry by entry,
and where that ends each balance has moved by the total of its resource, whatever the signs and the
order of the entries (`Store.Moves.of_withdrawAll`, `Store.Moves.of_addAll`).

An effect that is applied moves each balance by its net amount and leaves what the farm is made of
alone (`Effect.of_apply`); under strict payment the balances reached its costs before.
-/

namespace Homestead

/-- The sum of the amounts that a bundle declares for a resource. -/
def Bundle.total (b : Bundle) (r : Resource) : Int :=
  (b.amountsOf r).foldr (fun n sum => n.toInt + sum) 0

/-- Every resource of the bundle has a balance of at least the bundle's total for it. -/
def Store.Covers (s : Store) (b : Bundle) : Prop :=
  ∀ e ∈ b.entries, b.total e.1 ≤ (s.balance e.1).toInt

/-- Each balance moved by so much, and nothing else changed. -/
structure Store.Moves (δ : Resource → Int) (s t : Store) : Prop where
  balance : ∀ r, (t.balance r).toInt = (s.balance r).toInt + δ r
  rest : t = { s with balances := t.balances }

/-- The two stores differ in balances, victory points and bonuses at most. -/
structure Store.SameEstate (s t : Store) : Prop where
  family : t.family = s.family
  workers : t.workers = s.workers
  rooms : t.rooms = s.rooms
  fields : t.fields = s.fields
  pastures : t.pastures = s.pastures
  kitchens : t.kitchens = s.kitchens
  ratios : t.ratios = s.ratios
  capacities : t.capacities = s.capacities

/-- What a boon adds to the balance of a resource. -/
def Boon.gainOf : Boon → Resource → Int
  | gain r n, q => if r = q then n.toInt else 0
  | bonus _ _, _ => 0

/-- What an effect with a boon adds to the balance of a resource, costs taken off. -/
def Effect.net (e : Effect) (boon : Option Boon) (r : Resource) : Int :=
  e.gains.total r - e.costs.total r + (boon.map fun b => b.gainOf r).getD 0

/-- What settling an effect does to a store. -/
structure Effect.Settles (e : Effect) (boon : Option Boon) (s t : Store) : Prop where
  balance : ∀ r, (t.balance r).toInt = (s.balance r).toInt + e.net boon r
  estate : s.SameEstate t

variable {s t u : Store} {b : Bundle} {r : Resource} {n : Amount} {δ ε : Resource → Int}

/-! ## Totals -/

namespace Bundle

theorem total_cons (e : Resource × Amount) (es : List (Resource × Amount)) (r : Resource) :
    total ⟨e :: es⟩ r = (if e.1 = r then e.2.toInt else 0) + total ⟨es⟩ r := by
  unfold total amountsOf
  by_cases h : e.1 = r <;> simp [h]

theorem total_append (es es' : List (Resource × Amount)) (r : Resource) :
    total ⟨es ++ es'⟩ r = total ⟨es⟩ r + total ⟨es'⟩ r := by
  induction es with
  | nil => exact (Int.zero_add _).symm
  | cons e es ih => rw [List.cons_append, total_cons, total_cons, ih, Int.add_assoc]

theorem total_eq_zero (h : ∀ e ∈ b.entries, e.1 ≠ r) : b.total r = 0 := by
  have none : b.amountsOf r = [] := by simpa [amountsOf] using h
  rw [total, none]
  rfl

theorem total_nonneg (h : ∀ e ∈ b.entries, 0 ≤ e.2) (r : Resource) : 0 ≤ b.total r := by
  obtain ⟨es⟩ := b
  induction es with
  | nil => exact Int.le_refl 0
  | cons e es ih =>
    obtain ⟨he, hes⟩ := List.forall_mem_cons.1 h
    have first := Int32.le_iff_toInt_le.1 he
    rw [total_cons]
    have rest := ih hes
    split
    · exact Int.add_nonneg first rest
    · exact Int.add_nonneg (Int.le_refl 0) rest

/-- A sum that was computed is exact. -/
theorem amountOf_eq_ok (h : b.amountOf r = .ok n) : n.toInt = b.total r := by
  have hsum : ∀ {ns : List Amount} {a n : Amount}, ns.foldlM Amount.plus a = .ok n →
      n.toInt = a.toInt + ns.foldr (fun n sum => n.toInt + sum) 0 := by
    intro ns
    induction ns with
    | nil =>
      intro a n h
      cases Checked.pure_eq_ok.1 h
      exact (Int.add_zero _).symm
    | cons m ns ih =>
      intro a n h
      rw [List.foldlM_cons] at h
      obtain ⟨a', ha', h⟩ := Checked.bind_eq_ok.1 h
      rw [ih h, Amount.plus_eq_ok_iff.1 ha', List.foldr_cons, Int.add_assoc]
  rw [hsum h]
  exact Int.zero_add _

end Bundle

/-! ## Taking and adding -/

namespace Store

namespace SameEstate

theorem changed (s : Store) (balances : Table Resource Amount) (points : Amount)
    (bonuses : Table Bonus (Option Amount)) :
    SameEstate s { s with balances := balances, points := points, bonuses := bonuses } :=
  ⟨rfl, rfl, rfl, rfl, rfl, rfl, rfl, rfl⟩

theorem refl (s : Store) : SameEstate s s := .changed s ..

theorem trans (h : SameEstate s t) (h' : SameEstate t u) : SameEstate s u where
  family := h'.family.trans h.family
  workers := h'.workers.trans h.workers
  rooms := h'.rooms.trans h.rooms
  fields := h'.fields.trans h.fields
  pastures := h'.pastures.trans h.pastures
  kitchens := h'.kitchens.trans h.kitchens
  ratios := h'.ratios.trans h.ratios
  capacities := h'.capacities.trans h.capacities

end SameEstate

namespace Moves

theorem refl (s : Store) : Moves (fun _ => 0) s s := ⟨fun _ => by simp, rfl⟩

theorem trans (h : Moves δ s t) (h' : Moves ε t u) : Moves (fun r => δ r + ε r) s u where
  balance r := by rw [h'.balance, h.balance, Int.add_assoc]
  rest := by rw [h'.rest, h.rest]

theorem estate (h : Moves δ s t) : s.SameEstate t := by
  rw [h.rest]
  exact .changed s ..

theorem of_setBalance (hn : n.toInt = (s.balance r).toInt + δ r) (others : ∀ q, r ≠ q → δ q = 0) :
    Moves δ s (s.setBalance r n) where
  balance q := by
    by_cases eq : r = q
    · subst eq
      rw [balance_setBalance_self, hn]
    · rw [balance_setBalance_ne s eq, others q eq, Int.add_zero]
  rest := rfl

theorem of_add (h : s.add r n = .ok t) : Moves (fun q => if r = q then n.toInt else 0) s t := by
  obtain ⟨m, hm, h⟩ := Checked.bind_eq_ok.1 h
  cases Checked.pure_eq_ok.1 h
  refine of_setBalance ?_ fun q ne => if_neg ne
  rw [Amount.plus_eq_ok_iff.1 hm, if_pos rfl]

theorem of_withdraw (h : s.withdraw r n = .ok t) :
    Moves (fun q => -(if r = q then n.toInt else 0)) s t := by
  obtain ⟨m, hm, h⟩ := Checked.bind_eq_ok.1 h
  cases Checked.pure_eq_ok.1 h
  refine of_setBalance ?_ fun q ne => by rw [if_neg ne, Int.neg_zero]
  rw [Amount.minus_eq_ok_iff.1 hm, if_pos rfl, Int.sub_eq_add_neg]

/-- Entries that are added one by one add their totals. -/
theorem of_addAll (h : s.addAll b = .ok t) : Moves b.total s t := by
  obtain ⟨es⟩ := b
  unfold addAll at h
  induction es generalizing s with
  | nil =>
    cases Checked.pure_eq_ok.1 h
    exact .refl _
  | cons e es ih =>
    obtain ⟨s₁, hfirst, h⟩ := Checked.bind_eq_ok.1 ((List.foldlM_cons ..).symm.trans h)
    have hall := (of_add hfirst).trans (ih h)
    simpa only [← Bundle.total_cons] using hall

/-- Entries that are taken one by one take their totals. -/
theorem of_withdrawAll (h : s.withdrawAll b = .ok t) : Moves (fun r => -b.total r) s t := by
  obtain ⟨es⟩ := b
  unfold withdrawAll at h
  induction es generalizing s with
  | nil =>
    cases Checked.pure_eq_ok.1 h
    exact .refl _
  | cons e es ih =>
    obtain ⟨s₁, hfirst, h⟩ := Checked.bind_eq_ok.1 ((List.foldlM_cons ..).symm.trans h)
    have hall := (of_withdraw hfirst).trans (ih h)
    simpa only [← Int.neg_add, ← Bundle.total_cons] using hall

end Moves

/-! ## Checks -/

/-- A resource suffices if its entries can be added up and the balance reaches their sum. -/
theorem fallsShort_eq_false_iff :
    s.fallsShort b r = .ok false ↔ ∃ n, b.amountOf r = .ok n ∧ n ≤ s.balance r := by
  rw [fallsShort, Checked.bind_eq_ok]
  refine exists_congr fun n => and_congr_right fun _ => ?_
  rw [Checked.pure_eq_ok, decide_eq_false_iff_not, Int32.not_lt]

theorem total_le_of_fallsShort (h : s.fallsShort b r = .ok false) :
    b.total r ≤ (s.balance r).toInt := by
  obtain ⟨n, hn, reached⟩ := fallsShort_eq_false_iff.1 h
  rw [← Bundle.amountOf_eq_ok hn]
  exact Int32.le_iff_toInt_le.1 reached

theorem shortOf?_eq_none_iff :
    s.shortOf? b = .ok none ↔ ∀ e ∈ b.entries, s.fallsShort b e.1 = .ok false := by
  rw [shortOf?, Checked.bind_eq_ok, ← Checked.findM?_eq_none_iff]
  constructor
  · intro h
    obtain ⟨found, hfind, h⟩ := h
    obtain rfl := Option.map_eq_none_iff.1 (Checked.pure_eq_ok.1 h)
    exact hfind
  · intro h
    exact ⟨none, h, rfl⟩

theorem covers_eq_true_iff :
    s.covers b = .ok true ↔ ∀ e ∈ b.entries, s.fallsShort b e.1 = .ok false := by
  rw [covers, Checked.allM_eq_true_iff]
  refine forall₂_congr fun e _ => ?_
  rw [Checked.bind_eq_ok]
  simp only [Checked.pure_eq_ok, Bool.not_eq_true', exists_eq_right]

theorem covers_of_shortOf? (h : s.shortOf? b = .ok none) : s.Covers b :=
  fun e he => total_le_of_fallsShort (shortOf?_eq_none_iff.1 h e he)

theorem covers_of_covers (h : s.covers b = .ok true) : s.Covers b :=
  fun e he => total_le_of_fallsShort (covers_eq_true_iff.1 h e he)

/-! ## Points and bonuses -/

theorem of_addPoints (h : s.addPoints n = .ok t) :
    ∃ points : Amount, points.toInt = s.points.toInt + n.toInt ∧
      t = { s with points := points } := by
  obtain ⟨points, hpoints, h⟩ := Checked.bind_eq_ok.1 h
  cases Checked.pure_eq_ok.1 h
  exact ⟨points, Amount.plus_eq_ok_iff.1 hpoints, rfl⟩

theorem of_addPoints_unless (h : (if n = 0 then pure s else s.addPoints n) = Except.ok t) :
    ∃ points : Amount, points.toInt = s.points.toInt + n.toInt ∧
      t = { s with points := points } := by
  split at h
  · rename_i none
    cases Checked.pure_eq_ok.1 h
    rw [none]
    exact ⟨s.points, (Int.add_zero _).symm, rfl⟩
  · exact of_addPoints h

theorem of_addBonus {bonus : Bonus} (h : s.addBonus bonus n = .ok t) :
    ∃ bonuses, t = { s with bonuses := bonuses } := by
  obtain ⟨m, -, h⟩ := Checked.bind_eq_ok.1 h
  cases Checked.pure_eq_ok.1 h
  exact ⟨_, rfl⟩

end Store

/-! ## Effects -/

theorem Boon.of_grant {boon : Boon} (h : boon.grant s = .ok t) :
    (∀ r, (t.balance r).toInt = (s.balance r).toInt + boon.gainOf r) ∧ t.points = s.points ∧
      s.SameEstate t := by
  cases boon with
  | gain r n =>
    have moves := Store.Moves.of_add h
    exact ⟨moves.balance, by rw [moves.rest], moves.estate⟩
  | bonus bonus n =>
    obtain ⟨bonuses, rfl⟩ := Store.of_addBonus h
    exact ⟨fun r => (Int.add_zero _).symm, rfl, .changed s ..⟩

namespace Effect

variable {e : Effect} {boon : Option Boon} {card : Card} {policy : PaymentPolicy}

/-- The four stages of settling, one after the other. -/
theorem settle_eq (e : Effect) (boon : Option Boon) (s : Store) :
    e.settle boon s = (s.withdrawAll e.costs >>= fun s => s.addAll e.gains >>= fun s =>
      (if e.points = 0 then pure s else s.addPoints e.points) >>= fun s =>
        match boon with
        | none => pure s
        | some boon => boon.grant s) := by
  unfold settle
  by_cases none : e.points = 0 <;> cases boon <;> simp [none]

/-- Before its boon an effect has taken its costs, added its gains and counted its points. -/
theorem exists_counted (h : e.settle boon s = .ok t) :
    ∃ (gained : Store) (points : Amount),
      Store.Moves (fun r => -e.costs.total r + e.gains.total r) s gained ∧
      points.toInt = s.points.toInt + e.points.toInt ∧
      boon.elim (.ok { gained with points := points })
        (fun boon => boon.grant { gained with points := points }) = .ok t := by
  rw [settle_eq] at h
  obtain ⟨paid, hpaid, h⟩ := Checked.bind_eq_ok.1 h
  obtain ⟨gained, hgained, h⟩ := Checked.bind_eq_ok.1 h
  obtain ⟨counted, hcounted, h⟩ := Checked.bind_eq_ok.1 h
  obtain ⟨points, hpoints, rfl⟩ := Store.of_addPoints_unless hcounted
  have moves := (Store.Moves.of_withdrawAll hpaid).trans (Store.Moves.of_addAll hgained)
  have kept : gained.points = s.points := by rw [moves.rest]
  refine ⟨gained, points, moves, kept ▸ hpoints, ?_⟩
  cases boon with
  | none => exact h
  | some boon => exact h

theorem of_settle (h : e.settle boon s = .ok t) : e.Settles boon s t := by
  obtain ⟨gained, points, moves, -, h⟩ := exists_counted h
  have estate := moves.estate.trans (.changed gained gained.balances points gained.bonuses)
  cases boon with
  | none =>
    cases h
    refine ⟨fun r => ?_, estate⟩
    have := moves.balance r
    simp only [net, Option.map_none, Option.getD_none]
    change (gained.balance r).toInt = _
    omega
  | some boon =>
    obtain ⟨hgrant, -, granted⟩ := boon.of_grant h
    refine ⟨fun r => ?_, estate.trans granted⟩
    have := moves.balance r
    have hgrant : (t.balance r).toInt = (gained.balance r).toInt + boon.gainOf r := hgrant r
    simp only [net, Option.map_some, Option.getD_some]
    omega

theorem points_of_settle (h : e.settle boon s = .ok t) :
    t.points.toInt = s.points.toInt + e.points.toInt := by
  obtain ⟨gained, points, -, hpoints, h⟩ := exists_counted h
  cases boon with
  | none =>
    cases h
    exact hpoints
  | some boon =>
    obtain ⟨-, same, -⟩ := boon.of_grant h
    rw [same]
    exact hpoints

/-- An effect is applied if it has its boon and nothing is unpaid, and is then settled. -/
theorem apply_eq_ok_iff :
    e.apply card policy s = .ok (.ok t) ↔
      ∃ boon, e.boon card.id = .ok boon ∧ e.unpaid? policy s = .ok none ∧
        e.settle boon s = .ok t := by
  unfold apply
  cases hboon : e.boon card.id with
  | error obstacle =>
    constructor
    · intro h
      cases h
    · intro h
      obtain ⟨boon, h, -⟩ := h
      cases h
  | ok boon =>
    rw [Checked.bind_eq_ok]
    constructor
    · intro h
      obtain ⟨short, hshort, h⟩ := h
      cases short with
      | some r => cases h
      | none =>
        obtain ⟨t', hsettle, h⟩ := Checked.map_eq_ok.1 h
        cases h
        exact ⟨boon, rfl, hshort, hsettle⟩
    · intro h
      obtain ⟨boon', h, hshort, hsettle⟩ := h
      cases h
      exact ⟨none, hshort, Checked.map_eq_ok.2 ⟨t, hsettle, rfl⟩⟩

/-- An effect that is applied has its boon, is covered where that matters, and is settled. -/
theorem of_apply (h : e.apply card policy s = .ok (.ok t)) :
    ∃ boon, e.boon card.id = .ok boon ∧ (policy = .strict → s.Covers e.costs) ∧
      e.Settles boon s t := by
  obtain ⟨boon, hboon, paid, hsettle⟩ := apply_eq_ok_iff.1 h
  refine ⟨boon, hboon, ?_, of_settle hsettle⟩
  rintro rfl
  exact Store.covers_of_shortOf? paid

end Effect

/-- Applying effects of a copy leaves alone what the farm is made of. -/
theorem Copy.Applies.estate {policy : PaymentPolicy} {is : List Nat} {c c' : Copy} {o : Outcome}
    (h : Copy.Applies policy is c s c' t o) : s.SameEstate t := by
  induction h with
  | nil | refused => exact .refl _
  | declined _ _ ih => exact ih
  | applied hi _ ih =>
    cases Copy.applyEffect_eq_ok_iff.1 hi with
    | applied _ _ _ happly =>
      obtain ⟨boon, -, -, settled⟩ := Effect.of_apply happly
      exact settled.estate.trans ih

end Homestead
