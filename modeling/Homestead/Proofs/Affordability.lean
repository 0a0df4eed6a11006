import Homestead.Proofs.Bills

/-!
# What a card costs and who can afford it

The check before a play pays the prices of a card on a scratch store and then compares the flat cost
with what is left. For a properly priced card this is to compare the store with the sum of
everything (`Card.Affordable`, `Card.tooDear?_eq`), and the payment of a card that passes neither
faults nor runs into debt on its way (`Card.Paying`).
-/

namespace Homestead

namespace Card

/-- One of the prices or the flat cost asks for the resource. -/
def Asks (card : Card) (r : Resource) : Prop :=
  (∃ p ∈ card.prices, p.Asks r) ∨ card.flatCost.Asks r

/-- The prices and the flat cost are proper. -/
structure ProperlyPriced (card : Card) : Prop where
  prices : ∀ p ∈ card.prices, p.Proper
  flatCost : card.flatCost.Proper

/-- The store has all that playing the card takes, of each resource that it asks for. -/
structure Affordable (card : Card) (s : Store) : Prop where
  goods : ∀ r, card.Asks r → card.cost r ≤ (s.balance r).toInt
  workers : card.workers ≤ s.workers.toNat
  points : card.forfeit ≤ s.points.toInt

/-- The objection that a card is too dear: its prices are, or its flat cost after them. -/
def tooDear? (card : Card) (s : Store) : Checked (Option Objection) := do
  match ← Price.payAll? card.prices s with
  | none => return some .priceTooHigh
  | some scratch =>
    if ← scratch.covers card.flatCost then return none else return some .flatCostTooHigh

/-- What a payment has come to on its way: some prices are paid, or of the next one some goods, or
all and a part of the flat cost. -/
inductive Paying (card : Card) (s : Store) : Checked Store → Prop
  | prices {before} : before <+: card.prices → Paying card s (Price.payAll before s)
  | goods {before p es} : before ++ [p] <+: card.prices → es <+: p.goods.entries →
    Paying card s (Price.payAll before s >>= fun t => t.withdrawAll ⟨es⟩)
  | flatCost {es} : es <+: card.flatCost.entries →
    Paying card s (Price.payAll card.prices s >>= fun t => t.withdrawAll ⟨es⟩)

variable {s t : Store} {b : Bundle} {card card' : Card}

/-! ## The check -/

instance (card : Card) (r : Resource) : Decidable (card.Asks r) :=
  inferInstanceAs (Decidable (_ ∨ _))

instance (card : Card) (s : Store) : Decidable (card.Affordable s) :=
  decidable_of_iff
    ((∀ r ∈ (Enumerated.all : List Resource), card.Asks r → card.cost r ≤ (s.balance r).toInt) ∧
      card.workers ≤ s.workers.toNat ∧ card.forfeit ≤ s.points.toInt)
    ⟨fun ⟨goods, workers, points⟩ => ⟨fun r => goods r (Enumerated.mem_all r), workers, points⟩,
      fun h => ⟨fun r _ => h.goods r, h.workers, h.points⟩⟩

/-- A card that is no duplicate and whose requirements are met is checked for its costs alone. -/
theorem objection?_eq_tooDear? {f : Farm} (new : card.duplicate? f = none)
    (met : card.requirements.findSomeM? (fun q => q.unmet? f) = .ok none) :
    card.objection? f = card.tooDear? f.store := by
  rw [objection?, new]
  simp only [met, Checked.ok_bind]
  rfl

theorem cost_eq (card : Card) (r : Resource) :
    card.cost r = Price.costs card.prices r + card.flatCost.total r := rfl

theorem affordable_iff (proper : card.ProperlyPriced) :
    card.Affordable s ↔ Price.Affordable card.prices s ∧
      ∀ r, card.flatCost.Asks r → card.cost r ≤ (s.balance r).toInt := by
  constructor
  · rintro ⟨goods, workers, points⟩
    refine ⟨⟨fun r asks => ?_, workers, points⟩, fun r asks => goods r (.inr asks)⟩
    have all := goods r (.inl asks)
    have sum := card.cost_eq r
    have flat := Bundle.total_nonneg proper.flatCost.nonneg r
    omega
  · rintro ⟨⟨goods, workers, points⟩, flat⟩
    refine ⟨fun r asks => ?_, workers, points⟩
    by_cases later : card.flatCost.Asks r
    · exact flat r later
    · have none := Bundle.total_eq_zero_of_not_asks later
      have prices := goods r (asks.resolve_right later)
      have sum := card.cost_eq r
      omega

/-- What the prices leave covers the flat cost if the store has all that the card takes. -/
theorem covers_flatCost_iff (proper : card.ProperlyPriced)
    (affordable : Price.Affordable card.prices s)
    (paid : Price.payAll? card.prices s = .ok (some t)) :
    t.Covers card.flatCost ↔ card.Affordable s := by
  have left (r : Resource) :
      (t.balance r).toInt = (s.balance r).toInt - Price.costs card.prices r :=
    (Price.changes_of_payAll? paid).balance r
  rw [affordable_iff proper, Store.covers_iff]
  refine ⟨fun flat => ⟨affordable, fun r asks => ?_⟩, fun h r asks => ?_⟩
  · have reached := flat r asks
    have sum := card.cost_eq r
    have left := left r
    omega
  · have reached := h.2 r asks
    have sum := card.cost_eq r
    have left := left r
    omega

/-- The check of the costs does not fault. It objects to the prices if they are not affordable, and
to the flat cost if it is not affordable with them. -/
theorem tooDear?_eq (proper : card.ProperlyPriced) (points : 0 ≤ s.points) :
    card.tooDear? s =
      .ok (if Price.Affordable card.prices s then
        if card.Affordable s then none else some .flatCostTooHigh
      else some .priceTooHigh) := by
  by_cases affordable : Price.Affordable card.prices s
  · obtain ⟨scratch, hscratch, -⟩ := affordable.exists_payAll proper.prices points
    rw [if_pos affordable, tooDear?, hscratch]
    simp only [Checked.ok_bind, Store.covers_eq proper.flatCost, decide_eq_true_eq,
      covers_flatCost_iff proper affordable hscratch]
    split <;> rfl
  · obtain ⟨scratch, hscratch, hiff⟩ := Price.exists_payAll? proper.prices points
    obtain rfl := Option.not_isSome_iff_eq_none.1 (mt hiff.1 affordable)
    rw [if_neg affordable, tooDear?, hscratch]
    rfl

/-- The check objects to nothing just if the card is affordable. -/
theorem exists_tooDear? (proper : card.ProperlyPriced) (points : 0 ≤ s.points) :
    ∃ objection, card.tooDear? s = .ok objection ∧ (objection = none ↔ card.Affordable s) := by
  refine ⟨_, tooDear?_eq proper points, ?_⟩
  by_cases affordable : card.Affordable s
  · simp [affordable, ((affordable_iff proper).1 affordable).1]
  · by_cases prices : Price.Affordable card.prices s <;> simp [affordable, prices]

/-- The check depends on what the prices come to and on the flat cost alone. -/
theorem tooDear?_congr (proper : card.ProperlyPriced) (proper' : ∀ p ∈ card'.prices, p.Proper)
    (points : 0 ≤ s.points) (bill : Price.SameBill card.prices card'.prices)
    (flat : card'.flatCost = card.flatCost) : card'.tooDear? s = card.tooDear? s := by
  have properly : card'.ProperlyPriced := ⟨proper', flat ▸ proper.flatCost⟩
  have cost (r : Resource) : card'.cost r = card.cost r := by
    rw [cost_eq, cost_eq, flat, bill.costs]
  have affordable : card'.Affordable s ↔ card.Affordable s := by
    rw [affordable_iff properly, affordable_iff proper, bill.affordable_iff, flat]
    simp only [cost]
  rw [tooDear?_eq properly points, tooDear?_eq proper points]
  simp only [bill.affordable_iff, affordable]

/-! ## The payment -/

/-- An affordable card is paid for without a fault, and its payment takes what the card says. -/
theorem exists_payFor (proper : card.ProperlyPriced) (points : 0 ≤ s.points)
    (affordable : card.Affordable s) :
    ∃ t, card.payFor s = .ok t ∧
      s.Changes (fun r => -card.cost r) (-card.forfeit) card.workers t := by
  have prices := ((affordable_iff proper).1 affordable).1
  obtain ⟨paid, hcheck, hpaid⟩ := prices.exists_payAll proper.prices points
  have covered := (covers_flatCost_iff proper prices hcheck).2 affordable
  obtain ⟨t, ht, -⟩ := covered.exists_withdrawAll proper.flatCost.nonneg
  refine ⟨t, Checked.bind_eq_ok.2 ⟨paid, hpaid, ht⟩, ?_⟩
  have changed := (Price.changes_of_payAll? hcheck).trans
    (.of_moves (Store.Moves.of_withdrawAll ht))
  refine changed.congr (fun r => ?_) (Int.add_zero _) rfl
  rw [cost, Int.neg_add]

/-- After some of the prices of an affordable card, a part of what it takes besides can be taken,
and leaves no debt in what the card asks for. -/
theorem exists_part {before after : List Price} (proper : card.ProperlyPriced)
    (points : 0 ≤ s.points) (affordable : card.Affordable s)
    (split : before ++ after = card.prices) (nonneg : ∀ e ∈ b.entries, 0 ≤ e.2)
    (asks : ∀ r, b.Asks r → card.Asks r)
    (room : ∀ r, Price.costs before r + b.total r ≤ card.cost r) :
    ∃ t, (Price.payAll before s >>= fun t => t.withdrawAll b) = .ok t ∧
      (∀ r, card.Asks r → 0 ≤ t.balance r) ∧ 0 ≤ t.points := by
  have proper' : ∀ p ∈ before ++ after, p.Proper := split ▸ proper.prices
  obtain ⟨hbefore, hafter⟩ := List.forall_mem_append.1 proper'
  have all : Price.Affordable (before ++ after) s :=
    split ▸ ((affordable_iff proper).1 affordable).1
  have first := all.front fun p hp => (hafter p hp).toNonnegative
  obtain ⟨paid, hcheck, hpaid⟩ := first.exists_payAll hbefore points
  have changed := Price.changes_of_payAll? hcheck
  have left (r : Resource) :
      (paid.balance r).toInt = (s.balance r).toInt - Price.costs before r := changed.balance r
  have covered : paid.Covers b := by
    refine Store.covers_iff.2 fun r hr => ?_
    have reached := affordable.goods r (asks r hr)
    have room := room r
    have left := left r
    omega
  obtain ⟨t, ht, -⟩ := covered.exists_withdrawAll nonneg
  have moved := Store.Moves.of_withdrawAll ht
  refine ⟨t, Checked.bind_eq_ok.2 ⟨paid, hpaid, ht⟩, fun r hr => ?_, ?_⟩
  · have reached := affordable.goods r hr
    have room := room r
    have left := left r
    have taken := moved.balance r
    rw [Amount.nonneg_iff]
    omega
  · have kept : t.points = paid.points := by rw [moved.rest]
    have given : paid.points.toInt = s.points.toInt - Price.pointsOf before := changed.points
    have reached := first.points
    rw [kept, Amount.nonneg_iff]
    omega

/-- At no time does the payment for an affordable card fault or run into debt. -/
theorem Paying.exists_ok {step : Checked Store} (h : card.Paying s step)
    (proper : card.ProperlyPriced) (points : 0 ≤ s.points) (affordable : card.Affordable s) :
    ∃ t, step = .ok t ∧ (∀ r, card.Asks r → 0 ≤ t.balance r) ∧ 0 ≤ t.points := by
  have flat := Bundle.total_nonneg proper.flatCost.nonneg
  cases h with
  | @prices before h =>
    obtain ⟨after, split⟩ := h
    have more : ∀ p ∈ after, p.Nonnegative := fun p hp =>
      (proper.prices p (split ▸ List.mem_append_right before hp)).toNonnegative
    have part := exists_part (b := .empty) proper points affordable split nofun nofun fun r => by
      have rest := Price.costs_nonneg more r
      have sum := Price.costs_append before after r
      have flat := flat r
      have none : Bundle.empty.total r = 0 := rfl
      rw [cost_eq, ← split]
      omega
    simpa [Store.withdrawAll, Bundle.empty] using part
  | @goods before p es h hes =>
    obtain ⟨after, split⟩ := h
    rw [List.append_assoc] at split
    have mem : ∀ q ∈ [p] ++ after, q ∈ card.prices := fun q hq =>
      split ▸ List.mem_append_right before hq
    have proper' := proper.prices p (mem p List.mem_cons_self)
    refine exists_part proper points affordable split (fun e he => ?_) ?_ fun r => ?_
    · exact proper'.goods.nonneg e (hes.subset he)
    · rintro _ ⟨e, he, rfl⟩
      exact .inl ⟨p, mem p List.mem_cons_self, Price.asks_goods.1 ⟨e, hes.subset he, rfl⟩⟩
    · have part := Bundle.total_prefix_le proper'.goods.nonneg hes r
      have rest : 0 ≤ Price.costs after r := Price.costs_nonneg (fun q hq =>
        (proper.prices q (mem q (List.mem_cons_of_mem p hq))).toNonnegative) r
      have sum := Price.costs_append before ([p] ++ after) r
      have sum' := Price.costs_append [p] after r
      have single := Price.costs_singleton p r
      have flat := flat r
      rw [Price.total_goods] at part
      rw [cost_eq, ← split]
      omega
  | @flatCost es hes =>
    refine exists_part proper points affordable (List.append_nil _) (fun e he => ?_) ?_ fun r => ?_
    · exact proper.flatCost.nonneg e (hes.subset he)
    · rintro _ ⟨e, he, rfl⟩
      exact .inr ⟨e, hes.subset he, rfl⟩
    · have part := Bundle.total_prefix_le proper.flatCost.nonneg hes r
      rw [cost_eq]
      omega

end Card

/-- The check of the costs one after the other is the check of their sum. It does not fault, and
succeeds just if the store has, of each resource that a price or the flat cost asks for, as much as
all of them take together, and the workers and the victory points of all prices. So neither the
order of the prices matters to it nor how one price is split into several. And where it succeeds,
the payment does not fault, at no time on its way runs into debt in what the card asks for or in
victory points, and takes exactly what the card says, workers included. -/
theorem costs_checked_by_sum {card : Card} {f : Farm} (points : 0 ≤ f.store.points)
    (proper : card.ProperlyPriced) :
    (card.duplicate? f = none →
      card.requirements.findSomeM? (fun q => q.unmet? f) = .ok none →
      card.objection? f = card.tooDear? f.store) ∧
    (∃ objection, card.tooDear? f.store = .ok objection ∧
      (objection = none ↔ card.Affordable f.store)) ∧
    (∀ {card' : Card}, card'.flatCost = card.flatCost → card.prices.Perm card'.prices →
      card'.tooDear? f.store = card.tooDear? f.store) ∧
    (∀ {card' : Card} {before p parts after}, card'.flatCost = card.flatCost →
      card.prices = before ++ [p] ++ after → card'.prices = before ++ parts ++ after →
      Price.SameBill [p] parts → (∀ q ∈ parts, q.Nonnegative) →
      card'.tooDear? f.store = card.tooDear? f.store) ∧
    (card.tooDear? f.store = .ok none →
      (∀ {step}, card.Paying f.store step →
        ∃ t, step = .ok t ∧ (∀ r, card.Asks r → 0 ≤ t.balance r) ∧ 0 ≤ t.points) ∧
      ∃ t, card.payFor f.store = .ok t ∧
        f.store.Changes (fun r => -card.cost r) (-card.forfeit) card.workers t) := by
  refine ⟨Card.objection?_eq_tooDear?, Card.exists_tooDear? proper points, ?_, ?_, ?_⟩
  · intro card' flat perm
    refine Card.tooDear?_congr proper (fun p hp => ?_) points (.of_perm perm) flat
    exact proper.prices p (perm.mem_iff.2 hp)
  · intro card' before p parts after flat hprices hprices' bill nonneg
    have whole : p.Proper := proper.prices p (by simp [hprices])
    have hparts := bill.proper whole nonneg
    refine Card.tooDear?_congr proper (fun q hq => ?_) points ?_ flat
    · rw [hprices'] at hq
      simp only [List.mem_append] at hq
      rcases hq with (hq | hq) | hq
      · exact proper.prices q (by simp [hprices, hq])
      · exact hparts q hq
      · exact proper.prices q (by simp [hprices, hq])
    · rw [hprices, hprices']
      exact bill.between before after
  · intro accepted
    obtain ⟨objection, hobjection, hiff⟩ := Card.exists_tooDear? proper points
    cases accepted.symm.trans hobjection
    have affordable := hiff.1 rfl
    exact ⟨fun h => h.exists_ok proper points affordable,
      Card.exists_payFor proper points affordable⟩

/-- A thatcher, who takes a wood besides what the prices are. -/
def thatcher (prices : List Price) : Card :=
  { Card.occupation ⟨41⟩ "Thatcher" with
    prices := prices
    kind := .occupation ⟨.craftsman, .single .wood 1⟩ }

/-- Two wood and meals for somebody who helps. -/
def roofing : Price := Price.free |>.withResource .wood 2 |>.withFood 1 |>.withWorkers 1

/-- Two wood and a victory point. -/
def carving : Price := Price.free |>.withResource .wood 2 |>.withPoints 1

/-- The roofing in two parts. -/
def roofingParts : List Price :=
  [Price.free |>.withResource .wood 1 |>.withFood 1,
    Price.free |>.withResource .wood 1 |>.withWorkers 1]

/-- A farm with so much wood, a food, a worker and a victory point. -/
def thatchersFarm (wood : Amount) : Farm :=
  { Farm.new ⟨0⟩ with
    store :=
      { (Store.empty.setBalance .wood wood).setBalance .food 1 with points := 1, workers := 1 } }

/-- Five wood pay for a thatcher and leave nothing, also with the prices the other way round or the
first one split; four are too few for the flat cost. -/
theorem costs_checked_by_sum_thatcher :
    (thatcher [roofing, carving]).ProperlyPriced ∧
      (thatcher [roofing, carving]).objection? (thatchersFarm 5) = .ok none ∧
      (∃ t, (thatcher [roofing, carving]).payFor (thatchersFarm 5).store = .ok t ∧
        (t.balance .wood).toInt = 5 + -5 ∧ 1 = t.workers.toNat + 1) ∧
      (thatcher [carving, roofing]).tooDear? (thatchersFarm 5).store = .ok none ∧
      (thatcher (roofingParts ++ [carving])).tooDear? (thatchersFarm 5).store = .ok none ∧
      ¬(thatcher [roofing, carving]).Affordable (thatchersFarm 4).store := by
  have proper : (thatcher [roofing, carving]).ProperlyPriced := by
    have nonneg : roofing.Proper ∧ carving.Proper := by
      refine ⟨⟨⟨?_, ?_, ?_⟩, fun r => ?_⟩, ⟨⟨?_, ?_, ?_⟩, fun r => ?_⟩⟩
      all_goals first | decide | (cases r <;> decide)
    refine ⟨?_, by decide, fun r => by cases r <;> decide⟩
    exact List.forall_mem_cons.2 ⟨nonneg.1, List.forall_mem_singleton.2 nonneg.2⟩
  have accepted : (thatcher [roofing, carving]).tooDear? (thatchersFarm 5).store = .ok none := rfl
  obtain ⟨check, -, order, splitting, paying⟩ :=
    costs_checked_by_sum (by decide : 0 ≤ (thatchersFarm 5).store.points) proper
  have swapped : (thatcher [carving, roofing]).tooDear? (thatchersFarm 5).store = _ :=
    order rfl (.swap ..)
  have whole : (thatcher [roofing, carving]).prices = [] ++ [roofing] ++ [carving] := rfl
  have bill : Price.SameBill [roofing] roofingParts := by
    refine ⟨fun r => ?_, fun r => ?_, rfl, rfl⟩
    · cases r <;> decide
    · cases r <;> rfl
  have nonneg : ∀ q ∈ roofingParts, q.Nonnegative := by
    refine List.forall_mem_cons.2 ⟨⟨?_, ?_, ?_⟩, List.forall_mem_singleton.2 ⟨?_, ?_, ?_⟩⟩
    all_goals decide
  have parted : (thatcher (roofingParts ++ [carving])).tooDear? (thatchersFarm 5).store = _ :=
    splitting rfl whole rfl bill nonneg
  obtain ⟨t, ht, changes⟩ := (paying accepted).2
  obtain ⟨-, ⟨objection, hobjection, hiff⟩, -⟩ :=
    costs_checked_by_sum (by decide : 0 ≤ (thatchersFarm 4).store.points) proper
  cases hobjection
  exact ⟨proper, (check rfl rfl).trans accepted, ⟨t, ht, changes.balance .wood, changes.workers⟩,
    swapped.trans accepted, parted.trans accepted, fun h => by cases hiff.2 h⟩

end Homestead
