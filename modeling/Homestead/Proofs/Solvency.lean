import Homestead.Proofs.Accounts
import Homestead.Proofs.Cooking
import Homestead.Proofs.Playing

/-!
# Solvency

A store is *solvent* when no balance is below zero. A payment that was checked keeps it so, since
the check compares each balance with the same total that is then taken from it, however many entries
the total is spread over (`Store.Solvent.withdrawAll`). Effects under strict payment, prices, flat
costs, cooking and the rest of what happens to a farm all come down to that.
-/

namespace Homestead

/-- No balance is below zero. -/
def Store.Solvent (s : Store) : Prop := ∀ r, 0 ≤ s.balance r

/-- No effect of the card declares a negative gain. -/
def Card.Giving (card : Card) : Prop :=
  ∀ e ∈ card.effects, ∀ entry ∈ e.gains.entries, 0 ≤ entry.2

/-- The store is solvent, and no owned card declares a negative gain. -/
structure Farm.Solvent (f : Farm) : Prop where
  store : f.store.Solvent
  giving : ∀ c ∈ f.copies, c.card.Giving

variable {s t : Store} {b : Bundle} {e : Effect} {card : Card} {c c' : Copy} {is : List Nat}
  {o : Outcome} {f f' : Farm} {id : CopyId} {p : Price} {prices : List Price} {r : Resource}

/-! ## Stores -/

namespace Store

theorem solvent_iff : s.Solvent ↔ ∀ r, 0 ≤ (s.balance r).toInt :=
  forall_congr' fun _ => Int32.le_iff_toInt_le

theorem Solvent.congr (h : s.Solvent) (same : t.balances = s.balances) : t.Solvent := by
  intro r
  rw [balance, same]
  exact h r

/-- A solvent store that covers a bundle holds its total of every resource, also of those that the
bundle does not mention. -/
theorem Covers.total_le (h : s.Covers b) (hs : s.Solvent) (r : Resource) :
    b.total r ≤ (s.balance r).toInt := by
  by_cases mentioned : ∃ e ∈ b.entries, e.1 = r
  · obtain ⟨e, he, rfl⟩ := mentioned
    exact h e he
  · have none : ∀ e ∈ b.entries, e.1 ≠ r := fun e he eq => mentioned ⟨e, he, eq⟩
    rw [Bundle.total_eq_zero none]
    exact solvent_iff.1 hs r

theorem Solvent.withdrawAll (hs : s.Solvent) (covered : s.Covers b)
    (h : s.withdrawAll b = .ok t) : t.Solvent := by
  rw [solvent_iff]
  intro r
  have := (Moves.of_withdrawAll h).balance r
  have := covered.total_le hs r
  omega

theorem Solvent.addAll (hs : s.Solvent) (nonneg : ∀ e ∈ b.entries, 0 ≤ e.2)
    (h : s.addAll b = .ok t) : t.Solvent := by
  rw [solvent_iff] at hs ⊢
  intro r
  have := (Moves.of_addAll h).balance r
  have := Bundle.total_nonneg nonneg r
  have := hs r
  omega

theorem Solvent.cook {n : Count} {meal : Amount} (hs : s.Solvent) (h : s.cook r n = (t, meal)) :
    t.Solvent := by
  obtain ⟨can, cooked⟩ | ⟨rfl, -⟩ := cook_cases h
  · rw [solvent_iff] at hs ⊢
    intro q
    by_cases same : q = r
    · have enough := can.enough
      rw [same, cooked.spent]
      omega
    by_cases food : q = .food
    · have larder := hs .food
      rw [food, cooked.gained, cooked.meal_eq]
      omega
    · rw [cooked.others q same food]
      exact hs q
  · exact hs

/-! ## Installing -/

theorem of_addKitchen (s : Store) (id : CardId) :
    ∃ kitchens, s.addKitchen id = { s with kitchens := kitchens } := by
  unfold addKitchen
  split
  · exact ⟨_, rfl⟩
  · exact ⟨_, rfl⟩

theorem of_addRatios (ratios : List (Resource × Count)) (s : Store) :
    ∃ granted, ratios.foldl (fun s e => s.addRatio e.1 e.2) s = { s with ratios := granted } := by
  induction ratios generalizing s with
  | nil => exact ⟨_, rfl⟩
  | cons e ratios ih => exact ih (s.addRatio e.1 e.2)

theorem of_addCapacities {capacities : List (Resource × Count)}
    (h : capacities.foldlM (fun s e => s.addCapacity e.1 e.2) s = .ok t) :
    ∃ granted, t = { s with capacities := granted } := by
  induction capacities generalizing s with
  | nil =>
    cases Checked.pure_eq_ok.1 h
    exact ⟨_, rfl⟩
  | cons e capacities ih =>
    obtain ⟨s₁, hfirst, h⟩ := Checked.bind_eq_ok.1 ((List.foldlM_cons ..).symm.trans h)
    obtain ⟨n, -, hfirst⟩ := Checked.bind_eq_ok.1 hfirst
    cases Checked.pure_eq_ok.1 hfirst
    obtain ⟨granted, rfl⟩ := ih h
    exact ⟨granted, rfl⟩

end Store

/-! ## Effects -/

/-- No boon of the table takes resources. -/
theorem Boon.gainOf_nonneg {id : CardId} {special : Special} {boon : Boon}
    (h : Boon.of? id special = some boon) (r : Resource) : 0 ≤ boon.gainOf r := by
  have all : ∀ entry ∈ table, ∀ r ∈ (Enumerated.all : List Resource), 0 ≤ entry.2.gainOf r := by
    decide
  obtain ⟨before, after, htable, -⟩ := List.lookup_eq_some_iff.1 h
  have mem : ((id, special), boon) ∈ table := htable ▸ List.mem_append_right _ List.mem_cons_self
  exact all _ mem r (Enumerated.mem_all r)

theorem Effect.boonGain_nonneg {boon : Option Boon} (h : e.boon card.id = .ok boon)
    (r : Resource) : 0 ≤ (boon.map fun b => b.gainOf r).getD 0 := by
  cases boon with
  | none => exact Int.le_refl 0
  | some boon =>
    unfold Effect.boon at h
    split at h
    · cases h
    · split at h
      · rename_i hboon
        cases h
        exact Boon.gainOf_nonneg hboon r
      · cases h

theorem Effect.solvent (hs : s.Solvent) (giving : ∀ entry ∈ e.gains.entries, 0 ≤ entry.2)
    (h : e.apply card .strict s = .ok (.ok t)) : t.Solvent := by
  obtain ⟨boon, hboon, hcovers, settled⟩ := e.of_apply h
  rw [Store.solvent_iff]
  intro r
  have := settled.balance r
  have := (hcovers rfl).total_le hs r
  have := Bundle.total_nonneg giving r
  have := Effect.boonGain_nonneg hboon r
  unfold net at *
  omega

theorem Copy.Applies.solvent (h : Copy.Applies .strict is c s c' t o) (hs : s.Solvent)
    (giving : c.card.Giving) : t.Solvent := by
  induction h with
  | nil | refused => exact hs
  | declined _ _ ih => exact ih hs giving
  | applied hi _ ih =>
    cases Copy.applyEffect_eq_ok_iff.1 hi with
    | applied he _ _ happly =>
      exact ih (Effect.solvent hs (giving _ (List.mem_of_getElem? he)) happly) giving

/-! ## Prices -/

namespace Price

/-- A price can be paid where the goods are covered, and the workers and victory points reach. -/
theorem canPay_eq_true_iff : p.canPay s = .ok true ↔
    s.covers p.goods = .ok true ∧ p.workers ≤ s.workers ∧ p.points ≤ s.points := by
  unfold canPay
  cases hcovered : s.covers p.goods with
  | error fault => exact ⟨nofun, fun h => nomatch h.1⟩
  | ok covered =>
    cases covered with
    | true => simp [pure, Except.pure]
    | false => simp [pure, Except.pure]

theorem covers_of_canPay (h : p.canPay s = .ok true) : s.Covers p.goods :=
  Store.covers_of_covers (canPay_eq_true_iff.1 h).1

/-- A payment takes the goods, places the workers and gives up the points. -/
theorem of_pay (h : p.pay s = .ok t) :
    ∃ (paid : Store) (points : Amount), s.withdrawAll p.goods = .ok paid ∧
      points.toInt = s.points.toInt - p.points.toInt ∧
      t = { paid with workers := s.workers.less p.workers, points := points } := by
  obtain ⟨paid, hpaid, h⟩ := Checked.bind_eq_ok.1 h
  obtain ⟨given, hgiven, h⟩ := Checked.bind_eq_ok.1 h
  obtain ⟨points, hpoints, rfl⟩ := Store.of_addPoints h
  have moves := Store.Moves.of_withdrawAll hpaid
  have kept : paid.points = s.points := by rw [moves.rest]
  refine ⟨paid, points, hpaid, ?_, ?_⟩
  · change points.toInt = paid.points.toInt + given.toInt at hpoints
    rw [hpoints, kept, Amount.opposite_eq_ok_iff.1 hgiven, Int.sub_eq_add_neg]
  · rw [← moves.estate.workers]
    rfl

theorem pay?_eq_some_iff :
    p.pay? s = .ok (some t) ↔ p.canPay s = .ok true ∧ p.pay s = .ok t := by
  rw [pay?, Checked.bind_eq_ok]
  constructor
  · intro h
    obtain ⟨payable, hpayable, h⟩ := h
    cases payable with
    | true =>
      obtain ⟨paid, hpaid, h⟩ := Checked.map_eq_ok.1 h
      cases h
      exact ⟨hpayable, hpaid⟩
    | false => cases Checked.pure_eq_ok.1 h
  · intro h
    exact ⟨true, h.1, Checked.map_eq_ok.2 ⟨t, h.2, rfl⟩⟩

theorem solvent_of_pay? (hs : s.Solvent) (h : p.pay? s = .ok (some t)) : t.Solvent := by
  obtain ⟨hcan, hpay⟩ := pay?_eq_some_iff.1 h
  obtain ⟨paid, points, hpaid, -, rfl⟩ := of_pay hpay
  exact (hs.withdrawAll (covers_of_canPay hcan) hpaid).congr rfl

/-- The check of several prices pays them on a scratch store; what it leaves there is what the
payment itself leaves. -/
theorem payAll_of_payAll? (h : payAll? prices s = .ok (some t)) : payAll prices s = .ok t := by
  unfold payAll
  induction prices generalizing s with
  | nil =>
    cases Checked.pure_eq_ok.1 h
    rfl
  | cons p prices ih =>
    obtain ⟨paid, hpaid, h⟩ := Checked.bind_eq_ok.1 h
    cases paid with
    | none => cases Checked.pure_eq_ok.1 h
    | some paid =>
      rw [List.foldlM_cons, (pay?_eq_some_iff.1 hpaid).2]
      exact ih h

theorem solvent_of_payAll? (hs : s.Solvent) (h : payAll? prices s = .ok (some t)) :
    t.Solvent := by
  induction prices generalizing s with
  | nil =>
    cases Checked.pure_eq_ok.1 h
    exact hs
  | cons p prices ih =>
    obtain ⟨paid, hpaid, h⟩ := Checked.bind_eq_ok.1 h
    cases paid with
    | none => cases Checked.pure_eq_ok.1 h
    | some paid => exact ih (solvent_of_pay? hs hpaid) h

end Price

namespace Card

/-- Nothing stands against a card if the farm has no duplicate of it, every requirement is met, and
the prices can be paid one after the other and the flat cost from what they leave. -/
theorem objection?_eq_none_iff : card.objection? f = .ok none ↔
    card.duplicate? f = none ∧ (∀ q ∈ card.requirements, q.unmet? f = .ok none) ∧
      ∃ scratch, Price.payAll? card.prices f.store = .ok (some scratch) ∧
        scratch.covers card.flatCost = .ok true := by
  unfold objection?
  cases card.duplicate? f with
  | some objection => exact iff_of_false nofun nofun
  | none =>
    rw [← Checked.findSomeM?_eq_none_iff]
    dsimp only
    rw [Checked.bind_eq_ok]
    constructor
    · intro h
      obtain ⟨unmet, hunmet, h⟩ := h
      cases unmet with
      | some shortfall => cases Checked.pure_eq_ok.1 h
      | none =>
        obtain ⟨scratch, hscratch, h⟩ := Checked.bind_eq_ok.1 h
        cases scratch with
        | none => cases Checked.pure_eq_ok.1 h
        | some scratch =>
          obtain ⟨covered, hcovered, h⟩ := Checked.bind_eq_ok.1 h
          cases covered with
          | true => exact ⟨rfl, hunmet, scratch, hscratch, hcovered⟩
          | false => cases Checked.pure_eq_ok.1 h
    · intro h
      obtain ⟨-, hunmet, scratch, hscratch, hcovered⟩ := h
      refine ⟨none, hunmet, Checked.bind_eq_ok.2 ⟨some scratch, hscratch, ?_⟩⟩
      exact Checked.bind_eq_ok.2 ⟨true, hcovered, rfl⟩

/-- A card that meets no objection is payable: its prices are, and what they leave covers the flat
cost. -/
theorem of_objection? (h : card.objection? f = .ok none) :
    ∃ scratch, Price.payAll? card.prices f.store = .ok (some scratch) ∧
      scratch.Covers card.flatCost := by
  obtain ⟨-, -, scratch, hscratch, hcovered⟩ := objection?_eq_none_iff.1 h
  exact ⟨scratch, hscratch, Store.covers_of_covers hcovered⟩

/-- A checked payment takes the prices one after the other from stores that cover them, and then
the flat cost from one that covers it. -/
theorem of_payFor (checked : card.objection? f = .ok none) (h : card.payFor f.store = .ok t) :
    ∃ paid, Price.payAll? card.prices f.store = .ok (some paid) ∧ paid.Covers card.flatCost ∧
      paid.withdrawAll card.flatCost = .ok t := by
  obtain ⟨scratch, hscratch, covered⟩ := of_objection? checked
  obtain ⟨paid, hpaid, h⟩ := Checked.bind_eq_ok.1 h
  cases (Price.payAll_of_payAll? hscratch).symm.trans hpaid
  exact ⟨_, hscratch, covered, h⟩

theorem solvent_of_payFor (hs : f.store.Solvent) (checked : card.objection? f = .ok none)
    (h : card.payFor f.store = .ok t) : t.Solvent := by
  obtain ⟨paid, hpaid, covered, h⟩ := of_payFor checked h
  exact (Price.solvent_of_payAll? hs hpaid).withdrawAll covered h

/-- What a card installs, once its points are counted, are kitchens, ratios and capacities. -/
theorem of_install (h : card.install s = .ok t) :
    ∃ counted kitchens ratios capacities,
      (if card.points = 0 then pure s else s.addPoints card.points) = Except.ok counted ∧
        t = { counted with kitchens := kitchens, ratios := ratios, capacities := capacities } := by
  rw [install_eq] at h
  obtain ⟨counted, hcounted, h⟩ := Checked.bind_eq_ok.1 h
  rw [pure_bind, List.foldlM_pure, pure_bind] at h
  obtain ⟨capacities, rfl⟩ := Store.of_addCapacities h
  obtain ⟨kitchens, hkitchens⟩ : ∃ kitchens,
      (if card.cooking.isEmpty then counted else counted.addKitchen card.id) =
        { counted with kitchens := kitchens } := by
    split
    · exact ⟨_, rfl⟩
    · exact counted.of_addKitchen card.id
  rw [hkitchens]
  obtain ⟨ratios, hratios⟩ := Store.of_addRatios card.cooking { counted with kitchens := kitchens }
  rw [hratios]
  exact ⟨counted, kitchens, ratios, capacities, hcounted, rfl⟩

theorem balances_install (h : card.install s = .ok t) : t.balances = s.balances := by
  obtain ⟨counted, kitchens, ratios, capacities, hcounted, rfl⟩ := of_install h
  obtain ⟨points, -, rfl⟩ := Store.of_addPoints_unless hcounted
  rfl

end Card

/-! ## Farms -/

namespace Farm

theorem SameCards.exists_card (h : f.SameCards f') (hc : c' ∈ f'.copies) :
    ∃ c ∈ f.copies, c'.card = c.card := by
  have mem : (c'.id, c'.card) ∈ f.copies.map fun c => (c.id, c.card) := by
    rw [← h.copies]
    exact List.mem_map_of_mem hc
  obtain ⟨c, hc, eq⟩ := List.mem_map.1 mem
  exact ⟨c, hc, (congrArg Prod.snd eq).symm⟩

theorem Solvent.of_sameCards (hf : f.Solvent) (cards : f.SameCards f') (hs : f'.store.Solvent) :
    f'.Solvent := by
  refine ⟨hs, fun c' hc' => ?_⟩
  obtain ⟨c, hc, eq⟩ := cards.exists_card hc'
  rw [eq]
  exact hf.giving c hc

theorem Solvent.fires (hf : f.Solvent) (h : f.Fires .strict id is f' o) : f'.Solvent := by
  refine hf.of_sameCards h.sameCards ?_
  cases h with
  | absent => exact hf.store
  | owned hc happlies =>
    rw [store_replace]
    exact happlies.solvent hf.store (hf.giving _ (mem_of_copy? hc))

theorem Solvent.play {seat : Seat} {played : Played} (hf : f.Solvent) (giving : card.Giving)
    (checked : card.objection? f = .ok none) (h : f.PlaysOut seat card id .strict f' played) :
    f'.Solvent := by
  cases h with
  | @intro paid fired installed copy o hpaid happlies hinstalled =>
    have solvent : paid.Solvent := Card.solvent_of_payFor hf.store checked hpaid
    have solvent : fired.Solvent := happlies.solvent solvent giving
    constructor
    · rw [store_add]
      exact solvent.congr (Card.balances_install hinstalled)
    · intro c hc
      rcases mem_copies_add.1 hc with hc | rfl
      · exact hf.giving c hc
      · rw [happlies.id_card.2]
        exact giving

theorem Solvent.startRound (hf : f.Solvent) : f.startRound.Solvent :=
  hf.of_sameCards (.startRound f) (hf.store.congr rfl)

theorem Solvent.remove? (hf : f.Solvent) (h : f.remove? id = some (c, f')) : f'.Solvent := by
  obtain ⟨-, hcopies, hstore⟩ := of_remove?_eq_some h
  refine ⟨hstore ▸ hf.store, fun c hc => hf.giving c ?_⟩
  rw [hcopies] at hc
  exact List.mem_of_mem_eraseP hc

theorem Solvent.removeAll (hf : f.Solvent) : f.removeAll.2.Solvent :=
  ⟨hf.store, fun _ hc => by simp [Farm.removeAll, copies] at hc⟩

theorem Solvent.cook {n : Count} {food : Amount} (hf : f.Solvent) (h : f.cook r n = (f', food)) :
    f'.Solvent := by
  rcases hcook : f.store.cook r n with ⟨t, meal⟩
  rw [Farm.cook, hcook] at h
  cases h
  exact hf.of_sameCards ⟨rfl, rfl⟩ (hf.store.cook hcook)

end Farm

end Homestead
