import Homestead.Proofs.Solvency
import Mathlib

/-!
# Ledgers

A posting is one thing that the rules did to a farm's store: an effect was applied, a card was paid
for or installed, something was cooked. It says by how much each balance and the victory points
changed and how many workers were placed, as the cards declare it. `Store.Posts` relates the stores
before and after some postings, in exact integers. Applying effects, playing a card, cooking and
firing matches all come down to the postings that they report (`Copy.Applies.posts`,
`Farm.PlaysOut.posts`, `Store.posts_cook`, `Match.FiresAll.posts`): what was refused, declined or
skipped posts nothing.
-/

namespace Homestead

/-! ## Postings -/

/-- What paying a price takes of a resource. -/
def Price.cost (p : Price) (r : Resource) : Int :=
  p.resources.total r + if r = .food then p.food.toInt else 0

namespace Card

/-- What playing a card takes of a resource, by its prices and its flat cost. -/
def cost (card : Card) (r : Resource) : Int :=
  (card.prices.map fun p => p.cost r).sum + card.flatCost.total r

/-- The victory points that playing a card gives up. -/
def forfeit (card : Card) : Int := (card.prices.map fun p => p.points.toInt).sum

/-- The workers that playing a card places. -/
def workers (card : Card) : Nat := (card.prices.map fun p => p.workers.toNat).sum

end Card

/-- The boon that a card has for the label of an effect. -/
def Effect.boonOn? (e : Effect) (card : CardId) : Option Boon := e.special.bind (Boon.of? card)

/-- One thing that the rules did to a store. -/
inductive Posting where
  /-- An effect of a card was applied. -/
  | applied (card : Card) (e : Effect)
  /-- The prices and the flat cost of a card were paid. -/
  | paid (card : Card)
  /-- What a card brings was installed. -/
  | installed (card : Card)
  /-- Units of a resource became food. -/
  | cooked (resource : Resource) (units : Count) (food : Amount)

namespace Posting

/-- What a posting adds to the balance of a resource. -/
def amount (r : Resource) : Posting → Int
  | applied card e => e.net (e.boonOn? card.id) r
  | paid card => -card.cost r
  | installed _ => 0
  | cooked q units food => (if r = .food then food.toInt else 0) - if r = q then units.toNat else 0

/-- What a posting adds to the victory points. -/
def points : Posting → Int
  | applied _ e => e.points.toInt
  | paid card => -card.forfeit
  | installed card => card.points.toInt
  | cooked .. => 0

/-- The workers that were placed for a posting. -/
def placed : Posting → Nat
  | paid card => card.workers
  | _ => 0

end Posting

/-- The postings of the effects at several positions of a card that were applied. -/
def Card.applications (card : Card) (is : List Nat) : List Posting :=
  is.filterMap fun i => (card.effects[i]?).map (.applied card)

/-- The card of which an owned identifier is a copy. -/
def Farm.card? (f : Farm) (id : CopyId) : Option Card := (f.copy? id).map Copy.card

/-- The postings of a firing on a seat's farm. -/
def Farm.posted (f : Farm) (seat : Seat) (firing : Firing) : List Posting :=
  if firing.aim.seat = seat then
    match f.card? firing.aim.copy with
    | some card => card.applications firing.outcome.applied
    | none => []
  else []

/-! ## Changes of a store -/

/-- The balances and the points changed by so much, and so many workers were placed. -/
structure Store.Changes (goods : Resource → Int) (points : Int) (placed : Nat) (s t : Store) :
    Prop where
  balance : ∀ r, (t.balance r).toInt = (s.balance r).toInt + goods r
  points : t.points.toInt = s.points.toInt + points
  workers : s.workers.toNat = t.workers.toNat + placed
  family : t.family = s.family

/-- The store changed by what the postings say. -/
def Store.Posts (ps : List Posting) (s t : Store) : Prop :=
  Changes (fun r => (ps.map (Posting.amount r)).sum) (ps.map Posting.points).sum
    (ps.map Posting.placed).sum s t

variable {s t u : Store} {b : Bundle} {r : Resource} {n : Amount} {δ ε : Resource → Int} {p q : Int}
  {k m : Nat} {card : Card} {e : Effect} {boon : Option Boon} {policy : PaymentPolicy}

namespace Store

namespace Changes

theorem refl (s : Store) : Changes (fun _ => 0) 0 0 s s :=
  ⟨fun _ => (Int.add_zero _).symm, (Int.add_zero _).symm, rfl, rfl⟩

theorem trans (h : Changes δ p k s t) (h' : Changes ε q m t u) :
    Changes (fun r => δ r + ε r) (p + q) (k + m) s u where
  balance r := by rw [h'.balance, h.balance, Int.add_assoc]
  points := by rw [h'.points, h.points, Int.add_assoc]
  workers := by rw [h.workers, h'.workers, Nat.add_right_comm, Nat.add_assoc]
  family := h'.family.trans h.family

theorem congr (h : Changes δ p k s t) (goods : ∀ r, δ r = ε r) (points : p = q)
    (placed : k = m) : Changes ε q m s t := by
  obtain rfl : δ = ε := funext goods
  subst points placed
  exact h

theorem of_moves (h : Moves δ s t) : Changes δ 0 0 s t where
  balance := h.balance
  points := by rw [h.rest]; exact (Int.add_zero _).symm
  workers := congrArg _ h.estate.workers.symm
  family := h.estate.family

end Changes

namespace Posts

theorem nil (s : Store) : Posts [] s s := Changes.refl s

theorem append {ps qs : List Posting} (h : Posts ps s t) (h' : Posts qs t u) :
    Posts (ps ++ qs) s u := by
  refine (Changes.trans h h').congr (fun r => ?_) ?_ ?_
  all_goals rw [List.map_append, List.sum_append]

theorem single {x : Posting} (h : Changes (fun r => x.amount r) x.points x.placed s t) :
    Posts [x] s t :=
  h.congr (fun _ => (List.sum_singleton ..).symm) (List.sum_singleton ..).symm
    (List.sum_singleton ..).symm

end Posts

end Store

/-! ## Effects -/

namespace Effect

theorem boon_eq (h : e.boon card.id = .ok boon) : boon = e.boonOn? card.id := by
  unfold Effect.boon at h
  unfold boonOn?
  split at h
  · rename_i plain
    cases h
    rw [plain]
    rfl
  · rename_i special label
    split at h
    · rename_i granted
      cases h
      rw [label]
      exact granted.symm
    · cases h

/-- An effect that is applied changes a store by what it declares and by its card's boon. -/
theorem changes_of_apply (h : e.apply card policy s = .ok (.ok t)) :
    s.Changes (e.net (e.boonOn? card.id)) e.points.toInt 0 t := by
  obtain ⟨boon, hboon, -, hsettle⟩ := apply_eq_ok_iff.1 h
  obtain ⟨balance, estate⟩ := of_settle hsettle
  rw [← boon_eq hboon]
  exact ⟨balance, points_of_settle hsettle, congrArg _ estate.workers.symm, estate.family⟩

end Effect

/-- Applying effects of a copy posts those that were applied. -/
theorem Copy.Applies.posts {is : List Nat} {c c' : Copy} {o : Outcome}
    (h : Copy.Applies policy is c s c' t o) : s.Posts (c.card.applications o.applied) t := by
  induction h with
  | nil | refused => exact .nil _
  | declined _ _ ih => exact ih
  | @applied i _ c s _ s₁ _ _ o hi _ ih =>
    cases Copy.applyEffect_eq_ok_iff.1 hi with
    | @applied e _ _ he _ _ happly =>
      have first : s.Posts [.applied c.card e] s₁ := .single (Effect.changes_of_apply happly)
      have head : c.card.applications (i :: o.applied) =
          [.applied c.card e] ++ c.card.applications o.applied := by
        simp [Card.applications, he]
      exact head ▸ first.append ih

/-! ## Playing -/

namespace Price

variable {price : Price} {prices : List Price}

theorem total_goods (price : Price) (r : Resource) : price.goods.total r = price.cost r := by
  have entries := Bundle.entries_push price.resources .food price.food
  unfold goods cost
  rw [show price.resources.push .food price.food = ⟨_⟩ from congrArg Bundle.mk entries,
    Bundle.total_append]
  congr 1
  split
  · rename_i none
    simp [none, Bundle.total, Bundle.amountsOf]
  · rw [Bundle.total_cons]
    simp [Bundle.total, Bundle.amountsOf, eq_comm]

/-- A checked payment takes what the price says; the workers that it places were there. -/
theorem changes_of_pay? (h : price.pay? s = .ok (some t)) :
    s.Changes (fun r => -price.cost r) (-price.points.toInt) price.workers.toNat t := by
  obtain ⟨hcan, hpay⟩ := pay?_eq_some_iff.1 h
  obtain ⟨paid, points, hpaid, hpoints, rfl⟩ := of_pay hpay
  have moved := Store.Moves.of_withdrawAll hpaid
  have enough := UInt32.le_iff_toNat_le.1 (canPay_eq_true_iff.1 hcan).2.1
  refine ⟨fun r => ?_, ?_, ?_, moved.estate.family⟩
  · rw [← total_goods]
    exact moved.balance r
  · rw [← Int.sub_eq_add_neg]
    exact hpoints
  · change _ = (s.workers.less price.workers).toNat + _
    rw [Count.toNat_less]
    omega

theorem changes_of_payAll? (h : payAll? prices s = .ok (some t)) :
    s.Changes (fun r => -(prices.map fun p => p.cost r).sum)
      (-(prices.map fun p => p.points.toInt).sum) (prices.map fun p => p.workers.toNat).sum t := by
  induction prices generalizing s with
  | nil =>
    cases Checked.pure_eq_ok.1 h
    exact .refl _
  | cons price prices ih =>
    obtain ⟨paid, hpaid, h⟩ := Checked.bind_eq_ok.1 h
    cases paid with
    | none => cases Checked.pure_eq_ok.1 h
    | some paid =>
      refine ((changes_of_pay? hpaid).trans (ih h)).congr (fun r => ?_) ?_ ?_
      · rw [List.map_cons, List.sum_cons, Int.neg_add]
      · rw [List.map_cons, List.sum_cons, Int.neg_add]
      · rw [List.map_cons, List.sum_cons]

end Price

namespace Card

variable {f : Farm}

theorem posts_payFor (checked : card.objection? f = .ok none) (h : card.payFor f.store = .ok t) :
    f.store.Posts [.paid card] t := by
  obtain ⟨paid, hpaid, -, h⟩ := of_payFor checked h
  have prices := Price.changes_of_payAll? hpaid
  have changed := prices.trans (.of_moves (Store.Moves.of_withdrawAll h))
  apply Store.Posts.single
  refine changed.congr (fun r => ?_) (Int.add_zero _) rfl
  rw [Posting.amount, cost, Int.neg_add]

theorem posts_install (h : card.install s = .ok t) : s.Posts [.installed card] t := by
  obtain ⟨counted, kitchens, ratios, capacities, hcounted, rfl⟩ := of_install h
  obtain ⟨points, hpoints, rfl⟩ := Store.of_addPoints_unless hcounted
  exact .single ⟨fun _ => (Int.add_zero _).symm, hpoints, rfl, rfl⟩

end Card

/-- Playing a card posts its payment, the effects applied at that moment and its installation. -/
theorem Farm.PlaysOut.posts {f f' : Farm} {seat : Seat} {id : CopyId} {p : Played}
    (checked : card.objection? f = .ok none) (h : f.PlaysOut seat card id policy f' p) :
    f.store.Posts
      ([.paid card] ++ card.applications p.outcome.applied ++ [.installed card]) f'.store := by
  cases h with
  | intro hpaid happlies hinstalled =>
    rw [store_add]
    have paid := Card.posts_payFor checked hpaid
    exact (paid.append happlies.posts).append (Card.posts_install hinstalled)

/-! ## Cooking -/

/-- Cooking posts the meal, if there is one. -/
theorem Store.posts_cook {meal : Amount} {n : Count} (h : s.cook r n = (t, meal)) :
    s.Posts (if meal = 0 then [] else [.cooked r n meal]) t := by
  obtain ⟨can, cooked⟩ | ⟨rfl, rfl⟩ := cook_cases h
  · have some_meal := cook_ne_zero_iff.2 can
    rw [h] at some_meal
    rw [if_neg some_meal]
    apply Posts.single
    rw [cooked.rest]
    refine ⟨fun q => ?_, (Int.add_zero _).symm, rfl, rfl⟩
    rw [← cooked.rest]
    by_cases food : q = .food
    · rw [food, cooked.gained]
      simp [Posting.amount, can.ne_food.symm]
    · by_cases same : q = r
      · rw [same, cooked.spent]
        simp [Posting.amount, can.ne_food]
        omega
      · rw [cooked.others q same food]
        simp [Posting.amount, food, same]
  · exact .nil t

theorem Farm.posts_cook {f f' : Farm} {n : Count} {food : Amount}
    (h : f.cook r n = (f', food)) :
    f.store.Posts (if food = 0 then [] else [.cooked r n food]) f'.store := by
  rcases hcook : f.store.cook r n with ⟨t, meal⟩
  rw [Farm.cook, hcook] at h
  cases h
  exact Store.posts_cook hcook

/-! ## Matches -/

namespace Farm

variable {f f' g : Farm} {id : CopyId} {is : List Nat} {o : Outcome} {seat : Seat}

theorem SameCards.card? (h : f.SameCards g) (id : CopyId) : g.card? id = f.card? id := by
  have look (f : Farm) : f.card? id =
      ((f.copies.map fun c => (c.id, c.card)).find? fun x => x.1 = id).map Prod.snd := by
    rw [List.find?_map, Option.map_map]
    rfl
  rw [look, look, h.copies]

theorem SameCards.posted (h : f.SameCards g) (seat : Seat) : g.posted seat = f.posted seat := by
  funext firing
  rw [Farm.posted, h.card?, Farm.posted]

theorem Fires.posts {firing : Firing} (aimed : firing.aim.seat = seat)
    (h : f.Fires policy firing.aim.copy is f' firing.outcome) :
    f.store.Posts (f.posted seat firing) f'.store := by
  rw [posted, if_pos aimed]
  generalize firing.outcome = o at h ⊢
  cases h with
  | absent hc =>
    rw [card?, hc]
    exact .nil _
  | owned hc happlies =>
    rw [card?, hc, store_replace]
    exact happlies.posts

end Farm

section

variable {ms : List Match} {farms farms' : Seating Farm} {firing : Firing}
  {firings : List Firing} {seat : Seat} {f : Farm}

theorem Match.Fires.posts {m : Match} (h : m.Fires policy farms farms' firing)
    (hf : farms.get? seat = some f) :
    ∃ f', farms'.get? seat = some f' ∧ f.SameCards f' ∧
      f.store.Posts (f.posted seat firing) f'.store := by
  cases h with
  | noFarm none =>
    have other : m.seat ≠ seat := by
      rintro rfl
      cases none.symm.trans hf
    refine ⟨f, hf, .refl f, ?_⟩
    rw [Farm.posted, if_neg other]
    exact .nil _
  | @farm f₀ f' o hf₀ hfires =>
    by_cases aimed : m.seat = seat
    · subst aimed
      cases hf₀.symm.trans hf
      exact ⟨f', Seating.get?_set_self hf f', hfires.sameCards, hfires.posts rfl⟩
    · refine ⟨f, (Seating.get?_set_ne aimed f').trans hf, .refl f, ?_⟩
      rw [Farm.posted, if_neg aimed]
      exact .nil _

/-- Firing matches posts on a seat's farm what was applied there. -/
theorem Match.FiresAll.posts (h : Match.FiresAll policy ms farms farms' firings)
    (hf : farms.get? seat = some f) :
    ∃ f', farms'.get? seat = some f' ∧ f.SameCards f' ∧
      f.store.Posts (firings.flatMap (f.posted seat)) f'.store := by
  induction h generalizing f with
  | nil => exact ⟨f, hf, .refl f, .nil _⟩
  | cons hm _ ih =>
    obtain ⟨f₁, hf₁, cards, posts⟩ := hm.posts hf
    obtain ⟨f', hf', cards', posts'⟩ := ih hf₁
    rw [cards.posted] at posts'
    exact ⟨f', hf', cards.trans cards', posts.append posts'⟩

end

end Homestead
