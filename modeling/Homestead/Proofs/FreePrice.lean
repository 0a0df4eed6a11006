import Homestead.Deck
import Homestead.Proofs.Ledger

/-!
# Free prices

A free price takes nothing, wherever it stands among the prices of a card, and a play that pays it
leaves what the play without it leaves. The check is another matter: `Price.canPay` compares the
victory points that a price gives up with those of the farm even if the price gives up none, so in
debt of victory points not even a free price can be paid (`Price.pay?_free`).

Whoever paid a price is out of such debt (`Price.points_nonneg_of_pay?`). So it matters for a free
price only where it comes first, and anywhere else the check passes over it
(`Price.payAll?_insertIdx_free`).
-/

namespace Homestead

/-- The card with a free price more, at a position among its prices. -/
def Card.withFreePrice (card : Card) (i : Nat) : Card :=
  { card with prices := card.prices.insertIdx i .free }

/-- The copy with other prices on its card. -/
def Copy.repriced (prices : List Price) (c : Copy) : Copy :=
  { c with card := { c.card with prices := prices } }

/-- Two plays for a seat end alike: both fault, both are refused, or both go through and leave the
same registry and farms, except that the card of the new copy has other prices. -/
inductive Registry.PlaysAlike (farms : Seating Farm) (seat : Seat) (id : CopyId)
    (prices : List Price) :
    Checked (Except Refusal (Registry × Seating Farm × Played)) →
      Checked (Except Refusal (Registry × Seating Farm × Played)) → Prop
  | fault {e} : PlaysAlike farms seat id prices (.error e) (.error e)
  | refused {cause} : PlaysAlike farms seat id prices (.ok (.error cause)) (.ok (.error cause))
  | played {r : Registry} {f : Farm} {c : Copy} {p : Played} : c.id = id →
    PlaysAlike farms seat id prices (.ok (.ok (r, farms.set seat (f.add c), p)))
      (.ok (.ok (r, farms.set seat (f.add (c.repriced prices)), p)))

variable {policy : PaymentPolicy} {s t : Store} {p : Price} {prices : List Price} {i : Nat}
  {is : List Nat} {card : Card} {f : Farm} {c : Copy} {farms : Seating Farm} {seat : Seat}
  {id : CopyId}

/-! ## Paying nothing -/

theorem Count.less_zero (n : Count) : n.less 0 = n := by
  apply UInt32.toNat_inj.1
  rw [toNat_less, UInt32.toNat_zero, Nat.sub_zero]

theorem Amount.plus_zero (n : Amount) : n.plus 0 = .ok n :=
  plus_eq_ok_iff.2 (Int.add_zero _).symm

namespace Price

theorem pay_free (s : Store) : free.pay s = .ok s := by
  have taken : s.withdrawAll free.goods = .ok s := rfl
  have given : free.points.opposite = .ok 0 := rfl
  rw [pay, taken, given]
  change Store.addPoints { s with workers := s.workers.less 0 } 0 = .ok s
  rw [Count.less_zero, Store.addPoints, Amount.plus_zero]
  rfl

/-- In debt of victory points not even a free price can be paid. -/
theorem pay?_free (s : Store) : free.pay? s = .ok (if 0 ≤ s.points then some s else none) := by
  have covered : s.covers free.goods = .ok true := rfl
  have enough : free.workers ≤ s.workers := UInt32.le_iff_toNat_le.2 (Nat.zero_le _)
  have points : free.points = 0 := rfl
  rw [pay?, canPay, covered, pay_free]
  by_cases reached : 0 ≤ s.points
  · simp [enough, points, reached]
  · simp [points, reached, pure, Except.pure]

/-- Whoever paid a price is not in debt of victory points. -/
theorem points_nonneg_of_pay? (h : p.pay? s = .ok (some t)) : 0 ≤ t.points := by
  have reached := Int32.le_iff_toInt_le.1 (canPay_eq_true_iff.1 (pay?_eq_some_iff.1 h).1).2.2
  have given := (changes_of_pay? h).points
  rw [Int32.le_iff_toInt_le, Int32.toInt_zero]
  omega

/-- The check passes over a free price, unless it comes first and the store is in debt of points. -/
theorem payAll?_insertIdx_free (reached : i = 0 → 0 ≤ s.points) :
    payAll? (prices.insertIdx i free) s = payAll? prices s := by
  induction i generalizing s prices with
  | zero => rw [List.insertIdx_zero, payAll?, pay?_free, if_pos (reached rfl), Checked.ok_bind]
  | succ i ih =>
    cases prices with
    | nil => rfl
    | cons p prices =>
      rw [List.insertIdx_succ_cons, payAll?, payAll?]
      cases hp : p.pay? s with
      | error fault => rfl
      | ok paid =>
        cases paid with
        | none => rfl
        | some t => exact ih fun _ => points_nonneg_of_pay? hp

/-- The payment passes over a free price wherever it is. -/
theorem payAll_insertIdx_free (prices : List Price) (i : Nat) (s : Store) :
    payAll (prices.insertIdx i free) s = payAll prices s := by
  unfold payAll
  induction i generalizing s prices with
  | zero => rw [List.insertIdx_zero, List.foldlM_cons, pay_free, Checked.ok_bind]
  | succ i ih =>
    cases prices with
    | nil => rfl
    | cons p prices =>
      rw [List.insertIdx_succ_cons, List.foldlM_cons, List.foldlM_cons]
      exact congrArg _ (funext fun t => ih prices t)

end Price

/-! ## The check -/

namespace Card

theorem objection?_withFreePrice (reached : i = 0 → 0 ≤ f.store.points) :
    (card.withFreePrice i).objection? f = card.objection? f := by
  have scratch : Price.payAll? (card.withFreePrice i).prices f.store =
      Price.payAll? card.prices f.store := Price.payAll?_insertIdx_free reached
  rw [objection?, scratch]
  rfl

/-- In debt of victory points a card is objected to if its first price is free. -/
theorem objection?_withFreePrice_zero (debt : ¬0 ≤ f.store.points) :
    (card.withFreePrice 0).objection? f ≠ .ok none := by
  intro h
  obtain ⟨scratch, hscratch, -⟩ := of_objection? h
  have refused : Price.payAll? (card.withFreePrice 0).prices f.store = .ok none := by
    change (Price.free.pay? f.store >>= _) = _
    rw [Price.pay?_free, if_neg debt]
    rfl
  cases refused.symm.trans hscratch

theorem check_withFreePrice (reached : i = 0 → 0 ≤ f.store.points) :
    (card.withFreePrice i).check f = card.check f := by
  rw [check, objection?_withFreePrice reached]
  rfl

theorem check_withFreePrice_eq_ok_iff :
    (card.withFreePrice i).check f = .ok (.ok ()) ↔
      card.check f = .ok (.ok ()) ∧ (i = 0 → 0 ≤ f.store.points) := by
  constructor
  · intro h
    have reached : i = 0 → 0 ≤ f.store.points := by
      rintro rfl
      by_contra debt
      exact objection?_withFreePrice_zero debt (check_eq_ok_unit_iff.1 h)
    exact ⟨check_withFreePrice reached ▸ h, reached⟩
  · intro h
    exact (check_withFreePrice h.2).trans h.1

theorem payFor_withFreePrice (card : Card) (i : Nat) (s : Store) :
    (card.withFreePrice i).payFor s = card.payFor s := by
  change (Price.payAll (card.prices.insertIdx i .free) s >>= _) = _
  rw [Price.payAll_insertIdx_free]
  rfl

end Card

/-! ## The play -/

namespace Copy

/-- What an effect of a copy does has nothing to do with the prices of the card. -/
theorem applyEffect_repriced (prices : List Price) (c : Copy) (i : Nat) (policy : PaymentPolicy)
    (s : Store) :
    (c.repriced prices).applyEffect i policy s =
      (fun r => r.map (Option.map fun x => (x.1.repriced prices, x.2))) <$>
        c.applyEffect i policy s := by
  have heffects : (c.repriced prices).card.effects = c.card.effects := rfl
  have huses : (c.repriced prices).uses = c.uses := rfl
  rw [applyEffect, applyEffect, heffects, huses]
  cases c.card.effects[i]? with
  | none => rfl
  | some e =>
    cases c.uses[i]? with
    | none => rfl
    | some u =>
      have happly : e.apply (c.repriced prices).card policy s = e.apply c.card policy s := rfl
      simp only [happly]
      cases u.record? e.limit with
      | none => rfl
      | some v => rcases e.apply c.card policy s with fault | cause | s' <;> rfl

theorem applyAll_repriced (prices : List Price) (is : List Nat) (c : Copy) (s : Store) :
    applyAll policy is (c.repriced prices) s =
      (fun x => (x.1.repriced prices, x.2)) <$> applyAll policy is c s := by
  induction is generalizing c s with
  | nil => rfl
  | cons i is ih =>
    rw [applyAll, applyAll, applyEffect_repriced]
    rcases c.applyEffect i policy s with fault | cause | _ | ⟨c₁, s₁⟩
    · rfl
    · rfl
    · exact ih c s
    · have hrest := ih c₁ s₁
      simp only [Checked.map_ok, Checked.ok_bind, Except.map, Option.map_some, hrest]
      cases applyAll policy is c₁ s₁ <;> rfl

theorem trigger_repriced (prices : List Price) (c : Copy) (event : Event) (s : Store) :
    (c.repriced prices).trigger event policy s =
      (fun x => (x.1.repriced prices, x.2)) <$> c.trigger event policy s :=
  applyAll_repriced prices (c.answers event) c s

end Copy

theorem Farm.ids_add_repriced (f : Farm) (c : Copy) (prices : List Price) :
    (f.add (c.repriced prices)).ids = (f.add c).ids := by
  have kind : (c.repriced prices).card.isOccupation = c.card.isOccupation := rfl
  unfold add ids copies
  rw [kind]
  split
  · simp [addOccupation, Copy.repriced]
  · simp [addImprovement, Copy.repriced]

theorem Registry.PlaysAlike.eq_of_refused {cause : Refusal}
    {result : Checked (Except Refusal (Registry × Seating Farm × Played))}
    (h : PlaysAlike farms seat id prices result (.ok (.error cause))) :
    result = .ok (.error cause) := by
  cases h
  rfl

/-- A play that pays a free price more ends like the play without it. -/
theorem Registry.play_withFreePrice
    (reached : ∀ f, farms.get? seat = some f → i = 0 → 0 ≤ f.store.points) (r : Registry)
    (card : Card) (id : CopyId) :
    PlaysAlike farms seat id (card.withFreePrice i).prices (r.play farms seat card id)
      (r.play farms seat (card.withFreePrice i) id) := by
  rw [play, play]
  cases hf : farms.get? seat with
  | none => exact .refused
  | some f =>
    by_cases owned : f.owns id
    · simp only [if_pos owned]
      exact .refused
    · simp only [if_neg owned, Card.check_withFreePrice (reached f hf)]
      rcases card.check f with fault | cause | ⟨⟩
      · exact .fault
      · exact .refused
      · rw [Farm.play, Farm.play, Card.payFor_withFreePrice]
        rcases card.payFor f.store with fault | paid
        · exact .fault
        · have fires :
              (Copy.new id (card.withFreePrice i)).trigger (.new .immediate seat) r.policy paid =
                _ <$> (Copy.new id card).trigger (.new .immediate seat) r.policy paid :=
            Copy.trigger_repriced (card.withFreePrice i).prices (Copy.new id card) _ paid
          simp only [Checked.ok_bind, fires]
          rcases htrigger : (Copy.new id card).trigger (.new .immediate seat) r.policy paid with
            fault | ⟨c, fired, o⟩
          · exact .fault
          · have installs : (card.withFreePrice i).install fired = card.install fired := rfl
            simp only [Checked.map_ok, Checked.ok_bind, installs]
            rcases card.install fired with fault | installed
            · exact .fault
            · have same := register_congr hf (Farm.ids_add_repriced { f with store := installed } c
                (card.withFreePrice i).prices) r id
              simp only [Checked.ok_bind, pure_bind]
              rw [same]
              exact .played (Copy.applyAll_eq_ok_iff.1 htrigger).id_card.1

/-- A free price is free to whoever is not in debt of victory points, and to a debtor wherever it is
not the first price. There neither the check, with what it objects to, nor the play can tell the
card with it from the card without it. The check accepts a card with a free price just if it accepts
the card without it and no debtor has to pay it first. -/
theorem free_price_free_without_debt (card : Card) (i : Nat) :
    (∀ f : Farm, (i = 0 → 0 ≤ f.store.points) →
      (card.withFreePrice i).check f = card.check f) ∧
    (∀ f : Farm, (card.withFreePrice i).check f = .ok (.ok ()) ↔
      card.check f = .ok (.ok ()) ∧ (i = 0 → 0 ≤ f.store.points)) ∧
    ∀ (r : Registry) (farms : Seating Farm) (seat : Seat) (id : CopyId),
      (∀ f, farms.get? seat = some f → i = 0 → 0 ≤ f.store.points) →
      Registry.PlaysAlike farms seat id (card.withFreePrice i).prices
        (r.play farms seat card id) (r.play farms seat (card.withFreePrice i) id) := by
  refine ⟨?_, ?_, ?_⟩
  · intro f reached
    exact card.check_withFreePrice reached
  · intro f
    exact card.check_withFreePrice_eq_ok_iff
  · intro r farms seat id reached
    exact r.play_withFreePrice reached card id

/-- A farm in debt of a victory point. -/
def debtor : Farm := .withStore ⟨0⟩ { Store.empty with points := -1 }

/-- A table for the debtor alone. -/
def debtorsTable : Seating Farm := ⟨[debtor], by decide, by decide⟩

/-- A stablehand who brings two victory points along, as a price below zero. -/
def repentant : Card := Deck.stablehand.withPrice (Price.free.withPoints (-2))

/-- Where the debt is settled first, a free price after that is free, and the play leaves a victory
point. -/
theorem free_price_free_without_debt_repentant :
    (repentant.withFreePrice 1).check debtor = repentant.check debtor ∧
      (repentant.withFreePrice 1).check debtor = .ok (.ok ()) ∧
      (repentant.withFreePrice 0).check debtor ≠ .ok (.ok ()) ∧
      (∃ r farms p, (Registry.new .strict).play debtorsTable ⟨0⟩ repentant ⟨1⟩ =
        .ok (.ok (r, farms, p)) ∧ (farms.get? ⟨0⟩).map (fun f => f.store.points) = some 1) ∧
      Registry.PlaysAlike debtorsTable ⟨0⟩ ⟨1⟩ (repentant.withFreePrice 1).prices
        ((Registry.new .strict).play debtorsTable ⟨0⟩ repentant ⟨1⟩)
        ((Registry.new .strict).play debtorsTable ⟨0⟩ (repentant.withFreePrice 1) ⟨1⟩) := by
  have later : (1 : Nat) = 0 → 0 ≤ debtor.store.points := nofun
  obtain ⟨check, accepted, plays⟩ := free_price_free_without_debt repentant 1
  have barred := (free_price_free_without_debt repentant 0).2.1 debtor
  refine ⟨check debtor later, (accepted debtor).2 ⟨rfl, later⟩, ?_, ⟨_, _, _, rfl, rfl⟩, ?_⟩
  · intro h
    exact absurd ((barred.1 h).2 rfl) (by decide)
  · exact plays _ _ _ _ fun f hf => nofun

/-- A debtor is refused a card with a free price, which otherwise may be played. -/
theorem free_price_barred_by_debt :
    (¬∀ (card : Card) (i : Nat) (f : Farm),
      (card.withFreePrice i).check f = .ok (.ok ()) ↔ card.check f = .ok (.ok ())) ∧
    ¬∀ (card : Card) (i : Nat) (r : Registry) (farms : Seating Farm) (seat : Seat) (id : CopyId),
      Registry.PlaysAlike farms seat id (card.withFreePrice i).prices
        (r.play farms seat card id) (r.play farms seat (card.withFreePrice i) id) := by
  constructor
  · intro free
    have accepted : (Deck.stablehand.withFreePrice 0).check debtor = .ok (.ok ()) :=
      (free Deck.stablehand 0 debtor).2 rfl
    cases accepted
  · intro alike
    have ends := alike Deck.stablehand 0 (Registry.new .strict) debtorsTable ⟨0⟩ ⟨1⟩
    have refused : (Registry.new .strict).play debtorsTable ⟨0⟩ (Deck.stablehand.withFreePrice 0)
        ⟨1⟩ = .ok (.error (.cannotPlay "Stablehand" .priceTooHigh)) := rfl
    rw [refused] at ends
    have played := ends.eq_of_refused
    cases played

end Homestead
