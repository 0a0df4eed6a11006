import Homestead.Deck
import Homestead.Proofs.InPlace
import Homestead.Proofs.Sufficiency

/-!
# Resolving an effect

An effect of a card is resolved entirely or not at all. What blocks it is known before anything is
changed: a label for which the card has no boon, and under strict payment a cost that the store does
not reach (`Effect.Blocked`). An effect that nothing blocks moves every balance by exact totals, and
the points and the bonus that its boon names (`Effect.Resolves`).

Under strict payment a proper bundle of costs can be checked and paid from every store, so a fault
can only come of what the effect gives (`Effect.exists_paid`).
-/

namespace Homestead

/-- What a boon makes of the bonuses: the one that it names grows, and the others stay. -/
def Boon.Raises (boon : Option Boon) (s t : Store) : Prop :=
  match boon with
  | some (.bonus key n) => ∃ m : Amount, m.toInt = (s.bonus key).toInt + n.toInt ∧
      t.bonuses = s.bonuses.set key (some m)
  | _ => t.bonuses = s.bonuses

namespace Effect

/-- What resolving an effect with a boon does to a store. -/
structure Resolves (e : Effect) (boon : Option Boon) (s t : Store) : Prop
    extends e.Settles boon s t where
  points : t.points.toInt = s.points.toInt + e.points.toInt
  bonuses : Boon.Raises boon s t

/-- The effect has a label for which the card has no boon, or payment is strict and the store does
not reach the total of one of the costs. -/
def Blocked (e : Effect) (card : CardId) (policy : PaymentPolicy) (s : Store) : Prop :=
  (∃ special, e.special = some special ∧ Boon.of? card special = none) ∨
    policy = .strict ∧
      ∃ entry ∈ e.costs.entries, (s.balance entry.1).toInt < e.costs.total entry.1

end Effect

variable {e : Effect} {card : Card} {id : CardId} {policy : PaymentPolicy} {s t : Store}
  {b : Bundle} {r : Resource} {boon : Option Boon} {cause : Refusal}

namespace Store

theorem fallsShort_eq_true (h : s.fallsShort b r = .ok true) :
    (s.balance r).toInt < b.total r := by
  obtain ⟨n, hn, h⟩ := Checked.bind_eq_ok.1 h
  have short : s.balance r < n := by simpa using Checked.pure_eq_ok.1 h
  rw [Int32.lt_iff_toInt_lt, Bundle.amountOf_eq_ok hn] at short
  exact short

theorem short_of_shortOf? (h : s.shortOf? b = .ok (some r)) :
    ∃ entry ∈ b.entries, (s.balance entry.1).toInt < b.total entry.1 := by
  obtain ⟨found, hfind, h⟩ := Checked.bind_eq_ok.1 h
  obtain ⟨entry, rfl, -⟩ := Option.map_eq_some_iff.1 (Checked.pure_eq_ok.1 h)
  obtain ⟨mem, short⟩ := Checked.findM?_eq_some hfind
  exact ⟨entry, mem, fallsShort_eq_true short⟩

end Store

namespace Boon

/-- Only the bonuses that were there before matter. -/
theorem Raises.of_same {u : Store} (h : Raises boon t u) (same : t.bonuses = s.bonuses) :
    Raises boon s u := by
  unfold Raises Store.bonus at *
  rwa [same] at h

theorem raises_of_grant {boon : Boon} (h : boon.grant s = .ok t) : Raises (some boon) s t := by
  cases boon with
  | gain q n =>
    have kept : t.bonuses = s.bonuses := by rw [(Store.Moves.of_add h).rest]
    exact kept
  | bonus key n =>
    obtain ⟨m, hm, h⟩ := Checked.bind_eq_ok.1 h
    cases Checked.pure_eq_ok.1 h
    exact ⟨m, Amount.plus_eq_ok_iff.1 hm, rfl⟩

end Boon

namespace Effect

theorem boon_eq_error_iff :
    (∃ obstacle, e.boon id = .error obstacle) ↔
      ∃ special, e.special = some special ∧ Boon.of? id special = none := by
  unfold Effect.boon
  cases e.special with
  | none => simp
  | some special => cases h : Boon.of? id special <;> simp [h]

theorem raises_of_settle (h : e.settle boon s = .ok t) : Boon.Raises boon s t := by
  obtain ⟨gained, points, moves, -, h⟩ := exists_counted h
  have kept : gained.bonuses = s.bonuses := by rw [moves.rest]
  cases boon with
  | none =>
    cases h
    exact kept
  | some boon => exact (Boon.raises_of_grant h).of_same kept

/-- A refused effect was blocked. -/
theorem blocked_of_apply (h : e.apply card policy s = .ok (.error cause)) :
    e.Blocked card.id policy s := by
  unfold apply at h
  cases hboon : e.boon card.id with
  | error obstacle => exact .inl (boon_eq_error_iff.1 ⟨obstacle, hboon⟩)
  | ok boon =>
    rw [hboon] at h
    obtain ⟨short, hshort, h⟩ := Checked.bind_eq_ok.1 h
    cases short with
    | none =>
      obtain ⟨t, -, h⟩ := Checked.map_eq_ok.1 h
      cases h
    | some r =>
      cases policy with
      | allowNegative => cases Checked.pure_eq_ok.1 hshort
      | strict => exact .inr ⟨rfl, Store.short_of_shortOf? hshort⟩

/-- An effect that is applied was not blocked and is resolved. -/
theorem resolves_of_apply (h : e.apply card policy s = .ok (.ok t)) :
    ¬e.Blocked card.id policy s ∧ ∃ boon, e.boon card.id = .ok boon ∧ e.Resolves boon s t := by
  obtain ⟨boon, hboon, paid, hsettle⟩ := apply_eq_ok_iff.1 h
  constructor
  · rintro (missing | ⟨rfl, entry, mem, short⟩)
    · obtain ⟨obstacle, herror⟩ := boon_eq_error_iff.2 missing
      cases hboon.symm.trans herror
    · have reached := Store.covers_of_shortOf? paid entry mem
      omega
  · exact ⟨boon, hboon, of_settle hsettle, points_of_settle hsettle, raises_of_settle hsettle⟩

/-- Under strict payment proper costs can be checked, and paid if they are covered. -/
theorem exists_paid (proper : e.costs.Proper) (s : Store) :
    ∃ short, e.unpaid? .strict s = .ok short ∧
      (short = none → ∃ paid, s.withdrawAll e.costs = .ok paid ∧
        ∀ r, e.costs.Asks r → 0 ≤ paid.balance r) := by
  have hshort := Store.shortOf?_eq proper s
  refine ⟨_, hshort, fun none => ?_⟩
  rw [none] at hshort
  exact (Store.covers_of_shortOf? hshort).exists_withdrawAll proper.nonneg

/-- A fault under strict payment comes of what an effect with proper costs gives, once the costs are
paid. -/
theorem paid_of_fault {fault : Fault} (proper : e.costs.Proper)
    (h : e.apply card .strict s = .error fault) :
    ∃ boon paid, e.boon card.id = .ok boon ∧ s.withdrawAll e.costs = .ok paid ∧
      ({ e with costs := .empty }).settle boon paid = .error fault := by
  unfold apply at h
  cases hboon : e.boon card.id with
  | error obstacle =>
    rw [hboon] at h
    cases h
  | ok boon =>
    obtain ⟨short, hshort, payable⟩ := exists_paid proper s
    rw [hboon] at h
    simp only [hshort, Checked.ok_bind] at h
    cases short with
    | some r => cases h
    | none =>
      obtain ⟨paid, hpaid, -⟩ := payable rfl
      refine ⟨boon, paid, rfl, hpaid, ?_⟩
      have hsettle : e.settle boon s = .error fault := Checked.map_eq_error.1 h
      rw [settle_eq, hpaid] at hsettle
      rw [settle_eq]
      exact hsettle

end Effect

/-- Resolving an effect is all or nothing, with exact accounts. Where it does not fault it is
refused just if it is blocked; then the program that changes the store in place leaves it as it was.
Otherwise the program leaves what the definition returns, and there each balance is less by the
total of its costs and more by that of its gains and by what the boon adds, the points have changed
by what the effect says, the bonus that the boon names has grown by its amount, and all else is as
before. If the costs are proper, strict payment is checked and made without a fault from any store,
and leaves no debt in what was charged; a fault then comes of what the effect gives after that. -/
theorem effect_resolution (e : Effect) (card : Card) (s : Store) :
    (∀ {policy result}, e.apply card policy s = .ok result →
      ((∃ cause, result = .error cause) ↔ e.Blocked card.id policy s) ∧
      (∀ {cause}, result = .error cause →
        (e.perform card policy).run s = .ok (.error cause, s)) ∧
      ∀ {t}, result = .ok t → (e.perform card policy).run s = .ok (.ok (), t) ∧
        ∃ boon, e.boon card.id = .ok boon ∧ e.Resolves boon s t) ∧
    (e.costs.Proper →
      (∃ short, e.unpaid? .strict s = .ok short ∧
        (short = none → ∃ paid, s.withdrawAll e.costs = .ok paid ∧
          ∀ r, e.costs.Asks r → 0 ≤ paid.balance r)) ∧
      ∀ {fault}, e.apply card .strict s = .error fault →
        ∃ boon paid, e.boon card.id = .ok boon ∧ s.withdrawAll e.costs = .ok paid ∧
          ({ e with costs := .empty }).settle boon paid = .error fault) := by
  refine ⟨fun {policy result} h => ?_, fun proper =>
    ⟨Effect.exists_paid proper s, fun hfault => Effect.paid_of_fault proper hfault⟩⟩
  have hrun : (e.perform card policy).run s =
      .ok (InPlace.leaving s (fun t => ((), t)) result) := by
    rw [Effect.run_perform, h]
    rfl
  cases result with
  | error cause =>
    refine ⟨iff_of_true ⟨cause, rfl⟩ (Effect.blocked_of_apply h), ?_, nofun⟩
    rintro _ ⟨⟩
    exact hrun
  | ok t =>
    obtain ⟨unblocked, resolved⟩ := Effect.resolves_of_apply h
    refine ⟨iff_of_false nofun unblocked, nofun, ?_⟩
    rintro _ ⟨⟩
    exact ⟨hrun, resolved⟩

/-- An effect that takes wood in two entries and gives back more of it for a food, with points and a
label. -/
def extension : Effect :=
  Effect.new ⟨7⟩ .onAction
    |>.costing .wood 2
    |>.costing .wood 1
    |>.gaining .wood 5
    |>.gaining .food (-1)
    |>.withPoints 2
    |>.withSpecial .roomDiscount

/-- A carpenter resolves the effect with three wood and is refused it with two; with the most wood
that an amount can be there is a fault once the costs are paid. -/
theorem effect_resolution_carpenter :
    (∃ t, extension.apply Deck.carpenter .strict (Store.empty.setBalance .wood 3) = .ok (.ok t) ∧
      (t.balance .wood).toInt = 3 + (5 - 3 + 0) ∧ (t.balance .food).toInt = 0 + (-1 - 0 + 0) ∧
      t.points.toInt = 0 + 2 ∧ t.bonus .roomDiscount = 1) ∧
    (∃ cause, (extension.perform Deck.carpenter .strict).run (Store.empty.setBalance .wood 2) =
      .ok (.error cause, Store.empty.setBalance .wood 2)) ∧
    ∃ paid, (Store.empty.setBalance .wood 2147483647).withdrawAll extension.costs = .ok paid ∧
      0 ≤ paid.balance .wood ∧
      ({ extension with costs := .empty }).settle (some (.bonus .roomDiscount 1)) paid =
        .error (.overflow .add) := by
  have proper : extension.costs.Proper := by
    refine ⟨by decide, fun r => ?_⟩
    cases r <;> decide
  refine ⟨?_, ?_, ?_⟩
  · have happly : extension.apply Deck.carpenter .strict (Store.empty.setBalance .wood 3) =
      .ok (.ok _) := rfl
    obtain ⟨boon, hboon, resolves⟩ := (((effect_resolution ..).1 happly).2.2 rfl).2
    cases hboon
    exact ⟨_, happly, resolves.balance .wood, resolves.balance .food, resolves.points, rfl⟩
  · have happly : extension.apply Deck.carpenter .strict (Store.empty.setBalance .wood 2) =
      .ok (.error _) := rfl
    exact ⟨_, ((effect_resolution ..).1 happly).2.1 rfl⟩
  · have happly : extension.apply Deck.carpenter .strict (Store.empty.setBalance .wood 2147483647) =
      .error (.overflow .add) := rfl
    obtain ⟨⟨short, hshort, payable⟩, faults⟩ :=
      (effect_resolution extension Deck.carpenter _).2 proper
    obtain ⟨boon, paid, hboon, hpaid, hfault⟩ := faults happly
    cases hboon
    cases hshort
    obtain ⟨paid', hpaid', black⟩ := payable rfl
    cases hpaid.symm.trans hpaid'
    exact ⟨paid, hpaid, black .wood ⟨_, List.mem_cons_self, rfl⟩, hfault⟩

end Homestead
