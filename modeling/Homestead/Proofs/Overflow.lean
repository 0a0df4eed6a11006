import Homestead.Game
import Homestead.Proofs.Accounts
import Homestead.Proofs.Playing

/-!
# Faults of a play

`OnlyOverflows` says of a computation that only an overflow can end it. It passes through chains,
loops and searches, and so holds of everything that changes a store: the sole faults in it are those
of the arithmetic. So a play ends the run only where its arithmetic leaves its width
(`Game.play_onlyOverflows`), and where it does not, it is made or refused.
-/

namespace Homestead

namespace Checked

/-- Only an overflow can end the computation. -/
structure OnlyOverflows {α : Type} (x : Checked α) : Prop where
  of_error : ∀ fault, x = .error fault → ∃ operation, fault = .overflow operation

namespace OnlyOverflows

variable {α β σ : Type} {x : Checked α}

theorem ok (a : α) : OnlyOverflows (.ok a : Checked α) := ⟨nofun⟩

theorem overflow (operation : Arithmetic) :
    OnlyOverflows (.error (.overflow operation) : Checked α) :=
  ⟨fun _ h => ⟨operation, (Except.error.inj h).symm⟩⟩

theorem bind {k : α → Checked β} (hx : OnlyOverflows x) (hk : ∀ a, OnlyOverflows (k a)) :
    OnlyOverflows (x >>= k) := by
  cases x with
  | error fault => exact ⟨fun _ h => hx.of_error _ (congrArg Except.error (Except.error.inj h))⟩
  | ok a => exact hk a

theorem map {k : α → β} (hx : OnlyOverflows x) : OnlyOverflows (k <$> x) := by
  rw [map_eq_pure_bind]
  exact bind hx fun _ => ok _

theorem foldlM {step : σ → α → Checked σ} (hstep : ∀ s a, OnlyOverflows (step s a)) (l : List α)
    (s : σ) : OnlyOverflows (l.foldlM step s) := by
  induction l generalizing s with
  | nil => exact ok s
  | cons a l ih => exact bind (hstep s a) ih

theorem findM? {p : α → Checked Bool} (hp : ∀ a, OnlyOverflows (p a)) (l : List α) :
    OnlyOverflows (l.findM? p) := by
  induction l with
  | nil => exact ok none
  | cons a l ih =>
    refine bind (hp a) fun found => ?_
    cases found with
    | true => exact ok (some a)
    | false => exact ih

theorem findSomeM? {p : α → Checked (Option β)} (hp : ∀ a, OnlyOverflows (p a)) (l : List α) :
    OnlyOverflows (l.findSomeM? p) := by
  induction l with
  | nil => exact ok none
  | cons a l ih =>
    refine bind (hp a) fun found => ?_
    cases found with
    | none => exact ih
    | some b => exact ok (some b)

theorem allM {p : α → Checked Bool} (hp : ∀ a, OnlyOverflows (p a)) (l : List α) :
    OnlyOverflows (l.allM p) := by
  induction l with
  | nil => exact ok true
  | cons a l ih =>
    refine bind (hp a) fun accepted => ?_
    cases accepted with
    | true => exact ih
    | false => exact ok false

/-- Without an overflow such a computation has a result. -/
theorem exists_ok (h : OnlyOverflows x) (fits : ∀ operation, x ≠ .error (.overflow operation)) :
    ∃ a, x = .ok a := by
  cases hx : x with
  | ok a => exact ⟨a, rfl⟩
  | error fault =>
    obtain ⟨operation, rfl⟩ := h.of_error fault hx
    exact absurd hx (fits operation)

end OnlyOverflows

end Checked

open Checked

/-! ## Arithmetic -/

theorem Amount.exact_onlyOverflows (operation : Arithmetic) (n : Int) :
    OnlyOverflows (exact operation n) := by
  unfold exact
  split
  · exact .ok _
  · exact .overflow operation

theorem Count.exact_onlyOverflows (operation : Arithmetic) (n : Nat) :
    OnlyOverflows (exact operation n) := by
  unfold exact
  split
  · exact .ok _
  · exact .overflow operation

theorem Bundle.amountOf_onlyOverflows (b : Bundle) (r : Resource) :
    OnlyOverflows (b.amountOf r) :=
  .foldlM (fun _ _ => Amount.exact_onlyOverflows ..) ..

/-! ## Stores -/

namespace Store

variable (s : Store) (r : Resource) (b : Bundle)

theorem add_onlyOverflows (n : Amount) : OnlyOverflows (s.add r n) :=
  .bind (Amount.exact_onlyOverflows ..) fun _ => .ok _

theorem withdraw_onlyOverflows (n : Amount) : OnlyOverflows (s.withdraw r n) :=
  .bind (Amount.exact_onlyOverflows ..) fun _ => .ok _

theorem addAll_onlyOverflows : OnlyOverflows (s.addAll b) :=
  .foldlM (fun s e => s.add_onlyOverflows e.1 e.2) ..

theorem withdrawAll_onlyOverflows : OnlyOverflows (s.withdrawAll b) :=
  .foldlM (fun s e => s.withdraw_onlyOverflows e.1 e.2) ..

theorem fallsShort_onlyOverflows : OnlyOverflows (s.fallsShort b r) :=
  .bind (b.amountOf_onlyOverflows r) fun _ => .ok _

theorem covers_onlyOverflows : OnlyOverflows (s.covers b) :=
  .allM (fun _ => .bind (s.fallsShort_onlyOverflows _ b) fun _ => .ok _) _

theorem shortOf?_onlyOverflows : OnlyOverflows (s.shortOf? b) :=
  .bind (.findM? (fun _ => s.fallsShort_onlyOverflows _ b) _) fun _ => .ok _

theorem addPoints_onlyOverflows (n : Amount) : OnlyOverflows (s.addPoints n) :=
  .bind (Amount.exact_onlyOverflows ..) fun _ => .ok _

theorem addBonus_onlyOverflows (bonus : Bonus) (n : Amount) : OnlyOverflows (s.addBonus bonus n) :=
  .bind (Amount.exact_onlyOverflows ..) fun _ => .ok _

theorem addCapacity_onlyOverflows (n : Count) : OnlyOverflows (s.addCapacity r n) :=
  .bind (Count.exact_onlyOverflows ..) fun _ => .ok _

/-- Adding points where there are any to add. -/
theorem addSome_onlyOverflows (n : Amount) :
    OnlyOverflows (if n = 0 then pure s else s.addPoints n) := by
  split
  · exact .ok s
  · exact s.addPoints_onlyOverflows n

end Store

/-! ## Cards and effects -/

theorem Price.pay_onlyOverflows (p : Price) (s : Store) : OnlyOverflows (p.pay s) :=
  .bind (s.withdrawAll_onlyOverflows p.goods) fun _ =>
    .bind (Amount.exact_onlyOverflows ..) fun _ => Store.addPoints_onlyOverflows ..

theorem Price.pay?_onlyOverflows (p : Price) (s : Store) : OnlyOverflows (p.pay? s) := by
  have hcan : OnlyOverflows (p.canPay s) := by
    refine .bind (s.covers_onlyOverflows p.goods) fun covered => ?_
    cases covered <;> exact .ok _
  refine .bind hcan fun payable => ?_
  cases payable with
  | true => exact .map (p.pay_onlyOverflows s)
  | false => exact .ok none

theorem Price.payAll?_onlyOverflows (prices : List Price) (s : Store) :
    OnlyOverflows (payAll? prices s) := by
  induction prices generalizing s with
  | nil => exact .ok _
  | cons p prices ih =>
    refine .bind (p.pay?_onlyOverflows s) fun paid => ?_
    cases paid with
    | none => exact .ok none
    | some s => exact ih s

theorem Card.payFor_onlyOverflows (card : Card) (s : Store) : OnlyOverflows (card.payFor s) :=
  .bind (.foldlM (fun s p => p.pay_onlyOverflows s) ..) fun s => s.withdrawAll_onlyOverflows _

theorem Card.install_onlyOverflows (card : Card) (s : Store) : OnlyOverflows (card.install s) := by
  rw [card.install_eq]
  refine .bind (s.addSome_onlyOverflows _) fun s => .bind (.ok _) fun s =>
    .bind (.foldlM (fun s e => .ok _) ..) fun s =>
      .foldlM (fun s e => s.addCapacity_onlyOverflows e.1 e.2) ..

theorem Boon.grant_onlyOverflows (boon : Boon) (s : Store) : OnlyOverflows (boon.grant s) := by
  cases boon with
  | gain r n => exact s.add_onlyOverflows r n
  | bonus b n => exact s.addBonus_onlyOverflows b n

theorem Effect.settle_onlyOverflows (e : Effect) (boon : Option Boon) (s : Store) :
    OnlyOverflows (e.settle boon s) := by
  rw [settle_eq]
  refine .bind (s.withdrawAll_onlyOverflows _) fun s => .bind (s.addAll_onlyOverflows _) fun s =>
    .bind (s.addSome_onlyOverflows _) fun s => ?_
  cases boon with
  | none => exact .ok s
  | some boon => exact boon.grant_onlyOverflows s

theorem Effect.apply_onlyOverflows (e : Effect) (card : Card) (policy : PaymentPolicy) (s : Store) :
    OnlyOverflows (e.apply card policy s) := by
  have hunpaid : OnlyOverflows (e.unpaid? policy s) := by
    unfold unpaid?
    split
    · exact .ok none
    · exact s.shortOf?_onlyOverflows e.costs
  unfold apply
  cases e.boon card.id with
  | error obstacle => exact .ok _
  | ok boon =>
    refine .bind hunpaid fun short => ?_
    cases short with
    | some r => exact .ok _
    | none => exact .map (e.settle_onlyOverflows boon s)

namespace Copy

variable (policy : PaymentPolicy)

theorem applyEffect_onlyOverflows (c : Copy) (i : Nat) (s : Store) :
    OnlyOverflows (c.applyEffect i policy s) := by
  unfold applyEffect
  split
  · split
    · exact .ok _
    · refine .bind (Effect.apply_onlyOverflows ..) fun result => ?_
      cases result <;> exact .ok _
  · exact .ok _

theorem applyAll_onlyOverflows (is : List Nat) (c : Copy) (s : Store) :
    OnlyOverflows (applyAll policy is c s) := by
  induction is generalizing c s with
  | nil => exact .ok _
  | cons i is ih =>
    refine .bind (c.applyEffect_onlyOverflows policy i s) fun result => ?_
    rcases result with cause | _ | ⟨c, s⟩
    · exact .ok _
    · exact ih c s
    · exact .bind (ih c s) fun _ => .ok _

end Copy

/-! ## Plays -/

theorem Requirement.unmet?_onlyOverflows (q : Requirement) (f : Farm) :
    OnlyOverflows (q.unmet? f) := by
  refine .bind (f.store.shortOf?_onlyOverflows q.resources) fun short => ?_
  cases short with
  | none => exact .ok _
  | some r => exact .bind (q.resources.amountOf_onlyOverflows r) fun _ => .ok _

theorem Card.objection?_onlyOverflows (card : Card) (f : Farm) :
    OnlyOverflows (card.objection? f) := by
  unfold objection?
  cases card.duplicate? f with
  | some objection => exact .ok _
  | none =>
    refine .bind (.findSomeM? (fun q => q.unmet?_onlyOverflows f) _) fun unmet => ?_
    cases unmet with
    | some shortfall => exact .ok _
    | none =>
      refine .bind (Price.payAll?_onlyOverflows ..) fun paid => ?_
      cases paid with
      | none => exact .ok _
      | some scratch =>
        refine .bind (scratch.covers_onlyOverflows _) fun covered => ?_
        cases covered <;> exact .ok _

theorem Card.check_onlyOverflows (card : Card) (f : Farm) : OnlyOverflows (card.check f) := by
  refine .bind (card.objection?_onlyOverflows f) fun objection => ?_
  cases objection <;> exact .ok _

theorem Farm.play_onlyOverflows (f : Farm) (seat : Seat) (card : Card) (id : CopyId)
    (policy : PaymentPolicy) : OnlyOverflows (f.play seat card id policy) :=
  .bind (card.payFor_onlyOverflows f.store) fun _ =>
    .bind (Copy.applyAll_onlyOverflows ..) fun _ =>
      .bind (card.install_onlyOverflows _) fun _ => .ok _

theorem Registry.play_onlyOverflows (r : Registry) (farms : Seating Farm) (seat : Seat)
    (card : Card) (id : CopyId) : OnlyOverflows (r.play farms seat card id) := by
  unfold play
  cases farms.get? seat with
  | none => exact .ok _
  | some f =>
    by_cases owned : f.owns id
    · simp only [if_pos owned]
      exact .ok _
    · simp only [if_neg owned]
      refine .bind (card.check_onlyOverflows f) fun checked => ?_
      cases checked with
      | error cause => exact .ok _
      | ok allowed => exact .bind (f.play_onlyOverflows ..) fun _ => .ok _

/-- Only an overflow can end the run in a play. -/
theorem Game.play_onlyOverflows (g : Game) (seat : Seat) (card : Card) :
    OnlyOverflows (g.play seat card) := by
  refine .bind (g.registry.play_onlyOverflows ..) fun result => ?_
  cases result with
  | error cause => exact .ok _
  | ok played => exact .bind (Count.exact_onlyOverflows ..) fun _ => .ok _

end Homestead
