import Homestead.Deck
import Homestead.Proofs.Bills

/-!
# Richer farms

A farm with the same cards as another and at least as much of everything else (`Store.AtMost`,
`Farm.OwnsSame`) can play whatever the other can (`richer_farm_plays`), if no price asks for less
than nothing.

Two runs of the check are compared step by step. A requirement that is met stays met, and a price
that the poorer store pays is paid by the richer one too: it reaches the same sums, and what takes
away no negative amount from a balance that reaches it stays within the width of an amount, however
large the balance is. What the payment leaves is ordered as the stores were before, so the next
price finds what this one found (`Store.AtMost.exists_pay?`, `Store.AtMost.exists_payAll?`).
-/

namespace Homestead

/-- The second store has at least as much as the first of all that can be asked for. -/
structure Store.AtMost (s t : Store) : Prop where
  balance : ∀ r, s.balance r ≤ t.balance r
  points : s.points ≤ t.points
  workers : s.workers ≤ t.workers
  holding : ∀ what, s.holding what ≤ t.holding what

/-- The farms own the same cards, in whatever copies and order. -/
structure Farm.OwnsSame (f g : Farm) : Prop where
  occupations : ∀ card, card ∈ f.occupations.map Copy.card ↔ card ∈ g.occupations.map Copy.card
  improvements : ∀ card, card ∈ f.improvements.map Copy.card ↔ card ∈ g.improvements.map Copy.card

instance (s t : Store) : Decidable (s.AtMost t) :=
  decidable_of_iff
    ((∀ r ∈ (Enumerated.all : List Resource), s.balance r ≤ t.balance r) ∧ s.points ≤ t.points ∧
      s.workers ≤ t.workers ∧ s.family ≤ t.family ∧ s.rooms ≤ t.rooms ∧ s.fields ≤ t.fields ∧
      s.pastures ≤ t.pastures)
    ⟨fun ⟨balance, points, workers, family, rooms, fields, pastures⟩ =>
        ⟨fun r => balance r (Enumerated.mem_all r), points, workers, fun what => match what with
          | .familyMembers => family
          | .rooms => rooms
          | .fields => fields
          | .pastures => pastures⟩,
      fun h => ⟨fun r _ => h.balance r, h.points, h.workers, h.holding .familyMembers,
        h.holding .rooms, h.holding .fields, h.holding .pastures⟩⟩

variable {s s' t t' : Store} {b : Bundle} {r : Resource} {p : Price} {prices : List Price}
  {q : Requirement} {card : Card} {f g : Farm} {name tag : String} {what : Holding}

/-! ## Owned cards -/

theorem Copy.any_card_congr {cs ds : List Copy} (test : Card → Bool)
    (h : ∀ card, card ∈ cs.map Copy.card ↔ card ∈ ds.map Copy.card) :
    (cs.any fun c => test c.card) = ds.any fun c => test c.card := by
  have any (cs : List Copy) : (cs.any fun c => test c.card) = (cs.map Copy.card).any test := by
    rw [List.any_map]
    rfl
  rw [any, any, Bool.eq_iff_iff, List.any_eq_true, List.any_eq_true]
  simp only [h]

namespace Farm.OwnsSame

theorem hasOccupation (h : f.OwnsSame g) : f.hasOccupation name = g.hasOccupation name :=
  Copy.any_card_congr (·.name == name) h.occupations

theorem hasImprovement (h : f.OwnsSame g) : f.hasImprovement name = g.hasImprovement name :=
  Copy.any_card_congr (·.name == name) h.improvements

theorem hasCard (h : f.OwnsSame g) : f.hasCard name = g.hasCard name := by
  rw [Farm.hasCard, h.hasOccupation, h.hasImprovement]
  rfl

theorem hasTag (h : f.OwnsSame g) : f.hasTag tag = g.hasTag tag := by
  rw [Farm.hasTag, Farm.hasTag, copies, copies, List.any_append, List.any_append,
    Copy.any_card_congr (·.hasTag tag) h.occupations,
    Copy.any_card_congr (·.hasTag tag) h.improvements]

theorem duplicate? (h : f.OwnsSame g) : card.duplicate? f = card.duplicate? g := by
  rw [Card.duplicate?, Card.duplicate?, h.hasOccupation, h.hasImprovement]

end Farm.OwnsSame

/-! ## Requirements -/

namespace Requirement

theorem unmetHolding?_eq_none_iff :
    q.unmetHolding? s = none ↔ ∀ what, q.least what ≤ s.holding what := by
  rw [unmetHolding?, List.find?_eq_none]
  constructor
  · intro h what
    have mem : what ∈ [Holding.familyMembers, .rooms, .fields, .pastures] := by
      cases what <;> decide
    simpa using h what mem
  · intro h what _
    simpa using h what

theorem unmetBesides?_eq_none_iff : q.unmetBesides? f = none ↔
    (∀ what, q.least what ≤ f.store.holding what) ∧ (∀ name ∈ q.cards, f.hasCard name) ∧
      ∀ tag ∈ q.tags, f.hasTag tag := by
  rw [unmetBesides?, ← unmetHolding?_eq_none_iff]
  simp

theorem unmet?_eq_none_iff : q.unmet? f = .ok none ↔
    f.store.shortOf? q.resources = .ok none ∧ q.unmetBesides? f = none := by
  rw [unmet?, Checked.bind_eq_ok]
  constructor
  · intro h
    obtain ⟨short, hshort, h⟩ := h
    cases short with
    | some r =>
      obtain ⟨n, -, h⟩ := Checked.bind_eq_ok.1 h
      cases Checked.pure_eq_ok.1 h
    | none => exact ⟨hshort, Checked.pure_eq_ok.1 h⟩
  · intro h
    exact ⟨none, h.1, Checked.pure_eq_ok.2 h.2⟩

end Requirement

/-! ## Checks and payments -/

theorem Price.holding_of_pay (h : p.pay s = .ok t) (what : Holding) :
    t.holding what = s.holding what := by
  obtain ⟨paid, points, hpaid, -, rfl⟩ := of_pay h
  have estate := (Store.Moves.of_withdrawAll hpaid).estate
  cases what with
  | familyMembers => exact estate.family
  | rooms => exact estate.rooms
  | fields => exact estate.fields
  | pastures => exact estate.pastures

namespace Store.AtMost

theorem fallsShort (h : s.AtMost t) (enough : s.fallsShort b r = .ok false) :
    t.fallsShort b r = .ok false := by
  obtain ⟨n, hn, reached⟩ := fallsShort_eq_false_iff.1 enough
  exact fallsShort_eq_false_iff.2 ⟨n, hn, Int32.le_trans reached (h.balance r)⟩

theorem shortOf? (h : s.AtMost t) (enough : s.shortOf? b = .ok none) :
    t.shortOf? b = .ok none := by
  rw [shortOf?_eq_none_iff] at enough ⊢
  intro e he
  exact h.fallsShort (enough e he)

theorem covers (h : s.AtMost t) (covered : s.covers b = .ok true) : t.covers b = .ok true := by
  rw [covers_eq_true_iff] at covered ⊢
  intro e he
  exact h.fallsShort (covered e he)

theorem canPay (h : s.AtMost t) (can : p.canPay s = .ok true) : p.canPay t = .ok true := by
  obtain ⟨covered, enough, reached⟩ := Price.canPay_eq_true_iff.1 can
  apply Price.canPay_eq_true_iff.2
  exact ⟨h.covers covered, UInt32.le_trans enough h.workers, Int32.le_trans reached h.points⟩

theorem changes {δ : Resource → Int} {points : Int} {placed : Nat} (h : s.AtMost t)
    (hs : s.Changes δ points placed s') (ht : t.Changes δ points placed t')
    (holding : ∀ what, s'.holding what ≤ t'.holding what) : s'.AtMost t' := by
  refine ⟨fun r => ?_, ?_, ?_, holding⟩
  · have before := Int32.le_iff_toInt_le.1 (h.balance r)
    have first := hs.balance r
    have second := ht.balance r
    apply Int32.le_iff_toInt_le.2
    omega
  · have before := Int32.le_iff_toInt_le.1 h.points
    have first := hs.points
    have second := ht.points
    apply Int32.le_iff_toInt_le.2
    omega
  · have before := UInt32.le_iff_toNat_le.1 h.workers
    have first := hs.workers
    have second := ht.workers
    apply UInt32.le_iff_toNat_le.2
    omega

/-- What a store pays, a richer one pays too, and it stays the richer one. -/
theorem exists_pay? (h : s.AtMost t) (nonneg : p.Nonnegative) (paid : p.pay? s = .ok (some s')) :
    ∃ t', p.pay? t = .ok (some t') ∧ s'.AtMost t' := by
  obtain ⟨can, hs⟩ := Price.pay?_eq_some_iff.1 paid
  have can := h.canPay can
  have reached := (Price.canPay_eq_true_iff.1 can).2.2
  obtain ⟨t', ht⟩ := nonneg.exists_pay (Price.covers_of_canPay can) reached
  have paid' : p.pay? t = .ok (some t') := Price.pay?_eq_some_iff.2 ⟨can, ht⟩
  refine ⟨t', paid', ?_⟩
  apply h.changes (Price.changes_of_pay? paid) (Price.changes_of_pay? paid')
  intro what
  rw [Price.holding_of_pay hs, Price.holding_of_pay ht]
  exact h.holding what

/-- What a store pays one after the other, a richer one pays too. -/
theorem exists_payAll? (h : s.AtMost t) (nonneg : ∀ p ∈ prices, p.Nonnegative)
    (paid : Price.payAll? prices s = .ok (some s')) :
    ∃ t', Price.payAll? prices t = .ok (some t') ∧ s'.AtMost t' := by
  induction prices generalizing s t with
  | nil =>
    cases Checked.pure_eq_ok.1 paid
    exact ⟨t, rfl, h⟩
  | cons p prices ih =>
    obtain ⟨hp, hprices⟩ := List.forall_mem_cons.1 nonneg
    obtain ⟨first, hfirst, paid⟩ := Checked.bind_eq_ok.1 paid
    cases first with
    | none => cases Checked.pure_eq_ok.1 paid
    | some s₁ =>
      obtain ⟨t₁, hfirst', h₁⟩ := h.exists_pay? hp hfirst
      obtain ⟨t', hrest, h'⟩ := ih h₁ hprices paid
      refine ⟨t', ?_, h'⟩
      rw [Price.payAll?, hfirst']
      exact hrest

theorem unmet? (h : f.store.AtMost g.store) (same : f.OwnsSame g) (met : q.unmet? f = .ok none) :
    q.unmet? g = .ok none := by
  obtain ⟨enough, besides⟩ := Requirement.unmet?_eq_none_iff.1 met
  obtain ⟨holdings, cards, tags⟩ := Requirement.unmetBesides?_eq_none_iff.1 besides
  refine Requirement.unmet?_eq_none_iff.2 ⟨h.shortOf? enough, ?_⟩
  refine Requirement.unmetBesides?_eq_none_iff.2 ⟨?_, ?_, ?_⟩
  · intro what
    exact UInt32.le_trans (holdings what) (h.holding what)
  · intro name mem
    rw [← same.hasCard]
    exact cards name mem
  · intro tag mem
    rw [← same.hasTag]
    exact tags tag mem

end Store.AtMost

/-- A farm with the same cards and at least as much of all else can play what the other can. No
price may be negative in any part; requirements may ask for anything, and the flat cost too. -/
theorem richer_farm_plays (nonneg : ∀ p ∈ card.prices, p.Nonnegative) (same : f.OwnsSame g)
    (richer : f.store.AtMost g.store) (allowed : card.check f = .ok (.ok ())) :
    card.check g = .ok (.ok ()) := by
  rw [Card.check_eq_ok_unit_iff, Card.objection?_eq_none_iff] at allowed ⊢
  obtain ⟨new, met, scratch, hscratch, covered⟩ := allowed
  obtain ⟨scratch', hscratch', left⟩ := richer.exists_payAll? nonneg hscratch
  refine ⟨same.duplicate? ▸ new, fun q hq => ?_, scratch', hscratch', left.covers covered⟩
  exact richer.unmet? same (met q hq)

/-- A groom for the animals of whoever has a stablehand and a pasture. -/
def groom : Card :=
  Card.occupation ⟨42⟩ "Groom"
    |>.withRequirement (Requirement.nothing |>.withPastures 1 |>.withCard "Stablehand")
    |>.withPrice (Price.free |>.withResource .grain 1 |>.withWorkers 1)
    |>.withPrice (Price.free |>.withResource .grain 2 |>.withPoints 1)
    |>.withFlatCost .wood 1

/-- A farm with a stablehand and just what a groom takes. -/
def croft : Farm :=
  { Farm.new ⟨0⟩ with
    store :=
      { (Store.empty.setBalance .grain 3).setBalance .wood 1 with
        points := 1, workers := 1, pastures := 1 }
    occupations := [.new ⟨1⟩ Deck.stablehand] }

/-- A farm with two stablehands and as much of everything else as there can be. -/
def manor : Farm :=
  { Farm.new ⟨1⟩ with
    store :=
      { Store.empty with
        balances := .replicate 2147483647, points := 2147483647, workers := 4294967295
        family := 4294967295, rooms := 4294967295, fields := 4294967295, pastures := 4294967295 }
    occupations := [.new ⟨7⟩ Deck.stablehand, .new ⟨3⟩ Deck.stablehand] }

/-- What the croft can just afford, the manor can afford as well. -/
theorem richer_farm_plays_groom :
    (∀ p ∈ groom.prices, p.Nonnegative) ∧ croft.OwnsSame manor ∧
      croft.store.AtMost manor.store ∧ groom.check croft = .ok (.ok ()) ∧
      groom.check manor = .ok (.ok ()) := by
  have nonneg : ∀ p ∈ groom.prices, p.Nonnegative := by
    refine List.forall_mem_cons.2 ⟨⟨?_, ?_, ?_⟩, List.forall_mem_singleton.2 ⟨?_, ?_, ?_⟩⟩
    all_goals decide
  have same : croft.OwnsSame manor := by
    refine ⟨fun card => ?_, fun card => Iff.rfl⟩
    simp [croft, manor, Copy.new]
  have richer : croft.store.AtMost manor.store := by decide
  have allowed : groom.check croft = .ok (.ok ()) := rfl
  exact ⟨nonneg, same, richer, allowed, richer_farm_plays nonneg same richer allowed⟩

/-- A price below zero gives something back, for which the richer farm may have no room. -/
example :
    let card := Deck.stablehand.withPrice (Price.free.withPoints (-1))
    card.check { Farm.new ⟨0⟩ with store := { Store.empty with points := 2147483646 } } =
        .ok (.ok ()) ∧
      card.check { Farm.new ⟨0⟩ with store := { Store.empty with points := 2147483647 } } =
        .error (.overflow .add) := ⟨rfl, rfl⟩

end Homestead
