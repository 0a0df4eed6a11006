import Homestead.Proofs.Solvency
import Mathlib

/-!
# Kitchens, ratios and storage

What a farm can cook and keep is installed when a card is played and touched by nothing else. Three
rules merge what the cards of several plays declare: of the ratios for a resource the best one
counts, the capacities add up, and a card with ratios becomes a kitchen once. `Store.Equipped` says
that a store has just what a list of cards declares; installing one card more keeps it
(`Store.Equipped.install`), and nothing that was installed is ever lost (`Store.Grows`).
-/

namespace Homestead

/-- The two stores have the same kitchens, cooking ratios and storage capacities. -/
structure Store.SameCapabilities (s t : Store) : Prop where
  kitchens : t.kitchens = s.kitchens
  ratios : t.ratios = s.ratios
  capacities : t.capacities = s.capacities

/-- The second store can do at least what the first can, with the kitchens of the first in front. -/
structure Store.Grows (s t : Store) : Prop where
  kitchens : s.kitchens <+: t.kitchens
  ratio : ∀ r, s.ratio r ≤ t.ratio r
  capacity : ∀ r, s.capacity r ≤ t.capacity r

/-- The counts that a list declares for a resource, in order. -/
def declared (r : Resource) (entries : List (Resource × Count)) : List Nat :=
  (entries.filter fun e => e.1 = r).map fun e => e.2.toNat

/-- The cards of a list that declare a cooking ratio, by their names in the catalog. -/
def kitchensOf (cards : List Card) : List CardId :=
  (cards.filter fun card => card.cooking ≠ []).map Card.id

/-- What installing a card does to the kitchens, the ratios and the capacities of a store. -/
structure Store.Installs (card : Card) (s t : Store) : Prop where
  kitchens : t.kitchens =
    if card.cooking = [] ∨ card.id ∈ s.kitchens then s.kitchens else s.kitchens ++ [card.id]
  ratio : ∀ r, (t.ratio r).toNat = (declared r card.cooking).foldl max (s.ratio r).toNat
  capacity : ∀ r, (t.capacity r).toNat = (s.capacity r).toNat + (declared r card.storage).sum

/-- The store can do what the cards of a list declare and no more: the ratio of a resource is the
best one declared for it, its capacity is the sum of those declared, and the cards that declare a
ratio are the kitchens, each once and in the order of the list. -/
structure Store.Equipped (cards : List Card) (s : Store) : Prop where
  ratio : ∀ r, (s.ratio r).toNat = (declared r (cards.flatMap Card.cooking)).max?.getD 0
  capacity : ∀ r, (s.capacity r).toNat = (declared r (cards.flatMap Card.storage)).sum
  kitchens : s.kitchens = (kitchensOf cards).eraseDups

variable {s t u : Store} {r : Resource} {card : Card} {cards : List Card}
  {entries : List (Resource × Count)}

/-! ## Declarations -/

theorem declared_cons (r : Resource) (e : Resource × Count) (entries : List (Resource × Count)) :
    declared r (e :: entries) = if e.1 = r then e.2.toNat :: declared r entries
      else declared r entries := by
  unfold declared
  by_cases h : e.1 = r <;> simp [h]

theorem declared_append (r : Resource) (xs ys : List (Resource × Count)) :
    declared r (xs ++ ys) = declared r xs ++ declared r ys := by
  simp [declared]

theorem kitchensOf_append (xs ys : List Card) :
    kitchensOf (xs ++ ys) = kitchensOf xs ++ kitchensOf ys := by
  simp [kitchensOf]

theorem kitchensOf_singleton (card : Card) :
    kitchensOf [card] = if card.cooking = [] then [] else [card.id] := by
  by_cases none : card.cooking = [] <;> simp [kitchensOf, none]

theorem eraseDups_concat {α : Type} [DecidableEq α] (l : List α) (a : α) :
    (l ++ [a]).eraseDups = if a ∈ l then l.eraseDups else l.eraseDups ++ [a] := by
  rw [List.eraseDups_append, List.removeAll, List.filter_singleton]
  by_cases old : a ∈ l <;> simp [old, List.eraseDups_cons]

theorem nodup_eraseDups {α : Type} [DecidableEq α] (l : List α) : l.eraseDups.Nodup := by
  induction l using List.reverseRecOn with
  | nil => exact .nil
  | append_singleton l a ih =>
    rw [eraseDups_concat]
    split
    · exact ih
    · rename_i new
      exact List.nodup_append'.2 ⟨ih, List.nodup_singleton a, by simpa using new⟩

theorem max?_getD (l : List Nat) : l.max?.getD 0 = l.foldl max 0 := by
  rw [List.foldl_max, Nat.zero_max]

namespace Store

/-! ## Stores with the same capabilities -/

namespace SameCapabilities

theorem refl (s : Store) : SameCapabilities s s := ⟨rfl, rfl, rfl⟩

theorem trans (h : SameCapabilities s t) (h' : SameCapabilities t u) : SameCapabilities s u :=
  ⟨h'.kitchens.trans h.kitchens, h'.ratios.trans h.ratios, h'.capacities.trans h.capacities⟩

theorem ratio (h : SameCapabilities s t) (r : Resource) : t.ratio r = s.ratio r := by
  rw [Store.ratio, h.ratios, Store.ratio]

theorem capacity (h : SameCapabilities s t) (r : Resource) : t.capacity r = s.capacity r := by
  rw [Store.capacity, h.capacities, Store.capacity]

theorem grows (h : SameCapabilities s t) : s.Grows t where
  kitchens := h.kitchens ▸ List.prefix_rfl
  ratio r := h.ratio r ▸ UInt32.le_refl _
  capacity r := h.capacity r ▸ UInt32.le_refl _

theorem equipped (h : SameCapabilities s t) (hs : s.Equipped cards) : t.Equipped cards where
  ratio r := h.ratio r ▸ hs.ratio r
  capacity r := h.capacity r ▸ hs.capacity r
  kitchens := h.kitchens.trans hs.kitchens

theorem of_estate (h : s.SameEstate t) : SameCapabilities s t :=
  ⟨h.kitchens, h.ratios, h.capacities⟩

theorem of_withdrawAll {b : Bundle} (h : s.withdrawAll b = .ok t) : SameCapabilities s t :=
  .of_estate (Moves.of_withdrawAll h).estate

theorem of_pay {p : Price} (h : p.pay s = .ok t) : SameCapabilities s t := by
  obtain ⟨paid, points, hpaid, -, rfl⟩ := Price.of_pay h
  have placed : SameCapabilities paid
      { paid with workers := s.workers.less p.workers, points := points } := ⟨rfl, rfl, rfl⟩
  exact (of_withdrawAll hpaid).trans placed

theorem of_payAll {prices : List Price} (h : Price.payAll prices s = .ok t) :
    SameCapabilities s t := by
  unfold Price.payAll at h
  induction prices generalizing s with
  | nil =>
    cases Checked.pure_eq_ok.1 h
    exact .refl _
  | cons p prices ih =>
    obtain ⟨s₁, hfirst, h⟩ := Checked.bind_eq_ok.1 ((List.foldlM_cons ..).symm.trans h)
    exact (of_pay hfirst).trans (ih h)

theorem of_payFor (h : card.payFor s = .ok t) : SameCapabilities s t := by
  obtain ⟨paid, hpaid, h⟩ := Checked.bind_eq_ok.1 h
  exact (of_payAll hpaid).trans (of_withdrawAll h)

theorem of_applies {policy : PaymentPolicy} {is : List Nat} {c c' : Copy} {o : Outcome}
    (h : Copy.Applies policy is c s c' t o) : SameCapabilities s t :=
  .of_estate h.estate

theorem of_cook {n : Count} {meal : Amount} (h : s.cook r n = (t, meal)) :
    SameCapabilities s t := by
  obtain ⟨-, cooked⟩ | ⟨rfl, -⟩ := cook_cases h
  · rw [cooked.rest]
    exact ⟨rfl, rfl, rfl⟩
  · exact .refl t

end SameCapabilities

/-! ## Installing -/

theorem ratio_addRatio (s : Store) (r q : Resource) (n : Count) :
    (s.addRatio r n).ratio q = if r = q then max (s.ratio r) n else s.ratio q := by
  unfold addRatio ratio
  rw [Table.get_set]
  split <;> rfl

/-- Ratios that are granted one by one leave the best one of each resource. -/
theorem ratio_addRatios (entries : List (Resource × Count)) (s : Store) (r : Resource) :
    ((entries.foldl (fun s e => s.addRatio e.1 e.2) s).ratio r).toNat =
      (declared r entries).foldl max (s.ratio r).toNat := by
  induction entries generalizing s with
  | nil => rfl
  | cons e entries ih =>
    rw [List.foldl_cons, ih, ratio_addRatio, declared_cons]
    split
    · rename_i eq
      rw [eq, List.foldl_cons, UInt32.toNat_max]
    · rfl

/-- Capacities that are granted one by one add up. -/
theorem capacity_addCapacities
    (h : entries.foldlM (fun s e => s.addCapacity e.1 e.2) s = Except.ok t) (r : Resource) :
    (t.capacity r).toNat = (s.capacity r).toNat + (declared r entries).sum := by
  induction entries generalizing s with
  | nil =>
    cases Checked.pure_eq_ok.1 h
    rfl
  | cons e entries ih =>
    obtain ⟨s₁, hfirst, h⟩ := Checked.bind_eq_ok.1 ((List.foldlM_cons ..).symm.trans h)
    obtain ⟨n, hn, hfirst⟩ := Checked.bind_eq_ok.1 hfirst
    cases Checked.pure_eq_ok.1 hfirst
    have first : (Store.capacity { s with capacities := s.capacities.set e.1 (some n) } r) =
        if e.1 = r then n else s.capacity r := by
      unfold capacity
      rw [Table.get_set]
      split <;> rfl
    rw [ih h, first, declared_cons]
    split
    · rename_i eq
      rw [Count.plus_eq_ok_iff.1 hn, eq, List.sum_cons, Nat.add_assoc]
    · rfl

theorem Installs.of_install (h : card.install s = .ok t) : Installs card s t := by
  rw [Card.install_eq] at h
  obtain ⟨counted, hcounted, h⟩ := Checked.bind_eq_ok.1 h
  obtain ⟨points, -, rfl⟩ := of_addPoints_unless hcounted
  rw [pure_bind, List.foldlM_pure, pure_bind] at h
  generalize hroom : ite (card.cooking.isEmpty = true) _ _ = room at h
  obtain ⟨hkitchens, hratios, hcapacities⟩ : room.kitchens =
      (if card.cooking = [] ∨ card.id ∈ s.kitchens then s.kitchens
        else s.kitchens ++ [card.id]) ∧
      room.ratios = s.ratios ∧ room.capacities = s.capacities := by
    subst hroom
    by_cases none : card.cooking = []
    · simp [none]
    · by_cases known : card.id ∈ s.kitchens <;> simp [none, known, addKitchen]
  have same_ratio (r : Resource) : room.ratio r = s.ratio r := by
    rw [Store.ratio, hratios, Store.ratio]
  have same_capacity (r : Resource) : room.capacity r = s.capacity r := by
    rw [Store.capacity, hcapacities, Store.capacity]
  have hratio := ratio_addRatios card.cooking room
  obtain ⟨granted, hgranted⟩ := of_addRatios card.cooking room
  have hcapacity := capacity_addCapacities h
  obtain ⟨capacities, rfl⟩ := of_addCapacities h
  rw [hgranted] at hratio hcapacity ⊢
  refine ⟨hkitchens, fun r => ?_, fun r => ?_⟩
  · rw [← same_ratio]
    exact hratio r
  · rw [← same_capacity]
    exact hcapacity r

theorem Installs.of_same (same : SameCapabilities s t) (h : Installs card t u) :
    Installs card s u where
  kitchens := same.kitchens ▸ h.kitchens
  ratio r := same.ratio r ▸ h.ratio r
  capacity r := same.capacity r ▸ h.capacity r

theorem Installs.grows (h : Installs card s t) : s.Grows t := by
  obtain ⟨hkitchens, hratio, hcapacity⟩ := h
  refine ⟨?_, fun r => ?_, fun r => ?_⟩
  · rw [hkitchens]
    split
    · exact List.prefix_rfl
    · exact List.prefix_append ..
  · rw [UInt32.le_iff_toNat_le, hratio, List.foldl_max]
    exact Nat.le_max_left ..
  · rw [UInt32.le_iff_toNat_le, hcapacity]
    exact Nat.le_add_right ..

theorem Equipped.nodup (h : s.Equipped cards) : s.kitchens.Nodup :=
  h.kitchens ▸ nodup_eraseDups _

/-- At the start there is nothing that a store can do. -/
theorem Equipped.of_setup {setup : Setup} (h : ofSetup setup = .ok s) : s.Equipped [] := by
  refine (SameCapabilities.of_estate (Moves.of_addAll h).estate).equipped ⟨?_, ?_, rfl⟩
  · intro r
    cases r <;> rfl
  · intro r
    cases r <;> rfl

/-- Installing one card more merges what it declares with what the others declared. -/
theorem Equipped.install (hs : s.Equipped cards) (h : Installs card s t) :
    t.Equipped (cards ++ [card]) := by
  obtain ⟨hkitchens, hratio, hcapacity⟩ := h
  refine ⟨fun r => ?_, fun r => ?_, ?_⟩
  · rw [hratio, hs.ratio, max?_getD, max?_getD, List.flatMap_append, declared_append,
      List.foldl_append, List.flatMap_singleton]
  · rw [hcapacity, hs.capacity, List.flatMap_append, declared_append, List.sum_append,
      List.flatMap_singleton]
  · rw [hkitchens, hs.kitchens, kitchensOf_append, kitchensOf_singleton]
    by_cases none : card.cooking = []
    · simp [none]
    · simp [none, eraseDups_concat]

end Store

end Homestead
