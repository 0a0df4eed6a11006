import Homestead.Proofs.Firing
import Mathlib

/-!
# Counting uses

Every effect that is applied raises one counter of one copy by one, and nothing else in dispatching
touches a counter, as long as no counter has reached the largest count. `Rises` says so of the
counters as a list of numbers; it holds of a copy, of the farm that owns it and of the table at
which the farm is, because each of them changes in one place (`Rises.flatMap_set`).
-/

namespace Homestead

/-- How often the effects of a copy were used, by its counters. -/
def Copy.counters (c : Copy) : List Nat := c.uses.map fun u => u.count.toNat

def Farm.counters (f : Farm) : List Nat := f.copies.flatMap Copy.counters

def Seating.counters (farms : Seating Farm) : List Nat := farms.places.flatMap Farm.counters

/-- No counter stands at the largest count, at which counters stop. -/
def Unsaturated (counters : List Nat) : Prop := ∀ k ∈ counters, k < UInt32.size - 1

instance (counters : List Nat) : Decidable (Unsaturated counters) :=
  inferInstanceAs (Decidable (∀ k ∈ counters, k < UInt32.size - 1))

/-- Counters of which none is saturated now were not saturated before, and rose by `n` in all. -/
def Rises (n : Nat) (before after : List Nat) : Prop :=
  Unsaturated after → Unsaturated before ∧ after.sum = before.sum + n

variable {m n : Nat} {k l l' : List Nat}

namespace Rises

theorem refl (l : List Nat) : Rises 0 l l := fun unsaturated => ⟨unsaturated, rfl⟩

theorem trans (h : Rises m k l) (h' : Rises n l l') : Rises (m + n) k l' := by
  intro unsaturated
  obtain ⟨unsaturated, later⟩ := h' unsaturated
  obtain ⟨unsaturated, earlier⟩ := h unsaturated
  exact ⟨unsaturated, by omega⟩

theorem within (h : Rises n l l') (before after : List Nat) :
    Rises n (before ++ l ++ after) (before ++ l' ++ after) := by
  unfold Rises Unsaturated at *
  simp only [List.forall_mem_append, List.sum_append]
  intro unsaturated
  obtain ⟨⟨hbefore, hl'⟩, hafter⟩ := unsaturated
  obtain ⟨hl, sum⟩ := h hl'
  exact ⟨⟨⟨hbefore, hl⟩, hafter⟩, by omega⟩

/-- Where one element is replaced, the counters rise by as much as those of the element. -/
theorem flatMap_set {α : Type} {f : α → List Nat} {xs : List α} {i : Nat} {a b : α}
    (ha : xs[i]? = some a) (h : Rises n (f a) (f b)) :
    Rises n (xs.flatMap f) ((xs.set i b).flatMap f) := by
  induction xs generalizing i with
  | nil => cases ha
  | cons x xs ih =>
    cases i with
    | zero =>
      cases ha
      simpa using h.within [] (xs.flatMap f)
    | succ i => simpa using (ih ha).within (f x) []

end Rises

variable {policy : PaymentPolicy} {c c' : Copy} {s s' : Store} {i : Nat} {is : List Nat}
  {o : Outcome} {f f' : Farm} {id : CopyId} {ms : List Match} {farms farms' : Seating Farm}
  {firing : Firing} {firings : List Firing} {u : Uses}

/-! ## Copies -/

theorem Copy.counters_eq_flatMap (c : Copy) :
    c.counters = c.uses.flatMap fun u => [u.count.toNat] := List.map_eq_flatMap

theorem Copy.rises_counting (hu : c.uses[i]? = some u) :
    Rises 1 c.counters (c.counting i u).counters := by
  rw [counters_eq_flatMap, counters_eq_flatMap]
  apply Rises.flatMap_set hu
  intro unsaturated
  have next := Count.toNat_succ u.count
  have below := unsaturated _ List.mem_cons_self
  rw [next] at below
  refine ⟨?_, ?_⟩
  · intro k hk
    rw [List.mem_singleton.1 hk]
    omega
  · simp only [List.sum_singleton, next]
    omega

theorem Copy.Applies.rises (h : Copy.Applies policy is c s c' s' o) :
    Rises o.count c.counters c'.counters := by
  induction h with
  | nil | refused => exact .refl _
  | declined _ _ ih => exact ih
  | applied hi _ ih =>
    cases Copy.applyEffect_eq_ok_iff.1 hi with
    | applied _ hu =>
      have rises := (rises_counting hu).trans ih
      rwa [Nat.add_comm] at rises

/-! ## Farms -/

theorem Farm.Fires.rises (h : f.Fires policy id is f' o) :
    Rises o.count f.counters f'.counters := by
  cases h with
  | absent => exact .refl _
  | owned hc happlies =>
    have place := (copy?_eq_getElem? ..).symm.trans hc
    rw [counters, counters, copies_replace, happlies.id_card.1, id_of_copy? hc]
    exact Rises.flatMap_set place happlies.rises

theorem Match.Fires.rises {m : Match} (h : m.Fires policy farms farms' firing) :
    Rises firing.outcome.count farms.counters farms'.counters := by
  cases h with
  | noFarm => exact .refl _
  | farm hf hfires => exact Rises.flatMap_set hf hfires.rises

/-- The counters of all farms rise by the number of effects that were applied. -/
theorem Match.FiresAll.rises (h : Match.FiresAll policy ms farms farms' firings) :
    Rises (firings.flatMap fun f => f.outcome.applied).length farms.counters farms'.counters := by
  induction h with
  | nil => exact .refl _
  | cons hm _ ih =>
    rw [List.flatMap_cons, List.length_append]
    exact hm.rises.trans ih

end Homestead
