import Homestead.Proofs.Game.Ownership
import Homestead.Proofs.Pairs
import Mathlib.Algebra.BigOperators.Group.List.Lemmas
import Mathlib.Algebra.Order.Ring.Nat

/-!
# Rebuilding the registry

A rebuilding goes through all owned copies and registers those that are not registered yet, where
each registration changes what is registered for the next. For one seat that comes to its
*newcomers*: the owned identifiers that were not registered before, each where it first occurs
(`Game.copiesOf_registerEach`). Since nothing is assumed of the game, farms with repeated
identifiers and registrations without an owner are covered.
-/

namespace Homestead

/-- The identifiers of a list that are not among the known ones, each where it first occurs. -/
def newcomers (known ids : List CopyId) : List CopyId := (ids.filter fun id => id ∉ known).eraseDups

variable {g : Game} {r r' : Registry} {farms : Seating Farm} {seat : Seat} {id : CopyId}
  {known ids : List CopyId} {seats : List Seat} {l : List (Seat × CopyId)}

/-! ## Newcomers -/

theorem newcomers_cons_of_mem (h : id ∈ known) (ids : List CopyId) :
    newcomers known (id :: ids) = newcomers known ids := by
  rw [newcomers, List.filter_cons_of_neg (by simpa using h), newcomers]

/-- A newcomer comes first and is known from then on. -/
theorem newcomers_cons_of_not_mem (h : id ∉ known) (ids : List CopyId) :
    newcomers known (id :: ids) = id :: newcomers (known ++ [id]) ids := by
  rw [newcomers, List.filter_cons_of_pos (by simpa using h), List.eraseDups_cons,
    List.filter_filter, newcomers]
  congr 3
  funext other
  rw [Bool.eq_iff_iff]
  simp [and_comm]

theorem mem_newcomers : id ∈ newcomers known ids ↔ id ∈ ids ∧ id ∉ known := by
  simp [newcomers]

theorem newcomers_of_nothing (ids : List CopyId) : newcomers [] ids = ids.eraseDups := by
  simp [newcomers]

/-! ## Owned copies by seat -/

theorem copiesFor_eq_nil (h : ∀ e ∈ l, e.1 ≠ seat) : copiesFor l seat = [] := by
  rw [copiesFor, List.filter_eq_nil_iff.2 (by simpa using h), List.map_nil]

theorem copiesFor_tagged (ids : List CopyId) (seat : Seat) :
    copiesFor (ids.map fun id => (seat, id)) seat = ids := by
  simp [copiesFor, List.filter_map, Function.comp_def]

/-! ## One registration -/

theorem Registry.length_enter (seat : Seat) (id : CopyId) (l : List (Seat × List CopyId)) :
    ((enter seat id l).flatMap Prod.snd).length = (l.flatMap Prod.snd).length + 1 := by
  induction l with
  | nil => rfl
  | cons e rest ih =>
    rw [enter]
    split
    · simp only [List.flatMap_cons, List.length_append, List.length_singleton]
      omega
    · rw [List.flatMap_cons, List.length_append, ih, List.flatMap_cons, List.length_append,
        Nat.add_assoc]

theorem Registry.size_register? (h : r.register? farms seat id = some r') :
    r'.size = r.size + 1 := by
  obtain ⟨-, -, rfl⟩ := register?_eq_some_iff.1 h
  exact length_enter ..

theorem Registry.isEmpty_register? (h : r.register? farms seat id = some r') :
    r'.isEmpty = false := by
  obtain ⟨-, -, rfl⟩ := register?_eq_some_iff.1 h
  change (enter seat id r.listed).isEmpty = false
  cases r.listed with
  | nil => rfl
  | cons e rest =>
    rw [enter]
    split <;> rfl

namespace Game

/-- Among the owned copies of all seats, those of one seat stand in the order of its farm. -/
theorem copiesFor_owned (g : Game) (seat : Seat) : copiesFor g.owned seat = g.idsOf seat := by
  cases hf : g.farm? seat with
  | none =>
    rw [idsOf, hf]
    apply copiesFor_eq_nil
    rintro ⟨place, id⟩ he rfl
    obtain ⟨f, hplace, -⟩ := mem_idsOf.1 (mem_owned.1 he)
    cases hf.symm.trans hplace
  | some f =>
    obtain ⟨before, after, entries⟩ := List.append_of_mem (Seating.mem_entries.2 hf)
    have apart := g.farms.entries_nodup
    rw [entries, List.map_append, List.map_cons, List.nodup_middle, List.nodup_cons,
      List.mem_append, not_or] at apart
    have none {l : List (Seat × Farm)} (hl : seat ∉ l.map Prod.fst) :
        copiesFor (l.flatMap fun e => e.2.copies.map fun c => (e.1, c.id)) seat = [] := by
      apply copiesFor_eq_nil
      intro e he eq
      obtain ⟨entry, hentry, he⟩ := List.mem_flatMap.1 he
      obtain ⟨c, -, rfl⟩ := List.mem_map.1 he
      exact hl (List.mem_map.2 ⟨entry, hentry, eq⟩)
    have own : copiesFor (f.copies.map fun c => (seat, c.id)) seat = f.ids := by
      have := copiesFor_tagged f.ids seat
      rwa [Farm.ids, List.map_map] at this
    rw [idsOf_eq hf, owned, entries, List.flatMap_append, List.flatMap_cons, copiesFor_append,
      copiesFor_append, none apart.1.1, none apart.1.2, own, List.nil_append, List.append_nil]

/-! ## Registering in order -/

theorem register?_countOf (h : r.register? farms seat id = some r') (nodup : seats.Nodup)
    (hseat : seat ∈ seats) :
    (seats.map r'.countOf).sum = (seats.map r.countOf).sum + 1 := by
  have one : r'.countOf seat = r.countOf seat + 1 := by
    simp [Registry.countOf, Registry.copiesOf_register? h]
  have same : (seats.erase seat).map r'.countOf = (seats.erase seat).map r.countOf := by
    apply List.map_congr_left
    intro other hother
    have ne : seat ≠ other := fun eq => (nodup.mem_erase_iff.1 hother).1 eq.symm
    simp [Registry.countOf, Registry.copiesOf_register? h, ne]
  have split (count : Seat → Nat) :
      (seats.map count).sum = count seat + ((seats.erase seat).map count).sum :=
    ((List.perm_cons_erase hseat).map count).sum_nat
  rw [split, split, same, one]
  omega

/-- Registering owned copies adds the newcomers of each seat to what is registered for it. -/
theorem copiesOf_registerEach (owned : ∀ e ∈ l, e.1.owns farms e.2) (r : Registry) (seat : Seat) :
    (registerEach farms l r).1.copiesOf seat =
      r.copiesOf seat ++ newcomers (r.copiesOf seat) (copiesFor l seat) := by
  induction l generalizing r with
  | nil => exact (List.append_nil _).symm
  | cons e rest ih =>
    obtain ⟨place, id⟩ := e
    obtain ⟨first, others⟩ := List.forall_mem_cons.1 owned
    rw [registerEach, copiesFor_cons]
    cases hr : r.register? farms place id with
    | none =>
      -- an owned copy is only refused if it is registered
      have old : id ∈ r.copiesOf place := by
        by_contra new
        have accepted := Registry.register?_isSome.2 ⟨first, new⟩
        rw [hr] at accepted
        cases accepted
      refine (ih others r).trans ?_
      split
      · rename_i eq
        subst eq
        rw [newcomers_cons_of_mem old]
      · rfl
    | some r' =>
      have new : id ∉ r.copiesOf place := (Registry.register?_eq_some_iff.1 hr).2.1
      refine (ih others r').trans ?_
      rw [Registry.copiesOf_register? hr]
      split
      · rename_i eq
        subst eq
        rw [newcomers_cons_of_not_mem new, List.append_assoc, List.singleton_append]
      · rfl

/-- As many registrations are added to those of some seats as are counted. -/
theorem sum_countOf_registerEach (nodup : seats.Nodup) (within : ∀ e ∈ l, e.1 ∈ seats)
    (r : Registry) :
    (seats.map (registerEach farms l r).1.countOf).sum =
      (seats.map r.countOf).sum + (registerEach farms l r).2 := by
  induction l generalizing r with
  | nil => rfl
  | cons e rest ih =>
    obtain ⟨first, others⟩ := List.forall_mem_cons.1 within
    rw [registerEach]
    split
    · exact ih others r
    · rename_i r' hr
      rw [ih others r', register?_countOf hr nodup first]
      omega

/-- The registry has as many registrations more as are counted. -/
theorem size_registerEach (l : List (Seat × CopyId)) (r : Registry) :
    (registerEach farms l r).1.size = r.size + (registerEach farms l r).2 := by
  induction l generalizing r with
  | nil => rfl
  | cons e rest ih =>
    rw [registerEach]
    split
    · exact ih r
    · rename_i r' hr
      rw [ih r', Registry.size_register? hr]
      omega

/-- The registry is empty afterwards if it was and nothing is counted. -/
theorem isEmpty_registerEach (l : List (Seat × CopyId)) (r : Registry) :
    (registerEach farms l r).1.isEmpty ↔ r.isEmpty ∧ (registerEach farms l r).2 = 0 := by
  induction l generalizing r with
  | nil => simp [registerEach]
  | cons e rest ih =>
    rw [registerEach]
    split
    · exact ih r
    · rename_i r' hr
      simp [ih r', Registry.isEmpty_register? hr]

/-- Copies that are registered are not registered again. -/
theorem registerEach_of_registered (h : ∀ e ∈ l, e.2 ∈ r.copiesOf e.1) :
    registerEach farms l r = (r, 0) := by
  induction l with
  | nil => rfl
  | cons e rest ih =>
    obtain ⟨first, others⟩ := List.forall_mem_cons.1 h
    rw [registerEach]
    split
    · exact ih others
    · rename_i r' hr
      exact absurd first (Registry.register?_eq_some_iff.1 hr).2.1

/-! ## Rebuilding -/

/-- The copies that a rebuilding registers for a seat. -/
def unregistered (g : Game) (seat : Seat) : List CopyId :=
  newcomers (g.registry.copiesOf seat) (g.idsOf seat)

theorem copiesOf_rebuildRegistry (g : Game) (seat : Seat) :
    g.rebuildRegistry.1.registry.copiesOf seat =
      g.registry.copiesOf seat ++ g.unregistered seat := by
  have owned : ∀ e ∈ g.owned, e.1.owns g.farms e.2 := by
    intro e he
    obtain ⟨f, hf, hid⟩ := mem_idsOf.1 (mem_owned.1 he)
    exact (Option.any_eq_true ..).2 ⟨f, hf, Farm.owns_iff.2 hid⟩
  rw [unregistered, ← copiesFor_owned]
  exact copiesOf_registerEach owned g.registry seat

theorem relisted_rebuildRegistry (g : Game) :
    ∃ l, g.rebuildRegistry.1 = { g with registry := { g.registry with listed := l } } := by
  have relisted : g.registry.Relisted (registerEach g.farms g.owned g.registry).1 :=
    relisted_registerEach ..
  obtain ⟨l, h⟩ := relisted
  exact ⟨l, congrArg (fun r => { g with registry := r }) h⟩

theorem count_rebuildRegistry (g : Game) :
    g.rebuildRegistry.2 = (g.seats.map fun seat => (g.unregistered seat).length).sum := by
  have within : ∀ e ∈ g.owned, e.1 ∈ g.seats := by
    intro e he
    obtain ⟨f, hf, -⟩ := mem_idsOf.1 (mem_owned.1 he)
    exact (Seating.mem_seats ..).2 ((Seating.isSome_get? ..).1 (Option.isSome_of_eq_some hf))
  have counted : (g.seats.map g.rebuildRegistry.1.registry.countOf).sum =
      (g.seats.map g.registry.countOf).sum + g.rebuildRegistry.2 :=
    sum_countOf_registerEach (Seat.all_nodup _) within g.registry
  have added : g.rebuildRegistry.1.registry.countOf =
      fun seat => g.registry.countOf seat + (g.unregistered seat).length := by
    funext seat
    rw [Registry.countOf, copiesOf_rebuildRegistry, List.length_append, Registry.countOf]
  rw [added, List.sum_map_add] at counted
  omega

/-- After a rebuilding every owned copy is registered. -/
theorem inStep_rebuildRegistry (g : Game) : g.rebuildRegistry.1.InStep := by
  intro seat id hid
  rw [copiesOf_rebuildRegistry, List.mem_append, unregistered, mem_newcomers]
  by_cases old : id ∈ g.registry.copiesOf seat
  · exact .inl old
  · exact .inr ⟨hid, old⟩

/-- Where every owned copy is registered, there is nothing to rebuild. -/
theorem InStep.rebuildRegistry (h : g.InStep) : g.rebuildRegistry = (g, 0) := by
  have nothing : registerEach g.farms g.owned g.registry = (g.registry, 0) :=
    registerEach_of_registered fun e he => h e.1 e.2 (mem_owned.1 he)
  rw [Game.rebuildRegistry, nothing]

/-- A rebuilding registers for each seat the owned copies that are not registered for it, each once
and in the order of the farm, behind those that are, and counts them. It changes nothing else, and a
second one changes nothing. After the registry was cleared it registers the owned copies of each
seat, each once, and the counters stay at zero. -/
theorem rebuilding_registers_newcomers (g : Game) :
    (∀ seat, g.rebuildRegistry.1.registry.copiesOf seat =
        g.registry.copiesOf seat ++ g.unregistered seat) ∧
      g.rebuildRegistry.2 = (g.seats.map fun seat => (g.unregistered seat).length).sum ∧
      (∃ l, g.rebuildRegistry.1 = { g with registry := { g.registry with listed := l } }) ∧
      g.rebuildRegistry.1.registry.size = g.registry.size + g.rebuildRegistry.2 ∧
      (g.rebuildRegistry.1.registry.isEmpty ↔ g.registry.isEmpty ∧ g.rebuildRegistry.2 = 0) ∧
      g.rebuildRegistry.1.rebuildRegistry = (g.rebuildRegistry.1, 0) ∧
      (∀ seat, g.clearRegistry.rebuildRegistry.1.registry.copiesOf seat =
        (g.idsOf seat).eraseDups) ∧
      (∃ l, g.clearRegistry.rebuildRegistry.1 =
        { g with registry := { Registry.new g.registry.policy with listed := l } }) ∧
      g.clearRegistry.rebuildRegistry.1.registry.stats =
        ⟨g.clearRegistry.rebuildRegistry.2, 0, 0, 0⟩ := by
  obtain ⟨l, cleared⟩ := relisted_rebuildRegistry g.clearRegistry
  refine ⟨g.copiesOf_rebuildRegistry, g.count_rebuildRegistry, g.relisted_rebuildRegistry,
    size_registerEach .., isEmpty_registerEach .., g.inStep_rebuildRegistry.rebuildRegistry,
    fun seat => ?_, ⟨l, cleared⟩, ?_⟩
  · rw [copiesOf_rebuildRegistry, unregistered]
    exact newcomers_of_nothing _
  · have size : g.clearRegistry.rebuildRegistry.1.registry.size =
        0 + g.clearRegistry.rebuildRegistry.2 := size_registerEach ..
    rw [Registry.stats, size, Nat.zero_add, cleared]
    rfl

end Game

/-- A game in which a farm has one identifier twice, and a copy is registered that is not owned. -/
def untidyGame : Game where
  setup := ⟨1, .strict, .empty, 2, 2⟩
  farms := ⟨[((Farm.new ⟨0⟩).add (.new ⟨1⟩ Deck.well)).add (.new ⟨1⟩ Deck.woodCutter)], by decide,
    by decide⟩
  registry := { Registry.new .strict with listed := [(⟨0⟩, [⟨7⟩])] }
  round := 0
  nextCopy := 1

example : untidyGame.rebuildRegistry.2 = 1 ∧
    untidyGame.rebuildRegistry.1.registry.copiesOf ⟨0⟩ = [⟨7⟩, ⟨1⟩] := by decide

end Homestead
