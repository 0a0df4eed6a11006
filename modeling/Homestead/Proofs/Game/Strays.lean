import Homestead.Deck
import Homestead.Proofs.Game.Chronicle
import Homestead.Proofs.Lookups

/-!
# Stray registrations

A registration is a *stray* if its seat does not own the copy. No move makes one: what it takes from
a farm it unregisters, and it registers owned copies only (`Game.Steps.stray`). But a farm that is
at hand can lose a copy of which the registry is not told (`Farm.Loses`): it can be overwritten with
an empty one, and a copy that was lent out can come back as one of another identifier. Nothing else
that can be done to a farm takes an identifier from it (`Farm.Handled.loses_iff`). So that is where
every stray comes from, and each such loss of a registered copy leaves one
(`Game.Chronicle.strays`).
-/

namespace Homestead

/-- What can be done to a farm that is at hand: any change of its store, new copies in either list,
a reset of all counters, any copy and any store for those that were lent out, and an empty farm in
its place. -/
inductive Farm.Handled (f : Farm) : Farm → Prop
  | stored (s : Store) : Handled f { f with store := s }
  | added (c : Copy) : Handled f (f.add c)
  | addedOccupation (c : Copy) : Handled f (f.addOccupation c)
  | addedImprovement (c : Copy) : Handled f (f.addImprovement c)
  | reset : Handled f f.resetUses
  | returned {id c back} (d : Copy) (s : Store) : f.lend? id = some (c, back) →
    Handled f (back d s)
  | overwritten (seat : Seat) : Handled f (.new seat)

/-- A farm that owns copies of an identifier loses them all: it is overwritten, or its only such
copy is lent out and one of another identifier is returned. -/
inductive Farm.Loses (f : Farm) (id : CopyId) : Farm → Prop
  | overwritten (seat : Seat) : id ∈ f.ids → Loses f id (.new seat)
  | exchanged {c back} (d : Copy) (s : Store) : f.lend? id = some (c, back) →
    f.ids.count id = 1 → d.id ≠ id → Loses f id (back d s)

/-- A seat's farm lost a copy by hand while that was registered. -/
def Lost (log : List Deed) (seat : Seat) (id : CopyId) : Prop :=
  ∃ before f f', .change before seat f f' ∈ log ∧ f.Loses id f' ∧
    id ∈ before.registry.copiesOf seat

theorem Lost.concat {log : List Deed} {seat : Seat} {id : CopyId} (h : Lost log seat id)
    (e : Deed) : Lost (log ++ [e]) seat id := by
  obtain ⟨before, f, f', hchange, h⟩ := h
  exact ⟨before, f, f', List.mem_append_left _ hchange, h⟩

namespace Farm

variable {f f' : Farm} {c : Copy} {id : CopyId} {back : Copy → Store → Farm}

/-- Where a copy comes back for one that was lent out, one identifier is exchanged. -/
theorem count_ids_of_lend? (h : f.lend? id = some (c, back)) (d : Copy) (s : Store) (i : CopyId) :
    (back d s).ids.count i =
      f.ids.count i - (if id = i then 1 else 0) + (if d.id = i then 1 else 0) := by
  rw [lend?_eq, copy?_eq_getElem?] at h
  obtain ⟨c, hc, eq⟩ := Option.map_eq_some_iff.1 h
  cases eq
  obtain ⟨inside, at_slot⟩ := List.getElem?_eq_some_iff.1 hc
  have hid : c.id = id := id_of_copy? ((f.copy?_eq_getElem? id).trans hc)
  rw [ids, copies_putAt, List.map_set, List.count_set (by simpa using inside), List.getElem_map,
    at_slot, hid]
  simp only [beq_iff_eq]
  rfl

theorem Loses.left (h : f.Loses id f') : id ∈ f.ids ∧ id ∉ f'.ids := by
  cases h with
  | overwritten seat owned => exact ⟨owned, List.not_mem_nil⟩
  | exchanged d s hlend only other =>
    have count := count_ids_of_lend? hlend d s id
    rw [if_pos rfl, if_neg other, only] at count
    exact ⟨List.count_pos_iff.1 (only ▸ Nat.one_pos), List.count_eq_zero.1 count⟩

theorem Loses.handled (h : f.Loses id f') : f.Handled f' := by
  cases h with
  | overwritten seat => exact .overwritten seat
  | exchanged d s hlend => exact .returned d s hlend

/-- What is done to a farm keeps its identifiers, unless it is overwritten or a copy exchanged. -/
theorem Handled.loses (h : f.Handled f') (owned : id ∈ f.ids) (left : id ∉ f'.ids) :
    f.Loses id f' := by
  cases h with
  | stored s => exact absurd owned left
  | added c => exact absurd (mem_ids_add.2 (.inl owned)) left
  | addedOccupation c =>
    refine absurd ?_ left
    simp only [ids, copies, addOccupation, List.map_append, List.mem_append] at owned ⊢
    exact owned.imp_left .inl
  | addedImprovement c =>
    refine absurd ?_ left
    simp only [ids, copies, addImprovement, List.map_append, List.mem_append] at owned ⊢
    exact owned.imp_right .inl
  | reset =>
    have same : f.resetUses.ids = f.ids := by
      simp [ids, copies, resetUses, Function.comp_def, Copy.resetUses]
    exact absurd (same ▸ owned) left
  | @returned i c back d s hlend =>
    have count := count_ids_of_lend? hlend d s id
    rw [List.count_eq_zero.2 left] at count
    have some_owned := List.count_pos_iff.2 owned
    obtain rfl : i = id := by
      by_contra ne
      rw [if_neg ne] at count
      omega
    have other : d.id ≠ i := fun eq => by
      rw [if_pos eq] at count
      omega
    rw [if_pos rfl, if_neg other] at count
    exact .exchanged d s hlend (by omega) other
  | overwritten seat => exact .overwritten seat owned

theorem Handled.loses_iff (h : f.Handled f') :
    f.Loses id f' ↔ id ∈ f.ids ∧ id ∉ f'.ids :=
  ⟨Loses.left, fun ⟨owned, left⟩ => h.loses owned left⟩

end Farm

namespace Registry

variable {r : Registry} {farms : Seating Farm} {seat other : Seat} {id i : CopyId}

theorem Tidy.register (h : r.Tidy) (farms : Seating Farm) (seat : Seat) (id : CopyId) :
    (r.register farms seat id).Tidy := by
  rw [Registry.register]
  cases hr : r.register? farms seat id with
  | none => exact h
  | some r' => exact h.register? hr

/-- Registering a copy adds nothing but an owned copy. -/
theorem mem_copiesOf_register (h : id ∈ (r.register farms other i).copiesOf seat) :
    id ∈ r.copiesOf seat ∨ ∃ f, farms.get? seat = some f ∧ f.owns id := by
  rw [register] at h
  cases hr : r.register? farms other i with
  | none =>
    rw [hr] at h
    exact .inl h
  | some r' =>
    rw [hr, Option.getD_some, copiesOf_register? hr] at h
    split at h
    · rename_i eq
      subst eq
      rw [List.mem_append, List.mem_singleton] at h
      refine h.imp_right ?_
      rintro rfl
      exact (register?_eq_some_iff.1 hr).1
    · exact .inl h

end Registry

namespace Game

/-- A copy is registered for a seat that does not own it. -/
def Stray (g : Game) (seat : Seat) (id : CopyId) : Prop :=
  id ∈ g.registry.copiesOf seat ∧ id ∉ g.idsOf seat

variable {setup : Setup} {log : List Deed} {g g' : Game} {seat : Seat} {id : CopyId} {f f' : Farm}
  {move : Move} {turn : Turn}

/-! ## Moves -/

theorem Dispatches.tidy {events : List (Seat × Event)} {reports : List Report}
    (tidy : g.registry.Tidy) (h : Dispatches events g g' reports) : g'.registry.Tidy := by
  rw [Registry.Tidy, h.frame.2.2.2.2]
  exact tidy

theorem Steps.tidy (tidy : g.registry.Tidy) (h : g.Steps move g' turn) : g'.registry.Tidy := by
  cases h with
  | refused | cooked => exact tidy
  | played hplays =>
    cases hplays with
    | played => exact tidy.register ..
  | discarded => exact tidy.unregister ..
  | discardedAll => exact tidy.unregisterSeat _
  | dispatched _ hd => exact hd.tidy tidy
  | @roundBegun round _ _ _ hd =>
    have begun : (g.begun round).registry.Tidy := tidy
    exact hd.tidy begun
  | cleared => exact Registry.tidy_new _
  | rebuilt => exact (registerEach_spec tidy).1

/-- Where a seat's copies and registrations are the same, so are its strays. -/
theorem Stray.congr (ids : g'.idsOf seat = g.idsOf seat)
    (copies : g'.registry.copiesOf seat = g.registry.copiesOf seat) (h : g'.Stray seat id) :
    g.Stray seat id := by
  rw [Stray, ids, copies] at h
  exact h

/-- A play registers nothing but the copy that it adds. -/
theorem Stray.of_played {place : Seat} {card : Card} {registry : Registry} {farms : Seating Farm}
    {p : Played} {next : Count}
    (hplays : g.registry.Plays g.farms place card ⟨g.nextCopy⟩ (.ok (registry, farms, p)))
    (h : Stray { g with farms := farms, registry := registry, nextCopy := next } seat id) :
    g.Stray seat id := by
  obtain ⟨registered, unowned⟩ := h
  cases hplays with
  | @played f f' p hf _ _ hplay =>
    rcases Registry.mem_copiesOf_register registered with registered | ⟨f₁, hf₁, owned⟩
    · refine ⟨registered, fun old => unowned ?_⟩
      rw [idsOf_set hf rfl]
      split
      · rename_i eq
        subst eq
        exact hplay.ids_perm.mem_iff.2 (List.mem_append_left _ (idsOf_eq hf ▸ old))
      · exact old
    · exact (unowned (mem_idsOf.2 ⟨f₁, hf₁, Farm.owns_iff.1 owned⟩)).elim

/-- A discard ends the registration of the copy that it takes. -/
theorem Stray.of_discarded {place : Seat} {i : CopyId} {c : Copy} (tidy : g.registry.Tidy)
    (hf : g.farm? place = some f) (hremove : f.remove? i = some (c, f'))
    (h : Stray { g.withFarm place f' with registry := g.registry.unregister place i } seat id) :
    g.Stray seat id := by
  obtain ⟨registered, unowned⟩ := h
  change id ∈ (g.registry.unregister _ _).copiesOf seat at registered
  rw [tidy.copiesOf_unregister] at registered
  rw [InOrder.idsOf_discard hf hremove rfl] at unowned
  split at registered
  · rename_i eq
    subst eq
    rw [(tidy.copiesOf_nodup _).mem_erase_iff] at registered
    rw [if_pos rfl, List.mem_erase_of_ne registered.1] at unowned
    exact ⟨registered.2, unowned⟩
  · rename_i ne
    rw [if_neg ne] at unowned
    exact ⟨registered, unowned⟩

theorem Stray.of_discardedAll {place : Seat} (hf : g.farm? place = some f)
    (h : Stray { g.withFarm place f.removeAll.2 with
      registry := g.registry.unregisterSeat place } seat id) : g.Stray seat id := by
  obtain ⟨registered, unowned⟩ := h
  change id ∈ (g.registry.unregisterSeat _).copiesOf seat at registered
  rw [Registry.copiesOf_unregisterSeat] at registered
  rw [InOrder.idsOf_discardAll hf rfl] at unowned
  split at registered
  · cases registered
  · rename_i ne
    rw [if_neg ne] at unowned
    exact ⟨registered, unowned⟩

/-- A rebuilding registers owned copies only. -/
theorem Stray.of_rebuilt (tidy : g.registry.Tidy) (h : g.rebuildRegistry.1.Stray seat id) :
    g.Stray seat id := by
  obtain ⟨registered, unowned⟩ := h
  rcases (registerEach_spec tidy).2.1 registered with old | ⟨-, f, hf, owned⟩
  · exact ⟨old, unowned⟩
  · exact (unowned (mem_idsOf.2 ⟨f, hf, Farm.owns_iff.1 owned⟩)).elim

/-- No move makes a stray. -/
theorem Steps.stray (tidy : g.registry.Tidy) (h : g.Steps move g' turn)
    (stray : g'.Stray seat id) : g.Stray seat id := by
  cases h with
  | refused => exact stray
  | played hplays => exact stray.of_played hplays
  | discarded hf hremove => exact stray.of_discarded tidy hf hremove
  | discardedAll hf => exact stray.of_discardedAll hf
  | cooked hf hcook =>
    exact stray.congr (idsOf_congr (sameCards_withFarm hf (sameCards_cook hcook)) seat) rfl
  | dispatched _ hd => exact stray.congr (idsOf_congr hd.sameCards seat) (hd.copiesOf seat)
  | @roundBegun round _ _ _ hd =>
    have begun : (g.begun round).idsOf seat = g.idsOf seat :=
      idsOf_congr (sameCards_begun g round) seat
    exact stray.congr ((idsOf_congr hd.sameCards seat).trans begun) (hd.copiesOf seat)
  | cleared => cases stray.1
  | rebuilt => exact stray.of_rebuilt tidy

/-! ## Whole games -/

namespace Chronicle

theorem tidy {allowed : Farm → Farm → Prop} (h : Chronicle allowed setup log g) :
    g.registry.Tidy := by
  induction h with
  | start hstart => exact (of_start hstart).2.1 ▸ Registry.tidy_new _
  | move _ hstep ih => exact (Steps.of_step hstep).tidy ih
  | change _ _ _ ih => exact ih

/-- A copy that is a stray was registered when its farm lost it. -/
theorem lost_of_stray (h : Chronicle Farm.Handled setup log g) (stray : g.Stray seat id) :
    Lost log seat id := by
  induction h with
  | start hstart =>
    rw [Stray, (of_start hstart).2.1] at stray
    cases stray.1
  | move hlog hstep ih => exact (ih ((Steps.of_step hstep).stray hlog.tidy stray)).concat _
  | @change log g place f f' _ hf handled ih =>
    obtain ⟨registered, unowned⟩ := stray
    by_cases old : id ∈ g.idsOf seat
    · rw [idsOf_set hf rfl] at unowned
      split at unowned
      · rename_i eq
        subst eq
        have loses := handled.loses_iff.2 ⟨idsOf_eq hf ▸ old, unowned⟩
        exact ⟨g, f, f', by simp, loses, registered⟩
      · exact absurd old unowned
    · exact (ih ⟨registered, old⟩).concat _

/-- Where farms are handled from outside, a copy that is registered for a seat that does not own it
was registered when that seat's farm was overwritten, or when its only copy of the identifier was
exchanged for one of another. Unless that happened, the seat has no more copies registered than it
owns. But any such loss of a registered copy can happen, and leaves its registration without an
owner. -/
theorem strays (h : Chronicle Farm.Handled setup log g) :
    (∀ seat id, g.Stray seat id → Lost log seat id) ∧
      (∀ seat f, g.farm? seat = some f → (∀ id, ¬Lost log seat id) →
        (∀ id ∈ g.registry.copiesOf seat, f.owns id) ∧ g.registry.countOf seat ≤ f.size) ∧
      ∀ seat f f' id, g.farm? seat = some f → f.Loses id f' → id ∈ g.registry.copiesOf seat →
        Chronicle Farm.Handled setup (log ++ [.change g seat f f']) (g.withFarm seat f') ∧
          (g.withFarm seat f').Stray seat id := by
  refine ⟨fun _ _ => h.lost_of_stray, fun seat f hf kept => ?_,
    fun seat f f' id hf loses registered => ?_⟩
  · have owned : g.registry.copiesOf seat ⊆ f.ids := fun id hid => by
      by_contra unowned
      exact kept id (h.lost_of_stray ⟨hid, idsOf_eq hf ▸ unowned⟩)
    refine ⟨fun id hid => Farm.owns_iff.2 (owned hid), ?_⟩
    calc g.registry.countOf seat
        ≤ f.ids.length := (List.subperm_of_subset (h.tidy.copiesOf_nodup seat) owned).length_le
      _ = f.size := by simp [Farm.ids, Farm.copies, Farm.size]
  · refine ⟨h.change hf loses.handled, registered, ?_⟩
    rw [idsOf_set hf rfl, if_pos rfl]
    exact loses.left.2

/-- A seat plays a card and owns what is registered for it. Then its farm is overwritten, or the
card is exchanged for a well of number 5: it owns no copy of number 1, which is still registered. -/
theorem strays_lost :
    (∃ log g f, Chronicle Farm.Handled ⟨1, .strict, .empty, 2, 2⟩ log g ∧
      g.farm? ⟨0⟩ = some f ∧ g.registry.countOf ⟨0⟩ = 1 ∧ f.owns ⟨1⟩) ∧
    (∃ log g f, Chronicle Farm.Handled ⟨1, .strict, .empty, 2, 2⟩ log g ∧
      g.farm? ⟨0⟩ = some f ∧ f.size = 0 ∧ g.Stray ⟨0⟩ ⟨1⟩ ∧ Lost log ⟨0⟩ ⟨1⟩) ∧
    ∃ log g f, Chronicle Farm.Handled ⟨1, .strict, .empty, 2, 2⟩ log g ∧
      g.farm? ⟨0⟩ = some f ∧ f.size = 1 ∧ g.Stray ⟨0⟩ ⟨1⟩ ∧ Lost log ⟨0⟩ ⟨1⟩ := by
  have started : Chronicle Farm.Handled ⟨1, .strict, .empty, 2, 2⟩ [] _ := .start rfl
  have played := started.move (rfl : step _ (.play ⟨0⟩ Deck.woodCutter) = .ok (_, _))
  obtain ⟨-, kept, losing⟩ := played.strays
  refine ⟨⟨_, _, _, played, rfl, rfl, ?_⟩, ?_, ?_⟩
  · refine (kept ⟨0⟩ _ rfl fun id => ?_).1 ⟨1⟩ (by decide)
    rintro ⟨before, f, f', hchange, -⟩
    cases List.mem_singleton.1 hchange
  · obtain ⟨overwritten, stray⟩ :=
      losing ⟨0⟩ _ _ ⟨1⟩ rfl (.overwritten ⟨0⟩ (by decide)) (by decide)
    exact ⟨_, _, _, overwritten, rfl, rfl, stray, overwritten.strays.1 _ _ stray⟩
  · obtain ⟨exchanged, stray⟩ := losing ⟨0⟩ _ _ ⟨1⟩ rfl
      (.exchanged (.new ⟨5⟩ Deck.well) .empty rfl (by decide) (by decide)) (by decide)
    exact ⟨_, _, _, exchanged, rfl, rfl, stray, exchanged.strays.1 _ _ stray⟩

/-- Strays are possible, and with them more registrations than owned copies. -/
theorem strays_possible :
    (¬∀ {setup log g}, Chronicle Farm.Handled setup log g → ∀ seat id, ¬g.Stray seat id) ∧
      ¬∀ {setup log g}, Chronicle Farm.Handled setup log g → ∀ seat f, g.farm? seat = some f →
        g.registry.countOf seat ≤ f.size := by
  have started : Chronicle Farm.Handled ⟨1, .strict, .empty, 2, 2⟩ [] _ := .start rfl
  have played := started.move (rfl : step _ (.play ⟨0⟩ Deck.woodCutter) = .ok (_, _))
  have overwritten := played.change (rfl : farm? _ ⟨0⟩ = some _) (.overwritten ⟨0⟩)
  refine ⟨fun none => none overwritten ⟨0⟩ ⟨1⟩ ⟨by decide, by decide⟩, fun bounded => ?_⟩
  exact absurd (bounded overwritten ⟨0⟩ _ rfl) (by decide)

end Chronicle

end Game

end Homestead
