import Homestead.Deck
import Homestead.Proofs.Game.History

/-!
# Who owns and who is registered

In a reachable game the copies are *in order* (`Game.InOrder`): no identifier is owned twice, all
were handed out before, and what is registered for a seat the seat owns. Every move and every edit
that keeps the cards of a farm keeps this (`History.inOrder`), and it is what makes the next
identifier free, so that a play registers its copy at the end of the seat's list
(`InOrder.of_plays`).

The registry may lag behind after it was cleared. From a rebuilding on, or from the start, it is
*in step* with the farms (`History.inStep`).
-/

namespace Homestead

/-- The copy that was played in a turn, if a card was. -/
def Turn.copy? : Turn → Option CopyId
  | played p => some p.copy
  | _ => none

namespace Game

/-- The identifiers of the copies that a seat owns, in collection order. -/
def idsOf (g : Game) (seat : Seat) : List CopyId := ((g.farm? seat).map Farm.ids).getD []

/-- No copy is owned twice or has an identifier that was not handed out, and only owned copies are
registered. -/
structure InOrder (g : Game) : Prop where
  ids_nodup : ∀ seat, (g.idsOf seat).Nodup
  one_owner : ∀ {a b id}, id ∈ g.idsOf a → id ∈ g.idsOf b → a = b
  pos : ∀ {seat id}, id ∈ g.idsOf seat → 1 ≤ id.number.toNat
  lt_next : ∀ {seat id}, id ∈ g.idsOf seat → id.number.toNat < g.nextCopy.toNat
  next_pos : 1 ≤ g.nextCopy.toNat
  tidy : g.registry.Tidy
  owned : ∀ {seat id}, id ∈ g.registry.copiesOf seat → id ∈ g.idsOf seat

/-- Every owned copy is registered. -/
def InStep (g : Game) : Prop := ∀ seat id, id ∈ g.idsOf seat → id ∈ g.registry.copiesOf seat

variable {g g' : Game} {seat other : Seat} {id : CopyId} {f f' : Farm} {setup : Setup}
  {move : Move} {turn : Turn}

/-! ## Owned identifiers -/

theorem idsOf_eq (h : g.farm? seat = some f) : g.idsOf seat = f.ids := by rw [idsOf, h]; rfl

theorem mem_idsOf : id ∈ g.idsOf seat ↔ ∃ f, g.farm? seat = some f ∧ id ∈ f.ids := by
  rw [idsOf]
  cases g.farm? seat <;> simp

theorem idsOf_set (h : g.farm? seat = some f) (hfarms : g'.farms = g.farms.set seat f')
    (other : Seat) : g'.idsOf other = if seat = other then f'.ids else g.idsOf other := by
  rw [idsOf, farm?, hfarms]
  by_cases eq : seat = other
  · subst eq
    rw [if_pos rfl, Seating.get?_set_self h]
    rfl
  · rw [if_neg eq, Seating.get?_set_ne eq]
    rfl

theorem idsOf_congr (h : Seating.Related Farm.SameCards g.farms g'.farms) (seat : Seat) :
    g'.idsOf seat = g.idsOf seat := by
  have h := h seat
  unfold idsOf farm?
  generalize g.farms.get? seat = x, g'.farms.get? seat = y at h ⊢
  cases h with
  | none => rfl
  | some same => exact same.ids

theorem mem_owned : (seat, id) ∈ g.owned ↔ id ∈ g.idsOf seat := by
  simp only [owned, List.mem_flatMap, List.mem_map, Prod.exists, Prod.mk.injEq, mem_idsOf]
  constructor
  · rintro ⟨place, f, hf, c, hc, rfl, rfl⟩
    exact ⟨f, Seating.mem_entries.1 hf, List.mem_map_of_mem hc⟩
  · rintro ⟨f, hf, hid⟩
    obtain ⟨c, hc, rfl⟩ := List.mem_map.1 hid
    exact ⟨seat, f, Seating.mem_entries.2 hf, c, hc, rfl, rfl⟩

/-- The owned identifiers of all seats together, where none is owned twice. -/
theorem InOrder.owned_nodup (h : g.InOrder) : (g.owned.map Prod.snd).Nodup := by
  have hentries := List.Nodup.of_map Prod.fst g.farms.entries_nodup
  have hmap : g.owned.map Prod.snd = g.farms.entries.flatMap fun e => e.2.ids := by
    simp [Game.owned, List.map_flatMap, Farm.ids, Function.comp_def]
  rw [hmap, List.nodup_flatMap]
  refine ⟨fun e he => ?_, hentries.imp_of_mem fun {a b} ha hb ne => ?_⟩
  · rw [← idsOf_eq (Seating.mem_entries.1 he)]
    exact h.ids_nodup e.1
  · refine List.disjoint_left.2 fun id hida hidb => ne ?_
    have ha : g.farm? a.1 = some a.2 := Seating.mem_entries.1 ha
    have hb : g.farm? b.1 = some b.2 := Seating.mem_entries.1 hb
    have hseat := h.one_owner (mem_idsOf.2 ⟨a.2, ha, hida⟩) (mem_idsOf.2 ⟨b.2, hb, hidb⟩)
    rw [hseat] at ha
    exact Prod.ext hseat (Option.some.inj (ha.symm.trans hb))

/-! ## Operations -/

namespace InOrder

/-- The order depends on the owned identifiers, the next one and the registered copies alone. -/
theorem congr (h : g.InOrder) (ids : ∀ seat, g'.idsOf seat = g.idsOf seat)
    (next : g'.nextCopy = g.nextCopy) (listed : g'.registry.listed = g.registry.listed) :
    g'.InOrder where
  ids_nodup seat := ids seat ▸ h.ids_nodup seat
  one_owner ha hb := h.one_owner (ids _ ▸ ha) (ids _ ▸ hb)
  pos hid := h.pos (ids _ ▸ hid)
  lt_next hid := next ▸ h.lt_next (ids _ ▸ hid)
  next_pos := next ▸ h.next_pos
  tidy := by rw [Registry.Tidy, listed]; exact h.tidy
  owned {seat id} hid := by
    rw [Registry.copiesOf, listed] at hid
    exact ids seat ▸ h.owned hid

/-- The next identifier is not owned by anyone. -/
theorem next_fresh (h : g.InOrder) (seat : Seat) : (⟨g.nextCopy⟩ : CopyId) ∉ g.idsOf seat :=
  fun hid => (h.lt_next hid).false

/-- A play numbers its copy with the next identifier and registers it after the seat's others. -/
theorem of_plays {card : Card} {registry : Registry} {farms : Seating Farm} {p : Played}
    (h : g.InOrder)
    (hplays : g.registry.Plays g.farms seat card ⟨g.nextCopy⟩ (.ok (registry, farms, p))) :
    ∃ f f', g.farm? seat = some f ∧ farms = g.farms.set seat f' ∧
      f.PlaysOut seat card ⟨g.nextCopy⟩ g.registry.policy f' p ∧
      g.registry.register? farms seat ⟨g.nextCopy⟩ = some registry := by
  cases hplays with
  | @played f f' p hf _ _ hplay =>
    refine ⟨f, f', hf, rfl, hplay, ?_⟩
    have hids : (⟨g.nextCopy⟩ : CopyId) ∈ f'.ids := by
      rw [hplay.ids_perm.mem_iff]
      simp
    have hnew : (⟨g.nextCopy⟩ : CopyId) ∉ g.registry.copiesOf seat :=
      fun hid => h.next_fresh seat (h.owned hid)
    have hregister := Registry.register?_eq_some_iff.2
      ⟨⟨f', Seating.get?_set_self hf f', Farm.owns_iff.2 hids⟩, hnew, rfl⟩
    rw [Registry.register, hregister]
    rfl

/-- Handing the next identifier out to a seat and registering it keeps the order. -/
theorem grow {farms : Seating Farm} (h : g.InOrder)
    (hids : ∀ {other id}, id ∈ g'.idsOf other ↔
      id ∈ g.idsOf other ∨ seat = other ∧ id = ⟨g.nextCopy⟩)
    (hnodup : ∀ other, (g'.idsOf other).Nodup)
    (hnext : g'.nextCopy.toNat = g.nextCopy.toNat + 1)
    (hregister : g.registry.register? farms seat ⟨g.nextCopy⟩ = some g'.registry) :
    g'.InOrder where
  ids_nodup := hnodup
  one_owner ha hb := by
    rcases hids.1 ha with ha | ⟨rfl, rfl⟩ <;> rcases hids.1 hb with hb | ⟨hb, eq⟩
    · exact h.one_owner ha hb
    · exact absurd (eq ▸ ha) (h.next_fresh _)
    · exact absurd hb (h.next_fresh _)
    · exact hb
  pos hid := by
    rcases hids.1 hid with hid | ⟨-, rfl⟩
    · exact h.pos hid
    · exact h.next_pos
  lt_next hid := by
    rw [hnext]
    rcases hids.1 hid with hid | ⟨-, rfl⟩
    · exact (h.lt_next hid).trans (Nat.lt_succ_self _)
    · exact Nat.lt_succ_self _
  next_pos := by
    rw [hnext]
    exact Nat.le_add_left 1 _
  tidy := h.tidy.register? hregister
  owned hid := by
    rw [Registry.copiesOf_register? hregister] at hid
    refine hids.2 ?_
    split at hid
    · rename_i eq
      rw [List.mem_append, List.mem_singleton] at hid
      exact hid.imp (fun hid => eq ▸ h.owned hid) fun hid => ⟨eq, hid⟩
    · exact .inl (h.owned hid)

theorem play {card : Card} {registry : Registry} {farms : Seating Farm} {p : Played}
    {next : Count} (h : g.InOrder)
    (hplays : g.registry.Plays g.farms seat card ⟨g.nextCopy⟩ (.ok (registry, farms, p)))
    (hnext : g.nextCopy.plus 1 = .ok next) :
    InOrder { g with farms := farms, registry := registry, nextCopy := next } := by
  obtain ⟨f, f', hf, hfarms, hplay, hregister⟩ := h.of_plays hplays
  refine h.grow (fun {other id} => ?_) (fun other => ?_) (Count.plus_eq_ok_iff.1 hnext) hregister
  · rw [idsOf_set hf hfarms]
    split
    · rename_i eq
      subst eq
      rw [hplay.ids_perm.mem_iff, List.mem_append, List.mem_singleton, idsOf_eq hf]
      simp
    · rename_i ne
      simp [ne]
  · rw [idsOf_set hf hfarms]
    split
    · rw [hplay.ids_perm.nodup_iff, ← idsOf_eq hf]
      exact (h.ids_nodup seat).append (List.nodup_singleton _) (by simpa using h.next_fresh seat)
    · exact h.ids_nodup other

/-- Taking copies from a seat with their registrations keeps the order. -/
theorem shrink (h : g.InOrder) (hids : ∀ other, (g'.idsOf other).Sublist (g.idsOf other))
    (hnext : g'.nextCopy = g.nextCopy) (htidy : g'.registry.Tidy)
    (howned : ∀ {other id}, id ∈ g'.registry.copiesOf other → id ∈ g'.idsOf other) :
    g'.InOrder where
  ids_nodup other := (h.ids_nodup other).sublist (hids other)
  one_owner ha hb := h.one_owner ((hids _).subset ha) ((hids _).subset hb)
  pos hid := h.pos ((hids _).subset hid)
  lt_next hid := hnext ▸ h.lt_next ((hids _).subset hid)
  next_pos := hnext ▸ h.next_pos
  tidy := htidy
  owned := howned

/-- The copies left registered after a discard, where identifiers do not repeat. -/
theorem mem_unregister (h : g.InOrder) {i : CopyId} :
    i ∈ (g.registry.unregister seat id).copiesOf other ↔
      i ∈ g.registry.copiesOf other ∧ ¬(seat = other ∧ i = id) := by
  rw [h.tidy.copiesOf_unregister]
  split
  · rename_i eq
    subst eq
    rw [(h.tidy.copiesOf_nodup seat).mem_erase_iff]
    simp [and_comm]
  · rename_i ne
    simp [ne]

theorem idsOf_discard {c : Copy} (hf : g.farm? seat = some f)
    (hremove : f.remove? id = some (c, f')) (hfarms : g'.farms = g.farms.set seat f')
    (other : Seat) :
    g'.idsOf other = if seat = other then (g.idsOf seat).erase id else g.idsOf other := by
  rw [idsOf_set hf hfarms, Farm.ids_of_remove? hremove, idsOf_eq hf]

/-- The copies left on the farms after a discard, where identifiers do not repeat. -/
theorem mem_discard (h : g.InOrder) {c : Copy} (hf : g.farm? seat = some f)
    (hremove : f.remove? id = some (c, f')) (hfarms : g'.farms = g.farms.set seat f') {i : CopyId} :
    i ∈ g'.idsOf other ↔ i ∈ g.idsOf other ∧ ¬(seat = other ∧ i = id) := by
  rw [idsOf_discard hf hremove hfarms]
  split
  · rename_i eq
    subst eq
    rw [(h.ids_nodup seat).mem_erase_iff]
    simp [and_comm]
  · rename_i ne
    simp [ne]

theorem discard {c : Copy} (h : g.InOrder) (hf : g.farm? seat = some f)
    (hremove : f.remove? id = some (c, f')) :
    InOrder { g.withFarm seat f' with registry := g.registry.unregister seat id } := by
  refine h.shrink (fun other => ?_) rfl (h.tidy.unregister seat id) fun {other i} hi => ?_
  · rw [idsOf_discard hf hremove rfl]
    split
    · rename_i eq
      subst eq
      exact List.erase_sublist
    · exact .refl _
  · obtain ⟨hi, ne⟩ := h.mem_unregister.1 hi
    exact (h.mem_discard hf hremove rfl).2 ⟨h.owned hi, ne⟩

theorem idsOf_discardAll (hf : g.farm? seat = some f)
    (hfarms : g'.farms = g.farms.set seat f.removeAll.2) (other : Seat) :
    g'.idsOf other = if seat = other then [] else g.idsOf other :=
  idsOf_set hf hfarms other

theorem discardAll (h : g.InOrder) (hf : g.farm? seat = some f) :
    InOrder
      { g.withFarm seat f.removeAll.2 with registry := g.registry.unregisterSeat seat } := by
  refine h.shrink (fun other => ?_) rfl (h.tidy.unregisterSeat seat) fun {other i} hi => ?_
  · rw [idsOf_discardAll hf rfl]
    split
    · exact List.nil_sublist _
    · exact .refl _
  · rw [idsOf_discardAll hf rfl]
    rw [Registry.copiesOf_unregisterSeat] at hi
    split
    · rename_i eq
      rwa [if_pos eq] at hi
    · rename_i ne
      rw [if_neg ne] at hi
      exact h.owned hi

end InOrder

/-! ## Rebuilding -/

/-- Registering a list keeps what was registered and adds what the list names of owned copies. -/
theorem registerEach_spec {farms : Seating Farm} {l : List (Seat × CopyId)} {r : Registry}
    (h : r.Tidy) :
    (registerEach farms l r).1.Tidy ∧ ∀ {seat id},
      id ∈ (registerEach farms l r).1.copiesOf seat ↔ id ∈ r.copiesOf seat ∨
        (seat, id) ∈ l ∧ ∃ f, farms.get? seat = some f ∧ f.owns id := by
  induction l generalizing r with
  | nil => exact ⟨h, by simp [registerEach]⟩
  | cons e rest ih =>
    obtain ⟨place, i⟩ := e
    rw [registerEach]
    cases hr : r.register? farms place i with
    | none =>
      obtain ⟨htidy, hmem⟩ := ih h
      refine ⟨htidy, fun {seat id} => ?_⟩
      rw [hmem, List.mem_cons, Prod.mk.injEq]
      constructor
      · exact Or.imp_right fun hrest => ⟨.inr hrest.1, hrest.2⟩
      · rintro (hid | ⟨⟨rfl, rfl⟩ | hrest, howned⟩)
        · exact .inl hid
        -- an owned copy that cannot be registered is registered already
        · by_contra hnew
          rw [not_or] at hnew
          cases hr.symm.trans (Registry.register?_eq_some_iff.2 ⟨howned, hnew.1, rfl⟩)
        · exact .inr ⟨hrest, howned⟩
    | some r' =>
      obtain ⟨howned, -, -⟩ := Registry.register?_eq_some_iff.1 hr
      obtain ⟨htidy, hmem⟩ := ih (h.register? hr)
      refine ⟨htidy, fun {seat id} => ?_⟩
      rw [hmem, Registry.copiesOf_register? hr, List.mem_cons, Prod.mk.injEq]
      by_cases eq : place = seat
      · subst eq
        rw [if_pos rfl, List.mem_append, List.mem_singleton]
        constructor
        · rintro ((hid | rfl) | hrest)
          · exact .inl hid
          · exact .inr ⟨.inl ⟨rfl, rfl⟩, howned⟩
          · exact .inr ⟨.inr hrest.1, hrest.2⟩
        · rintro (hid | ⟨⟨-, rfl⟩ | hrest, howned⟩)
          · exact .inl (.inl hid)
          · exact .inl (.inr rfl)
          · exact .inr ⟨hrest, howned⟩
      · rw [if_neg eq]
        simp [Ne.symm eq]

/-- After a rebuilding exactly the owned copies are registered, if only such were before. -/
theorem InOrder.mem_rebuildRegistry (h : g.InOrder) :
    id ∈ g.rebuildRegistry.1.registry.copiesOf seat ↔ id ∈ g.idsOf seat := by
  refine (registerEach_spec h.tidy).2.trans ⟨?_, fun hid => .inr ⟨mem_owned.2 hid, ?_⟩⟩
  · rintro (hid | ⟨hid, -⟩)
    · exact h.owned hid
    · exact mem_owned.1 hid
  · obtain ⟨f, hf, hid⟩ := mem_idsOf.1 hid
    exact ⟨f, hf, Farm.owns_iff.2 hid⟩

theorem InOrder.rebuild (h : g.InOrder) : g.rebuildRegistry.1.InOrder :=
  h.shrink (fun _ => .refl _) rfl (registerEach_spec h.tidy).1 fun hid =>
    h.mem_rebuildRegistry.1 hid

/-! ## Moves -/

theorem Dispatches.inOrder {events : List (Seat × Event)} {reports : List Report} (h : g.InOrder)
    (hd : Dispatches events g g' reports) : g'.InOrder :=
  h.congr (idsOf_congr hd.sameCards) hd.frame.2.2.1 hd.frame.2.2.2.2

theorem sameCards_withFarm (hf : g.farm? seat = some f) (same : f.SameCards f') :
    Seating.Related Farm.SameCards g.farms (g.withFarm seat f').farms :=
  .set .refl hf same

theorem sameCards_begun (g : Game) (round : Count) :
    Seating.Related Farm.SameCards g.farms (g.begun round).farms :=
  .map .startRound g.farms

theorem sameCards_cook {r : Resource} {n : Count} {food : Amount} (h : f.cook r n = (f', food)) :
    f.SameCards f' := by
  cases h
  exact ⟨rfl, rfl⟩

/-- Every move keeps the copies in order. -/
theorem Steps.inOrder (hg : g.InOrder) (h : g.Steps move g' turn) : g'.InOrder := by
  cases h with
  | refused => exact hg
  | played hplays hnext => exact hg.play hplays hnext
  | discarded hf hremove => exact hg.discard hf hremove
  | discardedAll hf => exact hg.discardAll hf
  | cooked hf hcook =>
    exact hg.congr (idsOf_congr (sameCards_withFarm hf (sameCards_cook hcook))) rfl rfl
  | dispatched _ hd => exact hd.inOrder hg
  | roundBegun _ hd => exact hd.inOrder (hg.congr (idsOf_congr (sameCards_begun g _)) rfl rfl)
  | cleared =>
    refine hg.shrink (fun _ => .refl _) rfl (Registry.tidy_new _) fun {other id} hid => ?_
    change id ∈ g.registry.clear.copiesOf other at hid
    rw [Registry.copiesOf_clear] at hid
    cases hid
  | rebuilt => exact hg.rebuild

theorem InStep.congr (h : g.InStep) (ids : ∀ seat, g'.idsOf seat = g.idsOf seat)
    (copies : ∀ seat, g'.registry.copiesOf seat = g.registry.copiesOf seat) : g'.InStep :=
  fun seat id hid => copies seat ▸ h seat id (ids seat ▸ hid)

theorem InStep.play {card : Card} {registry : Registry} {farms : Seating Farm} {p : Played}
    {next : Count} (hs : g.InStep) (hg : g.InOrder)
    (hplays : g.registry.Plays g.farms seat card ⟨g.nextCopy⟩ (.ok (registry, farms, p))) :
    InStep { g with farms := farms, registry := registry, nextCopy := next } := by
  intro other id hid
  obtain ⟨f, f', hf, hfarms, hplay, hregister⟩ := hg.of_plays hplays
  rw [idsOf_set hf hfarms] at hid
  change id ∈ registry.copiesOf other
  rw [Registry.copiesOf_register? hregister]
  split
  · rename_i eq
    subst eq
    rw [if_pos rfl, hplay.ids_perm.mem_iff, List.mem_append, ← idsOf_eq hf] at hid
    exact List.mem_append.2 (hid.imp_left (hs _ _))
  · rename_i ne
    rw [if_neg ne] at hid
    exact hs other id hid

theorem InStep.discardAll (hs : g.InStep) (hf : g.farm? seat = some f) :
    InStep
      { g.withFarm seat f.removeAll.2 with registry := g.registry.unregisterSeat seat } := by
  intro other id hid
  rw [InOrder.idsOf_discardAll hf rfl] at hid
  change id ∈ (g.registry.unregisterSeat seat).copiesOf other
  rw [Registry.copiesOf_unregisterSeat]
  split
  · rename_i eq
    rw [if_pos eq] at hid
    cases hid
  · rename_i ne
    rw [if_neg ne] at hid
    exact hs other id hid

/-- Every move but the clearing of the registry keeps it in step. -/
theorem Steps.inStep (hg : g.InOrder) (hs : g.InStep) (h : g.Steps move g' turn)
    (kept : move ≠ .clearRegistry) : g'.InStep := by
  cases h with
  | refused => exact hs
  | played hplays => exact hs.play hg hplays
  | discarded hf hremove =>
    intro other id hid
    obtain ⟨hid, ne⟩ := (hg.mem_discard hf hremove rfl).1 hid
    exact hg.mem_unregister.2 ⟨hs other id hid, ne⟩
  | discardedAll hf => exact hs.discardAll hf
  | cooked hf hcook =>
    exact hs.congr (idsOf_congr (sameCards_withFarm hf (sameCards_cook hcook))) fun _ => rfl
  | dispatched _ hd => exact hs.congr (idsOf_congr hd.sameCards) hd.copiesOf
  | @roundBegun round _ _ _ hd =>
    have hbegun : (g.begun round).InStep :=
      hs.congr (idsOf_congr (sameCards_begun g round)) fun _ => rfl
    exact hbegun.congr (idsOf_congr hd.sameCards) hd.copiesOf
  | cleared => exact absurd rfl kept
  | rebuilt => exact fun _ _ hid => hg.mem_rebuildRegistry.2 hid

/-- A move plays a copy of the next number and passes to the number after it, or does neither. -/
theorem Steps.next (h : g.Steps move g' turn) :
    turn.copy? = none ∧ g'.nextCopy = g.nextCopy ∨
      turn.copy? = some ⟨g.nextCopy⟩ ∧ g'.nextCopy.toNat = g.nextCopy.toNat + 1 := by
  cases h with
  | @played seat card registry farms p next hplays hnext =>
    refine .inr ⟨?_, Count.plus_eq_ok_iff.1 hnext⟩
    cases hplays with
    | played _ _ _ hplay => exact congrArg some hplay.copy_eq
  | dispatched _ hd => exact .inl ⟨rfl, hd.frame.2.2.1⟩
  | roundBegun _ hd => exact .inl ⟨rfl, hd.frame.2.2.1⟩
  | _ => exact .inl ⟨rfl, rfl⟩

theorem Steps.nextCopy_le (h : g.Steps move g' turn) : g.nextCopy.toNat ≤ g'.nextCopy.toNat := by
  rcases h.next with ⟨-, hnext⟩ | ⟨-, hnext⟩
  · rw [hnext]
  · rw [hnext]
    exact Nat.le_succ _

end Game

/-! ## Histories -/

/-- The copy that was played, if a card was. -/
def Entry.copy? : Entry → Option CopyId
  | .move _ _ turn => turn.copy?
  | .edit _ => none

/-- The identifiers of the copies that were played, oldest first. -/
def playedCopies (log : List Entry) : List CopyId := log.filterMap Entry.copy?

/-- The registry was not cleared since the start or since some rebuilding. -/
inductive Unbroken : List Entry → Prop
  | start : Unbroken []
  | rebuilt {log g turn} : Unbroken (log ++ [.move g .rebuildRegistry turn])
  | next {log e} : Unbroken log → (∀ g turn, e ≠ .move g .clearRegistry turn) →
    Unbroken (log ++ [e])

theorem Unbroken.last {log : List Entry} {e : Entry} (h : Unbroken (log ++ [e])) :
    (∃ g turn, e = .move g .rebuildRegistry turn) ∨
      Unbroken log ∧ ∀ g turn, e ≠ .move g .clearRegistry turn := by
  generalize hl : log ++ [e] = l at h
  cases h with
  | start => simp at hl
  | rebuilt =>
    obtain ⟨-, he⟩ := List.append_inj' hl rfl
    exact .inl ⟨_, _, List.singleton_inj.1 he⟩
  | next hlog ne =>
    obtain ⟨rfl, he⟩ := List.append_inj' hl rfl
    cases List.singleton_inj.1 he
    exact .inr ⟨hlog, ne⟩

namespace Game.History

variable {g : Game} {log : List Entry} {setup : Setup}

/-- The copies of a reachable game are in order. -/
theorem inOrder (h : History Farm.SameCards setup log g) : g.InOrder := by
  induction h with
  | @start g hstart =>
    obtain ⟨hcopies, hregistry, hnext⟩ := of_start hstart
    have hids : ∀ seat, g.idsOf seat = [] := fun seat => by
      rw [idsOf]
      cases hf : g.farm? seat with
      | none => rfl
      | some f => simp [Farm.ids, hcopies hf]
    exact {
      ids_nodup := by simp [hids]
      one_owner := by simp [hids]
      pos := by simp [hids]
      lt_next := by simp [hids]
      next_pos := by simp [hnext]
      tidy := hregistry ▸ Registry.tidy_new _
      owned := by simp [hregistry, Registry.copiesOf, Registry.new] }
  | move _ hstep ih => exact (Steps.of_step hstep).inOrder ih
  | edit _ hf same ih => exact ih.congr (idsOf_congr (sameCards_withFarm hf same)) rfl rfl

/-- Plays number their copies from one on without a gap. -/
theorem playedCopies_eq {allowed : Farm → Farm → Prop} (h : History allowed setup log g) :
    g.nextCopy.toNat = (playedCopies log).length + 1 ∧
      (playedCopies log).map (·.number.toNat) = List.range' 1 (playedCopies log).length := by
  induction h with
  | start hstart => simp [(of_start hstart).2.2, playedCopies]
  | @move log g m g' turn _ hstep ih =>
    obtain ⟨hnext, hplayed⟩ := ih
    rcases (Steps.of_step hstep).next with ⟨hcopy, hnext'⟩ | ⟨hcopy, hnext'⟩
    · have hlog : playedCopies (log ++ [.move g m turn]) = playedCopies log := by
        simp [playedCopies, Entry.copy?, hcopy]
      rw [hlog, hnext']
      exact ⟨hnext, hplayed⟩
    · have hlog : playedCopies (log ++ [.move g m turn]) = playedCopies log ++ [⟨g.nextCopy⟩] := by
        simp [playedCopies, Entry.copy?, hcopy]
      rw [hlog, List.map_append, hplayed, hnext', hnext, List.length_append, List.length_singleton,
        List.range'_1_concat]
      exact ⟨rfl, by simp [hnext, Nat.add_comm]⟩
  | @edit log g seat f f' _ _ _ ih =>
    have hlog : playedCopies (log ++ [.edit seat]) = playedCopies log := by
      simp [playedCopies, Entry.copy?]
    rw [hlog]
    exact ih

/-- The registry of a reachable game is in step unless it was cleared and not rebuilt since. -/
theorem inStep (h : History Farm.SameCards setup log g) (unbroken : Unbroken log) : g.InStep := by
  induction h with
  | start hstart =>
    intro seat id hid
    obtain ⟨f, hf, hid⟩ := mem_idsOf.1 hid
    simp [Farm.ids, (of_start hstart).1 hf] at hid
  | @move log g m g' turn hlog hstep ih =>
    have hsteps := Steps.of_step hstep
    rcases unbroken.last with ⟨_, _, he⟩ | ⟨hunbroken, ne⟩
    · cases he
      cases Checked.pure_eq_ok.1 hstep
      exact fun _ _ hid => hlog.inOrder.mem_rebuildRegistry.2 hid
    · refine hsteps.inStep hlog.inOrder (ih hunbroken) ?_
      rintro rfl
      exact ne _ _ rfl
  | edit _ hf same ih =>
    rcases unbroken.last with ⟨_, _, he⟩ | ⟨hunbroken, -⟩
    · cases he
    · exact (ih hunbroken).congr (idsOf_congr (sameCards_withFarm hf same)) fun _ => rfl

/-- Ownership and registration over a whole game. The owned identifiers of all farms differ, lie
below the next one, and were handed out in order. What is registered is owned, each copy once; and
where no clearing of the registry is left to be repaired, what is owned is registered. -/
theorem ownership (h : History Farm.SameCards setup log g) :
    (g.owned.map Prod.snd).Nodup ∧
      (∀ seat id, (seat, id) ∈ g.owned →
        1 ≤ id.number.toNat ∧ id.number.toNat < g.nextCopy.toNat) ∧
      (playedCopies log).map (·.number.toNat) = List.range' 1 (playedCopies log).length ∧
      (∀ seat, (g.registry.copiesOf seat).Nodup ∧
        ∀ id ∈ g.registry.copiesOf seat, (seat, id) ∈ g.owned) ∧
      (Unbroken log → ∀ seat id, id ∈ g.registry.copiesOf seat ↔ (seat, id) ∈ g.owned) := by
  have hg := h.inOrder
  refine ⟨hg.owned_nodup, fun seat id hid => ?_, h.playedCopies_eq.2, fun seat => ?_,
    fun unbroken seat id => ?_⟩
  · have hid := mem_owned.1 hid
    exact ⟨hg.pos hid, hg.lt_next hid⟩
  · exact ⟨hg.tidy.copiesOf_nodup seat, fun id hid => mem_owned.2 (hg.owned hid)⟩
  · rw [mem_owned]
    exact ⟨hg.owned, h.inStep unbroken seat id⟩

/-- A seat plays two cards and discards the second; the registry is cleared and rebuilt. -/
theorem ownership_rebuilt :
    ∃ log g, History Farm.SameCards ⟨2, .strict, .empty, 2, 2⟩ log g ∧
      playedCopies log = [⟨1⟩, ⟨2⟩] ∧ g.owned = [(⟨0⟩, ⟨1⟩)] ∧
      (playedCopies log).map (·.number.toNat) = List.range' 1 2 ∧
      ∀ seat id, id ∈ g.registry.copiesOf seat ↔ (seat, id) ∈ g.owned := by
  have started : History Farm.SameCards ⟨2, .strict, .empty, 2, 2⟩ [] _ := .start rfl
  have played := started.move (rfl : step _ (.play ⟨0⟩ Deck.woodCutter) = .ok (_, _))
  have again := played.move (rfl : step _ (.play ⟨0⟩ Deck.seasonalWorker) = .ok (_, _))
  have discarded := again.move (rfl : step _ (.discard ⟨0⟩ ⟨2⟩) = .ok (_, _))
  have cleared := discarded.move (rfl : step _ .clearRegistry = .ok (_, _))
  have rebuilt := cleared.move (rfl : step _ .rebuildRegistry = .ok (_, _))
  obtain ⟨-, -, hplayed, -, hstep⟩ := ownership rebuilt
  exact ⟨_, _, rebuilt, rfl, rfl, hplayed, hstep .rebuilt⟩

end Game.History

end Homestead
