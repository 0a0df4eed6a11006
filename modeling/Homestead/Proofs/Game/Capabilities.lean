import Homestead.Deck
import Homestead.Proofs.Capabilities
import Homestead.Proofs.Game.History

/-!
# What a seat can cook and keep

The kitchens, ratios and capacities of a farm are those that the cards declare which its seat has
played, also those it owns no more. A play installs its card (`Game.Steps.capabilities`), whether or
not the effects of the moment of play were applied; no other move touches a capability.
-/

namespace Homestead

/-- The card that a seat played, if the move was a play of the seat and went through. -/
def Entry.playedBy? (seat : Seat) : Entry → Option Card
  | move _ (.play place card) (.played _) => if place = seat then some card else none
  | _ => none

/-- The cards that a seat played, oldest first. -/
def playsOf (seat : Seat) (log : List Entry) : List Card := log.filterMap (Entry.playedBy? seat)

/-- What becomes of the capabilities of a store: a card installs what it declares, without one they
stay as they are. -/
def Store.Gets (s t : Store) : Option Card → Prop
  | none => s.SameCapabilities t
  | some card => s.Installs card t

variable {setup : Setup} {seat place : Seat} {log : List Entry} {e : Entry} {s t : Store}
  {cards : List Card} {card : Card} {card? : Option Card} {farms : Seating Farm} {f f₀ f' : Farm}
  {g g' : Game} {move : Move} {turn : Turn}

theorem playsOf_concat (seat : Seat) (log : List Entry) (e : Entry) :
    playsOf seat (log ++ [e]) = playsOf seat log ++ (e.playedBy? seat).toList := by
  cases h : e.playedBy? seat <;> simp [playsOf, h]

namespace Store.Gets

theorem grows (h : s.Gets t card?) : s.Grows t := by
  cases card? with
  | none => exact SameCapabilities.grows h
  | some card => exact Installs.grows h

theorem equipped (h : s.Gets t card?) (hs : s.Equipped cards) :
    t.Equipped (cards ++ card?.toList) := by
  cases card? with
  | none =>
    rw [Option.toList_none, List.append_nil]
    exact SameCapabilities.equipped h hs
  | some card => exact hs.install h

end Store.Gets

/-! ## Moves -/

/-- A play that went through installs its card, however its effects fared. -/
theorem Farm.PlaysOut.installs {id : CopyId} {policy : PaymentPolicy} {p : Played}
    (h : f.PlaysOut seat card id policy f' p) : f.store.Installs card f'.store := by
  cases h with
  | intro hpaid happlies hinstalled =>
    rw [store_add]
    have paid := Store.SameCapabilities.of_payFor hpaid
    have fired := paid.trans (.of_applies happlies)
    exact (Store.Installs.of_install hinstalled).of_same fired

/-- What is done to a farm without a play leaves its capabilities alone. -/
theorem Farm.capabilities_drift :
    Farm.Drift fun f f' => f.store.SameCapabilities f'.store where
  refl f := .refl f.store
  trans hfg hgh := hfg.trans hgh
  remove hremove := by
    rw [(Farm.of_remove?_eq_some hremove).2.2]
    exact .refl _
  removeAll _ := ⟨rfl, rfl, rfl⟩
  cook {f f' r n food} hcook := by
    rcases hstore : f.store.cook r n with ⟨t, meal⟩
    rw [Farm.cook, hstore] at hcook
    cases hcook
    exact .of_cook hstore
  fires hfires := by
    cases hfires with
    | absent => exact .refl _
    | owned _ happlies =>
      rw [store_replace]
      exact .of_applies happlies
  startRound _ := ⟨rfl, rfl, rfl⟩

theorem Entry.playedBy?_eq_none (idle : ∀ p, turn ≠ .played p) :
    (Entry.move g move turn).playedBy? seat = none := by
  cases move with
  | play place card =>
    cases turn with
    | played p => exact absurd rfl (idle p)
    | _ => rfl
  | _ => rfl

namespace Game

/-- A move gives each seat the capabilities of the card that it played in it, if it played one. -/
theorem Steps.capabilities (h : g.Steps move g' turn) (hf : g.farm? seat = some f)
    (hf' : g'.farm? seat = some f') :
    f.store.Gets f'.store ((Entry.move g move turn).playedBy? seat) := by
  by_cases played : ∃ p, turn = .played p
  · obtain ⟨p, rfl⟩ := played
    obtain ⟨place, card, f₀, f₁, rfl, hf₀, -, hplay, hfarms⟩ := h.of_played
    rw [farm?, hfarms] at hf'
    by_cases eq : place = seat
    · subst eq
      cases hf₀.symm.trans hf
      cases (Seating.get?_set_self hf₀ f₁).symm.trans hf'
      rw [Entry.playedBy?, if_pos rfl]
      exact hplay.installs
    · cases hf.symm.trans ((Seating.get?_set_ne eq f₁).symm.trans hf')
      rw [Entry.playedBy?, if_neg eq]
      exact Store.SameCapabilities.refl f.store
  · have idle : ∀ p, turn ≠ .played p := fun p eq => played ⟨p, eq⟩
    obtain ⟨f'', hf'', same⟩ := (h.drift Farm.capabilities_drift idle).some_left hf
    cases hf''.symm.trans hf'
    rw [Entry.playedBy?_eq_none idle]
    exact same

/-! ## Histories -/

/-- In a game whose farms get their capabilities from the rules alone, a seat's farm can do what the
cards declare that the seat played. -/
theorem History.equipped
    (h : History (fun f f' => f.store.SameCapabilities f'.store) setup log g)
    (hf : g.farm? seat = some f) : f.store.Equipped (playsOf seat log) := by
  induction h generalizing f with
  | start hstart => exact .of_setup (store_of_start hstart hf)
  | move _ hstep ih =>
    have step := Steps.of_step hstep
    obtain ⟨f₀, hf₀⟩ := step.exists_farm hf
    rw [playsOf_concat]
    exact (step.capabilities hf₀ hf).equipped (ih hf₀)
  | edit _ hf₀ same ih =>
    have edited := Seating.Related.set (R := fun f f' : Farm => f.store.SameCapabilities f'.store)
      (fun f => .refl f.store) hf₀ same
    obtain ⟨f₁, hf₁, same⟩ := edited.some_right hf
    have kept : f₁.store.Gets f.store none := same
    rw [playsOf_concat]
    exact kept.equipped (ih hf₁)

end Game

/-- What a seat can cook and keep is what the cards declare that it ever played, whether or not it
owns them still: the ratio of each resource is the best one declared for it, none being zero; its
capacity is the sum of those declared, and the kitchens are the cards with a ratio, each once and in
the order in which they were first played. The next move changes none of these, except for a play of
the seat that goes through, and it takes none away. -/
theorem capabilities_from_plays
    (h : Game.History (fun f f' => f.store.SameCapabilities f'.store) setup log g)
    (hf : g.farm? seat = some f) :
    (∀ r, (f.store.ratio r).toNat =
        (declared r ((playsOf seat log).flatMap Card.cooking)).max?.getD 0) ∧
      (∀ r, (f.store.capacity r).toNat =
        (declared r ((playsOf seat log).flatMap Card.storage)).sum) ∧
      f.store.kitchens = (kitchensOf (playsOf seat log)).eraseDups ∧ f.store.kitchens.Nodup ∧
      ∀ {move g' turn f'}, g.step move = .ok (g', turn) → g'.farm? seat = some f' →
        f.store.Grows f'.store ∧
        ((Entry.move g move turn).playedBy? seat = none →
          f.store.SameCapabilities f'.store) := by
  have equipped := h.equipped hf
  refine ⟨equipped.ratio, equipped.capacity, equipped.kitchens, equipped.nodup, ?_⟩
  intro move g' turn f' hstep hf'
  have gets := (Game.Steps.of_step hstep).capabilities hf hf'
  refine ⟨gets.grows, fun idle => ?_⟩
  rwa [idle] at gets

/-- A smokehouse gives two ratios for a resource, and has an effect that a seat without wood cannot
pay. -/
def smokehouse : Card :=
  Card.improvement ⟨40⟩ "Smokehouse"
    |>.withCooking .boar 3
    |>.withCooking .boar 1
    |>.withStorage .boar 2
    |>.withEffect (Effect.new ⟨1⟩ .immediate |>.costing .wood 1)

/-- A smokehouse whose effect cannot be paid is played, discarded and, after a fireplace, played
again. Then a well is refused, a round begins, and the fireplace is discarded too. -/
theorem capabilities_from_plays_smokehouse :
    ∃ log g f, Game.History (fun f f' => f.store.SameCapabilities f'.store)
        ⟨2, .strict, ⟨[(.clay, 2)]⟩, 2, 2⟩ log g ∧
      g.farm? ⟨0⟩ = some f ∧ playsOf ⟨0⟩ log = [smokehouse, Deck.fireplace, smokehouse] ∧
      f.copies.map Copy.card = [smokehouse] ∧
      (f.store.ratio .boar).toNat = 3 ∧ (f.store.ratio .cattle).toNat = 3 ∧
      (f.store.capacity .boar).toNat = 2 + 2 ∧ f.store.kitchens = [⟨40⟩, Deck.fireplaceId] := by
  have started : Game.History (fun f f' => f.store.SameCapabilities f'.store)
      ⟨2, .strict, ⟨[(.clay, 2)]⟩, 2, 2⟩ [] _ := .start rfl
  have first := started.move (rfl : Game.step _ (.play ⟨0⟩ smokehouse) = .ok (_, _))
  have gone := first.move (rfl : Game.step _ (.discard ⟨0⟩ ⟨1⟩) = .ok (_, _))
  have hearth := gone.move (rfl : Game.step _ (.play ⟨0⟩ Deck.fireplace) = .ok (_, _))
  have second := hearth.move (rfl : Game.step _ (.play ⟨0⟩ smokehouse) = .ok (_, _))
  have refused := second.move (rfl : Game.step _ (.play ⟨0⟩ Deck.well) = .ok (_, _))
  have begun := refused.move (rfl : Game.step _ .beginRound = .ok (_, _))
  have discarded := begun.move (rfl : Game.step _ (.discard ⟨0⟩ ⟨2⟩) = .ok (_, _))
  obtain ⟨ratio, capacity, kitchens, -⟩ :=
    capabilities_from_plays discarded (rfl : Game.farm? _ ⟨0⟩ = some _)
  exact ⟨_, _, _, discarded, rfl, rfl, rfl, ratio .boar, ratio .cattle, capacity .boar, kitchens⟩

end Homestead
