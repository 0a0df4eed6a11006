import Homestead.Deck
import Homestead.Proofs.Game.History
import Homestead.Proofs.Solvency

/-!
# Strict games never overdraw

A game is solvent when its payments are strict and its farms are solvent. It starts so if nothing
that it starts with is negative, and every move keeps it so as long as the cards that are played
declare no negative gains (`Game.Steps.solvent`).
-/

namespace Homestead

/-- Payment is strict, and every farm is solvent. -/
structure Game.Solvent (g : Game) : Prop where
  strict : g.registry.policy = .strict
  farms : ∀ {seat f}, g.farm? seat = some f → f.Solvent

/-- The card that was played, if one was. -/
def Entry.card? : Entry → Option Card
  | .move _ (.play _ card) (.played _) => some card
  | _ => none

/-- The cards that were played, oldest first. -/
def playedCards (log : List Entry) : List Card := log.filterMap Entry.card?

variable {g g' : Game} {seat : Seat} {id : CopyId} {f f' : Farm} {farms farms' : Seating Farm}
  {ms : List Match} {firings : List Firing} {r : Registry} {move : Move} {turn : Turn}
  {log : List Entry} {setup : Setup}

/-! ## Moves -/

theorem Match.FiresAll.solvent (h : Match.FiresAll .strict ms farms farms' firings)
    (hfarms : ∀ {seat f}, farms.get? seat = some f → f.Solvent)
    (hf : farms'.get? seat = some f') : f'.Solvent := by
  have kept : Seating.Related (fun f f' => f.Solvent → f'.Solvent) farms farms' := by
    apply h.related
    · intro f solvent
      exact solvent
    · intro f g h hfg hgh solvent
      exact hgh (hfg solvent)
    · intro f f' id is o hfires solvent
      exact solvent.fires hfires
  obtain ⟨f, hf, hsolvent⟩ := kept.some_right hf
  exact hsolvent (hfarms hf)

namespace Game

theorem Solvent.set (hg : g.Solvent) (hf' : f'.Solvent) {other : Seat}
    (h : (g.farms.set seat f').get? other = some f) : f.Solvent := by
  rw [Seating.get?_set] at h
  split at h
  · obtain ⟨_, -, rfl⟩ := Option.map_eq_some_iff.1 h
    exact hf'
  · exact hg.farms h

theorem Dispatches.solvent {events : List (Seat × Event)} {reports : List Report}
    (h : Dispatches events g g' reports) (hg : g.Solvent) : g'.Solvent := by
  induction h with
  | nil => exact hg
  | cons hfires _ _ ih =>
    rw [hg.strict] at hfires
    exact ih ⟨hg.strict, fun hf => hfires.solvent hg.farms hf⟩

/-- Every move keeps a game solvent, if a card that it plays declares no negative gain. -/
theorem Steps.solvent (h : g.Steps move g' turn) (hg : g.Solvent)
    (giving : ∀ card ∈ playedCards [.move g move turn], card.Giving) : g'.Solvent := by
  cases h with
  | refused => exact hg
  | played hplays =>
    cases hplays with
    | played hf _ checked hplay =>
      rw [hg.strict] at hplay
      have solvent := (hg.farms hf).play (giving _ List.mem_cons_self) checked hplay
      exact ⟨(Registry.relisted_register ..).policy_eq.trans hg.strict, hg.set solvent⟩
  | discarded hf hremove =>
    refine ⟨?_, hg.set ((hg.farms hf).remove? hremove)⟩
    exact (Registry.relisted_unregister ..).policy_eq.trans hg.strict
  | discardedAll hf => exact ⟨hg.strict, hg.set (hg.farms hf).removeAll⟩
  | cooked hf hcook => exact ⟨hg.strict, hg.set ((hg.farms hf).cook hcook)⟩
  | dispatched _ hd => exact hd.solvent hg
  | @roundBegun round _ _ _ hd =>
    refine hd.solvent ⟨hg.strict, fun {seat f} hf => ?_⟩
    change (g.farms.map Farm.startRound).get? seat = some f at hf
    rw [Seating.get?_map] at hf
    obtain ⟨f₀, hf₀, rfl⟩ := Option.map_eq_some_iff.1 hf
    exact (hg.farms hf₀).startRound
  | cleared => exact ⟨hg.strict, hg.farms⟩
  | rebuilt => exact ⟨(Game.relisted_registerEach ..).policy_eq.trans hg.strict, hg.farms⟩

/-! ## The start -/

theorem solvent_of_start (h : start setup = .ok g) (strict : setup.policy = .strict)
    (stocked : ∀ e ∈ setup.resources.entries, 0 ≤ e.2) : g.Solvent := by
  obtain ⟨places, -, h⟩ := Checked.bind_eq_ok.1 h
  obtain ⟨store, hstore, h⟩ := Checked.bind_eq_ok.1 h
  cases Checked.pure_eq_ok.1 h
  have empty : Store.Solvent { Store.empty with
      family := setup.family, workers := setup.family, rooms := setup.rooms } := by
    intro r
    change 0 ≤ Store.empty.balance r
    rw [Store.balance_empty]
    exact Int32.le_refl 0
  refine ⟨strict, fun {seat f} hf => ?_⟩
  rw [farm?, Seating.get?_map] at hf
  obtain ⟨place, -, rfl⟩ := Option.map_eq_some_iff.1 hf
  exact ⟨empty.addAll stocked hstore, fun _ hc => by cases hc⟩

end Game

/-- Strict games never overdraw. Where payments are strict and nothing that the farms start with is
negative, no balance of any farm is below zero after any moves, as long as the cards that are played
declare no negative gains; edits of a farm between the moves may change its goods, but not its cards
and not to less than nothing. -/
theorem strict_never_overdraws
    (h : Game.History (fun f f' => f.SameCards f' ∧ f'.store.Solvent) setup log g)
    (strict : setup.policy = .strict) (stocked : ∀ e ∈ setup.resources.entries, 0 ≤ e.2)
    (giving : ∀ card ∈ playedCards log, card.Giving) :
    ∀ seat f, g.farm? seat = some f → ∀ r, 0 ≤ f.store.balance r := by
  have solvent : g.Solvent := by
    induction h with
    | start hstart => exact Game.solvent_of_start hstart strict stocked
    | move _ hstep ih =>
      rw [playedCards, List.filterMap_append] at giving
      have before := ih fun card hcard => giving card (List.mem_append_left _ hcard)
      apply (Game.Steps.of_step hstep).solvent before
      exact fun card hcard => giving card (List.mem_append_right _ hcard)
    | edit _ hf hedit ih =>
      rw [playedCards, List.filterMap_append] at giving
      have before := ih fun card hcard => giving card (List.mem_append_left _ hcard)
      exact ⟨before.strict, before.set ((before.farms hf).of_sameCards hedit.1 hedit.2)⟩
  intro seat f hf
  exact (solvent.farms hf).store

/-- A joinery takes all goods but the food, a carpenter the food for two wood, and a well is too
dear; in the harvest the joinery turns one of the wood into food. -/
theorem strict_never_overdraws_joinery :
    ∃ log g f, Game.History (fun f f' => f.SameCards f' ∧ f'.store.Solvent)
        ⟨1, .strict, ⟨[(.wood, 2), (.stone, 2), (.food, 1)]⟩, 2, 2⟩ log g ∧
      playedCards log = [Deck.joinery, Deck.carpenter] ∧ g.farm? ⟨0⟩ = some f ∧
      f.store.balance .wood = 1 ∧ f.store.balance .food = 2 ∧ ∀ r, 0 ≤ f.store.balance r := by
  have started : Game.History (fun f f' => f.SameCards f' ∧ f'.store.Solvent)
      ⟨1, .strict, ⟨[(.wood, 2), (.stone, 2), (.food, 1)]⟩, 2, 2⟩ [] _ := .start rfl
  have joinery := started.move (rfl : Game.step _ (.play ⟨0⟩ Deck.joinery) = .ok (_, _))
  have carpenter := joinery.move (rfl : Game.step _ (.play ⟨0⟩ Deck.carpenter) = .ok (_, _))
  have well := carpenter.move (rfl : Game.step _ (.play ⟨0⟩ Deck.well) = .ok (_, _))
  have harvested := well.move (rfl : Game.step _ .harvest = .ok (_, _))
  have giving : ∀ card ∈ [Deck.joinery, Deck.carpenter], card.Giving := by
    unfold Card.Giving
    decide
  have solvent := strict_never_overdraws harvested rfl (by decide) giving
  exact ⟨_, _, _, harvested, rfl, rfl, rfl, rfl, solvent ⟨0⟩ _ (by rfl)⟩

end Homestead
