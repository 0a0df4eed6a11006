import Homestead.Proofs.Game.Ownership

/-!
# Games with farms that were changed by hand

The log of a `Game.History` tells that a farm was edited, and not how. A `Game.Chronicle` keeps the
game before each move and each change by hand, and the farm after a change. So it can be said what a
seat ever owned (`statesOf`), and what was changed.

Where farms are changed by hand, the copies need not be in order. Of every move it still holds that
what a seat owns after it the seat owned before, but for the copy that was played
(`Game.Steps.owned_before_or_played`).
-/

namespace Homestead

/-- What was done to a game: a move, or a change of a seat's farm by hand. -/
inductive Deed where
  | move (before : Game) (move : Move) (turn : Turn)
  | change (before : Game) (seat : Seat) (f f' : Farm)

/-- The game to which something was done. -/
def Deed.before : Deed → Game
  | move g _ _ => g
  | change g _ _ _ => g

/-- A game that was started from a setup and went through moves and allowed changes of farms, with
the log of these, oldest first. -/
inductive Game.Chronicle (allowed : Farm → Farm → Prop) (setup : Setup) : List Deed → Game → Prop
  | start {g} : Game.start setup = .ok g → Chronicle allowed setup [] g
  | move {log g move g' turn} : Chronicle allowed setup log g → g.step move = .ok (g', turn) →
    Chronicle allowed setup (log ++ [.move g move turn]) g'
  | change {log g seat f f'} : Chronicle allowed setup log g → g.farm? seat = some f →
    allowed f f' → Chronicle allowed setup (log ++ [.change g seat f f']) (g.withFarm seat f')

/-- Every game that a log went through up to the present one, oldest first. -/
def statesOf (log : List Deed) (g : Game) : List Game := log.map Deed.before ++ [g]

theorem mem_statesOf_self (log : List Deed) (g : Game) : g ∈ statesOf log g :=
  List.mem_append_right _ (List.mem_singleton_self g)

theorem mem_statesOf_concat {log : List Deed} {e : Deed} {g past : Game} :
    past ∈ statesOf (log ++ [e]) g ↔ past ∈ statesOf log e.before ∨ past = g := by
  simp [statesOf, or_assoc]

namespace Game

variable {g g' : Game} {seat : Seat} {id : CopyId} {f f' : Farm} {move : Move} {turn : Turn}

theorem idsOf_start {setup : Setup} (h : start setup = .ok g) (seat : Seat) :
    g.idsOf seat = [] := by
  rw [idsOf]
  cases hf : g.farm? seat with
  | none => rfl
  | some f => simp [Farm.ids, (of_start h).1 hf]

/-! ## What a seat owns -/

/-- A change of one seat's farm gives nobody what that farm did not gain. -/
theorem mem_idsOf_set {other : Seat} (hf : g.farm? seat = some f)
    (hfarms : g'.farms = g.farms.set seat f') (hid : id ∈ g'.idsOf other) :
    id ∈ g.idsOf other ∨ seat = other ∧ id ∈ f'.ids := by
  rw [idsOf_set hf hfarms] at hid
  split at hid
  · exact .inr ⟨‹_›, hid⟩
  · exact .inl hid

/-- What a seat owns after a move it owned before, but for the copy that was played. -/
theorem Steps.owned_before_or_played (h : g.Steps move g' turn) (hid : id ∈ g'.idsOf seat) :
    id ∈ g.idsOf seat ∨ turn.copy? = some id := by
  cases h with
  | refused | cleared | rebuilt => exact .inl hid
  | played hplays =>
    cases hplays with
    | played hf _ _ hplay =>
      rcases mem_idsOf_set hf rfl hid with old | ⟨rfl, new⟩
      · exact .inl old
      · rw [hplay.ids_perm.mem_iff, List.mem_append, List.mem_singleton] at new
        exact new.imp (idsOf_eq hf ▸ ·) fun eq => congrArg some (hplay.copy_eq.trans eq.symm)
  | discarded hf hremove =>
    rcases mem_idsOf_set hf rfl hid with old | ⟨rfl, left⟩
    · exact .inl old
    · rw [Farm.ids_of_remove? hremove] at left
      exact .inl (idsOf_eq hf ▸ List.mem_of_mem_erase left)
  | discardedAll hf =>
    rcases mem_idsOf_set hf rfl hid with old | ⟨rfl, left⟩
    · exact .inl old
    · cases left
  | cooked hf hcook =>
    exact .inl (idsOf_congr (sameCards_withFarm hf (sameCards_cook hcook)) seat ▸ hid)
  | dispatched _ hd => exact .inl (idsOf_congr hd.sameCards seat ▸ hid)
  | roundBegun _ hd =>
    rw [idsOf_congr hd.sameCards, idsOf_congr (sameCards_begun g _)] at hid
    exact .inl hid

end Game

end Homestead
