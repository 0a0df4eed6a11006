import Homestead.Game.Move
import Homestead.Proofs.Playing

/-!
# Histories of a game

`Game.Steps` says what one move can do to a game, one constructor for each thing that can become of
it, and `Game.Dispatches` what dispatching events in order can do. A `Game.History` is a game that
was started and went through moves, with edits of single farms between them; a predicate on the farm
before and after says which edits are allowed. Its log lists what was done, oldest first.

Facts about all reachable games are proved of the start, of each constructor of `Game.Steps` and of
the edits.
-/

namespace Homestead

/-- A relation that holds between a farm and whatever a move makes of it, unless it is played on. -/
structure Farm.Drift (R : Farm → Farm → Prop) : Prop where
  refl : ∀ f, R f f
  trans : ∀ {f g h}, R f g → R g h → R f h
  remove : ∀ {f f' id c}, f.remove? id = some (c, f') → R f f'
  removeAll : ∀ f : Farm, R f f.removeAll.2
  cook : ∀ {f f' r n food}, f.cook r n = (f', food) → R f f'
  fires : ∀ {policy f f' id is o}, f.Fires policy id is f' o → R f f'
  startRound : ∀ f : Farm, R f f.startRound

/-- A relation that holds between a farm and whatever a move makes of it. -/
structure Farm.Evolution (R : Farm → Farm → Prop) : Prop extends Farm.Drift R where
  play : ∀ {f f' seat card id policy p}, card.objection? f = .ok none →
    f.PlaysOut seat card id policy f' p → R f f'

/-- The events that a move dispatches, each with the seat to which it goes. -/
def Move.events (g : Game) : Move → List (Seat × Event)
  | .trigger seat event => [(seat, event)]
  | .triggerAll event => g.seats.map fun seat => (seat, event.forSeat seat)
  | .act seat action => [(seat, .action seat action)]
  | .endTurn seat => [(seat, .new .onTurnEnd seat)]
  | .beginRound => g.seats.map fun seat => (seat, .new .onRoundStart seat)
  | .harvest => Moment.harvest.flatMap fun moment =>
      g.seats.map fun seat => (seat, .harvest moment seat g.round)
  | _ => []

/-- Does the move dispatch events to the farms as they stand? -/
def Move.isDispatch : Move → Bool
  | .trigger .. | .triggerAll .. | .act .. | .endTurn .. | .harvest => true
  | _ => false

namespace Game

/-- The game with a round begun on every farm, before any event of the round. -/
def begun (g : Game) (round : Count) : Game :=
  { g with round := round, farms := g.farms.map Farm.startRound }

/-- What dispatching events in order can do. -/
inductive Dispatches : List (Seat × Event) → Game → Game → List Report → Prop
  | nil {g} : Dispatches [] g g []
  | cons {seat event rest g farms report g' reports} :
    Match.FiresAll g.registry.policy (g.registry.find g.farms seat event) g.farms farms
      report.firings →
    report.moment = event.moment →
    Dispatches rest { g with farms := farms, registry := g.registry.tally report } g' reports →
    Dispatches ((seat, event) :: rest) g g' (report :: reports)

/-- What a move can do. -/
inductive Steps (g : Game) : Move → Game → Turn → Prop
  | refused {move cause} : g.step move = .ok (g, .refused cause) → Steps g move g (.refused cause)
  | played {seat card registry farms p next} :
    g.registry.Plays g.farms seat card ⟨g.nextCopy⟩ (.ok (registry, farms, p)) →
    g.nextCopy.plus 1 = .ok next →
    Steps g (.play seat card) { g with farms := farms, registry := registry, nextCopy := next }
      (.played p)
  | discarded {seat id f c f'} : g.farm? seat = some f → f.remove? id = some (c, f') →
    Steps g (.discard seat id)
      { g.withFarm seat f' with registry := g.registry.unregister seat id } (.discarded [c])
  | discardedAll {seat f} : g.farm? seat = some f →
    Steps g (.discardAll seat)
      { g.withFarm seat f.removeAll.2 with registry := g.registry.unregisterSeat seat }
      (.discarded f.removeAll.1)
  | cooked {seat r n f f' food} : g.farm? seat = some f → f.cook r n = (f', food) →
    Steps g (.cook seat r n) (g.withFarm seat f') (.cooked food)
  | dispatched {move g' reports} : move.isDispatch → Dispatches (move.events g) g g' reports →
    Steps g move g' (.dispatched reports)
  | roundBegun {round g' reports} : g.round.plus 1 = .ok round →
    Dispatches (Move.beginRound.events g) (g.begun round) g' reports →
    Steps g .beginRound g' (.dispatched reports)
  | cleared : Steps g .clearRegistry g.clearRegistry .cleared
  | rebuilt : Steps g .rebuildRegistry g.rebuildRegistry.1 (.registered g.rebuildRegistry.2)

variable {g g' : Game} {seat : Seat} {event : Event} {events : List (Seat × Event)}
  {reports : List Report} {move : Move} {turn : Turn}

/-! ## Dispatching -/

theorem trigger_eq_ok_iff {report : Report} :
    g.trigger seat event = .ok (g', report) ↔ ∃ farms,
      Match.FiresAll g.registry.policy (g.registry.find g.farms seat event) g.farms farms
        report.firings ∧
      report.moment = event.moment ∧
      g' = { g with farms := farms, registry := g.registry.tally report } := by
  rw [trigger, Checked.bind_eq_ok]
  constructor
  · rintro ⟨⟨registry, farms, report⟩, htrigger, h⟩
    cases Checked.pure_eq_ok.1 h
    obtain ⟨hfires, hmoment, rfl⟩ := Registry.execute_eq_ok_iff.1 htrigger
    exact ⟨farms, hfires, hmoment, rfl⟩
  · rintro ⟨farms, hfires, hmoment, rfl⟩
    exact ⟨_, Registry.execute_eq_ok_iff.2 ⟨hfires, hmoment, rfl⟩, rfl⟩

theorem triggerEach_eq_ok_iff :
    triggerEach events g = .ok (g', reports) ↔ Dispatches events g g' reports := by
  induction events generalizing g g' reports with
  | nil =>
    constructor
    · rintro ⟨⟩
      exact .nil
    · rintro ⟨⟩
      rfl
  | cons e rest ih =>
    rw [triggerEach, Checked.bind_eq_ok]
    constructor
    · rintro ⟨⟨g₁, report⟩, hfirst, h⟩
      obtain ⟨⟨g', reports⟩, hrest, h⟩ := Checked.bind_eq_ok.1 h
      cases Checked.pure_eq_ok.1 h
      obtain ⟨farms, hfires, hmoment, rfl⟩ := trigger_eq_ok_iff.1 hfirst
      exact .cons hfires hmoment (ih.1 hrest)
    · rintro (_ | ⟨hfires, hmoment, hrest⟩)
      exact ⟨_, trigger_eq_ok_iff.2 ⟨_, hfires, hmoment, rfl⟩,
        Checked.bind_eq_ok.2 ⟨_, ih.2 hrest, rfl⟩⟩

theorem dispatches_of_single
    (h : single (g.trigger seat event) = .ok (g', turn)) :
    ∃ reports, Dispatches [(seat, event)] g g' reports ∧ turn = .dispatched reports := by
  obtain ⟨⟨g', report⟩, htrigger, h⟩ := Checked.bind_eq_ok.1 h
  cases Checked.pure_eq_ok.1 h
  obtain ⟨farms, hfires, hmoment, rfl⟩ := trigger_eq_ok_iff.1 htrigger
  exact ⟨[report], .cons hfires hmoment .nil, rfl⟩

theorem dispatches_of_several (h : several (triggerEach events g) = .ok (g', turn)) :
    ∃ reports, Dispatches events g g' reports ∧ turn = .dispatched reports := by
  obtain ⟨⟨g', reports⟩, htrigger, h⟩ := Checked.bind_eq_ok.1 h
  cases Checked.pure_eq_ok.1 h
  exact ⟨reports, triggerEach_eq_ok_iff.1 htrigger, rfl⟩

namespace Dispatches

/-- Dispatching changes the farms and the counters of the registry alone. -/
theorem frame (h : Dispatches events g g' reports) :
    g'.setup = g.setup ∧ g'.round = g.round ∧ g'.nextCopy = g.nextCopy ∧
      g'.registry.policy = g.registry.policy ∧ g'.registry.listed = g.registry.listed := by
  induction h with
  | nil => exact ⟨rfl, rfl, rfl, rfl, rfl⟩
  | cons _ _ _ ih => exact ih

theorem copiesOf (h : Dispatches events g g' reports) (seat : Seat) :
    g'.registry.copiesOf seat = g.registry.copiesOf seat := by
  rw [Registry.copiesOf, h.frame.2.2.2.2, Registry.copiesOf]

/-- Dispatching relates the farms before and after as firing on one farm does. -/
theorem related {R : Farm → Farm → Prop} (refl : ∀ f, R f f)
    (trans : ∀ {f g h}, R f g → R g h → R f h)
    (fires : ∀ {policy f f' id is o}, f.Fires policy id is f' o → R f f')
    (h : Dispatches events g g' reports) : Seating.Related R g.farms g'.farms := by
  induction h with
  | nil => exact .refl refl _
  | cons hfires _ _ ih => exact (hfires.related refl trans fires).trans trans ih

theorem sameCards (h : Dispatches events g g' reports) :
    Seating.Related Farm.SameCards g.farms g'.farms :=
  h.related .refl .trans Farm.Fires.sameCards

theorem size_eq (h : Dispatches events g g' reports) :
    g'.farms.size = g.farms.size := h.sameCards.size_eq

end Dispatches

/-! ## Moves -/

theorem farm_eq_ok_iff {f : Farm} : g.farm seat = .ok f ↔ g.farm? seat = some f := by
  unfold farm
  cases g.farm? seat <;> simp

theorem of_discard {id : CopyId} {result : Game × Copy}
    (h : g.discard seat id = .ok result) :
    ∃ f c f', g.farm? seat = some f ∧ f.remove? id = some (c, f') ∧
      result = ({ g.withFarm seat f' with registry := g.registry.unregister seat id }, c) := by
  obtain ⟨f, hf, h⟩ := Checked.bind_eq_ok.1 h
  cases hremove : f.remove? id with
  | none =>
    rw [hremove] at h
    cases h
  | some removed =>
    obtain ⟨c, f'⟩ := removed
    rw [hremove] at h
    cases h
    exact ⟨f, c, f', farm_eq_ok_iff.1 hf, hremove, rfl⟩

theorem of_discardAll {result : Game × List Copy} (h : g.discardAll seat = .ok result) :
    ∃ f, g.farm? seat = some f ∧
      result = ({ g.withFarm seat f.removeAll.2 with registry := g.registry.unregisterSeat seat },
        f.removeAll.1) := by
  obtain ⟨f, hf, h⟩ := Checked.bind_eq_ok.1 h
  cases h
  exact ⟨f, farm_eq_ok_iff.1 hf, rfl⟩

theorem of_cook {r : Resource} {n : Count} {result : Game × Amount}
    (h : g.cook seat r n = .ok result) :
    ∃ f f' food, g.farm? seat = some f ∧ f.cook r n = (f', food) ∧
      result = (g.withFarm seat f', food) := by
  obtain ⟨f, hf, h⟩ := Checked.bind_eq_ok.1 h
  cases h
  exact ⟨f, _, _, farm_eq_ok_iff.1 hf, rfl, rfl⟩

theorem of_play {card : Card} {played : Game × Played} (h : g.play seat card = .ok (.ok played)) :
    ∃ registry farms p next,
      g.registry.Plays g.farms seat card ⟨g.nextCopy⟩ (.ok (registry, farms, p)) ∧
        g.nextCopy.plus 1 = .ok next ∧
        played = ({ g with farms := farms, registry := registry, nextCopy := next }, p) := by
  obtain ⟨result, hregistry, h⟩ := Checked.bind_eq_ok.1 h
  cases result with
  | error cause => cases Checked.pure_eq_ok.1 h
  | ok result =>
    obtain ⟨next, hnext, h⟩ := Checked.bind_eq_ok.1 h
    cases Checked.pure_eq_ok.1 h
    exact ⟨_, _, _, next, Registry.play_eq_ok_iff.1 hregistry, hnext, rfl⟩

/-- The turn of an operation that can be refused tells whether it was. -/
theorem of_unlessRefused {α : Type} {made : α → Turn} {result : Except Refusal (Game × α)}
    (h : g.unlessRefused made result = (g', turn)) :
    (∃ cause, g' = g ∧ turn = .refused cause) ∨ ∃ a, result = .ok (g', a) ∧ turn = made a := by
  cases result with
  | error cause =>
    cases h
    exact .inl ⟨cause, rfl, rfl⟩
  | ok result =>
    cases h
    exact .inr ⟨_, rfl, rfl⟩

/-- A move that goes through takes one of the steps. -/
theorem Steps.of_step (h : g.step move = .ok (g', turn)) : g.Steps move g' turn := by
  cases move with
  | play seat card =>
    obtain ⟨result, hplay, heq⟩ := Checked.bind_eq_ok.1 h
    rcases of_unlessRefused (Checked.pure_eq_ok.1 heq) with ⟨cause, rfl, rfl⟩ | ⟨p, rfl, rfl⟩
    · exact .refused h
    · obtain ⟨registry, farms, p, next, hplays, hnext, heq⟩ := of_play hplay
      cases heq
      exact .played hplays hnext
  | discard seat id =>
    rcases of_unlessRefused (Checked.pure_eq_ok.1 h) with ⟨cause, rfl, rfl⟩ | ⟨c, hdiscard, rfl⟩
    · exact .refused h
    · obtain ⟨f, c, f', hf, hremove, heq⟩ := of_discard hdiscard
      cases heq
      exact .discarded hf hremove
  | discardAll seat =>
    rcases of_unlessRefused (Checked.pure_eq_ok.1 h) with ⟨cause, rfl, rfl⟩ | ⟨cs, hdiscard, rfl⟩
    · exact .refused h
    · obtain ⟨f, hf, heq⟩ := of_discardAll hdiscard
      cases heq
      exact .discardedAll hf
  | cook seat r n =>
    rcases of_unlessRefused (Checked.pure_eq_ok.1 h) with ⟨cause, rfl, rfl⟩ | ⟨food, hcook, rfl⟩
    · exact .refused h
    · obtain ⟨f, f', food, hf, hmeal, heq⟩ := of_cook hcook
      cases heq
      exact .cooked hf hmeal
  | trigger seat event =>
    obtain ⟨reports, hdispatch, rfl⟩ := dispatches_of_single h
    exact .dispatched rfl hdispatch
  | triggerAll event =>
    obtain ⟨reports, hdispatch, rfl⟩ := dispatches_of_several h
    exact .dispatched rfl hdispatch
  | act seat action =>
    obtain ⟨reports, hdispatch, rfl⟩ := dispatches_of_single h
    exact .dispatched rfl hdispatch
  | endTurn seat =>
    obtain ⟨reports, hdispatch, rfl⟩ := dispatches_of_single h
    exact .dispatched rfl hdispatch
  | beginRound =>
    obtain ⟨⟨g', reports⟩, hround, heq⟩ := Checked.bind_eq_ok.1 h
    cases Checked.pure_eq_ok.1 heq
    obtain ⟨round, hround, hdispatch⟩ := Checked.bind_eq_ok.1 hround
    refine .roundBegun hround ?_
    have hseats : (g.begun round).seats = g.seats := by
      simp [seats, begun, Seating.seats, Seating.size, Seating.map]
    have hdispatch := triggerEach_eq_ok_iff.1 hdispatch
    change Dispatches ((g.begun round).seats.map _) _ _ _ at hdispatch
    rwa [hseats] at hdispatch
  | harvest =>
    obtain ⟨reports, hdispatch, rfl⟩ := dispatches_of_several h
    exact .dispatched rfl hdispatch
  | clearRegistry =>
    cases Checked.pure_eq_ok.1 h
    exact .cleared
  | rebuildRegistry =>
    cases Checked.pure_eq_ok.1 h
    exact .rebuilt

theorem Steps.size_eq (h : g.Steps move g' turn) : g'.farms.size = g.farms.size := by
  cases h with
  | refused | cleared | rebuilt => rfl
  | played hplays =>
    cases hplays with
    | played => exact Seating.size_set ..
  | discarded | discardedAll | cooked => exact Seating.size_set ..
  | dispatched _ hd => exact hd.size_eq
  | roundBegun _ hd => exact hd.size_eq.trans (List.length_map _)

/-- A move that plays no card relates the farms before and after as what it does to a single farm
does. -/
theorem Steps.drift {R : Farm → Farm → Prop} (hR : Farm.Drift R) (h : g.Steps move g' turn)
    (idle : ∀ p, turn ≠ .played p) : Seating.Related R g.farms g'.farms := by
  cases h with
  | refused | cleared | rebuilt => exact .refl hR.refl _
  | played => exact absurd rfl (idle _)
  | discarded hf hremove => exact .set hR.refl hf (hR.remove hremove)
  | discardedAll hf => exact .set hR.refl hf (hR.removeAll _)
  | cooked hf hcook => exact .set hR.refl hf (hR.cook hcook)
  | dispatched _ hd => exact hd.related hR.refl hR.trans hR.fires
  | @roundBegun round _ _ _ hd =>
    have begun : Seating.Related R g.farms (g.begun round).farms := .map hR.startRound g.farms
    exact begun.trans hR.trans (hd.related hR.refl hR.trans hR.fires)

/-- A play relates its seat's farm as playing out relates it, and touches no other farm. -/
theorem Steps.of_played {p : Played} (h : g.Steps move g' (.played p)) :
    ∃ seat card f f', move = .play seat card ∧ g.farm? seat = some f ∧
      card.objection? f = .ok none ∧
      f.PlaysOut seat card ⟨g.nextCopy⟩ g.registry.policy f' p ∧
      g'.farms = g.farms.set seat f' := by
  cases h with
  | played hplays =>
    cases hplays with
    | played hf _ checked hplay => exact ⟨_, _, _, _, rfl, hf, checked, hplay, rfl⟩

/-- A move relates the farms before and after as what it does to a single farm does. -/
theorem Steps.related {R : Farm → Farm → Prop} (hR : Farm.Evolution R) (h : g.Steps move g' turn) :
    Seating.Related R g.farms g'.farms := by
  by_cases played : ∃ p, turn = .played p
  · obtain ⟨p, rfl⟩ := played
    obtain ⟨seat, card, f, f', -, hf, checked, hplay, hfarms⟩ := h.of_played
    rw [hfarms]
    exact .set hR.refl hf (hR.play checked hplay)
  · exact h.drift hR.toDrift fun p eq => played ⟨p, eq⟩

/-- A move brings no farm to a seat that had none. -/
theorem Steps.exists_farm (h : g.Steps move g' turn) {f' : Farm}
    (hf' : g'.farm? seat = some f') : ∃ f, g.farm? seat = some f := by
  have inside := (Seating.isSome_get? ..).1 (Option.isSome_of_eq_some hf')
  rw [h.size_eq] at inside
  exact Option.isSome_iff_exists.1 ((Seating.isSome_get? ..).2 inside)

theorem relisted_registerEach {farms : Seating Farm} (copies : List (Seat × CopyId))
    (r : Registry) : r.Relisted (registerEach farms copies r).1 := by
  induction copies generalizing r with
  | nil => exact .refl r
  | cons e copies ih =>
    rw [registerEach]
    split
    · exact ih r
    · rename_i r' h
      exact (Registry.relisted_register? h).trans (ih r')

/-! ## The start -/

/-- At the start no farm owns a copy, nothing is registered, and copies are numbered from one. -/
theorem of_start {setup : Setup} (h : start setup = .ok g) :
    (∀ {seat f}, g.farm? seat = some f → f.copies = []) ∧ g.registry = .new setup.policy ∧
      g.nextCopy = 1 := by
  obtain ⟨places, -, h⟩ := Checked.bind_eq_ok.1 h
  obtain ⟨store, -, h⟩ := Checked.bind_eq_ok.1 h
  cases Checked.pure_eq_ok.1 h
  refine ⟨fun {seat f} hf => ?_, rfl, rfl⟩
  rw [farm?, Seating.get?_map] at hf
  obtain ⟨place, -, rfl⟩ := Option.map_eq_some_iff.1 hf
  rfl

theorem size_of_start {setup : Setup} (h : start setup = .ok g) : g.farms.size = setup.players := by
  obtain ⟨seats, hseats, h⟩ := Checked.bind_eq_ok.1 h
  obtain ⟨store, -, h⟩ := Checked.bind_eq_ok.1 h
  cases Checked.pure_eq_ok.1 h
  unfold Seating.ofFn at hseats
  split at hseats
  · cases hseats
  · split at hseats
    · rename_i fits
      cases hseats
      simp [Seating.size, Seating.map, Seat.length_all (Nat.lt_succ_of_le fits)]
    · cases hseats

theorem store_of_start {setup : Setup} {f : Farm} (h : start setup = .ok g)
    (hf : g.farm? seat = some f) : Store.ofSetup setup = .ok f.store := by
  obtain ⟨seats, -, h⟩ := Checked.bind_eq_ok.1 h
  obtain ⟨store, hstore, h⟩ := Checked.bind_eq_ok.1 h
  cases Checked.pure_eq_ok.1 h
  rw [farm?, Seating.get?_map] at hf
  obtain ⟨place, -, rfl⟩ := Option.map_eq_some_iff.1 hf
  exact hstore

end Game

/-! ## Histories -/

/-- What was done to a game: a move, with the game in which it was made and what came of it, or an
edit of a seat's farm. -/
inductive Entry where
  | move (before : Game) (move : Move) (turn : Turn)
  | edit (seat : Seat)

/-- A game that was started from a setup and went through moves and allowed edits of farms, with the
log of these, oldest first. -/
inductive Game.History (allowed : Farm → Farm → Prop) (setup : Setup) : List Entry → Game → Prop
  | start {g} : Game.start setup = .ok g → History allowed setup [] g
  | move {log g move g' turn} : History allowed setup log g → g.step move = .ok (g', turn) →
    History allowed setup (log ++ [.move g move turn]) g'
  | edit {log g seat f f'} : History allowed setup log g → g.farm? seat = some f → allowed f f' →
    History allowed setup (log ++ [.edit seat]) (g.withFarm seat f')

theorem Game.History.mono {allowed allowed' : Farm → Farm → Prop} {setup : Setup}
    {log : List Entry} {g : Game} (h : Game.History allowed setup log g)
    (weaker : ∀ {f f'}, allowed f f' → allowed' f f') : Game.History allowed' setup log g := by
  induction h with
  | start hstart => exact .start hstart
  | move _ hstep ih => exact .move ih hstep
  | edit _ hf hedit ih => exact .edit ih hf (weaker hedit)

theorem Game.History.size_eq {allowed : Farm → Farm → Prop} {setup : Setup} {log : List Entry}
    {g : Game} (h : Game.History allowed setup log g) :
    g.farms.size = setup.players := by
  induction h with
  | start hstart => exact Game.size_of_start hstart
  | move _ hstep ih => exact (Game.Steps.of_step hstep).size_eq.trans ih
  | edit _ _ _ ih => exact (Seating.size_set ..).trans ih

end Homestead
