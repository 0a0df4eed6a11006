import Homestead.Proofs.Counting
import Homestead.Proofs.Game.Ownership
import Homestead.Proofs.Pairs

/-!
# Statistics

The statistics of a game count what happened since its registry was last cleared. Each move adds to
them what its turn reports (`Game.tallied_of_step`), so over a history they are sums over the log
(`Game.History.tallied`). What was executed is also what the counters of the copies rose by, entry
by entry (`Game.History.rises`), and what is registered is what is listed for the seats.
-/

namespace Homestead

/-! ## What the log says -/

/-- How many lists of matches a move executes at a table for so many players. -/
def Move.lists (players : Nat) : Move → Nat
  | .trigger .. | .act .. | .endTurn .. => 1
  | .triggerAll .. | .beginRound => players
  | .harvest => 8 * players
  | _ => 0

/-- The farms to which a move dispatches its events. -/
def Move.stage (g : Game) : Move → Seating Farm
  | .beginRound => g.farms.map Farm.startRound
  | _ => g.farms

/-- The number of matches that a refusal ended. -/
def Turn.failed : Turn → Nat
  | dispatched reports =>
    (reports.flatMap Report.firings).countP fun f => f.outcome.failure.isSome
  | _ => 0

namespace Entry

/-- Did the move clear the registry? -/
def isClearing : Entry → Bool
  | move _ .clearRegistry _ => true
  | _ => false

/-- The number of effects that dispatching applied. -/
def executed : Entry → Nat
  | move _ _ turn => turn.executed
  | edit _ => 0

/-- The number of matches that a refusal ended. -/
def failed : Entry → Nat
  | move _ _ turn => turn.failed
  | edit _ => 0

/-- The number of lists of matches that the move executed. -/
def processed (players : Nat) : Entry → Nat
  | move _ m _ => m.lists players
  | edit _ => 0

/-- The counters of all copies before dispatching, if there was any. -/
def countersBefore : Entry → List Nat
  | move g m (.dispatched _) => (m.stage g).counters
  | _ => []

/-- The counters of all copies after dispatching, if there was any. -/
def countersAfter : Entry → List Nat
  | move g m (.dispatched _) =>
    match g.step m with
    | .ok (g', _) => g'.farms.counters
    | .error _ => []
  | _ => []

/-- How far dispatching raised the counters of all copies. -/
def growth (e : Entry) : Int := (e.countersAfter.sum : Int) - e.countersBefore.sum

end Entry

/-- What was logged since the registry was last cleared. -/
def sinceCleared (log : List Entry) : List Entry := log.rtakeWhile fun e => !e.isClearing

/-- The counters of a registry went up by so much. -/
structure Registry.Tallied (processed executed failures : Nat) (r r' : Registry) : Prop where
  processed : r'.processed = r.processed + processed
  executed : r'.executed = r.executed + executed
  failures : r'.failures = r.failures + failures

variable {g g' : Game} {move : Move} {turn : Turn} {events : List (Seat × Event)}
  {reports : List Report} {r r' r'' : Registry} {p p' e e' f f' : Nat} {log : List Entry}
  {setup : Setup}

/-! ## The counters of a registry -/

namespace Registry

namespace Tallied

theorem refl (r : Registry) : Tallied 0 0 0 r r := ⟨rfl, rfl, rfl⟩

theorem trans (h : Tallied p e f r r') (h' : Tallied p' e' f' r' r'') :
    Tallied (p + p') (e + e') (f + f') r r'' := by
  obtain ⟨hp, he, hf⟩ := h
  obtain ⟨hp', he', hf'⟩ := h'
  constructor <;> omega

theorem tally (r : Registry) (report : Report) :
    Tallied 1 report.fired.length
      (report.firings.countP fun f => f.outcome.failure.isSome) r (r.tally report) where
  processed := rfl
  executed := rfl
  failures := congrArg (r.failures + ·) List.length_filterMap_eq_countP

end Tallied

theorem Relisted.tallied (h : Relisted r r') : Tallied 0 0 0 r r' := by
  obtain ⟨_, rfl⟩ := h
  exact ⟨rfl, rfl, rfl⟩

end Registry

namespace Game

/-! ## Moves -/

theorem length_events (g : Game) (move : Move) :
    (move.events g).length = move.lists g.farms.size := by
  have seats : g.seats.length = g.farms.size := g.farms.length_seats
  cases move with
  | harvest =>
    have all : Moment.harvest.length = 8 := rfl
    simp only [Move.events, Move.lists, List.length_flatMap, List.length_map, seats,
      List.map_const', List.sum_replicate_nat, all]
  | triggerAll | beginRound => simp [Move.events, Move.lists, seats]
  | _ => rfl

theorem Dispatches.tallied (h : Dispatches events g g' reports) :
    Registry.Tallied events.length (reports.flatMap Report.fired).length
      (Turn.dispatched reports).failed g.registry g'.registry := by
  induction h with
  | nil => exact .refl _
  | @cons _ _ _ g _ report _ reports _ _ _ ih =>
    have tallied := (Registry.Tallied.tally g.registry report).trans ih
    simpa [Turn.failed, List.countP_append, Nat.add_comm] using tallied

theorem Dispatches.rises (h : Dispatches events g g' reports) :
    Rises (reports.flatMap Report.fired).length g.farms.counters g'.farms.counters := by
  induction h with
  | nil => exact .refl _
  | cons hfires _ _ ih =>
    rw [List.flatMap_cons, List.length_append]
    exact hfires.rises.trans ih

/-- A move that dispatches is not refused. -/
theorem lists_of_refused {cause : Refusal} (h : g.step move = .ok (g', .refused cause))
    (players : Nat) : move.lists players = 0 := by
  cases move with
  | trigger | act | endTurn =>
    obtain ⟨reports, -, eq⟩ := dispatches_of_single h
    cases eq
  | triggerAll | harvest =>
    obtain ⟨reports, -, eq⟩ := dispatches_of_several h
    cases eq
  | beginRound =>
    obtain ⟨result, -, h⟩ := Checked.bind_eq_ok.1 h
    cases Checked.pure_eq_ok.1 h
  | _ => rfl

/-- A move that does not clear the registry adds to its counters what the turn reports. -/
theorem tallied_of_step (h : g.step move = .ok (g', turn)) (kept : move ≠ .clearRegistry) :
    Registry.Tallied (move.lists g.farms.size) turn.executed turn.failed g.registry
      g'.registry := by
  cases Steps.of_step h with
  | refused =>
    rw [lists_of_refused h]
    exact .refl _
  | played hplays =>
    cases hplays with
    | played => exact (Registry.relisted_register ..).tallied
  | discarded => exact (Registry.relisted_unregister ..).tallied
  | discardedAll => exact ⟨rfl, rfl, rfl⟩
  | cooked => exact .refl _
  | dispatched _ hd =>
    rw [← length_events]
    exact hd.tallied
  | roundBegun _ hd =>
    rw [← length_events]
    exact hd.tallied
  | cleared => exact absurd rfl kept
  | rebuilt => exact (relisted_registerEach ..).tallied

/-- Dispatching raises the counters of all copies by the number of effects that it applied. -/
theorem rises_of_step (h : g.step move = .ok (g', turn)) :
    Rises turn.executed (Entry.move g move turn).countersBefore
      (Entry.move g move turn).countersAfter := by
  cases Steps.of_step h with
  | refused | played | discarded | discardedAll | cooked | cleared | rebuilt => exact .refl _
  | dispatched dispatch hd =>
    have stage : move.stage g = g.farms := by
      cases move <;> first | rfl | cases dispatch
    simp only [Entry.countersBefore, Entry.countersAfter, h, stage]
    exact hd.rises
  | roundBegun _ hd =>
    simp only [Entry.countersBefore, Entry.countersAfter, h]
    exact hd.rises

/-- Playing a card changes no counter of the registry, whatever its effects do. -/
theorem tallied_of_play {seat : Seat} {card : Card}
    (h : g.step (.play seat card) = .ok (g', turn)) :
    Registry.Tallied 0 0 0 g.registry g'.registry := by
  cases Steps.of_step h with
  | refused => exact .refl _
  | played hplays =>
    cases hplays with
    | played => exact (Registry.relisted_register ..).tallied
  | dispatched dispatch => cases dispatch

theorem sinceCleared_concat (log : List Entry) (e : Entry) :
    sinceCleared (log ++ [e]) = if e.isClearing then [] else sinceCleared log ++ [e] := by
  unfold sinceCleared
  rw [List.rtakeWhile_concat]
  cases e.isClearing <;> rfl

namespace History

variable {allowed : Farm → Farm → Prop}

/-- The counters of the registry went up by what was logged since it was last cleared. -/
theorem tallied (h : History allowed setup log g) :
    Registry.Tallied ((sinceCleared log).map (Entry.processed setup.players)).sum
      ((sinceCleared log).map Entry.executed).sum ((sinceCleared log).map Entry.failed).sum
      (.new setup.policy) g.registry := by
  induction h with
  | start hstart =>
    rw [(of_start hstart).2.1]
    exact .refl _
  | @move log g m g' turn hlog hstep ih =>
    rw [sinceCleared_concat]
    by_cases clearing : m = .clearRegistry
    · subst clearing
      cases Checked.pure_eq_ok.1 hstep
      exact ⟨rfl, rfl, rfl⟩
    · have kept : (Entry.move g m turn).isClearing = false := by
        cases m <;> first | rfl | exact absurd rfl clearing
      have tallied := ih.trans (tallied_of_step hstep clearing)
      rw [hlog.size_eq] at tallied
      simpa [kept, Entry.processed, Entry.executed, Entry.failed] using tallied
  | edit _ _ _ ih =>
    rw [sinceCleared_concat]
    simpa [Entry.isClearing, Entry.processed, Entry.executed, Entry.failed, withFarm] using ih

/-- In each entry the counters of all copies rose by the number of effects applied. -/
theorem rises (h : History allowed setup log g) :
    ∀ e ∈ log, Rises e.executed e.countersBefore e.countersAfter := by
  induction h with
  | start => exact fun _ he => absurd he List.not_mem_nil
  | move _ hstep ih =>
    exact List.forall_mem_append.2 ⟨ih, List.forall_mem_singleton.2 (rises_of_step hstep)⟩
  | edit _ _ _ ih =>
    exact List.forall_mem_append.2 ⟨ih, List.forall_mem_singleton.2 (.refl [])⟩

theorem registered (h : History Farm.SameCards setup log g) :
    g.registry.size = (g.seats.map g.registry.countOf).sum := by
  have order := h.inOrder
  let pairs := g.seats.flatMap fun seat => (g.registry.copiesOf seat).map fun id => (seat, id)
  have nodup : pairs.Nodup :=
    nodup_tagged (Seat.all_nodup _) fun seat _ => order.tidy.copiesOf_nodup seat
  have same : ∀ seat id, id ∈ g.registry.copiesOf seat ↔ (seat, id) ∈ pairs := by
    intro seat id
    simp only [pairs, List.mem_flatMap, List.mem_map, Prod.mk.injEq]
    constructor
    · intro hid
      obtain ⟨f, hf, -⟩ := mem_idsOf.1 (order.owned hid)
      have seated : seat ∈ g.seats :=
        (g.farms.mem_seats seat).2 ((g.farms.isSome_get? seat).1 (Option.isSome_of_eq_some hf))
      exact ⟨seat, seated, id, hid, rfl, rfl⟩
    · intro h
      obtain ⟨place, -, i, hi, rfl, rfl⟩ := h
      exact hi
  rw [order.tidy.size_eq_length nodup same, List.length_flatMap]
  simp only [List.length_map]
  rfl

end History

end Game

/-- Where no counter is saturated, what was executed is what the counters rose by. -/
theorem sum_growth (rises : ∀ e ∈ log, Rises e.executed e.countersBefore e.countersAfter)
    (unsaturated : ∀ e ∈ log, Unsaturated e.countersAfter) :
    ((log.map Entry.executed).sum : Int) = (log.map Entry.growth).sum := by
  induction log with
  | nil => rfl
  | cons e log ih =>
    obtain ⟨first, rest⟩ := List.forall_mem_cons.1 rises
    obtain ⟨unsaturated, others⟩ := List.forall_mem_cons.1 unsaturated
    have rest := ih rest others
    have first := (first unsaturated).2
    rw [List.map_cons, List.sum_cons, List.map_cons, List.sum_cons, ← rest, Entry.growth]
    omega

/-- The statistics are an exact account of the game since its start, or since its registry was last
cleared. The effects executed are those that the turns report, and, while no counter is saturated,
as many as dispatching raised the counters of the copies by; the lists processed are one for each
event that a move sends to a seat, and the failures the matches that a refusal ended. What is
registered is what is listed for the seats. Playing a card counts nowhere. -/
theorem statistics_exact (h : Game.History Farm.SameCards setup log g) :
    g.registry.stats.executed = ((sinceCleared log).map Entry.executed).sum ∧
      ((∀ e ∈ sinceCleared log, Unsaturated e.countersAfter) →
        (g.registry.stats.executed : Int) = ((sinceCleared log).map Entry.growth).sum) ∧
      g.registry.stats.processed = ((sinceCleared log).map (Entry.processed setup.players)).sum ∧
      g.registry.stats.failures = ((sinceCleared log).map Entry.failed).sum ∧
      g.registry.stats.registered = (g.seats.map g.registry.countOf).sum ∧
      ∀ seat card g' turn, g.step (.play seat card) = .ok (g', turn) →
        g'.registry.executed = g.registry.executed ∧
          g'.registry.processed = g.registry.processed ∧
          g'.registry.failures = g.registry.failures := by
  have tallied := h.tallied
  have executed : g.registry.executed = _ := tallied.executed.trans (Nat.zero_add _)
  refine ⟨executed, ?_, tallied.processed.trans (Nat.zero_add _),
    tallied.failures.trans (Nat.zero_add _), h.registered, ?_⟩
  · intro unsaturated
    have logged : ∀ e ∈ sinceCleared log, Rises e.executed e.countersBefore e.countersAfter :=
      fun e he => h.rises e ((List.rtakeWhile_suffix _ _).subset he)
    rw [← sum_growth logged unsaturated, ← executed]
    rfl
  · intro seat card g' turn hstep
    have played := Game.tallied_of_play hstep
    exact ⟨played.executed, played.processed, played.failures⟩

/-- A joinery has no wood in a first harvest, after which the registry is cleared and rebuilt. From
then on it is used once, in a second harvest, and refused once more; a wood cutter is used once; and
a turn of a seat that nobody has is a list of matches like any other. -/
theorem statistics_exact_joinery :
    ∃ log g, Game.History Farm.SameCards
        ⟨2, .strict, ⟨[(.wood, 2), (.stone, 2)]⟩, 2, 2⟩ log g ∧
      g.registry.stats = ⟨2, 21, 2, 1⟩ ∧ log.length = 10 ∧ (sinceCleared log).length = 7 ∧
      (2 : Int) = ((sinceCleared log).map Entry.growth).sum ∧
      21 = ((sinceCleared log).map (Entry.processed 2)).sum ∧
      1 = ((sinceCleared log).map Entry.failed).sum := by
  have started : Game.History Farm.SameCards
      ⟨2, .strict, ⟨[(.wood, 2), (.stone, 2)]⟩, 2, 2⟩ [] _ := .start rfl
  have joinery := started.move (rfl : Game.step _ (.play ⟨0⟩ Deck.joinery) = .ok (_, _))
  have harvested := joinery.move (rfl : Game.step _ .harvest = .ok (_, _))
  have cleared := harvested.move (rfl : Game.step _ .clearRegistry = .ok (_, _))
  have rebuilt := cleared.move (rfl : Game.step _ .rebuildRegistry = .ok (_, _))
  have cutter := rebuilt.move (rfl : Game.step _ (.play ⟨0⟩ Deck.woodCutter) = .ok (_, _))
  have felled := cutter.move
    (rfl : Game.step _ (.act ⟨0⟩ ⟨"Forest", .gathering⟩) = .ok (_, _))
  have harvested := felled.move (rfl : Game.step _ .harvest = .ok (_, _))
  have begun := harvested.move (rfl : Game.step _ .beginRound = .ok (_, _))
  have ended := begun.move (rfl : Game.step _ (.endTurn ⟨9⟩) = .ok (_, _))
  have fed := ended.move
    (rfl : Game.step _ (.trigger ⟨0⟩ (.new .feedingPhase ⟨0⟩)) = .ok (_, _))
  obtain ⟨-, growth, processed, failed, -⟩ := statistics_exact fed
  exact ⟨_, _, fed, rfl, rfl, rfl, growth (by decide), processed, failed⟩

end Homestead
