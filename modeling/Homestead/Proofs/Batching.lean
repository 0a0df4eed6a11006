import Homestead.Game
import Homestead.Proofs.Responding

/-!
# Batches and single dispatches

A dispatch to several seats finds every match before it fires any, and by then some of the matches
may be stale. `Registry.triggerEach` dispatches to the seats one after the other instead, each with
matches found anew. Both end in the same fault, or on the same farms with the same effects applied
in the same order (`Registry.yield_triggerEach`): the farms on which a batch found its matches were
only worn in the meantime.

What a dispatch does depends on the event's *content*, not on the seat that the event names
(`Registry.triggerEach_congr`), so the dispatch of a game to all seats is a batch too
(`batch_eq_one_by_one`).
-/

namespace Homestead

/-- What an event says, apart from the seat that it names. -/
structure Event.Content where
  moment : Moment
  payload : Payload
  /-- The text that narrows down which effects are meant; the empty one lets everything pass. -/
  filter : String
  deriving DecidableEq

/-- What an event says, apart from the seat that it names. -/
def Event.content (e : Event) : Content := ⟨e.moment, e.payload, e.filterText⟩

/-- Dispatches events to seats one after the other. -/
def Registry.triggerEach :
    List (Seat × Event) → Registry → Seating Farm →
      Checked (Registry × Seating Farm × List Report)
  | [], r, farms => return (r, farms, [])
  | (seat, event) :: rest, r, farms => do
    let (r, farms, report) ← r.trigger farms seat event
    let (r, farms, reports) ← triggerEach rest r farms
    return (r, farms, report :: reports)

variable {r r' : Registry} {farms farms' farms₀ : Seating Farm} {seat : Seat} {event event' : Event}
  {calls calls' : List (Seat × Event)} {report : Report} {reports : List Report}

/-! ## What an event says -/

theorem Farm.due_congr (h : event.content = event'.content) (f : Farm) (id : CopyId) :
    f.due event id = f.due event' id := by
  obtain ⟨hmoment, hpayload, hfilter⟩ := Event.Content.mk.inj h
  have hanswers (c : Copy) : c.answers event = c.answers event' := by
    rw [Copy.answers, Copy.answers, hmoment, hpayload]
  simp only [due, Copy.due, hanswers, hfilter]

namespace Registry

theorem trigger_congr (h : event.content = event'.content) (r : Registry) (farms : Seating Farm)
    (seat : Seat) : r.trigger farms seat event = r.trigger farms seat event' := by
  have hmatch (f : Farm) : f.match? seat event = f.match? seat event' := by
    funext id
    rw [f.match?_eq, f.match?_eq, f.due_congr h]
  have hmoment : event.moment = event'.moment := congrArg Event.Content.moment h
  simp only [trigger, execute, find, hmatch, hmoment]

/-- Dispatches to the same seats of events that say the same are the same. -/
theorem triggerEach_congr
    (h : calls.map (fun c => (c.1, c.2.content)) = calls'.map fun c => (c.1, c.2.content))
    (r : Registry) (farms : Seating Farm) :
    triggerEach calls r farms = triggerEach calls' r farms := by
  induction calls generalizing calls' r farms with
  | nil =>
    obtain rfl : calls' = [] := List.map_eq_nil_iff.1 h.symm
    rfl
  | cons c calls ih =>
    obtain ⟨c', calls', rfl, hc, hcalls⟩ := List.map_eq_cons_iff.1 h.symm
    obtain ⟨hseat, hcontent⟩ := Prod.mk.inj hc
    rw [triggerEach, triggerEach, ← hseat, ← trigger_congr hcontent]
    cases r.trigger farms c'.1 c'.2 with
    | error fault => rfl
    | ok x => simp only [Checked.ok_bind, ih hcalls.symm]

/-! ## Single dispatches -/

theorem trigger_eq_ok_iff :
    r.trigger farms seat event = .ok (r', farms', report) ↔
      Match.FiresAll r.policy (r.find farms seat event) farms farms' report.firings ∧
        report.moment = event.moment ∧ r' = r.tally report := execute_eq_ok_iff

/-- Single dispatches leave the list of the registry alone and count what each of them did. -/
theorem of_triggerEach (h : triggerEach calls r farms = .ok (r', farms', reports)) :
    reports.length = calls.length ∧
      r' = { r with
        processed := r.processed + reports.length
        executed := r.executed + (reports.flatMap Report.fired).length
        failures := r.failures + (reports.flatMap Report.refusals).length } := by
  induction calls generalizing r farms reports with
  | nil =>
    cases Checked.pure_eq_ok.1 h
    exact ⟨rfl, rfl⟩
  | cons c calls ih =>
    obtain ⟨⟨r₁, farms₁, report⟩, hfirst, h⟩ := Checked.bind_eq_ok.1 h
    obtain ⟨⟨r', farms', reports⟩, hrest, h⟩ := Checked.bind_eq_ok.1 h
    cases Checked.pure_eq_ok.1 h
    obtain ⟨-, -, rfl⟩ := trigger_eq_ok_iff.1 hfirst
    obtain ⟨hlength, rfl⟩ := ih hrest
    refine ⟨congrArg (· + 1) hlength, ?_⟩
    simp only [tally, Report.executed, List.length_cons, List.flatMap_cons, List.length_append]
    grind

/-- Single dispatches come to what a batch comes to whose matches were found before the farms were
worn. -/
theorem yield_triggerEach (worn : Seating.Related Farm.Worn farms₀ farms) (seats : List Seat)
    (event : Event) :
    (fun x => (x.2.1, Yield.ofFirings (x.2.2.flatMap Report.firings))) <$>
        triggerEach (seats.map fun seat => (seat, event)) r farms =
      Match.yieldAll r.policy (r.findAll farms₀ seats event) farms := by
  induction seats generalizing r farms with
  | nil => rfl
  | cons seat seats ih =>
    rw [findAll, List.flatMap_cons, Match.yieldAll_append, yieldAll_find worn, respond_eq,
      List.map_cons, triggerEach]
    cases hfirst : r.trigger farms seat event with
    | error fault => rfl
    | ok x =>
      obtain ⟨r₁, farms₁, report⟩ := x
      obtain ⟨hfires, -, rfl⟩ := trigger_eq_ok_iff.1 hfirst
      have worn₁ := worn.trans .trans hfires.worn
      have hrest := ih worn₁ (r := r.tally report)
      change _ = Match.yieldAll r.policy (r.findAll farms₀ seats event) farms₁ at hrest
      rw [findAll] at hrest
      simp only [Checked.map_ok, Checked.ok_bind, ← hrest]
      cases triggerEach (seats.map fun seat => (seat, event)) (r.tally report) farms₁ with
      | error fault => rfl
      | ok y => exact congrArg (fun w => Except.ok (y.2.1, w)) (Yield.ofFirings_append ..)

/-- A batch and the single dispatches to its seats end in the same fault, or on the same farms and
with the same effects and refusals. -/
theorem triggerAll_or_triggerEach (r : Registry) (farms : Seating Farm) (seats : List Seat)
    (event : Event) :
    (∃ fault, r.triggerAll farms seats event = .error fault ∧
      triggerEach (seats.map fun seat => (seat, event)) r farms = .error fault) ∨
    ∃ farms' batch report single reports,
      r.triggerAll farms seats event = .ok (batch, farms', report) ∧
      triggerEach (seats.map fun seat => (seat, event)) r farms = .ok (single, farms', reports) ∧
      report.yield = .ofFirings (reports.flatMap Report.firings) := by
  have heach := yield_triggerEach (.refl .refl farms) seats event (r := r)
  have hall : Match.yieldAll r.policy (r.findAll farms seats event) farms =
      (fun x => (x.2.1, x.2.2.yield)) <$> r.triggerAll farms seats event := by
    rw [triggerAll, execute, Match.yieldAll]
    cases Match.fireAll r.policy (r.findAll farms seats event) farms <;> rfl
  rw [hall] at heach
  cases hbatch : r.triggerAll farms seats event with
  | error fault =>
    rw [hbatch] at heach
    cases hsingle : triggerEach (seats.map fun seat => (seat, event)) r farms with
    | error fault' =>
      rw [hsingle] at heach
      cases heach
      exact .inl ⟨fault, rfl, rfl⟩
    | ok x =>
      rw [hsingle] at heach
      cases heach
  | ok x =>
    obtain ⟨batch, farms', report⟩ := x
    rw [hbatch] at heach
    obtain ⟨⟨single, farms₁, reports⟩, hsingle, heq⟩ := Checked.map_eq_ok.1 heach
    obtain ⟨hfarms, hyield⟩ := Prod.mk.inj heq
    subst hfarms
    exact .inr ⟨_, batch, report, single, reports, rfl, hsingle, hyield.symm⟩

end Registry

/-! ## Games -/

theorem Game.triggerEach_eq (calls : List (Seat × Event)) (g : Game) :
    Game.triggerEach calls g =
      (fun x => ({ g with registry := x.1, farms := x.2.1 }, x.2.2)) <$>
        Registry.triggerEach calls g.registry g.farms := by
  induction calls generalizing g with
  | nil => rfl
  | cons c calls ih =>
    rw [triggerEach, Registry.triggerEach, trigger]
    cases g.registry.trigger g.farms c.1 c.2 with
    | error fault => rfl
    | ok x =>
      simp only [Checked.ok_bind, pure_bind, ih]
      cases Registry.triggerEach calls x.1 x.2.1 <;> rfl

/-- Dispatching to every seat as an event that concerns it is dispatching the one event to each. -/
theorem Game.triggerAll_eq (g : Game) (event : Event) :
    g.triggerAll event =
      (fun x => ({ g with registry := x.1, farms := x.2.1 }, x.2.2)) <$>
        Registry.triggerEach (g.seats.map fun seat => (seat, event)) g.registry g.farms := by
  rw [triggerAll, triggerSeats, triggerEach_eq]
  congr 1
  exact Registry.triggerEach_congr (by simp [Event.content, Event.forSeat, Event.filterText]) ..

/-- Batched dispatch equals dispatch one by one. For any registry, farms, seats and event, the batch
and the single dispatches to the same seats in the same order both end in the same fault, or lead to
the same farms and registrations with the same effects applied, counted alike but for the number of
lists processed. The dispatch of a game to all of its seats leads to the farms of that batch. -/
theorem batch_eq_one_by_one :
    (∀ (r : Registry) (farms : Seating Farm) (seats : List Seat) (event : Event),
      (∃ fault, r.triggerAll farms seats event = .error fault ∧
        Registry.triggerEach (seats.map fun seat => (seat, event)) r farms = .error fault) ∨
      ∃ farms' batch report single reports,
        r.triggerAll farms seats event = .ok (batch, farms', report) ∧
        Registry.triggerEach (seats.map fun seat => (seat, event)) r farms =
          .ok (single, farms', reports) ∧
        report.yield = .ofFirings (reports.flatMap Report.firings) ∧
        report.executed = (reports.flatMap Report.fired).length ∧
        batch.listed = r.listed ∧ single.listed = r.listed ∧
        batch.executed = r.executed + report.executed ∧ single.executed = batch.executed ∧
        batch.failures = r.failures + report.refusals.length ∧ single.failures = batch.failures ∧
        batch.processed = r.processed + 1 ∧ single.processed = r.processed + seats.length) ∧
    ∀ (g : Game) (event : Event),
      (∃ fault, g.triggerAll event = .error fault ∧
        g.registry.triggerAll g.farms g.seats event = .error fault) ∨
      ∃ g' reports batch report,
        g.triggerAll event = .ok (g', reports) ∧
        g.registry.triggerAll g.farms g.seats event = .ok (batch, g'.farms, report) := by
  refine ⟨fun r farms seats event => ?_, fun g event => ?_⟩
  · rcases r.triggerAll_or_triggerEach farms seats event with
      fault | ⟨farms', batch, report, single, reports, hbatch, hsingle, hyield⟩
    · exact .inl fault
    · obtain ⟨-, -, rfl⟩ := Registry.execute_eq_ok_iff.1 hbatch
      obtain ⟨hlength, rfl⟩ := Registry.of_triggerEach hsingle
      have hexecuted : report.executed = (reports.flatMap Report.fired).length := by
        rw [Report.executed_eq, hyield, Yield.fired_ofFirings]
        simp [Report.fired, List.flatMap_assoc, List.length_flatMap]
      have hrefusals : report.refusals.length = (reports.flatMap Report.refusals).length := by
        rw [Report.refusals_eq, hyield, Yield.refusals_ofFirings, List.filterMap_flatMap]
        rfl
      refine .inr ⟨farms', _, report, _, reports, hbatch, hsingle, hyield, hexecuted, rfl, rfl, rfl,
        ?_, rfl, ?_, rfl, ?_⟩
      · exact congrArg (r.executed + ·) hexecuted.symm
      · exact congrArg (r.failures + ·) hrefusals.symm
      · rw [hlength, List.length_map]
  · rw [g.triggerAll_eq event]
    rcases g.registry.triggerAll_or_triggerEach g.farms g.seats event with
      ⟨fault, hbatch, hsingle⟩ | ⟨farms', batch, report, single, reports, hbatch, hsingle, -⟩
    · rw [hsingle]
      exact .inl ⟨fault, rfl, hbatch⟩
    · rw [hsingle]
      exact .inr ⟨_, reports, batch, report, rfl, hbatch⟩

end Homestead
