import Homestead.Deck
import Homestead.Proofs.Batching

/-!
# Seats do not interfere

A dispatch to one seat reads and writes that seat's farm alone, so single dispatches to many seats
fall apart into a *course* for each seat: what the events that go to the seat do to its farm, one
after the other (`Farm.course`). Dispatches that end take every seat through its course
(`Registry.course_of_triggerEach`), and they end if each course does
(`Registry.triggerEach_of_courses`).

So nothing that is sent to other seats can be noticed at a seat, and dispatches may be reordered as
long as each seat sees its own in order (`seats_do_not_interfere`).
-/

namespace Homestead

/-- The events that go to a seat, in order. -/
def eventsTo (seat : Seat) (calls : List (Seat × Event)) : List Event :=
  (calls.filter fun c => c.1 = seat).map Prod.snd

/-- The reports of the dispatches that go to a seat, in order. -/
def reportsTo (seat : Seat) (calls : List (Seat × Event)) (reports : List Report) : List Report :=
  ((calls.zip reports).filter fun c => c.1.1 = seat).map Prod.snd

/-- The events of a harvest seat by seat: each seat goes through all moments before the next. -/
def Game.harvestBySeat (g : Game) : List (Seat × Event) :=
  g.seats.flatMap fun seat =>
    Moment.harvest.map fun moment => (seat, .harvest moment seat g.round)

namespace Farm

/-- What an event does at a place where there may be a farm. -/
def respond? (policy : PaymentPolicy) (seat : Seat) (ids : List CopyId) (event : Event) :
    Option Farm → Checked (Option Farm × Yield)
  | none => return (none, .nothing)
  | some f => (fun x => (some x.1, x.2)) <$> f.respond policy seat event ids

/-- What events do one after the other at a place where there may be a farm. -/
def course (policy : PaymentPolicy) (seat : Seat) (ids : List CopyId) :
    List Event → Option Farm → Checked (Option Farm × List Yield)
  | [], place => return (place, [])
  | event :: events, place => do
    let (place, y) ← respond? policy seat ids event place
    let (place, ys) ← course policy seat ids events place
    return (place, y :: ys)

end Farm

variable {policy : PaymentPolicy} {seat other : Seat} {event event' : Event} {ids : List CopyId}
  {events events' : List Event} {place place' : Option Farm} {y : Yield} {ys : List Yield}
  {r r' : Registry} {farms farms' : Seating Farm} {report : Report} {reports : List Report}
  {calls calls' : List (Seat × Event)}

/-! ## Courses -/

theorem eventsTo_cons_self (seat : Seat) (event : Event) (calls : List (Seat × Event)) :
    eventsTo seat ((seat, event) :: calls) = event :: eventsTo seat calls := by
  simp [eventsTo]

theorem eventsTo_cons_ne (h : seat ≠ other) (event : Event) (calls : List (Seat × Event)) :
    eventsTo other ((seat, event) :: calls) = eventsTo other calls := by
  simp [eventsTo, h]

theorem reportsTo_cons_self (seat : Seat) (event : Event) (calls : List (Seat × Event))
    (report : Report) (reports : List Report) :
    reportsTo seat ((seat, event) :: calls) (report :: reports) =
      report :: reportsTo seat calls reports := by
  simp [reportsTo]

theorem reportsTo_cons_ne (h : seat ≠ other) (event : Event) (calls : List (Seat × Event))
    (report : Report) (reports : List Report) :
    reportsTo other ((seat, event) :: calls) (report :: reports) =
      reportsTo other calls reports := by
  simp [reportsTo, h]

namespace Farm

theorem respond_congr (h : event.content = event'.content) (f : Farm) (ids : List CopyId) :
    f.respond policy seat event ids = f.respond policy seat event' ids := by
  induction ids generalizing f with
  | nil => rfl
  | cons id ids ih => simp only [respond, f.due_congr h, ih]

theorem course_congr (h : events.map Event.content = events'.map Event.content)
    (place : Option Farm) :
    course policy seat ids events place = course policy seat ids events' place := by
  induction events generalizing events' place with
  | nil =>
    obtain rfl : events' = [] := List.map_eq_nil_iff.1 h.symm
    rfl
  | cons event events ih =>
    obtain ⟨event', events', rfl, hevent, hevents⟩ := List.map_eq_cons_iff.1 h.symm
    have hrespond :
        respond? policy seat ids event place = respond? policy seat ids event' place := by
      cases place with
      | none => rfl
      | some f => rw [respond?, respond?, respond_congr hevent.symm]
    simp only [course, hrespond, ih hevents.symm]

theorem course_cons_eq_ok {result : Option Farm × List Yield}
    (h : course policy seat ids (event :: events) place = .ok result) :
    ∃ place₁ y ys, respond? policy seat ids event place = .ok (place₁, y) ∧
      course policy seat ids events place₁ = .ok (result.1, ys) ∧ result.2 = y :: ys := by
  obtain ⟨⟨place₁, y⟩, hfirst, h⟩ := Checked.bind_eq_ok.1 h
  obtain ⟨⟨place', ys⟩, hrest, h⟩ := Checked.bind_eq_ok.1 h
  cases Checked.pure_eq_ok.1 h
  exact ⟨place₁, y, ys, hfirst, hrest, rfl⟩

end Farm

/-! ## Dispatches -/

namespace Registry

/-- A dispatch does at its seat what the event does there, and nothing at any other seat. -/
theorem place_of_trigger (h : r.trigger farms seat event = .ok (r', farms', report)) :
    Farm.respond? r.policy seat (r.copiesOf seat) event (farms.get? seat) =
        .ok (farms'.get? seat, report.yield) ∧
      ∀ other, seat ≠ other → farms'.get? other = farms.get? other := by
  have hrespond := r.respond_eq farms seat event
  rw [h] at hrespond
  cases hf : farms.get? seat with
  | none =>
    rw [respond_of_get?_eq_none hf] at hrespond
    obtain ⟨rfl, hyield⟩ := Prod.mk.inj (Except.ok.inj hrespond)
    refine ⟨?_, fun other _ => rfl⟩
    rw [← hyield, hf]
    rfl
  | some f =>
    rw [respond_of_get? hf] at hrespond
    obtain ⟨⟨f', y⟩, hfarm, heq⟩ := Checked.map_eq_ok.1 hrespond
    obtain ⟨rfl, hyield⟩ := Prod.mk.inj heq
    refine ⟨?_, fun other ne => Seating.get?_set_ne ne f'⟩
    rw [Farm.respond?, hfarm, Seating.get?_set_self hf, ← hyield]
    rfl

theorem trigger_of_place
    (h : Farm.respond? r.policy seat (r.copiesOf seat) event (farms.get? seat) = .ok (place, y)) :
    ∃ r' farms' report, r.trigger farms seat event = .ok (r', farms', report) := by
  obtain ⟨farms', hrespond⟩ : ∃ farms', r.respond farms seat event = .ok (farms', y) := by
    cases hf : farms.get? seat with
    | none =>
      rw [hf] at h
      cases h
      exact ⟨farms, respond_of_get?_eq_none hf ..⟩
    | some f =>
      rw [hf] at h
      obtain ⟨x, hfarm, heq⟩ := Checked.map_eq_ok.1 h
      cases heq
      exact ⟨farms.set seat x.1, by rw [respond_of_get? hf, hfarm]; rfl⟩
  rw [respond_eq] at hrespond
  obtain ⟨x, htrigger, -⟩ := Checked.map_eq_ok.1 hrespond
  exact ⟨_, _, _, htrigger⟩

/-- Dispatches that end take every seat through its course. -/
theorem course_of_triggerEach (h : triggerEach calls r farms = .ok (r', farms', reports))
    (seat : Seat) :
    Farm.course r.policy seat (r.copiesOf seat) (eventsTo seat calls) (farms.get? seat) =
      .ok (farms'.get? seat, (reportsTo seat calls reports).map Report.yield) := by
  induction calls generalizing r farms reports with
  | nil =>
    cases Checked.pure_eq_ok.1 h
    rfl
  | cons c calls ih =>
    obtain ⟨⟨r₁, farms₁, report⟩, hfirst, h⟩ := Checked.bind_eq_ok.1 h
    obtain ⟨⟨r', farms', reports⟩, hrest, h⟩ := Checked.bind_eq_ok.1 h
    cases Checked.pure_eq_ok.1 h
    obtain ⟨place, event⟩ := c
    obtain ⟨hplace, hothers⟩ := place_of_trigger hfirst
    obtain ⟨-, -, rfl⟩ := trigger_eq_ok_iff.1 hfirst
    have hcourse : Farm.course r.policy seat (r.copiesOf seat) (eventsTo seat calls)
        (farms₁.get? seat) = _ := ih (r := r.tally report) hrest
    by_cases eq : place = seat
    · subst eq
      rw [eventsTo_cons_self, reportsTo_cons_self, Farm.course, hplace]
      simp only [Checked.ok_bind, hcourse]
      rfl
    · rw [eventsTo_cons_ne eq, reportsTo_cons_ne eq, ← hothers seat eq]
      exact hcourse

/-- Dispatches end if the course of each seat does. -/
theorem triggerEach_of_courses (h : ∀ seat, ∃ result,
      Farm.course r.policy seat (r.copiesOf seat) (eventsTo seat calls) (farms.get? seat) =
        .ok result) :
    ∃ r' farms' reports, triggerEach calls r farms = .ok (r', farms', reports) := by
  induction calls generalizing r farms with
  | nil => exact ⟨r, farms, [], rfl⟩
  | cons c calls ih =>
    obtain ⟨seat, event⟩ := c
    obtain ⟨result, hseat⟩ := h seat
    rw [eventsTo_cons_self] at hseat
    obtain ⟨place₁, y, ys, hplace, hcourse, -⟩ := Farm.course_cons_eq_ok hseat
    obtain ⟨r₁, farms₁, report, hfirst⟩ := trigger_of_place hplace
    obtain ⟨hplace₁, hothers⟩ := place_of_trigger hfirst
    obtain ⟨-, -, rfl⟩ := trigger_eq_ok_iff.1 hfirst
    cases hplace.symm.trans hplace₁
    -- Every seat goes on with the rest of its course: the one that was served has the event behind
    -- it, the others are where they were.
    have hrest : ∀ other, ∃ result, Farm.course r.policy other (r.copiesOf other)
        (eventsTo other calls) (farms₁.get? other) = .ok result := by
      intro other
      by_cases eq : seat = other
      · subst eq
        exact ⟨_, hcourse⟩
      · obtain ⟨result, hother⟩ := h other
        rw [eventsTo_cons_ne eq, ← hothers other eq] at hother
        exact ⟨result, hother⟩
    obtain ⟨r', farms', reports, hrun⟩ := ih (r := r.tally report) hrest
    refine ⟨r', farms', report :: reports, ?_⟩
    simp only [triggerEach, hfirst, Checked.ok_bind, hrun]
    rfl

/-- Dispatches that say the same to each seat in order lead to the same farms. -/
theorem triggerEach_reorder
    (same : ∀ seat, (eventsTo seat calls).map Event.content =
      (eventsTo seat calls').map Event.content)
    (h : ∃ r' reports, triggerEach calls r farms = .ok (r', farms', reports)) :
    ∃ r' reports, triggerEach calls' r farms = .ok (r', farms', reports) := by
  obtain ⟨r₁, reports₁, h⟩ := h
  have hcourse := course_of_triggerEach h
  obtain ⟨r₂, farms₂, reports₂, h'⟩ : ∃ r₂ farms₂ reports₂,
      triggerEach calls' r farms = .ok (r₂, farms₂, reports₂) := by
    apply triggerEach_of_courses
    intro seat
    rw [← Farm.course_congr (same seat)]
    exact ⟨_, hcourse seat⟩
  have hfarms : farms' = farms₂ := by
    apply Seating.ext_get?
    intro seat
    have hcourse' := course_of_triggerEach h' seat
    rw [← Farm.course_congr (same seat), hcourse seat] at hcourse'
    exact (Prod.mk.inj (Except.ok.inj hcourse')).1
  exact ⟨r₂, reports₂, hfarms ▸ h'⟩

end Registry

/-! ## Harvests -/

theorem eventsTo_append (seat : Seat) (calls calls' : List (Seat × Event)) :
    eventsTo seat (calls ++ calls') = eventsTo seat calls ++ eventsTo seat calls' := by
  simp [eventsTo]

theorem eventsTo_flatMap {α : Type} (seat : Seat) (l : List α) (calls : α → List (Seat × Event)) :
    eventsTo seat (l.flatMap calls) = l.flatMap fun a => eventsTo seat (calls a) := by
  induction l with
  | nil => rfl
  | cons a l ih => rw [List.flatMap_cons, eventsTo_append, ih, List.flatMap_cons]

theorem eventsTo_map (seat other : Seat) (events : List Event) :
    eventsTo seat (events.map fun event => (other, event)) =
      if other = seat then events else [] := by
  induction events with
  | nil => simp [eventsTo]
  | cons event events ih =>
    rw [List.map_cons]
    by_cases eq : other = seat
    · subst eq
      rw [eventsTo_cons_self, ih, if_pos rfl, if_pos rfl]
    · rw [eventsTo_cons_ne eq, ih, if_neg eq, if_neg eq]

/-- What is sent to several seats in turn reaches each of them once. -/
theorem eventsTo_seats {seats : List Seat} (nodup : seats.Nodup) (seat : Seat)
    (events : Seat → List Event) :
    eventsTo seat (seats.flatMap fun other => (events other).map fun event => (other, event)) =
      if seat ∈ seats then events seat else [] := by
  induction seats with
  | nil => rfl
  | cons other seats ih =>
    obtain ⟨new, nodup⟩ := List.nodup_cons.1 nodup
    rw [List.flatMap_cons, eventsTo_append, eventsTo_map, ih nodup]
    by_cases eq : other = seat
    · subst eq
      rw [if_pos rfl, if_neg new, if_pos List.mem_cons_self, List.append_nil]
    · simp [eq, Ne.symm eq]

/-- A seat is sent the same events whether a harvest goes moment by moment or seat by seat. -/
theorem Game.eventsTo_harvest (g : Game) (seat : Seat) :
    eventsTo seat (Moment.harvest.flatMap fun moment =>
        g.seats.map fun seat => (seat, .harvest moment seat g.round)) =
      eventsTo seat g.harvestBySeat := by
  have nodup : g.seats.Nodup := Seat.all_nodup _
  have hmoment (moment : Moment) :
      eventsTo seat (g.seats.map fun seat => (seat, .harvest moment seat g.round)) =
        if seat ∈ g.seats then [.harvest moment seat g.round] else [] := by
    have hseats := eventsTo_seats nodup seat fun seat => [.harvest moment seat g.round]
    simp only [List.map_cons, List.map_nil] at hseats
    rwa [← List.map_eq_flatMap] at hseats
  have hseat := eventsTo_seats nodup seat fun seat =>
    Moment.harvest.map fun moment => .harvest moment seat g.round
  simp only [List.map_map] at hseat
  rw [eventsTo_flatMap, harvestBySeat]
  simp only [hmoment]
  refine Eq.trans ?_ hseat.symm
  by_cases mem : seat ∈ g.seats
  · simp only [if_pos mem, ← List.map_eq_flatMap]
  · simp [mem]

/-- Seats do not interfere. Two runs of single dispatches, on registries and farms that need only
agree at one seat, lead to the same farm there with the same counts if what is sent to that seat
says the same; whatever else is sent elsewhere. Dispatches may be reordered if each seat keeps its
order: they then end on the same farms or both in a fault. In particular a harvest may go seat by
seat. -/
theorem seats_do_not_interfere :
    (∀ {seat : Seat} {r₁ r₂ r₁' r₂' : Registry} {farms₁ farms₂ farms₁' farms₂' : Seating Farm}
        {calls₁ calls₂ : List (Seat × Event)} {reports₁ reports₂ : List Report},
      r₁.policy = r₂.policy → farms₁.get? seat = farms₂.get? seat →
      r₁.copiesOf seat = r₂.copiesOf seat →
      (eventsTo seat calls₁).map Event.content = (eventsTo seat calls₂).map Event.content →
      Registry.triggerEach calls₁ r₁ farms₁ = .ok (r₁', farms₁', reports₁) →
      Registry.triggerEach calls₂ r₂ farms₂ = .ok (r₂', farms₂', reports₂) →
      farms₁'.get? seat = farms₂'.get? seat ∧
        (reportsTo seat calls₁ reports₁).map Report.executed =
          (reportsTo seat calls₂ reports₂).map Report.executed) ∧
    (∀ {r : Registry} {farms farms' : Seating Farm} {calls calls' : List (Seat × Event)},
      (∀ seat, (eventsTo seat calls).map Event.content =
        (eventsTo seat calls').map Event.content) →
      ((∃ r' reports, Registry.triggerEach calls r farms = .ok (r', farms', reports)) ↔
        ∃ r' reports, Registry.triggerEach calls' r farms = .ok (r', farms', reports))) ∧
    ∀ (g : Game) (farms' : Seating Farm),
      (∃ g' reports, g.harvest = .ok (g', reports) ∧ g'.farms = farms') ↔
        ∃ g' reports, Game.triggerEach g.harvestBySeat g = .ok (g', reports) ∧
          g'.farms = farms' := by
  refine ⟨?_, fun same => ⟨Registry.triggerEach_reorder same,
    Registry.triggerEach_reorder fun seat => (same seat).symm⟩, fun g farms' => ?_⟩
  · intro seat r₁ r₂ r₁' r₂' farms₁ farms₂ farms₁' farms₂' calls₁ calls₂ reports₁ reports₂ hpolicy
      hfarm hcopies hcontent h₁ h₂
    have hcourse := Registry.course_of_triggerEach h₁ seat
    rw [hpolicy, hcopies, hfarm, Farm.course_congr hcontent,
      Registry.course_of_triggerEach h₂ seat] at hcourse
    obtain ⟨hplace, hyields⟩ := Prod.mk.inj (Except.ok.inj hcourse)
    have hcounts := congrArg (List.map fun y : Yield => y.fired.length) hyields
    simp only [List.map_map, Function.comp_def, ← Report.executed_eq] at hcounts
    exact ⟨hplace.symm, hcounts.symm⟩
  · have hfarms (calls : List (Seat × Event)) :
        (∃ g' reports, Game.triggerEach calls g = .ok (g', reports) ∧ g'.farms = farms') ↔
          ∃ r' reports,
            Registry.triggerEach calls g.registry g.farms = .ok (r', farms', reports) := by
      rw [Game.triggerEach_eq]
      constructor
      · rintro ⟨g', reports, h, rfl⟩
        obtain ⟨x, hx, heq⟩ := Checked.map_eq_ok.1 h
        cases heq
        exact ⟨_, _, hx⟩
      · rintro ⟨r', reports, h⟩
        exact ⟨_, reports, by rw [h]; rfl, rfl⟩
    have same (seat : Seat) := congrArg (List.map Event.content) (g.eventsTo_harvest seat)
    rw [Game.harvest, hfarms, hfarms]
    exact ⟨Registry.triggerEach_reorder same,
      Registry.triggerEach_reorder fun seat => (same seat).symm⟩

/-- A farm with a stablehand and a well. -/
def wellFarm : Farm := ((Farm.new ⟨0⟩).add (.new ⟨1⟩ Deck.stablehand)).add (.new ⟨2⟩ Deck.well)

/-- That farm beside one whose joinery has no wood. -/
def crowdedTable : Seating Farm :=
  ⟨[wellFarm, (Farm.new ⟨1⟩).add (.new ⟨3⟩ Deck.joinery)], by decide, by decide⟩

/-- That farm alone. -/
def quietTable : Seating Farm := ⟨[wellFarm], by decide, by decide⟩

/-- The registry of a table at which every copy is registered. -/
def registryOf (farms : Seating Farm) : Registry :=
  (farms.entries.flatMap fun (seat, f) => f.copies.map fun c => (seat, c.id)).foldl
    (fun r e => r.register farms e.1 e.2) (.new .strict)

/-- Dispatches to two neighbours in turn, some of them under the other's name. -/
def crowdedCalls : List (Seat × Event) :=
  [(⟨1⟩, .new .feedingPhase ⟨1⟩), (⟨0⟩, .new .onBreeding ⟨1⟩), (⟨1⟩, .new .feedingPhase ⟨0⟩),
    (⟨0⟩, .new .onRoundStart ⟨0⟩)]

/-- Dispatches that say the same to the first seat, and besides go to a seat that no table here
has. -/
def quietCalls : List (Seat × Event) :=
  [(⟨0⟩, .new .onBreeding ⟨0⟩), (⟨7⟩, .new .onTurnEnd ⟨0⟩), (⟨0⟩, .new .onRoundStart ⟨3⟩)]

/-- A neighbour whose joinery is refused its wood twice goes unnoticed. -/
theorem seats_do_not_interfere_neighbour :
    (eventsTo ⟨0⟩ crowdedCalls).map Event.content = (eventsTo ⟨0⟩ quietCalls).map Event.content ∧
    ∃ r₁ r₂ farms₁ farms₂ reports₁ reports₂,
      Registry.triggerEach crowdedCalls (registryOf crowdedTable) crowdedTable =
        .ok (r₁, farms₁, reports₁) ∧ r₁.failures = 2 ∧
      Registry.triggerEach quietCalls (registryOf quietTable) quietTable =
        .ok (r₂, farms₂, reports₂) ∧ r₂.failures = 0 ∧
      farms₁.get? ⟨0⟩ = farms₂.get? ⟨0⟩ ∧
      (reportsTo ⟨0⟩ crowdedCalls reports₁).map Report.executed = [1, 1] ∧
      (reportsTo ⟨0⟩ quietCalls reports₂).map Report.executed = [1, 1] := by
  have said : (eventsTo ⟨0⟩ crowdedCalls).map Event.content =
      (eventsTo ⟨0⟩ quietCalls).map Event.content := rfl
  have crowded : Registry.triggerEach crowdedCalls (registryOf crowdedTable) crowdedTable =
      .ok (_, _, _) := rfl
  have quiet : Registry.triggerEach quietCalls (registryOf quietTable) quietTable =
      .ok (_, _, _) := rfl
  obtain ⟨farm, counts⟩ :=
    seats_do_not_interfere.1 (by rfl) (by rfl) (by rfl) said crowded quiet
  exact ⟨said, _, _, _, _, _, _, crowded, rfl, quiet, rfl, farm, rfl, counts ▸ rfl⟩

end Homestead
