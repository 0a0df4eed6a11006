import Homestead.Proofs.Exactness
import Homestead.Proofs.Pairs

/-!
# Matches kept for later

A list of matches is found for one event, kept while copies are registered and unregistered, and
executed later. Executing does not look at the registrations. So what it applies belongs to copies
that were registered when the list was found, and it applies that whatever happened to their
registrations since (`saved_matches_outlive_registration`). If it is executed for an event of the
same moment, it does what dispatching would have done at once (`Registry.Late.eq_trigger`).
-/

namespace Homestead

/-- Does the call end a registration of the copy, if there is one? -/
def Call.ends (seat : Seat) (id : CopyId) : Call → Bool
  | unregister place i => place = seat ∧ i = id
  | unregisterSeat place => place = seat
  | clear => true
  | _ => false

/-- The matches that a registry found for an event were kept while calls that dispatch nothing led
to the registry `now`, and were then executed for another event on the same farms. -/
structure Registry.Late (r : Registry) (farms : Seating Farm) (seat : Seat) (found : Event)
    (calls : List Call) (now : Registry) (event : Event) (farms' : Seating Farm)
    (report : Report) : Prop where
  quiet : ∀ c ∈ calls, c.isDispatch = false
  called : ∃ replies, Registry.callAll calls r = .ok (now, replies)
  executed : ∃ r', now.execute farms (r.find farms seat found) event = .ok (r', farms', report)

variable {r r' now : Registry} {farms farms' : Seating Farm} {seat place : Seat} {id : CopyId}
  {i : Nat} {found event : Event} {c : Call} {calls : List Call} {report : Report} {reply : Reply}
  {replies : List Reply} {l : List (Seat × List CopyId)}

namespace Registry

/-! ## What stays registered -/

/-- Striking one copy leaves the others listed. -/
theorem mem_listing_strike {i : CopyId} (other : ¬(place = seat ∧ i = id))
    (h : id ∈ listing l seat) : id ∈ listing (strike place i l) seat := by
  induction l with
  | nil => exact h
  | cons e l ih =>
    obtain ⟨owner, ids⟩ := e
    rw [listing_cons] at h
    rw [strike]
    by_cases atPlace : owner = place
    · rw [if_pos atPlace]
      by_cases atSeat : owner = seat
      · -- the entry of the seat itself loses another copy, so it is not used up
        have left : id ∈ ids.erase i := by
          have ne : id ≠ i := fun eq => other ⟨atPlace.symm.trans atSeat, eq.symm⟩
          rw [if_pos atSeat] at h
          exact (List.mem_erase_of_ne ne).2 h
        rw [if_neg, listing_cons, if_pos atSeat]
        · exact left
        · rw [List.isEmpty_iff]
          exact List.ne_nil_of_mem left
      · rw [if_neg atSeat] at h
        split
        · exact h
        · rwa [listing_cons, if_neg atSeat]
    · rw [if_neg atPlace, listing_cons]
      by_cases atSeat : owner = seat
      · rwa [if_pos atSeat] at h ⊢
      · rw [if_neg atSeat] at h ⊢
        exact ih h

/-- A call that does not end a registration leaves it. -/
theorem mem_copiesOf_call (hcall : r.call c = .ok (r', reply)) (kept : c.ends seat id = false)
    (h : id ∈ r.copiesOf seat) : id ∈ r'.copiesOf seat := by
  cases c with
  | register farms place i =>
    cases Checked.pure_eq_ok.1 hcall
    rw [register]
    cases hr : r.register? farms place i with
    | none => exact h
    | some r' =>
      rw [Option.getD_some, copiesOf_register? hr]
      split
      · rename_i eq
        exact List.mem_append_left _ (eq ▸ h)
      · exact h
  | unregister place i =>
    cases Checked.pure_eq_ok.1 hcall
    rw [unregister, unregister?]
    split
    · exact mem_listing_strike (by simpa [Call.ends] using kept) h
    · exact h
  | unregisterSeat place =>
    cases Checked.pure_eq_ok.1 hcall
    rwa [copiesOf_unregisterSeat, if_neg (by simpa [Call.ends] using kept)]
  | clear => cases kept
  | execute farms ms event | trigger farms seat event | triggerAll farms seats event =>
    obtain ⟨farms', report, hexecute, -⟩ := of_dispatching hcall
    rwa [copiesOf, listed_of_execute hexecute]

theorem mem_copiesOf_callAll (hcalls : callAll calls r = .ok (r', replies))
    (kept : ∀ c ∈ calls, c.ends seat id = false) (h : id ∈ r.copiesOf seat) :
    id ∈ r'.copiesOf seat := by
  induction calls generalizing r replies with
  | nil =>
    cases Checked.pure_eq_ok.1 hcalls
    exact h
  | cons c calls ih =>
    obtain ⟨⟨r₁, reply⟩, hcall, hcalls⟩ := Checked.bind_eq_ok.1 hcalls
    obtain ⟨⟨r', replies⟩, hrest, hcalls⟩ := Checked.bind_eq_ok.1 hcalls
    cases Checked.pure_eq_ok.1 hcalls
    obtain ⟨first, rest⟩ := List.forall_mem_cons.1 kept
    exact ih hrest rest (mem_copiesOf_call hcall first h)

/-- No call changes the payment policy. -/
theorem policy_of_call (hcall : r.call c = .ok (r', reply)) : r'.policy = r.policy := by
  cases c with
  | register farms place i =>
    cases Checked.pure_eq_ok.1 hcall
    exact (relisted_register r farms place i).policy_eq
  | unregister place i =>
    cases Checked.pure_eq_ok.1 hcall
    exact (relisted_unregister r place i).policy_eq
  | unregisterSeat place | clear =>
    cases Checked.pure_eq_ok.1 hcall
    rfl
  | execute farms ms event | trigger farms seat event | triggerAll farms seats event =>
    obtain ⟨farms', report, hexecute, -⟩ := of_dispatching hcall
    obtain ⟨-, -, rfl⟩ := execute_eq_ok_iff.1 hexecute
    rfl

theorem policy_of_callAll (hcalls : callAll calls r = .ok (r', replies)) :
    r'.policy = r.policy := by
  induction calls generalizing r replies with
  | nil =>
    cases Checked.pure_eq_ok.1 hcalls
    rfl
  | cons c calls ih =>
    obtain ⟨⟨r₁, reply⟩, hcall, hcalls⟩ := Checked.bind_eq_ok.1 hcalls
    obtain ⟨⟨r', replies⟩, hrest, hcalls⟩ := Checked.bind_eq_ok.1 hcalls
    cases Checked.pure_eq_ok.1 hcalls
    exact (ih hrest).trans (policy_of_call hcall)

/-! ## Executing later -/

namespace Late

variable (h : r.Late farms seat found calls now event farms' report)

include h

theorem firesAll :
    Match.FiresAll r.policy (r.find farms seat found) farms farms' report.firings := by
  obtain ⟨replies, hcalls⟩ := h.called
  obtain ⟨r', hexecute⟩ := h.executed
  rw [← policy_of_callAll hcalls]
  exact (execute_eq_ok_iff.1 hexecute).1

/-- What is executed later for an event of the moment for which the matches were found does what
dispatching did then. -/
theorem eq_trigger (same : event.moment = found.moment) :
    ∃ r', r.trigger farms seat found = .ok (r', farms', report) := by
  obtain ⟨r', hexecute⟩ := h.executed
  obtain ⟨-, hmoment, -⟩ := execute_eq_ok_iff.1 hexecute
  exact ⟨_, execute_eq_ok_iff.2 ⟨h.firesAll, hmoment.trans same, rfl⟩⟩

/-- What is applied was due on a copy that was registered when the matches were found. -/
theorem of_mem_fired (fired : (place, id, i) ∈ report.yield.fired) :
    place = seat ∧ id ∈ r.copiesOf seat ∧ ∃ f c, farms.get? seat = some f ∧
      f.copy? id = some c ∧ i ∈ c.due found := by
  rw [Report.yield, Yield.fired_ofFirings] at fired
  obtain ⟨firing, hfiring, fired⟩ := List.mem_flatMap.1 fired
  obtain ⟨j, happlied, eq⟩ := List.mem_map.1 fired
  cases eq
  have listed := (h.firesAll.sublist hfiring).subset happlied
  have aimed : firing.aim ∈ r.find farms seat found :=
    h.firesAll.aims ▸ List.mem_map_of_mem hfiring
  obtain ⟨f, c, hf, hc, registered, -, haim⟩ := mem_find.1 aimed
  rw [haim] at listed
  exact ⟨seat_of_mem_find aimed, registered, f, c, hf, hc, listed⟩

end Late

end Registry

/-- What is executed late was found. Whatever calls were made in between and whichever event it is
executed for, each effect applied belongs to the seat for which the matches were found, can be
applied, and its copy is owned and was registered then; the copy still is registered unless one of
the calls ended the registration. If the event is of the same moment, the effects are of that moment
too, and the farms and the report are those of dispatching at once. -/
theorem saved_matches_fire_as_found (h : r.Late farms seat found calls now event farms' report) :
    (∀ place id i, (place, id, i) ∈ report.yield.fired →
      place = seat ∧ id ∈ r.copiesOf seat ∧
        (∃ f c e, farms.get? seat = some f ∧ f.copy? id = some c ∧
          c.card.effects[i]? = some e ∧ c.canApply i ∧
          (event.moment = found.moment → e.moment = event.moment)) ∧
        ((∀ c ∈ calls, c.ends seat id = false) → id ∈ now.copiesOf seat)) ∧
      (event.moment = found.moment →
        ∃ r', r.trigger farms seat found = .ok (r', farms', report)) := by
  refine ⟨fun place id i fired => ?_, h.eq_trigger⟩
  obtain ⟨hplace, registered, f, c, hf, hc, due⟩ := h.of_mem_fired fired
  obtain ⟨e, he, hmoment, able, -⟩ := Copy.mem_due.1 due
  have exact_moment : event.moment = found.moment → e.moment = event.moment :=
    fun same => hmoment.trans same.symm
  refine ⟨hplace, registered, ⟨f, c, e, hf, hc, he, able, exact_moment⟩, fun kept => ?_⟩
  obtain ⟨replies, hcalls⟩ := h.called
  exact Registry.mem_copiesOf_callAll hcalls kept registered

/-- The registry of a table for two where the first seat's well is registered. -/
def wellRegistry : Registry := (Registry.new .strict).register wellTable ⟨0⟩ ⟨1⟩

/-- A well's match that was found at the start of a round yields its food after another seat's well
was registered and unregistered, as it would have at once. -/
theorem saved_matches_fire_as_found_well :
    ∃ now farms' report, wellRegistry.Late wellTable ⟨0⟩ (.new .onRoundStart ⟨0⟩)
        [.register wellTable ⟨1⟩ ⟨2⟩, .unregister ⟨1⟩ ⟨2⟩] now (.new .onRoundStart ⟨1⟩) farms'
        report ∧
      report.yield.fired = [(⟨0⟩, ⟨1⟩, 0)] ∧ ⟨1⟩ ∈ now.copiesOf ⟨0⟩ ∧
      (∃ f c e, wellTable.get? ⟨0⟩ = some f ∧ f.copy? ⟨1⟩ = some c ∧
        c.card.effects[0]? = some e ∧ e.moment = .onRoundStart) ∧
      ∃ r', wellRegistry.trigger wellTable ⟨0⟩ (.new .onRoundStart ⟨0⟩) =
        .ok (r', farms', report) := by
  have late : wellRegistry.Late wellTable ⟨0⟩ (.new .onRoundStart ⟨0⟩)
      [.register wellTable ⟨1⟩ ⟨2⟩, .unregister ⟨1⟩ ⟨2⟩] _ (.new .onRoundStart ⟨1⟩) _ _ :=
    ⟨by simp [Call.isDispatch], ⟨_, rfl⟩, ⟨_, rfl⟩⟩
  obtain ⟨hfired, hat_once⟩ := saved_matches_fire_as_found late
  obtain ⟨-, -, ⟨f, c, e, hf, hc, he, -, hmoment⟩, registered⟩ := hfired ⟨0⟩ ⟨1⟩ 0 (by decide)
  exact ⟨_, _, _, late, rfl, registered (by simp [Call.ends]), ⟨f, c, e, hf, hc, he, hmoment rfl⟩,
    hat_once rfl⟩

/-- Kept matches are not confined to copies that are registered when they are executed. -/
theorem saved_matches_outlive_registration :
    ¬∀ r farms seat found calls now event farms' report,
      Registry.Late r farms seat found calls now event farms' report →
        ∀ id i, (seat, id, i) ∈ report.yield.fired → id ∈ now.copiesOf seat := by
  intro confined
  have late : wellRegistry.Late wellTable ⟨0⟩ (.new .onRoundStart ⟨0⟩) [.unregister ⟨0⟩ ⟨1⟩] _
      (.new .onRoundStart ⟨0⟩) _ _ := ⟨by simp [Call.isDispatch], ⟨_, rfl⟩, ⟨_, rfl⟩⟩
  exact absurd (confined _ _ _ _ _ _ _ _ _ late ⟨1⟩ 0 (by decide)) (by decide)

end Homestead
