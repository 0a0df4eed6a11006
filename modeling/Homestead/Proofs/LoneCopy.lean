import Homestead.Proofs.Exactness

/-!
# A copy on its own and in a dispatch

A play triggers the new copy directly (`Copy.trigger`), and every other event goes through the
registry (`Registry.trigger`), which finds matches first and executes them afterwards, with
counters. Where one copy of a seat is registered and the event has no free text, both do the same
(`lone_copy_fires_alike`): the response of the seat is what triggering the copy makes of the farm
(`Registry.respond_of_lone`), and a dispatch is a response that is counted (`Registry.respond_eq`).
-/

namespace Homestead

variable {policy : PaymentPolicy} {c c' : Copy} {s s' : Store} {is : List Nat} {o : Outcome}
  {event : Event} {f : Farm} {id : CopyId} {seat : Seat} {farms : Seating Farm} {r : Registry}

/-! ## The copy -/

namespace Outcome

theorem result_eq_ok_iff {n : Nat} : o.result = .ok n ↔ o.count = n ∧ o.failure = none := by
  unfold result
  cases o.failure <;> simp

theorem result_eq_error_iff {cause : Refusal} :
    o.result = .error cause ↔ o.failure = some cause := by
  unfold result
  cases o.failure <;> simp

end Outcome

namespace Copy

/-- An event without a free text finds all that answers it. -/
theorem due_of_unfiltered (unfiltered : event.filterText = "") (c : Copy) :
    c.due event = c.answers event := by
  rw [due, unfiltered]
  exact List.filter_eq_self.2 fun _ _ => rfl

/-- What is applied of effects that may all be applied are the first of them. -/
theorem Applies.applied_prefix (h : Applies policy is c s c' s' o) (nodup : is.Nodup)
    (able : ∀ i ∈ is, c.canApply i) : o.applied <+: is := by
  cases hfail : o.failure with
  | none =>
    have all : o.applied = is := h.applied_eq nodup able hfail
    exact all ▸ List.prefix_rfl
  | some cause =>
    obtain ⟨before, i, after, rfl, hbefore, -⟩ := h.stopped hfail
    have distinct : before.Nodup := (List.nodup_append.1 nodup).1
    have able : ∀ j ∈ before, c.canApply j := fun j hj => able j (List.mem_append_left _ hj)
    have all : o.applied = before := hbefore.applied_eq distinct able rfl
    rw [all]
    exact List.prefix_append before (i :: after)

end Copy

/-! ## The dispatch -/

theorem Farm.respond_singleton (f : Farm) (policy : PaymentPolicy) (seat : Seat) (event : Event)
    (id : CopyId) :
    f.respond policy seat event [id] =
      (fun x => (x.1, .ofOutcome seat id x.2)) <$> f.fire policy id (f.due event id) := by
  rw [respond]
  cases f.fire policy id (f.due event id) with
  | error fault => rfl
  | ok x =>
    have alone : Yield.ofOutcome seat id x.2 ++ Yield.nothing = Yield.ofOutcome seat id x.2 := by
      rw [Yield.append_def, Yield.nothing, List.append_nil, List.append_nil]
    simp only [Checked.ok_bind, respond, pure_bind, alone]
    rfl

namespace Registry

/-- The response of a seat with one registered copy is what triggering it makes of the farm. -/
theorem respond_of_lone (hf : farms.get? seat = some f) (hc : f.copy? c.id = some c)
    (lone : r.copiesOf seat = [c.id]) (unfiltered : event.filterText = "") :
    r.respond farms seat event =
      (fun x => (farms.set seat (f.replace x.1 x.2.1), .ofOutcome seat c.id x.2.2)) <$>
        c.trigger event r.policy f.store := by
  rw [respond_of_get? hf, lone, Farm.respond_singleton, Farm.due_of_copy? hc,
    Copy.due_of_unfiltered unfiltered, Farm.fire_eq hc, Copy.trigger]
  cases Copy.applyAll r.policy (c.answers event) c f.store <;> rfl

end Registry

/-- The only registered copy of a seat does the same in a dispatch as when it is triggered directly:
both fault in the same way, or both leave the same counters on the copy and the same store, after
applying the same of the answering effects, which are the first of them. A dispatch counts a failure
just if the trigger is refused, and for the same reason. -/
theorem lone_copy_fires_alike (hf : farms.get? seat = some f) (distinct : f.ids.Nodup)
    (owned : c ∈ f.copies) (lone : r.copiesOf seat = [c.id]) (unfiltered : event.filterText = "") :
    (∀ fault, c.trigger event r.policy f.store = .error fault ↔
      r.trigger farms seat event = .error fault) ∧
    ∀ c' s' o, c.trigger event r.policy f.store = .ok (c', s', o) →
      ∃ r' f' report, r.trigger farms seat event = .ok (r', farms.set seat f', report) ∧
        f' = f.replace c' s' ∧ f'.copy? c.id = some c' ∧ f'.store = s' ∧
        report.fired = o.applied ∧ o.applied <+: c.answers event ∧
        (∀ n, o.result = .ok n ↔ report.executed = n ∧ r'.failures = r.failures) ∧
        ∀ cause, o.result = .error cause ↔
          report.refusals = [cause] ∧ r'.failures = r.failures + 1 := by
  have hc := Farm.copy?_of_mem distinct owned
  have response := Registry.respond_of_lone hf hc lone unfiltered
  rw [Registry.respond_eq] at response
  constructor
  · intro fault
    rw [← Checked.map_eq_error, ← response, Checked.map_eq_error]
  · intro c' s' o h
    rw [h, Checked.map_ok] at response
    obtain ⟨⟨r', farms', report⟩, htrigger, eq⟩ := Checked.map_eq_ok.1 response
    obtain ⟨rfl, hyield⟩ := Prod.mk.inj eq
    have applies := Copy.applyAll_eq_ok_iff.1 h
    have fired : report.fired = o.applied := by
      rw [Report.fired_eq, hyield]
      simp [Yield.ofOutcome, Function.comp_def]
    have refused : report.refusals = o.failure.toList := by
      rw [Report.refusals_eq, hyield]
      rfl
    have executed : report.executed = o.count := congrArg List.length fired
    have failures : r'.failures = r.failures + o.failure.toList.length := by
      rw [(Registry.execute_eq_ok_iff.1 htrigger).2.2, ← refused]
      rfl
    refine ⟨r', _, report, htrigger, rfl, ?_, Farm.store_replace .., fired, ?_, ?_, ?_⟩
    · exact Farm.copy?_replace_self hc applies.id_card.1 s'
    · rw [← Copy.due_of_unfiltered unfiltered] at applies ⊢
      exact applies.applied_prefix (c.due_nodup event) fun i => Copy.canApply_of_mem_due
    · intro n
      rw [Outcome.result_eq_ok_iff, executed, failures]
      cases o.failure <;> simp
    · intro cause
      rw [Outcome.result_eq_error_iff, refused, failures]
      cases o.failure <;> simp

/-- A carter, who ends a turn with a food, then delivers a wood, and picks up a stone after that. -/
def carter : Card :=
  Card.occupation ⟨43⟩ "Carter"
    |>.withEffect (Effect.new ⟨1⟩ .onTurnEnd |>.gaining .food 1)
    |>.withEffect (Effect.new ⟨2⟩ .onTurnEnd |>.costing .wood 1)
    |>.withEffect (Effect.new ⟨3⟩ .onTurnEnd |>.gaining .stone 1)

/-- A farm with a carter and nothing else. -/
def cartersFarm : Farm := { Farm.new ⟨0⟩ with occupations := [.new ⟨1⟩ carter] }

/-- Without a wood the carter stops after the first effect, and a dispatch counts that as a
failure. -/
theorem lone_copy_fires_alike_carter :
    let farms : Seating Farm := ⟨[cartersFarm], by decide, by decide⟩
    let r := (Registry.new .strict).register farms ⟨0⟩ ⟨1⟩
    let refusal := Refusal.effectFailed "Carter" ⟨43⟩ ⟨2⟩ (.notEnough .wood)
    cartersFarm.ids.Nodup ∧ r.copiesOf ⟨0⟩ = [⟨1⟩] ∧
      ∃ c' s', (Copy.new ⟨1⟩ carter).trigger (.new .onTurnEnd ⟨0⟩) .strict cartersFarm.store =
          .ok (c', s', ⟨[0], some refusal⟩) ∧
        ∃ r' f' report, r.trigger farms ⟨0⟩ (.new .onTurnEnd ⟨0⟩) =
            .ok (r', farms.set ⟨0⟩ f', report) ∧
          f'.copy? ⟨1⟩ = some c' ∧ f'.store = s' ∧ report.fired = [0] ∧
          report.refusals = [refusal] ∧ r'.failures = 0 + 1 := by
  intro farms r refusal
  have hf : farms.get? ⟨0⟩ = some cartersFarm := rfl
  have distinct : cartersFarm.ids.Nodup := by decide
  have owned : Copy.new ⟨1⟩ carter ∈ cartersFarm.copies := List.mem_singleton_self _
  have lone : r.copiesOf ⟨0⟩ = [⟨1⟩] := rfl
  have unfiltered : (Event.new .onTurnEnd ⟨0⟩).filterText = "" := rfl
  obtain ⟨-, alike⟩ := lone_copy_fires_alike hf distinct owned lone unfiltered
  obtain ⟨r', f', report, htrigger, -, hc, hs, fired, -, -, refused⟩ := alike _ _ _ rfl
  obtain ⟨refusals, failures⟩ := (refused refusal).1 rfl
  exact ⟨distinct, lone, _, _, rfl, r', f', report, htrigger, hc, hs, fired, refusals, failures⟩

end Homestead
