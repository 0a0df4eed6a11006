import Homestead.Deck
import Homestead.Proofs.InPlace

/-!
# Isolation of refusals

A refusal ends its match and touches nothing else. So the effects that were applied, executed alone,
do the same (`Match.FiresAll.applied_only`), and a match that a refusal ended fares as if the
refused effect and what comes after it had not been listed (`Match.FiresAll.cut`).

`Registry.performExecute` executes a list in place, with its counters kept along the way.
-/

namespace Homestead

/-- The match with other effects. -/
def Match.withEffects (m : Match) (effects : List Nat) : Match := { m with effects := effects }

/-- The firing of a match with other effects that were applied as they were here, none refused. -/
def Firing.unrefused (f : Firing) (effects : List Nat) : Firing :=
  ⟨f.aim.withEffects effects, ⟨f.outcome.applied, none⟩⟩

open InPlace

/-! ## Executing in place -/

/-- Applies the effects of a match to its seat's farm, up to the first refusal. -/
def Match.perform (policy : PaymentPolicy) (m : Match) : InPlace (Seating Farm) Outcome :=
  fun farms =>
    match farms.get? m.seat with
    | none => return (.nothing, farms)
    | some f =>
      (fun x => (x.1.getD .nothing, farms.set m.seat x.2)) <$>
        (atCopy m.copy (Copy.performAll policy m.effects)).run f

namespace Registry

/-- Applies the effects of several matches, one match after the other, where `executed` effects were
applied before. Counts the matches that a refusal ended, and returns how many effects were applied
in all. -/
def performEach (policy : PaymentPolicy) :
    List Match → Nat → InPlace (Registry × Seating Farm) Nat
  | [], executed => return executed
  | m :: ms, executed => do
    let o ← within Prod.snd (fun farms x => (x.1, farms)) (m.perform policy)
    if o.failure.isSome then
      modify fun (r, farms) => ({ r with failures := r.failures + 1 }, farms)
    performEach policy ms (executed + o.count)

/-- Executes a list of matches and returns how many effects were applied. -/
def performExecute (ms : List Match) : InPlace (Registry × Seating Farm) Nat := do
  modify fun (r, farms) => ({ r with processed := r.processed + 1 }, farms)
  let (r, _) ← get
  let executed ← performEach r.policy ms 0
  modify fun (r, farms) => ({ r with executed := r.executed + executed }, farms)
  return executed

end Registry

variable {policy : PaymentPolicy} {id : CopyId} {is : List Nat} {f f' : Farm} {o : Outcome}
  {m : Match} {ms : List Match} {farms farms' : Seating Farm} {firing : Firing}
  {firings : List Firing} {cause : Refusal}

theorem Match.run_perform (m : Match) (farms : Seating Farm) :
    (m.perform policy).run farms =
      (fun x => (x.2.outcome, x.1)) <$> m.fire policy farms := by
  change (match farms.get? m.seat with | none => _ | some _ => _) = _
  unfold Match.fire
  cases farms.get? m.seat with
  | none => rfl
  | some f =>
    cases hc : f.copy? m.copy with
    | none =>
      simp only [run_atCopy_none hc, Farm.fire_of_copy?_eq_none hc]
      rfl
    | some c =>
      simp only [run_atCopy hc, Farm.fire_eq hc, Copy.run_performAll]
      cases Copy.applyAll policy m.effects c f.store <;> rfl

namespace Registry

theorem run_performEach (ms : List Match) (executed : Nat) (r : Registry) (farms : Seating Farm) :
    (performEach policy ms executed).run (r, farms) =
      (fun x => (executed + (x.2.flatMap fun f => f.outcome.applied).length,
        { r with failures := r.failures + (x.2.filterMap fun f => f.outcome.failure).length },
        x.1)) <$> Match.fireAll policy ms farms := by
  induction ms generalizing executed r farms with
  | nil => rfl
  | cons m ms ih =>
    rw [performEach, Match.fireAll, StateT.run_bind, run_within, Match.run_perform]
    cases m.fire policy farms with
    | error fault => rfl
    | ok x =>
      obtain ⟨farms₁, aim, applied, failure⟩ := x
      simp only [Checked.map_ok, Checked.ok_bind]
      cases failure with
      | none =>
        have hrest := ih (executed + applied.length) r farms₁
        change (performEach policy ms (executed + applied.length)).run (r, farms₁) = _
        rw [hrest]
        cases Match.fireAll policy ms farms₁ with
        | error fault => rfl
        | ok y => simp [Nat.add_assoc]
      | some cause =>
        have hrest := ih (executed + applied.length) { r with failures := r.failures + 1 } farms₁
        change (performEach policy ms (executed + applied.length)).run
          ({ r with failures := r.failures + 1 }, farms₁) = _
        rw [hrest]
        cases Match.fireAll policy ms farms₁ with
        | error fault => rfl
        | ok y => simp [Nat.add_assoc, Nat.add_comm 1]

end Registry

/-! ## Applied effects alone -/

theorem Farm.Fires.applied_only (h : f.Fires policy id is f' o) :
    f.Fires policy id o.applied f' ⟨o.applied, none⟩ := by
  cases h with
  | absent hc => exact .absent hc
  | owned hc happlies => exact .owned hc happlies.applied_only

theorem Match.Fires.applied_only (h : m.Fires policy farms farms' firing) :
    (firing.aim.withEffects firing.outcome.applied).Fires policy farms farms'
      (firing.unrefused firing.outcome.applied) := by
  cases h with
  | noFarm hf => exact .noFarm hf
  | farm hf hfires => exact .farm hf hfires.applied_only

/-- The effects that were applied, fired alone, do the same, and none of them is refused. -/
theorem Match.FiresAll.applied_only (h : Match.FiresAll policy ms farms farms' firings) :
    Match.FiresAll policy (firings.map fun f => f.aim.withEffects f.outcome.applied) farms farms'
      (firings.map fun f => f.unrefused f.outcome.applied) := by
  induction h with
  | nil => exact .nil
  | cons hm _ ih => exact .cons hm.applied_only ih

/-! ## Where a refusal ended a match -/

theorem Farm.Fires.cut (h : f.Fires policy id is f' o) (hf : o.failure = some cause) :
    ∃ before i after, is = before ++ i :: after ∧
      f.Fires policy id before f' ⟨o.applied, none⟩ ∧
      f'.applyEffect id i policy = .ok (.error cause) := by
  cases h with
  | absent => cases hf
  | @owned c c' s' o hc happlies =>
    obtain ⟨before, i, after, rfl, hbefore, hlast⟩ := happlies.stopped hf
    refine ⟨before, i, after, rfl, .owned hc hbefore, ?_⟩
    have hid : c'.id = id := happlies.id_card.1.trans (id_of_copy? hc)
    rw [applyEffect_of_copy? (copy?_replace_self hc hid s'), store_replace, hlast]
    rfl

theorem Match.Fires.cut (h : m.Fires policy farms farms' firing)
    (hf : firing.outcome.failure = some cause) :
    ∃ before i after, firing.aim.effects = before ++ i :: after ∧
      firing.outcome.applied.Sublist before ∧
      (firing.aim.withEffects before).Fires policy farms farms' (firing.unrefused before) ∧
      ∃ f, farms'.get? firing.aim.seat = some f ∧
        f.applyEffect firing.aim.copy i policy = .ok (.error cause) := by
  cases h with
  | noFarm => cases hf
  | @farm f f' o hfarm hfires =>
    obtain ⟨before, i, after, heffects, hbefore, hlast⟩ := hfires.cut hf
    exact ⟨before, i, after, heffects, hbefore.sublist, .farm hfarm hbefore, f',
      Seating.get?_set_self hfarm f', hlast⟩

/-- A match that a refusal ended fares as if the refused effect and those after it had not been
listed, and the other matches fare as they did. The effect `i` is refused when its turn comes. -/
theorem Match.FiresAll.cut {k : Nat} (h : Match.FiresAll policy ms farms farms' firings)
    (hk : firings[k]? = some firing) (hf : firing.outcome.failure = some cause) :
    ∃ before i after, firing.aim.effects = before ++ i :: after ∧
      firing.outcome.applied.Sublist before ∧
      (∃ reached earlier f, Match.FiresAll policy
        (ms.take k ++ [firing.aim.withEffects before]) farms reached earlier ∧
          reached.get? firing.aim.seat = some f ∧
          f.applyEffect firing.aim.copy i policy = .ok (.error cause)) ∧
      Match.FiresAll policy (ms.set k (firing.aim.withEffects before)) farms farms'
        (firings.set k (firing.unrefused before)) := by
  induction h generalizing k with
  | nil => cases hk
  | @cons m ms farms farms₁ farms' first firings hm hms ih =>
    cases k with
    | zero =>
      cases hk
      obtain ⟨before, i, after, heffects, happlied, hcut, f, hfarm, hlast⟩ := hm.cut hf
      exact ⟨before, i, after, heffects, happlied, ⟨_, _, f, .cons hcut .nil, hfarm, hlast⟩,
        .cons hcut hms⟩
    | succ k =>
      obtain ⟨before, i, after, heffects, happlied, ⟨reached, earlier, f, hreached, hlast⟩, hcut⟩ :=
        ih hk
      exact ⟨before, i, after, heffects, happlied, ⟨_, _, f, .cons hm hreached, hlast⟩,
        .cons hm hcut⟩

/-! ## Executing -/

namespace Registry

theorem run_performExecute (ms : List Match) (r : Registry) (farms : Seating Farm) (event : Event) :
    (performExecute ms).run (r, farms) =
      (fun x => (x.2.2.executed, x.1, x.2.1)) <$> r.execute farms ms event := by
  change ((performEach r.policy ms 0).run ({ r with processed := r.processed + 1 }, farms) >>= _) =
    _
  rw [run_performEach, execute]
  cases Match.fireAll r.policy ms farms with
  | error fault => rfl
  | ok x =>
    change Except.ok _ = Except.ok _
    simp [tally, Report.executed, Report.fired, Report.refusals]

variable {r r' : Registry} {event : Event} {report : Report}

theorem refusals_length (report : Report) :
    report.refusals.length =
      (report.firings.filter fun f => f.outcome.failure.isSome).length := by
  rw [Report.refusals, List.length_filterMap_eq_countP, List.countP_eq_length_filter]

/-- Executing the effects that were applied, alone, does the same without a refusal. -/
theorem execute_applied (h : r.execute farms ms event = .ok (r', farms', report)) :
    ∃ r'' alone, r.execute farms report.applied event = .ok (r'', farms', alone) ∧
      alone.executed = report.executed ∧ alone.refusals = [] := by
  obtain ⟨hall, -, -⟩ := execute_eq_ok_iff.1 h
  have halone := hall.applied_only
  refine ⟨_, ⟨event.moment, _⟩, execute_eq_ok_iff.2 ⟨halone, rfl, rfl⟩, ?_, ?_⟩
  · simp [Report.executed, Report.fired, Firing.unrefused, List.flatMap_map]
  · simp [Report.refusals, Firing.unrefused, List.filterMap_map]

end Registry

/-- Refusals are isolated. The effects of a list that were applied, executed alone from the same
farms, lead to the same farms and the same count, which is their number, without a refusal. The list
itself counts one failure for each match that a refusal ended, and each such match is executed as if
the refused effect and those listed after it were not there. -/
theorem refusals_isolated {r r' : Registry} {event : Event} {report : Report}
    (h : r.execute farms ms event = .ok (r', farms', report)) :
    report.firings.map Firing.aim = ms ∧
      (∀ firing ∈ report.firings, firing.outcome.applied.Sublist firing.aim.effects) ∧
      (Registry.performExecute ms).run (r, farms) = .ok (report.executed, r', farms') ∧
      report.executed = (report.applied.flatMap Match.effects).length ∧
      (∃ r'' alone, r.execute farms report.applied event = .ok (r'', farms', alone) ∧
        (Registry.performExecute report.applied).run (r, farms) =
          .ok (report.executed, r'', farms') ∧
        r''.failures = r.failures) ∧
      r'.failures =
        r.failures + (report.firings.filter fun f => f.outcome.failure.isSome).length ∧
      ∀ {k firing cause}, report.firings[k]? = some firing →
        firing.outcome.failure = some cause →
        ∃ before i after, firing.aim.effects = before ++ i :: after ∧
          firing.outcome.applied.Sublist before ∧
          (∃ reached earlier f, Match.FiresAll r.policy
            (ms.take k ++ [firing.aim.withEffects before]) farms reached earlier ∧
              reached.get? firing.aim.seat = some f ∧
              f.applyEffect firing.aim.copy i r.policy = .ok (.error cause)) ∧
          ∃ r'', r.execute farms (ms.set k (firing.aim.withEffects before)) event =
            .ok (r'', farms', ⟨event.moment, report.firings.set k (firing.unrefused before)⟩) := by
  obtain ⟨hall, -, rfl⟩ := Registry.execute_eq_ok_iff.1 h
  refine ⟨hall.aims, fun _ => hall.sublist, ?_, ?_, ?_, ?_, fun hk hf => ?_⟩
  · rw [Registry.run_performExecute ms r farms event, h]
    rfl
  · simp [Report.executed, Report.fired, Report.applied, List.flatMap_map]
  · obtain ⟨r'', alone, halone, hexecuted, hrefusals⟩ := Registry.execute_applied h
    refine ⟨r'', alone, halone, ?_, ?_⟩
    · rw [Registry.run_performExecute report.applied r farms event, halone, ← hexecuted]
      rfl
    · obtain ⟨-, -, rfl⟩ := Registry.execute_eq_ok_iff.1 halone
      simp [Registry.tally, hrefusals]
  · rw [← Registry.refusals_length]
    rfl
  · obtain ⟨before, i, after, heffects, happlied, hreached, hcut⟩ := hall.cut hk hf
    exact ⟨before, i, after, heffects, happlied, hreached, _,
      Registry.execute_eq_ok_iff.2 ⟨hcut, rfl, rfl⟩⟩

/-- A table for one, who owns a joinery and a wood cutter and no wood. -/
def joineryTable : Seating Farm :=
  ⟨[((Farm.new ⟨0⟩).add (.new ⟨1⟩ Deck.joinery)).add (.new ⟨2⟩ Deck.woodCutter)], by decide,
    by decide⟩

/-- A joinery without wood is refused; the forest then yields the wood for a second attempt. -/
theorem refusals_isolated_joinery :
    ∃ farms' r' report, (Registry.new .strict).execute joineryTable
      [⟨⟨0⟩, ⟨1⟩, [0, 0]⟩, ⟨⟨0⟩, ⟨2⟩, [0, 0]⟩, ⟨⟨0⟩, ⟨1⟩, [0]⟩] (.new .feedingPhase ⟨0⟩) =
        .ok (r', farms', report) ∧
      report.applied = [⟨⟨0⟩, ⟨1⟩, []⟩, ⟨⟨0⟩, ⟨2⟩, [0, 0]⟩, ⟨⟨0⟩, ⟨1⟩, [0]⟩] ∧
      r'.failures = 1 ∧
      ∃ r'' alone, (Registry.new .strict).execute joineryTable report.applied
        (.new .feedingPhase ⟨0⟩) = .ok (r'', farms', alone) ∧ r''.failures = 0 := by
  have hrun : (Registry.new .strict).execute joineryTable
      [⟨⟨0⟩, ⟨1⟩, [0, 0]⟩, ⟨⟨0⟩, ⟨2⟩, [0, 0]⟩, ⟨⟨0⟩, ⟨1⟩, [0]⟩] (.new .feedingPhase ⟨0⟩) =
        .ok (_, _, _) := rfl
  obtain ⟨-, -, -, -, ⟨r'', alone, halone, -, hfailures⟩, -⟩ := refusals_isolated hrun
  exact ⟨_, _, _, hrun, rfl, rfl, r'', alone, halone, hfailures⟩

end Homestead
