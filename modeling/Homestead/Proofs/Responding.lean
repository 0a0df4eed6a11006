import Homestead.Proofs.Firing

/-!
# Responses to an event

What an event finds due on a copy shrinks as the copy is used and depends on nothing else that a
dispatch changes: `Copy.Worn` is the relation to a copy that was used since, and on the worn copy
just those of the due effects are due that may still be applied (`Copy.Worn.due`). An effect that
may no longer be applied is passed over, so firing what was due earlier comes to the same as firing
what is due now (`Farm.Worn.fire_due`).

`Farm.respond` dispatches an event to the copies of one farm and looks up what is due on each only
when its turn comes. By the above, a list of matches does just that, whenever it was found
(`Registry.yieldAll_find`).
-/

namespace Homestead

/-! ## Definitions -/

/-- The positions of a copy's effects that an event finds due: they answer it and pass its
filter. -/
def Copy.due (c : Copy) (event : Event) : List Nat :=
  (c.answers event).filter (c.passes event.filterText)

/-- The positions that an event finds due on the copy of an identifier. -/
def Farm.due (f : Farm) (event : Event) (id : CopyId) : List Nat :=
  match f.copy? id with
  | some c => c.due event
  | none => []

/-- What came of firing matches, whichever matches these were. -/
structure Yield where
  /-- The effects that were applied, each with its seat and copy, in order. -/
  fired : List (Seat × CopyId × Nat)
  /-- The refusals that ended matches, in order. -/
  refusals : List Refusal

namespace Yield

/-- Nothing was applied and nothing refused. -/
def nothing : Yield := ⟨[], []⟩

/-- What came of one match and then of others. -/
def append (y z : Yield) : Yield := ⟨y.fired ++ z.fired, y.refusals ++ z.refusals⟩

instance : Append Yield := ⟨append⟩

/-- What came of firing effects of a seat's copy. -/
def ofOutcome (seat : Seat) (id : CopyId) (o : Outcome) : Yield :=
  ⟨o.applied.map fun i => (seat, id, i), o.failure.toList⟩

/-- What came of firing several matches. -/
def ofFirings : List Firing → Yield
  | [] => nothing
  | f :: rest => ofOutcome f.aim.seat f.aim.copy f.outcome ++ ofFirings rest

end Yield

/-- What came of a list of matches. -/
def Report.yield (r : Report) : Yield := .ofFirings r.firings

/-- Fires several matches, and keeps of the firings what came of them. -/
def Match.yieldAll (policy : PaymentPolicy) (ms : List Match) (farms : Seating Farm) :
    Checked (Seating Farm × Yield) :=
  (fun x => (x.1, .ofFirings x.2)) <$> fireAll policy ms farms

/-- Dispatches an event to copies of a seat's farm: each fires what is due on it when its turn
comes. -/
def Farm.respond (policy : PaymentPolicy) (seat : Seat) (event : Event) :
    List CopyId → Farm → Checked (Farm × Yield)
  | [], f => return (f, .nothing)
  | id :: ids, f => do
    let (f, o) ← f.fire policy id (f.due event id)
    let (f, y) ← respond policy seat event ids f
    return (f, .ofOutcome seat id o ++ y)

/-- Dispatches an event to the registered copies of a seat, if the seat has a farm. -/
def Registry.respond (r : Registry) (farms : Seating Farm) (seat : Seat) (event : Event) :
    Checked (Seating Farm × Yield) :=
  match farms.get? seat with
  | none => return (farms, .nothing)
  | some f =>
    (fun x => (farms.set seat x.1, x.2)) <$> f.respond r.policy seat event (r.copiesOf seat)

/-- The second copy is the first after some use: whatever may be applied now could be before. -/
structure Copy.Worn (c c' : Copy) : Prop where
  card : c'.card = c.card
  canApply : ∀ {i}, c'.canApply i → c.canApply i

/-- Each copy of the second farm is that of the first farm after some use. -/
structure Farm.Worn (f f' : Farm) : Prop where
  copy : ∀ id, Option.Rel Copy.Worn (f.copy? id) (f'.copy? id)

variable {policy : PaymentPolicy} {seat : Seat} {event : Event} {id : CopyId} {ids : List CopyId}
  {is : List Nat} {i : Nat} {c c' c'' : Copy} {s s' : Store} {o : Outcome} {f f' f'' : Farm}
  {farms farms' : Seating Farm} {ms ms' : List Match} {firings : List Firing}

/-! ## What came of firings -/

namespace Yield

theorem append_def (y z : Yield) : y ++ z = ⟨y.fired ++ z.fired, y.refusals ++ z.refusals⟩ := rfl

theorem append_assoc (x y z : Yield) : x ++ y ++ z = x ++ (y ++ z) := by
  simp only [append_def, List.append_assoc]

theorem ofFirings_append (fs gs : List Firing) :
    ofFirings (fs ++ gs) = ofFirings fs ++ ofFirings gs := by
  induction fs with
  | nil => rfl
  | cons f fs ih => rw [List.cons_append, ofFirings, ih, ofFirings, append_assoc]

theorem fired_ofFirings (fs : List Firing) :
    (ofFirings fs).fired =
      fs.flatMap fun f => f.outcome.applied.map fun i => (f.aim.seat, f.aim.copy, i) := by
  induction fs with
  | nil => rfl
  | cons f fs ih => rw [ofFirings, append_def, ih, List.flatMap_cons, ofOutcome]

theorem refusals_ofFirings (fs : List Firing) :
    (ofFirings fs).refusals = fs.filterMap fun f => f.outcome.failure := by
  induction fs with
  | nil => rfl
  | cons f fs ih =>
    rw [ofFirings, append_def, ih, ofOutcome, List.filterMap_cons]
    cases f.outcome.failure <;> rfl

end Yield

theorem Report.fired_eq (r : Report) : r.fired = r.yield.fired.map (·.2.2) := by
  simp [fired, yield, Yield.fired_ofFirings, List.map_flatMap, Function.comp_def]

theorem Report.executed_eq (r : Report) : r.executed = r.yield.fired.length := by
  rw [executed, fired_eq, List.length_map]

theorem Report.refusals_eq (r : Report) : r.refusals = r.yield.refusals := by
  rw [refusals, yield, Yield.refusals_ofFirings]

/-! ## Worn copies -/

namespace Copy

namespace Worn

theorem refl (c : Copy) : Worn c c := ⟨rfl, fun h => h⟩

theorem trans (h : Worn c c') (h' : Worn c' c'') : Worn c c'' :=
  ⟨h'.card.trans h.card, fun hi => h.canApply (h'.canApply hi)⟩

/-- A worn copy has due what was due and may still be applied. -/
theorem due (h : Worn c c') (event : Event) :
    c'.due event = (c.due event).filter c'.canApply := by
  have haccepts : c'.accepts event.payload = c.accepts event.payload := by
    funext i
    rw [accepts, accepts, h.card]
  have hpasses : c'.passes event.filterText = c.passes event.filterText := by
    funext i
    rw [passes, passes, h.card]
  simp only [Copy.due, answers, h.card, haccepts, hpasses, List.filter_filter]
  refine List.filter_congr fun i _ => ?_
  cases hi : c'.canApply i with
  | false => simp
  | true => simp [h.canApply hi]

/-- Use wears a copy: an effect that is applied could be. -/
theorem of_applyEffect (h : c.applyEffect i policy s = .ok (.ok (some (c', s')))) : Worn c c' := by
  cases applyEffect_eq_ok_iff.1 h with
  | @applied e u s' he hu allowed =>
    refine ⟨rfl, fun {j} hj => ?_⟩
    by_cases eq : i = j
    · subst eq
      exact canApply_iff.2 ⟨e, u, he, hu, allowed⟩
    · have same : (c.counting i u).uses[j]? = c.uses[j]? := List.getElem?_set_ne eq
      obtain ⟨e', v, he', hv, hallows⟩ := canApply_iff.1 hj
      exact canApply_iff.2 ⟨e', v, he', same ▸ hv, hallows⟩

theorem of_applies (h : Applies policy is c s c' s' o) : Worn c c' := by
  induction h with
  | nil | refused => exact .refl _
  | declined _ _ ih => exact ih
  | applied hi _ ih => exact (of_applyEffect hi).trans ih

end Worn

/-- Effects that may not be applied are passed over, and use never brings them back. -/
theorem applyAll_filter {p : Nat → Bool} (h : ∀ i, c.canApply i → p i) (is : List Nat) (s : Store) :
    applyAll policy (is.filter p) c s = applyAll policy is c s := by
  induction is generalizing c s with
  | nil => rfl
  | cons i is ih =>
    by_cases hi : p i
    · rw [List.filter_cons_of_pos hi, applyAll, applyAll]
      rcases happly : c.applyEffect i policy s with fault | cause | _ | ⟨c₁, s₁⟩
      · rfl
      · rfl
      · exact ih h s
      · have worn := Worn.of_applyEffect happly
        simp only [Checked.ok_bind]
        rw [ih (fun j hj => h j (worn.canApply hj)) s₁]
    · have declined : c.applyEffect i policy s = .ok (.ok none) :=
        applyEffect_eq_ok_iff.2 (.declined (Bool.eq_false_iff.2 fun able => hi (h i able)))
      rw [List.filter_cons_of_neg hi, ih h s, applyAll, declined]
      rfl

end Copy

/-! ## Worn farms -/

namespace Farm

theorem due_of_copy? (h : f.copy? id = some c) (event : Event) : f.due event id = c.due event := by
  rw [due, h]

theorem due_of_absent (h : f.copy? id = none) (event : Event) : f.due event id = [] := by
  rw [due, h]

theorem match?_eq (f : Farm) (seat : Seat) (event : Event) (id : CopyId) :
    f.match? seat event id =
      if f.due event id = [] then none else some ⟨seat, id, f.due event id⟩ := by
  cases h : f.copy? id with
  | none =>
    rw [match?, h, due_of_absent h, if_pos rfl]
    rfl
  | some c =>
    rw [match?, h, due_of_copy? h]
    change (guard (c.due event ≠ []) >>= fun _ => some (Match.mk seat id (c.due event))) = _
    by_cases none : c.due event = []
    · rw [if_pos none, guard, if_neg fun ne => ne none]
      rfl
    · rw [if_neg none, guard, if_pos none]
      rfl

namespace Worn

theorem refl (f : Farm) : Worn f f := by
  refine ⟨fun id => ?_⟩
  cases f.copy? id with
  | none => exact .none
  | some c => exact .some (.refl c)

theorem trans (h : Worn f f') (h' : Worn f' f'') : Worn f f'' := by
  refine ⟨fun id => ?_⟩
  have h := h.copy id
  have h' := h'.copy id
  generalize f.copy? id = x, f'.copy? id = y, f''.copy? id = z at h h' ⊢
  cases h with
  | none => exact h'
  | some hc => cases h' with
    | some hc' => exact .some (hc.trans hc')

theorem of_fires (h : f.Fires policy id is f' o) : Worn f f' := by
  refine ⟨fun other => ?_⟩
  cases h with
  | absent => exact (refl f).copy other
  | @owned c c' s' o hc happlies =>
    have hid : c'.id = id := happlies.id_card.1.trans (id_of_copy? hc)
    rw [copy?_replace, hid]
    split
    · rename_i eq
      rw [← eq, hc]
      exact .some (.of_applies happlies)
    · exact (refl f).copy other

/-- A copy of the worn farm was owned before, and is that copy after some use. -/
theorem some_right (h : Worn f f') (hc' : f'.copy? id = some c') :
    ∃ c, f.copy? id = some c ∧ c.Worn c' := by
  have h := h.copy id
  rw [hc'] at h
  generalize f.copy? id = x at h
  cases h with
  | some worn => exact ⟨_, rfl, worn⟩

/-- What is due on a used copy was due on it before. -/
theorem due_eq_nil (h : Worn f f') (none : f.due event id = []) : f'.due event id = [] := by
  cases hc' : f'.copy? id with
  | none => exact due_of_absent hc' event
  | some c' =>
    obtain ⟨c, hc, worn⟩ := h.some_right hc'
    rw [due_of_copy? hc] at none
    rw [due_of_copy? hc', worn.due, none]
    rfl

/-- Firing what was due on a copy before it was used comes to firing what is due on it now. -/
theorem fire_due (h : Worn f f') (event : Event) (id : CopyId) :
    fire policy id (f.due event id) f' = fire policy id (f'.due event id) f' := by
  cases hc' : f'.copy? id with
  | none => rw [fire_of_copy?_eq_none hc', fire_of_copy?_eq_none hc']
  | some c' =>
    obtain ⟨c, hc, worn⟩ := h.some_right hc'
    rw [fire_eq hc', fire_eq hc', due_of_copy? hc, due_of_copy? hc', worn.due,
      Copy.applyAll_filter fun _ able => able]

end Worn

end Farm

/-! ## Matches -/

namespace Match

theorem fire_of_get? {m : Match} (h : farms.get? m.seat = some f) :
    m.fire policy farms =
      (fun x => (farms.set m.seat x.1, ⟨m, x.2⟩)) <$> f.fire policy m.copy m.effects := by
  unfold fire
  split
  · rename_i none
    cases none.symm.trans h
  · rename_i g hg
    cases hg.symm.trans h
    cases Farm.fire policy m.copy m.effects f <;> rfl

theorem yieldAll_cons (m : Match) (ms : List Match) (farms : Seating Farm) :
    yieldAll policy (m :: ms) farms = do
      let (farms, f) ← m.fire policy farms
      let (farms, y) ← yieldAll policy ms farms
      return (farms, .ofOutcome f.aim.seat f.aim.copy f.outcome ++ y) := by
  rw [yieldAll, fireAll]
  cases m.fire policy farms with
  | error fault => rfl
  | ok x =>
    simp only [Checked.ok_bind, yieldAll]
    cases fireAll policy ms x.1 <;> rfl

theorem yieldAll_append (ms ms' : List Match) (farms : Seating Farm) :
    yieldAll policy (ms ++ ms') farms = do
      let (farms, y) ← yieldAll policy ms farms
      let (farms, z) ← yieldAll policy ms' farms
      return (farms, y ++ z) := by
  induction ms generalizing farms with
  | nil =>
    change yieldAll policy ms' farms = yieldAll policy ms' farms >>= fun x => pure (x.1, x.2)
    cases yieldAll policy ms' farms <;> rfl
  | cons m ms ih =>
    rw [List.cons_append, yieldAll_cons, yieldAll_cons]
    cases m.fire policy farms with
    | error fault => rfl
    | ok x =>
      simp only [Checked.ok_bind, ih]
      cases yieldAll policy ms x.1 with
      | error fault => rfl
      | ok y =>
        simp only [Checked.ok_bind, pure_bind]
        cases yieldAll policy ms' y.1 with
        | error fault => rfl
        | ok z => exact congrArg (fun w => Except.ok (z.1, w)) (Yield.append_assoc ..).symm

end Match

/-! ## Responses -/

theorem Farm.respond_cons_of_nil (none : f.due event id = []) (ids : List CopyId) :
    f.respond policy seat event (id :: ids) = f.respond policy seat event ids := by
  rw [respond, none]
  change (f.respond policy seat event ids >>= fun x => pure (x.1, x.2)) = _
  cases f.respond policy seat event ids <;> rfl

/-- Firing matches wears the farms. -/
theorem Match.FiresAll.worn (h : Match.FiresAll policy ms farms farms' firings) :
    Seating.Related Farm.Worn farms farms' :=
  h.related .refl .trans .of_fires

/-- Matches that were found on a seat's farm before its copies were used do what the farm responds
now. -/
theorem Match.yieldAll_find {f₀ : Farm} (worn : f₀.Worn f) (hf : farms.get? seat = some f)
    (event : Event) (ids : List CopyId) :
    yieldAll policy (ids.filterMap (f₀.match? seat event)) farms =
      (fun x => (farms.set seat x.1, x.2)) <$> f.respond policy seat event ids := by
  induction ids generalizing farms f with
  | nil =>
    change Except.ok (farms, Yield.nothing) = Except.ok (farms.set seat f, Yield.nothing)
    rw [Seating.set_self hf]
  | cons id ids ih =>
    have hmatch := f₀.match?_eq seat event id
    by_cases none : f₀.due event id = []
    · rw [if_pos none] at hmatch
      rw [List.filterMap_cons_none hmatch, Farm.respond_cons_of_nil (worn.due_eq_nil none)]
      exact ih worn hf
    · rw [if_neg none] at hmatch
      rw [List.filterMap_cons_some hmatch, yieldAll_cons, fire_of_get? hf, worn.fire_due,
        Farm.respond]
      cases hfire : Farm.fire policy id (f.due event id) f with
      | error fault => rfl
      | ok x =>
        obtain ⟨f₁, o⟩ := x
        have hrest := ih (worn.trans (.of_fires (Farm.fire_eq_ok_iff.1 hfire)))
          (Seating.get?_set_self hf f₁)
        simp only [Checked.map_ok, Checked.ok_bind, hrest, Seating.set_set]
        cases f₁.respond policy seat event ids <;> rfl

namespace Registry

variable {r : Registry} {farms₀ : Seating Farm}

theorem respond_of_get?_eq_none (hf : farms.get? seat = none) (r : Registry) (event : Event) :
    r.respond farms seat event = .ok (farms, .nothing) := by
  rw [respond, hf]
  rfl

theorem respond_of_get? (hf : farms.get? seat = some f) (r : Registry) (event : Event) :
    r.respond farms seat event =
      (fun x => (farms.set seat x.1, x.2)) <$>
        f.respond r.policy seat event (r.copiesOf seat) := by
  rw [respond, hf]

/-- Finding and firing at one seat is what the seat responds, also with matches that were found
before copies of the farms were used. -/
theorem yieldAll_find (worn : Seating.Related Farm.Worn farms₀ farms) (seat : Seat)
    (event : Event) :
    Match.yieldAll r.policy (r.find farms₀ seat event) farms = r.respond farms seat event := by
  rw [find]
  cases hf : farms.get? seat with
  | none =>
    rw [worn.none_right hf, respond_of_get?_eq_none hf]
    rfl
  | some f =>
    obtain ⟨f₀, hf₀, hworn⟩ := worn.some_right hf
    rw [hf₀, respond_of_get? hf]
    exact Match.yieldAll_find hworn hf event _

theorem trigger_eq (r : Registry) (farms : Seating Farm) (seat : Seat) (event : Event) :
    r.trigger farms seat event =
      (fun x => (r.tally ⟨event.moment, x.2⟩, x.1, ⟨event.moment, x.2⟩)) <$>
        Match.fireAll r.policy (r.find farms seat event) farms := by
  rw [trigger, execute]
  cases Match.fireAll r.policy (r.find farms seat event) farms <;> rfl

/-- Of a dispatch to one seat the farms and what came of it are what the seat responds. -/
theorem respond_eq (r : Registry) (farms : Seating Farm) (seat : Seat) (event : Event) :
    r.respond farms seat event =
      (fun x => (x.2.1, x.2.2.yield)) <$> r.trigger farms seat event := by
  rw [← yieldAll_find (.refl .refl farms), trigger_eq, Match.yieldAll]
  cases Match.fireAll r.policy (r.find farms seat event) farms <;> rfl

end Registry

end Homestead
