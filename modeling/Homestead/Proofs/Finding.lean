import Homestead.Proofs.Exactness

/-!
# What finding lists

Finding goes through four tests in turn: is the effect of the moment, may it be applied once more,
does it accept the payload, does it pass the free text of the event. `Effect.Suits` says in one
place what the first, the third and the fourth ask, by what the payload shows (`Payload.Shows`) and
by which text stands within which (`Text.Within`), and `Effect.suits_iff` that this is what they
ask.

A condition asks about a field that the payload may not show at all. It is silent then
(`Condition.Silent`), which stops the effects of actions and no others.

A find lists just the effects of owned copies that suit the event and may still be applied
(`find_lists_what_suits`).
-/

namespace Homestead

/-! ## What an effect asks of an event -/

/-- A text stands somewhere in another. -/
def Text.Within (part text : String) : Prop :=
  ∃ before after : String, text = before ++ part ++ after

/-- What a payload shows in a field. -/
inductive Payload.Shows : Payload → Field → String → Prop
  | actionName {a : Action} : Shows (.action a) .actionName a.name
  | actionCategory {a : Action} : Shows (.action a) .actionCategory a.category.name
  | nameDescribes {a : Action} : Shows (.action a) .actionDescriptor a.name
  | categoryDescribes {a : Action} : Shows (.action a) .actionDescriptor a.category.name
  | resourceTaken {d : Delivery} : Shows (.take d) .resource d.resource.name
  | resourceReceived {d : Delivery} : Shows (.receive d) .resource d.resource.name
  | sourceTaken {d : Delivery} : Shows (.take d) .source d.source
  | sourceReceived {d : Delivery} : Shows (.receive d) .source d.source

/-- What a comparison says of the actual text and the expected one. -/
def Comparison.Says (actual expected : String) : Comparison → Prop
  | equals => actual = expected
  | contains => Text.Within expected actual
  | fuzzy => Text.Within expected actual ∨ Text.Within actual expected

namespace Condition

/-- Some text that the payload shows is as the condition wants it. -/
def Holds (c : Condition) (payload : Payload) : Prop :=
  ∃ text, payload.Shows c.field text ∧ c.comparison.Says text c.value

/-- The payload shows nothing in the field that the condition reads. -/
def Silent (c : Condition) (payload : Payload) : Prop := ∀ text, ¬payload.Shows c.field text

end Condition

/-- The effect is of the event's moment, has no condition against its payload, and a free text of
the event says something about the condition. -/
structure Effect.Suits (e : Effect) (event : Event) : Prop where
  moment : e.moment = event.moment
  payload : ∀ c, e.condition = some c →
    c.Holds event.payload ∨ c.Silent event.payload ∧ e.moment ≠ .onAction
  filter : ∀ text, event.filter = some text →
    text = "" ∨ Text.Within text e.conditionText ∨ Text.Within e.conditionText text

variable {a b part text : String} {field : Field} {payload : Payload} {c : Condition} {e : Effect}
  {event : Event}

/-! ## Texts -/

theorem Text.contains_eq_true_iff : contains text part = true ↔ Within part text := by
  rw [contains_iff]
  constructor
  · intro h
    obtain ⟨before, after, h⟩ := h
    refine ⟨.ofList before, .ofList after, String.toList_injective ?_⟩
    simpa using h
  · intro h
    obtain ⟨before, after, rfl⟩ := h
    exact ⟨before.toList, after.toList, by simp⟩

theorem Text.related_eq_true_iff : related a b = true ↔ Within b a ∨ Within a b := by
  rw [related, Bool.or_eq_true, contains_eq_true_iff, contains_eq_true_iff]

theorem Comparison.holds_eq_true_iff {comparison : Comparison} :
    comparison.holds a b = true ↔ comparison.Says a b := by
  cases comparison with
  | equals => exact beq_iff_eq
  | contains => exact Text.contains_eq_true_iff
  | fuzzy => exact Text.related_eq_true_iff

/-! ## Conditions -/

theorem Payload.shows_iff : payload.Shows field text ↔ text ∈ field.texts payload := by
  constructor
  · intro h
    cases h <;> simp [Field.texts]
  · intro h
    -- most payloads lack most fields; what is left of the table are the constructors
    cases payload <;> cases field <;>
      simp only [Field.texts, List.not_mem_nil, List.mem_cons, or_false] at h
    all_goals rcases h with rfl | rfl
    all_goals constructor

namespace Condition

theorem evaluate_eq_none_iff : c.evaluate payload = none ↔ c.Silent payload := by
  unfold Silent
  simp only [Payload.shows_iff]
  rw [evaluate, ← List.eq_nil_iff_forall_not_mem]
  cases c.field.texts payload <;> simp

theorem evaluate_eq_true_iff : c.evaluate payload = some true ↔ c.Holds payload := by
  unfold Holds
  simp only [Payload.shows_iff, ← Comparison.holds_eq_true_iff]
  rw [evaluate]
  cases c.field.texts payload with
  | nil => simp
  | cons text texts => simp

end Condition

namespace Effect

theorem accepts_iff : e.accepts payload = true ↔ ∀ c, e.condition = some c →
    c.Holds payload ∨ c.Silent payload ∧ e.moment ≠ .onAction := by
  unfold accepts
  cases e.condition with
  | none => exact iff_of_true rfl nofun
  | some c =>
    simp only [Option.some.injEq, forall_eq', ← Condition.evaluate_eq_true_iff,
      ← Condition.evaluate_eq_none_iff]
    cases c.evaluate payload with
    | none => simp
    | some verdict => simp

/-- An action has no source: that stops an effect of actions, and no effect of the harvest. -/
example :
    let asksSource := (Effect.new ⟨1⟩ .onAction).withCondition ⟨.source, .equals, "Forest"⟩
    asksSource.accepts (.action ⟨"Forest", .gathering⟩) = false ∧
      { asksSource with moment := .onHarvest }.accepts (.action ⟨"Forest", .gathering⟩) = true :=
  ⟨rfl, rfl⟩

theorem suits_iff : e.Suits event ↔ e.moment = event.moment ∧ e.accepts event.payload ∧
    (event.filterText = "" ∨ Text.related e.conditionText event.filterText) := by
  have filter : (event.filterText = "" ∨ Text.related e.conditionText event.filterText) ↔
      ∀ text, event.filter = some text →
        text = "" ∨ Text.Within text e.conditionText ∨ Text.Within e.conditionText text := by
    rw [Text.related_eq_true_iff, Event.filterText]
    cases event.filter with
    | none => exact iff_of_true (.inl rfl) nofun
    | some text => simp
  rw [accepts_iff, filter]
  constructor
  · intro h
    exact ⟨h.moment, h.payload, h.filter⟩
  · intro h
    exact ⟨h.1, h.2.1, h.2.2⟩

end Effect

/-! ## Finds -/

theorem Copy.mem_due_iff_suits {copy : Copy} {i : Nat} : i ∈ copy.due event ↔
    ∃ e u, copy.card.effects[i]? = some e ∧ copy.uses[i]? = some u ∧ u.allows e.limit ∧
      e.Suits event := by
  rw [mem_due]
  constructor
  · intro h
    obtain ⟨e, he, hmoment, able, haccepts, hpasses⟩ := h
    obtain ⟨e', u, he', hu, allowed⟩ := canApply_iff.1 able
    cases he.symm.trans he'
    exact ⟨e, u, he, hu, allowed, Effect.suits_iff.2 ⟨hmoment, haccepts, hpasses⟩⟩
  · intro h
    obtain ⟨e, u, he, hu, allowed, suits⟩ := h
    obtain ⟨hmoment, haccepts, hpasses⟩ := Effect.suits_iff.1 suits
    exact ⟨e, he, hmoment, canApply_iff.2 ⟨e, u, he, hu, allowed⟩, haccepts, hpasses⟩

/-- A find goes through the registered copies of a seat in their order and lists, in the order of
the card, just those effects of each that suit the event and have a use left. A copy that the seat
does not own gives no match, nor does a seat without a farm. -/
theorem find_lists_what_suits (r : Registry) (farms : Seating Farm) (seat : Seat) (event : Event) :
    ((r.find farms seat event).map Match.copy).Sublist (r.copiesOf seat) ∧
    (∀ m ∈ r.find farms seat event,
      m.seat = seat ∧ m.effects ≠ [] ∧ m.effects.Pairwise (· < ·)) ∧
    (∀ id ∈ r.copiesOf seat, ∀ i,
      (∃ m ∈ r.find farms seat event, m.copy = id ∧ i ∈ m.effects) ↔
        ∃ f c e u, farms.get? seat = some f ∧ f.copy? id = some c ∧ c.card.effects[i]? = some e ∧
          c.uses[i]? = some u ∧ u.allows e.limit ∧ e.Suits event) ∧
    (∀ m ∈ r.find farms seat event, ∃ f, farms.get? seat = some f ∧ f.owns m.copy) ∧
    (farms.get? seat = none → r.find farms seat event = []) := by
  refine ⟨r.find_sublist farms seat event, ?_, ?_, ?_, ?_⟩
  · intro m hm
    obtain ⟨f, c, -, -, -, due, eq⟩ := Registry.mem_find.1 hm
    rw [eq]
    exact ⟨rfl, due, c.due_pairwise event⟩
  · intro id registered i
    constructor
    · intro h
      obtain ⟨m, hm, rfl, mem⟩ := h
      obtain ⟨f, c, hf, hc, -, -, eq⟩ := Registry.mem_find.1 hm
      rw [eq] at mem
      obtain ⟨e, u, he, hu, allowed, suits⟩ := Copy.mem_due_iff_suits.1 mem
      exact ⟨f, c, e, u, hf, hc, he, hu, allowed, suits⟩
    · intro h
      obtain ⟨f, c, e, u, hf, hc, he, hu, allowed, suits⟩ := h
      have mem : i ∈ c.due event := Copy.mem_due_iff_suits.2 ⟨e, u, he, hu, allowed, suits⟩
      have due : c.due event ≠ [] := List.ne_nil_of_mem mem
      refine ⟨⟨seat, id, c.due event⟩, ?_, rfl, mem⟩
      exact Registry.mem_find.2 ⟨f, c, hf, hc, registered, due, rfl⟩
  · intro m hm
    obtain ⟨f, c, hf, hc, -⟩ := Registry.mem_find.1 hm
    exact ⟨f, hf, Option.isSome_iff_exists.2 ⟨c, hc⟩⟩
  · intro none
    rw [Registry.find, none]

end Homestead
