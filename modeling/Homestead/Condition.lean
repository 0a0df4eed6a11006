import Homestead.Event
import Homestead.Text

/-!
# Conditions

An effect can ask something of the event that it answers: *when you use a forest*, *when you take
grain*. A condition compares a field of the event's payload with a text. A payload that does not
have the field gives no verdict (`Condition.evaluate` is `none` then); what this means is up to
the card.
-/

namespace Homestead

/-- A field of a payload. -/
inductive Field where
  | actionName
  | actionCategory
  /-- The name and the category of an action, either of which may match. -/
  | actionDescriptor
  | resource
  | source
  deriving DecidableEq, Repr

namespace Field

def name : Field → String
  | actionName => "ActionName"
  | actionCategory => "ActionCategory"
  | actionDescriptor => "ActionDescriptor"
  | resource => "Resource"
  | source => "Source"

instance : Enumerated Field where
  all := [actionName, actionCategory, actionDescriptor, resource, source]
  name := name
  mem_all k := by cases k <;> decide
  nodup_all := by decide
  name_injective {a b} := by cases a <;> cases b <;> decide

/-- The texts that a payload has for a field. -/
def texts : Field → Payload → List String
  | actionName, .action a => [a.name]
  | actionCategory, .action a => [a.category.name]
  | actionDescriptor, .action a => [a.name, a.category.name]
  | resource, .take d => [d.resource.name]
  | resource, .receive d => [d.resource.name]
  | source, .take d => [d.source]
  | source, .receive d => [d.source]
  | _, _ => []

end Field

/-- A comparison of the actual text of a field with the expected one. -/
inductive Comparison where
  | equals
  | contains
  /-- One of the texts contains the other. -/
  | fuzzy
  deriving DecidableEq, Repr

namespace Comparison

def name : Comparison → String
  | equals => "Equals"
  | contains => "Contains"
  | fuzzy => "Fuzzy"

instance : Enumerated Comparison where
  all := [equals, contains, fuzzy]
  name := name
  mem_all k := by cases k <;> decide
  nodup_all := by decide
  name_injective {a b} := by cases a <;> cases b <;> decide

/-- Does the actual text compare with the expected one? -/
def holds : Comparison → (actual expected : String) → Bool
  | equals, actual, expected => actual == expected
  | contains, actual, expected => Text.contains actual expected
  | fuzzy, actual, expected => Text.related actual expected

end Comparison

/-- What an effect asks of the payload of an event. -/
structure Condition where
  field : Field
  comparison : Comparison
  value : String
  deriving DecidableEq, Repr

namespace Condition

/-- The loose condition of a free text: it is related to the action's name or category. -/
def freeText (text : String) : Condition := ⟨.actionDescriptor, .fuzzy, text⟩

def actionNamed (name : String) : Condition := ⟨.actionName, .contains, name⟩

def actionOf (category : ActionCategory) : Condition := ⟨.actionCategory, .equals, category.name⟩

/-- The verdict on a payload, if the payload has the field. -/
def evaluate (c : Condition) (payload : Payload) : Option Bool :=
  match c.field.texts payload with
  | [] => none
  | texts => some (texts.any fun text => c.comparison.holds text c.value)

end Condition

end Homestead
