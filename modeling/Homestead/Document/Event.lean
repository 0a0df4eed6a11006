import Homestead.Condition
import Homestead.Document
import Homestead.Registry.Dispatch

/-!
# Documents of events and matches

The written forms of events with their payloads, of conditions, of matches and of the registry's
counters.
-/

namespace Homestead.Documented

instance : Documented Seat where
  write seat := write seat.number
  read? d := (read? d).map Seat.mk

instance : Documented CopyId where
  write id := write id.number
  read? d := (read? d).map CopyId.mk

instance : Documented Action where
  write a := .record [("name", write a.name), ("category", write a.category)]
  read? d := do
    let [name, category] ← d.parts? ["name", "category"] | none
    return ⟨← read? name, ← read? category⟩

instance : Documented Delivery where
  write d :=
    .record [("resource", write d.resource), ("amount", write d.amount), ("source", write d.source)]
  read? d := do
    let [resource, amount, source] ← d.parts? ["resource", "amount", "source"] | none
    return ⟨← read? resource, ← read? amount, ← read? source⟩

instance : Documented Harvest where
  write h := .record [("round", write h.round)]
  read? d := do
    let [round] ← d.parts? ["round"] | none
    return ⟨← read? round⟩

instance : Documented Payload where
  write
    | .none => .text "None"
    | .action a => .tagged "Action" (write a)
    | .take d => .tagged "Take" (write d)
    | .receive d => .tagged "Receive" (write d)
    | .harvest h => .tagged "Harvest" (write h)
  read? d :=
    if d.bareTag? = some "None" then some .none
    else
      match d.fullTag? with
      | some ("Action", d) => (read? d).map .action
      | some ("Take", d) => (read? d).map .take
      | some ("Receive", d) => (read? d).map .receive
      | some ("Harvest", d) => (read? d).map .harvest
      | _ => none

instance : Documented Event where
  write e :=
    .record [("kind", write e.moment), ("player", write e.seat), ("payload", write e.payload),
      ("condition", write e.filter)]
  read? d := do
    let [moment, seat, payload, filter] ← d.parts? ["kind", "player", "payload", "condition"] | none
    return ⟨← read? moment, ← read? seat, ← read? payload, ← read? filter⟩

instance : Documented Condition where
  write c :=
    .record [("field", write c.field), ("op", write c.comparison), ("value", write c.value)]
  read? d := do
    let [field, comparison, value] ← d.parts? ["field", "op", "value"] | none
    return ⟨← read? field, ← read? comparison, ← read? value⟩

instance : Documented Match where
  write m :=
    .record [("player", write m.seat), ("card", write m.copy), ("effects", write m.effects)]
  read? d := do
    let [seat, copy, effects] ← d.parts? ["player", "card", "effects"] | none
    return ⟨← read? seat, ← read? copy, ← read? effects⟩

instance : Documented Stats where
  write s :=
    .record [("registered_cards", write s.registered), ("triggers_processed", write s.processed),
      ("effects_executed", write s.executed), ("failures", write s.failures)]
  read? d := do
    let [registered, processed, executed, failures] ←
      d.parts? ["registered_cards", "triggers_processed", "effects_executed", "failures"] | none
    return ⟨← read? registered, ← read? processed, ← read? executed, ← read? failures⟩

end Homestead.Documented
