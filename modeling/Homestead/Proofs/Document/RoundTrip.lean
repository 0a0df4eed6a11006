import Homestead.Document.Card
import Homestead.Proofs.Document.Lossless

/-!
# Written and read back

Cards, events, matches, setups and stores have lossless forms, because every part of them has.
`Documented.Keeps` sums up what that means for a record of given fields: a value is read back from
its document, so a document that is read may be replaced by what is written of its value; that has
just the given fields, and of other documents these fields alone are read.
-/

namespace Homestead.Documented

open Document

/-! ## Events and matches -/

instance : Lossless Seat where
  read?_write seat := by
    unfold instSeat
    simp

instance : Lossless CopyId where
  read?_write id := by
    unfold instCopyId
    simp

instance : Lossless Action where
  read?_write a := by
    unfold instAction
    simp [parts?, List.lookup_cons]

instance : Lossless Delivery where
  read?_write d := by
    unfold instDelivery
    simp [parts?, List.lookup_cons]

instance : Lossless Harvest where
  read?_write h := by
    unfold instHarvest
    simp [parts?, List.lookup_cons]

instance : Present Action := ⟨nofun⟩

instance : Present Delivery := ⟨nofun⟩

instance : Present Harvest := ⟨nofun⟩

instance : Lossless Payload where
  read?_write p := by
    unfold instPayload
    cases p with
    | none => rfl
    | action a => simp [bareTag?_tagged (Present.write_ne_null a), fullTag?_tagged]
    | take d => simp [bareTag?_tagged (Present.write_ne_null d), fullTag?_tagged]
    | receive d => simp [bareTag?_tagged (Present.write_ne_null d), fullTag?_tagged]
    | harvest h => simp [bareTag?_tagged (Present.write_ne_null h), fullTag?_tagged]

instance : Lossless Event where
  read?_write e := by
    unfold instEvent
    simp [parts?, List.lookup_cons]

instance : Lossless Condition where
  read?_write c := by
    unfold instCondition
    simp [parts?, List.lookup_cons]

instance : Present Condition := ⟨nofun⟩

instance : Lossless Match where
  read?_write m := by
    unfold instMatch
    simp [parts?, List.lookup_cons]

/-! ## Stores and setups -/

instance : Lossless CardId where
  read?_write id := by
    unfold instCardId
    simp

instance : Lossless Bundle where
  read?_write b := by
    unfold instBundle
    simp

instance : Lossless Setup where
  read?_write s := by
    unfold instSetup
    simp [parts?, List.lookup_cons]

instance : Lossless Store where
  read?_write s := by
    unfold instStore
    simp only [parts?, List.lookup_cons, List.lookup_nil, List.map_cons, List.map_nil, BEq.rfl,
      String.reduceBEq, Option.getD_some, Option.pure_def, Option.bind_eq_bind, Option.bind_some,
      Lossless.read?_write, readCells?_writeCells, readEntries?_writeEntries]

/-! ## Cards -/

instance : Lossless EffectId where
  read?_write id := by
    unfold instEffectId
    simp

instance : Lossless Limit where
  read?_write l := by
    unfold instLimit
    cases l with
    | unlimited => rfl
    | perRound n => simp [bareTag?_tagged (Present.write_ne_null n), fullTag?_tagged]
    | once => rfl

instance : Lossless Effect where
  read?_write e := by
    unfold instEffect
    simp [parts?, List.lookup_cons]

instance : Lossless Requirement where
  read?_write q := by
    unfold instRequirement
    simp [parts?, List.lookup_cons]

instance : Lossless Price where
  read?_write p := by
    unfold instPrice
    simp [parts?, List.lookup_cons]

instance : Lossless Occupation where
  read?_write o := by
    unfold instOccupation
    simp [parts?, List.lookup_cons]

instance : Lossless Improvement where
  read?_write i := by
    unfold instImprovement
    simp [parts?, List.lookup_cons]

instance : Lossless CardKind where
  read?_write k := by
    unfold instCardKind
    cases k with
    | occupation o => simp [fullTag?_tagged]
    | improvement i => simp [fullTag?_tagged]

instance : Lossless Card where
  read?_write c := by
    unfold instCard
    simp [parts?, List.lookup_cons]

/-! ## What is kept -/

/-- The written form of a type is a record of the given fields, which keeps every value. -/
structure Keeps (α : Type) [Documented α] (fields : List String) : Prop where
  read?_write : ∀ a : α, read? (write a) = some a
  /-- A value that was read is, written anew, read as the same value. -/
  rewritten : ∀ {d : Document} {a : α}, read? d = some a → read? (write a) = (read? d : Option α)
  /-- What is written are the given fields. -/
  names_write : ∀ a : α, (write a).names = fields
  /-- Other fields are not read, and a missing one counts as `null`. -/
  read?_select : ∀ given, (read? (record given) : Option α) = read? (select fields given)

variable {α : Type} [Documented α] {fields : List String}

theorem Keeps.intro [Lossless α] (names_write : ∀ a : α, (write a).names = fields)
    (read?_parts : ∀ {d d' : Document}, d.parts? fields = d'.parts? fields →
      (read? d : Option α) = read? d') :
    Keeps α fields where
  read?_write := Lossless.read?_write
  rewritten h := (Lossless.read?_write _).trans h.symm
  names_write := names_write
  read?_select given := read?_parts (parts?_select fields given).symm

/-- The written forms of cards, effects, events, matches, setups and stores keep every value. -/
theorem written_forms_keep :
    Keeps Card ["id", "name", "tags", "effects", "conditions", "costs", "kind"] ∧
      Keeps Effect ["id", "trigger", "gains", "costs", "victory_points", "condition", "special",
        "usage"] ∧
      Keeps Event ["kind", "player", "payload", "condition"] ∧
      Keeps Match ["player", "card", "effects"] ∧
      Keeps Setup ["player_count", "payment_policy", "starting_resources",
        "starting_family_members", "starting_rooms"] ∧
      Keeps Store ["balances", "victory_points", "family_members", "available_workers", "rooms",
        "fields", "pastures", "temp_bonuses", "cooking_facilities", "cooking_ratios",
        "storage"] := by
  refine ⟨.intro (fun _ => rfl) fun {d d'} h => ?_, .intro (fun _ => rfl) fun {d d'} h => ?_,
    .intro (fun _ => rfl) fun {d d'} h => ?_, .intro (fun _ => rfl) fun {d d'} h => ?_,
    .intro (fun _ => rfl) fun {d d'} h => ?_, .intro (fun _ => rfl) fun {d d'} h => ?_⟩
  · unfold instCard
    simp only [h]
  · unfold instEffect
    simp only [h]
  · unfold instEvent
    simp only [h]
  · unfold instMatch
    simp only [h]
  · unfold instSetup
    simp only [h]
  · unfold instStore
    simp only [h]

/-- An event without a filter may leave the field out, and what it says besides is not read. -/
example :
    read? (record [("payload", .text "None"), ("player", .number 0), ("weather", .text "rain"),
      ("kind", .text "OnAction")]) = some (Event.new .onAction ⟨0⟩) := by
  rfl

end Homestead.Documented
