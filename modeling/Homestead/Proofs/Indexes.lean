import Homestead.Catalog
import Homestead.Proofs.InPlace
import Mathlib.Data.List.Nodup
import Mathlib.Data.List.Perm.Basic

/-!
# The two indexes of a catalog

Both indexes of a catalog are accounts of one list, that of the cards that were accepted
(`Catalog.Indexes`). A card is accepted if its identifier and its name are free, and then both
indexes get it (`Catalog.Indexes.accept`); otherwise neither does (`Catalog.Indexes.refuse`). So the
indexes agree after any insertions (`Catalog.indexes_agree`), and a card that was refused keeps
neither its identifier nor its name from later ones.

`Catalog.performInsert` writes the two indexes in place, one after the other. Both tests come before
the first write, so it does what `Catalog.insert` says (`Catalog.run_performInsert`).
-/

namespace Homestead

/-- Two cards that cannot be in one catalog. -/
def Card.Clashes (a b : Card) : Prop := a.id = b.id ∨ a.name = b.name

instance (a b : Card) : Decidable (a.Clashes b) := inferInstanceAs (Decidable (_ ∨ _))

/-- The cards that clash with none of the held ones and with none that stays before them. -/
def withoutClashes (held : List Card) : List Card → List Card
  | [] => []
  | card :: rest =>
    if ∃ old ∈ held, old.Clashes card then withoutClashes held rest
    else card :: withoutClashes (held ++ [card]) rest

namespace Catalog

/-- Inserts cards in order, and tells which were accepted. A card that is refused leaves the catalog
as it was. -/
def insertEach : List Card → Catalog → Catalog × List Card
  | [], c => (c, [])
  | card :: rest, c =>
    match c.insert card with
    | .ok c => ((insertEach rest c).1, card :: (insertEach rest c).2)
    | .error _ => insertEach rest c

/-- Puts a card into the index by name and then into the one by identifier, or refuses to. -/
def performInsert (card : Card) : InPlace Catalog (Except Refusal Card) := do
  let c ← get
  if c.byId.contains card.id then return .error (.invalidInput (.idTaken card.id))
  else if c.idOfName.contains card.name then return .error (.invalidInput (.nameTaken card.name))
  else
    modify fun c => { c with idOfName := c.idOfName.insert card.name card.id }
    modify fun c => { c with byId := c.byId.insert card.id card }
    return .ok card

/-- Inserts cards in place in order, and tells which were accepted. -/
def performInsertEach : List Card → InPlace Catalog (List Card)
  | [] => return []
  | card :: rest => do
    match ← performInsert card with
    | .ok card => return card :: (← performInsertEach rest)
    | .error _ => performInsertEach rest

/-- Both indexes hold the cards of a list, which differ in their identifiers and in their names. -/
structure Indexes (c : Catalog) (held : List Card) : Prop where
  byId : ∀ {id card}, c.byId[id]? = some card ↔ card ∈ held ∧ card.id = id
  idOfName : ∀ {name id}, c.idOfName[name]? = some id ↔
    ∃ card ∈ held, card.name = name ∧ card.id = id
  ids_nodup : (held.map Card.id).Nodup
  names_nodup : (held.map Card.name).Nodup
  entries : (c.byId.toList.map Prod.snd).Perm held

/-- What a catalog shows of itself if it holds certain cards. -/
structure Holds (c : Catalog) (held : List Card) : Prop where
  get?_iff : ∀ {id card}, c.get? id = some card ↔ card ∈ held ∧ card.id = id
  named?_iff : ∀ {name card}, c.named? name = some card ↔ card ∈ held ∧ card.name = name
  get?_of_named? : ∀ {name card}, c.named? name = some card → c.get? card.id = some card
  ids_nodup : (held.map Card.id).Nodup
  names_nodup : (held.map Card.name).Nodup
  size_eq : c.size = held.length
  kinds : (c.occupations ++ c.improvements).Perm held
  occupation : ∀ card ∈ c.occupations, card.isOccupation
  improvement : ∀ card ∈ c.improvements, card.isImprovement ∧ ¬card.isOccupation

variable {c : Catalog} {held : List Card} {card other : Card} {id : CardId} {name : String}

/-! ## Inserting in place -/

/-- A card that is refused was refused before the first write. -/
theorem run_performInsert (c : Catalog) (card : Card) :
    (performInsert card).run c =
      .ok (InPlace.leaving c (fun c' => (card, c')) (c.insert card)) := by
  rw [performInsert, insert, StateT.run_bind, StateT.run_get, pure_bind]
  split
  · rfl
  · split <;> rfl

theorem run_performInsertEach (cards : List Card) (c : Catalog) :
    (performInsertEach cards).run c = .ok ((insertEach cards c).2, (insertEach cards c).1) := by
  induction cards generalizing c with
  | nil => rfl
  | cons card rest ih =>
    rw [performInsertEach, insertEach, StateT.run_bind, run_performInsert, Checked.ok_bind]
    cases c.insert card with
    | error cause => exact ih c
    | ok c' =>
      change (performInsertEach rest).run c' >>= _ = _
      rw [ih]
      rfl

namespace Indexes

theorem empty : Catalog.empty.Indexes [] where
  byId := by simp [Catalog.empty]
  idOfName := by simp [Catalog.empty]
  ids_nodup := List.nodup_nil
  names_nodup := List.nodup_nil
  entries := by simp [Catalog.empty]

/-! ## Looking cards up -/

theorem contains_id (h : c.Indexes held) : c.byId.contains id ↔ ∃ card ∈ held, card.id = id := by
  rw [Std.HashMap.contains_eq_isSome_getElem?, Option.isSome_iff_exists]
  exact exists_congr fun _ => h.byId

theorem contains_name (h : c.Indexes held) :
    c.idOfName.contains name ↔ ∃ card ∈ held, card.name = name := by
  rw [Std.HashMap.contains_eq_isSome_getElem?, Option.isSome_iff_exists]
  simp only [h.idOfName]
  constructor
  · rintro ⟨id, card, mem, hname, -⟩
    exact ⟨card, mem, hname⟩
  · rintro ⟨card, mem, hname⟩
    exact ⟨card.id, card, mem, hname, rfl⟩

theorem named?_eq_some_iff (h : c.Indexes held) :
    c.named? name = some card ↔ card ∈ held ∧ card.name = name := by
  unfold named?
  rw [Option.bind_eq_bind, Option.bind_eq_some_iff]
  constructor
  · rintro ⟨id, hid, hcard⟩
    obtain ⟨other, mem, hname, same⟩ := h.idOfName.1 hid
    obtain ⟨mem', same'⟩ := h.byId.1 hcard
    obtain rfl := List.inj_on_of_nodup_map h.ids_nodup mem mem' (same.trans same'.symm)
    exact ⟨mem, hname⟩
  · rintro ⟨mem, hname⟩
    exact ⟨card.id, h.idOfName.2 ⟨card, mem, hname, rfl⟩, h.byId.2 ⟨mem, rfl⟩⟩

theorem size_eq (h : c.Indexes held) : c.size = held.length := by
  rw [size, ← Std.HashMap.length_toList, ← h.entries.length_eq, List.length_map]

theorem cards_perm (h : c.Indexes held) : c.cards.Perm held :=
  (List.mergeSort_perm ..).trans h.entries

/-! ## Inserting -/

theorem byId_insert (h : c.Indexes held) (free : ∀ old ∈ held, old.id ≠ card.id) :
    (c.byId.insert card.id card)[id]? = some other ↔ other ∈ held ++ [card] ∧ other.id = id := by
  simp only [Std.HashMap.getElem?_insert, beq_iff_eq, List.mem_append, List.mem_singleton]
  split
  · rename_i eq
    subst eq
    rw [Option.some_inj]
    constructor
    · rintro rfl
      exact ⟨.inr rfl, rfl⟩
    · rintro ⟨mem | rfl, same⟩
      · exact absurd same (free other mem)
      · rfl
  · rename_i ne
    rw [h.byId]
    constructor
    · rintro ⟨mem, same⟩
      exact ⟨.inl mem, same⟩
    · rintro ⟨mem | rfl, same⟩
      · exact ⟨mem, same⟩
      · exact absurd same ne

theorem idOfName_insert (h : c.Indexes held) (free : ∀ old ∈ held, old.name ≠ card.name) :
    (c.idOfName.insert card.name card.id)[name]? = some id ↔
      ∃ old ∈ held ++ [card], old.name = name ∧ old.id = id := by
  simp only [Std.HashMap.getElem?_insert, beq_iff_eq, List.mem_append, List.mem_singleton]
  split
  · rename_i eq
    subst eq
    rw [Option.some_inj]
    constructor
    · rintro rfl
      exact ⟨card, .inr rfl, rfl, rfl⟩
    · rintro ⟨old, mem | rfl, same, hid⟩
      · exact absurd same (free old mem)
      · exact hid
  · rename_i ne
    rw [h.idOfName]
    constructor
    · rintro ⟨old, mem, same⟩
      exact ⟨old, .inl mem, same⟩
    · rintro ⟨old, mem | rfl, same, hid⟩
      · exact ⟨old, mem, same, hid⟩
      · exact absurd same ne

theorem entries_insert (h : c.Indexes held) (free : ∀ old ∈ held, old.id ≠ card.id) :
    ((c.byId.insert card.id card).toList.map Prod.snd).Perm (held ++ [card]) := by
  have unlisted : c.byId.toList.filter (fun e => ¬card.id == e.1) = c.byId.toList := by
    refine List.filter_eq_self.2 fun e he => ?_
    obtain ⟨mem, same⟩ := h.byId.1 (Std.HashMap.mem_toList_iff_getElem?_eq_some.1 he)
    have ne : card.id ≠ e.1 := fun eq => free e.2 mem (same.trans eq.symm)
    simpa using ne
  have one_more := Std.HashMap.toList_insert_perm (m := c.byId) (k := card.id) (v := card)
  rw [unlisted] at one_more
  exact (one_more.map Prod.snd).trans <|
    (h.entries.cons card).trans (List.perm_append_singleton card held).symm

/-- A card that clashes with no held one is put into both indexes. -/
theorem accept (h : c.Indexes held) (free : ¬∃ old ∈ held, old.Clashes card) :
    ∃ c', c.insert card = .ok c' ∧ c'.Indexes (held ++ [card]) := by
  have free_id : ∀ old ∈ held, old.id ≠ card.id := fun old mem eq => free ⟨old, mem, .inl eq⟩
  have free_name : ∀ old ∈ held, old.name ≠ card.name :=
    fun old mem eq => free ⟨old, mem, .inr eq⟩
  have no_id : ¬c.byId.contains card.id := by
    rw [h.contains_id]
    rintro ⟨old, mem, eq⟩
    exact free_id old mem eq
  have no_name : ¬c.idOfName.contains card.name := by
    rw [h.contains_name]
    rintro ⟨old, mem, eq⟩
    exact free_name old mem eq
  have ids_nodup : ((held ++ [card]).map Card.id).Nodup := by
    rw [List.map_append]
    refine h.ids_nodup.append (List.nodup_singleton _) ?_
    simpa using free_id
  have names_nodup : ((held ++ [card]).map Card.name).Nodup := by
    rw [List.map_append]
    refine h.names_nodup.append (List.nodup_singleton _) ?_
    simpa using free_name
  refine ⟨_, by rw [insert, if_neg no_id, if_neg no_name], ?_⟩
  exact ⟨h.byId_insert free_id, h.idOfName_insert free_name, ids_nodup, names_nodup,
    h.entries_insert free_id⟩

/-- A card that clashes with a held one is refused. -/
theorem refuse (h : c.Indexes held) (taken : ∃ old ∈ held, old.Clashes card) :
    c.insert card = .error (.invalidInput
      (if ∃ old ∈ held, old.id = card.id then .idTaken card.id else .nameTaken card.name)) := by
  rw [insert]
  by_cases taken_id : ∃ old ∈ held, old.id = card.id
  · rw [if_pos (h.contains_id.2 taken_id), if_pos taken_id]
  · have taken_name : ∃ old ∈ held, old.name = card.name := by
      obtain ⟨old, mem, same | same⟩ := taken
      · exact absurd ⟨old, mem, same⟩ taken_id
      · exact ⟨old, mem, same⟩
    rw [if_neg (mt h.contains_id.1 taken_id), if_pos (h.contains_name.2 taken_name),
      if_neg taken_id]

theorem cons_of_clash (h : c.Indexes held) (taken : ∃ old ∈ held, old.Clashes card)
    (cards : List Card) : insertEach (card :: cards) c = insertEach cards c := by
  rw [Catalog.insertEach, h.refuse taken]

/-- After insertions the indexes are of the cards held before and those that clash with none. -/
theorem insertEach (h : c.Indexes held) (cards : List Card) :
    (insertEach cards c).2 = withoutClashes held cards ∧
      (insertEach cards c).1.Indexes (held ++ withoutClashes held cards) := by
  induction cards generalizing c held with
  | nil =>
    rw [withoutClashes, List.append_nil]
    exact ⟨rfl, h⟩
  | cons card rest ih =>
    rw [withoutClashes]
    split
    · rename_i taken
      rw [h.cons_of_clash taken]
      exact ih h
    · rename_i free
      obtain ⟨c', accepted, h'⟩ := h.accept free
      obtain ⟨others, indexes⟩ := ih h'
      rw [Catalog.insertEach, accepted]
      refine ⟨congrArg (card :: ·) others, ?_⟩
      rwa [List.append_cons]

theorem holds (h : c.Indexes held) : c.Holds held where
  get?_iff := h.byId
  named?_iff := h.named?_eq_some_iff
  get?_of_named? named := h.byId.2 ⟨(h.named?_eq_some_iff.1 named).1, rfl⟩
  ids_nodup := h.ids_nodup
  names_nodup := h.names_nodup
  size_eq := h.size_eq
  kinds := (List.filter_append_perm Card.isOccupation c.cards).trans h.cards_perm
  occupation _ mem := (List.mem_filter.1 mem).2
  improvement card mem := by
    have improvement : card.isImprovement := (List.mem_filter.1 mem).2
    exact ⟨improvement, by simpa [Card.isImprovement] using improvement⟩

end Indexes

/-! ## Many insertions -/

theorem insertEach_append (cards more : List Card) (c : Catalog) :
    insertEach (cards ++ more) c = ((insertEach more (insertEach cards c).1).1,
      (insertEach cards c).2 ++ (insertEach more (insertEach cards c).1).2) := by
  induction cards generalizing c with
  | nil => rfl
  | cons card rest ih =>
    rw [List.cons_append, insertEach, insertEach]
    split
    · rw [ih]
      rfl
    · exact ih c

theorem ofList_eq_insertEach (cards : List Card) : ofList cards = (insertEach cards empty).1 := by
  suffices ∀ c, cards.foldl (fun c card => (c.insert card).toOption.getD c) c =
      (insertEach cards c).1 from this empty
  intro c
  induction cards generalizing c with
  | nil => rfl
  | cons card rest ih =>
    rw [List.foldl_cons, insertEach]
    split
    · rename_i accepted
      rw [accepted]
      exact ih _
    · rename_i refused
      rw [refused]
      exact ih c

/-- The indexes of a catalog do not drift apart. Inserted in order or collected, those cards are
accepted that clash with no card that was accepted before, and lookup by identifier, lookup by name,
the size and the two kinds are those of the accepted cards. A card that clashes with one of them is
refused, for its identifier if that is taken, and changes nothing; any other one is accepted. So it
is too where the indexes are written in place. -/
theorem indexes_agree (cards : List Card) :
    ∃ c accepted, insertEach cards empty = (c, accepted) ∧ ofList cards = c ∧
      accepted = withoutClashes [] cards ∧ c.Holds accepted ∧
      (performInsertEach cards).run empty = .ok (accepted, c) ∧
      (∀ card, (performInsert card).run c =
        .ok (InPlace.leaving c (fun c' => (card, c')) (c.insert card))) ∧
      (∀ more, insertEach (cards ++ more) empty =
        ((insertEach more c).1, accepted ++ (insertEach more c).2)) ∧
      (∀ card, (∃ old ∈ accepted, old.Clashes card) →
        c.insert card = .error (.invalidInput (if ∃ old ∈ accepted, old.id = card.id
          then .idTaken card.id else .nameTaken card.name)) ∧
        insertEach (cards ++ [card]) empty = (c, accepted)) ∧
      (∀ card, (¬∃ old ∈ accepted, old.Clashes card) → ∃ c', c.insert card = .ok c' ∧
        insertEach (cards ++ [card]) empty = (c', accepted ++ [card])) := by
  obtain ⟨accepted, indexes⟩ := Indexes.empty.insertEach cards
  rw [List.nil_append, ← accepted] at indexes
  refine ⟨_, _, rfl, ofList_eq_insertEach cards, accepted, indexes.holds,
    run_performInsertEach cards empty, run_performInsert _,
    fun more => insertEach_append cards more empty, fun card taken => ?_, fun card free => ?_⟩
  · refine ⟨indexes.refuse taken, ?_⟩
    rw [insertEach_append, indexes.cons_of_clash taken]
    exact Prod.ext rfl (List.append_nil _)
  · obtain ⟨c', inserted, -⟩ := indexes.accept free
    refine ⟨c', inserted, ?_⟩
    rw [insertEach_append, insertEach, inserted]
    rfl

end Catalog

/-- The pot with the identifier of the well is refused, and leaves its name to a later pot. -/
example : (withoutClashes [] [.improvement ⟨1⟩ "Well", .improvement ⟨1⟩ "Pot",
    .improvement ⟨2⟩ "Pot"]).map Card.id = [⟨1⟩, ⟨2⟩] := by decide

end Homestead
