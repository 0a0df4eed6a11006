import Homestead.Proofs.Exactness

/-!
# The copy that an identifier means

A farm searches for the copy of an identifier to look at it, to lend it out with the store, to put a
changed one back and to remove it. These are searches of their own, over the two lists of copies one
after the other, and identifiers may repeat within a list and across them. All of them mean the one
place `Farm.slot`: that of the first such copy in collection order (`Farm.lend?_eq`,
`Farm.replace_eq`, `Farm.remove?_eq`).

Dispatching looks at a copy to find its effects and borrows one to apply them. These are the same
copy, also after other matches were fired (`Match.OnAim`).
-/

namespace Homestead

/-! ## Definitions -/

namespace Farm

/-- The first copy of an identifier in a list, and the list once another copy is returned for it. -/
def lendFirst? (id : CopyId) : List Copy → Option (Copy × (Copy → List Copy))
  | [] => none
  | c :: rest =>
    if c.id = id then some (c, fun d => d :: rest)
    else (lendFirst? id rest).map fun (d, returned) => (d, fun e => c :: returned e)

/-- The first copy of an identifier, lent out together with the store: the copy, and the farm once a
copy and a store are returned for them. The returned copy may have any identifier and card. -/
def lend? (f : Farm) (id : CopyId) : Option (Copy × (Copy → Store → Farm)) :=
  match lendFirst? id f.occupations with
  | some (c, returned) =>
    some (c, fun d store => { f with store := store, occupations := returned d })
  | none =>
    (lendFirst? id f.improvements).map fun (c, returned) =>
      (c, fun d store => { f with store := store, improvements := returned d })

/-- The farm with another store and another copy at a place of the collection. -/
def putAt (f : Farm) (k : Nat) (c : Copy) (store : Store) : Farm :=
  if k < f.occupations.length then
    { f with store := store, occupations := f.occupations.set k c }
  else
    { f with store := store, improvements := f.improvements.set (k - f.occupations.length) c }

/-- The farm without the copy at a place of the collection. -/
def dropAt (f : Farm) (k : Nat) : Farm :=
  if k < f.occupations.length then { f with occupations := f.occupations.eraseIdx k }
  else { f with improvements := f.improvements.eraseIdx (k - f.occupations.length) }

end Farm

/-- A match that an event found on a farm is fired on the copy on which its effects were found:
where `farms` have become `reached`, the copy stands in its place, with its identifier and its card,
it is what is lent out for the match, and firing the match applies the effects to it and changes no
other copy. -/
structure Match.OnAim (policy : PaymentPolicy) (event : Event) (m : Match)
    (farms reached : Seating Farm) (f g : Farm) (c d : Copy) : Prop where
  before : farms.get? m.seat = some f
  found : f.copies[f.slot m.copy]? = some c
  effects : m.effects = c.due event
  now : reached.get? m.seat = some g
  standing : g.copies[f.slot m.copy]? = some d
  id : d.id = c.id
  card : d.card = c.card
  lent : g.lend? m.copy = some (d, g.putAt (f.slot m.copy))
  fire : m.fire policy reached =
    (fun r => (reached.set m.seat (g.putAt (f.slot m.copy) r.1 r.2.1), ⟨m, r.2.2⟩)) <$>
      Copy.applyAll policy m.effects d g.store

variable {f g : Farm} {c d : Copy} {id : CopyId} {store : Store} {k : Nat} {policy : PaymentPolicy}
  {event : Event} {farms reached : Seating Farm} {m : Match} {ms : List Match}
  {firings : List Firing}

/-! ## Lists -/

theorem eraseP_eq_eraseIdx_findIdx {α : Type} (p : α → Bool) (l : List α) :
    l.eraseP p = l.eraseIdx (l.findIdx p) := by
  induction l with
  | nil => rfl
  | cons a l ih => by_cases h : p a <;> simp [List.findIdx_cons, h, ih]

namespace Farm

theorem lendFirst?_eq (id : CopyId) (l : List Copy) :
    lendFirst? id l =
      (l.find? fun c => c.id = id).map fun c => (c, l.set (l.findIdx fun c => c.id = id)) := by
  induction l with
  | nil => rfl
  | cons c l ih =>
    rw [lendFirst?, List.find?_cons, List.findIdx_cons]
    by_cases h : c.id = id
    · simp only [h, decide_true, if_true, cond_true]
      rfl
    · simp only [h, decide_false, if_false, cond_false, ih, Option.map_map]
      rfl

/-! ## Places -/

@[simp] theorem seat_putAt (f : Farm) (k : Nat) (c : Copy) (store : Store) :
    (f.putAt k c store).seat = f.seat := by
  unfold putAt
  split <;> rfl

@[simp] theorem store_putAt (f : Farm) (k : Nat) (c : Copy) (store : Store) :
    (f.putAt k c store).store = store := by
  unfold putAt
  split <;> rfl

theorem copies_putAt (f : Farm) (k : Nat) (c : Copy) (store : Store) :
    (f.putAt k c store).copies = f.copies.set k c := by
  unfold putAt copies
  rw [List.set_append]
  split <;> rfl

theorem putAt_of_lt (h : k < f.occupations.length) :
    f.putAt k = fun c store => { f with store := store, occupations := f.occupations.set k c } :=
  funext fun _ => funext fun _ => if_pos h

theorem putAt_add (f : Farm) (k : Nat) :
    f.putAt (k + f.occupations.length) =
      fun c store => { f with store := store, improvements := f.improvements.set k c } := by
  funext c store
  rw [putAt, if_neg (Nat.not_lt.2 (Nat.le_add_left ..)), Nat.add_sub_cancel]

@[simp] theorem seat_dropAt (f : Farm) (k : Nat) : (f.dropAt k).seat = f.seat := by
  unfold dropAt
  split <;> rfl

@[simp] theorem store_dropAt (f : Farm) (k : Nat) : (f.dropAt k).store = f.store := by
  unfold dropAt
  split <;> rfl

theorem copies_dropAt (f : Farm) (k : Nat) : (f.dropAt k).copies = f.copies.eraseIdx k := by
  unfold dropAt copies
  rw [List.eraseIdx_append]
  split <;> rfl

theorem dropAt_of_lt (h : k < f.occupations.length) :
    f.dropAt k = { f with occupations := f.occupations.eraseIdx k } := if_pos h

theorem dropAt_add (f : Farm) (k : Nat) :
    f.dropAt (k + f.occupations.length) =
      { f with improvements := f.improvements.eraseIdx k } := by
  rw [dropAt, if_neg (Nat.not_lt.2 (Nat.le_add_left ..)), Nat.add_sub_cancel]

/-! ## The searches -/

/-- The first copy of an identifier is an occupation, or else the first one among the
improvements. -/
theorem slot_cases (f : Farm) (id : CopyId) :
    (∃ c, (f.occupations.find? fun c => c.id = id) = some c ∧ f.copy? id = some c ∧
      f.slot id = (f.occupations.findIdx fun c => c.id = id) ∧
      f.slot id < f.occupations.length) ∨
    (f.occupations.find? fun c => c.id = id) = none ∧
      f.copy? id = (f.improvements.find? fun c => c.id = id) ∧
      f.slot id = (f.improvements.findIdx fun c => c.id = id) + f.occupations.length := by
  have place : f.slot id = if f.occupations.findIdx (fun c => c.id = id) < f.occupations.length
      then f.occupations.findIdx fun c => c.id = id
      else (f.improvements.findIdx fun c => c.id = id) + f.occupations.length :=
    List.findIdx_append
  have inside : f.occupations.findIdx (fun c => c.id = id) < f.occupations.length ↔
      (f.occupations.find? fun c => c.id = id).isSome := by
    rw [List.findIdx_lt_length, List.find?_isSome]
  rw [copy?, copies, List.find?_append]
  cases ho : f.occupations.find? fun c => c.id = id with
  | some c =>
    have lt := inside.2 (ho ▸ rfl)
    rw [if_pos lt] at place
    exact .inl ⟨c, rfl, rfl, place, place ▸ lt⟩
  | none =>
    rw [if_neg (mt inside.1 (by simp [ho]))] at place
    exact .inr ⟨rfl, rfl, place⟩

/-- Lending a copy out means the place of its identifier. -/
theorem lend?_eq (f : Farm) (id : CopyId) :
    f.lend? id = (f.copy? id).map fun c => (c, f.putAt (f.slot id)) := by
  rw [lend?, lendFirst?_eq, lendFirst?_eq]
  obtain ⟨c, ho, hc, place, lt⟩ | ⟨ho, hc, place⟩ := f.slot_cases id
  · rw [ho, hc, putAt_of_lt lt, place]
    rfl
  · rw [ho, hc, place, putAt_add]
    simp only [Option.map_none, Option.map_map]
    rfl

/-- Removing a copy means the place of its identifier. -/
theorem remove?_eq (f : Farm) (id : CopyId) :
    f.remove? id = (f.copy? id).map fun c => (c, f.dropAt (f.slot id)) := by
  rw [remove?, takeFirst?_eq, takeFirst?_eq, eraseP_eq_eraseIdx_findIdx,
    eraseP_eq_eraseIdx_findIdx]
  obtain ⟨c, ho, hc, place, lt⟩ | ⟨ho, hc, place⟩ := f.slot_cases id
  · rw [ho, hc, dropAt_of_lt lt, place]
    rfl
  · rw [ho, hc, place, dropAt_add]
    simp only [Option.map_none, Option.map_map]
    rfl

/-- Putting a changed copy back means the place of its identifier. -/
theorem replace_eq (f : Farm) (c : Copy) (store : Store) :
    f.replace c store = f.putAt (f.slot c.id) c store := by
  refine ext_copies (by simp) (by simp) ?_ (by rw [copies_replace, copies_putAt])
  rw [length_occupations_replace]
  unfold putAt
  split <;> simp

/-- Before the place of an identifier there is no copy of it. -/
theorem id_ne_of_lt_slot (hd : f.copies[k]? = some d) (lt : k < f.slot id) : d.id ≠ id := by
  obtain ⟨inside, rfl⟩ := List.getElem?_eq_some_iff.1 hd
  simpa using List.not_of_lt_findIdx lt

/-- Firing effects of an owned copy applies them to it and puts it back in its place. -/
theorem fire_eq_putAt (h : f.copy? id = some c) (is : List Nat) :
    fire policy id is f =
      (fun r => (f.putAt (f.slot id) r.1 r.2.1, r.2.2)) <$> Copy.applyAll policy is c f.store := by
  rw [fire_eq h]
  rcases hall : Copy.applyAll policy is c f.store with fault | ⟨c', s', o⟩
  · rfl
  · have kept := (Copy.applyAll_eq_ok_iff.1 hall).id_card.1
    rw [Checked.map_ok, Checked.map_ok, replace_eq, kept, id_of_copy? h]

/-- Farms with the same cards have the same cards in the same places. -/
theorem SameCards.exists_standing (same : SameCards f g) (hc : f.copies[k]? = some c) :
    ∃ d, g.copies[k]? = some d ∧ d.id = c.id ∧ d.card = c.card := by
  have there := congrArg (fun l => l[k]?) same.copies
  simp only [List.getElem?_map, hc, Option.map_some, Option.map_eq_some_iff] at there
  obtain ⟨d, hd, eq⟩ := there
  exact ⟨d, hd, (Prod.mk.inj eq).1, (Prod.mk.inj eq).2⟩

end Farm

/-! ## Dispatching -/

/-- A match that was found is on its aim as long as the farms keep their cards. -/
theorem Match.exists_onAim {r : Registry} {seats : List Seat} (hm : m ∈ r.findAll farms seats event)
    (same : Seating.Related Farm.SameCards farms reached) :
    ∃ f g c d, m.OnAim policy event farms reached f g c d := by
  obtain ⟨seat, -, hm⟩ := List.mem_flatMap.1 hm
  obtain ⟨f, c, hf, hc, -, -, eq⟩ := Registry.mem_find.1 hm
  obtain rfl : m.seat = seat := Registry.seat_of_mem_find hm
  obtain ⟨g, hg, cards⟩ := same.some_left hf
  have place : g.slot m.copy = f.slot m.copy := Farm.slot_eq_of_ids cards.ids m.copy
  have found := (f.copy?_eq_getElem? m.copy).symm.trans hc
  obtain ⟨d, standing, id, card⟩ := cards.exists_standing found
  have hd : g.copy? m.copy = some d := by rw [Farm.copy?_eq_getElem?, place, standing]
  refine ⟨f, g, c, d, hf, found, by rw [eq], hg, standing, id, card, ?_, ?_⟩
  · rw [Farm.lend?_eq, hd, place]
    rfl
  · rw [fire_of_get? hg, Farm.fire_eq_putAt hd, place]
    cases Copy.applyAll policy m.effects d g.store <;> rfl

/-- An identifier means one copy. If a farm owns copies of it, then looking it up, lending it out
and removing it all find the first of them in collection order, and otherwise nothing. A copy and a
store that are returned for what was lent out, whatever they are, stand where the lent copy stood,
and every other copy stands unchanged; a changed copy is put back there too. Removing the copy
leaves all others in their order. Removing every copy yields the collection in order and leaves
none. So the effects that an event finds on copies, for whatever seats, are applied to the very same
copies, also after any matches were executed in between. -/
theorem lookups_agree (f : Farm) (id : CopyId) :
    (id ∉ f.ids → f.copy? id = none ∧ f.lend? id = none ∧ f.remove? id = none) ∧
    (id ∈ f.ids → ∃ c, f.copies[f.slot id]? = some c ∧ c.id = id ∧
      (∀ {k d}, f.copies[k]? = some d → k < f.slot id → d.id ≠ id) ∧
      f.copy? id = some c ∧ f.lend? id = some (c, f.putAt (f.slot id)) ∧
      f.remove? id = some (c, f.dropAt (f.slot id))) ∧
    (∀ k c store, (f.putAt k c store).copies = f.copies.set k c ∧
      (f.putAt k c store).store = store ∧ (f.putAt k c store).seat = f.seat) ∧
    (∀ {c}, c.id = id → ∀ store, f.replace c store = f.putAt (f.slot id) c store) ∧
    (∀ k, (f.dropAt k).copies = f.copies.eraseIdx k ∧ (f.dropAt k).store = f.store ∧
      (f.dropAt k).seat = f.seat) ∧
    f.removeAll = (f.copies, .withStore f.seat f.store) ∧
    (∀ {r : Registry} {farms seats event m}, m ∈ r.findAll farms seats event →
      ∀ {policy ms reached firings}, Match.fireAll policy ms farms = .ok (reached, firings) →
        ∃ f g c d, m.OnAim policy event farms reached f g c d) := by
  refine ⟨fun unowned => ?_, fun owned => ?_, fun k c store => ?_, ?_, fun k => ?_, rfl, ?_⟩
  · have none := Farm.copy?_eq_none_iff.2 unowned
    rw [Farm.lend?_eq, Farm.remove?_eq, none]
    exact ⟨rfl, rfl, rfl⟩
  · obtain ⟨c, hc⟩ := Farm.exists_copy? owned
    have place := (f.copy?_eq_getElem? id).symm.trans hc
    rw [Farm.lend?_eq, Farm.remove?_eq, hc]
    exact ⟨c, place, Farm.id_of_copy? hc, Farm.id_ne_of_lt_slot, rfl, rfl, rfl⟩
  · exact ⟨f.copies_putAt k c store, f.store_putAt k c store, f.seat_putAt k c store⟩
  · rintro c rfl store
    exact f.replace_eq c store
  · exact ⟨f.copies_dropAt k, f.store_dropAt k, f.seat_dropAt k⟩
  · intro r farms seats event m hm policy ms reached firings hall
    exact Match.exists_onAim hm (Match.fireAll_eq_ok_iff.1 hall).sameCards

/-- A farm with a carpenter, a well and a joinery, the last two under one identifier. -/
def twiceOne : Farm :=
  (((Farm.new ⟨0⟩).add (.new ⟨2⟩ Deck.carpenter)).add (.new ⟨1⟩ Deck.well)).add
    (.new ⟨1⟩ Deck.joinery)

/-- A table for one, with that farm. -/
def twiceOneTable : Seating Farm := ⟨[twiceOne], by decide, by decide⟩

/-- The identifier means the well, the second copy of the farm; once the joinery bears it alone it
means the joinery. The match that a round finds on the well is fired on it, also when it was fired
before. -/
theorem lookups_agree_twiceOne :
    twiceOne.lend? ⟨1⟩ = some (.new ⟨1⟩ Deck.well, twiceOne.putAt 1) ∧
      twiceOne.remove? ⟨1⟩ = some (.new ⟨1⟩ Deck.well, twiceOne.dropAt 1) ∧
      (twiceOne.dropAt 1).copy? ⟨1⟩ = some (.new ⟨1⟩ Deck.joinery) ∧
      twiceOne.remove? ⟨3⟩ = none ∧
      ∃ reached firings g d, Match.fireAll .strict [⟨⟨0⟩, ⟨1⟩, [0]⟩] twiceOneTable =
        .ok (reached, firings) ∧ reached.get? ⟨0⟩ = some g ∧ g.copies[1]? = some d ∧
        d.card = Deck.well ∧ Match.fire .strict ⟨⟨0⟩, ⟨1⟩, [0]⟩ reached =
          (fun r => (reached.set ⟨0⟩ (g.putAt 1 r.1 r.2.1), ⟨⟨⟨0⟩, ⟨1⟩, [0]⟩, r.2.2⟩)) <$>
            Copy.applyAll .strict [0] d g.store := by
  obtain ⟨-, owned, -, -, -, -, dispatched⟩ := lookups_agree twiceOne ⟨1⟩
  obtain ⟨c, hc, -, -, -, hlend, hremove⟩ := owned (by decide)
  cases hc
  have unowned := (lookups_agree twiceOne ⟨3⟩).1 (by decide)
  have found : ⟨⟨0⟩, ⟨1⟩, [0]⟩ ∈ ((Registry.new .strict).register twiceOneTable ⟨0⟩ ⟨1⟩).findAll
      twiceOneTable [⟨0⟩] (.new .onRoundStart ⟨0⟩) := by decide
  have hall : Match.fireAll .strict [⟨⟨0⟩, ⟨1⟩, [0]⟩] twiceOneTable = .ok (_, _) := rfl
  obtain ⟨f, g, c, d, aim⟩ := dispatched found hall
  cases aim.before
  cases aim.found
  exact ⟨hlend, hremove, rfl, unowned.2.2, _, _, g, d, hall, aim.now, aim.standing, aim.card,
    aim.fire⟩

end Homestead
