import Homestead.Play
import Homestead.Proofs.Firing
import Homestead.Proofs.Listing

/-!
# What a play can do

`Registry.Plays` lists what can become of playing a card: there is no farm, the identifier is taken,
the card meets an objection, or it is played. `Farm.PlaysOut` says what a play does to the farm: the
card is paid for, its new copy fires what answers the moment of play, what the card brings is
installed, and the copy joins the collection.
-/

namespace Homestead

/-- What playing a card out can do on a farm that may play it. -/
inductive Farm.PlaysOut (f : Farm) (seat : Seat) (card : Card) (id : CopyId)
    (policy : PaymentPolicy) : Farm → Played → Prop
  | intro {paid fired installed copy o} : card.payFor f.store = .ok paid →
    Copy.Applies policy ((Copy.new id card).answers (.new .immediate seat)) (Copy.new id card) paid
      copy fired o →
    card.install fired = .ok installed →
    PlaysOut f seat card id policy ({ f with store := installed }.add copy) ⟨id, o⟩

/-- What playing a card can do. -/
inductive Registry.Plays (r : Registry) (farms : Seating Farm) (seat : Seat) (card : Card)
    (id : CopyId) : Except Refusal (Registry × Seating Farm × Played) → Prop
  | noFarm : farms.get? seat = none →
    Plays r farms seat card id (.error (.invalidInput (.noFarm seat)))
  | alreadyOwned {f} : farms.get? seat = some f → f.owns id →
    Plays r farms seat card id (.error (.invalidInput (.alreadyOwned seat id)))
  | objected {f objection} : farms.get? seat = some f → ¬f.owns id →
    card.objection? f = .ok (some objection) →
    Plays r farms seat card id (.error (.cannotPlay card.name objection))
  | played {f f' p} : farms.get? seat = some f → ¬f.owns id → card.objection? f = .ok none →
    f.PlaysOut seat card id r.policy f' p →
    Plays r farms seat card id (.ok (r.register (farms.set seat f') seat id, farms.set seat f', p))

variable {policy : PaymentPolicy} {seat : Seat} {card : Card} {id : CopyId} {farms : Seating Farm}
  {f f' : Farm} {p : Played} {r : Registry}

/-- The four stages of installing what a card brings, one after the other. -/
theorem Card.install_eq (card : Card) (s : Store) :
    card.install s =
      ((if card.points = 0 then pure s else s.addPoints card.points) >>= fun s =>
        pure (if card.cooking.isEmpty then s else s.addKitchen card.id) >>= fun s =>
          card.cooking.foldlM (fun s entry => pure (s.addRatio entry.1 entry.2)) s >>= fun s =>
            card.storage.foldlM (fun s entry => s.addCapacity entry.1 entry.2) s) := by
  unfold install
  by_cases none : card.points = 0
  · simp only [if_pos none, List.foldlM_pure, pure_bind]
  · simp only [if_neg none, List.foldlM_pure, pure_bind]

theorem Farm.play_eq_ok_iff :
    f.play seat card id policy = .ok (f', p) ↔ f.PlaysOut seat card id policy f' p := by
  unfold Farm.play
  constructor
  · intro h
    obtain ⟨paid, hpaid, h⟩ := Checked.bind_eq_ok.1 h
    obtain ⟨⟨copy, fired, o⟩, hfired, h⟩ := Checked.bind_eq_ok.1 h
    obtain ⟨installed, hinstalled, h⟩ := Checked.bind_eq_ok.1 h
    cases Checked.pure_eq_ok.1 h
    exact .intro hpaid (Copy.applyAll_eq_ok_iff.1 hfired) hinstalled
  · rintro ⟨hpaid, hfired, hinstalled⟩
    rw [hpaid, Checked.ok_bind, Copy.trigger, Copy.applyAll_eq_ok_iff.2 hfired]
    simp only [Checked.ok_bind, hinstalled]
    rfl

theorem Card.check_eq_ok_iff {result : Except Refusal Unit} :
    card.check f = .ok result ↔
      ∃ objection, card.objection? f = .ok objection ∧
        result = match objection with
          | some objection => .error (.cannotPlay card.name objection)
          | none => .ok () := by
  rw [Card.check, Checked.bind_eq_ok]
  refine exists_congr fun objection => and_congr_right fun _ => ?_
  cases objection <;> exact Checked.pure_eq_ok.trans eq_comm

theorem Card.check_eq_ok_unit_iff : card.check f = .ok (.ok ()) ↔ card.objection? f = .ok none := by
  rw [Card.check_eq_ok_iff]
  constructor
  · intro h
    obtain ⟨objection, hobjection, h⟩ := h
    cases objection with
    | some objection => cases h
    | none => exact hobjection
  · intro h
    exact ⟨none, h, rfl⟩

/-- Whether a copy can be registered depends on the identifiers of the seat's copies alone. -/
theorem Registry.register_congr {g g' : Farm} (hf : farms.get? seat = some f)
    (same : g.ids = g'.ids) (r : Registry) (id : CopyId) :
    r.register (farms.set seat g) seat id = r.register (farms.set seat g') seat id := by
  have howns : g.owns id = g'.owns id := by
    rw [Bool.eq_iff_iff, Farm.owns_iff, Farm.owns_iff, same]
  rw [register, register, register?, register?, Seating.get?_set_self hf,
    Seating.get?_set_self hf]
  change ((guard (g.owns id ∧ _) >>= _ : Option Registry).getD r) = _
  rw [howns]
  rfl

theorem Registry.play_eq_ok_iff {result : Except Refusal (Registry × Seating Farm × Played)} :
    r.play farms seat card id = .ok result ↔ r.Plays farms seat card id result := by
  unfold Registry.play
  cases hf : farms.get? seat with
  | none =>
    constructor
    · rintro ⟨⟩
      exact .noFarm hf
    · rintro (_ | some | some | some)
      · rfl
      all_goals
        rw [hf] at some
        cases some
  | some f =>
    by_cases owned : f.owns id
    · simp only [if_pos owned]
      constructor
      · rintro ⟨⟩
        exact .alreadyOwned hf owned
      · rintro (none | _ | ⟨hg, new, -⟩ | ⟨hg, new, -⟩)
        · rw [hf] at none
          cases none
        · rfl
        all_goals
          cases hf.symm.trans hg
          exact absurd owned new
    · simp only [if_neg owned]
      constructor
      · intro h
        obtain ⟨checked, hchecked, h⟩ := Checked.bind_eq_ok.1 h
        obtain ⟨objection, hobjection, rfl⟩ := Card.check_eq_ok_iff.1 hchecked
        cases objection with
        | some objection =>
          cases Checked.pure_eq_ok.1 h
          exact .objected hf owned hobjection
        | none =>
          obtain ⟨⟨f', p⟩, hplay, h⟩ := Checked.bind_eq_ok.1 h
          cases Checked.pure_eq_ok.1 h
          exact .played hf owned hobjection (Farm.play_eq_ok_iff.1 hplay)
      · rintro (none | ⟨hg, taken⟩ | ⟨hg, -, hobjection⟩ | ⟨hg, -, hobjection, hplay⟩)
        · rw [hf] at none
          cases none
        · cases hf.symm.trans hg
          exact absurd taken owned
        · cases hf.symm.trans hg
          rw [Card.check_eq_ok_iff.2 ⟨_, hobjection, rfl⟩]
          rfl
        · cases hf.symm.trans hg
          rw [Card.check_eq_ok_iff.2 ⟨_, hobjection, rfl⟩]
          simp only [Checked.ok_bind, Farm.play_eq_ok_iff.2 hplay]
          rfl

namespace Farm.PlaysOut

/-- A play adds one copy, of the identifier and the card played, and leaves the others alone. -/
theorem copies_perm (h : f.PlaysOut seat card id policy f' p) :
    ∃ copy, copy.id = id ∧ copy.card = card ∧ f'.copies.Perm (f.copies ++ [copy]) := by
  obtain ⟨-, hfired, -⟩ := h
  obtain ⟨hid, hcard⟩ := hfired.id_card
  exact ⟨_, hid, hcard, copies_add_perm _ _⟩

theorem ids_perm (h : f.PlaysOut seat card id policy f' p) : f'.ids.Perm (f.ids ++ [id]) := by
  obtain ⟨copy, rfl, -, hcopies⟩ := h.copies_perm
  simpa [Farm.ids] using hcopies.map Copy.id

theorem copy_eq (h : f.PlaysOut seat card id policy f' p) : p.copy = id := by
  cases h
  rfl

end Farm.PlaysOut

end Homestead
