import Homestead.Deck
import Homestead.Proofs.Game.History

/-!
# Namesakes

A farm has at most one occupation of a name, and at most one unique improvement of a name; other
improvements may share theirs, also with a unique one that came before them. The check before a play
looks for a namesake in the list of one kind, and the new copy is filed by the kind of its card, so
the two agree only as long as every copy stands in the list of its kind. `Farm.Apart` therefore says
both, and every move keeps it (`Farm.apart_evolution`).
-/

namespace Homestead

/-- Every copy stands in the list of its kind, no two occupations have the same name, and no two
improvements that are both unique do. -/
structure Farm.Apart (f : Farm) : Prop where
  occupation : ∀ c ∈ f.occupations, c.card.isOccupation
  improvement : ∀ c ∈ f.improvements, c.card.isImprovement
  occupations : f.occupations.Pairwise fun c d => c.card.name ≠ d.card.name
  uniques : f.improvements.Pairwise fun c d =>
    c.card.isUnique → d.card.isUnique → c.card.name ≠ d.card.name

variable {f f' : Farm} {c : Copy} {id : CopyId} {card : Card} {seat : Seat}

/-! ## Cards -/

namespace Card

/-- Where the check finds no duplicate, the card's namesakes are no occupations if it is one. -/
theorem hasOccupation_of_duplicate? (h : card.duplicate? f = none) (kind : card.isOccupation) :
    f.hasOccupation card.name = false := by
  by_contra owned
  rw [Bool.not_eq_false] at owned
  rw [duplicate?, if_pos ⟨kind, owned⟩] at h
  cases h

theorem hasImprovement_of_duplicate? (h : card.duplicate? f = none) (unique : card.isUnique) :
    f.hasImprovement card.name = false := by
  by_contra owned
  rw [Bool.not_eq_false] at owned
  unfold duplicate? at h
  split at h
  · cases h
  · rw [if_pos ⟨unique, owned⟩] at h
    cases h

theorem duplicate?_of_objection? (h : card.objection? f = .ok none) :
    card.duplicate? f = none := by
  unfold objection? at h
  cases hduplicate : card.duplicate? f with
  | none => rfl
  | some objection =>
    rw [hduplicate] at h
    cases h

end Card

/-! ## Farms -/

namespace Farm

theorem ne_of_hasOccupation {name : String} (none : f.hasOccupation name = false)
    (hc : c ∈ f.occupations) : c.card.name ≠ name := by
  simpa using List.any_eq_false.1 none c hc

theorem ne_of_hasImprovement {name : String} (none : f.hasImprovement name = false)
    (hc : c ∈ f.improvements) : c.card.name ≠ name := by
  simpa using List.any_eq_false.1 none c hc

/-- Removing a copy leaves what is left in both lists in its order. -/
theorem sublists_of_remove? (h : f.remove? id = some (c, f')) :
    f'.occupations.Sublist f.occupations ∧ f'.improvements.Sublist f.improvements := by
  unfold remove? at h
  simp only [takeFirst?_eq] at h
  cases ho : f.occupations.find? fun c => c.id = id with
  | some d =>
    rw [ho] at h
    obtain ⟨rfl, rfl⟩ := Prod.mk.inj (Option.some.inj h)
    exact ⟨List.eraseP_sublist, .refl _⟩
  | none =>
    rw [ho] at h
    simp only [Option.map_none, Option.map_map, Option.map_eq_some_iff] at h
    obtain ⟨d, -, h⟩ := h
    obtain ⟨rfl, rfl⟩ := Prod.mk.inj h
    exact ⟨.refl _, List.eraseP_sublist⟩

namespace Apart

/-- The names depend on the cards of the copies alone. -/
theorem of_sameCards (h : f.Apart) (same : f.SameCards f') : f'.Apart := by
  obtain ⟨occupation, improvement, occupations, uniques⟩ := h
  have ho : f'.occupations.map Copy.card = f.occupations.map Copy.card := by
    simpa [Function.comp_def] using congrArg (List.map Prod.snd) same.occupations
  have hi : f'.improvements.map Copy.card = f.improvements.map Copy.card := by
    simpa [Function.comp_def] using congrArg (List.map Prod.snd) same.improvements
  constructor
  · rw [← List.forall_mem_map (f := Copy.card) (P := fun card => card.isOccupation), ho,
      List.forall_mem_map]
    exact occupation
  · rw [← List.forall_mem_map (f := Copy.card) (P := fun card => card.isImprovement), hi,
      List.forall_mem_map]
    exact improvement
  · rw [← List.pairwise_map (f := Copy.card) (R := fun c d => c.name ≠ d.name), ho,
      List.pairwise_map]
    exact occupations
  · rw [← List.pairwise_map (f := Copy.card)
      (R := fun c d => c.isUnique → d.isUnique → c.name ≠ d.name), hi, List.pairwise_map]
    exact uniques

theorem of_sublists (h : f.Apart) (occupations : f'.occupations.Sublist f.occupations)
    (improvements : f'.improvements.Sublist f.improvements) : f'.Apart where
  occupation c hc := h.occupation c (occupations.subset hc)
  improvement c hc := h.improvement c (improvements.subset hc)
  occupations := h.occupations.sublist occupations
  uniques := h.uniques.sublist improvements

/-- A copy whose card the farm has no duplicate of joins the others. -/
theorem add (h : f.Apart) (new : c.card.duplicate? f = none) : (f.add c).Apart := by
  unfold Farm.add
  split
  · rename_i kind
    have none := Card.hasOccupation_of_duplicate? new kind
    refine ⟨?_, h.improvement, ?_, h.uniques⟩
    · intro d hd
      rcases List.mem_append.1 hd with hd | hd
      · exact h.occupation d hd
      · rw [List.mem_singleton.1 hd]
        exact kind
    · refine List.pairwise_append.2 ⟨h.occupations, List.pairwise_singleton .., ?_⟩
      intro d hd e he
      rw [List.mem_singleton.1 he]
      exact ne_of_hasOccupation none hd
  · rename_i kind
    refine ⟨h.occupation, ?_, h.occupations, ?_⟩
    · intro d hd
      rcases List.mem_append.1 hd with hd | hd
      · exact h.improvement d hd
      · rw [List.mem_singleton.1 hd, Card.isImprovement]
        simpa using kind
    · refine List.pairwise_append.2 ⟨h.uniques, List.pairwise_singleton .., ?_⟩
      intro d hd e he _ unique
      rw [List.mem_singleton.1 he] at unique ⊢
      exact ne_of_hasImprovement (Card.hasImprovement_of_duplicate? new unique) hd

/-- A play that met no objection adds a copy of a card that the farm has no duplicate of. -/
theorem play {policy : PaymentPolicy} {p : Played} (h : f.Apart)
    (checked : card.objection? f = .ok none) (hplay : f.PlaysOut seat card id policy f' p) :
    f'.Apart := by
  cases hplay with
  | @intro _ _ installed copy _ _ happlies _ =>
    have before : { f with store := installed }.Apart :=
      ⟨h.occupation, h.improvement, h.occupations, h.uniques⟩
    apply before.add
    rw [happlies.id_card.2]
    exact (Card.duplicate?_of_objection? checked :)

end Apart

end Farm

/-- Whatever a move makes of a farm, namesakes stay apart. -/
theorem Farm.apart_evolution : Farm.Evolution fun f f' => f.Apart → f'.Apart where
  refl _ apart := apart
  trans hfg hgh apart := hgh (hfg apart)
  remove hremove apart := by
    obtain ⟨occupations, improvements⟩ := Farm.sublists_of_remove? hremove
    exact apart.of_sublists occupations improvements
  removeAll _ apart := apart.of_sublists (List.nil_sublist _) (List.nil_sublist _)
  cook hcook apart := by
    cases hcook
    exact apart.of_sameCards ⟨rfl, rfl⟩
  fires hfires apart := apart.of_sameCards hfires.sameCards
  startRound f apart := apart.of_sameCards (.startRound f)
  play checked hplay apart := apart.play checked hplay

/-! ## Histories -/

variable {setup : Setup} {log : List Entry} {g : Game}

/-- No namesakes are owned in any reachable game. On every farm each copy stands in the list of its
kind, the names of the occupations all differ, and of two improvements of one name at least one is
not unique, whatever was played and discarded. -/
theorem no_namesakes (h : Game.History Farm.SameCards setup log g) (hf : g.farm? seat = some f) :
    (∀ c ∈ f.occupations, c.card.isOccupation) ∧
      (∀ c ∈ f.improvements, c.card.isImprovement) ∧
      (f.occupations.map fun c => c.card.name).Nodup ∧
      f.improvements.Pairwise fun c d =>
        c.card.isUnique → d.card.isUnique → c.card.name ≠ d.card.name := by
  have apart : f.Apart := by
    induction h generalizing seat f with
    | start hstart =>
      have none : f.occupations ++ f.improvements = [] := (Game.of_start hstart).1 hf
      obtain ⟨ho, hi⟩ := List.append_eq_nil_iff.1 none
      refine ⟨?_, ?_, ?_, ?_⟩ <;> simp [ho, hi]
    | move _ hstep ih =>
      obtain ⟨f₀, hf₀, kept⟩ :=
        ((Game.Steps.of_step hstep).related Farm.apart_evolution).some_right hf
      exact kept (ih hf₀)
    | edit _ hf₀ same ih =>
      have edited := Seating.Related.set (R := fun f f' : Farm => f.Apart → f'.Apart)
        (fun _ apart => apart) hf₀ fun apart => apart.of_sameCards same
      obtain ⟨f₁, hf₁, kept⟩ := edited.some_right hf
      exact kept (ih hf₁)
  exact ⟨apart.occupation, apart.improvement, List.pairwise_map.2 apart.occupations, apart.uniques⟩

/-- A seat plays a wood cutter, is refused an improvement's unique namesake of a plain one it owns,
discards the plain one, and then has the unique one and two plain ones of its name. -/
theorem no_namesakes_wells :
    ∃ log g f, Game.History Farm.SameCards ⟨1, .strict, .empty, 2, 2⟩ log g ∧
      g.farm? ⟨0⟩ = some f ∧
      (f.copies.map fun c => (c.card.name, c.card.isUnique)) =
        [("Wood Cutter", false), ("Well", true), ("Well", false), ("Well", false)] ∧
      (f.occupations.map fun c => c.card.name).Nodup ∧
      f.improvements.Pairwise fun c d =>
        c.card.isUnique → d.card.isUnique → c.card.name ≠ d.card.name := by
  have started : Game.History Farm.SameCards ⟨1, .strict, .empty, 2, 2⟩ [] _ := .start rfl
  have cutter := started.move (rfl : Game.step _ (.play ⟨0⟩ Deck.woodCutter) = .ok (_, _))
  have again := cutter.move (rfl : Game.step _ (.play ⟨0⟩ Deck.woodCutter) = .ok (_, _))
  have plain := again.move (rfl : Game.step _ (.play ⟨0⟩ (.improvement ⟨1⟩ "Well")) = .ok (_, _))
  have refused := plain.move
    (rfl : Game.step _ (.play ⟨0⟩ (.majorImprovement ⟨2⟩ "Well")) = .ok (_, _))
  have gone := refused.move (rfl : Game.step _ (.discard ⟨0⟩ ⟨2⟩) = .ok (_, _))
  have unique := gone.move
    (rfl : Game.step _ (.play ⟨0⟩ (.majorImprovement ⟨2⟩ "Well")) = .ok (_, _))
  have second := unique.move (rfl : Game.step _ (.play ⟨0⟩ (.improvement ⟨1⟩ "Well")) = .ok (_, _))
  have third := second.move (rfl : Game.step _ (.play ⟨0⟩ (.improvement ⟨3⟩ "Well")) = .ok (_, _))
  obtain ⟨-, -, occupations, uniques⟩ := no_namesakes third (rfl : Game.farm? _ ⟨0⟩ = some _)
  exact ⟨_, _, _, third, rfl, rfl, occupations, uniques⟩

end Homestead
