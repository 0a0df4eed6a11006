import Homestead.Deck
import Homestead.Proofs.Game.Chronicle
import Homestead.Proofs.Overflow

/-!
# Numbers that are given away

A game numbers the copies that it deals with a counter. Where farms also get copies from outside
(`Farm.Gains`), these can have any number, and the counter does not know of them: it moves on with
plays alone. Every number that a seat ever owned the counter has passed, or it came with a gift
(`Game.Chronicle.below_next_or_given`). So a play that the gate allows gets a number new to its
seat, unless the next number was given to the seat before; and if the seat owns it still, the play
is refused, and refused again until that copy is gone (`Game.Chronicle.play_takes_next`).
-/

namespace Homestead

/-- The farm got a copy from outside the game, of any identifier. -/
def Farm.Gains (f f' : Farm) : Prop := ∃ c, f' = f.add c

/-- A seat was given a copy of an identifier from outside the game. -/
def Given (log : List Deed) (seat : Seat) (id : CopyId) : Prop :=
  ∃ before f c, .change before seat f (f.add c) ∈ log ∧ c.id = id

theorem given_concat {log : List Deed} {e : Deed} {seat : Seat} {id : CopyId} :
    Given (log ++ [e]) seat id ↔
      Given log seat id ∨ ∃ before f c, e = .change before seat f (f.add c) ∧ c.id = id := by
  simp only [Given, List.mem_append, List.mem_singleton, or_and_right, exists_or, eq_comm]

namespace Game

variable {setup : Setup} {log : List Deed} {g past : Game} {seat : Seat} {card : Card}
  {id : CopyId} {f : Farm}

/-! ## Plays of a number -/

/-- An open gate means a farm and no objection. -/
theorem of_canPlay (h : g.canPlay seat card = .ok true) :
    ∃ f, g.farm? seat = some f ∧ card.objection? f = .ok none := by
  unfold canPlay at h
  cases hf : g.farm? seat with
  | none =>
    rw [hf] at h
    cases h
  | some f =>
    rw [hf] at h
    obtain ⟨objection, hobjection, h⟩ := Checked.bind_eq_ok.1 h
    cases objection with
    | some objection => cases Checked.pure_eq_ok.1 h
    | none => exact ⟨f, rfl, hobjection⟩

/-- Through an open gate a play takes the next number, if the seat does not own it. -/
theorem play_of_new (allowed : g.canPlay seat card = .ok true)
    (fits : ∀ operation, g.play seat card ≠ .error (.overflow operation))
    (new : ⟨g.nextCopy⟩ ∉ g.idsOf seat) :
    ∃ g' p, g.play seat card = .ok (.ok (g', p)) ∧ p.copy = ⟨g.nextCopy⟩ := by
  obtain ⟨f, hf, hobjection⟩ := of_canPlay allowed
  obtain ⟨result, hplay⟩ := (g.play_onlyOverflows seat card).exists_ok fits
  obtain ⟨registered, hregistry, h⟩ := Checked.bind_eq_ok.1 hplay
  cases Registry.play_eq_ok_iff.1 hregistry with
  | noFarm none => cases hf.symm.trans none
  | alreadyOwned hg owned =>
    cases hf.symm.trans hg
    exact absurd (idsOf_eq hf ▸ Farm.owns_iff.1 owned) new
  | objected hg _ objected =>
    cases hf.symm.trans hg
    cases hobjection.symm.trans objected
  | played _ _ _ hout =>
    obtain ⟨next, -, h⟩ := Checked.bind_eq_ok.1 h
    cases Checked.pure_eq_ok.1 h
    exact ⟨_, _, hplay, hout.copy_eq⟩

/-- A seat that owns the next number already is refused the play, and nothing changes. -/
theorem step_of_owned (owned : ⟨g.nextCopy⟩ ∈ g.idsOf seat) :
    g.step (.play seat card) =
      .ok (g, .refused (.invalidInput (.alreadyOwned seat ⟨g.nextCopy⟩))) := by
  obtain ⟨f, hf, hid⟩ := mem_idsOf.1 owned
  have hregistry : g.registry.play g.farms seat card ⟨g.nextCopy⟩ = .ok (.error _) :=
    Registry.play_eq_ok_iff.2 (.alreadyOwned hf (Farm.owns_iff.2 hid))
  simp only [step, play, hregistry, Checked.ok_bind]
  rfl

/-! ## Numbers of the past -/

namespace Chronicle

/-- A number that a seat ever owned was passed by the counter, or came with a gift. -/
theorem below_next_or_given (h : Chronicle Farm.Gains setup log g) (hpast : past ∈ statesOf log g)
    (hid : id ∈ past.idsOf seat) :
    id.number.toNat < g.nextCopy.toNat ∨ Given log seat id := by
  induction h generalizing past with
  | @start g hstart =>
    cases List.mem_singleton.1 hpast
    rw [idsOf_start hstart] at hid
    cases hid
  | @move log g move g' turn _ hstep ih =>
    have hsteps := Steps.of_step hstep
    -- what was below the counter stays below it, as the counter only grows
    have earlier {past : Game} (hpast : past ∈ statesOf log g) (hid : id ∈ past.idsOf seat) :
        id.number.toNat < g'.nextCopy.toNat ∨ Given (log ++ [.move g move turn]) seat id :=
      (ih hpast hid).imp (·.trans_le hsteps.nextCopy_le) fun given => given_concat.2 (.inl given)
    rcases mem_statesOf_concat.1 hpast with hpast | rfl
    · exact earlier hpast hid
    · rcases hsteps.owned_before_or_played hid with old | dealt
      · exact earlier (mem_statesOf_self log g) old
      · rcases hsteps.next with ⟨none, -⟩ | ⟨number, hnext⟩
        · cases none.symm.trans dealt
        · cases number.symm.trans dealt
          exact .inl (hnext ▸ Nat.lt_succ_self _)
  | @change log g place f f' _ hf gains ih =>
    obtain ⟨c, rfl⟩ := gains
    have earlier {past : Game} (hpast : past ∈ statesOf log g) (hid : id ∈ past.idsOf seat) :
        id.number.toNat < g.nextCopy.toNat ∨
          Given (log ++ [.change g place f (f.add c)]) seat id :=
      (ih hpast hid).imp_right fun given => given_concat.2 (.inl given)
    rcases mem_statesOf_concat.1 hpast with hpast | rfl
    · exact earlier hpast hid
    · rcases mem_idsOf_set hf rfl hid with old | ⟨rfl, gained⟩
      · exact earlier (mem_statesOf_self log g) old
      · rcases Farm.mem_ids_add.1 gained with old | rfl
        · exact earlier (mem_statesOf_self log g) (idsOf_eq hf ▸ old)
        · exact .inr (given_concat.2 (.inr ⟨g, f, c, rfl, rfl⟩))

/-- A number that was given to a seat the seat owned at some time. -/
theorem owned_of_given (h : Chronicle Farm.Gains setup log g) (given : Given log seat id) :
    ∃ past ∈ statesOf log g, id ∈ past.idsOf seat := by
  induction h with
  | start =>
    obtain ⟨before, f, c, hc, -⟩ := given
    cases hc
  | move _ _ ih =>
    rcases given_concat.1 given with given | ⟨_, _, _, h, -⟩
    · obtain ⟨past, hpast, hid⟩ := ih given
      exact ⟨past, mem_statesOf_concat.2 (.inl hpast), hid⟩
    · cases h
  | change _ hf _ ih =>
    rcases given_concat.1 given with given | ⟨before, f, c, h, rfl⟩
    · obtain ⟨past, hpast, hid⟩ := ih given
      exact ⟨past, mem_statesOf_concat.2 (.inl hpast), hid⟩
    · cases h
      refine ⟨_, mem_statesOf_concat.2 (.inr rfl), ?_⟩
      rw [idsOf_set hf rfl, if_pos rfl]
      exact Farm.mem_ids_add.2 (.inr rfl)

/-- Where cards come to farms from outside too, a play that the gate allows goes through with a
number that no copy of the seat ever had, just if the next number was never given to that seat. It
goes through with the next number unless the seat owns a copy of it at the time; if it does, the
play is refused, and nothing changes. -/
theorem play_takes_next (h : Chronicle Farm.Gains setup log g)
    (allowed : g.canPlay seat card = .ok true)
    (fits : ∀ operation, g.play seat card ≠ .error (.overflow operation)) :
    (¬Given log seat ⟨g.nextCopy⟩ ↔ ∃ g' p, g.play seat card = .ok (.ok (g', p)) ∧
        ∀ past ∈ statesOf log g, p.copy ∉ past.idsOf seat) ∧
      (⟨g.nextCopy⟩ ∉ g.idsOf seat → ∃ g' p, g.play seat card = .ok (.ok (g', p)) ∧
        p.copy = ⟨g.nextCopy⟩) ∧
      (⟨g.nextCopy⟩ ∈ g.idsOf seat → g.step (.play seat card) =
        .ok (g, .refused (.invalidInput (.alreadyOwned seat ⟨g.nextCopy⟩)))) := by
  refine ⟨⟨fun kept => ?_, ?_⟩, play_of_new allowed fits, step_of_owned⟩
  · have new : ∀ past ∈ statesOf log g, (⟨g.nextCopy⟩ : CopyId) ∉ past.idsOf seat :=
      fun past hpast hid => (h.below_next_or_given hpast hid).elim (Nat.lt_irrefl _) kept
    obtain ⟨g', p, hplay, hcopy⟩ := play_of_new allowed fits (new g (mem_statesOf_self log g))
    exact ⟨g', p, hplay, hcopy ▸ new⟩
  · rintro ⟨g', p, hplay, new⟩ given
    obtain ⟨past, hpast, hid⟩ := h.owned_of_given given
    obtain ⟨_, _, _, _, hplays, -, heq⟩ := of_play hplay
    cases heq
    cases hplays with
    | played _ _ _ hout => exact new past hpast (hout.copy_eq ▸ hid)

/-- A seat plays its first card though it was given a copy of number 5. -/
theorem play_takes_next_beside_five :
    ∃ log g, Chronicle Farm.Gains ⟨1, .strict, .empty, 2, 2⟩ log g ∧
      Given log ⟨0⟩ ⟨5⟩ ∧ g.canPlay ⟨0⟩ Deck.woodCutter = .ok true ∧
      ∃ g' p, g.play ⟨0⟩ Deck.woodCutter = .ok (.ok (g', p)) ∧
        ∀ past ∈ statesOf log g, p.copy ∉ past.idsOf ⟨0⟩ := by
  have started : Chronicle Farm.Gains ⟨1, .strict, .empty, 2, 2⟩ [] _ := .start rfl
  have given := started.change (rfl : farm? _ ⟨0⟩ = some _)
    ⟨.new ⟨5⟩ Deck.seasonalWorker, rfl⟩
  refine ⟨_, _, given, ⟨_, _, _, List.mem_singleton_self _, rfl⟩, rfl,
    (given.play_takes_next rfl fun operation h => ?_).1.1 ?_⟩
  · cases (rfl : Except.ok _ = _).trans h
  · rintro ⟨before, f, c, hc, hid⟩
    obtain ⟨-, -, -, hadd⟩ := Deed.change.inj (List.mem_singleton.1 hc)
    have gained : c.id ∈ (f.add c).ids := Farm.mem_ids_add.2 (.inr rfl)
    rw [hadd, hid] at gained
    exact absurd gained (by decide)

/-- An open gate alone does not let a play through: a seat that owns a copy of number 1 from outside
is refused its first card. Nor is the number always new to the seat: once that copy was discarded,
the card gets its number. -/
theorem next_number_given_away :
    (¬∀ {setup log g} seat card, Chronicle Farm.Gains setup log g →
        g.canPlay seat card = .ok true →
        (∀ operation, g.play seat card ≠ .error (.overflow operation)) →
          ∃ g' p, g.play seat card = .ok (.ok (g', p))) ∧
      ¬∀ {setup log g g' p} seat card, Chronicle Farm.Gains setup log g →
        g.canPlay seat card = .ok true → g.play seat card = .ok (.ok (g', p)) →
          ∀ past ∈ statesOf log g, p.copy ∉ past.idsOf seat := by
  have started : Chronicle Farm.Gains ⟨1, .strict, .empty, 2, 2⟩ [] _ := .start rfl
  have given := started.change (rfl : farm? _ ⟨0⟩ = some _)
    ⟨.new ⟨1⟩ Deck.seasonalWorker, rfl⟩
  have discarded := given.move (rfl : step _ (.discard ⟨0⟩ ⟨1⟩) = .ok (_, _))
  refine ⟨fun goesThrough => ?_, fun fresh => ?_⟩
  · obtain ⟨g', p, hplay⟩ := goesThrough ⟨0⟩ Deck.woodCutter given rfl fun operation h => by
      cases (rfl : Except.ok _ = _).trans h
    cases (rfl : Except.ok (Except.error _) = _).trans hplay
  · have new := fresh ⟨0⟩ Deck.woodCutter discarded rfl rfl
    exact new _ (mem_statesOf_concat.2 (.inl (mem_statesOf_self _ _))) (by decide)

end Chronicle

end Game

end Homestead
