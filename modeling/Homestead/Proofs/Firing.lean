import Homestead.Proofs.Collection
import Homestead.Proofs.Copy.Application
import Homestead.Proofs.Seating
import Homestead.Registry.Dispatch

/-!
# Firing matches

Firing effects of an owned copy is applying them to the copy and putting the result in its place
(`Farm.fire_eq`). `Farm.Fires`, `Match.Fires` and `Match.FiresAll` say what one match and a list of
matches can do, and `Registry.execute_eq_ok_iff` that executing a list does that and counts it.

What no firing on one farm breaks, no list of matches breaks on any farm
(`Match.FiresAll.related`).
-/

namespace Homestead

/-- What firing effects of the copy of an identifier can do on a farm. -/
inductive Farm.Fires (policy : PaymentPolicy) (id : CopyId) (is : List Nat) (f : Farm) :
    Farm → Outcome → Prop
  | absent : f.copy? id = none → Fires policy id is f f .nothing
  | owned {c c' s' o} : f.copy? id = some c → Copy.Applies policy is c f.store c' s' o →
    Fires policy id is f (f.replace c' s') o

/-- What firing a match can do. -/
inductive Match.Fires (policy : PaymentPolicy) (m : Match) (farms : Seating Farm) :
    Seating Farm → Firing → Prop
  | noFarm : farms.get? m.seat = none → Fires policy m farms farms ⟨m, .nothing⟩
  | farm {f f' o} : farms.get? m.seat = some f → f.Fires policy m.copy m.effects f' o →
    Fires policy m farms (farms.set m.seat f') ⟨m, o⟩

/-- What firing several matches in order can do. -/
inductive Match.FiresAll (policy : PaymentPolicy) :
    List Match → Seating Farm → Seating Farm → List Firing → Prop
  | nil {farms} : FiresAll policy [] farms farms []
  | cons {m ms farms farms₁ farms' firing firings} : m.Fires policy farms farms₁ firing →
    FiresAll policy ms farms₁ farms' firings →
    FiresAll policy (m :: ms) farms farms' (firing :: firings)

variable {policy : PaymentPolicy} {id : CopyId} {is : List Nat} {o : Outcome}

/-! ## One farm -/

namespace Farm

variable {f f' : Farm} {c c' : Copy} {s' : Store}

theorem fire_of_copy?_eq_none (h : f.copy? id = none) (is : List Nat) :
    fire policy id is f = .ok (f, .nothing) := by
  induction is with
  | nil => rfl
  | cons i is ih =>
    rw [fire, applyEffect, h]
    exact ih

theorem applyEffect_of_copy? (h : f.copy? id = some c) (i : Nat) :
    f.applyEffect id i policy = do
      match ← c.applyEffect i policy f.store with
      | .error refusal => return .error refusal
      | .ok none => return .ok none
      | .ok (some (c, store)) => return .ok (some (f.replace c store)) := by
  unfold applyEffect
  split
  · rename_i none
    cases none.symm.trans h
  · rename_i d hd
    cases hd.symm.trans h
    rfl

/-- Firing effects of an owned copy applies them to the copy and puts the result in its place. -/
theorem fire_eq (h : f.copy? id = some c) (is : List Nat) :
    fire policy id is f =
      (fun r => (f.replace r.1 r.2.1, r.2.2)) <$> Copy.applyAll policy is c f.store := by
  induction is generalizing f c with
  | nil =>
    have := id_of_copy? h
    subst this
    simp only [fire, Copy.applyAll, map_pure, replace_self h]
  | cons i is ih =>
    rw [fire, applyEffect_of_copy? h, Copy.applyAll]
    rcases hi : c.applyEffect i policy f.store with fault | cause | _ | ⟨c₁, s₁⟩
    · rfl
    · have := id_of_copy? h
      subst this
      simp only [Checked.ok_bind, map_pure, replace_self h]
      rfl
    · simp only [Checked.ok_bind]
      exact ih h
    · obtain ⟨hid, -⟩ := Copy.of_applyEffect hi
      have hid₁ : c₁.id = id := hid.trans (id_of_copy? h)
      have h₁ := copy?_replace_self h hid₁ s₁
      simp only [Checked.ok_bind]
      change fire policy id is (f.replace c₁ s₁) >>= _ = _
      rw [ih h₁, store_replace]
      rcases hrest : Copy.applyAll policy is c₁ s₁ with fault | ⟨c', s', o⟩
      · rfl
      · have hid' : c₁.id = c'.id := ((Copy.applyAll_eq_ok_iff.1 hrest).id_card.1).symm
        simp only [Checked.map_ok, Checked.ok_bind, map_pure, replace_replace hid']

theorem fire_eq_ok_iff : fire policy id is f = .ok (f', o) ↔ f.Fires policy id is f' o := by
  cases h : f.copy? id with
  | none =>
    rw [fire_of_copy?_eq_none h]
    constructor
    · rintro ⟨⟩
      exact .absent h
    · rintro (_ | owned)
      · rfl
      · rw [h] at owned
        cases owned
  | some c =>
    rw [fire_eq h, Checked.map_eq_ok]
    constructor
    · rintro ⟨⟨c', s', o⟩, hall, ⟨⟩⟩
      exact .owned h (Copy.applyAll_eq_ok_iff.1 hall)
    · rintro (absent | ⟨owned, happlies⟩)
      · rw [h] at absent
        cases absent
      · cases h.symm.trans owned
        exact ⟨_, Copy.applyAll_eq_ok_iff.2 happlies, rfl⟩

namespace Fires

theorem sublist (h : f.Fires policy id is f' o) : o.applied.Sublist is := by
  cases h with
  | absent => exact List.nil_sublist _
  | owned _ happlies => exact happlies.sublist

theorem sameCards (h : f.Fires policy id is f' o) : SameCards f f' := by
  cases h with
  | absent => exact .refl f
  | owned hc happlies =>
    obtain ⟨hid, hcard⟩ := happlies.id_card
    have hid' := hid.trans (id_of_copy? hc)
    exact .replace (hid' ▸ hc) hcard _

end Fires

end Farm

/-! ## Matches -/

variable {m : Match} {ms : List Match} {farms farms' : Seating Farm} {firing : Firing}
  {firings : List Firing}

theorem Match.fire_eq_ok_iff :
    m.fire policy farms = .ok (farms', firing) ↔ m.Fires policy farms farms' firing := by
  unfold Match.fire
  cases h : farms.get? m.seat with
  | none =>
    constructor
    · rintro ⟨⟩
      exact .noFarm h
    · rintro (_ | hf)
      · rfl
      · rw [h] at hf
        cases hf
  | some f =>
    constructor
    · intro hm
      obtain ⟨⟨f', o⟩, hfire, heq⟩ := Checked.bind_eq_ok.1 hm
      cases Checked.pure_eq_ok.1 heq
      exact .farm h (Farm.fire_eq_ok_iff.1 hfire)
    · rintro (none | ⟨hf, hfires⟩)
      · rw [h] at none
        cases none
      · cases h.symm.trans hf
        exact Checked.bind_eq_ok.2 ⟨_, Farm.fire_eq_ok_iff.2 hfires, rfl⟩

theorem Match.fireAll_eq_ok_iff :
    Match.fireAll policy ms farms = .ok (farms', firings) ↔
      Match.FiresAll policy ms farms farms' firings := by
  induction ms generalizing farms farms' firings with
  | nil =>
    constructor
    · rintro ⟨⟩
      exact .nil
    · rintro ⟨⟩
      rfl
  | cons m ms ih =>
    rw [Match.fireAll, Checked.bind_eq_ok]
    constructor
    · rintro ⟨⟨farms₁, firing⟩, hm, h⟩
      obtain ⟨⟨farms', firings⟩, hms, h⟩ := Checked.bind_eq_ok.1 h
      cases Checked.pure_eq_ok.1 h
      exact .cons (Match.fire_eq_ok_iff.1 hm) (ih.1 hms)
    · rintro (_ | ⟨hm, hms⟩)
      exact ⟨_, Match.fire_eq_ok_iff.2 hm, Checked.bind_eq_ok.2 ⟨_, ih.2 hms, rfl⟩⟩

/-- Firing a match relates the farms before and after as firing on one farm does. -/
theorem Match.Fires.related {R : Farm → Farm → Prop} (refl : ∀ f, R f f)
    (fires : ∀ {f f' o}, f.Fires policy m.copy m.effects f' o → R f f')
    (h : m.Fires policy farms farms' firing) : Seating.Related R farms farms' := by
  cases h with
  | noFarm => exact .refl refl farms
  | farm hf hfires => exact .set refl hf (fires hfires)

/-- Firing several matches relates the farms before and after as firing on one farm does. -/
theorem Match.FiresAll.related {R : Farm → Farm → Prop} (refl : ∀ f, R f f)
    (trans : ∀ {f g h}, R f g → R g h → R f h)
    (fires : ∀ {f f' id is o}, f.Fires policy id is f' o → R f f')
    (h : Match.FiresAll policy ms farms farms' firings) : Seating.Related R farms farms' := by
  induction h with
  | nil => exact .refl refl _
  | cons hm _ ih => exact (hm.related refl fires).trans trans ih

theorem Match.FiresAll.aims (h : Match.FiresAll policy ms farms farms' firings) :
    firings.map Firing.aim = ms := by
  induction h with
  | nil => rfl
  | cons hm _ ih => cases hm <;> rw [List.map_cons, ih]

theorem Match.Fires.sublist (h : m.Fires policy farms farms' firing) :
    firing.outcome.applied.Sublist firing.aim.effects := by
  cases h with
  | noFarm => exact List.nil_sublist _
  | farm _ hfires => exact hfires.sublist

/-- Only effects that a match lists are applied, in the order in which it lists them. -/
theorem Match.FiresAll.sublist (h : Match.FiresAll policy ms farms farms' firings)
    (hmem : firing ∈ firings) : firing.outcome.applied.Sublist firing.aim.effects := by
  induction h with
  | nil => cases hmem
  | cons hm _ ih =>
    rcases List.mem_cons.1 hmem with rfl | hmem
    · exact hm.sublist
    · exact ih hmem

theorem Match.FiresAll.sameCards (h : Match.FiresAll policy ms farms farms' firings) :
    Seating.Related Farm.SameCards farms farms' :=
  h.related .refl .trans Farm.Fires.sameCards

/-! ## Executing -/

namespace Registry

variable {r r' : Registry} {event : Event} {report : Report}

theorem execute_eq_ok_iff :
    r.execute farms ms event = .ok (r', farms', report) ↔
      Match.FiresAll r.policy ms farms farms' report.firings ∧ report.moment = event.moment ∧
        r' = r.tally report := by
  rw [execute, Checked.bind_eq_ok]
  constructor
  · rintro ⟨⟨farms', firings⟩, hall, h⟩
    cases Checked.pure_eq_ok.1 h
    exact ⟨Match.fireAll_eq_ok_iff.1 hall, rfl, rfl⟩
  · rintro ⟨hall, hmoment, rfl⟩
    refine ⟨(farms', report.firings), Match.fireAll_eq_ok_iff.2 hall, ?_⟩
    rw [← hmoment]
    rfl

end Registry

end Homestead
