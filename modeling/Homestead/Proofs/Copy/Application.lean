import Homestead.Copy
import Homestead.Proofs.Checked

/-!
# Applying effects of a copy

`Copy.Applies` says what applying several effects in order can do, one constructor for each thing
that can become of an attempt; it holds exactly of the runs of `Copy.applyAll` that end
(`applyAll_eq_ok_iff`). An attempt that is declined or refused leaves copy and store as they were,
and so the effects that were applied, on their own, lead to the same copy and store
(`Applies.applied_only`).
-/

namespace Homestead.Copy

/-- The copy with one more use of the effect at a position, which was used as `u` says. -/
def counting (c : Copy) (i : Nat) (u : Uses) : Copy :=
  { c with uses := c.uses.set i ⟨u.count.succ⟩ }

/-- What an attempt to apply an effect can do. -/
inductive Attempt (policy : PaymentPolicy) (c : Copy) (s : Store) (i : Nat) :
    Except Refusal (Option (Copy × Store)) → Prop
  | declined : c.canApply i = false → Attempt policy c s i (.ok none)
  | refused {e u cause} : c.card.effects[i]? = some e → c.uses[i]? = some u → u.allows e.limit →
    e.apply c.card policy s = .ok (.error cause) → Attempt policy c s i (.error cause)
  | applied {e u s'} : c.card.effects[i]? = some e → c.uses[i]? = some u → u.allows e.limit →
    e.apply c.card policy s = .ok (.ok s') → Attempt policy c s i (.ok (some (c.counting i u, s')))

/-- What applying the effects at several positions in order can do. -/
inductive Applies (policy : PaymentPolicy) :
    List Nat → Copy → Store → Copy → Store → Outcome → Prop
  | nil {c s} : Applies policy [] c s c s .nothing
  | refused {i is c s cause} : c.applyEffect i policy s = .ok (.error cause) →
    Applies policy (i :: is) c s c s (.refused cause)
  | declined {i is c s c' s' o} : c.applyEffect i policy s = .ok (.ok none) →
    Applies policy is c s c' s' o → Applies policy (i :: is) c s c' s' o
  | applied {i is c s c₁ s₁ c' s' o} : c.applyEffect i policy s = .ok (.ok (some (c₁, s₁))) →
    Applies policy is c₁ s₁ c' s' o → Applies policy (i :: is) c s c' s' (o.after i)

variable {policy : PaymentPolicy} {c c₁ c' : Copy} {s s₁ s' : Store} {i : Nat} {is : List Nat}
  {o : Outcome} {cause : Refusal}

/-! ## One attempt -/

theorem canApply_iff : c.canApply i ↔
    ∃ e u, c.card.effects[i]? = some e ∧ c.uses[i]? = some u ∧ u.allows e.limit := by
  unfold canApply
  cases c.card.effects[i]? <;> cases c.uses[i]? <;> simp

theorem applyEffect_eq_ok_iff {r : Except Refusal (Option (Copy × Store))} :
    c.applyEffect i policy s = .ok r ↔ Attempt policy c s i r := by
  constructor
  · intro h
    unfold applyEffect at h
    split at h
    · rename_i e u he hu
      by_cases allowed : u.allows e.limit
      · simp only [Uses.record?, if_pos allowed] at h
        obtain ⟨result, happly, h⟩ := Checked.bind_eq_ok.1 h
        cases result with
        | error cause => exact Checked.pure_eq_ok.1 h ▸ .refused he hu allowed happly
        | ok s' => exact Checked.pure_eq_ok.1 h ▸ .applied he hu allowed happly
      · simp only [Uses.record?, if_neg allowed] at h
        refine Checked.pure_eq_ok.1 h ▸ .declined ?_
        simpa [canApply, he, hu] using allowed
    · rename_i absent
      refine Checked.pure_eq_ok.1 h ▸ .declined ?_
      rw [← Bool.not_eq_true, canApply_iff]
      rintro ⟨e, u, he, hu, -⟩
      exact absent e u he hu
  · rintro (no | ⟨he, hu, allowed, happly⟩ | ⟨he, hu, allowed, happly⟩)
    · unfold applyEffect
      split
      · rename_i e u he hu
        have : ¬u.allows e.limit := by simpa [canApply, he, hu] using no
        simp only [Uses.record?, if_neg this]
        rfl
      · rfl
    · simp only [applyEffect, he, hu, Uses.record?, if_pos allowed, happly, Checked.ok_bind]
      rfl
    · simp only [applyEffect, he, hu, Uses.record?, if_pos allowed, happly, Checked.ok_bind]
      rfl

/-- An attempt changes neither the identifier nor the card of a copy. -/
theorem of_applyEffect (h : c.applyEffect i policy s = .ok (.ok (some (c', s')))) :
    c'.id = c.id ∧ c'.card = c.card := by
  cases applyEffect_eq_ok_iff.1 h with
  | applied => exact ⟨rfl, rfl⟩

/-! ## Several attempts -/

theorem applyAll_eq_ok_iff :
    applyAll policy is c s = .ok (c', s', o) ↔ Applies policy is c s c' s' o := by
  constructor
  · intro h
    induction is generalizing c s c' s' o with
    | nil =>
      cases Checked.pure_eq_ok.1 h
      exact .nil
    | cons i is ih =>
      rw [applyAll] at h
      obtain ⟨cause | _ | ⟨c₁, s₁⟩, hi, h⟩ := Checked.bind_eq_ok.1 h
      · cases Checked.pure_eq_ok.1 h
        exact .refused hi
      · exact .declined hi (ih h)
      · obtain ⟨⟨c', s', o⟩, hrest, h⟩ := Checked.bind_eq_ok.1 h
        cases Checked.pure_eq_ok.1 h
        exact .applied hi (ih hrest)
  · intro h
    induction h with
    | nil => rfl
    | refused hi => rw [applyAll, hi]; rfl
    | declined hi _ ih => rw [applyAll, hi]; exact ih
    | applied hi _ ih =>
      rw [applyAll, hi]
      simp only [Checked.ok_bind, ih]
      rfl

namespace Applies

theorem id_card (h : Applies policy is c s c' s' o) : c'.id = c.id ∧ c'.card = c.card := by
  induction h with
  | nil | refused => exact ⟨rfl, rfl⟩
  | declined _ _ ih => exact ih
  | applied hi _ ih =>
    obtain ⟨hid, hcard⟩ := of_applyEffect hi
    exact ⟨ih.1.trans hid, ih.2.trans hcard⟩

theorem sublist (h : Applies policy is c s c' s' o) : o.applied.Sublist is := by
  induction h with
  | nil => exact .slnil
  | refused => exact List.nil_sublist _
  | declined _ _ ih => exact ih.cons _
  | applied _ _ ih => exact ih.cons_cons _

/-- The effects that were applied, on their own, are all applied and lead to the same result. -/
theorem applied_only (h : Applies policy is c s c' s' o) :
    Applies policy o.applied c s c' s' ⟨o.applied, none⟩ := by
  induction h with
  | nil => exact .nil
  | refused => exact .nil
  | declined _ _ ih => exact ih
  | applied hi _ ih => exact .applied hi ih

/-- Attempts of which none applied an effect leave copy and store as they were. -/
theorem eq_of_applied_nil (h : Applies policy is c s c' s' o) (none : o.applied = []) :
    c' = c ∧ s' = s := by
  have alone := h.applied_only
  rw [none] at alone
  cases alone
  exact ⟨rfl, rfl⟩

/-- A refusal ends the attempts at one effect, and those before it went through. -/
theorem stopped (h : Applies policy is c s c' s' o) (hf : o.failure = some cause) :
    ∃ before i after, is = before ++ i :: after ∧
      Applies policy before c s c' s' ⟨o.applied, none⟩ ∧
      c'.applyEffect i policy s' = .ok (.error cause) := by
  induction h with
  | nil => cases hf
  | refused hi =>
    cases hf
    exact ⟨[], _, _, rfl, .nil, hi⟩
  | declined hi _ ih =>
    obtain ⟨before, i, after, rfl, hbefore, hlast⟩ := ih hf
    exact ⟨_ :: before, i, after, rfl, .declined hi hbefore, hlast⟩
  | applied hi _ ih =>
    obtain ⟨before, i, after, rfl, hbefore, hlast⟩ := ih hf
    exact ⟨_ :: before, i, after, rfl, .applied hi hbefore, hlast⟩

end Applies

end Homestead.Copy
