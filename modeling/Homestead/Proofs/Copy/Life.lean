import Homestead.Proofs.Copy.Application

/-!
# The life of a copy

What is done to a copy is a list of acts, oldest first: attempts to apply one of its effects, each
with what became of it, and resets. `Copy.Life` is a copy with the acts that it went through, by
whatever operations these were done.

Of a life each counter sees its own attempts and the resets only. `Uses.Course` says what they do to
the counter, and `Life.undergoes` that every life does just that.
-/

namespace Homestead

/-- What became of an attempt to apply an effect. -/
inductive Verdict where
  | applied
  | declined
  | refused
  deriving DecidableEq

/-- What is done to a copy: an attempt to apply the effect at a position, or a reset. -/
inductive Act where
  | attempt (i : Nat) (verdict : Verdict)
  | reset
  deriving DecidableEq

/-- The effect that an act applied. -/
def Act.applied? : Act → Option Nat
  | attempt i .applied => some i
  | _ => none

namespace Copy

/-- What became of an attempt, by its result. -/
def verdict : Except Refusal (Option (Copy × Store)) → Verdict
  | .error _ => .refused
  | .ok none => .declined
  | .ok (some _) => .applied

/-- The copy after an attempt. -/
def after (c : Copy) : Except Refusal (Option (Copy × Store)) → Copy
  | .ok (some (c, _)) => c
  | _ => c

/-- The attempts that are made when the effects at several positions are applied in order. -/
def acts (policy : PaymentPolicy) : List Nat → Copy → Store → List Act
  | [], _, _ => []
  | i :: is, c, s =>
    match c.applyEffect i policy s with
    | .ok (.ok none) => .attempt i .declined :: acts policy is c s
    | .ok (.ok (some (c, s))) => .attempt i .applied :: acts policy is c s
    | .ok (.error _) => [.attempt i .refused]
    | .error _ => []

/-- A copy that went through acts since it was `c₀`. -/
inductive Life (c₀ : Copy) : List Act → Copy → Prop
  | start : Life c₀ [] c₀
  | applyEffect {past c i policy s result} : Life c₀ past c →
    c.applyEffect i policy s = .ok result →
    Life c₀ (past ++ [.attempt i (verdict result)]) (c.after result)
  | applyAll {past c is policy s c' s' o} : Life c₀ past c →
    applyAll policy is c s = .ok (c', s', o) → Life c₀ (past ++ acts policy is c s) c'
  | trigger {past c event policy s c' s' o} : Life c₀ past c →
    c.trigger event policy s = .ok (c', s', o) →
    Life c₀ (past ++ acts policy (c.answers event) c s) c'
  | resetUses {past c} : Life c₀ past c → Life c₀ (past ++ [.reset]) c.resetUses

end Copy

/-- What an act does to the counter of the effect at a position. -/
inductive Uses.Does (i : Nat) (limit : Limit) : Act → Uses → Uses → Prop
  | applied {u} : u.allows limit → Does i limit (.attempt i .applied) u ⟨u.count.succ⟩
  | declined {u} : u.allows limit = false → Does i limit (.attempt i .declined) u u
  | refused {u} : Does i limit (.attempt i .refused) u u
  | other {j verdict u} : j ≠ i → Does i limit (.attempt j verdict) u u
  | reset {u} : Does i limit .reset u (u.reset limit)

/-- What acts in order do to the counter of the effect at a position. -/
inductive Uses.Course (i : Nat) (limit : Limit) : List Act → Uses → Uses → Prop
  | nil {u} : Course i limit [] u u
  | cons {act acts u v w} : Does i limit act u v → Course i limit acts v w →
    Course i limit (act :: acts) u w

/-- What acts in order do to a copy: each counter takes its course, and no effect that the card does
not have is applied. -/
structure Copy.Undergoes (acts : List Act) (c c' : Copy) : Prop where
  id : c'.id = c.id
  card : c'.card = c.card
  length : c'.uses.length = c.uses.length
  course : ∀ {i e u}, c.card.effects[i]? = some e → c.uses[i]? = some u →
    ∃ v, c'.uses[i]? = some v ∧ Uses.Course i e.limit acts u v
  unknown : ∀ {i}, c.card.effects[i]? = none → .attempt i .applied ∉ acts

/-! ## Counters -/

namespace Uses.Course

variable {i : Nat} {limit : Limit} {acts acts' : List Act} {u v w : Uses}

theorem append (h : Course i limit acts u v) (h' : Course i limit acts' v w) :
    Course i limit (acts ++ acts') u w := by
  induction h with
  | nil => exact h'
  | cons hact _ ih => exact .cons hact (ih h')

theorem split (h : Course i limit (acts ++ acts') u w) :
    ∃ v, Course i limit acts u v ∧ Course i limit acts' v w := by
  induction acts generalizing u with
  | nil => exact ⟨u, .nil, h⟩
  | cons act acts ih =>
    obtain _ | ⟨hact, hrest⟩ := h
    obtain ⟨v, hacts, hacts'⟩ := ih hrest
    exact ⟨v, .cons hact hacts, hacts'⟩

end Uses.Course

namespace Copy

variable {acts acts' : List Act} {c₀ c c' c'' : Copy} {policy : PaymentPolicy} {s s' : Store}
  {i : Nat} {is : List Nat} {o : Outcome}

/-! ## What acts do -/

namespace Undergoes

theorem refl (c : Copy) : Undergoes [] c c where
  id := rfl
  card := rfl
  length := rfl
  course _ hu := ⟨_, hu, .nil⟩
  unknown _ := List.not_mem_nil

theorem trans (h : Undergoes acts c c') (h' : Undergoes acts' c' c'') :
    Undergoes (acts ++ acts') c c'' where
  id := h'.id.trans h.id
  card := h'.card.trans h.card
  length := h'.length.trans h.length
  course he hu := by
    obtain ⟨v, hv, hcourse⟩ := h.course he hu
    obtain ⟨w, hw, hcourse'⟩ := h'.course (h.card ▸ he) hv
    exact ⟨w, hw, hcourse.append hcourse'⟩
  unknown he hmem := by
    rcases List.mem_append.1 hmem with hmem | hmem
    · exact h.unknown he hmem
    · exact h'.unknown (h.card ▸ he) hmem

/-- An attempt is an act on one counter. -/
theorem attempt {result : Except Refusal (Option (Copy × Store))}
    (h : c.applyEffect i policy s = .ok result) :
    Undergoes [.attempt i (verdict result)] c (c.after result) := by
  cases applyEffect_eq_ok_iff.1 h with
  | declined no =>
    refine ⟨rfl, rfl, rfl, fun {j e u} he hu => ⟨u, hu, .cons ?_ .nil⟩, fun _ hmem => ?_⟩
    · by_cases eq : i = j
      · subst eq
        refine .declined ?_
        simpa [canApply, he, hu] using no
      · exact .other eq
    · cases List.mem_singleton.1 hmem
  | refused =>
    refine ⟨rfl, rfl, rfl, fun {j e u} he hu => ⟨u, hu, .cons ?_ .nil⟩, fun _ hmem => ?_⟩
    · by_cases eq : i = j
      · subst eq
        exact .refused
      · exact .other eq
    · cases List.mem_singleton.1 hmem
  | @applied e u s' he hu allowed =>
    refine ⟨rfl, rfl, List.length_set, fun {j e' v} he' hv => ?_, fun {j} he' hmem => ?_⟩
    · by_cases eq : i = j
      · subst eq
        cases he.symm.trans he'
        cases hu.symm.trans hv
        obtain ⟨hlt, -⟩ := List.getElem?_eq_some_iff.1 hu
        exact ⟨_, List.getElem?_set_self hlt, .cons (.applied allowed) .nil⟩
      · exact ⟨v, (List.getElem?_set_ne eq).trans hv, .cons (.other eq) .nil⟩
    · cases List.mem_singleton.1 hmem
      cases he.symm.trans he'

theorem resetUses (counted : c.uses.length = c.card.effects.length) :
    Undergoes [.reset] c c.resetUses where
  id := rfl
  card := rfl
  length := by
    rw [Copy.resetUses, List.length_zipWith, ← counted, Nat.min_self]
  course he hu := by
    refine ⟨_, ?_, .cons .reset .nil⟩
    rw [Copy.resetUses, List.getElem?_zipWith, hu, he]
  unknown _ hmem := by cases List.mem_singleton.1 hmem

end Undergoes

/-! ## Lives -/

/-- Applying effects in order is making the attempts one by one. -/
theorem Applies.undergoes (h : Applies policy is c s c' s' o) :
    Undergoes (Copy.acts policy is c s) c c' := by
  induction h with
  | nil => exact .refl _
  | refused hi =>
    rw [Copy.acts, hi]
    exact .attempt hi
  | declined hi _ ih =>
    rw [Copy.acts, hi]
    exact (Undergoes.attempt hi).trans ih
  | applied hi _ ih =>
    rw [Copy.acts, hi]
    exact (Undergoes.attempt hi).trans ih

/-- The attempts that were successful are those of the outcome. -/
theorem Applies.applied_acts (h : Applies policy is c s c' s' o) :
    (Copy.acts policy is c s).filterMap Act.applied? = o.applied := by
  induction h with
  | nil => rfl
  | refused hi =>
    rw [Copy.acts, hi]
    rfl
  | declined hi _ ih =>
    rw [Copy.acts, hi]
    exact ih
  | applied hi _ ih =>
    rw [Copy.acts, hi]
    exact congrArg (_ :: ·) ih

namespace Life

/-- The counters of a copy go through the acts of its life. -/
theorem undergoes (h : Life c₀ acts c) (counted : c₀.uses.length = c₀.card.effects.length) :
    Undergoes acts c₀ c := by
  induction h with
  | start => exact .refl _
  | applyEffect _ hi ih => exact ih.trans (.attempt hi)
  | applyAll _ hall ih => exact ih.trans (applyAll_eq_ok_iff.1 hall).undergoes
  | trigger _ hall ih => exact ih.trans (applyAll_eq_ok_iff.1 hall).undergoes
  | resetUses _ ih =>
    refine ih.trans (.resetUses ?_)
    rw [ih.length, ih.card, counted]

theorem id_card (h : Life c₀ acts c) : c.id = c₀.id ∧ c.card = c₀.card := by
  induction h with
  | start => exact ⟨rfl, rfl⟩
  | applyEffect _ hi ih =>
    have hundergoes := Undergoes.attempt hi
    exact ⟨hundergoes.id.trans ih.1, hundergoes.card.trans ih.2⟩
  | applyAll _ hall ih | trigger _ hall ih =>
    obtain ⟨hid, hcard⟩ := (applyAll_eq_ok_iff.1 hall).id_card
    exact ⟨hid.trans ih.1, hcard.trans ih.2⟩
  | resetUses _ ih => exact ih

theorem trans (h : Life c₀ acts c) (h' : Life c acts' c') : Life c₀ (acts ++ acts') c' := by
  induction h' with
  | start => rwa [List.append_nil]
  | applyEffect _ hi ih =>
    rw [← List.append_assoc]
    exact .applyEffect ih hi
  | applyAll _ hall ih =>
    rw [← List.append_assoc]
    exact .applyAll ih hall
  | trigger _ hall ih =>
    rw [← List.append_assoc]
    exact .trigger ih hall
  | resetUses _ ih =>
    rw [← List.append_assoc]
    exact .resetUses ih

theorem of_applies (h : Applies policy is c s c' s' o) : Life c (Copy.acts policy is c s) c' :=
  .applyAll .start (applyAll_eq_ok_iff.2 h)

theorem reset (c : Copy) : Life c [.reset] c.resetUses := .resetUses .start

end Life

end Copy

end Homestead
