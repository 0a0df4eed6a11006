import Homestead.Fault

/-!
# Results that may be missing

A chain of steps that can each end early yields a result exactly when every step does. The lemmas
hold for faults and for refusals alike; with them a chain is taken apart by `obtain`, one step at a
time, and no later proof opens the monad.
-/

namespace Homestead.Checked

variable {ε α β : Type} {x : Except ε α} {a a' : α} {b : β}

theorem bind_eq_ok {f : α → Except ε β} :
    (x >>= f) = .ok b ↔ ∃ a, x = .ok a ∧ f a = .ok b := by
  cases x <;> simp [bind, Except.bind]

theorem map_eq_ok {f : α → β} : f <$> x = .ok b ↔ ∃ a, x = .ok a ∧ f a = b := by
  cases x <;> simp [Functor.map, Except.map]

theorem map_eq_error {f : α → β} {fault : ε} : f <$> x = .error fault ↔ x = .error fault := by
  cases x <;> simp [Functor.map, Except.map]

theorem pure_eq_ok : (pure a : Except ε α) = .ok a' ↔ a = a' := by
  simp [pure, Except.pure]

/-- A search finds nothing if it rejects every element. -/
theorem findM?_eq_none_iff {p : α → Except ε Bool} {l : List α} :
    l.findM? p = .ok none ↔ ∀ a ∈ l, p a = .ok false := by
  induction l with
  | nil => exact iff_of_true rfl fun _ ha => absurd ha List.not_mem_nil
  | cons a l ih =>
    rw [List.findM?, bind_eq_ok, List.forall_mem_cons, ← ih]
    constructor
    · intro h
      obtain ⟨found, hp, h⟩ := h
      cases found with
      | true => cases pure_eq_ok.1 h
      | false => exact ⟨hp, h⟩
    · intro h
      exact ⟨false, h⟩

/-- A search accepts what it finds. -/
theorem findM?_eq_some {p : α → Except ε Bool} {l : List α} (h : l.findM? p = .ok (some a)) :
    a ∈ l ∧ p a = .ok true := by
  induction l with
  | nil => cases pure_eq_ok.1 h
  | cons a' l ih =>
    obtain ⟨found, hp, h⟩ := bind_eq_ok.1 h
    cases found with
    | true =>
      cases pure_eq_ok.1 h
      exact ⟨List.mem_cons_self, hp⟩
    | false =>
      obtain ⟨mem, accepted⟩ := ih h
      exact ⟨List.mem_cons_of_mem a' mem, accepted⟩

/-- A search for a value finds none if no element has one. -/
theorem findSomeM?_eq_none_iff {p : α → Except ε (Option β)} {l : List α} :
    l.findSomeM? p = .ok none ↔ ∀ a ∈ l, p a = .ok none := by
  induction l with
  | nil => exact iff_of_true rfl fun _ ha => absurd ha List.not_mem_nil
  | cons a l ih =>
    rw [List.findSomeM?, bind_eq_ok, List.forall_mem_cons, ← ih]
    constructor
    · intro h
      obtain ⟨found, hp, h⟩ := h
      cases found with
      | some b => cases pure_eq_ok.1 h
      | none => exact ⟨hp, h⟩
    · intro h
      exact ⟨none, h⟩

/-- A test of all elements succeeds if it accepts each of them. -/
theorem allM_eq_true_iff {p : α → Except ε Bool} {l : List α} :
    l.allM p = .ok true ↔ ∀ a ∈ l, p a = .ok true := by
  induction l with
  | nil => exact iff_of_true rfl fun _ ha => absurd ha List.not_mem_nil
  | cons a l ih =>
    rw [List.allM, bind_eq_ok, List.forall_mem_cons, ← ih]
    constructor
    · intro h
      obtain ⟨accepted, hp, h⟩ := h
      cases accepted with
      | false => cases pure_eq_ok.1 h
      | true => exact ⟨hp, h⟩
    · intro h
      exact ⟨true, h⟩

/-- A search whose every question has an answer is the search by the answers. -/
theorem findM?_eq {p : α → Except ε Bool} {q : α → Bool} (l : List α)
    (h : ∀ a ∈ l, p a = .ok (q a)) : l.findM? p = .ok (l.find? q) := by
  induction l with
  | nil => rfl
  | cons a l ih =>
    obtain ⟨ha, hl⟩ := List.forall_mem_cons.1 h
    rw [List.findM?, ha, List.find?_cons]
    cases q a with
    | true => rfl
    | false => exact ih hl

/-- A test whose every question has an answer is the test by the answers. -/
theorem allM_eq {p : α → Except ε Bool} {q : α → Bool} (l : List α)
    (h : ∀ a ∈ l, p a = .ok (q a)) : l.allM p = .ok (l.all q) := by
  induction l with
  | nil => rfl
  | cons a l ih =>
    obtain ⟨ha, hl⟩ := List.forall_mem_cons.1 h
    rw [List.allM, ha, List.all_cons]
    cases q a with
    | true => exact ih hl
    | false => rfl

@[simp] theorem ok_bind (f : α → Except ε β) : ((.ok a : Except ε α) >>= f) = f a := rfl

@[simp] theorem map_ok (f : α → β) : f <$> (.ok a : Except ε α) = .ok (f a) := rfl

end Homestead.Checked
