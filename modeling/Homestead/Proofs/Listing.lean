import Homestead.Proofs.Seating
import Homestead.Registry

/-!
# What a registry lists

A registry's list is *tidy* if no seat has two entries, no entry is empty and no entry names a copy
twice (`Registry.Tidy`). Every operation on the registry keeps it tidy, and on a tidy registry each
is determined by what it does to the copies listed for a seat: `copiesOf_register?`,
`copiesOf_unregister`, `copiesOf_unregisterSeat`, `copiesOf_clear`. An operation on one seat leaves
the copies of the others alone, and registering and unregistering change nothing but the list
(`Registry.Relisted`).
-/

namespace Homestead.Registry

/-- The copies that a list has for a seat. -/
def listing (l : List (Seat × List CopyId)) (seat : Seat) : List CopyId := (l.lookup seat).getD []

theorem listing_cons (e : Seat × List CopyId) (l : List (Seat × List CopyId)) (seat : Seat) :
    listing (e :: l) seat = if e.1 = seat then e.2 else listing l seat := by
  unfold listing
  rw [List.lookup_cons]
  by_cases h : e.1 = seat
  · simp [h]
  · have : (seat == e.1) = false := beq_eq_false_iff_ne.2 (Ne.symm h)
    simp [h, this]

theorem listing_eq_nil {l : List (Seat × List CopyId)} {seat : Seat}
    (h : seat ∉ l.map Prod.fst) : listing l seat = [] := by
  induction l with
  | nil => rfl
  | cons e l ih =>
    rw [List.map_cons, List.mem_cons, not_or] at h
    rw [listing_cons, if_neg (Ne.symm h.1), ih h.2]

theorem mem_of_listing_ne_nil {l : List (Seat × List CopyId)} {seat : Seat}
    (h : listing l seat ≠ []) : (seat, listing l seat) ∈ l := by
  induction l with
  | nil => exact absurd rfl h
  | cons e l ih =>
    rw [listing_cons] at h ⊢
    split
    · rename_i eq
      exact List.mem_cons.2 (.inl (Prod.ext eq.symm rfl))
    · rename_i ne
      rw [if_neg ne] at h
      exact List.mem_cons_of_mem _ (ih h)

/-! ## Tidy lists -/

/-- Each seat has at most one entry, and each entry names some copies, each once. -/
structure TidyList (l : List (Seat × List CopyId)) : Prop where
  seats_nodup : (l.map Prod.fst).Nodup
  copies_nodup : ∀ e ∈ l, e.2.Nodup
  copies_ne_nil : ∀ e ∈ l, e.2 ≠ []

namespace TidyList

variable {e : Seat × List CopyId} {l : List (Seat × List CopyId)} {seat : Seat} {id : CopyId}

theorem nil : TidyList [] := ⟨List.nodup_nil, nofun, nofun⟩

theorem cons (hseat : e.1 ∉ l.map Prod.fst) (hnodup : e.2.Nodup) (hne : e.2 ≠ [])
    (h : TidyList l) : TidyList (e :: l) where
  seats_nodup := List.nodup_cons.2 ⟨hseat, h.seats_nodup⟩
  copies_nodup := List.forall_mem_cons.2 ⟨hnodup, h.copies_nodup⟩
  copies_ne_nil := List.forall_mem_cons.2 ⟨hne, h.copies_ne_nil⟩

theorem head (h : TidyList (e :: l)) : e.1 ∉ l.map Prod.fst ∧ e.2.Nodup ∧ e.2 ≠ [] :=
  ⟨(List.nodup_cons.1 h.seats_nodup).1, h.copies_nodup e List.mem_cons_self,
    h.copies_ne_nil e List.mem_cons_self⟩

theorem tail (h : TidyList (e :: l)) : TidyList l :=
  ⟨(List.nodup_cons.1 h.seats_nodup).2, (List.forall_mem_cons.1 h.copies_nodup).2,
    (List.forall_mem_cons.1 h.copies_ne_nil).2⟩

theorem sublist {l' : List (Seat × List CopyId)} (h : TidyList l) (hl : l'.Sublist l) :
    TidyList l' :=
  ⟨h.seats_nodup.sublist (hl.map _), fun e he => h.copies_nodup e (hl.subset he),
    fun e he => h.copies_ne_nil e (hl.subset he)⟩

theorem listing_nodup (h : TidyList l) (seat : Seat) : (listing l seat).Nodup := by
  by_cases none : listing l seat = []
  · rw [none]
    exact List.nodup_nil
  · exact h.copies_nodup _ (mem_of_listing_ne_nil none)

end TidyList

/-! ## Entering and striking -/

section

variable (seat other : Seat) (id : CopyId) (l : List (Seat × List CopyId))

theorem listing_enter :
    listing (enter seat id l) other =
      if seat = other then listing l seat ++ [id] else listing l other := by
  induction l with
  | nil => rw [enter, listing_cons]; rfl
  | cons e l ih =>
    simp only [enter]
    by_cases he : e.1 = seat
    · rw [if_pos he]
      simp only [listing_cons, he]
      split <;> rfl
    · rw [if_neg he, listing_cons, ih, listing_cons, listing_cons, if_neg he]
      by_cases ho : e.1 = other
      · rw [if_pos ho, if_pos ho, if_neg fun eq => he (ho.trans eq.symm)]
      · rw [if_neg ho, if_neg ho]

theorem map_fst_enter :
    (enter seat id l).map Prod.fst =
      if seat ∈ l.map Prod.fst then l.map Prod.fst else l.map Prod.fst ++ [seat] := by
  induction l with
  | nil => simp [enter]
  | cons e l ih =>
    simp only [enter]
    by_cases he : e.1 = seat
    · simp [he]
    · rw [if_neg he, List.map_cons, ih, List.map_cons]
      simp only [List.mem_cons, Ne.symm he, false_or]
      split <;> rfl

theorem map_fst_strike_sublist : ((strike seat id l).map Prod.fst).Sublist (l.map Prod.fst) := by
  induction l with
  | nil => exact .refl _
  | cons e l ih =>
    simp only [strike]
    split
    · split
      · exact List.sublist_cons_self _ _
      · exact .refl _
    · exact ih.cons_cons _

variable {seat other id l}

theorem TidyList.enter (h : TidyList l) (new : id ∉ listing l seat) :
    TidyList (enter seat id l) := by
  induction l with
  | nil => exact TidyList.nil.cons (by simp) (List.nodup_singleton id) (List.cons_ne_nil _ _)
  | cons e l ih =>
    obtain ⟨hseat, hnodup, hne⟩ := h.head
    rw [listing_cons] at new
    simp only [Registry.enter]
    by_cases he : e.1 = seat
    · rw [if_pos he] at new ⊢
      refine h.tail.cons hseat (hnodup.append (List.nodup_singleton id) ?_) (by simp)
      simpa using new
    · rw [if_neg he] at new ⊢
      refine (ih h.tail new).cons ?_ hnodup hne
      rw [map_fst_enter]
      split
      · exact hseat
      · simpa [he] using hseat

theorem TidyList.strike (h : TidyList l) : TidyList (strike seat id l) := by
  induction l with
  | nil => exact TidyList.nil
  | cons e l ih =>
    obtain ⟨hseat, hnodup, hne⟩ := h.head
    simp only [Registry.strike]
    split
    · split
      · exact h.tail
      · rename_i rest
        exact h.tail.cons hseat (hnodup.erase id) fun none => rest (List.isEmpty_iff.2 none)
    · exact (ih h.tail).cons (fun mem => hseat ((map_fst_strike_sublist ..).subset mem)) hnodup hne

theorem TidyList.listing_strike (h : TidyList l) :
    listing (Registry.strike seat id l) other =
      if seat = other then (listing l seat).erase id else listing l other := by
  induction l with
  | nil => simp [Registry.strike, listing]
  | cons e l ih =>
    obtain ⟨hseat, -, -⟩ := h.head
    simp only [Registry.strike]
    by_cases he : e.1 = seat
    · subst he
      rw [if_pos rfl]
      by_cases ho : e.1 = other
      · subst ho
        rw [if_pos rfl, listing_cons, if_pos rfl]
        split
        · rename_i none
          rw [listing_eq_nil hseat, List.isEmpty_iff.1 none]
        · rw [listing_cons, if_pos rfl]
      · rw [if_neg ho, listing_cons, if_neg ho]
        split
        · rfl
        · rw [listing_cons, if_neg ho]
    · rw [if_neg he, listing_cons, ih h.tail, listing_cons, listing_cons, if_neg he]
      by_cases ho : e.1 = other
      · rw [if_pos ho, if_pos ho, if_neg fun eq => he (ho.trans eq.symm)]
      · rw [if_neg ho, if_neg ho]

end

/-! ## Registries -/

/-- The list of the registry is tidy. -/
def Tidy (r : Registry) : Prop := TidyList r.listed

variable {r r' : Registry} {farms : Seating Farm} {seat other : Seat} {id : CopyId}

theorem tidy_new (policy : PaymentPolicy) : (new policy).Tidy := TidyList.nil

theorem Tidy.copiesOf_nodup (h : r.Tidy) (seat : Seat) : (r.copiesOf seat).Nodup :=
  h.listing_nodup seat

theorem isRegistered_iff : r.isRegistered seat id ↔ id ∈ r.copiesOf seat := decide_eq_true_iff

theorem register?_eq_some_iff :
    r.register? farms seat id = some r' ↔
      (∃ farm, farms.get? seat = some farm ∧ farm.owns id) ∧ id ∉ r.copiesOf seat ∧
        r' = { r with listed := enter seat id r.listed } := by
  unfold register?
  constructor
  · intro h
    obtain ⟨farm, hfarm, h⟩ := Option.bind_eq_some_iff.1 h
    obtain ⟨_, hguard, h⟩ := Option.bind_eq_some_iff.1 h
    unfold guard at hguard
    split at hguard
    · rename_i hyp
      exact ⟨⟨farm, hfarm, hyp.1⟩, mt isRegistered_iff.2 hyp.2, (Option.some.inj h).symm⟩
    · cases hguard
  · rintro ⟨⟨farm, hfarm, howns⟩, hnew, rfl⟩
    refine Option.bind_eq_some_iff.2 ⟨farm, hfarm, Option.bind_eq_some_iff.2 ⟨(), ?_, rfl⟩⟩
    exact if_pos ⟨howns, mt isRegistered_iff.1 hnew⟩

theorem copiesOf_register? (h : r.register? farms seat id = some r') (other : Seat) :
    r'.copiesOf other =
      if seat = other then r.copiesOf seat ++ [id] else r.copiesOf other := by
  obtain ⟨-, -, rfl⟩ := register?_eq_some_iff.1 h
  exact listing_enter seat other id r.listed

theorem Tidy.register? (h : r.Tidy) (hr : r.register? farms seat id = some r') : r'.Tidy := by
  obtain ⟨-, new, rfl⟩ := register?_eq_some_iff.1 hr
  exact TidyList.enter h new

theorem Tidy.unregister (h : r.Tidy) (seat : Seat) (id : CopyId) : (r.unregister seat id).Tidy := by
  unfold Registry.unregister unregister?
  split
  · exact TidyList.strike h
  · exact h

theorem Tidy.copiesOf_unregister (h : r.Tidy) (seat : Seat) (id : CopyId) (other : Seat) :
    (r.unregister seat id).copiesOf other =
      if seat = other then (r.copiesOf seat).erase id else r.copiesOf other := by
  unfold Registry.unregister unregister?
  split
  · exact TidyList.listing_strike h
  · rename_i absent
    rw [isRegistered_iff] at absent
    rw [List.erase_of_not_mem absent, Option.getD_none]
    split
    · rename_i eq
      rw [eq]
    · rfl

theorem Tidy.unregisterSeat (h : r.Tidy) (seat : Seat) : (r.unregisterSeat seat).Tidy :=
  TidyList.sublist h List.filter_sublist

theorem copiesOf_unregisterSeat (r : Registry) (seat other : Seat) :
    (r.unregisterSeat seat).copiesOf other = if seat = other then [] else r.copiesOf other := by
  change listing (r.listed.filter _) other = if _ then _ else listing r.listed other
  induction r.listed with
  | nil => simp [listing]
  | cons e l ih =>
    rw [List.filter_cons, listing_cons]
    by_cases he : e.1 = seat
    · rw [if_neg (by simpa using he), ih]
      by_cases ho : seat = other
      · rw [if_pos ho, if_pos ho]
      · rw [if_neg ho, if_neg ho, if_neg fun eq => ho (he.symm.trans eq)]
    · rw [if_pos (by simpa using he), listing_cons, ih]
      by_cases ho : e.1 = other
      · rw [if_pos ho, if_pos ho, if_neg fun eq => he (ho.trans eq.symm)]
      · rw [if_neg ho, if_neg ho]

theorem copiesOf_clear (r : Registry) (seat : Seat) : r.clear.copiesOf seat = [] := rfl

/-! ## Relisting -/

/-- The registries differ at most in what they list. -/
def Relisted (r r' : Registry) : Prop := ∃ l, r' = { r with listed := l }

namespace Relisted

variable {r'' : Registry}

theorem refl (r : Registry) : Relisted r r := ⟨r.listed, rfl⟩

theorem trans (h : Relisted r r') (h' : Relisted r' r'') : Relisted r r'' := by
  obtain ⟨_, rfl⟩ := h
  obtain ⟨l, rfl⟩ := h'
  exact ⟨l, rfl⟩

theorem policy_eq (h : Relisted r r') : r'.policy = r.policy := by
  obtain ⟨_, rfl⟩ := h
  rfl

end Relisted

theorem relisted_register? (h : r.register? farms seat id = some r') : Relisted r r' := by
  obtain ⟨-, -, rfl⟩ := register?_eq_some_iff.1 h
  exact ⟨_, rfl⟩

theorem relisted_register (r : Registry) (farms : Seating Farm) (seat : Seat) (id : CopyId) :
    Relisted r (r.register farms seat id) := by
  rw [register]
  cases h : r.register? farms seat id with
  | none => exact .refl r
  | some r' => exact relisted_register? h

theorem relisted_unregister (r : Registry) (seat : Seat) (id : CopyId) :
    Relisted r (r.unregister seat id) := by
  unfold unregister unregister?
  split <;> exact ⟨_, rfl⟩

end Homestead.Registry
