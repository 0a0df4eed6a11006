import Homestead.Seat
import Mathlib.Data.List.Nodup
import Mathlib.Data.List.Range

/-!
# Seatings, place by place

Writing a value touches one seat and no other. `Seating.Related` compares two seatings of one size
seat by seat; it inherits reflexivity and transitivity, and a change of one seat relates the
seatings as soon as it relates that seat's values (`Seating.Related.set`).
-/

namespace Homestead

theorem Seat.all_nodup (count : Nat) : (Seat.all count).Nodup := by
  refine List.Nodup.map_on ?_ List.nodup_range
  intro i hi j hj h
  have bound : count % UInt8.size < UInt8.size := Nat.mod_lt _ (by decide)
  rw [List.mem_range] at hi hj
  have := congrArg Seat.index h
  rwa [Seat.index_ofIndex (hi.trans bound), Seat.index_ofIndex (hj.trans bound)] at this

namespace Seating

variable {α : Type} {s t : Seating α} {seat other : Seat} {a b : α}

theorem get?_set_self (h : s.get? seat = some a) (b : α) : (s.set seat b).get? seat = some b := by
  rw [get?_set, if_pos rfl, h]
  rfl

theorem get?_set_ne (h : seat ≠ other) (b : α) : (s.set seat b).get? other = s.get? other := by
  rw [get?_set, if_neg h]

theorem eq_of_places (h : s.places = t.places) : s = t := by
  cases s
  cases t
  cases h
  rfl

theorem set_set (s : Seating α) (seat : Seat) (a b : α) :
    (s.set seat a).set seat b = s.set seat b :=
  eq_of_places (List.set_set ..)

theorem set_self (h : s.get? seat = some a) : s.set seat a = s := by
  refine eq_of_places (List.ext_getElem? fun i => ?_)
  change (s.places.set seat.index a)[i]? = s.places[i]?
  by_cases hi : seat.index = i
  · subst hi
    rw [List.getElem?_set_self (List.getElem?_eq_some_iff.1 h).1]
    exact h.symm
  · rw [List.getElem?_set_ne hi]

/-- Two seatings with the same value for each seat are the same. -/
theorem ext_get? (h : ∀ seat, s.get? seat = t.get? seat) : s = t := by
  refine eq_of_places (List.ext_getElem? fun i => ?_)
  by_cases hi : i < UInt8.size
  · have := h (Seat.ofIndex i)
    rwa [get?, get?, Seat.index_ofIndex hi] at this
  · have hs := s.size_le
    have ht := t.size_le
    have : UInt8.size = 256 := rfl
    rw [List.getElem?_eq_none (by omega), List.getElem?_eq_none (by omega)]

/-! ## Entries -/

theorem length_seats (s : Seating α) : s.seats.length = s.places.length :=
  Seat.length_all (Nat.lt_succ_of_le s.size_le)

theorem getElem?_seats {i : Nat} (hi : i < s.places.length) :
    s.seats[i]? = some (Seat.ofIndex i) := by
  have bound := s.size_le
  have small : s.size % UInt8.size = s.places.length := Nat.mod_eq_of_lt (Nat.lt_succ_of_le bound)
  simp [seats, Seat.all, small, hi]

theorem mem_entries : (seat, a) ∈ s.entries ↔ s.get? seat = some a := by
  have bound := s.size_le
  rw [entries, List.mem_iff_getElem?]
  constructor
  · rintro ⟨i, h⟩
    rw [List.getElem?_zip_eq_some] at h
    obtain ⟨hseat, ha⟩ := h
    have hi : i < s.places.length := (List.getElem?_eq_some_iff.1 ha).1
    rw [getElem?_seats hi] at hseat
    obtain rfl := Option.some.inj hseat
    rw [get?, Seat.index_ofIndex (hi.trans (Nat.lt_succ_of_le bound))]
    exact ha
  · intro h
    have hi : seat.index < s.places.length := (List.getElem?_eq_some_iff.1 h).1
    refine ⟨seat.index, List.getElem?_zip_eq_some.2 ⟨?_, h⟩⟩
    rw [getElem?_seats hi, Seat.ofIndex_index]

theorem entries_nodup (s : Seating α) : (s.entries.map Prod.fst).Nodup := by
  rw [entries, List.map_fst_zip s.length_seats.le]
  exact Seat.all_nodup _

/-! ## Seatings that agree seat by seat -/

/-- The two seatings have the same seats, and the values of each seat are related. -/
def Related (R : α → α → Prop) (s t : Seating α) : Prop :=
  ∀ seat, Option.Rel R (s.get? seat) (t.get? seat)

namespace Related

variable {R : α → α → Prop} {s t u : Seating α}

theorem refl (hR : ∀ a, R a a) (s : Seating α) : Related R s s := fun seat => by
  cases s.get? seat with
  | none => exact .none
  | some a => exact .some (hR a)

theorem trans (hR : ∀ {a b c}, R a b → R b c → R a c) (hst : Related R s t)
    (htu : Related R t u) : Related R s u := fun seat => by
  have hst := hst seat
  have htu := htu seat
  generalize s.get? seat = x, t.get? seat = y, u.get? seat = z at hst htu ⊢
  cases hst with
  | none => exact htu
  | some hab => cases htu with
    | some hbc => exact .some (hR hab hbc)

theorem set (hR : ∀ a, R a a) (h : s.get? seat = some a) (hab : R a b) :
    Related R s (s.set seat b) := fun other => by
  by_cases eq : seat = other
  · subst eq
    rw [get?_set_self h, h]
    exact .some hab
  · rw [get?_set_ne eq]
    exact Related.refl hR s other

theorem map {f : α → α} (hf : ∀ a, R a (f a)) (s : Seating α) : Related R s (s.map f) :=
  fun seat => by
    rw [get?_map]
    cases s.get? seat with
    | none => exact .none
    | some a => exact .some (hf a)

theorem none_right (h : Related R s t) (ht : t.get? seat = none) : s.get? seat = none := by
  have h := h seat
  rw [ht] at h
  generalize s.get? seat = x at h ⊢
  cases h
  rfl

theorem some_left (h : Related R s t) (ha : s.get? seat = some a) :
    ∃ b, t.get? seat = some b ∧ R a b := by
  have h := h seat
  rw [ha] at h
  generalize t.get? seat = y at h
  cases h with
  | some hab => exact ⟨_, rfl, hab⟩

theorem some_right (h : Related R s t) (hb : t.get? seat = some b) :
    ∃ a, s.get? seat = some a ∧ R a b := by
  have h := h seat
  rw [hb] at h
  generalize s.get? seat = x at h
  cases h with
  | some hab => exact ⟨_, rfl, hab⟩

theorem size_eq (h : Related R s t) : t.size = s.size := by
  have same (seat : Seat) : seat.index < t.size ↔ seat.index < s.size := by
    rw [← isSome_get?, ← isSome_get?]
    have h := h seat
    generalize s.get? seat = x, t.get? seat = y at h ⊢
    cases h <;> simp
  have hs := s.size_le
  have ht := t.size_le
  have bound : UInt8.size = 256 := rfl
  by_contra ne
  rcases Nat.lt_or_gt_of_ne ne with lt | lt
  · have := same (.ofIndex t.size)
    rw [Seat.index_ofIndex (by unfold size; omega)] at this
    omega
  · have := same (.ofIndex s.size)
    rw [Seat.index_ofIndex (by unfold size; omega)] at this
    omega

end Related

end Seating

end Homestead
