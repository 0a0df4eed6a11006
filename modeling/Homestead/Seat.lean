import Homestead.Fault

/-!
# Seats and seatings

A game has between one and 255 seats, numbered from zero in turn order. A `Seating α` holds one
value for each seat; in a game these are the farms.

* `Seat.all`: the first seats, as many as a number of eight bits can say;
* `Seating.ofFn`: the seating of a given size, where a size out of range is a fault;
* `Seating.get?`: a seat's value, absent for a seat that the seating does not have;
* `Seating.get`: the same, where such a seat is a fault;
* `Seating.set`: another value for one seat, which leaves every other seat as it is
  (`Seating.get?_set`).
-/

namespace Homestead

/-- A place at the table. -/
structure Seat where
  number : UInt8
  deriving DecidableEq, Hashable, Repr

namespace Seat

instance : ToString Seat := ⟨fun seat => "Player " ++ toString seat.number.toNat⟩

/-- The position of a seat in turn order. -/
def index (seat : Seat) : Nat := seat.number.toNat

/-- The seat at a position, whose number keeps eight bits of it. -/
def ofIndex (i : Nat) : Seat := ⟨UInt8.ofNat i⟩

/-- The seats of a table for `count`, in turn order; of the count eight bits matter. -/
def all (count : Nat) : List Seat := (List.range (count % UInt8.size)).map ofIndex

theorem index_ofIndex {i : Nat} (h : i < UInt8.size) : (ofIndex i).index = i := Nat.mod_eq_of_lt h

theorem ofIndex_index (seat : Seat) : ofIndex seat.index = seat := by
  simp [ofIndex, index]

theorem index_lt (seat : Seat) : seat.index < UInt8.size := seat.number.toNat_lt_size

theorem index_injective {a b : Seat} (h : a.index = b.index) : a = b := by
  rw [← ofIndex_index a, ← ofIndex_index b, h]

theorem length_all {count : Nat} (h : count < UInt8.size) : (all count).length = count := by
  rw [all, List.length_map, List.length_range, Nat.mod_eq_of_lt h]

end Seat

/-- One value for each seat of a table. -/
structure Seating (α : Type) where
  places : List α
  size_pos : 0 < places.length
  size_le : places.length ≤ 255

namespace Seating

variable {α β : Type}

/-- The seating of `count` places that holds `f seat` for each seat. -/
def ofFn (count : Nat) (f : Seat → α) : Checked (Seating α) :=
  if none : count = 0 then .error .seatingEmpty
  else if fits : count ≤ 255 then
    have length : ((Seat.all count).map f).length = count := by
      rw [List.length_map, Seat.length_all (Nat.lt_succ_of_le fits)]
    .ok ⟨(Seat.all count).map f, by omega, by omega⟩
  else .error .seatingTooLarge

def size (s : Seating α) : Nat := s.places.length

def seats (s : Seating α) : List Seat := Seat.all s.size

/-- The value of a seat, if the seating has that seat. -/
def get? (s : Seating α) (seat : Seat) : Option α := s.places[seat.index]?

/-- The value of a seat; a seat that the seating does not have is a fault. -/
def get (s : Seating α) (seat : Seat) : Checked α :=
  match s.get? seat with
  | some a => .ok a
  | none => .error (.noSuchPlace s.size seat.index)

/-- The seating with another value for one seat; without that seat nothing changes. -/
def set (s : Seating α) (seat : Seat) (a : α) : Seating α where
  places := s.places.set seat.index a
  size_pos := by rw [List.length_set]; exact s.size_pos
  size_le := by rw [List.length_set]; exact s.size_le

/-- The seating in which every value is changed alike. -/
def map (f : α → β) (s : Seating α) : Seating β where
  places := s.places.map f
  size_pos := by rw [List.length_map]; exact s.size_pos
  size_le := by rw [List.length_map]; exact s.size_le

/-- Each seat with its value, in turn order. -/
def entries (s : Seating α) : List (Seat × α) := s.seats.zip s.places

theorem size_set (s : Seating α) (seat : Seat) (a : α) : (s.set seat a).size = s.size :=
  List.length_set

theorem get?_set (s : Seating α) (seat other : Seat) (a : α) :
    (s.set seat a).get? other =
      if seat = other then (s.get? seat).map fun _ => a else s.get? other := by
  unfold get? set
  by_cases h : seat = other
  · subst h
    by_cases inside : seat.index < s.places.length <;> simp [inside]
  · rw [if_neg h, List.getElem?_set_ne fun eq => h (Seat.index_injective eq)]

theorem get?_map (f : α → β) (s : Seating α) (seat : Seat) :
    (s.map f).get? seat = (s.get? seat).map f := List.getElem?_map

theorem isSome_get? (s : Seating α) (seat : Seat) : (s.get? seat).isSome ↔ seat.index < s.size := by
  simp [get?, size]

theorem mem_seats (s : Seating α) (seat : Seat) : seat ∈ s.seats ↔ seat.index < s.size := by
  have small : s.size % UInt8.size = s.size := Nat.mod_eq_of_lt (Nat.lt_succ_of_le s.size_le)
  simp only [seats, Seat.all, small, List.mem_map, List.mem_range]
  constructor
  · rintro ⟨i, hi, rfl⟩
    rwa [Seat.index_ofIndex (Nat.lt_of_lt_of_le hi (Nat.le_succ_of_le s.size_le))]
  · exact fun h => ⟨seat.index, h, seat.ofIndex_index⟩

end Seating

end Homestead
