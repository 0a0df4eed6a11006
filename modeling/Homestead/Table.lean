import Homestead.Enumerated

/-!
# Tables over a kind

A `Table κ α` holds one cell for each member of a finite kind `κ`. Two tables with equal cells are
equal (`Table.ext_get`), and writing a cell changes that cell alone (`Table.get_set`).

An absent entry, where entries can be absent, is a cell of type `Option α`.
-/

namespace Homestead

/-- One cell for each member of a kind, in the kind's order. -/
structure Table (κ : Type) [DecidableEq κ] [Enumerated κ] (α : Type) where
  cells : List α
  length_cells : cells.length = (Enumerated.all : List κ).length

namespace Table

open Enumerated

variable {κ α β : Type} [DecidableEq κ] [Enumerated κ]

theorem index_lt_length (t : Table κ α) (k : κ) : index k < t.cells.length :=
  t.length_cells ▸ index_lt k

theorem ext_cells : ∀ {s t : Table κ α}, s.cells = t.cells → s = t
  | ⟨_, _⟩, ⟨_, _⟩, rfl => rfl

instance [DecidableEq α] : DecidableEq (Table κ α) := fun s t =>
  decidable_of_iff (s.cells = t.cells) ⟨ext_cells, fun h => h ▸ rfl⟩

/-- The table that holds `f k` for each member `k`. -/
def ofFn (f : κ → α) : Table κ α := ⟨(all : List κ).map f, List.length_map _⟩

/-- The table that holds `a` everywhere. -/
def replicate (a : α) : Table κ α := ofFn fun _ => a

/-- The table that holds `cells` in the kind's order, if there is one cell for each member. -/
def ofCells? (cells : List α) : Option (Table κ α) :=
  if h : cells.length = (all : List κ).length then some ⟨cells, h⟩ else none

def get (t : Table κ α) (k : κ) : α := t.cells.get ⟨index k, t.index_lt_length k⟩

def set (t : Table κ α) (k : κ) (a : α) : Table κ α :=
  ⟨t.cells.set (index k) a, by rw [List.length_set, t.length_cells]⟩

/-- The cells that hold a value, each with its member, in the kind's order. -/
def entries (t : Table κ (Option α)) : List (κ × α) :=
  (all : List κ).filterMap fun k => (t.get k).map (k, ·)

@[simp] theorem get_ofFn (f : κ → α) (k : κ) : (ofFn f).get k = f k := by
  simpa [get, ofFn] using congrArg f (get_index k)

@[simp] theorem get_replicate (a : α) (k : κ) : (replicate a : Table κ α).get k = a := get_ofFn ..

@[simp] theorem get_set_self (t : Table κ α) (k : κ) (a : α) : (t.set k a).get k = a :=
  List.getElem_set_self _

theorem get_set_ne (t : Table κ α) {k j : κ} (h : k ≠ j) (a : α) : (t.set k a).get j = t.get j :=
  List.getElem_set_ne (mt index_injective h) _

theorem get_set (t : Table κ α) (k j : κ) (a : α) :
    (t.set k a).get j = if k = j then a else t.get j := by
  by_cases h : k = j
  · rw [if_pos h, ← h, get_set_self]
  · rw [if_neg h, get_set_ne t h]

theorem ext_get {s t : Table κ α} (h : ∀ k, s.get k = t.get k) : s = t := by
  refine ext_cells (List.ext_getElem (s.length_cells.trans t.length_cells.symm) fun i h₁ h₂ => ?_)
  have hi : i < (all : List κ).length := s.length_cells ▸ h₁
  have key := h ((all : List κ)[i])
  have hidx : index ((all : List κ)[i]) = i := nodup_all.idxOf_getElem i hi
  simpa only [get, hidx, List.get_eq_getElem] using key

end Table

end Homestead
