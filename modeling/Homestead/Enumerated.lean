/-!
# Kinds with names

The goods, moments, bonuses and categories of the game are finite kinds. Each lists its members
in their customary order and gives every member a name of its own, by which it is written and read.

* `Enumerated`: the class of such kinds;
* `Enumerated.index`: the position of a member in the customary order, below the number of members;
* `Enumerated.ofName?`: the member of a given name; it inverts `Enumerated.name`.
-/

namespace Homestead

/-- A finite kind whose members have an order and distinct names. -/
class Enumerated (κ : Type) [DecidableEq κ] where
  /-- The members in their customary order. -/
  all : List κ
  /-- The name by which a member is written. -/
  name : κ → String
  mem_all : ∀ k, k ∈ all
  nodup_all : all.Nodup
  name_injective : ∀ {a b : κ}, name a = name b → a = b

namespace Enumerated

variable {κ : Type} [DecidableEq κ] [Enumerated κ]

/-- The position of a member in the customary order. -/
def index (k : κ) : Nat := (all : List κ).idxOf k

/-- The member that is written `text`. -/
def ofName? (text : String) : Option κ := (all : List κ).find? fun k => name k == text

theorem index_lt (k : κ) : index k < (all : List κ).length :=
  List.idxOf_lt_length_of_mem (mem_all k)

theorem get_index (k : κ) : (all : List κ).get ⟨index k, index_lt k⟩ = k :=
  List.getElem_idxOf _

theorem index_injective {a b : κ} (h : index a = index b) : a = b := by
  have ha := get_index a
  have hb := get_index b
  rw [← ha, ← hb]
  exact congrArg _ (Fin.ext h)

theorem ofName?_name (k : κ) : ofName? (name k) = some k := by
  unfold ofName?
  cases found : (all : List κ).find? fun j => name j == name k with
  | none => simpa using List.find?_eq_none.1 found k (mem_all k)
  | some j =>
    have := List.find?_some found
    rw [name_injective (eq_of_beq this)]

theorem name_of_ofName? {text : String} {k : κ} (h : ofName? text = some k) : name k = text :=
  eq_of_beq (List.find?_some (p := fun k => name k == text) h)

end Enumerated

end Homestead
