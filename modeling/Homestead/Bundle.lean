import Homestead.Amount
import Homestead.Resource

/-!
# Bundles

A bundle is an ordered list of entries, each an amount of a resource. One resource may have several
entries, of either sign; what a bundle declares for a resource is their sum (`Bundle.amountOf`).

Building a bundle entry by entry (`Bundle.push`) leaves zero amounts out. A bundle that was read may
hold them, and there they count as entries.
-/

namespace Homestead

/-- An ordered list of amounts of resources. -/
structure Bundle where
  entries : List (Resource × Amount)
  deriving DecidableEq, Repr

namespace Bundle

def empty : Bundle := ⟨[]⟩

instance : Inhabited Bundle := ⟨empty⟩

/-- The bundle with one more entry, unless the amount is zero. -/
def push (b : Bundle) (r : Resource) (n : Amount) : Bundle :=
  if n = 0 then b else ⟨b.entries ++ [(r, n)]⟩

def single (r : Resource) (n : Amount) : Bundle := empty.push r n

/-- The bundle of the entries of a list, in their order. -/
def ofList (entries : List (Resource × Amount)) : Bundle :=
  entries.foldl (fun b e => b.push e.1 e.2) empty

def size (b : Bundle) : Nat := b.entries.length

def isEmpty (b : Bundle) : Bool := b.entries.isEmpty

/-- The amounts declared for a resource, in order. -/
def amountsOf (b : Bundle) (r : Resource) : List Amount :=
  (b.entries.filter fun e => e.1 = r).map Prod.snd

/-- The sum of the amounts declared for a resource, taken from zero in their order. -/
def amountOf (b : Bundle) (r : Resource) : Checked Amount :=
  (b.amountsOf r).foldlM Amount.plus 0

theorem entries_push (b : Bundle) (r : Resource) (n : Amount) :
    (b.push r n).entries = b.entries ++ if n = 0 then [] else [(r, n)] := by
  unfold push
  split <;> simp

theorem push_zero (b : Bundle) (r : Resource) : b.push r 0 = b := rfl

/-- Building from a list keeps exactly its nonzero entries. -/
theorem entries_ofList (entries : List (Resource × Amount)) :
    (ofList entries).entries = entries.filter fun e => e.2 ≠ 0 := by
  have aux : ∀ (es : List (Resource × Amount)) (b : Bundle),
      (es.foldl (fun b e => b.push e.1 e.2) b).entries =
        b.entries ++ es.filter fun e => e.2 ≠ 0 := by
    intro es
    induction es with
    | nil => simp
    | cons e es ih =>
      intro b
      rw [List.foldl_cons, ih, entries_push]
      by_cases h : e.2 = 0 <;> simp [h]
  simpa [ofList, empty] using aux entries empty

end Bundle

end Homestead
