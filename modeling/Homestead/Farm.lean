import Homestead.Copy
import Homestead.Store.Cooking

/-!
# Farms

A farm is a seat's store and its copies, occupations before improvements. Identifiers of copies
need not be distinct: wherever a copy is asked for by its identifier, the first one in that order
is meant.

* `Farm.copy?`: the copy of an identifier;
* `Farm.replace`: another copy in its place;
* `Farm.remove?`: the farm without it;
* `Farm.applyEffect`, `Farm.fire`: effects of an owned copy applied to the farm's own store.
-/

namespace Homestead

/-- What one seat has. -/
structure Farm where
  seat : Seat
  store : Store
  occupations : List Copy
  improvements : List Copy
  deriving DecidableEq

namespace Farm

/-- The farm of a seat with a store and no copies. -/
def withStore (seat : Seat) (store : Store) : Farm := ⟨seat, store, [], []⟩

def new (seat : Seat) : Farm := withStore seat .empty

/-! ## Owned copies -/

/-- Every owned copy, occupations first. -/
def copies (f : Farm) : List Copy := f.occupations ++ f.improvements

def size (f : Farm) : Nat := f.occupations.length + f.improvements.length

/-- The first owned copy of an identifier. -/
def copy? (f : Farm) (id : CopyId) : Option Copy := f.copies.find? fun c => c.id = id

def owns (f : Farm) (id : CopyId) : Bool := (f.copy? id).isSome

def hasOccupation (f : Farm) (name : String) : Bool :=
  f.occupations.any fun c => c.card.name == name

def hasImprovement (f : Farm) (name : String) : Bool :=
  f.improvements.any fun c => c.card.name == name

def hasCard (f : Farm) (name : String) : Bool := f.hasOccupation name || f.hasImprovement name

def hasTag (f : Farm) (tag : String) : Bool := f.copies.any fun c => c.card.hasTag tag

def addOccupation (f : Farm) (c : Copy) : Farm := { f with occupations := f.occupations ++ [c] }

def addImprovement (f : Farm) (c : Copy) : Farm := { f with improvements := f.improvements ++ [c] }

/-- The farm with a copy more, placed by the kind of its card. -/
def add (f : Farm) (c : Copy) : Farm :=
  if c.card.isOccupation then f.addOccupation c else f.addImprovement c

/-- A list in which `c` took the place of the first copy of the same identifier, if there is one. -/
def replaceFirst? (c : Copy) : List Copy → Option (List Copy)
  | [] => none
  | d :: rest => if d.id = c.id then some (c :: rest) else (replaceFirst? c rest).map (d :: ·)

/-- The farm with another store, in which `c` took the place of the first copy of the same
identifier. -/
def replace (f : Farm) (c : Copy) (store : Store) : Farm :=
  match replaceFirst? c f.occupations with
  | some occupations => { f with store := store, occupations := occupations }
  | none =>
    { f with
      store := store
      improvements := (replaceFirst? c f.improvements).getD f.improvements }

/-- The first copy of an identifier and the list without it. -/
def takeFirst? (id : CopyId) : List Copy → Option (Copy × List Copy)
  | [] => none
  | c :: rest =>
    if c.id = id then some (c, rest) else (takeFirst? id rest).map fun (d, rest) => (d, c :: rest)

/-- The first copy of an identifier and the farm without it. -/
def remove? (f : Farm) (id : CopyId) : Option (Copy × Farm) :=
  match takeFirst? id f.occupations with
  | some (c, occupations) => some (c, { f with occupations := occupations })
  | none =>
    (takeFirst? id f.improvements).map fun (c, improvements) =>
      (c, { f with improvements := improvements })

/-- Every copy of a farm and the farm without them. -/
def removeAll (f : Farm) : List Copy × Farm :=
  (f.copies, { f with occupations := [], improvements := [] })

/-! ## Rounds and cooking -/

/-- Starts a round on the counters of all copies. -/
def resetUses (f : Farm) : Farm :=
  { f with
    occupations := f.occupations.map Copy.resetUses
    improvements := f.improvements.map Copy.resetUses }

/-- Starts a round: counters start anew, bonuses lapse and the workers are back. -/
def startRound (f : Farm) : Farm :=
  { f.resetUses with store := f.store.clearBonuses.returnWorkers }

/-- Cooks units of a resource, or nothing, and tells the food gained. -/
def cook (f : Farm) (r : Resource) (n : Count) : Farm × Amount :=
  ({ f with store := (f.store.cook r n).1 }, (f.store.cook r n).2)

/-! ## Effects of owned copies -/

/-- Applies one effect of an owned copy. Without the copy, the effect or a use left there is nothing
to apply. -/
def applyEffect (f : Farm) (id : CopyId) (i : Nat) (policy : PaymentPolicy) :
    Checked (Except Refusal (Option Farm)) := do
  match f.copy? id with
  | none => return .ok none
  | some c =>
    match ← c.applyEffect i policy f.store with
    | .error refusal => return .error refusal
    | .ok none => return .ok none
    | .ok (some (c, store)) => return .ok (some (f.replace c store))

/-- Applies several effects of an owned copy in order, up to the first refusal. -/
def fire (policy : PaymentPolicy) (id : CopyId) : List Nat → Farm → Checked (Farm × Outcome)
  | [], f => return (f, .nothing)
  | i :: rest, f => do
    match ← f.applyEffect id i policy with
    | .error refusal => return (f, .refused refusal)
    | .ok none => fire policy id rest f
    | .ok (some f) =>
      let (f, o) ← fire policy id rest f
      return (f, o.after i)

end Farm

end Homestead
