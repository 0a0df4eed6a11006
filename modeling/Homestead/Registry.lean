import Homestead.Farm

/-!
# The registry

The registry lists, for each seat, the copies whose effects can be triggered, in the order in which
they were registered, and counts what dispatching did. Only a copy that the seat owns can be
registered, and only once. A seat is listed while it has a registered copy.

* `Registry.copiesOf`: the registered copies of a seat, in order;
* `Registry.register?`, `Registry.unregister?`, `Registry.unregisterSeat`, `Registry.clear`;
* `Registry.stats`: the counters.
-/

namespace Homestead

structure Stats where
  /-- Registered copies of all seats. -/
  registered : Nat
  /-- Lists of matches that were executed. -/
  processed : Nat
  /-- Effects that were applied. -/
  executed : Nat
  /-- Matches that a refusal stopped. -/
  failures : Nat
  deriving DecidableEq, Repr

/-- The registered copies and the counters of a game. -/
structure Registry where
  policy : PaymentPolicy
  /-- The registered copies of each seat that has any. -/
  listed : List (Seat × List CopyId)
  processed : Nat
  executed : Nat
  failures : Nat
  deriving DecidableEq

namespace Registry

/-- The registry without entries under a payment policy. -/
def new (policy : PaymentPolicy) : Registry := ⟨policy, [], 0, 0, 0⟩

/-- The registered copies of a seat, in the order of registration. -/
def copiesOf (r : Registry) (seat : Seat) : List CopyId := (r.listed.lookup seat).getD []

def isRegistered (r : Registry) (seat : Seat) (id : CopyId) : Bool := id ∈ r.copiesOf seat

def countOf (r : Registry) (seat : Seat) : Nat := (r.copiesOf seat).length

/-- The number of registered copies of all seats. -/
def size (r : Registry) : Nat := (r.listed.flatMap Prod.snd).length

def isEmpty (r : Registry) : Bool := r.listed.isEmpty

def stats (r : Registry) : Stats := ⟨r.size, r.processed, r.executed, r.failures⟩

/-- The list with one more copy at the end of a seat's entry. -/
def enter (seat : Seat) (id : CopyId) : List (Seat × List CopyId) → List (Seat × List CopyId)
  | [] => [(seat, [id])]
  | (other, ids) :: rest =>
    if other = seat then (other, ids ++ [id]) :: rest else (other, ids) :: enter seat id rest

/-- The list without a copy of a seat; the seat's entry goes with its last copy. -/
def strike (seat : Seat) (id : CopyId) : List (Seat × List CopyId) → List (Seat × List CopyId)
  | [] => []
  | (other, ids) :: rest =>
    if other = seat then
      if (ids.erase id).isEmpty then rest else (other, ids.erase id) :: rest
    else (other, ids) :: strike seat id rest

/-- Registers a copy that the seat's farm owns and that is not registered yet. -/
def register? (r : Registry) (farms : Seating Farm) (seat : Seat) (id : CopyId) :
    Option Registry := do
  let farm ← farms.get? seat
  guard (farm.owns id ∧ ¬r.isRegistered seat id)
  return { r with listed := enter seat id r.listed }

/-- Registers a copy if that is possible. -/
def register (r : Registry) (farms : Seating Farm) (seat : Seat) (id : CopyId) : Registry :=
  (r.register? farms seat id).getD r

/-- Ends the registration of a copy that is registered. -/
def unregister? (r : Registry) (seat : Seat) (id : CopyId) : Option Registry :=
  if r.isRegistered seat id then some { r with listed := strike seat id r.listed } else none

/-- Ends the registration of a copy if it is registered. -/
def unregister (r : Registry) (seat : Seat) (id : CopyId) : Registry :=
  (r.unregister? seat id).getD r

def unregisterSeat (r : Registry) (seat : Seat) : Registry :=
  { r with listed := r.listed.filter fun e => e.1 ≠ seat }

/-- Ends every registration and starts the counters anew. -/
def clear (r : Registry) : Registry := new r.policy

end Registry

end Homestead
