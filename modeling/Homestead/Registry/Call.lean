import Homestead.Registry.Dispatch

/-!
# Calls to a registry

A call is one operation on a registry as data, with the farms that it is made on, and a reply is
what it returned. `Registry.call` makes a call and `Registry.callAll` several in order; the farms
may be others at each call.
-/

namespace Homestead

/-- An operation on a registry, with the farms that it is made on. -/
inductive Call where
  | register (farms : Seating Farm) (seat : Seat) (copy : CopyId)
  | unregister (seat : Seat) (copy : CopyId)
  | unregisterSeat (seat : Seat)
  | clear
  | execute (farms : Seating Farm) (ms : List Match) (event : Event)
  | trigger (farms : Seating Farm) (seat : Seat) (event : Event)
  | triggerAll (farms : Seating Farm) (seats : List Seat) (event : Event)

/-- Does the call apply effects, if it finds any? -/
def Call.isDispatch : Call → Bool
  | .execute .. | .trigger .. | .triggerAll .. => true
  | _ => false

/-- What a call returned. -/
inductive Reply where
  /-- Whether the call registered the copy. -/
  | registered (done : Bool)
  /-- Whether the call ended a registration of the copy. -/
  | unregistered (done : Bool)
  /-- How many registrations the call ended. -/
  | seatUnregistered (count : Nat)
  | cleared
  | dispatched (farms : Seating Farm) (report : Report)

namespace Registry

/-- The reply of a dispatch. -/
def dispatching (result : Checked (Registry × Seating Farm × Report)) :
    Checked (Registry × Reply) := do
  let (r, farms, report) ← result
  return (r, .dispatched farms report)

def call (r : Registry) : Call → Checked (Registry × Reply)
  | .register farms seat id =>
    return (r.register farms seat id, .registered (r.register? farms seat id).isSome)
  | .unregister seat id =>
    return (r.unregister seat id, .unregistered (r.unregister? seat id).isSome)
  | .unregisterSeat seat => return (r.unregisterSeat seat, .seatUnregistered (r.countOf seat))
  | .clear => return (r.clear, .cleared)
  | .execute farms ms event => dispatching (r.execute farms ms event)
  | .trigger farms seat event => dispatching (r.trigger farms seat event)
  | .triggerAll farms seats event => dispatching (r.triggerAll farms seats event)

/-- Makes several calls in order and lists the replies. -/
def callAll : List Call → Registry → Checked (Registry × List Reply)
  | [], r => return (r, [])
  | c :: rest, r => do
    let (r, reply) ← r.call c
    let (r, replies) ← callAll rest r
    return (r, reply :: replies)

end Registry

end Homestead
