import Homestead.Registry

/-!
# Dispatch

Dispatching an event has two halves. Finding (`Registry.find`) lists, for a seat, each registered
copy with the positions of its effects that fire. Executing (`Registry.execute`) applies the
effects of such a list in order, whenever the list was made: an effect is applied only if its copy
is still there and its limit still allows it. A refusal ends the match in which it occurs and no
other.
-/

namespace Homestead

/-- A copy of a seat and the positions of those of its effects that are to be applied. -/
structure Match where
  seat : Seat
  copy : CopyId
  effects : List Nat
  deriving DecidableEq, Repr

/-- What became of a match. -/
structure Firing where
  aim : Match
  outcome : Outcome
  deriving DecidableEq, Repr

/-- What became of a list of matches at a moment. -/
structure Report where
  moment : Moment
  firings : List Firing
  deriving DecidableEq, Repr

namespace Report

/-- The positions of all effects that were applied, in order. -/
def fired (r : Report) : List Nat := r.firings.flatMap fun f => f.outcome.applied

def executed (r : Report) : Nat := r.fired.length

/-- The refusals that ended matches, in order. -/
def refusals (r : Report) : List Refusal := r.firings.filterMap fun f => f.outcome.failure

/-- The matches with the effects that were applied. -/
def applied (r : Report) : List Match :=
  r.firings.map fun f => { f.aim with effects := f.outcome.applied }

end Report

/-! ## Finding -/

/-- Does the effect at a position pass a free-text filter? The empty filter lets everything pass. -/
def Copy.passes (c : Copy) (filter : String) (i : Nat) : Bool :=
  filter == "" ||
    match c.card.effects[i]? with
    | some e => Text.related e.conditionText filter
    | none => false

/-- The match of an owned copy with an event, if any of its effects fires. -/
def Farm.match? (f : Farm) (seat : Seat) (event : Event) (id : CopyId) : Option Match := do
  let c ← f.copy? id
  let effects := (c.answers event).filter (c.passes event.filterText)
  guard (effects ≠ [])
  return ⟨seat, id, effects⟩

namespace Registry

/-- The matches of a seat's registered copies with an event, in the order of registration. -/
def find (r : Registry) (farms : Seating Farm) (seat : Seat) (event : Event) : List Match :=
  match farms.get? seat with
  | none => []
  | some farm => (r.copiesOf seat).filterMap (farm.match? seat event)

/-- The matches of several seats, one seat after the other. -/
def findAll (r : Registry) (farms : Seating Farm) (seats : List Seat) (event : Event) :
    List Match :=
  seats.flatMap fun seat => r.find farms seat event

end Registry

/-! ## Executing -/

/-- Applies the effects of a match to its seat's farm, up to the first refusal. -/
def Match.fire (policy : PaymentPolicy) (m : Match) (farms : Seating Farm) :
    Checked (Seating Farm × Firing) := do
  match farms.get? m.seat with
  | none => return (farms, ⟨m, .nothing⟩)
  | some farm =>
    let (farm, outcome) ← farm.fire policy m.copy m.effects
    return (farms.set m.seat farm, ⟨m, outcome⟩)

/-- Applies the effects of several matches, one match after the other. -/
def Match.fireAll (policy : PaymentPolicy) :
    List Match → Seating Farm → Checked (Seating Farm × List Firing)
  | [], farms => return (farms, [])
  | m :: rest, farms => do
    let (farms, firing) ← m.fire policy farms
    let (farms, firings) ← fireAll policy rest farms
    return (farms, firing :: firings)

namespace Registry

/-- The registry after a report, which its counters include. -/
def tally (r : Registry) (report : Report) : Registry :=
  { r with
    processed := r.processed + 1
    executed := r.executed + report.executed
    failures := r.failures + report.refusals.length }

/-- Executes a list of matches on the occasion of an event. -/
def execute (r : Registry) (farms : Seating Farm) (ms : List Match) (event : Event) :
    Checked (Registry × Seating Farm × Report) := do
  let (farms, firings) ← Match.fireAll r.policy ms farms
  let report : Report := ⟨event.moment, firings⟩
  return (r.tally report, farms, report)

def trigger (r : Registry) (farms : Seating Farm) (seat : Seat) (event : Event) :
    Checked (Registry × Seating Farm × Report) :=
  r.execute farms (r.find farms seat event) event

/-- Dispatches an event to several seats: everything is found before anything is applied. -/
def triggerAll (r : Registry) (farms : Seating Farm) (seats : List Seat) (event : Event) :
    Checked (Registry × Seating Farm × Report) :=
  r.execute farms (r.findAll farms seats event) event

end Registry

end Homestead
