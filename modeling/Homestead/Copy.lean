import Homestead.Effect.Apply

/-!
# Copies

A copy is a card in somebody's possession. It keeps a counter of uses for each effect of its card,
so two copies of one card never share a limit.

* `Copy.answers`: which effects fire for an event;
* `Copy.applyEffect`: applies one effect if its limit allows it, and counts the use;
* `Copy.applyAll`: applies several in order, up to the first that is refused;
* `Copy.trigger`: applies all that fire for an event.
-/

namespace Homestead

/-- An owned copy of a card. -/
structure Copy where
  id : CopyId
  card : Card
  /-- The counters of the card's effects, in the order of the effects. -/
  uses : List Uses
  deriving DecidableEq

/-- What became of applying several effects of a copy in order. -/
structure Outcome where
  /-- The positions of the effects that were applied, in order. -/
  applied : List Nat
  /-- The refusal at which the application stopped, if there was one. -/
  failure : Option Refusal
  deriving DecidableEq, Repr

namespace Outcome

/-- Nothing was applied and nothing refused. -/
def nothing : Outcome := ⟨[], none⟩

/-- The very first effect was refused. -/
def refused (cause : Refusal) : Outcome := ⟨[], some cause⟩

/-- The outcome in which the effect at one more position was applied before all others. -/
def after (i : Nat) (o : Outcome) : Outcome := { o with applied := i :: o.applied }

def count (o : Outcome) : Nat := o.applied.length

/-- The number of effects that were applied, if the application did not stop at a refusal. -/
def result (o : Outcome) : Except Refusal Nat :=
  match o.failure with
  | some cause => .error cause
  | none => .ok o.count

end Outcome

namespace Copy

/-- A new copy, none of whose effects was used. -/
def new (id : CopyId) (card : Card) : Copy := ⟨id, card, card.effects.map fun _ => .fresh⟩

/-! ## Uses -/

/-- May the effect at a position be applied once more? -/
def canApply (c : Copy) (i : Nat) : Bool :=
  match c.card.effects[i]?, c.uses[i]? with
  | some e, some u => u.allows e.limit
  | _, _ => false

/-- Starts a round on the counters of the copy. -/
def resetUses (c : Copy) : Copy :=
  { c with uses := List.zipWith (fun u e => u.reset e.limit) c.uses c.card.effects }

/-! ## Events -/

def accepts (c : Copy) (payload : Payload) (i : Nat) : Bool :=
  match c.card.effects[i]? with
  | some e => e.accepts payload
  | none => false

/-- The positions of the effects that fire for an event: they are of its moment, may be applied once
more and accept its payload. -/
def answers (c : Copy) (event : Event) : List Nat :=
  ((c.card.effectsAt event.moment).filter c.canApply).filter (c.accepts event.payload)

/-! ## Applying effects -/

/-- Applies the effect at a position and counts the use. Without such an effect, or past its limit,
there is nothing to apply. -/
def applyEffect (c : Copy) (i : Nat) (policy : PaymentPolicy) (s : Store) :
    Checked (Except Refusal (Option (Copy × Store))) := do
  match c.card.effects[i]?, c.uses[i]? with
  | some e, some u =>
    match u.record? e.limit with
    | none => return .ok none
    | some u =>
      match ← e.apply c.card policy s with
      | .error refusal => return .error refusal
      | .ok s => return .ok (some ({ c with uses := c.uses.set i u }, s))
  | _, _ => return .ok none

/-- Applies the effects at several positions in order. The first refusal stops it; what was applied
before stays. -/
def applyAll (policy : PaymentPolicy) :
    List Nat → Copy → Store → Checked (Copy × Store × Outcome)
  | [], c, s => return (c, s, .nothing)
  | i :: rest, c, s => do
    match ← c.applyEffect i policy s with
    | .error refusal => return (c, s, .refused refusal)
    | .ok none => applyAll policy rest c s
    | .ok (some (c, s)) =>
      let (c, s, o) ← applyAll policy rest c s
      return (c, s, o.after i)

def trigger (c : Copy) (event : Event) (policy : PaymentPolicy) (s : Store) :
    Checked (Copy × Store × Outcome) :=
  applyAll policy (c.answers event) c s

end Copy

end Homestead
