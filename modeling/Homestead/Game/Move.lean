import Homestead.Game

/-!
# Moves

A move is one operation on a game as data, and a turn is what came of it. `Game.step` makes a move;
a refused move leaves the game as it was. `Game.run` makes several in order.
-/

namespace Homestead

inductive Move where
  | play (seat : Seat) (card : Card)
  | discard (seat : Seat) (copy : CopyId)
  | discardAll (seat : Seat)
  | cook (seat : Seat) (resource : Resource) (units : Count)
  | trigger (seat : Seat) (event : Event)
  | triggerAll (event : Event)
  | act (seat : Seat) (action : Action)
  | endTurn (seat : Seat)
  | beginRound
  | harvest
  | clearRegistry
  | rebuildRegistry

/-- What came of a move. -/
inductive Turn where
  | refused (cause : Refusal)
  | played (play : Played)
  | discarded (copies : List Copy)
  | cooked (food : Amount)
  | dispatched (reports : List Report)
  | cleared
  | registered (count : Nat)

/-- Something that went wrong without the move's being refused. -/
inductive Warning where
  /-- A refusal ended a match. -/
  | matchEnded (cause : Refusal)
  /-- A refusal stopped the effects of a card at the moment of play. -/
  | playStopped (cause : Refusal)

namespace Warning

/-- What a warning is about. -/
def topic : Warning → String
  | matchEnded _ => "effect application failed"
  | playStopped _ => "immediate effect failed"

/-- The refusal behind a warning. -/
def cause : Warning → Refusal
  | matchEnded cause => cause
  | playStopped cause => cause

end Warning

/-- The warnings of a report, in order. -/
def Report.warnings (r : Report) : List Warning := r.refusals.map .matchEnded

namespace Turn

/-- The warnings of a turn, in order. -/
def warnings : Turn → List Warning
  | played play => play.outcome.failure.toList.map .playStopped
  | dispatched reports => reports.flatMap Report.warnings
  | _ => []

/-- The number of effects that dispatching applied. -/
def executed : Turn → Nat
  | dispatched reports => (reports.flatMap Report.fired).length
  | _ => 0

end Turn

namespace Game

/-- The turn of a dispatch to one seat. -/
def single (step : Checked (Game × Report)) : Checked (Game × Turn) := do
  let (g, report) ← step
  return (g, .dispatched [report])

/-- The turn of a dispatch to several seats. -/
def several (step : Checked (Game × List Report)) : Checked (Game × Turn) := do
  let (g, reports) ← step
  return (g, .dispatched reports)

/-- The turn of an operation that can be refused; refused, it leaves the game as it was. -/
def unlessRefused {α : Type} (g : Game) (turn : α → Turn) : Except Refusal (Game × α) → Game × Turn
  | .ok (g, a) => (g, turn a)
  | .error cause => (g, .refused cause)

def step (g : Game) : Move → Checked (Game × Turn)
  | .play seat card => do return g.unlessRefused .played (← g.play seat card)
  | .discard seat id => return g.unlessRefused (fun c => .discarded [c]) (g.discard seat id)
  | .discardAll seat => return g.unlessRefused .discarded (g.discardAll seat)
  | .cook seat r n => return g.unlessRefused .cooked (g.cook seat r n)
  | .trigger seat event => single (g.trigger seat event)
  | .triggerAll event => several (g.triggerAll event)
  | .act seat action => single (g.act seat action)
  | .endTurn seat => single (g.endTurn seat)
  | .beginRound => several g.beginRound
  | .harvest => several g.harvest
  | .clearRegistry => return (g.clearRegistry, .cleared)
  | .rebuildRegistry => return (g.rebuildRegistry.1, .registered g.rebuildRegistry.2)

/-- Makes several moves in order and lists what came of each. -/
def run : List Move → Game → Checked (Game × List Turn)
  | [], g => return (g, [])
  | move :: rest, g => do
    let (g, turn) ← g.step move
    let (g, turns) ← run rest g
    return (g, turn :: turns)

end Game

end Homestead
