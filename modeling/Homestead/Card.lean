import Homestead.Effect
import Homestead.Price
import Homestead.Requirement

/-!
# Cards

A card is an occupation or an improvement. It says what has to be met and paid to play it, which
effects its copies have, and what it installs on the farm when it is played. Cards never change;
what changes with use is kept by the copies (`Homestead.Copy`).
-/

namespace Homestead

inductive Trade where
  | farmer
  | gatherer
  | craftsman
  | herder
  | cook
  deriving DecidableEq, Repr

namespace Trade

def name : Trade → String
  | farmer => "Farmer"
  | gatherer => "Gatherer"
  | craftsman => "Craftsman"
  | herder => "Herder"
  | cook => "Cook"

instance : Enumerated Trade where
  all := [farmer, gatherer, craftsman, herder, cook]
  name := name
  mem_all k := by cases k <;> decide
  nodup_all := by decide
  name_injective {a b} := by cases a <;> cases b <;> decide

end Trade

inductive Rank where
  | major
  | minor
  deriving DecidableEq, Repr

namespace Rank

def name : Rank → String
  | major => "Major"
  | minor => "Minor"

instance : Enumerated Rank where
  all := [major, minor]
  name := name
  mem_all k := by cases k <;> decide
  nodup_all := by decide
  name_injective {a b} := by cases a <;> cases b <;> decide

end Rank

/-- What an occupation has besides. -/
structure Occupation where
  trade : Trade
  /-- Resources that are paid on top of the prices. -/
  flatCost : Bundle
  deriving DecidableEq, Repr

/-- What an improvement has besides. -/
structure Improvement where
  rank : Rank
  /-- Can a farm have one such improvement at most? -/
  unique : Bool
  points : Amount
  /-- The cooking ratios it installs. -/
  cooking : List (Resource × Count)
  /-- The storage capacities it installs. -/
  storage : List (Resource × Count)
  deriving DecidableEq, Repr

inductive CardKind where
  | occupation (info : Occupation)
  | improvement (info : Improvement)
  deriving DecidableEq, Repr

/-- A card as it is printed. -/
structure Card where
  id : CardId
  name : String
  tags : List String
  effects : List Effect
  /-- What has to be met, each of them. -/
  requirements : List Requirement
  /-- What has to be paid, each of them. -/
  prices : List Price
  kind : CardKind
  deriving DecidableEq, Repr

namespace Card

/-! ## Making cards -/

/-- A card of a kind that has nothing yet. -/
def new (id : CardId) (name : String) (kind : CardKind) : Card := ⟨id, name, [], [], [], [], kind⟩

/-- An occupation of a farmer without a flat cost. -/
def occupation (id : CardId) (name : String) : Card := new id name (.occupation ⟨.farmer, .empty⟩)

/-- A minor improvement of which a farm can have several. -/
def improvement (id : CardId) (name : String) : Card :=
  new id name (.improvement ⟨.minor, false, 0, [], []⟩)

/-- A major improvement, of which a farm can have one. -/
def majorImprovement (id : CardId) (name : String) : Card :=
  new id name (.improvement ⟨.major, true, 0, [], []⟩)

def withTag (c : Card) (tag : String) : Card := { c with tags := c.tags ++ [tag] }

def withEffect (c : Card) (e : Effect) : Card := { c with effects := c.effects ++ [e] }

def withRequirement (c : Card) (q : Requirement) : Card :=
  { c with requirements := c.requirements ++ [q] }

def withPrice (c : Card) (p : Price) : Card := { c with prices := c.prices ++ [p] }

/-- The card with a changed occupation part; an improvement stays as it is. -/
def mapOccupation (c : Card) (f : Occupation → Occupation) : Card :=
  match c.kind with
  | .occupation info => { c with kind := .occupation (f info) }
  | .improvement _ => c

/-- The card with a changed improvement part; an occupation stays as it is. -/
def mapImprovement (c : Card) (f : Improvement → Improvement) : Card :=
  match c.kind with
  | .occupation _ => c
  | .improvement info => { c with kind := .improvement (f info) }

def withTrade (c : Card) (trade : Trade) : Card :=
  c.mapOccupation fun info => { info with trade := trade }

def withFlatCost (c : Card) (r : Resource) (n : Amount) : Card :=
  c.mapOccupation fun info => { info with flatCost := info.flatCost.push r n }

def withPoints (c : Card) (points : Amount) : Card :=
  c.mapImprovement fun info => { info with points := points }

def withCooking (c : Card) (r : Resource) (ratio : Count) : Card :=
  c.mapImprovement fun info => { info with cooking := info.cooking ++ [(r, ratio)] }

def withStorage (c : Card) (r : Resource) (capacity : Count) : Card :=
  c.mapImprovement fun info => { info with storage := info.storage ++ [(r, capacity)] }

/-! ## Reading cards -/

def isOccupation (c : Card) : Bool :=
  match c.kind with
  | .occupation _ => true
  | .improvement _ => false

def isImprovement (c : Card) : Bool := !c.isOccupation

/-- Is the card an improvement of which a farm can have one? -/
def isUnique (c : Card) : Bool :=
  match c.kind with
  | .occupation _ => false
  | .improvement info => info.unique

def hasTag (c : Card) (tag : String) : Bool := c.tags.contains tag

/-- The victory points that playing the card gives. -/
def points (c : Card) : Amount :=
  match c.kind with
  | .occupation _ => 0
  | .improvement info => info.points

def flatCost (c : Card) : Bundle :=
  match c.kind with
  | .occupation info => info.flatCost
  | .improvement _ => .empty

def cooking (c : Card) : List (Resource × Count) :=
  match c.kind with
  | .occupation _ => []
  | .improvement info => info.cooking

def storage (c : Card) : List (Resource × Count) :=
  match c.kind with
  | .occupation _ => []
  | .improvement info => info.storage

/-- The positions of the effects that fire at a moment. -/
def effectsAt (c : Card) (moment : Moment) : List Nat :=
  (c.effects.zipIdx.filter fun e => e.1.moment = moment).map Prod.snd

end Card

end Homestead
