import Homestead.Bundle

/-!
# Requirements

What a farm must have, without spending it, before a card can be played. All parts of a requirement
have to hold; a part that was not set always does.
-/

namespace Homestead

/-- What a farm must have to play a card. -/
structure Requirement where
  resources : Bundle
  family : Count
  rooms : Count
  fields : Count
  pastures : Count
  /-- The names of cards that have to be owned. -/
  cards : List String
  /-- The tags of which an owned card has to carry each. -/
  tags : List String
  deriving DecidableEq, Repr

namespace Requirement

def nothing : Requirement := ⟨.empty, 0, 0, 0, 0, [], []⟩

def withResource (q : Requirement) (r : Resource) (n : Amount) : Requirement :=
  { q with resources := q.resources.push r n }

def withFamily (q : Requirement) (n : Count) : Requirement := { q with family := n }

def withRooms (q : Requirement) (n : Count) : Requirement := { q with rooms := n }

def withFields (q : Requirement) (n : Count) : Requirement := { q with fields := n }

def withPastures (q : Requirement) (n : Count) : Requirement := { q with pastures := n }

def withCard (q : Requirement) (name : String) : Requirement :=
  { q with cards := q.cards ++ [name] }

def withTag (q : Requirement) (tag : String) : Requirement := { q with tags := q.tags ++ [tag] }

end Requirement

end Homestead
