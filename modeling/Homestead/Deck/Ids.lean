import Homestead.Identifier

/-!
# The identifiers of the customary cards

Occupations have numbers from 1001, improvements from 2001.
-/

namespace Homestead.Deck

def woodCutterId : CardId := ⟨1001⟩

def seasonalWorkerId : CardId := ⟨1002⟩

def firewoodCollectorId : CardId := ⟨1003⟩

def hedgeKeeperId : CardId := ⟨1004⟩

def carpenterId : CardId := ⟨1005⟩

def animalTamerId : CardId := ⟨1006⟩

def fieldWatchmanId : CardId := ⟨1007⟩

def stablehandId : CardId := ⟨1008⟩

def fireplaceId : CardId := ⟨2001⟩

def clayOvenId : CardId := ⟨2002⟩

def wellId : CardId := ⟨2003⟩

def granaryId : CardId := ⟨2004⟩

def basketmakersWorkshopId : CardId := ⟨2005⟩

def joineryId : CardId := ⟨2006⟩

def cornScoopId : CardId := ⟨2007⟩

end Homestead.Deck
