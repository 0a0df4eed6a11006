/-!
# Identifiers

Cards, owned copies of cards and the effects of one card are identified by numbers of 32 bits. The
three kinds of identifier are told apart by their types and by how they are shown.
-/

namespace Homestead

/-- The identifier of a card, the same for all its copies. -/
structure CardId where
  number : UInt32
  deriving DecidableEq, Hashable, Repr

/-- The identifier of one owned copy of a card. -/
structure CopyId where
  number : UInt32
  deriving DecidableEq, Hashable, Repr

/-- The identifier of an effect within its card. -/
structure EffectId where
  number : UInt32
  deriving DecidableEq, Hashable, Repr

instance : ToString CardId := ⟨fun id => "Card(" ++ toString id.number.toNat ++ ")"⟩

instance : ToString CopyId := ⟨fun id => "Instance(" ++ toString id.number.toNat ++ ")"⟩

instance : ToString EffectId := ⟨fun id => "Effect(" ++ toString id.number.toNat ++ ")"⟩

end Homestead
