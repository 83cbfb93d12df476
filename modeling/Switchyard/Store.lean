import Switchyard.Network.Change
import Switchyard.Variant

/-!
A store of all variants of a network.

Variants are kept by number. The store counts generations: every change of a network, and every
clone, draws one that no level has had before. A change draws its generation before it is known
whether it can be made, so a change that fails alters the counter and nothing else.
-/

namespace Switchyard

/-- A variant with its network. -/
structure Variant where
  number : UInt32
  name : String
  network : Network
  deriving DecidableEq, Repr

namespace Variant

/-- The variant as sessions see it. -/
def info (variant : Variant) : VariantInfo := ⟨variant.number, variant.name⟩

/-- The empty variant that every network starts with. -/
def initial : Variant := ⟨initialVariantNumber, initialVariantName, {}⟩

end Variant

/-- All variants of a network, by number. -/
structure Store where
  variants : Ascending Variant.number
  /-- The last generation drawn. Fewer than `2 ^ 64` changes are meant: a counter of 64 bits does
  not wrap, and no generation is drawn twice. -/
  lastGeneration : Nat := 0
  deriving DecidableEq, Repr

namespace Store

/-- The store that holds the empty initial variant. -/
def new : Store := { variants := .insert ∅ Variant.initial }

instance : Inhabited Store := ⟨new⟩

/-- The variant with a number. -/
def variant? (store : Store) (number : UInt32) : Option Variant := store.variants.get? number

/-- The network of the variant with a number. -/
def network (store : Store) (number : UInt32) : Except Fault Network :=
  match store.variant? number with
  | none => .error (.variantNumberUnknown number)
  | some variant => .ok variant.network

/-- The numbers and names of all variants, by number. -/
def infos (store : Store) : List VariantInfo := store.variants.toList.map Variant.info

/-- The voltage level of a variant. -/
def level (store : Store) (number : UInt32) (level : String) :
    Except Fault (Resource VoltageLevel) := do
  let network ← store.network number
  match network.level? level with
  | none => throw (.voltageLevelUnknown level)
  | some found => return found

/-- The injections of one type in a level. -/
def injections (store : Store) (number : UInt32) (level : String) (type : ResourceType) :
    Except Fault (List (Resource Terminal)) := do
  unless type.isInjection do throw (.notInjection type)
  let network ← store.network number
  return network.injectionsAt level type

/-- The branches of one type with an end in a level. -/
def branches (store : Store) (number : UInt32) (level : String) (type : ResourceType) :
    Except Fault (List (Resource Branch)) := do
  unless type.isBranch do throw (.notBranch type)
  let network ← store.network number
  return network.branchesAt level type

/-- The three-winding transformers with a leg in a level. -/
def transformers (store : Store) (number : UInt32) (level : String) :
    Except Fault (List (Resource Transformer)) := do
  let network ← store.network number
  return network.transformersAt level

/-- The switches of a level. -/
def switches (store : Store) (number : UInt32) (level : String) :
    Except Fault (List (Resource Switch)) := do
  let network ← store.network number
  return network.switchesAt level

end Store

end Switchyard
