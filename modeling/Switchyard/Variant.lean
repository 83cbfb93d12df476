import Switchyard.Fault

/-!
Variants as sessions see them.

A network starts with one variant and is cloned into others. A variant has a name and a number, and
its resources are stored under the number. Numbers are reused: a clone gets the lowest one that is
free.
-/

namespace Switchyard

/-- The name of the variant that every network starts with. -/
def initialVariantName : String := "InitialVariant"

/-- The number of the initial variant. -/
def initialVariantNumber : UInt32 := 0

/-- A variant's number and name. -/
structure VariantInfo where
  number : UInt32
  name : String
  deriving DecidableEq, Repr

namespace VariantInfo

/-- The first variant of the list with the name. -/
def find? (name : String) (infos : List VariantInfo) : Option VariantInfo :=
  infos.find? (·.name = name)

/-- The number of the first variant of the list with the name. -/
def numberOf (name : String) (infos : List VariantInfo) : Except Fault UInt32 :=
  match find? name infos with
  | none => .error (.variantUnknown name)
  | some info => .ok info.number

/-- Whether no variant of the list has the number. -/
def isFree (infos : List VariantInfo) (number : Nat) : Bool :=
  infos.all (·.number.toNat ≠ number)

/-- The first free number from `number` on, if it is among the next `left` numbers. -/
def firstFree? (infos : List VariantInfo) : (left number : Nat) → Option Nat
  | 0, _ => none
  | left + 1, number =>
    if isFree infos number then some number else firstFree? infos left (number + 1)

/-- The lowest number that no variant of the list has. Numbers are tried one after another from 0
on; the greatest is left if all the others are in use. -/
def lowestFree (infos : List VariantInfo) : UInt32 :=
  .ofNat ((firstFree? infos (UInt32.size - 1) 0).getD (UInt32.size - 1))

end VariantInfo

end Switchyard
