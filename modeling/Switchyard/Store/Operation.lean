import Switchyard.Store

/-!
The operations that change a store.

`Store.apply` carries out one operation and says whether it succeeded. Whether a resource belongs to
the family it is added to is checked before anything else, and draws no generation.
-/

namespace Switchyard

/-- A change of a store. -/
inductive Operation where
  | addLevel (variant : UInt32) (level : Resource VoltageLevel)
  | addInjection (variant : UInt32) (injection : Resource Terminal)
  | addBranch (variant : UInt32) (branch : Resource Branch)
  | addTransformer (variant : UInt32) (transformer : Resource Transformer)
  | addSwitch (variant : UInt32) (switch : Resource Switch)
  | setOpen (variant : UInt32) (switch : String) (value : Bool)
  | setRetained (variant : UInt32) (switch : String) (value : Bool)
  | removeEquipment (variant : UInt32) (id : String)
  | setValid (variant : UInt32) (level : String) (value : Bool)
  | clone (source target : UInt32) (name : String)
  | delete (variant : UInt32)
  deriving DecidableEq, Repr

namespace Store

/-- The store with its next generation drawn. -/
def draw (store : Store) : Store := { store with lastGeneration := store.lastGeneration + 1 }

/-- Changes the network of a variant, with a generation that was never drawn before. -/
def write (store : Store) (number : UInt32) (change : Nat → Network → Except Fault Network) :
    Except Fault Unit × Store :=
  let drawn := store.draw
  match drawn.variant? number with
  | none => (.error (.variantNumberUnknown number), drawn)
  | some variant =>
    match change drawn.lastGeneration variant.network with
    | .error fault => (.error fault, drawn)
    | .ok network =>
      (.ok (), { drawn with variants := drawn.variants.insert { variant with network } })

/-- Stores a copy of a variant under another number and name. All levels of the copy get a new
generation. -/
def cloneVariant (store : Store) (source target : UInt32) (name : String) :
    Except Fault Unit × Store :=
  if store.variants.hasKey target then
    (.error (.variantNumberTaken target), store)
  else if store.variants.toList.any (·.name = name) then
    (.error (.variantExists name), store)
  else
    match store.variant? source with
    | none => (.error (.variantNumberUnknown source), store)
    | some variant =>
      let drawn := store.draw
      let network := variant.network.touchAll drawn.lastGeneration
      (.ok (), { drawn with variants := drawn.variants.insert ⟨target, name, network⟩ })

/-- Removes the variant with a number. -/
def deleteVariant (store : Store) (number : UInt32) : Except Fault Unit × Store :=
  if store.variants.hasKey number then
    (.ok (), { store with variants := store.variants.erase number })
  else
    (.error (.variantNumberUnknown number), store)

/-- Carries out an operation. -/
def apply (store : Store) : Operation → Except Fault Unit × Store
  | .addLevel variant level => store.write variant fun g n => .ok (n.addLevel level g)
  | .addInjection variant injection =>
    if injection.type.isInjection then
      store.write variant fun g n => .ok (n.addInjection injection g)
    else
      (.error (.notInjectionArgument injection.type), store)
  | .addBranch variant branch =>
    if branch.type.isBranch then
      store.write variant fun g n => .ok (n.addBranch branch g)
    else
      (.error (.notBranchArgument branch.type), store)
  | .addTransformer variant transformer =>
    store.write variant fun g n => .ok (n.addTransformer transformer g)
  | .addSwitch variant switch => store.write variant fun g n => .ok (n.addSwitch switch g)
  | .setOpen variant switch value =>
    store.write variant fun g n => n.updateSwitch switch ({ · with isOpen := value }) g
  | .setRetained variant switch value =>
    store.write variant fun g n => n.updateSwitch switch ({ · with isRetained := value }) g
  | .removeEquipment variant id => store.write variant fun g n => n.removeEquipment id g
  | .setValid variant level value => store.write variant fun _ n => n.setValid level value
  | .clone source target name => store.cloneVariant source target name
  | .delete variant => store.deleteVariant variant

/-- The store after an operation, whether or not it succeeded. -/
def after (store : Store) (operation : Operation) : Store := (store.apply operation).2

end Store

end Switchyard
