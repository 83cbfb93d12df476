import Switchyard.Fault
import Switchyard.Network

/-!
Changes to the network of one variant.

Each change that can alter what is listed for a level gives that level a new generation and takes
back its valid flag (`touch`). A level is touched once for every listing that changes: at both ends
of a branch, at all legs of a transformer, and at every level of everything removed under one id.
A change that fails leaves no network.
-/

namespace Switchyard

/-- The level with a new generation, its calculated buses no longer valid. -/
def VoltageLevel.touch (generation : Nat) (level : VoltageLevel) : VoltageLevel :=
  { level with valid := false, generation }

/-- The list with `f` applied to the first member that satisfies `p`. -/
def modifyFirst {α : Type} (p : α → Bool) (f : α → α) : List α → List α
  | [] => []
  | x :: xs => if p x then f x :: xs else x :: modifyFirst p f xs

namespace Network

/-- The network with the attributes of the levels that satisfy `p` updated. -/
def updateLevels (p : String → Bool) (f : VoltageLevel → VoltageLevel) (network : Network) :
    Network :=
  { network with
    levels := network.levels.map
      (fun r => if p r.id then { r with attributes := f r.attributes } else r)
      (fun r => by split <;> rfl) }

/-- Marks the listings of the given levels as changed. Levels that do not exist are passed over. -/
def touch (ids : List String) (generation : Nat) (network : Network) : Network :=
  network.updateLevels (ids.contains ·) (·.touch generation)

/-- Marks all levels as changed. -/
def touchAll (generation : Nat) (network : Network) : Network :=
  network.updateLevels (fun _ => true) (·.touch generation)

/-- Enters a voltage level, in place of one with the same id. -/
def addLevel (level : Resource VoltageLevel) (generation : Nat) (network : Network) : Network :=
  { network with levels := network.levels.insert level }.touch [level.id] generation

/-- Enters a resource with a single terminal. -/
def addInjection (injection : Resource Terminal) (generation : Nat) (network : Network) :
    Network :=
  { network with injections := network.injections ++ [injection] }.touch
    [injection.attributes.level] generation

/-- Enters a resource with two ends. -/
def addBranch (branch : Resource Branch) (generation : Nat) (network : Network) : Network :=
  { network with branches := network.branches ++ [branch] }.touch
    branch.attributes.levels generation

/-- Enters a three-winding transformer. -/
def addTransformer (transformer : Resource Transformer) (generation : Nat) (network : Network) :
    Network :=
  { network with transformers := network.transformers ++ [transformer] }.touch
    transformer.attributes.levels generation

/-- Enters a switch. -/
def addSwitch (switch : Resource Switch) (generation : Nat) (network : Network) : Network :=
  { network with switches := network.switches ++ [switch] }.touch
    [switch.attributes.level] generation

/-- Updates the first switch with the id. -/
def updateSwitch (id : String) (f : Switch → Switch) (generation : Nat) (network : Network) :
    Except Fault Network :=
  match network.switches.find? (·.id = id) with
  | none => .error (.switchUnknown id)
  | some switch =>
    .ok <| { network with
      switches := modifyFirst (·.id = id) (fun r => { r with attributes := f r.attributes })
        network.switches }.touch [(f switch.attributes).level] generation

/-- The levels named by all equipment and switches with the id. -/
def levelsOf (id : String) (network : Network) : List String :=
  (network.injections.filter (·.id = id)).map (·.attributes.level) ++
  (network.branches.filter (·.id = id)).flatMap (·.attributes.levels) ++
  (network.transformers.filter (·.id = id)).flatMap (·.attributes.levels) ++
  (network.switches.filter (·.id = id)).map (·.attributes.level)

/-- Removes all equipment and switches with the id. -/
def removeEquipment (id : String) (generation : Nat) (network : Network) :
    Except Fault Network :=
  match network.levelsOf id with
  | [] => .error (.equipmentUnknown id)
  | levels =>
    .ok <| { network with
      injections := network.injections.filter (·.id ≠ id)
      branches := network.branches.filter (·.id ≠ id)
      transformers := network.transformers.filter (·.id ≠ id)
      switches := network.switches.filter (·.id ≠ id) }.touch levels generation

/-- Sets whether buses calculated for the level may be served. -/
def setValid (level : String) (valid : Bool) (network : Network) : Except Fault Network :=
  match network.level? level with
  | none => .error (.voltageLevelUnknown level)
  | some _ => .ok (network.updateLevels (· = level) ({ · with valid }))

end Network

end Switchyard
