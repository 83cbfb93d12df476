import Switchyard.Fault

/-!
What a piece of equipment is electrically.

A kind of equipment is coarser than the type of its resource: both sorts of converter station are
one kind. Busbar sections carry current without feeding or drawing any, and a branch leads from its
point to another part of the network; these two distinctions decide what counts as a bus.
-/

namespace Switchyard

/-- The kinds of equipment that attach to a topology point. -/
inductive EquipmentKind where
  | load
  | generator
  | battery
  | shuntCompensator
  | danglingLine
  | staticVarCompensator
  | line
  | twoWindingsTransformer
  | threeWindingsTransformer
  | hvdcConverterStation
  | busbarSection
  deriving DecidableEq, Repr, Inhabited

namespace EquipmentKind

/-- The name under which a kind appears in answers. -/
def name : EquipmentKind → String
  | load => "Load"
  | generator => "Generator"
  | battery => "Battery"
  | shuntCompensator => "ShuntCompensator"
  | danglingLine => "DanglingLine"
  | staticVarCompensator => "StaticVarCompensator"
  | line => "Line"
  | twoWindingsTransformer => "TwoWindingsTransformer"
  | threeWindingsTransformer => "ThreeWindingsTransformer"
  | hvdcConverterStation => "HvdcConverterStation"
  | busbarSection => "BusbarSection"

/-- Whether the equipment is a busbar section. -/
def isBusbarSection : EquipmentKind → Bool
  | busbarSection => true
  | _ => false

/-- Whether the equipment feeds or draws power at its point: all but busbar sections do. -/
def isFeeder (kind : EquipmentKind) : Bool := !kind.isBusbarSection

/-- Whether the equipment links its point to another part of the network. -/
def isBranch : EquipmentKind → Bool
  | line | twoWindingsTransformer | threeWindingsTransformer | hvdcConverterStation => true
  | _ => false

/-- The kind of equipment that resources of a type are, if they are equipment. -/
def ofType : ResourceType → Except Fault EquipmentKind
  | .load => .ok load
  | .generator => .ok generator
  | .battery => .ok battery
  | .shuntCompensator => .ok shuntCompensator
  | .staticVarCompensator => .ok staticVarCompensator
  | .vscConverterStation => .ok hvdcConverterStation
  | .lccConverterStation => .ok hvdcConverterStation
  | .danglingLine => .ok danglingLine
  | .busbarSection => .ok busbarSection
  | .line => .ok line
  | .twoWindingsTransformer => .ok twoWindingsTransformer
  | .threeWindingsTransformer => .ok threeWindingsTransformer
  | .voltageLevel => .error (.notConnectable .voltageLevel)
  | .switch => .error (.notConnectable .switch)

end EquipmentKind

end Switchyard
