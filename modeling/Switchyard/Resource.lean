/-!
The pieces of a network and their types.

Every stored piece has an id, a type and the attributes of its family. Injections reach a voltage
level through one terminal, branches through one terminal at each of two ends; voltage levels,
three-winding transformers and switches are families of their own. The lists `injections` and
`branches` also fix the order in which a level's equipment is listed.
-/

namespace Switchyard

/-- The type of a stored resource. -/
inductive ResourceType where
  | voltageLevel
  | load
  | generator
  | battery
  | shuntCompensator
  | staticVarCompensator
  | vscConverterStation
  | lccConverterStation
  | danglingLine
  | busbarSection
  | line
  | twoWindingsTransformer
  | threeWindingsTransformer
  | switch
  deriving DecidableEq, Repr, Inhabited

namespace ResourceType

/-- The name under which a type appears in messages and answers. -/
def name : ResourceType → String
  | voltageLevel => "VoltageLevel"
  | load => "Load"
  | generator => "Generator"
  | battery => "Battery"
  | shuntCompensator => "ShuntCompensator"
  | staticVarCompensator => "StaticVarCompensator"
  | vscConverterStation => "VscConverterStation"
  | lccConverterStation => "LccConverterStation"
  | danglingLine => "DanglingLine"
  | busbarSection => "BusbarSection"
  | line => "Line"
  | twoWindingsTransformer => "TwoWindingsTransformer"
  | threeWindingsTransformer => "ThreeWindingsTransformer"
  | switch => "Switch"

/-- All types, each once. -/
def all : List ResourceType :=
  [voltageLevel, load, generator, battery, shuntCompensator, staticVarCompensator,
    vscConverterStation, lccConverterStation, danglingLine, busbarSection, line,
    twoWindingsTransformer, threeWindingsTransformer, switch]

/-- The types attached through a single terminal, in listing order. -/
def injections : List ResourceType :=
  [generator, load, battery, shuntCompensator, staticVarCompensator, vscConverterStation,
    lccConverterStation, danglingLine, busbarSection]

/-- The types with one terminal at each of two ends, in listing order. -/
def branches : List ResourceType := [line, twoWindingsTransformer]

/-- Whether resources of the type have a single terminal. -/
def isInjection (type : ResourceType) : Bool := injections.contains type

/-- Whether resources of the type have two ends. -/
def isBranch (type : ResourceType) : Bool := branches.contains type

theorem mem_all (type : ResourceType) : type ∈ all := by cases type <;> decide

theorem isInjection_iff_mem {type : ResourceType} : type.isInjection = true ↔ type ∈ injections :=
  List.contains_iff_mem

theorem isBranch_iff_mem {type : ResourceType} : type.isBranch = true ↔ type ∈ branches :=
  List.contains_iff_mem

end ResourceType

/-- A stored piece of the network. Ids need not be unique. -/
structure Resource (α : Type) where
  id : String
  type : ResourceType
  attributes : α
  deriving DecidableEq, Repr

/-- How the equipment of a voltage level is connected: to numbered nodes, or to named buses. -/
inductive TopologyKind where
  | nodeBreaker
  | busBreaker
  deriving DecidableEq, Repr, Inhabited

/-- The name under which a kind appears in messages and answers. -/
def TopologyKind.name : TopologyKind → String
  | nodeBreaker => "NodeBreaker"
  | busBreaker => "BusBreaker"

/-- One end of a piece of equipment that has several. -/
inductive Side where
  | one
  | two
  | three
  deriving DecidableEq, Repr, Inhabited

/-- The name under which a side appears in answers. -/
def Side.name : Side → String
  | one => "ONE"
  | two => "TWO"
  | three => "THREE"

end Switchyard
