import Switchyard.Graph.Components

/-!
The electrical buses of a graph.

A validator decides which components are buses. The component of a bus names it: its id is the id of
the level, an underscore, and the smallest point. Buses are kept by id.
-/

namespace Switchyard

/-- Decides from the vertices of a graph whether a component is a bus. -/
abbrev BusValidator := VertexMap → PointSet → Bool

namespace BusValidator

/-- A bus of the bus view: it has a busbar section and a feeder, or a branch and two feeders. -/
def busView : BusValidator := fun vertices component =>
  let kinds := (vertices.within component).map Vertex.kind
  let feeders := kinds.countP EquipmentKind.isFeeder
  (kinds.countP EquipmentKind.isBusbarSection ≥ 1 ∧ feeders ≥ 1) ∨
    (kinds.countP EquipmentKind.isBranch ≥ 1 ∧ feeders ≥ 2)

/-- In the bus-breaker view every component is a bus. -/
def busBreakerView : BusValidator := fun _ component => !component.toList.isEmpty

end BusValidator

/-- Points merged into one electrical bus, with the equipment on it. -/
structure Bus where
  id : String
  level : String
  points : PointSet
  vertices : List Vertex
  deriving DecidableEq, Repr

/-- Buses in ascending order of their ids. -/
abbrev Buses := Ascending Bus.id

namespace Bus

/-- The bus of a component, named after the level and the component's smallest point. -/
def ofComponent (level : String) (vertices : VertexMap) (component : PointSet) :
    Except Fault Bus :=
  match component.least? with
  | none => .error (.emptyComponent level)
  | some point =>
    .ok { id := level ++ "_" ++ point.text, level, points := component,
          vertices := vertices.within component }

/-- The ids of the equipment on the bus, one for each vertex. -/
def equipment (bus : Bus) : List String := bus.vertices.map Vertex.equipment

end Bus

namespace Graph

/-- What the validator says of a component. -/
def judge (graph : Graph) (validator : BusValidator) (component : PointSet) : Bool :=
  validator graph.vertexMap component

/-- The bus of a component that the validator accepts. -/
def busOf (graph : Graph) (validator : BusValidator) (component : PointSet) :
    Except Fault (Option Bus) :=
  if graph.judge validator component then
    some <$> Bus.ofComponent graph.level graph.vertexMap component
  else
    .ok none

/-- The buses of all components that the validator accepts. -/
def buses (graph : Graph) (validator : BusValidator) : Except Fault Buses := do
  let found ← graph.components.mapM (graph.busOf validator)
  return .ofList Bus.id (found.filterMap id)

/-- The bus that contains a point, if its component is accepted. -/
def busAt (graph : Graph) (validator : BusValidator) (start : Point) :
    Except Fault (Option Bus) :=
  match graph.componentOf? start with
  | none => .ok none
  | some component => graph.busOf validator component

end Graph

end Switchyard
