import Switchyard.Topology.Graph

/-!
The buses of a stored voltage level.

The buses are those of the level's graph. The validator is called once for each component looked at,
and each of its judgements is told.
-/

namespace Switchyard

namespace Topology

/-- Tells what the validator says of a component. -/
def judge (topology : Topology) (graph : Graph) (component : PointSet) : Inquiry Unit :=
  Inquiry.judged ⟨component, graph.judge topology.validator component⟩

/-- All buses of a level of the working variant. -/
def buses (topology : Topology) (context : Context) (level : String) : Inquiry Buses := do
  let graph ← topology.graph context level
  graph.components.forM (topology.judge graph)
  graph.buses topology.validator

/-- The bus of a level of the working variant that contains a point. -/
def busAt (topology : Topology) (context : Context) (level : String) (start : Point) :
    Inquiry (Option Bus) := do
  let graph ← topology.graph context level
  (graph.componentOf? start).forM (topology.judge graph)
  graph.busAt topology.validator start

end Topology

end Switchyard
