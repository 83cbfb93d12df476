import Switchyard.Context
import Switchyard.Index
import Switchyard.Topology

/-!
The graph of a stored voltage level.

The equipment of the level is listed type by type, then its switches. A terminal that is connected
becomes a vertex; of a branch or a transformer with several ends in the level, the first end stands
for all. A switch that merges in the view becomes an edge. Two switches may not share an id, whether
or not they merge, and a merging switch needs a point at both ends unless the topology allows it to
dangle.
-/

namespace Switchyard

namespace Topology

/-- The vertex of an injection, if it is connected. -/
def injectionVertex (topology : Topology) (injection : Resource Terminal) :
    Except Fault (Option Vertex) := do
  unless injection.type.isInjection do throw (.notInjection injection.type)
  let kind ← EquipmentKind.ofType injection.type
  return (topology.kind.resolve injection.attributes.toAttachment).map fun point =>
    { equipment := injection.id, kind, point }

/-- The vertex of the first end of a branch in the level, if it is connected. -/
def branchVertex (topology : Topology) (level : String) (branch : Resource Branch) :
    Except Fault (Option Vertex) := do
  unless branch.type.isBranch do throw (.notBranch branch.type)
  let kind ← EquipmentKind.ofType branch.type
  let side := branch.attributes.sideIn level
  return do
    let terminal ← branch.attributes.terminal? side
    let point ← topology.kind.resolve terminal.toAttachment
    return { equipment := branch.id, kind, point, side }

/-- The vertex of the first leg of a transformer in the level, if it is connected. -/
def transformerVertex (topology : Topology) (level : String) (transformer : Resource Transformer) :
    Option Vertex :=
  let side := transformer.attributes.sideIn level
  (topology.kind.resolve (transformer.attributes.leg side).toAttachment).map fun point =>
    { equipment := transformer.id, kind := .threeWindingsTransformer, point, side }

/-- The edge of a switch that merges. -/
def edge (topology : Topology) (switch : Resource Switch) : Except Fault (Option Edge) :=
  if topology.view.merges topology.kind switch.attributes then
    match topology.kind.resolve switch.attributes.one,
      topology.kind.resolve switch.attributes.two with
    | some one, some two => .ok (some { switch := switch.id, one, two })
    | _, _ => if topology.allowDangling then .ok none else .error (.danglingSwitch switch.id)
  else
    .ok none

/-- The graph with the edges of listed switches, none of which has an id in `seen` or the id of
another. -/
def connect (topology : Topology) (seen : List String) (graph : Graph) :
    List (Resource Switch) → Except Fault Graph
  | [] => .ok graph
  | switch :: rest => do
    if switch.id ∈ seen then throw (.duplicateSwitch switch.id)
    match ← topology.edge switch with
    | none => topology.connect (switch.id :: seen) graph rest
    | some edge => topology.connect (switch.id :: seen) (graph.addSwitch edge) rest

/-- The vertices of the injections of one type in the level. -/
def injectionVertices (topology : Topology) (variant : UInt32) (level : String)
    (type : ResourceType) : Inquiry (List Vertex) := do
  let listed ← Inquiry.injections variant level type
  let vertices ← (listed.mapM topology.injectionVertex : Except Fault (List (Option Vertex)))
  return vertices.filterMap fun vertex => vertex

/-- The vertices of the branches of one type in the level. -/
def branchVertices (topology : Topology) (variant : UInt32) (level : String)
    (type : ResourceType) : Inquiry (List Vertex) := do
  let listed ← Inquiry.branches variant level type
  let vertices ← (listed.mapM (topology.branchVertex level) : Except Fault (List (Option Vertex)))
  return vertices.filterMap fun vertex => vertex

/-- The vertices of all equipment in the level, in listing order. -/
def vertices (topology : Topology) (variant : UInt32) (level : String) :
    Inquiry (List Vertex) := do
  let injections ← ResourceType.injections.mapM (topology.injectionVertices variant level)
  let branches ← ResourceType.branches.mapM (topology.branchVertices variant level)
  let transformers ← Inquiry.transformers variant level
  return injections.flatten ++ branches.flatten ++
    transformers.filterMap (topology.transformerVertex level)

/-- The graph of a level of the working variant. -/
def graph (topology : Topology) (context : Context) (level : String) : Inquiry Graph := do
  let variant ← context.number
  let found ← Inquiry.level variant level
  let kind := found.attributes.kind
  unless kind = topology.kind do throw (.topologyKindMismatch level kind topology.kind)
  let vertices ← topology.vertices variant level
  let switches ← Inquiry.switches variant level
  topology.connect [] (.ofVertices level vertices) switches

end Topology

end Switchyard
