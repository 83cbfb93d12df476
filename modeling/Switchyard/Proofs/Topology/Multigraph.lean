import Mathlib.Data.List.Induction
import Switchyard.Proofs.Topology.Built
import Switchyard.Proofs.Store.Generations
import Switchyard.Proofs.Topology.Reading

/-!
The graph of a level as a multigraph, to the last detail.

Vertices are attached one by one and then switches are added one by one, and each brings its points
with it unless they are there. So the points come in the order of their first occurrence among the
points of the vertices and the ends of the switches (`points_foldl_attach`,
`points_foldl_addSwitch`). Switches are added as they are listed, each that merges and has both ends
resolved once, so parallel switches stay apart and loops are kept. `Drawn` says all this of a graph
in terms of what is listed for the level; every graph that can be worked out is drawn like this
(`graph_is_drawn_as_listed`).
-/

namespace Switchyard

/-- The points at the ends of a switch. -/
def Edge.ends (edge : Edge) : List Point := [edge.one, edge.two]

namespace VertexMap

variable {vertices : List Vertex} {p : Point}

/-- There is an entry just for the points of the vertices, and it has all that are there. -/
theorem get?_ofVertices (vertices : List Vertex) (p : Point) :
    (ofVertices vertices).get? p =
      if p ∈ vertices.map Vertex.point then some (p, vertices.filter (·.point = p)) else none := by
  have hpoints : ∀ q,
      q ∈ (Ascending.ofList (id : Point → Point) (vertices.map Vertex.point)).toList ↔
        q ∈ vertices.map Vertex.point := fun q => Ascending.mem_ofList_id
  split
  case isTrue hp =>
    exact Ascending.get?_eq_some_iff.mpr ⟨List.mem_map.mpr ⟨p, (hpoints p).mpr hp, rfl⟩, rfl⟩
  case isFalse hp =>
    refine Ascending.get?_eq_none_iff.mpr fun entry hentry hkey => hp ?_
    obtain ⟨q, hq, rfl⟩ := List.mem_map.mp hentry
    obtain rfl : q = p := hkey
    exact (hpoints q).mp hq

end VertexMap

/-! ### The order of the points -/

namespace Graph

variable {graph : Graph}

/-- Points that are added one by one stay in the order of their first occurrence. -/
theorem foldl_extend (points : List Point) : points.foldl extend [] = points.eraseDups := by
  induction points using List.reverseRecOn with
  | nil => rfl
  | append_singleton points p ih =>
    rw [List.foldl_append, ih, List.foldl_cons, List.foldl_nil, List.eraseDups_append, extend]
    by_cases hp : p ∈ points
    · rw [if_pos (List.mem_eraseDups.mpr hp)]
      simp [List.removeAll, hp]
    · rw [if_neg (mt List.mem_eraseDups.mp hp)]
      simp [List.removeAll, hp, List.eraseDups_cons]

theorem points_foldl_attach : ∀ (vertices : List Vertex) (graph : Graph),
    (vertices.foldl attach graph).points = (vertices.map Vertex.point).foldl extend graph.points
  | [], _ => rfl
  | v :: vertices, graph => points_foldl_attach vertices (graph.attach v)

theorem points_foldl_addSwitch : ∀ (edges : List Edge) (graph : Graph),
    (edges.foldl addSwitch graph).points = (edges.flatMap Edge.ends).foldl extend graph.points
  | [], _ => rfl
  | e :: edges, graph => points_foldl_addSwitch edges (graph.addSwitch e)

end Graph

/-! ### What is drawn -/

namespace Topology

variable {topology : Topology} {level : String} {listings : Listings} {contents : Contents}
  {graph : Graph} {switch : Resource Switch}

/-- The edge has the id of the switch and leads from its first end to its second. -/
structure Depicts (topology : Topology) (switch : Resource Switch) (edge : Edge) : Prop where
  named : edge.switch = switch.id
  one : topology.kind.resolve switch.attributes.one = some edge.one
  two : topology.kind.resolve switch.attributes.two = some edge.two

/-- Each bridge has one edge, in the order in which the switches are listed. -/
theorem depicts_bridges : ∀ switches : List (Resource Switch),
    List.Forall₂ topology.Depicts (switches.filter fun switch => topology.IsBridge switch)
      (switches.filterMap topology.bridge)
  | [] => .nil
  | switch :: switches => by
    cases hedge : topology.bridge switch with
    | none =>
      have hnot : ¬ topology.IsBridge switch := fun h => by
        have hsome := isSome_bridge.mpr h
        rw [hedge] at hsome
        cases hsome
      rw [List.filter_cons_of_neg (by simpa using hnot), List.filterMap_cons_none hedge]
      exact depicts_bridges switches
    | some edge =>
      have hbridge : topology.IsBridge switch := isSome_bridge.mp (by rw [hedge]; rfl)
      obtain ⟨_, hone, htwo, hid⟩ := bridge_eq_some_iff.mp hedge
      rw [List.filter_cons_of_pos (by simpa using hbridge), List.filterMap_cons_some hedge]
      exact .cons ⟨hid.symm, hone, htwo⟩ (depicts_bridges switches)

/-- The graph has what is listed for the level, in order and as often as it is listed. -/
structure Drawn (topology : Topology) (level : String) (listings : Listings) (graph : Graph) :
    Prop where
  named : graph.level = level
  /-- One edge for each bridge. -/
  switches : List.Forall₂ topology.Depicts
    (listings.switches.filter fun switch => topology.IsBridge switch) graph.switches
  /-- First the points of the vertices, then the ends of the switches, each at its first
  occurrence. -/
  points : graph.points =
    ((topology.listed level listings).map Vertex.point ++
      graph.switches.flatMap Edge.ends).eraseDups
  contains : ∀ p, graph.contains p = true ↔ p ∈ graph.points
  /-- The vertices at a point are all that are listed there. -/
  vertices : ∀ p, graph.vertexMap.atPoint p =
    (topology.listed level listings).filter (·.point = p)
  /-- There is an entry just for the points of the listed vertices. -/
  entries : ∀ p, graph.vertexMap.get? p =
    if p ∈ (topology.listed level listings).map Vertex.point then
      some (p, (topology.listed level listings).filter (·.point = p))
    else none

/-- A graph that can be made of the contents of a level has just what they list. -/
theorem graphOf_drawn (h : topology.graphOf level contents = .ok graph) :
    topology.Drawn level contents.listings graph := by
  obtain ⟨_, _, rfl⟩ := graphOf_eq_ok_iff.mp h
  refine ⟨level_draw .., ?_, ?_, fun p => decide_eq_true_iff, fun p => ?_, fun p => ?_⟩
  · rw [switches_draw]
    exact depicts_bridges contents.listings.switches
  · rw [← Graph.foldl_extend, List.foldl_append, switches_draw, draw, Graph.points_foldl_addSwitch,
      Graph.ofVertices, Graph.points_foldl_attach]
    rfl
  · rw [Graph.vertexMap, vertices_draw, VertexMap.atPoint_ofVertices]
  · rw [Graph.vertexMap, vertices_draw, VertexMap.get?_ofVertices]

/-- Every graph of a level that can be worked out has just what the store lists for the level: its
points in the order of their first occurrence, an edge for each bridge, and at each point the
vertices that are listed there. -/
theorem graph_is_drawn_as_listed (store : Store) (topology : Topology) (context : Context)
    (level : String) (graph : Graph)
    (hgraph : ((topology.graph context level).outcome Store.index store).1 = .ok graph) :
    ∃ number network, context.number = .ok number ∧ store.network number = .ok network ∧
      topology.Drawn level (network.listings level) graph := by
  obtain ⟨number, network, contents, hnumber, hnetwork, hlistings, hgraphOf⟩ :=
    Store.exists_network_of_graph hgraph
  have hdrawn := graphOf_drawn hgraphOf
  rw [hlistings] at hdrawn
  exact ⟨number, network, hnumber, hnetwork, hdrawn⟩

/-- A level with a load at node 7 and another at node 2, where a busbar section is too. Two parallel
switches join node 7 to node 3, a third joins node 3 to itself; of two others one is open and one
has an end that is not connected. -/
def parallelSwitches : Store :=
  Store.new.run [.addLevel 0 ⟨"A", .voltageLevel, { kind := .nodeBreaker }⟩,
    .addInjection 0 ⟨"B", .busbarSection, { level := "A", node := some 2 }⟩,
    .addInjection 0 ⟨"L", .load, { level := "A", node := some 7 }⟩,
    .addInjection 0 ⟨"M", .load, { level := "A", node := some 2 }⟩,
    .addSwitch 0 ⟨"S", .switch,
      { level := "A", one := { node := some 7 }, two := { node := some 3 } }⟩,
    .addSwitch 0 ⟨"T", .switch,
      { level := "A", one := { node := some 3 }, two := { node := some 7 } }⟩,
    .addSwitch 0 ⟨"U", .switch,
      { level := "A", one := { node := some 3 }, two := { node := some 3 } }⟩,
    .addSwitch 0 ⟨"V", .switch,
      { level := "A", isOpen := true, one := { node := some 7 }, two := { node := some 9 } }⟩,
    .addSwitch 0 ⟨"W", .switch, { level := "A", one := { node := some 9 } }⟩]

/-- Parallel switches and loops are kept, open and dangling switches are not, and loads come before
busbar sections. -/
theorem graph_is_drawn_as_listed_parallel :
    let topology := (make .nodeBreaker .busView true {}).1
    ∃ network graph, parallelSwitches.network 0 = .ok network ∧
      ((topology.graph {} "A").outcome Store.index parallelSwitches).1 = .ok graph ∧
      graph.points = [.node 7, .node 2, .node 3] ∧
      graph.switches = [⟨"S", .node 7, .node 3⟩, ⟨"T", .node 3, .node 7⟩, ⟨"U", .node 3, .node 3⟩] ∧
      (graph.vertexMap.atPoint (.node 2)).map Vertex.equipment = ["M", "B"] ∧
      topology.Drawn "A" (network.listings "A") graph := by
  obtain ⟨number, network, hnumber, hnetwork, hdrawn⟩ :=
    graph_is_drawn_as_listed parallelSwitches (make .nodeBreaker .busView true {}).1 {} "A" _ rfl
  cases hnumber
  exact ⟨network, _, hnetwork, rfl, rfl, rfl, rfl, hdrawn⟩

end Topology

end Switchyard
