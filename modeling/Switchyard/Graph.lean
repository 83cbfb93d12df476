import Switchyard.Vertex

/-!
The topology points of one voltage level and the switches that merge them.

A graph is an undirected multigraph: any number of switches may join two points, and a switch may
join a point to itself. Points keep the order in which they first appeared, switches and vertices
the order in which they were added. Every end of a switch and the point of every vertex is a point
of the graph, and no point is there twice.
-/

namespace Switchyard

/-- A switch between two points. -/
structure Edge where
  switch : String
  one : Point
  two : Point
  deriving DecidableEq, Repr

/-- The points, merging switches and vertices of a voltage level. -/
structure Graph where
  level : String
  points : List Point
  switches : List Edge
  vertices : List Vertex
  nodup : points.Nodup
  one_mem : ∀ e ∈ switches, e.one ∈ points
  two_mem : ∀ e ∈ switches, e.two ∈ points
  vertex_mem : ∀ v ∈ vertices, v.point ∈ points

namespace Graph

/-- The graph of a level without points. -/
def empty (level : String) : Graph where
  level
  points := []
  switches := []
  vertices := []
  nodup := .nil
  one_mem := by simp
  two_mem := by simp
  vertex_mem := by simp

/-- The points with one more at the end, unless it is there. -/
def extend (points : List Point) (point : Point) : List Point :=
  if point ∈ points then points else points ++ [point]

@[simp] theorem mem_extend {points : List Point} {p q : Point} :
    q ∈ extend points p ↔ q ∈ points ∨ q = p := by
  unfold extend
  split <;> grind

theorem nodup_extend {points : List Point} (h : points.Nodup) (p : Point) :
    (extend points p).Nodup := by
  unfold extend
  split
  · exact h
  · grind [List.nodup_append]

/-- The graph with a switch and its ends. -/
def addSwitch (graph : Graph) (edge : Edge) : Graph where
  level := graph.level
  points := extend (extend graph.points edge.one) edge.two
  switches := graph.switches ++ [edge]
  vertices := graph.vertices
  nodup := nodup_extend (nodup_extend graph.nodup _) _
  one_mem := by have := graph.one_mem; grind [mem_extend]
  two_mem := by have := graph.two_mem; grind [mem_extend]
  vertex_mem := by have := graph.vertex_mem; grind [mem_extend]

/-- The graph with a vertex and its point. -/
def attach (graph : Graph) (vertex : Vertex) : Graph where
  level := graph.level
  points := extend graph.points vertex.point
  switches := graph.switches
  vertices := graph.vertices ++ [vertex]
  nodup := nodup_extend graph.nodup _
  one_mem := by have := graph.one_mem; grind [mem_extend]
  two_mem := by have := graph.two_mem; grind [mem_extend]
  vertex_mem := by have := graph.vertex_mem; grind [mem_extend]

/-- The graph of the points of some vertices. -/
def ofVertices (level : String) (vertices : List Vertex) : Graph :=
  vertices.foldl attach (empty level)

/-- Whether a point belongs to the graph. -/
def contains (graph : Graph) (point : Point) : Bool := point ∈ graph.points

/-- The vertices by point. -/
def vertexMap (graph : Graph) : VertexMap := .ofVertices graph.vertices

end Graph

end Switchyard
