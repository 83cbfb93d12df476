import Switchyard.Ascending.Lemmas
import Switchyard.Equipment
import Switchyard.Point

/-!
Equipment terminals at their points.

A vertex is one terminal of one piece of equipment, placed at the point it is attached to. A vertex
map groups the vertices of a graph by point: it has an entry exactly for the points that carry one,
and an entry keeps the order in which its vertices were listed.
-/

namespace Switchyard

/-- One equipment terminal attached to a point. -/
structure Vertex where
  equipment : String
  kind : EquipmentKind
  point : Point
  /-- The end that the terminal is, for equipment with several. -/
  side : Option Side := none
  deriving DecidableEq, Repr

/-- Vertices by point, in ascending order of the points. -/
abbrev VertexMap := Ascending (Prod.fst : Point × List Vertex → Point)

namespace VertexMap

/-- The vertices at a point. -/
def atPoint (vertices : VertexMap) (point : Point) : List Vertex :=
  ((vertices.get? point).map Prod.snd).getD []

/-- The vertices at the points of a set, ordered by point. -/
def within (vertices : VertexMap) (points : PointSet) : List Vertex :=
  points.toList.flatMap vertices.atPoint

/-- Groups listed vertices by point. -/
def ofVertices (vertices : List Vertex) : VertexMap where
  toList := (Ascending.ofList id (vertices.map Vertex.point)).toList.map
    fun point => (point, vertices.filter (·.point = point))
  ascending := by
    simpa [List.pairwise_map] using
      (Ascending.ofList id (vertices.map Vertex.point)).ascending

/-- The map holds every vertex at its point and none elsewhere, in listing order. -/
theorem atPoint_ofVertices (vertices : List Vertex) (point : Point) :
    (ofVertices vertices).atPoint point = vertices.filter (·.point = point) := by
  unfold atPoint
  cases h : (ofVertices vertices).get? point with
  | some entry =>
    obtain ⟨found, here⟩ := Ascending.get?_eq_some_iff.mp h
    obtain ⟨p, _, rfl⟩ := List.mem_map.mp found
    cases here
    rfl
  | none =>
    refine (List.filter_eq_nil_iff.mpr fun v hv hp => ?_).symm
    have listed : v.point ∈ Ascending.ofList (id : Point → Point) (vertices.map Vertex.point) :=
      Ascending.mem_ofList_id.mpr (List.mem_map_of_mem hv)
    exact Ascending.get?_eq_none_iff.mp h _ (List.mem_map_of_mem listed) (by simpa using hp)

end VertexMap

end Switchyard
