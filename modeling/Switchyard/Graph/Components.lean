import Switchyard.Graph

/-!
The points that switches connect.

All components are found at once by merging classes: every point starts in a class of its own, and
each switch replaces the classes of its two ends by their union. The component of a single point is
found on its own by a search that widens, round by round, to the points one switch further away;
a round that finds nothing new ends it, so there are at most as many rounds as points.
-/

namespace Switchyard

namespace Graph

/-- The classes with those of the two points united. -/
def unite (classes : List (List Point)) (p q : Point) : List (List Point) :=
  let (hit, rest) := classes.partition fun c => p ∈ c ∨ q ∈ c
  hit.flatten :: rest

/-- The classes of points that the switches unite. -/
def classes (graph : Graph) : List (List Point) :=
  graph.switches.foldl (fun classes e => unite classes e.one e.two) (graph.points.map ([·]))

/-- The class of a point. -/
def classOf (graph : Graph) (point : Point) : PointSet :=
  .ofList id ((graph.classes.find? (point ∈ ·)).getD [])

/-- The connected components, each listed where its smallest point comes. -/
def components (graph : Graph) : List PointSet :=
  (Ascending.ofList id graph.points).toList.filterMap fun point =>
    let component := graph.classOf point
    if component.least? = some point then some component else none

/-- Whether a switch joins the two points. -/
def joins (graph : Graph) (p q : Point) : Bool :=
  graph.switches.any fun e => (e.one = p ∧ e.two = q) ∨ (e.one = q ∧ e.two = p)

/-- Widens a set of points round by round, for a number of rounds at most. -/
def spread (graph : Graph) : Nat → List Point → List Point
  | 0, seen => seen
  | rounds + 1, seen =>
    match graph.points.filter fun q => q ∉ seen ∧ seen.any (graph.joins · q) with
    | [] => seen
    | fresh => graph.spread rounds (seen ++ fresh)

/-- The points connected to `start`, which is one of them; none if it is not in the graph. -/
def componentOf? (graph : Graph) (start : Point) : Option PointSet :=
  if start ∈ graph.points then
    some (.ofList id (graph.spread graph.points.length [start]))
  else
    none

end Graph

end Switchyard
