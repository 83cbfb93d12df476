import Mathlib.Data.List.Forall2
import Mathlib.Data.List.Perm.Basic
import Switchyard.Proofs.Store.Generations
import Switchyard.Proofs.Topology.Single

/-!
The order in which a level was entered does not reach its buses.

If the same is listed for a level in another order, its switches are admitted or refused all the
same, and the graph has the same points, switches and vertices in another order
(`Graph.Reordered`). What is linked is the same, so the components are, and they are listed by their
smallest points. The vertices at a point come in listing order, which a validator must not depend on
(`Unordered`); those of both views do not. So the buses are the same but for the order of the
vertices at each point, and they are equal if only the switches are reordered.
-/

namespace Switchyard

/-- Inserting related members into related collections keeps them related. -/
theorem Ascending.forall₂_insertInto {α κ : Type} [LT κ] [DecidableLT κ] {key : α → κ}
    {R : α → α → Prop} (hkey : ∀ x y, R x y → key x = key y) {x y : α} (hxy : R x y)
    {xs ys : List α} (h : List.Forall₂ R xs ys) :
    List.Forall₂ R (insertInto key x xs) (insertInto key y ys) := by
  induction h with
  | nil => exact .cons hxy .nil
  | cons hhead htail ih =>
    unfold insertInto
    rw [hkey _ _ hxy, hkey _ _ hhead]
    split
    · exact .cons hxy (.cons hhead htail)
    · split
      · exact .cons hhead ih
      · exact .cons hxy htail

theorem Ascending.forall₂_ofList {α κ : Type} [LT κ] [DecidableLT κ] [OrderedKey κ] {key : α → κ}
    {R : α → α → Prop} (hkey : ∀ x y, R x y → key x = key y) {xs ys : List α}
    (h : List.Forall₂ R xs ys) :
    List.Forall₂ R (ofList key xs).toList (ofList key ys).toList := by
  have hfold : ∀ {s t : Ascending key}, List.Forall₂ R s.toList t.toList →
      List.Forall₂ R (xs.foldl insert s).toList (ys.foldl insert t).toList := by
    induction h with
    | nil => exact id
    | cons hhead _ ih => exact fun hst => ih (forall₂_insertInto hkey hhead hst)
  exact hfold .nil

/-! ### Vertices by point -/

/-- The same points, and the same vertices at each of them in any order. -/
def VertexMap.Reordered (vertices other : VertexMap) : Prop :=
  List.Forall₂ (fun entry entry' => entry.1 = entry'.1 ∧ entry.2.Perm entry'.2)
    vertices.toList other.toList

namespace VertexMap

variable {vertices other : VertexMap}

theorem Reordered.atPoint (h : vertices.Reordered other) (p : Point) :
    (vertices.atPoint p).Perm (other.atPoint p) := by
  obtain ⟨entries, _⟩ := vertices
  obtain ⟨others, _⟩ := other
  change List.Forall₂ _ entries others at h
  unfold VertexMap.atPoint Ascending.get?
  induction h with
  | nil => exact .refl _
  | @cons entry entry' _ _ hhead _ ih =>
    rw [List.find?_cons, List.find?_cons, hhead.1]
    split
    · exact hhead.2
    · exact ih (List.pairwise_cons.mp ‹_›).2 (List.pairwise_cons.mp ‹_›).2

theorem Reordered.within (h : vertices.Reordered other) (points : PointSet) :
    (vertices.within points).Perm (other.within points) :=
  List.Perm.flatMap_left points.toList fun p _ => h.atPoint p

theorem reordered_ofVertices {listed listed' : List Vertex} (h : listed.Perm listed') :
    (ofVertices listed).Reordered (ofVertices listed') := by
  have hpoints : Ascending.ofList (id : Point → Point) (listed.map Vertex.point) =
      Ascending.ofList id (listed'.map Vertex.point) := by
    refine Ascending.ext_mem fun p => ?_
    rw [Ascending.mem_ofList_id, Ascending.mem_ofList_id]
    exact (h.map Vertex.point).mem_iff
  change List.Forall₂ _ (List.map _ (Ascending.ofList id (listed.map Vertex.point)).toList)
    (List.map _ (Ascending.ofList id (listed'.map Vertex.point)).toList)
  rw [hpoints, List.forall₂_map_left_iff, List.forall₂_map_right_iff, List.forall₂_same]
  exact fun p _ => ⟨rfl, h.filter _⟩

/-- Reordering keeps the place of every vertex. -/
theorem map_point_within_ofVertices {listed listed' : List Vertex} (h : listed.Perm listed')
    (points : PointSet) :
    ((ofVertices listed).within points).map Vertex.point =
      ((ofVertices listed').within points).map Vertex.point := by
  rw [within_ofVertices, within_ofVertices, List.map_flatMap, List.map_flatMap]
  refine List.flatMap_congr fun p _ => ?_
  have hat : ∀ vertices : List Vertex, (vertices.filter (·.point = p)).map Vertex.point =
      List.replicate (vertices.countP (·.point = p)) p := fun vertices => by
    rw [List.countP_eq_length_filter, List.map_eq_replicate_iff]
    exact fun v hv => by simpa using (List.mem_filter.mp hv).2
  rw [hat, hat, h.countP_eq]

end VertexMap

/-! ### Validators -/

namespace BusValidator

/-- The validator does not depend on the order of the vertices at a point. -/
def Unordered (validator : BusValidator) : Prop :=
  ∀ vertices other component, VertexMap.Reordered vertices other →
    validator vertices component = validator other component

theorem unordered_busView : Unordered busView := by
  intro vertices other component h
  have hkinds := (h.within component).map Vertex.kind
  simp only [busView, hkinds.countP_eq]

theorem unordered_busBreakerView : Unordered busBreakerView := fun _ _ _ _ => rfl

end BusValidator

theorem View.unordered_validator : ∀ view : View, view.validator.Unordered
  | busView => BusValidator.unordered_busView
  | busBreakerView => BusValidator.unordered_busBreakerView

/-! ### Graphs -/

/-- The same bus, with the vertices at each point in any order. -/
structure Bus.Reordered (bus other : Bus) : Prop where
  id : bus.id = other.id
  level : bus.level = other.level
  points : bus.points = other.points
  vertices : bus.vertices.Perm other.vertices
  places : bus.vertices.map Vertex.point = other.vertices.map Vertex.point

namespace Graph

/-- The same points, switches and vertices in any order. -/
structure Reordered (graph other : Graph) : Prop where
  level : graph.level = other.level
  points : ∀ p, p ∈ graph.points ↔ p ∈ other.points
  switches : graph.switches.Perm other.switches
  vertices : graph.vertices.Perm other.vertices

variable {graph other : Graph} {validator : BusValidator} {p q : Point}

theorem Reordered.linked_iff (h : graph.Reordered other) :
    Linked graph.switches p q ↔ Linked other.switches p q :=
  ⟨Linked.mono fun _ => h.switches.mem_iff.mp, Linked.mono fun _ => h.switches.mem_iff.mpr⟩

/-- The components are listed by their smallest points, so they are equal as lists. -/
theorem Reordered.components (h : graph.Reordered other) : graph.components = other.components := by
  have hpoints : Ascending.ofList (id : Point → Point) graph.points =
      Ascending.ofList id other.points := by
    refine Ascending.ext_mem fun p => ?_
    rw [Ascending.mem_ofList_id, Ascending.mem_ofList_id, h.points]
  unfold Graph.components
  rw [hpoints]
  refine List.filterMap_congr fun p hp => ?_
  have hother : p ∈ other.points := Ascending.mem_ofList_id.mp hp
  have hclass : graph.classOf p = other.classOf p := Ascending.ext_mem fun q => by
    rw [mem_classOf ((h.points p).mpr hother), mem_classOf hother, h.linked_iff]
  rw [hclass]

theorem Reordered.judge (h : graph.Reordered other) (hvalidator : validator.Unordered)
    (component : PointSet) : graph.judge validator component = other.judge validator component :=
  hvalidator _ _ component (VertexMap.reordered_ofVertices h.vertices)

theorem Reordered.busFor (h : graph.Reordered other) (component : PointSet) :
    Option.Rel Bus.Reordered (graph.busFor component) (other.busFor component) := by
  unfold Graph.busFor
  rw [h.level]
  cases component.least? with
  | none => exact .none
  | some least =>
    exact .some ⟨rfl, rfl, rfl, (VertexMap.reordered_ofVertices h.vertices).within component,
      VertexMap.map_point_within_ofVertices h.vertices component⟩

/-- Reordered graphs have the same buses but for the order of the vertices at each point. -/
theorem Reordered.buses (h : graph.Reordered other) (hvalidator : validator.Unordered) :
    ∃ buses buses', graph.buses validator = .ok buses ∧ other.buses validator = .ok buses' ∧
      List.Forall₂ Bus.Reordered buses.toList buses'.toList := by
  refine ⟨_, _, graph.buses_eq_ok validator, other.buses_eq_ok validator, ?_⟩
  refine Ascending.forall₂_ofList (fun _ _ hbus => hbus.id) ?_
  rw [h.components]
  refine List.rel_filterMap (R := Eq) ?_ (List.forall₂_same.mpr fun _ _ => rfl)
  rintro component _ rfl
  dsimp only
  rw [h.judge hvalidator]
  split
  · exact h.busFor component
  · exact .none

/-- With the vertices in the same order, the buses are equal for any validator. -/
theorem Reordered.buses_eq (h : graph.Reordered other) (hvertices : graph.vertices = other.vertices)
    (validator : BusValidator) : graph.buses validator = other.buses validator := by
  have hsame : graph.busOf validator = other.busOf validator :=
    funext (busOf_congr h.level hvertices)
  unfold Graph.buses
  rw [h.components, hsame]

end Graph

/-! ### Levels -/

/-- The same is listed in any order. -/
structure Listings.Reordered (listings other : Listings) : Prop where
  injections : ∀ type, (listings.injections type).Perm (other.injections type)
  branches : ∀ type, (listings.branches type).Perm (other.branches type)
  transformers : listings.transformers.Perm other.transformers
  switches : listings.switches.Perm other.switches

theorem Listings.Reordered.symm {listings other : Listings} (h : listings.Reordered other) :
    other.Reordered listings where
  injections type := (h.injections type).symm
  branches type := (h.branches type).symm
  transformers := h.transformers.symm
  switches := h.switches.symm

/-- Networks that were entered in different orders list the same in any order. -/
theorem Network.reordered_listings {network other : Network}
    (hinjections : network.injections.Perm other.injections)
    (hbranches : network.branches.Perm other.branches)
    (htransformers : network.transformers.Perm other.transformers)
    (hswitches : network.switches.Perm other.switches) (level : String) :
    (network.listings level).Reordered (other.listings level) where
  injections _ := hinjections.filter _
  branches _ := hbranches.filter _
  transformers := htransformers.filter _
  switches := hswitches.filter _

namespace Topology

variable {topology : Topology} {level : String} {listings listings' : Listings}
  {switches switches' : List (Resource Switch)}

theorem Admits.perm (h : topology.Admits switches) (hperm : switches.Perm switches') :
    topology.Admits switches' where
  distinct := (hperm.map Resource.id).nodup_iff.mp h.distinct
  resolved switch hswitch := h.resolved switch (hperm.mem_iff.mpr hswitch)

theorem listed_perm (h : listings.Reordered listings') :
    (topology.listed level listings).Perm (topology.listed level listings') := by
  refine .append (.append ?_ ?_) (h.transformers.filterMap _)
  · exact List.Perm.flatMap_left _ fun type _ => (h.injections type).filterMap _
  · exact List.Perm.flatMap_left _ fun type _ => (h.branches type).filterMap _

theorem reordered_draw (topology : Topology) (level : String)
    (h : listings.Reordered listings') :
    (topology.draw level listings).Reordered (topology.draw level listings') where
  level := by rw [level_draw, level_draw]
  points p := by
    rw [mem_points_draw, mem_points_draw]
    simp only [(listed_perm h).mem_iff, (h.switches.filterMap topology.bridge).mem_iff]
  switches := by
    rw [switches_draw, switches_draw]
    exact h.switches.filterMap _
  vertices := by
    rw [vertices_draw, vertices_draw]
    exact listed_perm h

theorem graphOf_reordered {contents contents' : Contents} (hkind : contents.kind = contents'.kind)
    (h : contents.listings.Reordered contents'.listings) {graph : Graph}
    (hgraph : topology.graphOf level contents = .ok graph) :
    topology.graphOf level contents' = .ok (topology.draw level contents'.listings) := by
  obtain ⟨hsame, hadmits, _⟩ := graphOf_eq_ok_iff.mp hgraph
  exact graphOf_eq_ok_iff.mpr ⟨hkind.symm.trans hsame, hadmits.perm h.switches, rfl⟩

/-- If the levels that two variants have under an id are of one kind and the same is listed for both
in any order, there is a graph of both or of none. Then the components are equal, and so are the
buses, but for the order of the vertices at each point; if only the switches are reordered, they are
equal in all. The validator is that of a view, or it does not depend on the order of the vertices at
a point. -/
theorem reordering_keeps_buses (first second : Store) (topology : Topology)
    (context context' : Context) (level : String) (number number' : UInt32)
    (record record' : LevelRecord) (hnumber : context.number = .ok number)
    (hnumber' : context'.number = .ok number') (hrecord : first.record? number level = some record)
    (hrecord' : second.record? number' level = some record')
    (hkind : record.contents.kind = record'.contents.kind)
    (hlistings : record.contents.listings.Reordered record'.contents.listings)
    (hvalidator : (∃ view : View, topology.validator = view.validator) ∨
      topology.validator.Unordered) :
    ((∃ graph, ((topology.graph context level).outcome Store.index first).1 = .ok graph) ↔
      ∃ graph', ((topology.graph context' level).outcome Store.index second).1 = .ok graph') ∧
    ∀ graph graph', ((topology.graph context level).outcome Store.index first).1 = .ok graph →
      ((topology.graph context' level).outcome Store.index second).1 = .ok graph' →
      graph.components = graph'.components ∧
      ∃ buses buses',
        ((topology.buses context level).outcome Store.index first).1 = .ok buses ∧
        ((topology.buses context' level).outcome Store.index second).1 = .ok buses' ∧
        List.Forall₂ Bus.Reordered buses.toList buses'.toList ∧
        (record.contents.listings.injections = record'.contents.listings.injections →
          record.contents.listings.branches = record'.contents.listings.branches →
          record.contents.listings.transformers = record'.contents.listings.transformers →
            buses = buses') := by
  have hunordered : topology.validator.Unordered := by
    rcases hvalidator with ⟨view, hview⟩ | hunordered
    · rw [hview]
      exact view.unordered_validator
    · exact hunordered
  have hfirst : (topology.graph context level).outcome Store.index first = _ :=
    Store.outcome_graph hrecord hnumber
  have hsecond : (topology.graph context' level).outcome Store.index second = _ :=
    Store.outcome_graph hrecord' hnumber'
  rw [hfirst, hsecond]
  refine ⟨⟨?_, ?_⟩, ?_⟩
  · rintro ⟨graph, hgraph⟩
    exact ⟨_, graphOf_reordered hkind hlistings hgraph⟩
  · rintro ⟨graph', hgraph'⟩
    exact ⟨_, graphOf_reordered hkind.symm hlistings.symm hgraph'⟩
  · intro graph graph' hgraph hgraph'
    dsimp only at hgraph hgraph'
    rw [Store.outcome_buses_of_graph (Prod.ext (by rw [hfirst, hgraph]) rfl),
      Store.outcome_buses_of_graph (Prod.ext (by rw [hsecond, hgraph']) rfl)]
    obtain ⟨_, _, rfl⟩ := graphOf_eq_ok_iff.mp hgraph
    obtain ⟨_, _, rfl⟩ := graphOf_eq_ok_iff.mp hgraph'
    have hreordered := reordered_draw topology level hlistings
    obtain ⟨buses, buses', hbuses, hbuses', hsame⟩ := hreordered.buses hunordered
    refine ⟨hreordered.components, buses, buses', hbuses, hbuses', hsame, ?_⟩
    intro hinjections hbranches htransformers
    have hvertices : (topology.draw level record.contents.listings).vertices =
        (topology.draw level record'.contents.listings).vertices := by
      rw [vertices_draw, vertices_draw, listed, listed, hinjections, hbranches, htransformers]
    have hequal := hreordered.buses_eq hvertices topology.validator
    rw [hbuses, hbuses'] at hequal
    exact Except.ok.inj hequal

/-- A busbar section at node 1 and two loads at node 2, with two parallel switches between the
nodes, to be entered in a level. -/
def parallelFeed : List Operation :=
  [.addInjection 0 ⟨"B", .busbarSection, { level := "A", node := some 1 }⟩,
    .addInjection 0 ⟨"L", .load, { level := "A", node := some 2 }⟩,
    .addInjection 0 ⟨"M", .load, { level := "A", node := some 2 }⟩,
    .addSwitch 0 ⟨"S", .switch,
      { level := "A", one := { node := some 1 }, two := { node := some 2 } }⟩,
    .addSwitch 0 ⟨"T", .switch,
      { level := "A", one := { node := some 2 }, two := { node := some 1 } }⟩]

/-- A node-breaker level in which the given is entered. -/
def feedIn (operations : List Operation) : Store :=
  Store.new.run (.addLevel 0 ⟨"A", .voltageLevel, { kind := .nodeBreaker }⟩ :: operations)

/-- Entered backwards, the level has the same bus, with the loads the other way round. -/
theorem reordering_keeps_buses_backwards :
    let topology := (make .nodeBreaker .busView false {}).1
    let busesIn (store : Store) := ((topology.buses {} "A").outcome Store.index store).1
    ∃ buses buses', busesIn (feedIn parallelFeed) = .ok buses ∧
      busesIn (feedIn parallelFeed.reverse) = .ok buses' ∧
      buses.toList.map (fun bus => (bus.id, bus.equipment)) = [("A_1", ["B", "L", "M"])] ∧
      buses'.toList.map (fun bus => (bus.id, bus.equipment)) = [("A_1", ["B", "M", "L"])] ∧
      List.Forall₂ Bus.Reordered buses.toList buses'.toList := by
  obtain ⟨_, hbuses⟩ := reordering_keeps_buses (feedIn parallelFeed) (feedIn parallelFeed.reverse)
    (make .nodeBreaker .busView false {}).1 {} {} "A" 0 0 _ _ rfl rfl rfl rfl rfl
    (Network.reordered_listings (by decide) (by decide) (by decide) (by decide) "A")
    (.inl ⟨.busView, rfl⟩)
  obtain ⟨_, buses, buses', hfirst, hsecond, hsame, _⟩ := hbuses _ _ rfl rfl
  refine ⟨buses, buses', hfirst, hsecond, ?_, ?_, hsame⟩
  · rw [← Except.ok.inj ((rfl : _ = _).trans hfirst)]
    rfl
  · rw [← Except.ok.inj ((rfl : _ = _).trans hsecond)]
    rfl

end Topology

end Switchyard
