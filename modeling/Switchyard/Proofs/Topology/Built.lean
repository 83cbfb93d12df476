import Mathlib.Tactic.Tauto
import Switchyard.Proofs.Graph.Subgraph
import Switchyard.Proofs.Topology.Bridges

/-!
Which levels a graph can be made of, and what it consists of.

Two things are refused: a second switch with an id, and a switch that merges, has an end that is not
resolved, and may not dangle (`Admits`). A graph of a level can be made if the level is of the
topology's kind and its switches are admitted, and then it is the one that `draw` gives
(`graphOf_eq_ok_iff`). So a level can be compared before and after a change, or in two views, by
asking apart whether its switches are admitted and how the drawings differ. What is drawn has the
listed vertices, the points of the vertices and the ends of bridges, and links what chains of
bridges join (`graphOf_built`).
-/

namespace Switchyard

/-! ### Graphs that are put together -/

namespace Graph

variable {graph : Graph} {p : Point}

theorem foldl_attach : ∀ (vertices : List Vertex) (graph : Graph),
    (vertices.foldl attach graph).level = graph.level ∧
    (vertices.foldl attach graph).vertices = graph.vertices ++ vertices ∧
    (vertices.foldl attach graph).switches = graph.switches ∧
    ∀ p, p ∈ (vertices.foldl attach graph).points ↔
      p ∈ graph.points ∨ ∃ v ∈ vertices, v.point = p
  | [], graph => by simp
  | v :: vs, graph => by
    obtain ⟨hlevel, hvertices, hswitches, hpoints⟩ := foldl_attach vs (graph.attach v)
    refine ⟨hlevel, by rw [List.foldl_cons, hvertices]; simp [attach], hswitches, fun p => ?_⟩
    rw [List.foldl_cons, hpoints, attach, mem_extend]
    simp [or_assoc, eq_comm]

theorem foldl_addSwitch : ∀ (edges : List Edge) (graph : Graph),
    (edges.foldl addSwitch graph).level = graph.level ∧
    (edges.foldl addSwitch graph).vertices = graph.vertices ∧
    (edges.foldl addSwitch graph).switches = graph.switches ++ edges ∧
    ∀ p, p ∈ (edges.foldl addSwitch graph).points ↔
      p ∈ graph.points ∨ ∃ e ∈ edges, e.one = p ∨ e.two = p
  | [], graph => by simp
  | e :: es, graph => by
    obtain ⟨hlevel, hvertices, hswitches, hpoints⟩ := foldl_addSwitch es (graph.addSwitch e)
    refine ⟨hlevel, hvertices, by rw [List.foldl_cons, hswitches]; simp [addSwitch], fun p => ?_⟩
    rw [List.foldl_cons, hpoints, addSwitch, mem_extend, mem_extend]
    simp [or_assoc, eq_comm]

end Graph

namespace Topology

variable {topology : Topology} {level : String} {listings : Listings} {contents : Contents}
  {graph result : Graph} {switch : Resource Switch} {switches : List (Resource Switch)}
  {seen : List String} {p : Point}

/-- No two of the switches share an id, and each that merges has both ends resolved, unless it may
dangle. -/
structure Admits (topology : Topology) (switches : List (Resource Switch)) : Prop where
  distinct : (switches.map Resource.id).Nodup
  resolved : ∀ switch ∈ switches, topology.Merges switch.attributes →
    topology.allowDangling = true ∨ topology.IsBridge switch

/-- The graph of what is listed for a level, if it can be made. -/
def draw (topology : Topology) (level : String) (listings : Listings) : Graph :=
  (listings.switches.filterMap topology.bridge).foldl Graph.addSwitch
    (.ofVertices level (topology.listed level listings))

/-! ### One switch -/

/-- A switch that is not refused has the edge of its bridge. -/
theorem edge_eq_ok_iff {edge : Option Edge} :
    topology.edge switch = .ok edge ↔
      (topology.Merges switch.attributes →
        topology.allowDangling = true ∨ topology.IsBridge switch) ∧
      edge = topology.bridge switch := by
  unfold Topology.edge bridge IsBridge
  by_cases hmerges : topology.Merges switch.attributes
  · rw [if_pos (merges_iff.mpr hmerges), if_pos (merges_iff.mpr hmerges)]
    cases topology.kind.resolve switch.attributes.one <;>
      cases topology.kind.resolve switch.attributes.two <;>
      cases topology.allowDangling <;> simp [hmerges, eq_comm (b := edge)]
  · rw [if_neg (mt merges_iff.mp hmerges), if_neg (mt merges_iff.mp hmerges)]
    simp [hmerges, eq_comm (b := edge)]

/-! ### All switches -/

theorem admits_nil (topology : Topology) : topology.Admits [] where
  distinct := .nil
  resolved _ h := nomatch h

theorem admits_cons :
    topology.Admits (switch :: switches) ↔
      (∀ other ∈ switches, other.id ≠ switch.id) ∧
      (topology.Merges switch.attributes →
        topology.allowDangling = true ∨ topology.IsBridge switch) ∧
      topology.Admits switches := by
  constructor
  · rintro ⟨hdistinct, hresolved⟩
    rw [List.map_cons, List.nodup_cons] at hdistinct
    refine ⟨fun other hother hid => ?_, hresolved switch List.mem_cons_self, hdistinct.2,
      fun other hother => hresolved other (List.mem_cons_of_mem switch hother)⟩
    exact hdistinct.1 (hid ▸ List.mem_map_of_mem hother)
  · rintro ⟨hnew, hswitch, hdistinct, hresolved⟩
    refine ⟨List.nodup_cons.mpr ⟨fun hid => ?_, hdistinct⟩, fun other hother => ?_⟩
    · obtain ⟨other, hother, hid⟩ := List.mem_map.mp hid
      exact hnew other hother hid
    · rcases List.mem_cons.mp hother with rfl | hother
      · exact hswitch
      · exact hresolved other hother

/-- Switches are connected if they are admitted and none of them was seen before. -/
theorem connect_eq_ok_iff :
    topology.connect seen graph switches = .ok result ↔
      (∀ switch ∈ switches, switch.id ∉ seen) ∧ topology.Admits switches ∧
        result = (switches.filterMap topology.bridge).foldl Graph.addSwitch graph := by
  induction switches generalizing seen graph with
  | nil =>
    rw [connect, Except.ok.injEq]
    exact ⟨fun h => ⟨fun _ hin => (nomatch hin), topology.admits_nil, h.symm⟩, fun h => h.2.2.symm⟩
  | cons switch rest ih =>
    rw [connect, admits_cons]
    by_cases hseen : switch.id ∈ seen
    · rw [if_pos hseen]
      exact ⟨nofun, fun h => absurd hseen (h.1 switch List.mem_cons_self)⟩
    rw [if_neg hseen]
    -- with the first switch seen, the rest must avoid its id as well
    have hrest : (∀ other ∈ rest, other.id ∉ switch.id :: seen) ↔
        (∀ other ∈ rest, other.id ≠ switch.id) ∧ ∀ other ∈ rest, other.id ∉ seen := by
      simp only [List.mem_cons, not_or, forall_and, ne_eq]
    have hall : (∀ other ∈ switch :: rest, other.id ∉ seen) ↔ ∀ other ∈ rest, other.id ∉ seen := by
      simp [hseen]
    rw [hall]
    cases hedge : topology.edge switch with
    | error fault =>
      refine ⟨nofun, fun h => ?_⟩
      have hok := edge_eq_ok_iff.mpr ⟨h.2.1.2.1, rfl⟩
      rw [hedge] at hok
      cases hok
    | ok edge =>
      obtain ⟨hresolved, hbridge⟩ := edge_eq_ok_iff.mp hedge
      cases edge with
      | none =>
        rw [List.filterMap_cons_none hbridge.symm]
        refine (@ih graph (switch.id :: seen)).trans ?_
        rw [hrest]
        tauto
      | some edge =>
        rw [List.filterMap_cons_some hbridge.symm, List.foldl_cons]
        refine (@ih (graph.addSwitch edge) (switch.id :: seen)).trans ?_
        rw [hrest]
        tauto

/-- A graph of a level can be made just if the level is of the topology's kind and its switches are
admitted, and then it is drawn. -/
theorem graphOf_eq_ok_iff :
    topology.graphOf level contents = .ok graph ↔
      contents.kind = topology.kind ∧ topology.Admits contents.listings.switches ∧
        graph = topology.draw level contents.listings := by
  unfold graphOf draw
  by_cases hkind : contents.kind = topology.kind
  · rw [if_pos hkind]
    refine connect_eq_ok_iff.trans ?_
    simp [hkind]
  · rw [if_neg hkind]
    exact ⟨nofun, fun h => absurd h.1 hkind⟩

/-! ### What is drawn -/

theorem level_draw (topology : Topology) (level : String) (listings : Listings) :
    (topology.draw level listings).level = level := by
  rw [draw, (Graph.foldl_addSwitch _ _).1, Graph.ofVertices, (Graph.foldl_attach _ _).1]
  rfl

theorem vertices_draw (topology : Topology) (level : String) (listings : Listings) :
    (topology.draw level listings).vertices = topology.listed level listings := by
  rw [draw, (Graph.foldl_addSwitch _ _).2.1, Graph.ofVertices, (Graph.foldl_attach _ _).2.1]
  rfl

theorem switches_draw (topology : Topology) (level : String) (listings : Listings) :
    (topology.draw level listings).switches = listings.switches.filterMap topology.bridge := by
  rw [draw, (Graph.foldl_addSwitch _ _).2.2.1, Graph.ofVertices, (Graph.foldl_attach _ _).2.2.1]
  rfl

/-- The points that are drawn are those of the vertices and the ends of the switches. -/
theorem mem_points_draw :
    p ∈ (topology.draw level listings).points ↔
      (∃ v ∈ topology.listed level listings, v.point = p) ∨
        ∃ e ∈ listings.switches.filterMap topology.bridge, e.one = p ∨ e.two = p := by
  have hnone : ¬ p ∈ (Graph.empty level).points := List.not_mem_nil
  rw [draw, (Graph.foldl_addSwitch _ _).2.2.2, Graph.ofVertices, (Graph.foldl_attach _ _).2.2.2,
    or_iff_right hnone]

theorem spanned_draw (topology : Topology) (level : String) (listings : Listings) :
    (topology.draw level listings).Spanned := fun p hp => by
  rw [vertices_draw, switches_draw]
  exact mem_points_draw.mp hp

/-! ### The graph in terms of the listings -/

/-- The graph has the level's vertices and points, and links what the level's bridges link. -/
structure Built (topology : Topology) (level : String) (listings : Listings) (graph : Graph) :
    Prop where
  named : graph.level = level
  vertices : graph.vertices = topology.listed level listings
  points : ∀ p, p ∈ graph.points ↔ topology.IsPoint level listings p
  linked : ∀ p q, Linked graph.switches p q ↔ topology.Links listings p q

theorem built_draw (topology : Topology) (level : String) (listings : Listings) :
    topology.Built level listings (topology.draw level listings) := by
  have hjoined : Joined (listings.switches.filterMap topology.bridge) =
      fun p q => topology.Bridged listings p q ∨ topology.Bridged listings q p :=
    funext fun p => funext fun q => propext joined_iff
  refine ⟨level_draw .., vertices_draw .., fun p => ?_, fun p q => ?_⟩
  · rw [mem_points_draw, ← exists_joined, hjoined]
    rfl
  · rw [switches_draw, Linked, Links, hjoined]

/-- A graph that can be made of the contents of a level is of the topology's kind and has all that
the contents have. -/
theorem graphOf_built (h : topology.graphOf level contents = .ok graph) :
    contents.kind = topology.kind ∧ topology.Built level contents.listings graph := by
  obtain ⟨hkind, _, rfl⟩ := graphOf_eq_ok_iff.mp h
  exact ⟨hkind, built_draw topology level contents.listings⟩

end Topology

end Switchyard
