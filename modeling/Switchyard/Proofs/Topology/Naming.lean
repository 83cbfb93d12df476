import Mathlib.Algebra.GroupWithZero.Nat
import Mathlib.Data.List.Nodup
import Switchyard.Proofs.Topology.Answers
import Switchyard.Proofs.Topology.Single

/-!
What the id of a bus tells.

The id is that of the level, an underscore and the smallest point. A level's id may itself hold
underscores and digits, but the decimal rendering of a node holds no underscore, so the last
underscore of the id is where the level's id ends (`level_node_of_id`). Whatever an index answers,
a node-breaker topology makes graphs of nodes alone (`graph_returns`). So the ids of the buses of
node-breaker levels tell the level and the smallest node, and in one view the buses of any levels
can be kept together by id (`node_bus_ids_tell_level_and_node`).
-/

namespace Switchyard

/-! ### Ids -/

/-- A cut at the last place of a separator leaves no room for a later one. -/
theorem eq_nil_of_cut {α : Type} {separator : α} {more back back' : List α} (h : separator ∉ back)
    (hcut : separator :: back = more ++ separator :: back') : more = [] := by
  cases more with
  | nil => rfl
  | cons first rest =>
    have hlater : separator ∈ back := by
      rw [(List.cons.inj hcut).2]
      exact List.mem_append_right rest List.mem_cons_self
    exact absurd hlater h

/-- A list can be cut in one way at the last place of a separator. -/
theorem cut_at_last_inj {α : Type} {separator : α} {front front' back back' : List α}
    (h : separator ∉ back) (h' : separator ∉ back')
    (hsame : front ++ separator :: back = front' ++ separator :: back') :
    front = front' ∧ back = back' := by
  rcases List.append_eq_append_iff.mp hsame with ⟨more, rfl, hback⟩ | ⟨more, rfl, hback⟩
  · cases eq_nil_of_cut h hback
    exact ⟨(List.append_nil front).symm, (List.cons.inj hback).2⟩
  · cases eq_nil_of_cut h' hback
    exact ⟨List.append_nil front', (List.cons.inj hback).2.symm⟩

/-- A decimal rendering has no underscore. -/
theorem underscore_not_mem_toString (number : UInt32) : '_' ∉ (toString number).toList := by
  intro h
  have hdigits : '_' ∈ Nat.toDigits 10 number.toNat := by
    rw [← Nat.toList_repr]
    exact h
  have hdigit := Nat.isDigit_of_mem_toDigits (by decide) (by decide) hdigits
  revert hdigit
  decide

/-- The id of a bus in a node-breaker level tells the level and the node, whatever characters the
id of the level has. -/
theorem level_node_of_id {level level' : String} {node node' : UInt32}
    (h : level ++ "_" ++ toString node = level' ++ "_" ++ toString node') :
    level = level' ∧ node = node' := by
  have hlists : level.toList ++ '_' :: (toString node).toList =
      level'.toList ++ '_' :: (toString node').toList := by
    simpa [String.toList_append] using congrArg String.toList h
  obtain ⟨hlevel, hnode⟩ := cut_at_last_inj (underscore_not_mem_toString node)
    (underscore_not_mem_toString node') hlists
  exact ⟨String.toList_injective hlevel, toString_inj (String.toList_injective hnode)⟩

/-! ### What an id tells -/

/-- All points are nodes, and the node is the smallest of them. -/
def IsSmallestNode (points : PointSet) (node : UInt32) : Prop :=
  .node node ∈ points ∧ ∀ p ∈ points, ∃ other, p = .node other ∧ node ≤ other

/-- The bus belongs to the level, and is named after the level and its smallest node. -/
structure Bus.NamedAfter (bus : Bus) (level : String) (node : UInt32) : Prop where
  belongs : bus.level = level
  smallest : IsSmallestNode bus.points node
  named : bus.id = level ++ "_" ++ toString node

/-- Buses with one id belong to one level and have the same smallest node. -/
theorem Bus.NamedAfter.eq_of_id_eq {bus bus' : Bus} {level level' : String} {node node' : UInt32}
    (h : bus.NamedAfter level node) (h' : bus'.NamedAfter level' node') (hid : bus.id = bus'.id) :
    level = level' ∧ node = node' := by
  rw [h.named, h'.named] at hid
  exact level_node_of_id hid

theorem Point.exists_node {p : Point} (h : p.kind = .nodeBreaker) : ∃ node, p = .node node := by
  cases p with
  | node number => exact ⟨number, rfl⟩
  | bus id => cases h

namespace Graph

variable {graph : Graph} {validator : BusValidator} {bus : Bus} {buses : Buses}

theorem namedAfter_of_busFor (hnodes : ∀ p ∈ graph.points, p.kind = .nodeBreaker)
    {component : PointSet} (h : component ∈ graph.components)
    (hbus : graph.busFor component = some bus) : ∃ node, bus.NamedAfter graph.level node := by
  obtain ⟨least, hleast, rfl⟩ := Option.map_eq_some_iff.mp hbus
  obtain ⟨hmem, hfirst⟩ := Ascending.least?_eq_some_iff.mp hleast
  have hnode : ∀ p ∈ component, ∃ node, p = .node node := fun p hp =>
    Point.exists_node (hnodes p (mem_points_of_mem_components h hp))
  obtain ⟨node, rfl⟩ := hnode least hmem
  refine ⟨node, rfl, ⟨hmem, fun p hp => ?_⟩, rfl⟩
  obtain ⟨other, rfl⟩ := hnode p hp
  refine ⟨other, rfl, ?_⟩
  rcases hfirst _ hp with hsame | hlater
  · exact UInt32.le_of_eq (Point.node.inj hsame).symm
  · exact UInt32.le_of_lt hlater

theorem namedAfter_of_mem_buses (hnodes : ∀ p ∈ graph.points, p.kind = .nodeBreaker)
    (h : graph.buses validator = .ok buses) (hbus : bus ∈ buses) :
    ∃ node, bus.NamedAfter graph.level node := by
  obtain ⟨component, hcomponent, _, hbus⟩ := (mem_buses hnodes h).mp hbus
  exact namedAfter_of_busFor hnodes hcomponent hbus

theorem namedAfter_of_busAt (hnodes : ∀ p ∈ graph.points, p.kind = .nodeBreaker) {start : Point}
    (h : graph.busAt validator start = .ok (some bus)) :
    ∃ node, bus.NamedAfter graph.level node := by
  obtain ⟨buses, hbuses, hkept, _⟩ := ((busAt_agrees hnodes validator).found start bus).mp h
  exact namedAfter_of_mem_buses hnodes hbuses (Ascending.get?_eq_some_iff.mp hkept).1

end Graph

namespace Topology

variable {topology : Topology} {level : String} {bus : Bus}

/-- The bus is one that the topology works out for the level from what some index answers, among all
buses or at a point, or that some validator accepts in a graph that the topology works out. -/
inductive WorksOut (topology : Topology) (level : String) (bus : Bus) : Prop
  | all {σ : Type} (server : Server indexProtocol σ) (state : σ) (context : Context)
      (buses : Buses) (h : ((topology.buses context level).outcome server state).1 = .ok buses)
      (hbus : bus ∈ buses)
  | single {σ : Type} (server : Server indexProtocol σ) (state : σ) (context : Context)
      (start : Point)
      (h : ((topology.busAt context level start).outcome server state).1 = .ok (some bus))
  | allOfGraph {σ : Type} (server : Server indexProtocol σ) (state : σ) (context : Context)
      (graph : Graph) (validator : BusValidator) (buses : Buses)
      (h : ((topology.graph context level).outcome server state).1 = .ok graph)
      (hbuses : graph.buses validator = .ok buses) (hbus : bus ∈ buses)
  | singleOfGraph {σ : Type} (server : Server indexProtocol σ) (state : σ) (context : Context)
      (graph : Graph) (validator : BusValidator) (start : Point)
      (h : ((topology.graph context level).outcome server state).1 = .ok graph)
      (hbus : graph.busAt validator start = .ok (some bus))

theorem Suits.nodes {graph : Graph} (h : topology.Suits level graph)
    (hkind : topology.kind = .nodeBreaker) : ∀ p ∈ graph.points, p.kind = .nodeBreaker :=
  fun p hp => (h.kind p hp).trans hkind

/-- A bus of a node-breaker level is named after the level and its smallest node. -/
theorem WorksOut.namedAfter (h : topology.WorksOut level bus)
    (hkind : topology.kind = .nodeBreaker) : ∃ node, bus.NamedAfter level node := by
  cases h with
  | all server state context buses h hbus =>
    obtain ⟨graph, hsuits, hbuses⟩ := buses_returns.outcome h
    exact hsuits.level ▸ Graph.namedAfter_of_mem_buses (hsuits.nodes hkind) hbuses hbus
  | single server state context start h =>
    obtain ⟨graph, hsuits, hbus⟩ := busAt_returns.outcome h
    exact hsuits.level ▸ Graph.namedAfter_of_busAt (hsuits.nodes hkind) hbus
  | allOfGraph server state context graph validator buses h hbuses hbus =>
    have hsuits := graph_returns.outcome h
    exact hsuits.level ▸ Graph.namedAfter_of_mem_buses (hsuits.nodes hkind) hbuses hbus
  | singleOfGraph server state context graph validator start h hbus =>
    have hsuits := graph_returns.outcome h
    exact hsuits.level ▸ Graph.namedAfter_of_busAt (hsuits.nodes hkind) hbus

end Topology

/-! ### Buses of several levels -/

namespace Buses

variable {maps : List Buses} {bus : Bus}

/-- Several maps of buses in one, by id. -/
def merge (maps : List Buses) : Buses := .ofList Bus.id (maps.flatMap (·.toList))

/-- In the maps, buses with one id are one bus. -/
def OneToAnId (maps : List Buses) : Prop :=
  ∀ one ∈ maps, ∀ other ∈ maps, ∀ bus ∈ one, ∀ bus' ∈ other, bus.id = bus'.id → bus = bus'

/-- Where there is one bus to an id, none is lost. -/
theorem mem_merge (h : OneToAnId maps) : bus ∈ merge maps ↔ ∃ map ∈ maps, bus ∈ map := by
  rw [merge, Ascending.mem_ofList, List.mem_flatMap]
  · rfl
  · intro bus hbus bus' hbus' hid
    obtain ⟨one, hone, hbus⟩ := List.mem_flatMap.mp hbus
    obtain ⟨other, hother, hbus'⟩ := List.mem_flatMap.mp hbus'
    exact h one hone other hother bus hbus bus' hbus' hid

/-- If also no bus is in two of the maps, there are as many as in all maps together. -/
theorem size_merge (h : OneToAnId maps)
    (hapart : maps.Pairwise fun one other => ∀ bus ∈ one, ¬ bus ∈ other) :
    (merge maps).size = (maps.map Ascending.size).sum := by
  have hnodup : (maps.flatMap (·.toList)).Nodup := List.nodup_flatMap.mpr
    ⟨fun map _ => Ascending.nodup_toList map, hapart.imp fun happart bus hone hother =>
      happart bus hone hother⟩
  have hperm : (merge maps).toList.Perm (maps.flatMap (·.toList)) := by
    refine (List.perm_ext_iff_of_nodup (Ascending.nodup_toList _) hnodup).mpr fun bus => ?_
    rw [Ascending.mem_toList, mem_merge h, List.mem_flatMap]
    rfl
  rw [Ascending.size, hperm.length_eq, List.length_flatMap]
  rfl

end Buses

namespace Store

variable {store : Store} {context : Context} {topology other : Topology} {level level' : String}
  {view : View} {buses buses' : Buses} {bus bus' : Bus}

/-- All buses of a level are those of its graph. -/
theorem exists_graph_of_buses
    (h : ((topology.buses context level).outcome index store).1 = .ok buses) :
    ∃ graph, ((topology.graph context level).outcome index store).1 = .ok graph ∧
      graph.buses topology.validator = .ok buses := by
  rcases hgraph : (topology.graph context level).outcome index store with ⟨fault | graph, after⟩
  · rw [(outcome_of_no_graph hgraph).1] at h
    cases h
  · rw [outcome_buses_of_graph hgraph] at h
    exact ⟨graph, rfl, h⟩

/-- Topologies of one kind and view work out one graph of a level. -/
theorem graph_eq (hkind : topology.kind = other.kind) (hview : topology.view = other.view)
    {graph graph' : Graph} (h : ((topology.graph context level).outcome index store).1 = .ok graph)
    (h' : ((other.graph context level).outcome index store).1 = .ok graph') : graph = graph' := by
  obtain ⟨number, record, hnumber, hrecord, hgraphOf⟩ := exists_record_of_graph h
  obtain ⟨record', hrecord', hgraphOf'⟩ := record_of_graph hnumber h'
  cases hrecord.symm.trans hrecord'
  obtain ⟨_, _, rfl⟩ := Topology.graphOf_eq_ok_iff.mp hgraphOf
  obtain ⟨_, _, rfl⟩ := Topology.graphOf_eq_ok_iff.mp hgraphOf'
  obtain ⟨_, _, _, _, _⟩ := topology
  obtain ⟨_, _, _, _, _⟩ := other
  cases hkind
  cases hview
  rfl

/-- These are all buses of a level in the working variant, as some node-breaker topology of the view
works them out. -/
def HasBuses (store : Store) (context : Context) (view : View) (level : String) (buses : Buses) :
    Prop :=
  ∃ topology : Topology, topology.kind = .nodeBreaker ∧ topology.view = view ∧
    ((topology.buses context level).outcome index store).1 = .ok buses

/-- In one view, buses with one id are one bus. -/
theorem HasBuses.eq_of_id_eq (h : store.HasBuses context view level buses)
    (h' : store.HasBuses context view level' buses') (hbus : bus ∈ buses) (hbus' : bus' ∈ buses')
    (hid : bus.id = bus'.id) : level = level' ∧ bus = bus' := by
  obtain ⟨topology, hkind, hview, hbuses⟩ := h
  obtain ⟨other, hkind', hview', hbuses'⟩ := h'
  obtain ⟨node, hnamed⟩ := (Topology.WorksOut.all _ _ _ _ hbuses hbus).namedAfter hkind
  obtain ⟨node', hnamed'⟩ := (Topology.WorksOut.all _ _ _ _ hbuses' hbus').namedAfter hkind'
  obtain ⟨rfl, _⟩ := hnamed.eq_of_id_eq hnamed' hid
  obtain ⟨graph, hgraph, hmade⟩ := exists_graph_of_buses hbuses
  obtain ⟨graph', hgraph', hmade'⟩ := exists_graph_of_buses hbuses'
  cases graph_eq (hkind.trans hkind'.symm) (hview.trans hview'.symm) hgraph hgraph'
  have hnodes := kind_of_graph hgraph
  obtain ⟨component, hcomponent, _, hfor⟩ := (Graph.mem_buses hnodes hmade).mp hbus
  obtain ⟨component', hcomponent', _, hfor'⟩ := (Graph.mem_buses hnodes hmade').mp hbus'
  exact ⟨rfl, Graph.busFor_inj hnodes hcomponent hcomponent' hfor hfor' hid⟩

end Store

/-- The id of a bus in a node-breaker level tells the level and the smallest node, whatever the ids
of levels are and whatever the buses are worked out from. So in one view, all buses of any levels of
a variant fit into one map: none is lost, none is added, and if the levels are distinct, there are
as many buses in it as in the maps of the levels together. -/
theorem node_bus_ids_tell_level_and_node :
    (∀ (topology topology' : Topology) (level level' : String) (bus bus' : Bus),
      topology.kind = .nodeBreaker → topology'.kind = .nodeBreaker →
      topology.WorksOut level bus → topology'.WorksOut level' bus' → bus.id = bus'.id →
        level = level' ∧ bus.level = level ∧ bus'.level = level' ∧
          ∃ node, IsSmallestNode bus.points node ∧ IsSmallestNode bus'.points node) ∧
    ∀ (store : Store) (context : Context) (view : View) (maps : List (String × Buses)),
      (∀ map ∈ maps, store.HasBuses context view map.1 map.2) →
        (∀ bus, bus ∈ Buses.merge (maps.map (·.2)) ↔ ∃ map ∈ maps, bus ∈ map.2) ∧
        ((maps.map (·.1)).Nodup →
          (Buses.merge (maps.map (·.2))).size = (maps.map fun map => map.2.size).sum) := by
  refine ⟨fun topology topology' level level' bus bus' hkind hkind' hbus hbus' hid => ?_,
    fun store context view maps hmaps => ?_⟩
  · obtain ⟨node, hnamed⟩ := hbus.namedAfter hkind
    obtain ⟨node', hnamed'⟩ := hbus'.namedAfter hkind'
    obtain ⟨hlevel, rfl⟩ := hnamed.eq_of_id_eq hnamed' hid
    exact ⟨hlevel, hnamed.belongs, hnamed'.belongs, node, hnamed.smallest, hnamed'.smallest⟩
  · have hsame : Buses.OneToAnId (maps.map (·.2)) := by
      intro one hone other hother bus hbus bus' hbus' hid
      obtain ⟨map, hmap, rfl⟩ := List.mem_map.mp hone
      obtain ⟨map', hmap', rfl⟩ := List.mem_map.mp hother
      exact ((hmaps map hmap).eq_of_id_eq (hmaps map' hmap') hbus hbus' hid).2
    refine ⟨fun bus => ?_, fun hdistinct => ?_⟩
    · rw [Buses.mem_merge hsame]
      simp only [List.mem_map, exists_exists_and_eq_and]
    · -- a bus that is in two maps would have two levels
      have hapart : (maps.map (·.2)).Pairwise fun one other => ∀ bus ∈ one, ¬ bus ∈ other := by
        refine List.pairwise_map.mpr ((List.pairwise_map.mp hdistinct).imp_of_mem ?_)
        intro map map' hmap hmap' hne bus hbus hbus'
        exact hne ((hmaps map hmap).eq_of_id_eq (hmaps map' hmap') hbus hbus' rfl).1
      rw [Buses.size_merge hsame hapart, List.map_map]
      rfl

/-- Two levels, the id of one of which is also the id of a bus of the other. The level A has a load
at node 1 and a busbar section at node 10, joined by a retained switch, and A_1 has a load at
node 1. -/
def nestedLevels : Store :=
  [.addLevel 0 ⟨"A", .voltageLevel, { kind := .nodeBreaker }⟩,
    .addLevel 0 ⟨"A_1", .voltageLevel, { kind := .nodeBreaker }⟩,
    .addInjection 0 ⟨"L", .load, { level := "A", node := some 1 }⟩,
    .addInjection 0 ⟨"B", .busbarSection, { level := "A", node := some 10 }⟩,
    .addInjection 0 ⟨"M", .load, { level := "A_1", node := some 1 }⟩,
    .addSwitch 0 ⟨"S", .switch,
      { level := "A", isRetained := true, one := { node := some 1 }, two := { node := some 10 } }⟩
    ].foldl Store.after .new

/-- The switch joins the nodes of A to one bus in the bus view only. There and in the bus-breaker
view, a bus has the id A_1, and both start at node 1. In the bus-breaker view, the buses of A and
that of A_1 are three. -/
theorem node_bus_ids_tell_level_and_node_nested :
    let coarse := (Topology.make .nodeBreaker .busView false {}).1
    let fine := (Topology.make .nodeBreaker .busBreakerView false {}).1
    let load : Vertex := ⟨"L", .load, .node 1, none⟩
    let busbar : Vertex := ⟨"B", .busbarSection, .node 10, none⟩
    let whole : Bus := ⟨"A_1", "A", .ofList id [.node 1, .node 10], [load, busbar]⟩
    let part : Bus := ⟨"A_1", "A", .ofList id [.node 1], [load]⟩
    let rest : Bus := ⟨"A_10", "A", .ofList id [.node 10], [busbar]⟩
    let nested : Bus := ⟨"A_1_1", "A_1", .ofList id [.node 1], [⟨"M", .load, .node 1, none⟩]⟩
    let maps := [("A", .ofList Bus.id [part, rest]), ("A_1", .ofList Bus.id [nested])]
    coarse.WorksOut "A" whole ∧ fine.WorksOut "A" part ∧
      (∃ node, IsSmallestNode whole.points node ∧ IsSmallestNode part.points node) ∧
      (∀ map ∈ maps, nestedLevels.HasBuses {} .busBreakerView map.1 map.2) ∧
      nested ∈ Buses.merge (maps.map (·.2)) ∧ (Buses.merge (maps.map (·.2))).size = 3 := by
  intro coarse fine load busbar whole part rest nested maps
  obtain ⟨hnames, hmerged⟩ := node_bus_ids_tell_level_and_node
  have hwhole : coarse.WorksOut "A" whole :=
    .single Store.index nestedLevels {} (.node 1) (by decide)
  have hpart : fine.WorksOut "A" part := .single Store.index nestedLevels {} (.node 1) (by decide)
  have hmaps : ∀ map ∈ maps, nestedLevels.HasBuses {} .busBreakerView map.1 map.2 :=
    List.forall_mem_cons.mpr ⟨⟨fine, rfl, rfl, by decide⟩,
      List.forall_mem_singleton.mpr ⟨fine, rfl, rfl, by decide⟩⟩
  obtain ⟨_, _, _, hnode⟩ := hnames coarse fine "A" "A" whole part rfl rfl hwhole hpart rfl
  obtain ⟨hmem, hsize⟩ := hmerged nestedLevels {} .busBreakerView maps hmaps
  refine ⟨hwhole, hpart, hnode, hmaps, (hmem nested).mpr ?_, (hsize (by decide)).trans (by decide)⟩
  exact ⟨_, List.mem_cons_of_mem _ List.mem_cons_self, List.mem_singleton_self nested⟩

end Switchyard
