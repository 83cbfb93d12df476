import Switchyard.Proofs.Graph.Seams
import Switchyard.Proofs.Store.Generations
import Switchyard.Proofs.Topology.Single

/-!
The two views of one level.

The bus-breaker view merges across fewer switches than the bus view: not across retained ones, and
across none at all in a bus-breaker level. So it refuses less, and its graph is within that of the
bus view, with the same vertices. What it leaves out in a node-breaker level are the closed retained
switches with both ends resolved (`Seam`); joining its components across these gives back those of
the bus view. In a bus-breaker level nothing is left but single points.
-/

namespace Switchyard

namespace Topology

variable {coarse fine : Topology} {level : String} {listings : Listings}
  {switch : Resource Switch} {switches : List (Resource Switch)} {e : Edge} {p q : Point}

/-- The topologies differ in their views, and maybe in their validators. -/
structure Paired (coarse fine : Topology) : Prop where
  kind : fine.kind = coarse.kind
  allowDangling : fine.allowDangling = coarse.allowDangling
  coarse : coarse.view = .busView
  fine : fine.view = .busBreakerView

/-- A closed retained switch leads from the first point to the second. -/
def Seam (topology : Topology) (listings : Listings) (p q : Point) : Prop :=
  ∃ switch ∈ listings.switches,
    switch.attributes.isOpen = false ∧ switch.attributes.isRetained = true ∧
    topology.kind.resolve switch.attributes.one = some p ∧
    topology.kind.resolve switch.attributes.two = some q

/-- Listing depends on the kind of the topology alone. -/
theorem listed_congr (h : fine.kind = coarse.kind) (level : String) (listings : Listings) :
    fine.listed level listings = coarse.listed level listings := by
  obtain ⟨_, _, _, _, _⟩ := fine
  obtain ⟨_, _, _, _, _⟩ := coarse
  cases h
  rfl

namespace Paired

theorem merges_coarse (h : Paired coarse fine) {switch : Switch} :
    coarse.Merges switch ↔ switch.isOpen = false := by
  rw [Merges, h.coarse]
  exact and_iff_left nofun

theorem merges_fine (h : Paired coarse fine) {switch : Switch} :
    fine.Merges switch ↔
      switch.isOpen = false ∧ coarse.kind = .nodeBreaker ∧ switch.isRetained = false := by
  rw [Merges, h.fine, h.kind]
  exact and_congr_right fun _ => forall_prop_of_true rfl

theorem merges_of_fine (h : Paired coarse fine) {switch : Switch} (hmerges : fine.Merges switch) :
    coarse.Merges switch :=
  h.merges_coarse.mpr (h.merges_fine.mp hmerges).1

theorem bridge_of_fine (h : Paired coarse fine) (hbridge : fine.bridge switch = some e) :
    coarse.bridge switch = some e := by
  obtain ⟨hmerges, hone, htwo, hid⟩ := bridge_eq_some_iff.mp hbridge
  rw [h.kind] at hone htwo
  exact bridge_eq_some_iff.mpr ⟨h.merges_of_fine hmerges, hone, htwo, hid⟩

/-- What the bus view does not refuse, the bus-breaker view does not refuse. -/
theorem admits (h : Paired coarse fine) (hadmits : coarse.Admits switches) :
    fine.Admits switches where
  distinct := hadmits.distinct
  resolved switch hswitch hmerges := by
    have hresolved := hadmits.resolved switch hswitch (h.merges_of_fine hmerges)
    rw [h.allowDangling, IsBridge, h.kind]
    exact hresolved.imp_right fun hbridge => ⟨hmerges, hbridge.2⟩

theorem within (h : Paired coarse fine) (level : String) (listings : Listings) :
    (fine.draw level listings).Within (coarse.draw level listings) := by
  refine (fine.spanned_draw level listings).within (fun v hv => ?_) fun e he => ?_
  · rw [vertices_draw, listed_congr h.kind] at hv
    rwa [vertices_draw]
  · rw [switches_draw] at he ⊢
    obtain ⟨switch, hswitch, hbridge⟩ := List.mem_filterMap.mp he
    exact List.mem_filterMap.mpr ⟨switch, hswitch, h.bridge_of_fine hbridge⟩

/-! ### Node-breaker levels -/

/-- In a node-breaker level every closed switch merges in the bus-breaker view or is a seam. -/
theorem bridged_iff (h : Paired coarse fine) (hkind : coarse.kind = .nodeBreaker) :
    coarse.Bridged listings p q ↔ fine.Bridged listings p q ∨ coarse.Seam listings p q := by
  unfold Bridged Seam
  rw [← exists_or, h.kind]
  refine exists_congr fun switch => ?_
  rw [← and_or_left, h.merges_coarse, h.merges_fine]
  cases switch.attributes.isRetained <;> simp [hkind]

theorem joined_coarse (h : Paired coarse fine) (hkind : coarse.kind = .nodeBreaker) :
    Joined (coarse.draw level listings).switches p q ↔
      Joined (fine.draw level listings).switches p q ∨
        Graph.Meets (coarse.Seam listings) p q := by
  rw [switches_draw, switches_draw, joined_iff, joined_iff, h.bridged_iff hkind,
    h.bridged_iff hkind, Graph.Meets]
  tauto

theorem coarser (h : Paired coarse fine) (hkind : coarse.kind = .nodeBreaker) (level : String)
    (listings : Listings) :
    (fine.draw level listings).Coarser (coarse.Seam listings) (coarse.draw level listings) where
  points p := by
    rw [(coarse.spanned_draw level listings).mem_points_iff,
      (fine.spanned_draw level listings).mem_points_iff, ← exists_joined, ← exists_joined,
      vertices_draw, vertices_draw, listed_congr h.kind, or_assoc, ← exists_or]
    simp only [h.joined_coarse hkind]
  joined p q := h.joined_coarse hkind

end Paired

/-! ### Both views of a level -/

/-- What the bus-breaker view of a level has beside the bus view. -/
structure Refined (coarse : Topology) (listings : Listings) (finer graph : Graph) : Prop where
  vertices : finer.vertexMap = graph.vertexMap
  /-- A component lies within one of the bus view, and meets no other. -/
  within : ∀ c ∈ finer.components, ∃ whole ∈ graph.components, (∀ p ∈ c, p ∈ whole) ∧
    ∀ other ∈ graph.components, (∃ p ∈ c, p ∈ other) → other = whole
  /-- In a node-breaker level, the components of the bus view are those of the bus-breaker view and
  the ends of seams alone that it lacks, joined across the seams. -/
  joins : coarse.kind = .nodeBreaker →
    ∀ set, set ∈ graph.components ↔ finer.IsJoin (coarse.Seam listings) set
  /-- Only where dangling is allowed may an end of a closed switch be missing. -/
  resolved : coarse.allowDangling = false →
    ∀ switch ∈ listings.switches, switch.attributes.isOpen = false →
      (coarse.kind.resolve switch.attributes.one).isSome ∧
        (coarse.kind.resolve switch.attributes.two).isSome

theorem Paired.refined (h : Paired coarse fine) (hadmits : coarse.Admits listings.switches) :
    coarse.Refined listings (fine.draw level listings) (coarse.draw level listings) where
  vertices := by
    rw [Graph.vertexMap, Graph.vertexMap, vertices_draw, vertices_draw, listed_congr h.kind]
  within _ hc := (h.within level listings).exists_component hc
  joins hkind _ := (h.coarser hkind level listings).mem_components_iff
  resolved hallow switch hswitch hclosed := by
    rcases hadmits.resolved switch hswitch (h.merges_coarse.mpr hclosed) with hdangling | hbridge
    · rw [hallow] at hdangling
      cases hdangling
    · exact hbridge.2

/-- Where there is a graph of the bus view, there is one of the bus-breaker view. -/
theorem Paired.graphOf (h : Paired coarse fine) {contents : Contents} {graph : Graph}
    (hgraph : coarse.graphOf level contents = .ok graph) :
    ∃ finer, fine.graphOf level contents = .ok finer ∧
      coarse.Refined contents.listings finer graph := by
  obtain ⟨hkind, hadmits, rfl⟩ := graphOf_eq_ok_iff.mp hgraph
  exact ⟨_, graphOf_eq_ok_iff.mpr ⟨hkind.trans h.kind.symm, h.admits hadmits, rfl⟩,
    h.refined hadmits⟩

end Topology

/-! ### Bus-breaker levels -/

/-- The bus of a single point, with the listed vertices that are there. -/
def singleBus (level : String) (vertices : List Vertex) (p : Point) : Bus where
  id := level ++ "_" ++ p.text
  level
  points := .ofList id [p]
  vertices := vertices.filter (·.point = p)

namespace Graph

variable {graph : Graph} {bus : Bus}

/-- Without switches, the components are the single points. -/
theorem mem_components_of_no_switches (h : graph.switches = []) {component : PointSet} :
    component ∈ graph.components ↔ ∃ p ∈ graph.points, component = .ofList id [p] := by
  rw [mem_components, h]
  refine exists_congr fun p => and_congr_right fun _ => ?_
  simp only [linked_nil]
  constructor
  · intro hclass
    refine Ascending.ext_mem fun q => ?_
    rw [hclass, Ascending.mem_ofList_id, List.mem_singleton, eq_comm]
  · rintro rfl q
    rw [Ascending.mem_ofList_id, List.mem_singleton, eq_comm]

theorem busFor_single (graph : Graph) (p : Point) :
    graph.busFor (.ofList id [p]) = some (singleBus graph.level graph.vertices p) := by
  have hwithin : graph.vertexMap.within (.ofList id [p]) = graph.vertices.filter (·.point = p) := by
    rw [vertexMap, VertexMap.within_ofVertices]
    exact List.append_nil _
  rw [singleBus, ← hwithin]
  rfl

/-- Without switches, and if every component is a bus, the buses are those of the single points. -/
theorem mem_buses_of_no_switches (h : graph.switches = []) {kind : TopologyKind}
    (hkind : ∀ p ∈ graph.points, p.kind = kind) {buses : Buses}
    (hbuses : graph.buses BusValidator.busBreakerView = .ok buses) :
    bus ∈ buses ↔ ∃ p ∈ graph.points, bus = singleBus graph.level graph.vertices p := by
  rw [mem_buses hkind hbuses]
  simp only [mem_components_of_no_switches h]
  constructor
  · rintro ⟨_, ⟨p, hp, rfl⟩, _, hbus⟩
    exact ⟨p, hp, Option.some.inj (hbus.symm.trans (graph.busFor_single p))⟩
  · rintro ⟨p, hp, rfl⟩
    exact ⟨_, ⟨p, hp, rfl⟩, rfl, graph.busFor_single p⟩

end Graph

namespace Topology

variable {topology : Topology} {level : String} {listings : Listings} {bus : Bus}

/-- In the bus-breaker view no switch of a bus-breaker level merges. -/
theorem not_merges (hkind : topology.kind = .busBreaker) (hview : topology.view = .busBreakerView)
    (switch : Switch) : ¬ topology.Merges switch := fun hmerges => by
  have hnode := (hmerges.2 hview).1
  rw [hkind] at hnode
  cases hnode

theorem switches_draw_eq_nil (hkind : topology.kind = .busBreaker)
    (hview : topology.view = .busBreakerView) : (topology.draw level listings).switches = [] := by
  rw [switches_draw, List.filterMap_eq_nil_iff]
  intro switch _
  refine Option.eq_none_iff_forall_not_mem.mpr fun edge hedge => ?_
  exact not_merges hkind hview _ (bridge_eq_some_iff.mp hedge).1

/-- The buses that are drawn of a bus-breaker level are those of the configured buses with a
vertex. -/
theorem mem_buses_draw (hkind : topology.kind = .busBreaker)
    (hview : topology.view = .busBreakerView) {buses : Buses}
    (hbuses : (topology.draw level listings).buses BusValidator.busBreakerView = .ok buses) :
    bus ∈ buses ↔ ∃ name, (∃ v ∈ topology.listed level listings, v.point = .bus name) ∧
      bus = singleBus level (topology.listed level listings) (.bus name) := by
  have hnone := @switches_draw_eq_nil topology level listings hkind hview
  have hpoints : ∀ p, p ∈ (topology.draw level listings).points ↔
      ∃ v ∈ topology.listed level listings, v.point = p := fun p => by
    rw [(topology.spanned_draw level listings).mem_points_iff, hnone, vertices_draw]
    simp
  have hbreaker : ∀ p ∈ (topology.draw level listings).points, p.kind = .busBreaker := by
    intro p hp
    obtain ⟨v, hv, rfl⟩ := (hpoints p).mp hp
    rw [← hkind]
    exact kind_of_listed hv
  rw [Graph.mem_buses_of_no_switches hnone hbreaker hbuses, level_draw, vertices_draw]
  constructor
  · rintro ⟨p, hp, rfl⟩
    cases p with
    | node number => exact nomatch hbreaker _ hp
    | bus name => exact ⟨name, (hpoints _).mp hp, rfl⟩
  · rintro ⟨name, hvertex, rfl⟩
    exact ⟨_, (hpoints _).mpr hvertex, rfl⟩

/-! ### Stored levels -/

/-- Wherever there is a graph of a stored level in the bus view, there is one in the bus-breaker
view, and it refines the former. In a bus-breaker level whose switches have ids of their own, the
buses of the bus-breaker view can always be worked out and are single: one for each configured bus
with a vertex, whatever the switches are like. -/
theorem bus_breaker_view_refines_bus_view (store : Store) (context : Context) (level : String)
    (number : UInt32) (network : Network) (hnumber : context.number = .ok number)
    (hnetwork : store.network number = .ok network) :
    (∀ coarse fine graph, Paired coarse fine →
      ((coarse.graph context level).outcome Store.index store).1 = .ok graph →
      ∃ finer, ((fine.graph context level).outcome Store.index store).1 = .ok finer ∧
        coarse.Refined (network.listings level) finer graph) ∧
    ∀ (found : Resource VoltageLevel) (allowDangling : Bool) (ids : TopologyIds),
      store.level number level = .ok found → found.attributes.kind = .busBreaker →
      ((network.switchesAt level).map Resource.id).Nodup →
      let topology := (make .busBreaker .busBreakerView allowDangling ids).1
      let vertices := topology.listed level (network.listings level)
      ∃ buses, ((topology.buses context level).outcome Store.index store).1 = .ok buses ∧
        ∀ bus, bus ∈ buses ↔ ∃ name, (∃ v ∈ vertices, v.point = .bus name) ∧
          bus = singleBus level vertices (.bus name) := by
  constructor
  · intro coarse fine graph hpaired hgraph
    obtain ⟨record, hrecord, hgraphOf⟩ := Store.record_of_graph hnumber hgraph
    obtain ⟨network', found, hnetwork', _, hcontents⟩ := Store.record?_eq_some_iff.mp hrecord
    cases hnetwork.symm.trans hnetwork'
    obtain ⟨finer, hfiner, hrefined⟩ := hpaired.graphOf hgraphOf
    rw [hcontents] at hrefined
    refine ⟨finer, ?_, hrefined⟩
    rw [Store.outcome_graph hrecord hnumber, hfiner]
  · intro found allowDangling ids hfound hkind hdistinct topology vertices
    have hrecord := Store.record?_eq_some_iff.mpr ⟨network, found, hnetwork, hfound, rfl⟩
    have hadmits : topology.Admits (network.switchesAt level) :=
      ⟨hdistinct, fun switch _ hmerges => absurd hmerges (not_merges rfl rfl _)⟩
    have hgraph : (topology.graph context level).outcome Store.index store = _ :=
      Store.outcome_graph hrecord hnumber
    rw [graphOf_eq_ok_iff.mpr ⟨hkind, hadmits, rfl⟩] at hgraph
    have hbuses := Graph.buses_eq_ok (topology.draw level (network.listings level))
      BusValidator.busBreakerView
    exact ⟨_, (Store.outcome_buses_of_graph hgraph).trans hbuses,
      fun bus => mem_buses_draw rfl rfl hbuses⟩

/-- A node-breaker level with a busbar section at node 1 and a load at node 2, which a retained
switch joins, and another retained switch from node 2 to node 3, where nothing is. In a bus-breaker
level, a load at one of two configured buses, which two switches join; one of them lacks an end. -/
def retainedSwitches : Store :=
  Store.new.run [.addLevel 0 ⟨"A", .voltageLevel, { kind := .nodeBreaker }⟩,
    .addInjection 0 ⟨"B", .busbarSection, { level := "A", node := some 1 }⟩,
    .addInjection 0 ⟨"L", .load, { level := "A", node := some 2 }⟩,
    .addSwitch 0 ⟨"S", .switch,
      { level := "A", isRetained := true, one := { node := some 1 }, two := { node := some 2 } }⟩,
    .addSwitch 0 ⟨"T", .switch,
      { level := "A", isRetained := true, one := { node := some 2 }, two := { node := some 3 } }⟩,
    .addLevel 0 ⟨"D", .voltageLevel, { kind := .busBreaker }⟩,
    .addInjection 0 ⟨"M", .load, { level := "D", bus := some "b" }⟩,
    .addInjection 0 ⟨"N", .load, { level := "D", bus := some "c" }⟩,
    .addSwitch 0 ⟨"U", .switch,
      { level := "D", one := { bus := some "b" }, two := { bus := some "c" } }⟩,
    .addSwitch 0 ⟨"V", .switch, { level := "D", one := { bus := some "d" } }⟩]

/-- Both retained switches are seams, so the bus-breaker view has nodes 1 and 2 as components of
their own and lacks node 3. The switch without an end does not matter in the other level. -/
theorem bus_breaker_view_refines_bus_view_retained :
    let coarse := (make .nodeBreaker .busView false {}).1
    let fine := (make .nodeBreaker .busBreakerView false {}).1
    let single := (make .busBreaker .busBreakerView false {}).1
    ∃ network graph finer buses, retainedSwitches.network 0 = .ok network ∧
      ((coarse.graph {} "A").outcome Store.index retainedSwitches).1 = .ok graph ∧
      ((fine.graph {} "A").outcome Store.index retainedSwitches).1 = .ok finer ∧
      graph.components.map (·.toList) = [[.node 1, .node 2, .node 3]] ∧
      finer.components.map (·.toList) = [[.node 1], [.node 2]] ∧
      coarse.Refined (network.listings "A") finer graph ∧
      ((single.buses {} "D").outcome Store.index retainedSwitches).1 = .ok buses ∧
      buses.toList.map (fun bus => (bus.id, bus.equipment)) = [("D_b", ["M"]), ("D_c", ["N"])] ∧
      ∀ bus, bus ∈ buses ↔ ∃ name,
        (∃ v ∈ single.listed "D" (network.listings "D"), v.point = .bus name) ∧
          bus = singleBus "D" (single.listed "D" (network.listings "D")) (.bus name) := by
  obtain ⟨finer, hfiner, hrefined⟩ :=
    (bus_breaker_view_refines_bus_view retainedSwitches {} "A" 0 _ rfl rfl).1
      (make .nodeBreaker .busView false {}).1 (make .nodeBreaker .busBreakerView false {}).1 _
      ⟨rfl, rfl, rfl, rfl⟩ rfl
  obtain ⟨buses, hbuses, hsingle⟩ :=
    (bus_breaker_view_refines_bus_view retainedSwitches {} "D" 0 _ rfl rfl).2 _ false {} rfl rfl
      (by decide)
  cases hfiner
  refine ⟨_, _, _, buses, rfl, rfl, rfl, rfl, rfl, hrefined, hbuses, ?_, hsingle⟩
  cases hbuses
  rfl

end Topology

end Switchyard
