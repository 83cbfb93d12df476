import Switchyard.Proofs.Topology.Built
import Switchyard.Proofs.Topology.Reading

/-!
The buses of a level are its accepted classes of linked points.

What a level should have as buses is said in terms of what is stored: `IsClass` for the points of a
bus and `IsBus` for all the rest. The buses are kept by id, so none is lost only if different
classes have different ids. They do: an id ends in the smallest point of a class, and points of one
kind are known by their texts. With this the buses that are calculated are exactly those of the
accepted classes (`calculated_buses_are_classes`).
-/

namespace Switchyard

/-! ### Vertices by point -/

namespace VertexMap

theorem within_ofVertices (vertices : List Vertex) (points : PointSet) :
    (ofVertices vertices).within points =
      points.toList.flatMap fun p => vertices.filter (·.point = p) := by
  have hpoint : (ofVertices vertices).atPoint = fun p => vertices.filter (·.point = p) :=
    funext (atPoint_ofVertices vertices)
  rw [within, hpoint]

end VertexMap

/-! ### The buses of a graph -/

namespace Graph

variable {graph : Graph} {validator : BusValidator} {component : PointSet} {bus : Bus}

/-- The bus of a component, whether or not it is accepted. -/
def busFor (graph : Graph) (component : PointSet) : Option Bus :=
  component.least?.map fun least =>
    ⟨graph.level ++ "_" ++ least.text, graph.level, component, graph.vertexMap.within component⟩

/-- A component is not empty. -/
theorem exists_least_of_component (h : component ∈ graph.components) :
    ∃ least, component.least? = some least := by
  obtain ⟨p, _, hclass⟩ := mem_components.mp h
  exact Ascending.exists_least? ((hclass p).mpr .refl)

/-- A component is never refused as empty. -/
theorem busOf_component (h : component ∈ graph.components) :
    graph.busOf validator component =
      .ok (if graph.judge validator component then graph.busFor component else none) := by
  obtain ⟨least, hleast⟩ := exists_least_of_component h
  unfold busOf busFor Bus.ofComponent
  rw [hleast]
  split <;> rfl

theorem buses_eq_ok (graph : Graph) (validator : BusValidator) :
    graph.buses validator = .ok (.ofList Bus.id (graph.components.filterMap fun component =>
      if graph.judge validator component then graph.busFor component else none)) := by
  rw [buses, mapM_eq_ok fun component h => busOf_component h]
  change Except.ok _ = Except.ok _
  rw [List.filterMap_map]
  rfl

/-- Buses of components with points of one kind have ids of their own. -/
theorem busFor_inj {kind : TopologyKind} (hkind : ∀ p ∈ graph.points, p.kind = kind)
    {component' : PointSet} {bus' : Bus} (h : component ∈ graph.components)
    (h' : component' ∈ graph.components) (hbus : graph.busFor component = some bus)
    (hbus' : graph.busFor component' = some bus') (hid : bus.id = bus'.id) : bus = bus' := by
  obtain ⟨least, hleast, rfl⟩ := Option.map_eq_some_iff.mp hbus
  obtain ⟨least', hleast', rfl⟩ := Option.map_eq_some_iff.mp hbus'
  have hmem : least ∈ component := (Ascending.least?_eq_some_iff.mp hleast).1
  have hmem' : least' ∈ component' := (Ascending.least?_eq_some_iff.mp hleast').1
  have htext : least.text = least'.text := (String.append_right_inj _).mp hid
  have hsame : least = least' := by
    have hleft := hkind _ (mem_points_of_mem_components h hmem)
    have hright := hkind _ (mem_points_of_mem_components h' hmem')
    exact Point.text_inj (hleft.trans hright.symm) htext
  subst hsame
  rw [eq_of_mem_components h h' hmem hmem']

/-- The buses of a graph are those of its accepted components. -/
theorem mem_buses {kind : TopologyKind} (hkind : ∀ p ∈ graph.points, p.kind = kind) {buses : Buses}
    (h : graph.buses validator = .ok buses) :
    bus ∈ buses ↔ ∃ component ∈ graph.components, graph.judge validator component = true ∧
      graph.busFor component = some bus := by
  have hcandidate : ∀ bus, bus ∈ (graph.components.filterMap fun component =>
      if graph.judge validator component then graph.busFor component else none) ↔
      ∃ component ∈ graph.components, graph.judge validator component = true ∧
        graph.busFor component = some bus := by
    intro bus
    rw [List.mem_filterMap]
    refine exists_congr fun component => and_congr_right fun _ => ?_
    split
    · next haccepted => simp [haccepted]
    · next hrejected => simp [hrejected]
  rw [buses_eq_ok] at h
  cases h
  rw [Ascending.mem_ofList, hcandidate]
  intro a ha b hb hid
  obtain ⟨component, hcomponent, _, hbus⟩ := (hcandidate a).mp ha
  obtain ⟨component', hcomponent', _, hbus'⟩ := (hcandidate b).mp hb
  exact busFor_inj hkind hcomponent hcomponent' hbus hbus' hid

end Graph

/-! ### The buses of a level -/

namespace Topology

variable {topology : Topology} {level : String} {listings : Listings} {graph : Graph} {bus : Bus}
  {points : PointSet}

/-- The set is one of the classes into which linking divides the points of the level. -/
def IsClass (topology : Topology) (level : String) (listings : Listings) (points : PointSet) :
    Prop :=
  ∃ p, topology.IsPoint level listings p ∧ ∀ q, q ∈ points ↔ topology.Links listings p q

/-- The validator takes the set for a bus. -/
def Accepts (topology : Topology) (level : String) (listings : Listings) (points : PointSet) :
    Prop :=
  topology.validator (.ofVertices (topology.listed level listings)) points = true

/-- The bus is that of a class: it is named after the smallest point, and has the vertices at its
points, in the order of the points and at each point in listing order, each once. -/
structure IsBus (topology : Topology) (level : String) (listings : Listings) (component : PointSet)
    (bus : Bus) : Prop where
  points : bus.points = component
  belongs : bus.level = level
  named : ∃ least, least ∈ component ∧ (∀ q, q ∈ component → q = least ∨ least < q) ∧
    bus.id = level ++ "_" ++ least.text
  vertices : bus.vertices =
    component.toList.flatMap fun p => (topology.listed level listings).filter (·.point = p)
  once : bus.vertices.Perm ((topology.listed level listings).filter (·.point ∈ component))

theorem Built.isClass_iff (h : topology.Built level listings graph) :
    topology.IsClass level listings points ↔ points ∈ graph.components := by
  simp only [IsClass, Graph.mem_components, h.points, h.linked]

theorem Built.accepts_iff (h : topology.Built level listings graph) :
    topology.Accepts level listings points ↔ graph.judge topology.validator points = true := by
  rw [Accepts, Graph.judge, Graph.vertexMap, h.vertices]

theorem Built.isBus (h : topology.Built level listings graph)
    (hbus : graph.busFor points = some bus) : topology.IsBus level listings points bus := by
  obtain ⟨least, hleast, rfl⟩ := Option.map_eq_some_iff.mp hbus
  obtain ⟨hmem, hfirst⟩ := Ascending.least?_eq_some_iff.mp hleast
  have hvertices : graph.vertexMap.within points =
      points.toList.flatMap fun p => (topology.listed level listings).filter (·.point = p) := by
    rw [Graph.vertexMap, VertexMap.within_ofVertices, h.vertices]
  refine ⟨rfl, h.named, ⟨least, hmem, hfirst, by rw [h.named]⟩, hvertices, ?_⟩
  rw [hvertices]
  exact perm_flatMap_filter Vertex.point _ (Ascending.nodup_toList points)

/-- Whenever the graph of a level can be worked out, so can its buses, and they are those of the
accepted classes of the level's points: every accepted class has exactly one bus, every bus is that
of its points, which are an accepted class, and different buses have neither an id nor a point in
common. -/
theorem calculated_buses_are_classes (store : Store) (topology : Topology) (context : Context)
    (level : String) (graph : Graph)
    (hgraph : ((topology.graph context level).outcome Store.index store).1 = .ok graph) :
    ∃ number network buses, context.number = .ok number ∧ store.network number = .ok network ∧
      ((topology.buses context level).outcome Store.index store).1 = .ok buses ∧
      (∀ points, topology.IsClass level (network.listings level) points →
        topology.Accepts level (network.listings level) points →
          ∃ bus, bus ∈ buses ∧ topology.IsBus level (network.listings level) points bus ∧
            ∀ other, other ∈ buses → other.points = points → other = bus) ∧
      (∀ bus, bus ∈ buses → topology.IsClass level (network.listings level) bus.points ∧
        topology.Accepts level (network.listings level) bus.points ∧
        topology.IsBus level (network.listings level) bus.points bus) ∧
      ∀ a b, a ∈ buses → b ∈ buses →
        (a.id = b.id ∨ (∃ p, p ∈ a.points ∧ p ∈ b.points) ∨ ∃ v ∈ a.vertices, v ∈ b.vertices) →
          a = b := by
  obtain ⟨number, record, hnumber, hrecord, hgraphOf⟩ := Store.exists_record_of_graph hgraph
  obtain ⟨network, found, hnetwork, _, hcontents⟩ := Store.record?_eq_some_iff.mp hrecord
  obtain ⟨_, hbuilt⟩ := graphOf_built hgraphOf
  have hlistings : record.contents.listings = network.listings level := by rw [hcontents]
  rw [hlistings] at hbuilt
  have hkind : ∀ p ∈ graph.points, p.kind = topology.kind :=
    fun p hp => kind_of_isPoint ((hbuilt.points p).mp hp)
  obtain ⟨buses, hbuses⟩ : ∃ buses, graph.buses topology.validator = .ok buses :=
    ⟨_, graph.buses_eq_ok topology.validator⟩
  have hbusesOf : topology.busesOf level record.contents = .ok buses := by
    rw [busesOf, hgraphOf]
    exact hbuses
  -- every bus comes from an accepted class, and is the bus of its own points
  have horigin : ∀ bus, bus ∈ buses → bus.points ∈ graph.components ∧
      graph.judge topology.validator bus.points = true ∧ graph.busFor bus.points = some bus := by
    intro bus h
    obtain ⟨component, hcomponent, haccepted, hbus⟩ := (Graph.mem_buses hkind hbuses).mp h
    have hpoints : bus.points = component := (hbuilt.isBus hbus).points
    rw [hpoints]
    exact ⟨hcomponent, haccepted, hbus⟩
  have hapart : ∀ a b, a ∈ buses → b ∈ buses → (∃ p, p ∈ a.points ∧ p ∈ b.points) → a = b := by
    rintro a b ha hb ⟨p, hpa, hpb⟩
    obtain ⟨hcomponent, _, hbus⟩ := horigin a ha
    obtain ⟨hcomponent', _, hbus'⟩ := horigin b hb
    rw [← Graph.eq_of_mem_components hcomponent hcomponent' hpa hpb, hbus] at hbus'
    exact Option.some.inj hbus'
  refine ⟨number, network, buses, hnumber, hnetwork, ?_, ?_, ?_, ?_⟩
  · rw [Store.outcome_buses hrecord hnumber, hbusesOf]
  · intro points hclass haccepts
    have hcomponent := hbuilt.isClass_iff.mp hclass
    obtain ⟨least, hleast⟩ := Graph.exists_least_of_component hcomponent
    obtain ⟨bus, hbus⟩ : ∃ bus, graph.busFor points = some bus :=
      ⟨_, by rw [Graph.busFor, hleast, Option.map_some]⟩
    refine ⟨bus, (Graph.mem_buses hkind hbuses).mpr
      ⟨points, hcomponent, hbuilt.accepts_iff.mp haccepts, hbus⟩, hbuilt.isBus hbus, ?_⟩
    intro other hother hpoints
    have := (horigin other hother).2.2
    rw [hpoints, hbus] at this
    exact (Option.some.inj this).symm
  · intro bus h
    obtain ⟨hcomponent, haccepted, hbus⟩ := horigin bus h
    exact ⟨hbuilt.isClass_iff.mpr hcomponent, hbuilt.accepts_iff.mpr haccepted, hbuilt.isBus hbus⟩
  · rintro a b ha hb (hid | hpoint | ⟨v, hva, hvb⟩)
    · exact Ascending.eq_of_key_eq ha hb hid
    · exact hapart a b ha hb hpoint
    · have hplace : ∀ bus, bus ∈ buses → v ∈ bus.vertices → v.point ∈ bus.points := by
        intro bus h hv
        have := (hbuilt.isBus (horigin bus h).2.2).once.mem_iff.mp hv
        simpa using (List.mem_filter.mp this).2
      exact hapart a b ha hb ⟨v.point, hplace a ha hva, hplace b hb hvb⟩

/-- A level with a busbar section at node 10 and a load at node 9, joined by a closed switch, and
with another load at node 11 behind an open switch. -/
def switchedLoads : Store :=
  [.addLevel 0 ⟨"A", .voltageLevel, { kind := .nodeBreaker }⟩,
    .addInjection 0 ⟨"B", .busbarSection, { level := "A", node := some 10 }⟩,
    .addInjection 0 ⟨"L", .load, { level := "A", node := some 9 }⟩,
    .addInjection 0 ⟨"M", .load, { level := "A", node := some 11 }⟩,
    .addSwitch 0 ⟨"S", .switch,
      { level := "A", one := { node := some 10 }, two := { node := some 9 } }⟩,
    .addSwitch 0 ⟨"T", .switch,
      { level := "A", isOpen := true, one := { node := some 9 }, two := { node := some 11 } }⟩
    ].foldl Store.after .new

/-- Of the loads behind switches, nodes 9 and 10 are one bus, named after node 9, and node 11 is
none. -/
theorem calculated_buses_are_classes_switched :
    let topology := (make .nodeBreaker .busView false {}).1
    ∃ network buses, switchedLoads.network 0 = .ok network ∧
      ((topology.buses {} "A").outcome Store.index switchedLoads).1 = .ok buses ∧
      buses.toList.map (fun bus => (bus.id, bus.equipment)) = [("A_9", ["L", "B"])] ∧
      ∀ bus, bus ∈ buses → topology.IsClass "A" (network.listings "A") bus.points ∧
        topology.Accepts "A" (network.listings "A") bus.points ∧
        topology.IsBus "A" (network.listings "A") bus.points bus := by
  obtain ⟨number, network, buses, hnumber, hnetwork, hbuses, _, hclasses, _⟩ :=
    calculated_buses_are_classes switchedLoads (make .nodeBreaker .busView false {}).1 {} "A" _ rfl
  cases hnumber
  refine ⟨network, buses, hnetwork, hbuses, ?_, hclasses⟩
  rw [← Except.ok.inj ((rfl : _ = _).trans hbuses)]
  rfl

end Topology

end Switchyard
