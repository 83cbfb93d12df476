import Switchyard.Proofs.Graph.Search
import Switchyard.Proofs.Topology.Classes

/-!
One bus at a time, and all buses at once.

The bus at a point is made of the component that a search from the point finds, and all buses are
made of the components that uniting classes finds. These are the same components, the validator
judges them alike, and no bus is lost among all of them. So a bus that is found at a point is kept
under its id among all buses, a bus of these that has the point is found there, and if one of the
two fails, both do (`Agree`). This holds of graphs whose points are of one kind (`busAt_agrees`),
which are all that can be worked out, and so of the buses of a stored level
(`bus_at_point_agrees_with_buses`).
-/

namespace Switchyard

/-- What is found at single points agrees with all buses. -/
structure Agree (single : Point → Except Fault (Option Bus)) (all : Except Fault Buses) :
    Prop where
  fails : ∀ start fault, single start = .error fault ↔ all = .error fault
  found : ∀ start bus, single start = .ok (some bus) ↔
    ∃ buses, all = .ok buses ∧ buses.get? bus.id = some bus ∧ start ∈ bus.points
  none : ∀ start, single start = .ok none ↔
    ∃ buses, all = .ok buses ∧ ∀ bus ∈ buses, start ∉ bus.points
  same : ∀ start bus, single start = .ok (some bus) →
    ∀ other ∈ bus.points, single other = .ok (some bus)

variable {start : Point} {bus : Bus} {fault : Fault}

theorem agree_of_error (fault : Fault) : Agree (fun _ => .error fault) (.error fault) where
  fails start other := by simp
  found start bus := ⟨nofun, nofun⟩
  none start := ⟨nofun, nofun⟩
  same := nofun

/-- Where nothing fails, it is enough to know at which points each bus is found. -/
theorem agree_of_found {single : Point → Except Fault (Option Bus)} {buses : Buses}
    (hsingle : ∀ start, ∃ found, single start = .ok found)
    (hfound : ∀ start bus, single start = .ok (some bus) ↔ bus ∈ buses ∧ start ∈ bus.points) :
    Agree single (.ok buses) where
  fails start fault := by
    obtain ⟨found, h⟩ := hsingle start
    rw [h]
    exact ⟨nofun, nofun⟩
  found start bus := by
    rw [hfound, ← Ascending.get?_eq_some_iff.trans (and_iff_left rfl)]
    constructor
    · intro h
      exact ⟨buses, rfl, h⟩
    · rintro ⟨_, hbuses, h⟩
      cases hbuses
      exact h
  none start := by
    obtain ⟨found, h⟩ := hsingle start
    constructor
    · intro hnone
      refine ⟨buses, rfl, fun bus hbus hstart => ?_⟩
      have hsome := (hfound start bus).mpr ⟨hbus, hstart⟩
      rw [hnone] at hsome
      cases hsome
    · rintro ⟨_, hbuses, hfree⟩
      cases hbuses
      cases found with
      | none => exact h
      | some bus =>
        obtain ⟨hbus, hstart⟩ := (hfound start bus).mp h
        exact absurd hstart (hfree bus hbus)
  same start bus h other hother := (hfound other bus).mpr ⟨((hfound start bus).mp h).1, hother⟩

namespace Graph

variable {graph : Graph} {validator : BusValidator}

/-- The bus at a point is that of its component, if the component is accepted. -/
theorem busAt_eq_ok (graph : Graph) (validator : BusValidator) (start : Point) :
    graph.busAt validator start = .ok ((graph.componentOf? start).bind fun component =>
      if graph.judge validator component then graph.busFor component else none) := by
  unfold busAt
  cases h : graph.componentOf? start with
  | none => rfl
  | some component => exact busOf_component (componentOf?_eq_some_iff.mp h).1

/-- Every component has a bus, which may be rejected. -/
theorem exists_busFor {component : PointSet} (h : component ∈ graph.components) :
    ∃ bus, graph.busFor component = some bus := by
  obtain ⟨least, hleast⟩ := exists_least_of_component h
  exact ⟨_, by rw [busFor, hleast, Option.map_some]⟩

theorem points_of_busFor {component : PointSet} (h : graph.busFor component = some bus) :
    bus.points = component := by
  obtain ⟨least, _, rfl⟩ := Option.map_eq_some_iff.mp h
  rfl

theorem vertices_of_busFor {component : PointSet} (h : graph.busFor component = some bus) :
    bus.vertices = graph.vertexMap.within component := by
  obtain ⟨least, _, rfl⟩ := Option.map_eq_some_iff.mp h
  rfl

/-- A validator looks at the vertices of a graph alone. -/
theorem judge_congr {other : Graph} (hvertices : graph.vertices = other.vertices)
    (component : PointSet) : graph.judge validator component = other.judge validator component := by
  unfold judge vertexMap
  rw [hvertices]

/-- Graphs of one level with the same vertices make the same bus of a component. -/
theorem busFor_congr {other : Graph} (hlevel : graph.level = other.level)
    (hvertices : graph.vertices = other.vertices) (component : PointSet) :
    graph.busFor component = other.busFor component := by
  unfold busFor vertexMap
  rw [hlevel, hvertices]

theorem busOf_congr {other : Graph} (hlevel : graph.level = other.level)
    (hvertices : graph.vertices = other.vertices) (component : PointSet) :
    graph.busOf validator component = other.busOf validator component := by
  unfold busOf vertexMap
  rw [judge_congr hvertices, hlevel, hvertices]

/-- On a graph with points of one kind, the bus at a point agrees with all buses. -/
theorem busAt_agrees {kind : TopologyKind} (hkind : ∀ p ∈ graph.points, p.kind = kind)
    (validator : BusValidator) : Agree (graph.busAt validator) (graph.buses validator) := by
  obtain ⟨buses, hbuses⟩ : ∃ buses, graph.buses validator = .ok buses :=
    ⟨_, graph.buses_eq_ok validator⟩
  rw [hbuses]
  refine agree_of_found (fun start => ⟨_, graph.busAt_eq_ok validator start⟩) fun start bus => ?_
  rw [busAt_eq_ok, Except.ok.injEq, Option.bind_eq_some_iff, mem_buses hkind hbuses]
  constructor
  · rintro ⟨component, hcomponent, h⟩
    obtain ⟨hmem, hstart⟩ := componentOf?_eq_some_iff.mp hcomponent
    split at h
    case isFalse => cases h
    case isTrue haccepted =>
      exact ⟨⟨component, hmem, haccepted, h⟩, by rwa [points_of_busFor h]⟩
  · rintro ⟨⟨component, hmem, haccepted, h⟩, hstart⟩
    rw [points_of_busFor h] at hstart
    exact ⟨component, componentOf?_eq_some_iff.mpr ⟨hmem, hstart⟩, by rw [if_pos haccepted, h]⟩

end Graph

/-! ### The buses of a stored level -/

namespace Store

variable {store after : Store} {topology : Topology} {context : Context} {level : String}
  {graph : Graph}

/-- A store hears judgements without being altered. -/
theorem outcome_judge (components : List PointSet) :
    (components.forM (topology.judge graph)).outcome index store = (.ok ⟨⟩, store) :=
  outcome_of_ensures (.forM ⟨fun _ _ => id, fun _ _ => id⟩ fun _ _ _ hstore => .inr ⟨rfl, hstore⟩)

/-- All buses of a level are those of its graph. -/
theorem outcome_buses_of_graph
    (h : (topology.graph context level).outcome index store = (.ok graph, after)) :
    ((topology.buses context level).outcome index store).1 = graph.buses topology.validator := by
  rw [Topology.buses, Attempt.outcome_bind, h]
  dsimp only
  rw [Attempt.outcome_bind, outcome_judge]
  rfl

/-- The bus of a level at a point is that of its graph. -/
theorem outcome_busAt_of_graph
    (h : (topology.graph context level).outcome index store = (.ok graph, after)) (start : Point) :
    ((topology.busAt context level start).outcome index store).1 =
      graph.busAt topology.validator start := by
  rw [Topology.busAt, Attempt.outcome_bind, h]
  dsimp only
  cases graph.componentOf? start <;> rfl

/-- Where there is no graph of a level, there are no buses, for the same reason. -/
theorem outcome_of_no_graph
    (h : (topology.graph context level).outcome index store = (.error fault, after)) :
    ((topology.buses context level).outcome index store).1 = .error fault ∧
      ∀ start, ((topology.busAt context level start).outcome index store).1 = .error fault := by
  refine ⟨?_, fun start => ?_⟩
  · rw [Topology.buses, Attempt.outcome_bind, h]
  · rw [Topology.busAt, Attempt.outcome_bind, h]

/-- The points of a graph that is worked out are of the topology's kind. -/
theorem kind_of_graph (h : ((topology.graph context level).outcome index store).1 = .ok graph) :
    ∀ p ∈ graph.points, p.kind = topology.kind := by
  obtain ⟨_, record, _, _, hgraphOf⟩ := exists_record_of_graph h
  intro p hp
  exact Topology.kind_of_isPoint (((Topology.graphOf_built hgraphOf).2.points p).mp hp)

end Store

/-- Whatever the store, the context, the level and the topology, the bus at a point agrees with all
buses: for the topology's own validator, whether or not there is a graph, and for any validator that
the graph is asked with. -/
theorem bus_at_point_agrees_with_buses (store : Store) (topology : Topology) (context : Context)
    (level : String) :
    Agree (fun start => ((topology.busAt context level start).outcome Store.index store).1)
        ((topology.buses context level).outcome Store.index store).1 ∧
      ∀ graph, ((topology.graph context level).outcome Store.index store).1 = .ok graph →
        ∀ validator, Agree (graph.busAt validator) (graph.buses validator) := by
  refine ⟨?_, fun graph hgraph => Graph.busAt_agrees (Store.kind_of_graph hgraph)⟩
  rcases h : (topology.graph context level).outcome Store.index store with ⟨fault | graph, after⟩
  · obtain ⟨hbuses, hbusAt⟩ := Store.outcome_of_no_graph h
    rw [hbuses, funext hbusAt]
    exact agree_of_error fault
  · rw [Store.outcome_buses_of_graph h, funext (Store.outcome_busAt_of_graph h)]
    exact Graph.busAt_agrees (Store.kind_of_graph (congrArg Prod.fst h)) topology.validator

/-- Of the loads behind switches, node 10 is on the bus named after node 9, which is found at both.
Node 11 is on no bus of the bus view, but the graph has a bus there if every component is
accepted. -/
theorem bus_at_point_agrees_with_buses_switched :
    let busAt (start : Point) := (((Topology.make .nodeBreaker .busView false {}).1.busAt {} "A"
      start).outcome Store.index Topology.switchedLoads).1
    ∃ graph bus single buses, busAt (.node 10) = .ok (some bus) ∧ bus.id = "A_9" ∧
      (∀ other ∈ bus.points, busAt other = .ok (some bus)) ∧ busAt (.node 11) = .ok none ∧
      (((Topology.make .nodeBreaker .busView false {}).1.graph {} "A").outcome Store.index
        Topology.switchedLoads).1 = .ok graph ∧
      graph.busAt BusValidator.busBreakerView (.node 11) = .ok (some single) ∧
      graph.buses BusValidator.busBreakerView = .ok buses ∧ buses.get? single.id = some single := by
  obtain ⟨hstored, hgraph⟩ := bus_at_point_agrees_with_buses Topology.switchedLoads
    (Topology.make .nodeBreaker .busView false {}).1 {} "A"
  obtain ⟨buses, hbuses, hkept, _⟩ :=
    ((hgraph _ rfl BusValidator.busBreakerView).found (.node 11) _).mp rfl
  exact ⟨_, _, _, buses, rfl, rfl, hstored.same (.node 10) _ rfl, rfl, rfl, rfl, hbuses, hkept⟩

end Switchyard
