import Mathlib.Data.List.Flatten
import Mathlib.Data.List.Sort
import Switchyard.Proofs.Topology.Opening

/-!
What the bus view takes for a bus, and what closing a switch does to its buses.

The validator of the bus view counts the vertices at all points of a component (`busView_iff`), so
what it accepts it accepts with more points as well (`growing_busView`). Closing a switch adds at
most an edge to the graph of a level, so every component from before lies within one component
afterwards, and so does every bus. Nothing is said of a switch that is opened: there a bus may lose
what made it one.
-/

namespace Switchyard

/-! ### Sets of points -/

/-- The members of a smaller collection are among those of a larger one, in the same order. -/
theorem Ascending.sublist_of_subset {α κ : Type} [LT κ] [OrderedKey κ] {key : α → κ}
    {s t : Ascending key} (h : ∀ x ∈ s, x ∈ t) : s.toList.Sublist t.toList := by
  have : Std.Antisymm fun x y : α => key x < key y :=
    ⟨fun _ _ hlt hgt => absurd hgt (Ascending.lt_asymm hlt)⟩
  exact List.sublist_of_subperm_of_pairwise (List.subperm_of_subset s.nodup_toList h)
    s.ascending t.ascending

theorem VertexMap.within_sublist (vertices : VertexMap) {points more : PointSet}
    (h : ∀ p ∈ points, p ∈ more) : (vertices.within points).Sublist (vertices.within more) :=
  (Ascending.sublist_of_subset h).flatMap vertices.atPoint

/-! ### What counts as a bus -/

namespace BusValidator

/-- How many vertices at the points of a component, taken together, are not busbar sections. -/
def feedersAt (vertices : VertexMap) (component : PointSet) : Nat :=
  (component.toList.flatMap vertices.atPoint).countP fun v => v.kind ≠ .busbarSection

/-- There is a vertex of one of the kinds at a point of the component. -/
def HasKind (vertices : VertexMap) (component : PointSet) (kinds : List EquipmentKind) : Prop :=
  ∃ p ∈ component, ∃ v ∈ vertices.atPoint p, v.kind ∈ kinds

/-- The kinds of equipment that lead to another part of the network. -/
def branchKinds : List EquipmentKind :=
  [.line, .twoWindingsTransformer, .threeWindingsTransformer, .hvdcConverterStation]

theorem hasKind_iff {vertices : VertexMap} {component : PointSet} {kinds : List EquipmentKind}
    {p : EquipmentKind → Bool} (hkinds : ∀ kind, p kind = true ↔ kind ∈ kinds) :
    ((vertices.within component).map Vertex.kind).countP p ≥ 1 ↔
      HasKind vertices component kinds := by
  rw [ge_iff_le, List.one_le_countP_iff]
  simp only [HasKind, VertexMap.within, List.mem_map, List.mem_flatMap, Ascending.mem_toList,
    exists_exists_and_eq_and, hkinds]
  tauto

theorem isBranch_iff_mem (kind : EquipmentKind) : kind.isBranch = true ↔ kind ∈ branchKinds := by
  cases kind <;> decide

theorem isBusbarSection_iff_mem (kind : EquipmentKind) :
    kind.isBusbarSection = true ↔ kind ∈ [EquipmentKind.busbarSection] := by
  cases kind <;> decide

theorem isFeeder_eq (kind : EquipmentKind) :
    kind.isFeeder = decide (kind ≠ .busbarSection) := by
  cases kind <;> decide

/-- The bus view takes a component for a bus if it has a busbar section and anything else, or a
branch and two vertices that are not busbar sections. -/
theorem busView_iff (vertices : VertexMap) (component : PointSet) :
    busView vertices component = true ↔
      HasKind vertices component [.busbarSection] ∧ feedersAt vertices component ≥ 1 ∨
      HasKind vertices component branchKinds ∧ feedersAt vertices component ≥ 2 := by
  have hfeeders : ((vertices.within component).map Vertex.kind).countP EquipmentKind.isFeeder =
      feedersAt vertices component := by
    rw [List.countP_map]
    exact List.countP_congr fun v _ => by simp [isFeeder_eq]
  rw [busView, decide_eq_true_iff, hasKind_iff isBusbarSection_iff_mem,
    hasKind_iff isBranch_iff_mem, hfeeders]

/-- The validator accepts whatever has all points of a component that it accepts. -/
def Growing (validator : BusValidator) : Prop :=
  ∀ vertices (component more : PointSet), (∀ p ∈ component, p ∈ more) →
    validator vertices component = true → validator vertices more = true

theorem growing_busView : Growing busView := by
  intro vertices component more hmore h
  have hgrows (p : EquipmentKind → Bool) :
      ((vertices.within component).map Vertex.kind).countP p ≤
        ((vertices.within more).map Vertex.kind).countP p :=
    ((vertices.within_sublist hmore).map Vertex.kind).countP_le
  rw [busView, decide_eq_true_iff] at h ⊢
  exact h.imp (fun hbusbar => ⟨hbusbar.1.trans (hgrows _), hbusbar.2.trans (hgrows _)⟩)
    fun hbranch => ⟨hbranch.1.trans (hgrows _), hbranch.2.trans (hgrows _)⟩

end BusValidator

/-! ### Buses of a part and of the whole -/

/-- All points and vertices of a bus are those of another, with the vertices in the same order. -/
structure Bus.Within (bus whole : Bus) : Prop where
  points : ∀ p ∈ bus.points, p ∈ whole.points
  vertices : bus.vertices.Sublist whole.vertices

/-- Buses that are gathered into others. -/
structure Gathered (buses gathered : Buses) : Prop where
  /-- Each lies within one of the others and meets no other of these. -/
  bus : ∀ bus ∈ buses, ∃ whole ∈ gathered, bus.Within whole ∧
    ∀ other ∈ gathered, (∃ p ∈ bus.points, p ∈ other.points) → other = whole
  /-- A point that is on a bus stays on one. -/
  points : ∀ p, (∃ bus ∈ buses, p ∈ bus.points) → ∃ whole ∈ gathered, p ∈ whole.points

theorem gathered_of_bus {buses gathered : Buses}
    (h : ∀ bus ∈ buses, ∃ whole ∈ gathered, bus.Within whole ∧
      ∀ other ∈ gathered, (∃ p ∈ bus.points, p ∈ other.points) → other = whole) :
    Gathered buses gathered where
  bus := h
  points := by
    rintro p ⟨bus, hbus, hp⟩
    obtain ⟨whole, hwhole, hwithin, _⟩ := h bus hbus
    exact ⟨whole, hwhole, hwithin.points p hp⟩

namespace Graph

variable {part whole : Graph} {validator : BusValidator} {buses buses' : Buses}

/-- If a part has all vertices of the whole and the validator accepts what grows, no bus is lost
from the part to the whole. -/
theorem Within.gathered (h : part.Within whole) (hvertices : part.vertices = whole.vertices)
    (hgrowing : validator.Growing) {kind : TopologyKind}
    (hkind : ∀ p ∈ whole.points, p.kind = kind) (hpart : part.buses validator = .ok buses)
    (hwhole : whole.buses validator = .ok buses') : Gathered buses buses' := by
  refine gathered_of_bus fun bus hbus => ?_
  obtain ⟨component, hcomponent, haccepted, hfor⟩ :=
    (mem_buses (fun p hp => hkind p (h.points p hp)) hpart).mp hbus
  obtain ⟨c, hc, hinside, honly⟩ := h.exists_component hcomponent
  rw [judge_congr hvertices] at haccepted
  have hgrown : whole.judge validator c = true := hgrowing _ component c hinside haccepted
  obtain ⟨grown, hgrownFor⟩ := exists_busFor hc
  refine ⟨grown, (mem_buses hkind hwhole).mpr ⟨c, hc, hgrown, hgrownFor⟩, ⟨?_, ?_⟩, ?_⟩
  · rw [points_of_busFor hfor, points_of_busFor hgrownFor]
    exact hinside
  · rw [vertices_of_busFor hfor, vertices_of_busFor hgrownFor, vertexMap, hvertices]
    exact whole.vertexMap.within_sublist hinside
  · rintro other hother ⟨p, hp, hpother⟩
    obtain ⟨d, hd, _, hotherFor⟩ := (mem_buses hkind hwhole).mp hother
    rw [points_of_busFor hfor] at hp
    rw [points_of_busFor hotherFor] at hpother
    obtain rfl := honly d hd ⟨p, hp, hpother⟩
    exact Option.some.inj (hotherFor.symm.trans hgrownFor)

end Graph

/-! ### Closing a switch -/

namespace Topology

variable {topology : Topology} {id : String} {switches : List (Resource Switch)} {e : Edge}

/-- A switch that merges is closed, so it still merges when it is closed once more. -/
theorem mem_filterMap_bridge_closed (he : e ∈ switches.filterMap topology.bridge) :
    e ∈ (updateFirst id ({ · with isOpen := false }) switches).filterMap topology.bridge := by
  obtain ⟨switch, hswitch, hbridge⟩ := List.mem_filterMap.mp he
  have hclosed : switch.attributes.isOpen = false := (bridge_eq_some_iff.mp hbridge).1.1
  have hsame : { switch with attributes := { switch.attributes with isOpen := false } } =
      switch := by rw [← hclosed]
  rcases mem_modifyFirst_of_mem hswitch with hmem | hmem
  · exact List.mem_filterMap.mpr ⟨switch, hmem, hbridge⟩
  · exact List.mem_filterMap.mpr ⟨_, hmem, hsame ▸ hbridge⟩

/-- The graph that is drawn before a switch is closed is within the one that is drawn after. -/
theorem within_closed (topology : Topology) (level id : String) (listings : Listings) :
    (topology.draw level listings).Within (topology.draw level
      { listings with
        switches := updateFirst id ({ · with isOpen := false }) listings.switches }) := by
  refine (topology.spanned_draw level listings).within (fun v hv => ?_) fun e he => ?_
  · rw [vertices_draw] at hv ⊢
    exact hv
  · rw [switches_draw] at he ⊢
    exact mem_filterMap_bridge_closed he

/-- Whatever switch of whatever variant is closed, a graph of a level is within that of afterwards,
and has the same vertices. -/
theorem within_of_closed {store : Store} {target number : UInt32} {level : String}
    {record record' : LevelRecord} {graph closed : Graph}
    (hrecord : store.record? number level = some record)
    (hrecord' : (store.after (.setOpen target id false)).record? number level = some record')
    (hgraph : topology.graphOf level record.contents = .ok graph)
    (hclosed : topology.graphOf level record'.contents = .ok closed) :
    graph.Within closed ∧ graph.vertices = closed.vertices := by
  obtain ⟨before, hbefore, hcontents⟩ := Store.contents_setOpen hrecord'
  cases hrecord.symm.trans hbefore
  obtain ⟨_, _, rfl⟩ := graphOf_eq_ok_iff.mp hgraph
  obtain ⟨_, _, rfl⟩ := graphOf_eq_ok_iff.mp hclosed
  rcases hcontents with hsame | hswitched
  · rw [hsame]
    exact ⟨.refl _, rfl⟩
  · rw [hswitched, vertices_draw, vertices_draw]
    exact ⟨topology.within_closed level id record.contents.listings, rfl⟩

/-- The bus view takes a component for a bus just if there is a busbar section and another vertex at
its points, or a branch and two vertices that are not busbar sections. So whatever switch is closed,
whenever there is a graph of a level before and after, every bus of the level is gathered into
one. -/
theorem closing_gathers_buses :
    (∀ vertices component, BusValidator.busView vertices component = true ↔
      BusValidator.HasKind vertices component [.busbarSection] ∧
          BusValidator.feedersAt vertices component ≥ 1 ∨
        BusValidator.HasKind vertices component BusValidator.branchKinds ∧
          BusValidator.feedersAt vertices component ≥ 2) ∧
    ∀ (store : Store) (kind : TopologyKind) (allowDangling : Bool) (ids : TopologyIds)
      (context : Context) (level : String) (target : UInt32) (id : String) (graph closed : Graph),
      let topology := (make kind .busView allowDangling ids).1
      let after := store.after (.setOpen target id false)
      ((topology.graph context level).outcome Store.index store).1 = .ok graph →
      ((topology.graph context level).outcome Store.index after).1 = .ok closed →
      ∃ buses gathered,
        ((topology.buses context level).outcome Store.index store).1 = .ok buses ∧
        ((topology.buses context level).outcome Store.index after).1 = .ok gathered ∧
        Gathered buses gathered := by
  refine ⟨BusValidator.busView_iff, ?_⟩
  intro store kind allowDangling ids context level target id graph closed topology after hgraph
    hclosed
  obtain ⟨number, record, hnumber, hrecord, hgraphOf⟩ := Store.exists_record_of_graph hgraph
  obtain ⟨record', hrecord', hclosedOf⟩ := Store.record_of_graph hnumber hclosed
  obtain ⟨hwithin, hvertices⟩ := within_of_closed hrecord hrecord' hgraphOf hclosedOf
  have hbuses := graph.buses_eq_ok topology.validator
  have hgathered := closed.buses_eq_ok topology.validator
  refine ⟨_, _, (Store.outcome_buses_of_graph (Prod.ext hgraph rfl)).trans hbuses,
    (Store.outcome_buses_of_graph (Prod.ext hclosed rfl)).trans hgathered, ?_⟩
  exact hwithin.gathered hvertices BusValidator.growing_busView (Store.kind_of_graph hclosed) hbuses
    hgathered

/-- A level with a busbar section and a load on one side of an open coupler, and a line and a load
on the other. -/
def coupledBusbars : Store :=
  Store.new.run [.addLevel 0 ⟨"A", .voltageLevel, { kind := .nodeBreaker }⟩,
    .addInjection 0 ⟨"B", .busbarSection, { level := "A", node := some 1 }⟩,
    .addInjection 0 ⟨"L", .load, { level := "A", node := some 2 }⟩,
    .addInjection 0 ⟨"M", .load, { level := "A", node := some 3 }⟩,
    .addBranch 0 ⟨"N", .line,
      { one := { level := "A", node := some 4 }, two := { level := "B", node := some 1 } }⟩,
    .addSwitch 0 ⟨"S", .switch,
      { level := "A", one := { node := some 1 }, two := { node := some 2 } }⟩,
    .addSwitch 0 ⟨"T", .switch,
      { level := "A", one := { node := some 3 }, two := { node := some 4 } }⟩,
    .addSwitch 0 ⟨"C", .switch,
      { level := "A", isOpen := true, one := { node := some 2 }, two := { node := some 3 } }⟩]

/-- Closing the coupler gathers the two buses into one. -/
theorem closing_gathers_buses_coupled :
    let busesIn (store : Store) :=
      (((make .nodeBreaker .busView false {}).1.buses {} "A").outcome Store.index store).1
    ∃ buses gathered, busesIn coupledBusbars = .ok buses ∧
      busesIn (coupledBusbars.after (.setOpen 0 "C" false)) = .ok gathered ∧
      buses.toList.map (fun bus => (bus.id, bus.equipment)) =
        [("A_1", ["B", "L"]), ("A_3", ["M", "N"])] ∧
      gathered.toList.map (fun bus => (bus.id, bus.equipment)) =
        [("A_1", ["B", "L", "M", "N"])] ∧
      Gathered buses gathered := by
  obtain ⟨buses, gathered, hbuses, hgathered, h⟩ :=
    closing_gathers_buses.2 coupledBusbars .nodeBreaker false {} {} "A" 0 "C" _ _ rfl rfl
  cases hbuses
  cases hgathered
  exact ⟨_, _, rfl, rfl, rfl, rfl, h⟩

end Topology

end Switchyard
