import Switchyard.Proofs.Store.Generations
import Switchyard.Proofs.Store.Switching
import Switchyard.Proofs.Topology.Single

/-!
What opening a switch does to the buses of its level.

Opening a switch that merges takes its edge out of the graph of the level and leaves all else that
is listed as it was. So the graph can still be made, and only the component with the ends of the
switch is altered: it falls into at most two, which lose no point but an end of the switch that
nothing else holds in the graph (`opening_is_local`).
-/

namespace Switchyard

namespace Graph

variable {graph opened : Graph} {validator : BusValidator} {e : Edge} {component : PointSet}
  {buses buses' : Buses} {bus : Bus}

/-- What is left of a graph when the one switch with an id is opened, where the ends of the switch
were `one` and `two` and their component falls into parts. -/
structure Parts (graph opened : Graph) (id : String) (one two : Point) (component : PointSet)
    (parts : List PointSet) : Prop where
  found : component ∈ graph.components
  ends : one ∈ component ∧ two ∈ component
  few : parts.length ≤ 2
  /-- The components without the ends of the switch are as before, and the parts are the others. -/
  components : ∀ c, c ∈ opened.components ↔ c ∈ graph.components ∧ one ∉ c ∨ c ∈ parts
  /-- The parts keep all points but an end that carries nothing and is on no other switch. -/
  union : ∀ p, (∃ part ∈ parts, p ∈ part) ↔
    p ∈ component ∧ ¬ ((p = one ∨ p = two) ∧ graph.HangsOn id p)
  /-- If other switches still join the two ends, the component stays whole. -/
  joined : one ≠ two → Linked (graph.switches.filter (·.switch ≠ id)) one two →
    ∀ part, part ∈ parts ↔ part = component
  points : ∀ p ∈ opened.points, p ∈ graph.points
  /-- The same set of points makes the same bus, or is rejected as before. -/
  busOf : ∀ validator c, opened.busOf validator c = graph.busOf validator c
  /-- The buses without an end of the switch are as before. -/
  buses : ∀ validator all rest, graph.buses validator = .ok all →
    opened.buses validator = .ok rest →
      ∀ bus, one ∉ bus.points → two ∉ bus.points → (bus ∈ rest ↔ bus ∈ all)

theorem Severed.mem_buses_iff (h : graph.Severed e opened) {kind : TopologyKind}
    (hkind : ∀ p ∈ graph.points, p.kind = kind) (hbuses : graph.buses validator = .ok buses)
    (hopened : opened.buses validator = .ok buses') (hone : e.one ∉ bus.points)
    (htwo : e.two ∉ bus.points) : bus ∈ buses' ↔ bus ∈ buses := by
  have hkind' : ∀ p ∈ opened.points, p.kind = kind := fun p hp => hkind p (h.within.points p hp)
  rw [mem_buses hkind hbuses, mem_buses hkind' hopened]
  refine exists_congr fun c => ?_
  rw [judge_congr h.vertices, busFor_congr h.level h.vertices]
  refine and_congr_left fun ⟨_, hbus⟩ => ?_
  rw [points_of_busFor hbus] at hone htwo
  rw [h.mem_components_iff, mem_sides]
  exact ⟨fun hc => hc.elim And.left fun hc => absurd hc.2 (not_or.mpr ⟨hone, htwo⟩),
    fun hc => .inl ⟨hc, hone⟩⟩

theorem Severed.parts (h : graph.Severed e opened) {kind : TopologyKind}
    (hkind : ∀ p ∈ graph.points, p.kind = kind) :
    ∃ component, graph.Parts opened e.switch e.one e.two component (opened.sides e) := by
  obtain ⟨component, hfound, hone⟩ := Graph.exists_component (graph.one_mem e h.mem)
  refine ⟨component, hfound, ⟨hone, (mem_component_iff hfound hone).mpr h.linked_ends⟩,
    List.length_filterMap_le _ _, fun c => h.mem_components_iff,
    fun p => h.mem_sides_iff hfound hone, fun hne hlinked part => ?_, h.within.points,
    fun validator => busOf_congr h.level h.vertices,
    fun validator all rest hall hrest bus => h.mem_buses_iff hkind hall hrest⟩
  rw [← h.switches] at hlinked
  exact h.mem_sides_of_linked hfound hone hne hlinked

end Graph

namespace Topology

variable {topology : Topology} {id : String} {listings : Listings} {contents : Contents}
  {switch other : Resource Switch} {switches : List (Resource Switch)} {graph : Graph} {e : Edge}

/-! ### What is drawn when a switch is opened -/

theorem Admits.eq_of_id_eq (h : topology.Admits switches) (hswitch : switch ∈ switches)
    (hother : other ∈ switches) (hid : switch.id = other.id) : switch = other :=
  List.inj_on_of_nodup_map h.distinct hswitch hother hid

theorem bridge_eq_none_of_isOpen (h : switch.attributes.isOpen = true) :
    topology.bridge switch = none := by
  cases hbridge : topology.bridge switch with
  | none => rfl
  | some edge =>
    have hmerges := (bridge_eq_some_iff.mp hbridge).1
    rw [hmerges.1] at h
    cases h

/-- Opening a switch is never refused. -/
theorem Admits.opened (h : topology.Admits switches) :
    topology.Admits (updateFirst id ({ · with isOpen := true }) switches) where
  distinct := by
    rw [map_id_updateFirst]
    exact h.distinct
  resolved switch hswitch hmerges := by
    rcases mem_of_mem_modifyFirst hswitch with hswitch | ⟨closed, _, _, rfl⟩
    · exact h.resolved switch hswitch hmerges
    · exact nomatch hmerges.1

theorem switch_of_bridge (h : topology.bridge switch = some e) : e.switch = switch.id :=
  (bridge_eq_some_iff.mp h).2.2.2.symm

/-- Opening a switch takes its bridge away. -/
theorem filterMap_bridge_opened (h : (switches.map Resource.id).Nodup) :
    (updateFirst id ({ · with isOpen := true }) switches).filterMap topology.bridge =
      (switches.filterMap topology.bridge).filter (·.switch ≠ id) := by
  induction switches with
  | nil => rfl
  | cons switch rest ih =>
    obtain ⟨hnew, hrest⟩ := List.nodup_cons.mp h
    have hothers : ∀ e ∈ rest.filterMap topology.bridge, e.switch ≠ switch.id := by
      intro e he hid
      obtain ⟨other, hother, hbridge⟩ := List.mem_filterMap.mp he
      exact hnew (hid ▸ switch_of_bridge hbridge ▸ List.mem_map_of_mem hother)
    rw [updateFirst_cons]
    by_cases hid : switch.id = id
    · rw [if_pos hid, List.filterMap_cons_none (bridge_eq_none_of_isOpen rfl)]
      have hall : (rest.filterMap topology.bridge).filter (·.switch ≠ id) =
          rest.filterMap topology.bridge :=
        List.filter_eq_self.mpr fun e he => decide_eq_true (hid ▸ hothers e he)
      cases hbridge : topology.bridge switch with
      | none => rw [List.filterMap_cons_none hbridge, hall]
      | some e =>
        have hsame : e.switch = id := (switch_of_bridge hbridge).trans hid
        rw [List.filterMap_cons_some hbridge, List.filter_cons_of_neg (by simpa using hsame), hall]
    · rw [if_neg hid, List.filterMap_cons, ih hrest, List.filterMap_cons]
      cases hbridge : topology.bridge switch with
      | none => rfl
      | some e =>
        have hother : e.switch ≠ id := fun h => hid ((switch_of_bridge hbridge).symm.trans h)
        rw [List.filter_cons_of_pos (by simpa using hother)]

/-- The graph that is drawn with a switch open is the graph with it closed, severed. -/
theorem severed_opened (level : String) (h : topology.Admits listings.switches)
    (hswitch : switch ∈ listings.switches) (hbridge : topology.bridge switch = some e) :
    (topology.draw level listings).Severed e (topology.draw level
      { listings with
        switches := updateFirst switch.id ({ · with isOpen := true }) listings.switches }) where
  mem := by
    rw [switches_draw]
    exact List.mem_filterMap.mpr ⟨switch, hswitch, hbridge⟩
  only f hf hid := by
    rw [switches_draw] at hf
    obtain ⟨other, hother, hbridge'⟩ := List.mem_filterMap.mp hf
    rw [switch_of_bridge hbridge', switch_of_bridge hbridge] at hid
    obtain rfl := h.eq_of_id_eq hother hswitch hid
    exact Option.some.inj (hbridge'.symm.trans hbridge)
  level := by rw [level_draw, level_draw]
  vertices := by
    rw [vertices_draw, vertices_draw]
    rfl
  switches := by
    rw [switches_draw, switches_draw, switch_of_bridge hbridge]
    exact filterMap_bridge_opened h.distinct
  spanned := spanned_draw _ _ _
  left := spanned_draw _ _ _

/-! ### The level of the switch -/

/-- If the first switch with an id is one of a level, merges in the view and has both ends resolved,
it can be opened and the graph of the level can be made again. Then no component of the graph is
altered but that of the two ends, which falls into at most two parts. -/
theorem opening_is_local (store : Store) (topology : Topology) (context : Context) (level : String)
    (graph : Graph) (number : UInt32) (network : Network) (id : String) (switch : Resource Switch)
    (one two : Point)
    (hgraph : ((topology.graph context level).outcome Store.index store).1 = .ok graph)
    (hnumber : context.number = .ok number) (hnetwork : store.network number = .ok network)
    (hfirst : network.switches.find? (·.id = id) = some switch)
    (hlevel : switch.attributes.level = level) (hmerges : topology.Merges switch.attributes)
    (hone : topology.kind.resolve switch.attributes.one = some one)
    (htwo : topology.kind.resolve switch.attributes.two = some two) :
    ∃ opened component parts, (store.apply (.setOpen number id true)).1 = .ok () ∧
      ((topology.graph context level).outcome Store.index
        (store.after (.setOpen number id true))).1 = .ok opened ∧
      graph.Parts opened id one two component parts := by
  have hkind := Store.kind_of_graph hgraph
  subst hlevel
  obtain ⟨record, hrecord, hgraphOf⟩ := Store.record_of_graph hnumber hgraph
  obtain ⟨hgranted, after, hafter, hcontents⟩ :=
    Store.record?_setOpen true hnetwork hfirst hrecord
  obtain ⟨hsame, hadmits, rfl⟩ := graphOf_eq_ok_iff.mp hgraphOf
  have hid : switch.id = id := by simpa using List.find?_some hfirst
  subst hid
  have hlisted : switch ∈ record.contents.listings.switches := by
    obtain ⟨held, _, hheld, _, rfl⟩ := Store.record?_eq_some_iff.mp hrecord
    cases hnetwork.symm.trans hheld
    exact List.mem_filter.mpr ⟨List.mem_of_find?_eq_some hfirst, decide_eq_true rfl⟩
  have hsevered := severed_opened switch.attributes.level hadmits hlisted
    (bridge_eq_some_iff.mpr ⟨hmerges, hone, htwo, rfl⟩ :
      topology.bridge switch = some ⟨switch.id, one, two⟩)
  obtain ⟨component, hparts⟩ := hsevered.parts hkind
  refine ⟨_, component, _, hgranted, ?_, hparts⟩
  rw [Store.outcome_graph hafter hnumber, hcontents]
  exact graphOf_eq_ok_iff.mpr ⟨hsame, hadmits.opened, rfl⟩

/-- A level with a busbar section at node 1, a load at node 2 and another at node 5. One switch
joins nodes 1 and 2, and another leads from node 2 to node 9, where nothing else is. -/
def deadEnd : Store :=
  Store.new.run [.addLevel 0 ⟨"A", .voltageLevel, { kind := .nodeBreaker }⟩,
    .addInjection 0 ⟨"B", .busbarSection, { level := "A", node := some 1 }⟩,
    .addInjection 0 ⟨"L", .load, { level := "A", node := some 2 }⟩,
    .addInjection 0 ⟨"M", .load, { level := "A", node := some 5 }⟩,
    .addSwitch 0 ⟨"S", .switch,
      { level := "A", one := { node := some 1 }, two := { node := some 2 } }⟩,
    .addSwitch 0 ⟨"T", .switch,
      { level := "A", one := { node := some 2 }, two := { node := some 9 } }⟩]

/-- Opening the switch to the dead end takes node 9 out of the graph, and nothing else. -/
theorem opening_is_local_dead_end :
    let topology := (make .nodeBreaker .busView false {}).1
    let graphIn (store : Store) := ((topology.graph {} "A").outcome Store.index store).1
    ∃ graph opened component parts, graphIn deadEnd = .ok graph ∧
      graphIn (deadEnd.after (.setOpen 0 "T" true)) = .ok opened ∧
      graph.components.map (·.toList) = [[.node 1, .node 2, .node 9], [.node 5]] ∧
      opened.components.map (·.toList) = [[.node 1, .node 2], [.node 5]] ∧
      graph.Parts opened "T" (.node 2) (.node 9) component parts := by
  obtain ⟨opened, component, parts, _, hopened, hparts⟩ :=
    opening_is_local deadEnd (make .nodeBreaker .busView false {}).1 {} "A" _ 0 _ "T" _ (.node 2)
      (.node 9) rfl rfl rfl rfl rfl ⟨rfl, nofun⟩ rfl rfl
  cases hopened
  exact ⟨_, _, component, parts, rfl, rfl, rfl, rfl, hparts⟩

end Topology

end Switchyard
