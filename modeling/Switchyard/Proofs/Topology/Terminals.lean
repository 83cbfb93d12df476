import Mathlib.Data.List.Perm.Basic
import Switchyard.Proofs.Store.Families
import Switchyard.Proofs.Topology.Built
import Switchyard.Proofs.Topology.Reading

/-!
Which terminals of a level have a vertex.

A terminal belongs to the level that it names: an injection has one terminal, and a branch or a
three-winding transformer (a conductor) one at each of its ends. Injections are drawn without
exception. Of a conductor only the first end in the level is drawn, so its later ends there have no
vertex, and if the first is not connected the whole conductor is missing. The terminals of a level
are its vertices and the connected later ends, each once (`terminals_are_drawn_but_later_ends`);
`line_within_level_loses_end` is a line that loses one of its ends in this way.
-/

namespace Switchyard

/-! ### Equipment with several ends -/

/-- A branch or a three-winding transformer, with the terminals at its ends. -/
structure Conductor where
  id : String
  kind : EquipmentKind
  ends : List (Side × Terminal)

/-- The ends in a level. -/
def Conductor.endsIn (conductor : Conductor) (level : String) : List (Side × Terminal) :=
  conductor.ends.filter (·.2.level = level)

/-- The conductor that a branch is, if its type is one of equipment. -/
def Branch.conductor? (branch : Resource Branch) : Option Conductor :=
  (EquipmentKind.ofType branch.type).toOption.map fun kind =>
    ⟨branch.id, kind, [(.one, branch.attributes.one), (.two, branch.attributes.two)]⟩

/-- The conductor that a transformer is. -/
def Transformer.conductor (transformer : Resource Transformer) : Conductor where
  id := transformer.id
  kind := .threeWindingsTransformer
  ends := [(.one, transformer.attributes.one), (.two, transformer.attributes.two),
    (.three, transformer.attributes.three)]

/-- All branches and transformers. -/
def Network.conductors (network : Network) : List Conductor :=
  network.branches.filterMap Branch.conductor? ++ network.transformers.map Transformer.conductor

namespace Topology

variable {topology : Topology} {level : String} {network : Network} {graph : Graph}

/-- The vertex of an end, tagged with its side, if it is connected. -/
def placeEnd (topology : Topology) (conductor : Conductor) (last : Side × Terminal) :
    Option Vertex :=
  topology.place conductor.id conductor.kind (some last.1) last.2

/-- The vertices of all terminals of a level that are connected: one for each injection and one for
each end of a conductor. -/
def terminals (topology : Topology) (level : String) (network : Network) : List Vertex :=
  (network.injections.filter (·.attributes.level = level)).filterMap topology.placeInjection ++
    network.conductors.flatMap fun conductor =>
      (conductor.endsIn level).filterMap (topology.placeEnd conductor)

/-- The vertex of the first end in a level, if it is connected. -/
def firstEnd (topology : Topology) (level : String) (conductor : Conductor) : Option Vertex :=
  (conductor.endsIn level).head?.bind (topology.placeEnd conductor)

/-- The vertices of all further ends in a level that are connected. -/
def laterEnds (topology : Topology) (level : String) (network : Network) : List Vertex :=
  network.conductors.flatMap fun conductor =>
    (conductor.endsIn level).tail.filterMap (topology.placeEnd conductor)

theorem laterEnds_eq_nil_iff :
    topology.laterEnds level network = [] ↔
      ∀ conductor ∈ network.conductors, ∀ last ∈ (conductor.endsIn level).tail,
        topology.kind.resolve last.2.toAttachment = none := by
  have hplace : ∀ (conductor : Conductor) (last : Side × Terminal),
      topology.placeEnd conductor last = none ↔
        topology.kind.resolve last.2.toAttachment = none := by
    intro conductor last
    unfold placeEnd place
    cases topology.kind.resolve last.2.toAttachment <;> simp
  simp only [laterEnds, List.flatMap_eq_nil_iff, List.filterMap_eq_nil_iff, hplace]

/-! ### First and later ends -/

/-- The ends of a conductor in a level are the first one and the later ones. -/
theorem filterMap_placeEnd (level : String) (conductor : Conductor) :
    (conductor.endsIn level).filterMap (topology.placeEnd conductor) =
      (topology.firstEnd level conductor).toList ++
        (conductor.endsIn level).tail.filterMap (topology.placeEnd conductor) := by
  unfold firstEnd
  cases conductor.endsIn level with
  | nil => rfl
  | cons last rest => cases h : topology.placeEnd conductor last <;> simp [h]

theorem perm_first_later (conductors : List Conductor) :
    (conductors.flatMap fun conductor =>
        (conductor.endsIn level).filterMap (topology.placeEnd conductor)).Perm
      (conductors.filterMap (topology.firstEnd level) ++ conductors.flatMap fun conductor =>
        (conductor.endsIn level).tail.filterMap (topology.placeEnd conductor)) := by
  simp only [filterMap_placeEnd]
  rw [List.filterMap_eq_flatMap_toList]
  exact (List.flatMap_append_perm _ _ _).symm

/-- A branch is drawn at its first end in the level, if it has one there. -/
theorem firstEnd_branch (branch : Resource Branch) :
    (Branch.conductor? branch).bind (topology.firstEnd level) =
      if level ∈ branch.attributes.levels then topology.placeBranch level branch else none := by
  unfold Branch.conductor? placeBranch
  cases EquipmentKind.ofType branch.type with
  | error fault =>
    split <;> rfl
  | ok kind =>
    simp only [Except.toOption, Option.map_some, Option.bind_some, firstEnd, Conductor.endsIn,
      Branch.levels, List.mem_cons, List.not_mem_nil, or_false]
    by_cases hone : branch.attributes.one.level = level
    · simp [hone, placeEnd]
    · by_cases htwo : branch.attributes.two.level = level
      · simp [hone, htwo, placeEnd]
      · simp [hone, htwo, Ne.symm hone, Ne.symm htwo]

/-- A transformer is drawn at its first leg in the level, if it has one there. -/
theorem firstEnd_transformer (transformer : Resource Transformer) :
    topology.firstEnd level (Transformer.conductor transformer) =
      if level ∈ transformer.attributes.levels then topology.placeTransformer level transformer
      else none := by
  unfold Transformer.conductor placeTransformer firstEnd Conductor.endsIn Transformer.levels
  by_cases hone : transformer.attributes.one.level = level
  · simp [hone, placeEnd]
  · by_cases htwo : transformer.attributes.two.level = level
    · simp [hone, htwo, placeEnd]
    · by_cases hthree : transformer.attributes.three.level = level
      · simp [hone, htwo, hthree, placeEnd]
      · simp [hone, htwo, hthree, Ne.symm hone, Ne.symm htwo, Ne.symm hthree]

/-! ### What is listed -/

/-- What is listed type by type is listed once, if all types are asked for. -/
theorem perm_listed {α : Type} {types : List ResourceType} (hdistinct : types.Nodup)
    {resources : List (Resource α)} (htypes : ∀ r ∈ resources, r.type ∈ types)
    (here : Resource α → Prop) [DecidablePred here] (f : Resource α → Option Vertex) :
    (types.flatMap fun type =>
        (resources.filter fun r => r.type = type ∧ here r).filterMap f).Perm
      ((resources.filter fun r => here r).filterMap f) := by
  have hgroup : ∀ type, (resources.filter fun r => r.type = type ∧ here r) =
      (resources.filter fun r => here r).filter (·.type = type) := by
    intro type
    rw [List.filter_filter]
    exact List.filter_congr fun r _ => Bool.decide_and _ _
  have hall : (resources.filter fun r => here r).filter (·.type ∈ types) =
      resources.filter fun r => here r :=
    List.filter_eq_self.mpr fun r hr => decide_eq_true (htypes r (List.mem_filter.mp hr).1)
  have hperm := perm_flatMap_filter Resource.type (resources.filter fun r => here r) hdistinct
  rw [hall] at hperm
  simp only [hgroup, ← List.filterMap_flatMap]
  exact hperm.filterMap f

/-- The listed vertices are those of the injections and of the first ends of the conductors. -/
theorem perm_listed_first (h : network.WellTyped) :
    (topology.listed level (network.listings level)).Perm
      ((network.injections.filter (·.attributes.level = level)).filterMap topology.placeInjection ++
        network.conductors.filterMap (topology.firstEnd level)) := by
  have hinjections := perm_listed (by decide : ResourceType.injections.Nodup)
    (fun r hr => ResourceType.isInjection_iff_mem.mp (h.injections r hr))
    (·.attributes.level = level) topology.placeInjection
  have hbranches := perm_listed (by decide : ResourceType.branches.Nodup)
    (fun r hr => ResourceType.isBranch_iff_mem.mp (h.branches r hr))
    (level ∈ ·.attributes.levels) (topology.placeBranch level)
  have hfirst : network.conductors.filterMap (topology.firstEnd level) =
      (network.branches.filter fun r => level ∈ r.attributes.levels).filterMap
          (topology.placeBranch level) ++
        (network.transformersAt level).filterMap (topology.placeTransformer level) := by
    simp only [Network.conductors, Network.transformersAt, List.filterMap_append,
      List.filterMap_filterMap, List.filterMap_map, Function.comp_def, List.filterMap_filter,
      firstEnd_branch, firstEnd_transformer, decide_eq_true_eq]
  rw [hfirst, ← List.append_assoc]
  exact (hinjections.append hbranches).append_right _

/-! ### The vertices of a level -/

/-- Whenever the graph of a level of a store can be worked out, the connected terminals of the level
are its vertices and the later ends of its conductors, each once. So no terminal is lost just if no
conductor has a connected end in the level after its first one there. -/
theorem terminals_are_drawn_but_later_ends (operations : List Operation) (topology : Topology)
    (context : Context) (level : String) (graph : Graph)
    (hgraph : ((topology.graph context level).outcome Store.index
      (Store.new.run operations)).1 = .ok graph) :
    ∃ number network, context.number = .ok number ∧
      (Store.new.run operations).network number = .ok network ∧
      (topology.terminals level network).Perm (graph.vertices ++ topology.laterEnds level network) ∧
      ((topology.terminals level network).Perm graph.vertices ↔
        ∀ conductor ∈ network.conductors, ∀ last ∈ (conductor.endsIn level).tail,
          topology.kind.resolve last.2.toAttachment = none) := by
  obtain ⟨number, network, contents, hnumber, hnetwork, hlistings, hgraphOf⟩ :=
    Store.exists_network_of_graph hgraph
  have hvertices : graph.vertices = topology.listed level (network.listings level) := by
    rw [(graphOf_built hgraphOf).2.vertices, hlistings]
  have hwellTyped := Store.network_of_run Network.kept_wellTyped operations hnetwork
  have hall : (topology.terminals level network).Perm
      (graph.vertices ++ topology.laterEnds level network) := by
    rw [hvertices, terminals]
    refine ((perm_first_later network.conductors).append_left _).trans ?_
    rw [← List.append_assoc]
    exact (perm_listed_first hwellTyped).symm.append_right _
  refine ⟨number, network, hnumber, hnetwork, hall, ?_⟩
  rw [← laterEnds_eq_nil_iff]
  constructor
  · intro hsame
    have hlength := hall.length_eq
    rw [hsame.length_eq, List.length_append] at hlength
    exact List.length_eq_zero_iff.mp (by omega)
  · intro hnone
    rwa [hnone, List.append_nil] at hall

/-- A level with a load at node 4, a line whose first end there is not connected and whose second is
at node 3, and a transformer whose last two legs are at nodes 4 and 6. -/
def severalEnds : List Operation :=
  [.addLevel 0 ⟨"A", .voltageLevel, { kind := .nodeBreaker }⟩,
    .addInjection 0 ⟨"L", .load, { level := "A", node := some 4 }⟩,
    .addBranch 0 ⟨"M", .line,
      { one := { level := "A" }, two := { level := "A", node := some 3 } }⟩,
    .addTransformer 0 ⟨"T", .threeWindingsTransformer,
      { one := { level := "B", node := some 5 }, two := { level := "A", node := some 4 },
        three := { level := "A", node := some 6 } }⟩]

/-- The line has no vertex at all, and the transformer has none for its last leg. -/
theorem terminals_are_drawn_but_later_ends_unconnected :
    let topology := (make .nodeBreaker .busView false {}).1
    ∃ network graph, (Store.new.run severalEnds).network 0 = .ok network ∧
      ((topology.graph {} "A").outcome Store.index (Store.new.run severalEnds)).1 = .ok graph ∧
      graph.vertices = [⟨"L", .load, .node 4, none⟩,
        ⟨"T", .threeWindingsTransformer, .node 4, some .two⟩] ∧
      topology.laterEnds "A" network = [⟨"M", .line, .node 3, some .two⟩,
        ⟨"T", .threeWindingsTransformer, .node 6, some .three⟩] ∧
      (topology.terminals "A" network).Perm
        (graph.vertices ++ topology.laterEnds "A" network) := by
  obtain ⟨number, network, hnumber, hnetwork, hall, _⟩ :=
    terminals_are_drawn_but_later_ends severalEnds (make .nodeBreaker .busView false {}).1 {} "A" _
      rfl
  cases hnumber
  cases hnetwork
  exact ⟨_, _, rfl, rfl, rfl, rfl, hall⟩

/-- A level with a line that leads from its node 1 to its node 2. -/
def lineWithin : List Operation :=
  [.addLevel 0 ⟨"A", .voltageLevel, { kind := .nodeBreaker }⟩,
    .addBranch 0 ⟨"L", .line,
      { one := { level := "A", node := some 1 }, two := { level := "A", node := some 2 } }⟩]

/-- Both ends of the line are connected terminals of the level, and only the first has a vertex. -/
theorem line_within_level_loses_end :
    let topology := (make .nodeBreaker .busView false {}).1
    ∃ network graph, (Store.new.run lineWithin).network 0 = .ok network ∧
      ((topology.graph {} "A").outcome Store.index (Store.new.run lineWithin)).1 = .ok graph ∧
      topology.terminals "A" network =
        [⟨"L", .line, .node 1, some .one⟩, ⟨"L", .line, .node 2, some .two⟩] ∧
      graph.vertices = [⟨"L", .line, .node 1, some .one⟩] ∧
      ¬ (topology.terminals "A" network).Perm graph.vertices :=
  ⟨_, _, rfl, rfl, rfl, rfl, fun hperm => nomatch hperm.length_eq⟩

end Topology

end Switchyard
