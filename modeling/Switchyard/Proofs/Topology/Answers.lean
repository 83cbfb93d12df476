import Switchyard.Proofs.Dialogue.Returns
import Switchyard.Proofs.Topology.Built

/-!
What is worked out from any answers at all.

An index may answer what it likes, and differently each time. Even so, a terminal or an end of a
switch is placed only where the topology's kind resolves it, so a graph that is worked out is that
of the level asked for and has points of one kind (`graph_returns`), and buses that are worked out
are those of such a graph (`buses_returns`, `busAt_returns`).
-/

namespace Switchyard

/-- What each element that succeeds comes to, all elements of a list come to. -/
theorem forall_of_mapM_eq_ok {α β : Type} {f : α → Except Fault β} {post : β → Prop}
    (h : ∀ x y, f x = .ok y → post y) :
    ∀ {xs : List α} {ys : List β}, xs.mapM f = .ok ys → ∀ y ∈ ys, post y
  | [], ys, hys => by
    cases hys
    exact fun _ hy => nomatch hy
  | x :: xs, ys, hys => by
    rw [List.mapM_cons] at hys
    cases hx : f x with
    | error fault =>
      rw [hx] at hys
      cases hys
    | ok y =>
      cases hxs : xs.mapM f with
      | error fault =>
        rw [hx, hxs] at hys
        cases hys
      | ok rest =>
        rw [hx, hxs] at hys
        cases hys
        exact List.forall_mem_cons.mpr ⟨h x y hx, forall_of_mapM_eq_ok h hxs⟩

namespace Topology

variable {topology : Topology} {level : String} {context : Context} {found : Option Vertex}

theorem kind_of_injectionVertex {injection : Resource Terminal}
    (h : topology.injectionVertex injection = .ok found) :
    ∀ v ∈ found, v.point.kind = topology.kind := by
  cases htype : injection.type.isInjection with
  | false =>
    unfold injectionVertex at h
    rw [htype] at h
    cases h
  | true =>
    rw [injectionVertex_eq htype] at h
    cases h
    intro v hv
    obtain ⟨kind, _, hplace⟩ := Option.bind_eq_some_iff.mp hv
    exact kind_of_place hplace

theorem kind_of_branchVertex {branch : Resource Branch}
    (h : topology.branchVertex level branch = .ok found) :
    ∀ v ∈ found, v.point.kind = topology.kind := by
  cases htype : branch.type.isBranch with
  | false =>
    unfold branchVertex at h
    rw [htype] at h
    cases h
  | true =>
    rw [branchVertex_eq htype] at h
    cases h
    intro v hv
    obtain ⟨kind, _, hplace⟩ := Option.bind_eq_some_iff.mp hv
    split at hplace <;> exact kind_of_place hplace

theorem kind_of_transformerVertex {transformer : Resource Transformer} :
    ∀ v ∈ topology.transformerVertex level transformer, v.point.kind = topology.kind := by
  intro v hv
  obtain ⟨point, hpoint, rfl⟩ := Option.map_eq_some_iff.mp hv
  exact TopologyKind.kind_of_resolve hpoint

theorem injectionVertices_returns (variant : UInt32) (type : ResourceType) :
    (topology.injectionVertices variant level type).Returns fun vertices =>
      ∀ v ∈ vertices, v.point.kind = topology.kind := by
  refine .bind (.any _) fun listed _ => .bind .lift fun found hfound => .pure fun v hv => ?_
  obtain ⟨vertex, hvertex, hv⟩ := List.mem_filterMap.mp hv
  exact forall_of_mapM_eq_ok (fun _ _ => kind_of_injectionVertex) hfound vertex hvertex v hv

theorem branchVertices_returns (variant : UInt32) (type : ResourceType) :
    (topology.branchVertices variant level type).Returns fun vertices =>
      ∀ v ∈ vertices, v.point.kind = topology.kind := by
  refine .bind (.any _) fun listed _ => .bind .lift fun found hfound => .pure fun v hv => ?_
  obtain ⟨vertex, hvertex, hv⟩ := List.mem_filterMap.mp hv
  exact forall_of_mapM_eq_ok (fun _ _ => kind_of_branchVertex) hfound vertex hvertex v hv

theorem vertices_returns (variant : UInt32) :
    (topology.vertices variant level).Returns fun vertices =>
      ∀ v ∈ vertices, v.point.kind = topology.kind := by
  refine .bind (.mapM (injectionVertices_returns variant) _) fun injections hinjections => ?_
  refine .bind (.mapM (branchVertices_returns variant) _) fun branches hbranches => ?_
  refine .bind (.any _) fun transformers _ => .pure fun v hv => ?_
  rw [List.mem_append, List.mem_append] at hv
  rcases hv with (hv | hv) | hv
  · obtain ⟨group, hgroup, hv⟩ := List.mem_flatten.mp hv
    exact hinjections group hgroup v hv
  · obtain ⟨group, hgroup, hv⟩ := List.mem_flatten.mp hv
    exact hbranches group hgroup v hv
  · obtain ⟨transformer, _, hv⟩ := List.mem_filterMap.mp hv
    exact kind_of_transformerVertex v hv

/-- The graph is that of the level, and all its points are of the topology's kind. -/
structure Suits (topology : Topology) (level : String) (graph : Graph) : Prop where
  level : graph.level = level
  kind : ∀ p ∈ graph.points, p.kind = topology.kind

/-- Vertices and switches with points of the topology's kind are put together to a graph of such. -/
theorem suits_of_connect {vertices : List Vertex} {switches : List (Resource Switch)}
    {graph : Graph} (hvertices : ∀ v ∈ vertices, v.point.kind = topology.kind)
    (h : topology.connect [] (.ofVertices level vertices) switches = .ok graph) :
    topology.Suits level graph := by
  obtain ⟨_, _, rfl⟩ := connect_eq_ok_iff.mp h
  obtain ⟨hlevel, _, _, hpoints⟩ := Graph.foldl_attach vertices (.empty level)
  obtain ⟨hlevel', _, _, hpoints'⟩ :=
    Graph.foldl_addSwitch (switches.filterMap topology.bridge) (.ofVertices level vertices)
  refine ⟨hlevel'.trans hlevel, fun p hp => ?_⟩
  rcases (hpoints' p).mp hp with hp | ⟨edge, hedge, hend⟩
  · rcases (hpoints p).mp hp with hp | ⟨v, hv, rfl⟩
    · exact nomatch hp
    · exact hvertices v hv
  · obtain ⟨switch, _, hbridge⟩ := List.mem_filterMap.mp hedge
    obtain ⟨_, hone, htwo, _⟩ := bridge_eq_some_iff.mp hbridge
    rcases hend with rfl | rfl
    · exact TopologyKind.kind_of_resolve hone
    · exact TopologyKind.kind_of_resolve htwo

/-- Whatever is answered, a graph that is worked out suits the topology and the level. -/
theorem graph_returns : (topology.graph context level).Returns (topology.Suits level) := by
  refine .bind .lift fun variant _ => .bind (.any _) fun read _ => ?_
  by_cases hkind : read.attributes.kind = topology.kind
  · rw [if_pos hkind]
    refine .bind (vertices_returns variant) fun vertices hvertices => ?_
    exact .bind (.any _) fun switches _ => .imp .lift fun graph => suits_of_connect hvertices
  · rw [if_neg hkind]
    exact .bind .lift nofun

/-- Whatever is answered, all buses that are worked out are those of a graph that suits. -/
theorem buses_returns : (topology.buses context level).Returns fun buses =>
    ∃ graph, topology.Suits level graph ∧ graph.buses topology.validator = .ok buses := by
  refine .bind graph_returns fun graph hgraph => .bind (.any _) fun _ _ => ?_
  exact .imp .lift fun buses hbuses => ⟨graph, hgraph, hbuses⟩

/-- Whatever is answered, the bus that is worked out at a point is that of a graph that suits. -/
theorem busAt_returns {start : Point} : (topology.busAt context level start).Returns fun found =>
    ∃ graph, topology.Suits level graph ∧ graph.busAt topology.validator start = .ok found := by
  refine .bind graph_returns fun graph hgraph => .bind (.any _) fun _ _ => ?_
  exact .imp .lift fun found hfound => ⟨graph, hgraph, hfound⟩

end Topology

end Switchyard
