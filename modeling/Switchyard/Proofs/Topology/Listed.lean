import Switchyard.Proofs.Network.Listings
import Switchyard.Topology.Buses

/-!
The vertices, the graph and the buses of a level, worked out from its contents.

`Topology.listed` says which vertices a level has: one for each connected terminal that is listed,
of a branch or a transformer the first one in the level, in listing order. `graphOf` and `busesOf`
make the graph and the buses out of these and the listed switches without asking anybody.
-/

namespace Switchyard

/-- Every resource is listed under its own type. -/
structure Listings.Typed (listings : Listings) : Prop where
  injections : ∀ type, ∀ r ∈ listings.injections type, r.type = type
  branches : ∀ type, ∀ r ∈ listings.branches type, r.type = type

theorem Network.typed_listings (network : Network) (level : String) :
    (network.listings level).Typed where
  injections type r hr := by
    have := (List.mem_filter.mp hr).2
    simp only [decide_eq_true_eq] at this
    exact this.1
  branches type r hr := by
    have := (List.mem_filter.mp hr).2
    simp only [decide_eq_true_eq] at this
    exact this.1

/-- Grouping by distinct keys takes every member that has one of them once. -/
theorem perm_flatMap_filter {α κ : Type} [DecidableEq κ] (key : α → κ) (xs : List α) :
    ∀ {keys : List κ}, keys.Nodup →
      (keys.flatMap fun k => xs.filter (key · = k)).Perm (xs.filter (key · ∈ keys))
  | [], _ => by simp
  | k :: ks, h => by
    obtain ⟨hk, hks⟩ := List.nodup_cons.mp h
    have hhere : (xs.filter (key · ∈ k :: ks)).filter (key · = k) = xs.filter (key · = k) := by
      rw [List.filter_filter]
      exact List.filter_congr fun x _ => by by_cases hx : key x = k <;> simp [hx]
    have hothers : (xs.filter (key · ∈ k :: ks)).filter (fun x => !decide (key x = k)) =
        xs.filter (key · ∈ ks) := by
      rw [List.filter_filter]
      refine List.filter_congr fun x _ => ?_
      by_cases hx : key x = k
      · simp [hx, hk]
      · simp [hx]
    rw [List.flatMap_cons]
    refine .trans ?_ (List.filter_append_perm (key · = k) (xs.filter (key · ∈ k :: ks)))
    rw [hhere, hothers]
    exact (perm_flatMap_filter key xs hks).append_left _

namespace Topology

variable (topology : Topology)

/-- The vertex of a terminal, if it is connected. -/
def place (id : String) (kind : EquipmentKind) (side : Option Side) (terminal : Terminal) :
    Option Vertex := do
  let point ← topology.kind.resolve terminal.toAttachment
  return { equipment := id, kind, point, side }

/-- The vertex of an injection. -/
def placeInjection (injection : Resource Terminal) : Option Vertex := do
  let kind ← (EquipmentKind.ofType injection.type).toOption
  topology.place injection.id kind none injection.attributes

/-- The vertex of the first end of a branch in the level. -/
def placeBranch (level : String) (branch : Resource Branch) : Option Vertex := do
  let kind ← (EquipmentKind.ofType branch.type).toOption
  if branch.attributes.one.level = level then
    topology.place branch.id kind (some .one) branch.attributes.one
  else
    topology.place branch.id kind (some .two) branch.attributes.two

/-- The vertex of the first leg of a transformer in the level. -/
def placeTransformer (level : String) (transformer : Resource Transformer) : Option Vertex :=
  let place := topology.place transformer.id .threeWindingsTransformer
  if transformer.attributes.one.level = level then place (some .one) transformer.attributes.one
  else if transformer.attributes.two.level = level then
    place (some .two) transformer.attributes.two
  else place (some .three) transformer.attributes.three

/-- The vertices of a level, in listing order. -/
def listed (level : String) (listings : Listings) : List Vertex :=
  (ResourceType.injections.flatMap fun type =>
    (listings.injections type).filterMap topology.placeInjection) ++
  (ResourceType.branches.flatMap fun type =>
    (listings.branches type).filterMap (topology.placeBranch level)) ++
  listings.transformers.filterMap (topology.placeTransformer level)

/-- The graph of a level with the given contents. -/
def graphOf (level : String) (contents : Contents) : Except Fault Graph := do
  unless contents.kind = topology.kind do
    throw (.topologyKindMismatch level contents.kind topology.kind)
  topology.connect [] (.ofVertices level (topology.listed level contents.listings))
    contents.listings.switches

/-- The buses of a level with the given contents. -/
def busesOf (level : String) (contents : Contents) : Except Fault Buses := do
  let graph ← topology.graphOf level contents
  graph.buses topology.validator

variable {topology} {level : String}

/-! ### Vertices, resource by resource -/

theorem injectionVertex_eq {injection : Resource Terminal} (h : injection.type.isInjection = true) :
    topology.injectionVertex injection = .ok (topology.placeInjection injection) := by
  unfold injectionVertex placeInjection place
  rw [h]
  have hmem := ResourceType.isInjection_iff_mem.mp h
  simp only [ResourceType.injections, List.mem_cons, List.not_mem_nil, or_false] at hmem
  rcases hmem with h | h | h | h | h | h | h | h | h <;> rw [h] <;>
    cases topology.kind.resolve injection.attributes.toAttachment <;> rfl

theorem branchVertex_eq {branch : Resource Branch} (h : branch.type.isBranch = true) :
    topology.branchVertex level branch = .ok (topology.placeBranch level branch) := by
  unfold branchVertex placeBranch Branch.sideIn
  rw [h]
  have hmem := ResourceType.isBranch_iff_mem.mp h
  simp only [ResourceType.branches, List.mem_cons, List.not_mem_nil, or_false] at hmem
  by_cases hone : branch.attributes.one.level = level <;> simp only [hone, if_true, if_false] <;>
    rcases hmem with h | h <;> rw [h] <;> rfl

theorem transformerVertex_eq (transformer : Resource Transformer) :
    topology.transformerVertex level transformer =
      topology.placeTransformer level transformer := by
  unfold transformerVertex placeTransformer Transformer.sideIn place
  by_cases hone : transformer.attributes.one.level = level
  · rw [if_pos hone, if_pos hone]
    exact Option.map_eq_bind
  by_cases htwo : transformer.attributes.two.level = level
  · rw [if_neg hone, if_neg hone, if_pos htwo, if_pos htwo]
    exact Option.map_eq_bind
  · rw [if_neg hone, if_neg hone, if_neg htwo, if_neg htwo]
    exact Option.map_eq_bind

end Topology

end Switchyard
