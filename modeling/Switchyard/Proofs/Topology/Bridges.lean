import Switchyard.Proofs.Graph.Linked
import Switchyard.Proofs.Topology.Listed

/-!
What the switches of a level link, in terms of what is stored.

A bridge is a switch that merges in the view and has both ends resolved; each has one edge in the
graph, and chains of bridges link points (`joined_iff`). All points are of the topology's kind, so a
point is known by its text (`Point.text_inj`).
-/

namespace Switchyard

/-! ### Points of one kind -/

/-- The kind of topology that a point belongs to. -/
def Point.kind : Point → TopologyKind
  | node _ => .nodeBreaker
  | bus _ => .busBreaker

theorem TopologyKind.kind_of_resolve {kind : TopologyKind} {attachment : Attachment} {point : Point}
    (h : kind.resolve attachment = some point) : point.kind = kind := by
  cases kind with
  | nodeBreaker =>
    obtain ⟨_, _, rfl⟩ := Option.map_eq_some_iff.mp h
    rfl
  | busBreaker =>
    obtain ⟨_, _, rfl⟩ := Option.map_eq_some_iff.mp h
    rfl

/-- Numbers with one decimal rendering are equal. -/
theorem toString_inj {a b : UInt32} (h : toString a = toString b) : a = b := by
  have hdigits : Nat.toDigits 10 a.toNat = Nat.toDigits 10 b.toNat := by
    rw [← Nat.toList_repr, ← Nat.toList_repr]
    exact congrArg String.toList h
  have hvalue := congrArg (Nat.ofDigitChars 10 · 0) hdigits
  simp only [Nat.ofDigitChars_toDigits (by decide : 1 < 10) (by decide : 10 ≤ 10)] at hvalue
  exact UInt32.toNat_inj.mp hvalue

/-- Points of one kind are known by their texts. -/
theorem Point.text_inj {p q : Point} (hkind : p.kind = q.kind) (h : p.text = q.text) : p = q := by
  cases p with
  | node a => cases q with
    | node b => rw [toString_inj h]
    | bus b => cases hkind
  | bus a => cases q with
    | node b => cases hkind
    | bus b => exact congrArg Point.bus h

namespace Topology

variable {topology : Topology} {level : String} {listings : Listings} {p q : Point}

/-- The switch merges in the view: it is closed and, in the bus-breaker view, it is a switch of a
node-breaker level that is not retained. -/
def Merges (topology : Topology) (switch : Switch) : Prop :=
  switch.isOpen = false ∧
    (topology.view = .busBreakerView → topology.kind = .nodeBreaker ∧ switch.isRetained = false)

theorem merges_iff {switch : Switch} :
    topology.view.merges topology.kind switch = true ↔ topology.Merges switch := by
  unfold Merges
  cases topology.view <;> cases topology.kind <;> simp [View.merges]

instance (topology : Topology) (switch : Switch) : Decidable (topology.Merges switch) :=
  decidable_of_iff _ merges_iff

/-- The switch merges in the view and has both ends resolved. -/
def IsBridge (topology : Topology) (switch : Resource Switch) : Prop :=
  topology.Merges switch.attributes ∧
    (topology.kind.resolve switch.attributes.one).isSome ∧
      (topology.kind.resolve switch.attributes.two).isSome

instance (topology : Topology) : DecidablePred topology.IsBridge := fun switch =>
  inferInstanceAs (Decidable (topology.Merges switch.attributes ∧ _))

/-- One of the level's switches merges and leads from one point to the other. -/
def Bridged (topology : Topology) (listings : Listings) (p q : Point) : Prop :=
  ∃ switch ∈ listings.switches, topology.Merges switch.attributes ∧
    topology.kind.resolve switch.attributes.one = some p ∧
    topology.kind.resolve switch.attributes.two = some q

/-- The points are equal, or a chain of the level's merging switches joins them. -/
def Links (topology : Topology) (listings : Listings) : Point → Point → Prop :=
  Relation.ReflTransGen fun p q => topology.Bridged listings p q ∨ topology.Bridged listings q p

/-- A point of the level: that of a listed vertex, or the end of a merging switch. -/
def IsPoint (topology : Topology) (level : String) (listings : Listings) (p : Point) : Prop :=
  (∃ v ∈ topology.listed level listings, v.point = p) ∨
    ∃ q, topology.Bridged listings p q ∨ topology.Bridged listings q p

/-! ### Points -/

theorem kind_of_place {id : String} {kind : EquipmentKind} {side : Option Side}
    {terminal : Terminal} {v : Vertex} (h : topology.place id kind side terminal = some v) :
    v.point.kind = topology.kind := by
  obtain ⟨point, hpoint, hv⟩ := Option.bind_eq_some_iff.mp h
  cases hv
  exact TopologyKind.kind_of_resolve hpoint

theorem kind_of_listed {v : Vertex} (h : v ∈ topology.listed level listings) :
    v.point.kind = topology.kind := by
  rw [listed, List.mem_append, List.mem_append] at h
  rcases h with (h | h) | h
  · obtain ⟨type, _, h⟩ := List.mem_flatMap.mp h
    obtain ⟨injection, _, h⟩ := List.mem_filterMap.mp h
    obtain ⟨kind, _, h⟩ := Option.bind_eq_some_iff.mp h
    exact kind_of_place h
  · obtain ⟨type, _, h⟩ := List.mem_flatMap.mp h
    obtain ⟨branch, _, h⟩ := List.mem_filterMap.mp h
    obtain ⟨kind, _, h⟩ := Option.bind_eq_some_iff.mp h
    split at h <;> exact kind_of_place h
  · obtain ⟨transformer, _, h⟩ := List.mem_filterMap.mp h
    unfold placeTransformer at h
    dsimp only at h
    split at h
    · exact kind_of_place h
    · split at h <;> exact kind_of_place h

/-- All points of a level are of the topology's kind. -/
theorem kind_of_isPoint (h : topology.IsPoint level listings p) : p.kind = topology.kind := by
  rcases h with ⟨v, hv, rfl⟩ | ⟨q, ⟨_, _, _, hone, _⟩ | ⟨_, _, _, _, htwo⟩⟩
  · exact kind_of_listed hv
  · exact TopologyKind.kind_of_resolve hone
  · exact TopologyKind.kind_of_resolve htwo

/-! ### Edges -/

/-- The edge of a switch that merges and has both ends resolved. -/
def bridge (topology : Topology) (switch : Resource Switch) : Option Edge :=
  if topology.view.merges topology.kind switch.attributes then do
    let one ← topology.kind.resolve switch.attributes.one
    let two ← topology.kind.resolve switch.attributes.two
    return { switch := switch.id, one, two }
  else
    none

theorem bridge_eq_some_iff {switch : Resource Switch} {edge : Edge} :
    topology.bridge switch = some edge ↔
      topology.Merges switch.attributes ∧
        topology.kind.resolve switch.attributes.one = some edge.one ∧
        topology.kind.resolve switch.attributes.two = some edge.two ∧ switch.id = edge.switch := by
  obtain ⟨id, one, two⟩ := edge
  rw [← merges_iff, bridge]
  by_cases hmerges : topology.view.merges topology.kind switch.attributes = true
  · rw [if_pos hmerges]
    cases topology.kind.resolve switch.attributes.one with
    | none => simp
    | some p =>
      cases topology.kind.resolve switch.attributes.two with
      | none => simp
      | some q =>
        simp only [hmerges, true_and, Option.bind_eq_bind, Option.bind_some, Option.pure_def,
          Option.some.injEq, Edge.mk.injEq]
        exact ⟨fun ⟨hid, hp, hq⟩ => ⟨hp, hq, hid⟩, fun ⟨hp, hq, hid⟩ => ⟨hid, hp, hq⟩⟩
  · rw [if_neg hmerges]
    simp [hmerges]

theorem isSome_bridge {switch : Resource Switch} :
    (topology.bridge switch).isSome ↔ topology.IsBridge switch := by
  rw [Option.isSome_iff_exists]
  constructor
  · rintro ⟨edge, hedge⟩
    obtain ⟨hmerges, hone, htwo, _⟩ := bridge_eq_some_iff.mp hedge
    exact ⟨hmerges, by rw [hone]; rfl, by rw [htwo]; rfl⟩
  · rintro ⟨hmerges, hone, htwo⟩
    obtain ⟨p, hp⟩ := Option.isSome_iff_exists.mp hone
    obtain ⟨q, hq⟩ := Option.isSome_iff_exists.mp htwo
    exact ⟨⟨switch.id, p, q⟩, bridge_eq_some_iff.mpr ⟨hmerges, hp, hq, rfl⟩⟩

theorem joined_iff : Joined (listings.switches.filterMap topology.bridge) p q ↔
    topology.Bridged listings p q ∨ topology.Bridged listings q p := by
  constructor
  · rintro ⟨e, he, hends⟩
    obtain ⟨switch, hswitch, hbridge⟩ := List.mem_filterMap.mp he
    obtain ⟨hmerges, hone, htwo, _⟩ := bridge_eq_some_iff.mp hbridge
    rcases hends with ⟨rfl, rfl⟩ | ⟨rfl, rfl⟩
    · exact .inl ⟨switch, hswitch, hmerges, hone, htwo⟩
    · exact .inr ⟨switch, hswitch, hmerges, hone, htwo⟩
  · rintro (⟨switch, hswitch, hmerges, hone, htwo⟩ | ⟨switch, hswitch, hmerges, hone, htwo⟩)
    · exact ⟨⟨switch.id, p, q⟩, List.mem_filterMap.mpr ⟨switch, hswitch,
        bridge_eq_some_iff.mpr ⟨hmerges, hone, htwo, rfl⟩⟩, .inl ⟨rfl, rfl⟩⟩
    · exact ⟨⟨switch.id, q, p⟩, List.mem_filterMap.mpr ⟨switch, hswitch,
        bridge_eq_some_iff.mpr ⟨hmerges, hone, htwo, rfl⟩⟩, .inr ⟨rfl, rfl⟩⟩

end Topology

end Switchyard
