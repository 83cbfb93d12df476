import Switchyard.Proofs.Topology.Built
import Switchyard.Proofs.Store.Snapshot

/-!
Why a level has no graph.

A graph is refused on the first ground that there is: no working variant, no such variant, no such
level, a level of another kind, and then the first of the listed switches that offends, by having
the id of an earlier one or by merging with an end that is not resolved (`Refuses`). The switches
before it are admitted, whatever comes after it. Nothing else is refused: a listing has resources of
the type asked for only, so the equipment of the level is always placed. What is not refused is made
(`graph_is_refused_on_first_ground`).
-/

namespace Switchyard

theorem Context.number_eq_ok_iff {context : Context} {number : UInt32} :
    context.number = .ok number ↔ context.working = some number := by
  unfold Context.number
  cases context.working <;> simp

namespace Topology

variable {topology : Topology} {level : String} {contents : Contents} {graph : Graph}
  {switch : Resource Switch} {switches : List (Resource Switch)} {seen : List String}
  {fault : Fault}

/-- A switch has an id that was seen before, or it merges, has an end that is not resolved, and may
not dangle. Of both, it is the id that is told. -/
inductive Offends (topology : Topology) (seen : List String) (switch : Resource Switch) :
    Fault → Prop
  | duplicate (hseen : switch.id ∈ seen) :
    Offends topology seen switch (.duplicateSwitch switch.id)
  | dangling (hnew : switch.id ∉ seen) (hmerges : topology.Merges switch.attributes)
      (hend : topology.kind.resolve switch.attributes.one = none ∨
        topology.kind.resolve switch.attributes.two = none)
      (hrefused : topology.allowDangling = false) :
    Offends topology seen switch (.danglingSwitch switch.id)

/-- One of the switches offends, and those listed before it are admitted. -/
def FirstOffends (topology : Topology) (seen : List String) (switches : List (Resource Switch))
    (fault : Fault) : Prop :=
  ∃ before switch after, switches = before ++ switch :: after ∧
    (∀ earlier ∈ before, earlier.id ∉ seen) ∧ topology.Admits before ∧
    topology.Offends (before.map Resource.id ++ seen) switch fault

/-- The grounds on which a graph is refused, in the order in which they are looked for, each with
the kind of its fault. -/
inductive Refuses (topology : Topology) (store : Store) (context : Context) (level : String) :
    FaultKind → Fault → Prop
  | unset (hworking : context.working = none) :
    Refuses topology store context level .variantNotSet .workingVariantUnset
  | variantUnknown {number : UInt32} (hworking : context.working = some number)
      (hvariant : store.variant? number = none) :
    Refuses topology store context level .variantNotFound (.variantNumberUnknown number)
  | levelUnknown {number : UInt32} {variant : Variant} (hworking : context.working = some number)
      (hvariant : store.variant? number = some variant)
      (hlevel : variant.network.level? level = none) :
    Refuses topology store context level .resourceNotFound (.voltageLevelUnknown level)
  | otherKind {number : UInt32} {variant : Variant} {found : Resource VoltageLevel}
      (hworking : context.working = some number)
      (hvariant : store.variant? number = some variant)
      (hlevel : variant.network.level? level = some found)
      (hkind : found.attributes.kind ≠ topology.kind) :
    Refuses topology store context level .invalidArgument
      (.topologyKindMismatch level found.attributes.kind topology.kind)
  | offended {number : UInt32} {variant : Variant} {found : Resource VoltageLevel} {fault : Fault}
      (hworking : context.working = some number)
      (hvariant : store.variant? number = some variant)
      (hlevel : variant.network.level? level = some found)
      (hkind : found.attributes.kind = topology.kind)
      (hswitch : topology.FirstOffends [] (variant.network.switchesAt level) fault) :
    Refuses topology store context level .invalidGraph fault

/-! ### One switch -/

theorem edge_eq_error_iff :
    topology.edge switch = .error fault ↔
      topology.Merges switch.attributes ∧
      (topology.kind.resolve switch.attributes.one = none ∨
        topology.kind.resolve switch.attributes.two = none) ∧
      topology.allowDangling = false ∧ fault = .danglingSwitch switch.id := by
  unfold Topology.edge
  by_cases hmerges : topology.Merges switch.attributes
  · rw [if_pos (merges_iff.mpr hmerges)]
    cases topology.kind.resolve switch.attributes.one <;>
      cases topology.kind.resolve switch.attributes.two <;>
      cases topology.allowDangling <;> simp [hmerges, eq_comm (b := fault)]
  · rw [if_neg (mt merges_iff.mp hmerges)]
    simp [hmerges]

theorem Offends.congr {seen' : List String} (hseen : ∀ id, id ∈ seen ↔ id ∈ seen')
    (h : topology.Offends seen switch fault) : topology.Offends seen' switch fault := by
  cases h with
  | duplicate hold => exact .duplicate ((hseen _).mp hold)
  | dangling hnew hmerges hend hrefused =>
    exact .dangling (fun hold => hnew ((hseen _).mpr hold)) hmerges hend hrefused

/-- A switch that is admitted after others does not offend. -/
theorem not_offends (hnew : switch.id ∉ seen)
    (hresolved : topology.Merges switch.attributes →
      topology.allowDangling = true ∨ topology.IsBridge switch) :
    ¬ topology.Offends seen switch fault := by
  rintro (hseen | ⟨_, hmerges, hend, hrefused⟩)
  · exact hnew hseen
  · rcases hresolved hmerges with hallowed | ⟨_, hone, htwo⟩
    · rw [hrefused] at hallowed
      cases hallowed
    · rcases hend with hend | hend
      · rw [hend] at hone
        cases hone
      · rw [hend] at htwo
        cases htwo

/-! ### All switches -/

theorem not_firstOffends_nil : ¬ topology.FirstOffends seen [] fault := by
  rintro ⟨before, switch, after, hnil, _⟩
  cases before <;> cases hnil

/-- It does not matter whether the id of a switch is counted with the listed or with the seen. -/
theorem mem_seen_iff {before : List (Resource Switch)} (id : String) :
    id ∈ (switch :: before).map Resource.id ++ seen ↔
      id ∈ before.map Resource.id ++ switch.id :: seen := by
  rw [List.map_cons, List.cons_append]
  exact List.perm_middle.symm.mem_iff

/-- The first switch offends, or it is admitted and seen by those after it. -/
theorem firstOffends_cons :
    topology.FirstOffends seen (switch :: switches) fault ↔
      topology.Offends seen switch fault ∨
        switch.id ∉ seen ∧
          (topology.Merges switch.attributes →
            topology.allowDangling = true ∨ topology.IsBridge switch) ∧
          topology.FirstOffends (switch.id :: seen) switches fault := by
  constructor
  · rintro ⟨before, other, after, hsplit, hunseen, hadmits, hoffends⟩
    cases before with
    | nil =>
      cases hsplit
      exact .inl hoffends
    | cons first before =>
      obtain ⟨rfl, rfl⟩ := List.cons.inj hsplit
      obtain ⟨hdistinct, hresolved, hbefore⟩ := admits_cons.mp hadmits
      refine .inr ⟨hunseen _ List.mem_cons_self, hresolved, before, other, after, rfl,
        fun earlier hearlier => ?_, hbefore, hoffends.congr mem_seen_iff⟩
      rw [List.mem_cons, not_or]
      exact ⟨hdistinct earlier hearlier, hunseen earlier (List.mem_cons_of_mem _ hearlier)⟩
  · rintro (hoffends | ⟨hunseen, hresolved, before, other, after, rfl, hfresh, hbefore, hoffends⟩)
    · exact ⟨[], switch, switches, rfl, fun _ h => absurd h List.not_mem_nil, topology.admits_nil,
        hoffends⟩
    · refine ⟨switch :: before, other, after, rfl, ?_, admits_cons.mpr ⟨fun earlier hearlier => ?_,
        hresolved, hbefore⟩, hoffends.congr fun id => (mem_seen_iff id).symm⟩
      · rintro earlier (_ | ⟨_, hearlier⟩)
        · exact hunseen
        · exact fun hold => hfresh earlier hearlier (List.mem_cons_of_mem _ hold)
      · exact fun hsame => hfresh earlier hearlier (hsame ▸ List.mem_cons_self)

/-- Connecting switches fails on the first that offends. -/
theorem connect_eq_error_iff :
    topology.connect seen graph switches = .error fault ↔
      topology.FirstOffends seen switches fault := by
  induction switches generalizing seen graph with
  | nil => exact ⟨nofun, fun h => absurd h not_firstOffends_nil⟩
  | cons switch rest ih =>
    rw [connect, firstOffends_cons]
    by_cases hseen : switch.id ∈ seen
    -- an id that was seen is refused before the ends are looked at
    · rw [if_pos hseen]
      constructor
      · intro h
        cases h
        exact .inl (.duplicate hseen)
      · rintro (hoffends | ⟨hunseen, _⟩)
        · cases hoffends with
          | duplicate => rfl
          | dangling hnew => exact absurd hseen hnew
        · exact absurd hseen hunseen
    rw [if_neg hseen]
    cases hedge : topology.edge switch with
    | error other =>
      obtain ⟨hmerges, hend, hrefused, rfl⟩ := edge_eq_error_iff.mp hedge
      have hoffends := Offends.dangling hseen hmerges hend hrefused
      constructor
      · intro h
        cases h
        exact .inl hoffends
      · rintro (hother | ⟨_, hresolved, _⟩)
        · cases hother with
          | duplicate hold => exact absurd hold hseen
          | dangling => rfl
        · exact absurd hoffends (not_offends hseen hresolved)
    | ok edge =>
      obtain ⟨hresolved, _⟩ := edge_eq_ok_iff.mp hedge
      rw [or_iff_right (not_offends hseen hresolved)]
      cases edge with
      | none => exact ih.trans ⟨fun h => ⟨hseen, hresolved, h⟩, fun h => h.2.2⟩
      | some edge => exact ih.trans ⟨fun h => ⟨hseen, hresolved, h⟩, fun h => h.2.2⟩

/-! ### Levels of a store -/

variable {store : Store} {context : Context} {number : UInt32} {variant : Variant}
  {found : Resource VoltageLevel} {kind : FaultKind}

/-- There are no graphs of the levels of a variant that is not there. -/
theorem outcome_graph_of_unknown (hworking : context.working = some number)
    (hvariant : store.variant? number = none) :
    (topology.graph context level).outcome Store.index store =
      (.error (.variantNumberUnknown number), store) := by
  refine Store.outcome_graph_of_error (Context.number_eq_ok_iff.mpr hworking) ?_
  rw [Store.level, Store.network, hvariant]
  rfl

/-- The graph of a level that the store holds is made of what is listed for it. -/
theorem outcome_graph_of_found (hworking : context.working = some number)
    (hvariant : store.variant? number = some variant)
    (hlevel : variant.network.level? level = some found) :
    (topology.graph context level).outcome Store.index store =
      (topology.graphOf level ⟨found.attributes.kind, variant.network.listings level⟩, store) := by
  have hrecord : store.record? number level = some
      ⟨⟨⟨found.attributes.kind, variant.network.listings level⟩, found.attributes.generation⟩,
        found.attributes.valid⟩ := by
    rw [Store.record?, hvariant, Option.bind_some, Network.record?, hlevel, Option.map_some]
  exact Store.outcome_graph hrecord (Context.number_eq_ok_iff.mpr hworking)

/-- Each refusal is told by a fault of its kind. -/
theorem Refuses.kind_eq (h : topology.Refuses store context level kind fault) :
    fault.kind = kind := by
  cases h with
  | unset | variantUnknown | levelUnknown | otherKind => rfl
  | offended _ _ _ _ hswitch =>
    obtain ⟨_, _, _, _, _, _, hoffends⟩ := hswitch
    cases hoffends <;> rfl

/-- On each ground the graph is refused. -/
theorem Refuses.outcome (h : topology.Refuses store context level kind fault) :
    (topology.graph context level).outcome Store.index store = (.error fault, store) := by
  cases h with
  | unset hworking =>
    rw [graph, Context.number, hworking]
    rfl
  | variantUnknown hworking hvariant => exact outcome_graph_of_unknown hworking hvariant
  | levelUnknown hworking hvariant hlevel =>
    refine Store.outcome_graph_of_error (Context.number_eq_ok_iff.mpr hworking) ?_
    refine Store.level_of_record?_none hvariant ?_
    rw [Store.record?, hvariant, Option.bind_some, Network.record?, hlevel, Option.map_none]
  | otherKind hworking hvariant hlevel hkind =>
    rw [outcome_graph_of_found hworking hvariant hlevel, graphOf, if_neg hkind]
    rfl
  | offended hworking hvariant hlevel hkind hswitch =>
    rw [outcome_graph_of_found hworking hvariant hlevel, graphOf, if_pos hkind]
    exact congrArg (·, store) (connect_eq_error_iff.mpr hswitch)

/-- There is a ground for each refusal. -/
theorem exists_refuses
    (h : ((topology.graph context level).outcome Store.index store).1 = .error fault) :
    ∃ kind, topology.Refuses store context level kind fault := by
  cases hworking : context.working with
  | none =>
    rw [graph, Context.number, hworking] at h
    cases h
    exact ⟨_, .unset hworking⟩
  | some number =>
  cases hvariant : store.variant? number with
  | none =>
    rw [outcome_graph_of_unknown hworking hvariant] at h
    cases h
    exact ⟨_, .variantUnknown hworking hvariant⟩
  | some variant =>
  cases hlevel : variant.network.level? level with
  | none =>
    have hrefuses : topology.Refuses store context level _ _ :=
      .levelUnknown hworking hvariant hlevel
    rw [hrefuses.outcome] at h
    cases h
    exact ⟨_, hrefuses⟩
  | some found =>
  rw [outcome_graph_of_found hworking hvariant hlevel, graphOf] at h
  by_cases hkind : found.attributes.kind = topology.kind
  · rw [if_pos hkind] at h
    exact ⟨_, .offended hworking hvariant hlevel hkind (connect_eq_error_iff.mp h)⟩
  · rw [if_neg hkind] at h
    cases h
    exact ⟨_, .otherKind hworking hvariant hlevel hkind⟩

/-- The graph of a level of a store is made just if a variant is set and there, the level is there
and of the topology's kind, and its switches are admitted. Otherwise it is refused, on the first
ground that there is, and never as an internal fault. -/
theorem graph_is_refused_on_first_ground (store : Store) (topology : Topology) (context : Context)
    (level : String) :
    let result := ((topology.graph context level).outcome Store.index store).1
    ((∃ graph, result = .ok graph) ↔
      ∃ number variant found, context.working = some number ∧
        store.variant? number = some variant ∧ variant.network.level? level = some found ∧
        found.attributes.kind = topology.kind ∧
        topology.Admits (variant.network.switchesAt level)) ∧
    (∀ kind fault, result = .error fault ∧ fault.kind = kind ↔
      topology.Refuses store context level kind fault) ∧
    ∀ fault, result = .error fault → fault.kind ≠ .internal := by
  intro result
  refine ⟨⟨?_, ?_⟩, fun kind fault => ⟨?_, fun h => ⟨?_, h.kind_eq⟩⟩, fun fault hfault => ?_⟩
  · rintro ⟨graph, hgraph⟩
    obtain ⟨number, record, hnumber, hrecord, hgraphOf⟩ := Store.exists_record_of_graph hgraph
    obtain ⟨variant, hvariant, hheld⟩ := Option.bind_eq_some_iff.mp hrecord
    obtain ⟨found, hlevel, rfl⟩ := Network.record?_eq_some_iff.mp hheld
    obtain ⟨hkind, hadmits, _⟩ := graphOf_eq_ok_iff.mp hgraphOf
    exact ⟨number, variant, found, Context.number_eq_ok_iff.mp hnumber, hvariant, hlevel, hkind,
      hadmits⟩
  · rintro ⟨number, variant, found, hworking, hvariant, hlevel, hkind, hadmits⟩
    refine ⟨topology.draw level (variant.network.listings level), ?_⟩
    rw [show result = _ from congrArg Prod.fst (outcome_graph_of_found hworking hvariant hlevel)]
    exact graphOf_eq_ok_iff.mpr ⟨hkind, hadmits, rfl⟩
  · rintro ⟨hfault, rfl⟩
    obtain ⟨kind, hrefuses⟩ := exists_refuses hfault
    exact hrefuses.kind_eq ▸ hrefuses
  · exact congrArg Prod.fst h.outcome
  · obtain ⟨kind, hrefuses⟩ := exists_refuses hfault
    rw [hrefuses.kind_eq]
    cases hrefuses <;> decide

/-- A level with two switches of one id, the second of which is open, and between them a switch
that is not connected at one end. -/
def faultySwitches : Store :=
  Store.new.run [.addLevel 0 ⟨"A", .voltageLevel, { kind := .nodeBreaker }⟩,
    .addSwitch 0 ⟨"S", .switch,
      { level := "A", one := { node := some 1 }, two := { node := some 2 } }⟩,
    .addSwitch 0 ⟨"D", .switch, { level := "A", one := { node := some 2 } }⟩,
    .addSwitch 0 ⟨"S", .switch, { level := "A", isOpen := true }⟩]

/-- The switch that dangles comes first; where it may dangle, the second switch of the id is
refused, and so is a level of the other kind before either. -/
theorem graph_is_refused_on_first_ground_faulty :
    let strict := (make .nodeBreaker .busView false {}).1
    let lenient := (make .nodeBreaker .busView true {}).1
    let other := (make .busBreaker .busView true {}).1
    strict.Refuses faultySwitches {} "A" .invalidGraph (.danglingSwitch "D") ∧
      lenient.Refuses faultySwitches {} "A" .invalidGraph (.duplicateSwitch "S") ∧
      other.Refuses faultySwitches {} "A" .invalidArgument
        (.topologyKindMismatch "A" .nodeBreaker .busBreaker) ∧
      (Fault.duplicateSwitch "S").kind ≠ .internal := by
  intro strict lenient other
  obtain ⟨_, hstrict, _⟩ := graph_is_refused_on_first_ground faultySwitches strict {} "A"
  obtain ⟨_, hlenient, hkind⟩ := graph_is_refused_on_first_ground faultySwitches lenient {} "A"
  obtain ⟨_, hother, _⟩ := graph_is_refused_on_first_ground faultySwitches other {} "A"
  have hdangling : ((strict.graph {} "A").outcome Store.index faultySwitches).1 =
      .error (.danglingSwitch "D") := by rfl
  have hduplicate : ((lenient.graph {} "A").outcome Store.index faultySwitches).1 =
      .error (.duplicateSwitch "S") := by rfl
  have hmismatch : ((other.graph {} "A").outcome Store.index faultySwitches).1 =
      .error (.topologyKindMismatch "A" .nodeBreaker .busBreaker) := by rfl
  exact ⟨(hstrict _ _).mp ⟨hdangling, rfl⟩, (hlenient _ _).mp ⟨hduplicate, rfl⟩,
    (hother _ _).mp ⟨hmismatch, rfl⟩, hkind _ hduplicate⟩

end Topology

end Switchyard
