import Switchyard.Proofs.Store.Following

/-!
What a clone holds when it is made.

A clone that is granted holds the levels of its source with the same contents. Their flags are taken
back, and their generation is later than any that was drawn before. So the clone has the graphs and
the buses of its source, and gives the same fault where there are none.
-/

namespace Switchyard

/-- Touching all levels leaves their contents alone. -/
theorem Network.record?_touchAll_eq (network : Network) (generation : Nat) (level : String) :
    (network.touchAll generation).record? level =
      (network.record? level).map fun record =>
        { record with generation, valid := false } := by
  rw [record?, record?, touchAll, level?_updateLevels, Option.map_map, Option.map_map]
  rfl

namespace Store

variable {store : Store} {source target number : UInt32} {name level : String}
  {record : LevelRecord} {topology : Topology} {context : Context}

theorem after_of_cloned (hcloned : (store.apply (.clone source target name)).1 = .ok ()) :
    ∃ copied, store.variant? source = some copied ∧
      store.after (.clone source target name) =
        store.enter ⟨target, name, copied.network.touchAll (store.lastGeneration + 1)⟩ := by
  obtain ⟨_, hrefused, _⟩ | ⟨copied, hcopied, _, _, hgranted⟩ :=
    apply_clone_cases store source target name
  · rw [hrefused] at hcloned
    cases hcloned
  · exact ⟨copied, hcopied, congrArg Prod.snd hgranted⟩

/-- A clone that is granted holds what its source holds, but for flags and generations. -/
theorem record?_of_clone (hcloned : (store.apply (.clone source target name)).1 = .ok ())
    (level : String) :
    (store.after (.clone source target name)).record? target level =
      (store.record? source level).map fun record =>
        { record with generation := store.lastGeneration + 1, valid := false } := by
  obtain ⟨copied, hcopied, hafter⟩ := after_of_cloned hcloned
  rw [hafter, record?, record?, variant?_enter, if_pos rfl, hcopied]
  exact Network.record?_touchAll_eq _ _ _

/-- A level that is not held cannot be read. -/
theorem level_of_record?_none {variant : Variant} (hvariant : store.variant? number = some variant)
    (h : store.record? number level = none) :
    store.level number level = .error (.voltageLevelUnknown level) := by
  rw [record?, hvariant] at h
  have hnone : variant.network.level? level = none := Option.map_eq_none_iff.mp h
  have hnetwork : store.network number = .ok variant.network := by rw [network, hvariant]
  rw [Store.level, hnetwork]
  dsimp only [bind, Except.bind]
  rw [hnone]
  rfl

/-- There are no buses of a level that cannot be read. -/
theorem outcome_buses_of_error {fault : Fault} (hcontext : context.number = .ok number)
    (h : store.level number level = .error fault) :
    (topology.buses context level).outcome index store = (.error fault, store) := by
  rw [Topology.buses, Attempt.outcome_bind, outcome_graph_of_error hcontext h]

/-- A clone that is granted has the graphs and the buses of its source, and its faults. -/
theorem outcome_of_clone (hcloned : (store.apply (.clone source target name)).1 = .ok ())
    (topology : Topology) (level : String) :
    let after := store.after (.clone source target name)
    ((topology.graph (.workingOn target) level).outcome index after).1 =
        ((topology.graph (.workingOn source) level).outcome index store).1 ∧
      ((topology.buses (.workingOn target) level).outcome index after).1 =
        ((topology.buses (.workingOn source) level).outcome index store).1 := by
  intro after
  have hrecord := record?_of_clone hcloned level
  cases hsource : store.record? source level with
  | some record =>
    rw [hsource] at hrecord
    rw [outcome_graph hrecord rfl, outcome_graph hsource rfl, outcome_buses hrecord rfl,
      outcome_buses hsource rfl]
    exact ⟨rfl, rfl⟩
  | none =>
    rw [hsource] at hrecord
    obtain ⟨copied, hcopied, hafter⟩ := after_of_cloned hcloned
    have hentered : after.variant? target =
        some ⟨target, name, copied.network.touchAll (store.lastGeneration + 1)⟩ := by
      rw [show after = _ from hafter, variant?_enter, if_pos rfl]
    have hlevel := level_of_record?_none hcopied hsource
    have hlevel' := level_of_record?_none hentered hrecord
    rw [outcome_graph_of_error rfl hlevel, outcome_graph_of_error rfl hlevel',
      outcome_buses_of_error rfl hlevel, outcome_buses_of_error rfl hlevel']
    exact ⟨rfl, rfl⟩

end Store

end Switchyard
