import Switchyard.Proofs.Store.Alike

/-!
What an operation leaves alone.

An alteration names some levels of the network that it is made in, and whatever can be read of any
other level is as before. Operations on whole variants read and write no level that was there
before: a clone is made where there was no variant, and a deletion leaves none. What fails, for
whatever reason, has drawn a generation at most, which nobody can read. What is removed under an id
is all the equipment and all the switches that have it.
-/

namespace Switchyard

/-! ### Equipment under one id -/

namespace Network

variable {network : Network} {id : String}

/-- Whether an injection, a branch, a three-winding transformer or a switch has the id. -/
def HasEquipment (network : Network) (id : String) : Prop :=
  (∃ r ∈ network.injections, r.id = id) ∨ (∃ r ∈ network.branches, r.id = id) ∨
    (∃ r ∈ network.transformers, r.id = id) ∨ ∃ r ∈ network.switches, r.id = id

/-- What is removed from nowhere is not there: whatever has the id names a level. -/
theorem levelsOf_eq_nil_iff : network.levelsOf id = [] ↔ ¬ network.HasEquipment id := by
  simp [levelsOf, HasEquipment, Branch.levels, Transformer.levels, List.filter_eq_nil_iff]

/-- The second network is the first without the equipment and the switches that have the id.
Everything else is there in its order, levels included. -/
structure Bereft (id : String) (before after : Network) : Prop where
  levels : after.levels.toList.map (fun r => (r.id, r.type, r.attributes.kind)) =
    before.levels.toList.map fun r => (r.id, r.type, r.attributes.kind)
  injections : after.injections = before.injections.filter (·.id ≠ id)
  branches : after.branches = before.branches.filter (·.id ≠ id)
  transformers : after.transformers = before.transformers.filter (·.id ≠ id)
  switches : after.switches = before.switches.filter (·.id ≠ id)

theorem bereft_touch (id : String) (network : Network) (ids : List String) (generation : Nat) :
    Bereft id network ((network.withoutEquipment id).touch ids generation) := by
  refine ⟨?_, rfl, rfl, rfl, rfl⟩
  simp only [touch, updateLevels, withoutEquipment, Ascending.map, List.map_map]
  refine List.map_congr_left fun r _ => ?_
  dsimp only [Function.comp_apply]
  split <;> rfl

end Network

/-! ### What can be read of a store -/

namespace Store

variable {store first second : Store} {operation : Operation} {alteration : Alteration}
  {number : UInt32} {level : String}

/-- Whatever can be read of a level of a variant is the same in both stores. -/
structure ReadsAlike (number : UInt32) (level : String) (first second : Store) : Prop where
  found : second.level number level = first.level number level
  injections : ∀ type, second.injections number level type = first.injections number level type
  branches : ∀ type, second.branches number level type = first.branches number level type
  transformers : second.transformers number level = first.transformers number level
  switches : second.switches number level = first.switches number level

/-- A level is read in the network of its variant. -/
theorem readsAlike_of_variant? (h : second.variant? number = first.variant? number)
    (level : String) : ReadsAlike number level first second := by
  have hnetwork : second.network number = first.network number := by
    rw [network, h, network]
  refine ⟨?_, fun type => ?_, fun type => ?_, ?_, ?_⟩
  · rw [Store.level, hnetwork, Store.level]
  · rw [Store.injections, hnetwork, Store.injections]
  · rw [Store.branches, hnetwork, Store.branches]
  · rw [Store.transformers, hnetwork, Store.transformers]
  · rw [Store.switches, hnetwork, Store.switches]

/-- A level that stays as it is in the network of its variant is read as before. -/
theorem readsAlike_of_sameBut {ids : List String} {before after : Network}
    (hfirst : first.network number = .ok before) (hsecond : second.network number = .ok after)
    (h : Network.SameBut ids before after) (hlevel : level ∉ ids) :
    ReadsAlike number level first second := by
  obtain ⟨hsame, hlistings⟩ := h level hlevel
  have hinjections := congrArg Listings.injections hlistings
  have hbranches := congrArg Listings.branches hlistings
  have htransformers := congrArg Listings.transformers hlistings
  have hswitches := congrArg Listings.switches hlistings
  refine ⟨?_, fun type => ?_, fun type => ?_, ?_, ?_⟩
  · rw [Store.level, Store.level, hfirst, hsecond]
    dsimp only [bind, Except.bind]
    rw [hsame]
  · rw [Store.injections, Store.injections, hfirst, hsecond]
    exact congrArg (fun listed => (do
      unless type.isInjection do throw (Fault.notInjection type)
      return listed type : Except Fault _)) hinjections
  · rw [Store.branches, Store.branches, hfirst, hsecond]
    exact congrArg (fun listed => (do
      unless type.isBranch do throw (Fault.notBranch type)
      return listed type : Except Fault _)) hbranches
  · rw [Store.transformers, Store.transformers, hfirst, hsecond]
    exact congrArg Except.ok htransformers
  · rw [Store.switches, Store.switches, hfirst, hsecond]
    exact congrArg Except.ok hswitches

/-! ### Any operation -/

/-- What fails leaves all variants as they were. -/
theorem variants_after_of_error {fault : Fault} (h : (store.apply operation).1 = .error fault) :
    (store.after operation).variants = store.variants := by
  cases operation using Operation.cases_kind with
  | clone source target name =>
    obtain ⟨_, hrefused, _⟩ | ⟨_, _, _, _, hgranted⟩ := apply_clone_cases store source target name
    · rw [after, hrefused]
    · rw [hgranted] at h
      cases h
  | delete target =>
    obtain ⟨_, hrefused⟩ | ⟨_, _, hdeleted⟩ := apply_delete_cases store target
    · rw [after, hrefused]
    · rw [hdeleted] at h
      cases h
  | alter alteration target =>
    obtain ⟨_, _, hfailed, hsame, _⟩ | ⟨_, _, _, _, _, _, hmade⟩ :=
      apply_on_cases store target alteration
    · rw [after, hfailed, hsame]
    · rw [hmade] at h
      cases h

/-- What fails cannot be told from what never happened. -/
theorem readsAlike_of_error {fault : Fault} (h : (store.apply operation).1 = .error fault)
    (number : UInt32) (level : String) :
    ReadsAlike number level store (store.after operation) := by
  refine readsAlike_of_variant? ?_ level
  rw [variant?, variant?, variants_after_of_error h]

/-- Where an alteration is made, the levels that it does not name are read as before. -/
theorem readsAlike_of_not_named (h : (store.apply (alteration.on number)).1 = .ok ())
    {network : Network} (hnetwork : store.network number = .ok network)
    (hlevel : level ∉ alteration.names network) :
    ReadsAlike number level store (store.after (alteration.on number)) := by
  obtain ⟨_, _, hfailed, _⟩ | ⟨change, variant, changed, hchange, hvariant, hok, hgranted⟩ :=
    apply_on_cases store number alteration
  · rw [hfailed] at h
    cases h
  · have hbefore : store.network number = .ok variant.network := by rw [Store.network, hvariant]
    have hafter : (store.after (alteration.on number)).network number = .ok changed := by
      rw [Store.network, after, hgranted, variant?_enter, if_pos (number_of_variant? hvariant)]
    cases hbefore.symm.trans hnetwork
    exact readsAlike_of_sameBut hbefore hafter (Alteration.sameBut_of_change hchange hok) hlevel

/-- Stores that have the same names at the same numbers list the same variants. -/
theorem infos_eq_of_nameAt (h : ∀ number, second.nameAt number = first.nameAt number) :
    second.infos = first.infos := by
  have ascending : ∀ store : Store, store.infos.Pairwise (·.number < ·.number) :=
    fun store => List.pairwise_map.mpr store.variants.ascending
  have hsame : (⟨second.infos, ascending second⟩ : Ascending VariantInfo.number) =
      ⟨first.infos, ascending first⟩ := by
    refine Ascending.ext_mem fun info => ?_
    change info ∈ second.infos ↔ info ∈ first.infos
    rw [mem_infos_iff, mem_infos_iff, h]
  exact congrArg Ascending.toList hsame

/-- No alteration touches the names of variants. -/
theorem infos_after_on (store : Store) (number : UInt32) (alteration : Alteration) :
    (store.after (alteration.on number)).infos = store.infos := by
  exact infos_eq_of_nameAt fun other => nameAt_after_on store number alteration other

/-- What is removed under an id is everything that has it, and there has to be something. -/
theorem apply_removeEquipment {network : Network} (hnetwork : store.network number = .ok network)
    (id : String) :
    ((store.apply (.removeEquipment number id)).1 = .ok () ↔ network.HasEquipment id) ∧
      (network.HasEquipment id → ∃ remaining,
        (store.after (.removeEquipment number id)).network number = .ok remaining ∧
          network.Bereft id remaining) := by
  obtain ⟨variant, hvariant, rfl⟩ := exists_variant_of_network hnetwork
  have happly := write_of_variant? hvariant (fun g n => n.removeEquipment id g)
  rw [Network.removeEquipment_eq] at happly
  change store.apply (.removeEquipment number id) = _ at happly
  by_cases hnone : variant.network.levelsOf id = []
  · have hhas := Network.levelsOf_eq_nil_iff.mp hnone
    rw [if_pos hnone] at happly
    refine ⟨iff_of_false (fun hok => ?_) hhas, fun h => absurd h hhas⟩
    rw [happly] at hok
    cases hok
  · have hhas := not_not.mp (mt Network.levelsOf_eq_nil_iff.mpr hnone)
    rw [if_neg hnone] at happly
    refine ⟨iff_of_true (by rw [happly]) hhas, fun _ => ?_⟩
    refine ⟨_, ?_, Network.bereft_touch id variant.network (variant.network.levelsOf id)
      (store.lastGeneration + 1)⟩
    rw [network, after, happly, variant?_enter, if_pos (number_of_variant? hvariant)]

/-- Operations touch what they name and nothing else, and fail without effect. What fails leaves all
that can be read as it was. What succeeds leaves all variants but its target as they were; and its
target is a variant that was not there, is gone, or can be read as before but for the levels that
are named. Equipment can be removed if and only if there is some. -/
theorem operations_touch_what_they_name (store : Store) (operation : Operation) :
    (∀ fault, (store.apply operation).1 = .error fault →
      (store.after operation).infos = store.infos ∧
        ∀ number level, ReadsAlike number level store (store.after operation)) ∧
    ((store.apply operation).1 = .ok () →
      (∀ number, number ≠ operation.target →
        (store.after operation).variant? number = store.variant? number ∧
          ∀ level, ReadsAlike number level store (store.after operation)) ∧
      (∀ source target name, operation = .clone source target name →
        store.nameAt target = none) ∧
      (∀ number, operation = .delete number → (store.after operation).nameAt number = none) ∧
      ∀ (alteration : Alteration) number, operation = alteration.on number →
        ∃ network, store.network number = .ok network ∧
          (store.after operation).infos = store.infos ∧
          ∀ level, level ∉ alteration.names network →
            ReadsAlike number level store (store.after operation)) ∧
    ∀ number id network, operation = .removeEquipment number id →
      store.network number = .ok network →
        ((store.apply operation).1 = .ok () ↔ network.HasEquipment id) ∧
        (network.HasEquipment id → ∃ remaining,
          (store.after operation).network number = .ok remaining ∧
            network.Bereft id remaining) := by
  refine ⟨fun fault hfailed => ⟨?_, readsAlike_of_error hfailed⟩,
    fun hok => ⟨?_, ?_, ?_, ?_⟩, ?_⟩
  · rw [infos, variants_after_of_error hfailed, infos]
  · intro number hother
    have hsame : (store.after operation).variant? number = store.variant? number :=
      variant?_after_of_ne hother.symm
    exact ⟨hsame, readsAlike_of_variant? hsame⟩
  · rintro source target name rfl
    obtain ⟨_, hrefused, _⟩ | ⟨_, _, hfree, _⟩ := apply_clone_cases store source target name
    · rw [hrefused] at hok
      cases hok
    · exact hfree
  · rintro number rfl
    rw [after_delete_eq_without, nameAt_without, if_pos rfl]
  · rintro alteration number rfl
    obtain ⟨_, _, hfailed, _⟩ | ⟨_, variant, _, _, hvariant, _⟩ :=
      apply_on_cases store number alteration
    · rw [hfailed] at hok
      cases hok
    · have hnetwork : store.network number = .ok variant.network := by rw [network, hvariant]
      exact ⟨variant.network, hnetwork, infos_after_on store number alteration,
        fun level => readsAlike_of_not_named hok hnetwork⟩
  · rintro number id network rfl hnetwork
    exact apply_removeEquipment hnetwork id

/-- Three levels, and one id for a load and for a line between two of them. -/
def sharedId : List Operation :=
  [.addLevel 0 ⟨"A", .voltageLevel, { kind := .nodeBreaker }⟩,
    .addLevel 0 ⟨"B", .voltageLevel, { kind := .nodeBreaker }⟩,
    .addLevel 0 ⟨"C", .voltageLevel, { kind := .nodeBreaker }⟩,
    .addInjection 0 ⟨"X", .load, { level := "A", node := some 1 }⟩,
    .addInjection 0 ⟨"Y", .load, { level := "A", node := some 2 }⟩,
    .addBranch 0 ⟨"X", .line, { one := { level := "B" }, two := { level := "A" } }⟩,
    .addSwitch 0 ⟨"Y", .switch, { level := "C" }⟩, .setValid 0 "C" true]

/-- Both pieces are removed and the third level stays valid, and an id that nothing has cannot be
removed. -/
theorem operations_touch_what_they_name_shared_id :
    let store := new.run sharedId
    let after := store.after (.removeEquipment 0 "X")
    ((store.apply (.removeEquipment 0 "X")).1 = .ok () ∧
      (∃ before remaining, store.network 0 = .ok before ∧ after.network 0 = .ok remaining ∧
        before.Bereft "X" remaining) ∧
      (after.injections 0 "A" .load).toOption.map (·.map (·.id)) = some ["Y"] ∧
      ReadsAlike 0 "C" store after ∧
      (after.level 0 "C").toOption.map (·.attributes) = some ⟨.nodeBreaker, true, 7⟩ ∧
      (after.level 0 "B").toOption.map (·.attributes) = some ⟨.nodeBreaker, false, 9⟩) ∧
    (∃ fault, (store.apply (.removeEquipment 0 "Z")).1 = .error fault) ∧
    ReadsAlike 0 "A" store (store.after (.removeEquipment 0 "Z")) := by
  intro store after
  obtain ⟨_, hmade, hremoves⟩ := operations_touch_what_they_name store (.removeEquipment 0 "X")
  obtain ⟨hfailed, _⟩ := operations_touch_what_they_name store (.removeEquipment 0 "Z")
  obtain ⟨_, _, _, hothers⟩ := hmade rfl
  obtain ⟨before, hbefore, _, hothers⟩ := hothers (.removeEquipment "X") 0 rfl
  refine ⟨⟨rfl, ?_, rfl, ?_, rfl, rfl⟩, ⟨_, rfl⟩, (hfailed _ rfl).2 0 "A"⟩
  · obtain ⟨hfails, hbereft⟩ := hremoves 0 "X" before rfl hbefore
    obtain ⟨remaining, hremaining, hbereft⟩ := hbereft (hfails.mp rfl)
    exact ⟨before, remaining, hbefore, hremaining, hbereft⟩
  · have hlevels : (store.network 0).toOption.map (·.levelsOf "X") = some ["A", "B", "A"] := rfl
    rw [hbefore] at hlevels
    refine hothers "C" ?_
    change "C" ∉ before.levelsOf "X"
    rw [show before.levelsOf "X" = ["A", "B", "A"] from Option.some.inj hlevels]
    decide

end Store

end Switchyard
