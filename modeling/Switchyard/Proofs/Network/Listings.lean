import Switchyard.Ascending.Lemmas
import Switchyard.Network.Change

/-!
What a network holds of a voltage level, and which levels a change leaves alone.

The contents of a level are its kind and everything that is listed for it; nothing else enters into
its graph. Entering, updating or removing resources leaves every level but those that they name as
it was, whether or not these exist (`SameBut`). The levels that are named are touched: each of them
that exists gets a new generation and loses its valid flag (`record?_touch`).
-/

namespace Switchyard

/-- Everything that is listed for a voltage level. -/
@[ext]
structure Listings where
  injections : ResourceType → List (Resource Terminal)
  branches : ResourceType → List (Resource Branch)
  transformers : List (Resource Transformer)
  switches : List (Resource Switch)

/-- What the graph of a voltage level is made of. -/
structure Contents where
  kind : TopologyKind
  listings : Listings

/-- The contents of a voltage level, with the generation that stands for them. -/
structure Edition where
  contents : Contents
  generation : Nat

/-- A voltage level as a network holds it. -/
structure LevelRecord extends Edition where
  valid : Bool

namespace Network

variable {network before changed : Network} {level : String} {ids : List String} {generation : Nat}

/-- What is listed for a level, which need not exist. -/
def listings (network : Network) (level : String) : Listings where
  injections := network.injectionsAt level
  branches := network.branchesAt level
  transformers := network.transformersAt level
  switches := network.switchesAt level

/-- What the network holds of a level. -/
def record? (network : Network) (level : String) : Option LevelRecord :=
  (network.level? level).map fun found =>
    ⟨⟨⟨found.attributes.kind, network.listings level⟩, found.attributes.generation⟩,
      found.attributes.valid⟩

theorem record?_eq_some_iff {record : LevelRecord} :
    network.record? level = some record ↔
      ∃ found, network.level? level = some found ∧
        record = ⟨⟨⟨found.attributes.kind, network.listings level⟩, found.attributes.generation⟩,
          found.attributes.valid⟩ := by
  rw [record?, Option.map_eq_some_iff]
  exact exists_congr fun found => and_congr Iff.rfl eq_comm

/-- Networks that have the same level and list the same for it hold the same of it. -/
theorem record?_congr (hlevel : changed.level? level = before.level? level)
    (hlistings : changed.listings level = before.listings level) :
    changed.record? level = before.record? level := by
  rw [record?, record?, hlevel, hlistings]

theorem level?_updateLevels (p : String → Bool) (f : VoltageLevel → VoltageLevel) :
    (network.updateLevels p f).level? level =
      (network.level? level).map fun found =>
        if p level then { found with attributes := f found.attributes } else found := by
  unfold level? updateLevels
  rw [Ascending.get?_map]
  cases h : network.levels.get? level with
  | none => rfl
  | some found =>
    obtain ⟨_, rfl⟩ := Ascending.get?_eq_some_iff.mp h
    rfl

theorem listings_updateLevels (p : String → Bool) (f : VoltageLevel → VoltageLevel) :
    (network.updateLevels p f).listings level = network.listings level := rfl

/-- The networks have the same levels and list the same for them, those in `ids` apart. -/
def SameBut (ids : List String) (before after : Network) : Prop :=
  ∀ level, level ∉ ids →
    after.level? level = before.level? level ∧ after.listings level = before.listings level

theorem SameBut.record? (h : SameBut ids before changed) (hlevel : level ∉ ids) :
    changed.record? level = before.record? level :=
  record?_congr (h level hlevel).1 (h level hlevel).2

/-- Touching the levels that are apart leaves the others alone. -/
theorem SameBut.touch (h : SameBut ids before changed) (generation : Nat) :
    SameBut ids before (changed.touch ids generation) := by
  intro level hlevel
  have untouched : ids.contains level = false := by simpa using hlevel
  refine ⟨?_, (h level hlevel).2⟩
  rw [Network.touch, level?_updateLevels, untouched, ← (h level hlevel).1]
  simp

/-- A level that is touched is dated anew, and its flag is taken back. -/
theorem record?_touch {record : LevelRecord} (hlevel : level ∈ ids)
    (h : (network.touch ids generation).record? level = some record) :
    record.generation = generation ∧ record.valid = false := by
  obtain ⟨found, hfound, rfl⟩ := record?_eq_some_iff.mp h
  have touched : ids.contains level = true := List.contains_iff_mem.mpr hlevel
  rw [touch, level?_updateLevels, touched] at hfound
  obtain ⟨old, _, rfl⟩ := Option.map_eq_some_iff.mp hfound
  exact ⟨rfl, rfl⟩

/-- Touching every level dates every level anew. -/
theorem record?_touchAll {record : LevelRecord}
    (h : (network.touchAll generation).record? level = some record) :
    record.generation = generation ∧ record.valid = false := by
  obtain ⟨found, hfound, rfl⟩ := record?_eq_some_iff.mp h
  rw [touchAll, level?_updateLevels] at hfound
  obtain ⟨old, _, rfl⟩ := Option.map_eq_some_iff.mp hfound
  exact ⟨rfl, rfl⟩

/-! ### Entering a resource -/

theorem sameBut_level (entered : Resource VoltageLevel) :
    SameBut [entered.id] network { network with levels := network.levels.insert entered } := by
  refine fun level hlevel => ⟨?_, rfl⟩
  have other : entered.id ≠ level := fun h => hlevel (by simp [h])
  rw [level?, Ascending.get?_insert, if_neg other, level?]

/-- One more resource at the end is not listed where the test fails. -/
theorem filter_concat_of_not {α : Type} {p : α → Bool} (xs : List α) {x : α} (h : ¬ p x) :
    (xs ++ [x]).filter p = xs.filter p := by
  simp [List.filter_append, h]

theorem sameBut_injection (entered : Resource Terminal) :
    SameBut [entered.attributes.level] network
      { network with injections := network.injections ++ [entered] } := by
  refine fun level hlevel => ⟨rfl, ?_⟩
  have other : entered.attributes.level ≠ level := fun h => hlevel (by simp [h])
  refine Listings.ext (funext fun type => ?_) rfl rfl rfl
  exact filter_concat_of_not _ (by simp [other])

theorem sameBut_branch (entered : Resource Branch) :
    SameBut entered.attributes.levels network
      { network with branches := network.branches ++ [entered] } := by
  refine fun level hlevel => ⟨rfl, ?_⟩
  refine Listings.ext rfl (funext fun type => ?_) rfl rfl
  exact filter_concat_of_not _ (by simp [hlevel])

theorem sameBut_transformer (entered : Resource Transformer) :
    SameBut entered.attributes.levels network
      { network with transformers := network.transformers ++ [entered] } := by
  refine fun level hlevel => ⟨rfl, ?_⟩
  refine Listings.ext rfl rfl ?_ rfl
  exact filter_concat_of_not _ (by simp [hlevel])

theorem sameBut_switch (entered : Resource Switch) :
    SameBut [entered.attributes.level] network
      { network with switches := network.switches ++ [entered] } := by
  refine fun level hlevel => ⟨rfl, ?_⟩
  have other : entered.attributes.level ≠ level := fun h => hlevel (by simp [h])
  refine Listings.ext rfl rfl rfl ?_
  exact filter_concat_of_not _ (by simp [other])

/-! ### Updating a switch -/

/-- Where a test fails on the first match and on its image, it selects the same as before. -/
theorem filter_modifyFirst {α : Type} {p q : α → Bool} {f : α → α} {x : α} :
    ∀ {xs : List α}, xs.find? q = some x → ¬ p x → ¬ p (f x) →
      (modifyFirst q f xs).filter p = xs.filter p
  | [], hfind, _, _ => by simp at hfind
  | y :: ys, hfind, hx, hfx => by
    unfold modifyFirst
    by_cases hy : q y = true
    · rw [List.find?_cons_of_pos hy] at hfind
      cases hfind
      rw [if_pos hy, List.filter_cons_of_neg hfx, List.filter_cons_of_neg hx]
    · rw [List.find?_cons_of_neg hy] at hfind
      rw [if_neg hy, List.filter_cons, List.filter_cons, filter_modifyFirst hfind hx hfx]

/-- A switch that is updated is the first with its id, and its level is touched. -/
theorem exists_touch_of_updateSwitch {id : String} {f : Switch → Switch} {after : Network}
    (keeps : ∀ switch, (f switch).level = switch.level)
    (h : network.updateSwitch id f generation = .ok after) :
    ∃ switch changed, network.switches.find? (·.id = id) = some switch ∧
      SameBut [switch.attributes.level] network changed ∧
      after = changed.touch [switch.attributes.level] generation := by
  unfold updateSwitch at h
  split at h
  case h_1 => cases h
  case h_2 switch hfind =>
    cases h
    rw [keeps]
    refine ⟨switch, _, hfind, ?_, rfl⟩
    refine fun level hlevel => ⟨rfl, ?_⟩
    have other : switch.attributes.level ≠ level := fun e => hlevel (by simp [e])
    refine Listings.ext rfl rfl rfl ?_
    exact filter_modifyFirst hfind (by simp [other]) (by simp [keeps, other])

/-! ### Removing equipment -/

/-- Removing resources that a test does not select leaves its selection alone. -/
theorem filter_filter_of_imp {α : Type} {p q : α → Bool} (xs : List α)
    (h : ∀ x ∈ xs, p x = true → q x = true) : (xs.filter q).filter p = xs.filter p := by
  rw [List.filter_filter]
  refine List.filter_congr fun x hx => ?_
  cases hp : p x with
  | false => rfl
  | true => rw [h x hx hp]; rfl

/-- The levels of an id are those that some equipment or switch with the id names. -/
theorem mem_levelsOf {id level : String} : level ∈ network.levelsOf id ↔
    (∃ r ∈ network.injections, r.id = id ∧ r.attributes.level = level) ∨
    (∃ r ∈ network.branches, r.id = id ∧ level ∈ r.attributes.levels) ∨
    (∃ r ∈ network.transformers, r.id = id ∧ level ∈ r.attributes.levels) ∨
    ∃ r ∈ network.switches, r.id = id ∧ r.attributes.level = level := by
  simp only [levelsOf, List.mem_append, List.mem_map, List.mem_flatMap, List.mem_filter,
    decide_eq_true_eq, or_assoc, and_assoc]

/-- The network without any equipment or switch that has the id. -/
def withoutEquipment (id : String) (network : Network) : Network :=
  { network with
    injections := network.injections.filter (·.id ≠ id)
    branches := network.branches.filter (·.id ≠ id)
    transformers := network.transformers.filter (·.id ≠ id)
    switches := network.switches.filter (·.id ≠ id) }

theorem removeEquipment_eq (id : String) (generation : Nat) (network : Network) :
    network.removeEquipment id generation =
      if network.levelsOf id = [] then .error (.equipmentUnknown id)
      else .ok ((network.withoutEquipment id).touch (network.levelsOf id) generation) := by
  unfold removeEquipment
  cases network.levelsOf id <;> rfl

theorem sameBut_withoutEquipment (id : String) (network : Network) :
    SameBut (network.levelsOf id) network (network.withoutEquipment id) := by
  refine fun level hlevel => ⟨rfl, ?_⟩
  simp only [mem_levelsOf, not_or, not_exists, not_and] at hlevel
  obtain ⟨hinjections, hbranches, htransformers, hswitches⟩ := hlevel
  refine Listings.ext (funext fun type => ?_) (funext fun type => ?_) ?_ ?_
  · refine filter_filter_of_imp _ fun r hr hp => ?_
    have := hinjections r hr
    grind
  · refine filter_filter_of_imp _ fun r hr hp => ?_
    have := hbranches r hr
    grind
  · refine filter_filter_of_imp _ fun r hr hp => ?_
    have := htransformers r hr
    grind
  · refine filter_filter_of_imp _ fun r hr hp => ?_
    have := hswitches r hr
    grind

/-- What is removed is touched at every level that it names. -/
theorem eq_touch_of_removeEquipment {id : String} {after : Network}
    (h : network.removeEquipment id generation = .ok after) :
    after = (network.withoutEquipment id).touch (network.levelsOf id) generation := by
  rw [removeEquipment_eq] at h
  split at h <;> cases h
  rfl

/-! ### Setting the valid flag -/

theorem sameBut_setValid {valid : Bool} {target : String} {after : Network}
    (h : network.setValid target valid = .ok after) : SameBut [target] network after := by
  unfold setValid at h
  split at h <;> cases h
  refine fun level hlevel => ⟨?_, rfl⟩
  have other : level ≠ target := fun e => hlevel (by simp [e])
  rw [level?_updateLevels]
  simp [other]

/-- Setting the valid flag of a level alters the flag and nothing else. -/
theorem record?_setValid {valid : Bool} {target : String} {after : Network}
    (h : network.setValid target valid = .ok after) :
    after.record? level =
      if level = target then (network.record? level).map ({ · with valid })
      else network.record? level := by
  unfold setValid at h
  split at h
  case h_1 => cases h
  case h_2 =>
    cases h
    rw [record?, level?_updateLevels, listings_updateLevels, record?]
    by_cases htarget : level = target
    · simp only [htarget, decide_true, if_true, Option.map_map]
      rfl
    · simp [htarget]

end Network

end Switchyard
