import Switchyard.Proofs.Store.Generations
import Switchyard.Proofs.Variant.Catalogue

/-!
Networks that are the same but for the generations of their levels.

No change of a network looks at a generation. So a change that is made at another generation, to a
network whose generations were replaced one for one, comes to the same with its generations replaced
(`change_redate`). Replacing all of them by one number leaves what a network holds apart from
generations (`undated`); replacing the old ones by one and the new ones by another number tells
which levels a change has dated (`redate_eq_of_change`).
-/

namespace Switchyard

/-- The level with another generation in place of its own. -/
def VoltageLevel.redate (rename : Nat → Nat) (level : VoltageLevel) : VoltageLevel :=
  { level with generation := rename level.generation }

namespace Network

variable {network first second : Network} {rename other : Nat → Nat} {generation : Nat}

/-- The network with other generations in place of those of its levels. -/
def redate (rename : Nat → Nat) (network : Network) : Network :=
  network.updateLevels (fun _ => true) (·.redate rename)

/-- What a network holds apart from generations. -/
def undated (network : Network) : Network := network.redate fun _ => 0

/-- Generations do not enter into what is listed. -/
theorem listings_eq_of_undated_eq (h : first.undated = second.undated) (level : String) :
    first.listings level = second.listings level := by
  have hlistings := congrArg (·.listings level) h
  exact hlistings

theorem level?_redate (rename : Nat → Nat) (network : Network) (level : String) :
    (network.redate rename).level? level =
      (network.level? level).map fun found =>
        { found with attributes := found.attributes.redate rename } :=
  level?_updateLevels _ _

theorem record?_redate (rename : Nat → Nat) (network : Network) (level : String) :
    (network.redate rename).record? level =
      (network.record? level).map fun record =>
        { record with generation := rename record.generation } := by
  rw [record?, record?, level?_redate, Option.map_map, Option.map_map]
  rfl

theorem redate_updateLevels (p : String → Bool) {f g : VoltageLevel → VoltageLevel}
    (h : ∀ level, (f level).redate rename = g (level.redate rename)) :
    (network.updateLevels p f).redate rename = (network.redate rename).updateLevels p g := by
  unfold redate updateLevels
  congr 1
  refine Ascending.ext (List.map_map.trans (.trans ?_ List.map_map.symm))
  refine List.map_congr_left fun found _ => ?_
  by_cases hp : p found.id <;> simp [hp, h]

theorem redate_redate (rename other : Nat → Nat) (network : Network) :
    (network.redate rename).redate other = network.redate fun generation =>
      other (rename generation) := by
  unfold redate updateLevels
  congr 1
  exact Ascending.ext List.map_map

/-- What becomes of generations that no level has does not matter. -/
theorem redate_congr
    (h : ∀ level record, network.record? level = some record →
      rename record.generation = other record.generation) :
    network.redate rename = network.redate other := by
  unfold redate updateLevels
  congr 1
  refine Ascending.ext (List.map_congr_left fun found hfound => ?_)
  have hlevel : network.level? found.id = some found :=
    Ascending.get?_eq_some_iff.mpr ⟨hfound, rfl⟩
  have hsame := h found.id _ (record?_eq_some_iff.mpr ⟨found, hlevel, rfl⟩)
  simp only [VoltageLevel.redate, if_true] at hsame ⊢
  rw [hsame]

/-! ### Changes do not look at generations -/

theorem redate_touch (ids : List String) :
    (network.touch ids generation).redate rename =
      (network.redate rename).touch ids (rename generation) :=
  redate_updateLevels _ fun _ => rfl

theorem redate_addLevel (entered : Resource VoltageLevel) :
    (network.addLevel entered generation).redate rename =
      (network.redate rename).addLevel entered (rename generation) := by
  let redated : Resource VoltageLevel :=
    { entered with attributes := entered.attributes.redate rename }
  have hlevels :
      ({ network with levels := network.levels.insert entered } : Network).redate rename =
        { network.redate rename with
          levels := (network.redate rename).levels.insert redated } := by
    unfold redate updateLevels
    congr 1
    exact Ascending.map_insert
  rw [addLevel, redate_touch, hlevels]
  -- the level gets the generation of the change, whatever it was entered with
  exact (addLevel_unstamped _ redated _).symm.trans (addLevel_unstamped _ entered _)

theorem redate_updateSwitch (id : String) (f : Switch → Switch) :
    (network.updateSwitch id f generation).map (·.redate rename) =
      (network.redate rename).updateSwitch id f (rename generation) := by
  have hswitches : (network.redate rename).switches = network.switches := rfl
  unfold updateSwitch
  rw [hswitches]
  cases network.switches.find? (·.id = id) with
  | none => rfl
  | some switch => exact congrArg Except.ok (redate_touch _)

theorem redate_removeEquipment (id : String) :
    (network.removeEquipment id generation).map (·.redate rename) =
      (network.redate rename).removeEquipment id (rename generation) := by
  have hlevels : (network.redate rename).levelsOf id = network.levelsOf id := rfl
  unfold removeEquipment
  rw [hlevels]
  cases network.levelsOf id with
  | nil => rfl
  | cons level levels => exact congrArg Except.ok (redate_touch _)

theorem redate_setValid (level : String) (value : Bool) :
    (network.setValid level value).map (·.redate rename) =
      (network.redate rename).setValid level value := by
  unfold setValid
  rw [level?_redate]
  cases network.level? level with
  | none => rfl
  | some found => exact congrArg Except.ok (redate_updateLevels _ fun _ => rfl)

end Network

/-- An alteration comes to the same whatever the generations are. -/
theorem Alteration.change_redate (alteration : Alteration)
    {change : Nat → Network → Except Fault Network} (h : alteration.change = .ok change)
    (rename : Nat → Nat) (generation : Nat) (network : Network) :
    (change generation network).map (·.redate rename) =
      change (rename generation) (network.redate rename) := by
  cases alteration with
  | addLevel level =>
    cases h
    exact congrArg Except.ok (Network.redate_addLevel level)
  | addInjection injection =>
    rw [Alteration.change] at h
    split at h <;> cases h
    exact congrArg Except.ok (Network.redate_touch _)
  | addBranch branch =>
    rw [Alteration.change] at h
    split at h <;> cases h
    exact congrArg Except.ok (Network.redate_touch _)
  | addTransformer | addSwitch =>
    cases h
    exact congrArg Except.ok (Network.redate_touch _)
  | setOpen switch value | setRetained switch value =>
    cases h
    exact Network.redate_updateSwitch switch _
  | removeEquipment id =>
    cases h
    exact Network.redate_removeEquipment id
  | setValid level value =>
    cases h
    exact Network.redate_setValid level value

namespace Network

variable {first second : Network} {last last' : Nat}

/-- All generations of the network were drawn. -/
def DrawnBy (last : Nat) (network : Network) : Prop :=
  ∀ level record, network.record? level = some record → record.generation ≤ last

/-- Tells the generations drawn until now from later ones. -/
def age (last generation : Nat) : Nat := if generation ≤ last then 1 else 0

theorem age_eq_one_iff {generation : Nat} : age last generation = 1 ↔ generation ≤ last := by
  unfold age
  split <;> simp_all

theorem undated_eq_of_redate_eq {rename other : Nat → Nat}
    (h : first.redate rename = second.redate other) : first.undated = second.undated := by
  have hzero := congrArg (redate fun _ => 0) h
  rwa [redate_redate, redate_redate] at hzero

theorem ages_eq_of_redate_eq (h : first.redate (age last) = second.redate (age last'))
    (level : String) :
    ((first.record? level).map (·.generation)).map (age last) =
      ((second.record? level).map (·.generation)).map (age last') := by
  rw [Option.map_map, Option.map_map]
  have hrecord := congrArg (fun network => (network.record? level).map (·.generation)) h
  rwa [record?_redate, record?_redate, Option.map_map, Option.map_map] at hrecord

/-- A network all whose generations were drawn is redated by their age as if they were one. -/
theorem redate_age (h : DrawnBy last network) :
    network.redate (age last) = network.undated.redate fun _ => 1 := by
  rw [undated, redate_redate]
  exact redate_congr fun level record hrecord => if_pos (h level record hrecord)

/-- Networks that are the same but for their generations are altered alike: the alteration fails
with one fault for both, or it dates the same levels of both. -/
theorem redate_eq_of_change (alteration : Alteration)
    {change : Nat → Network → Except Fault Network} (h : alteration.change = .ok change)
    (hfirst : DrawnBy last first) (hsecond : DrawnBy last' second)
    (hsame : first.undated = second.undated) :
    (change (last + 1) first).map (·.redate (age last)) =
      (change (last' + 1) second).map (·.redate (age last')) := by
  have hnew : ∀ last, age last (last + 1) = 0 := fun last => if_neg (Nat.not_succ_le_self last)
  rw [alteration.change_redate h, alteration.change_redate h, hnew, hnew, redate_age hfirst,
    redate_age hsecond, hsame]

end Network

end Switchyard
