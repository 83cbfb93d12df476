import Switchyard.Proofs.Network.Listings
import Switchyard.Store.Operation

/-!
Operations by what they write to.

An operation clones a variant, deletes one or alters the network of one (`Operation.cases_kind`).
An alteration names some levels of the network, by the resource that it enters, updates or removes.
It changes what is listed for these and then touches them (`exists_touch_of_change`), so it dates
them anew and leaves every other level as it was. Setting a flag dates nothing.
-/

namespace Switchyard

/-- The variant that an operation writes to. -/
def Operation.target : Operation → UInt32
  | .addLevel variant _ | .addInjection variant _ | .addBranch variant _
  | .addTransformer variant _ | .addSwitch variant _ | .setOpen variant _ _
  | .setRetained variant _ _ | .removeEquipment variant _ | .setValid variant _ _
  | .clone _ variant _ | .delete variant => variant

/-- A change of the network of one variant. -/
inductive Alteration where
  | addLevel (level : Resource VoltageLevel)
  | addInjection (injection : Resource Terminal)
  | addBranch (branch : Resource Branch)
  | addTransformer (transformer : Resource Transformer)
  | addSwitch (switch : Resource Switch)
  | setOpen (switch : String) (value : Bool)
  | setRetained (switch : String) (value : Bool)
  | removeEquipment (id : String)
  | setValid (level : String) (value : Bool)
  deriving DecidableEq, Repr

namespace Alteration

/-- The operation that alters the variant with a number. -/
def on (number : UInt32) : Alteration → Operation
  | addLevel level => .addLevel number level
  | addInjection injection => .addInjection number injection
  | addBranch branch => .addBranch number branch
  | addTransformer transformer => .addTransformer number transformer
  | addSwitch switch => .addSwitch number switch
  | setOpen switch value => .setOpen number switch value
  | setRetained switch value => .setRetained number switch value
  | removeEquipment id => .removeEquipment number id
  | setValid level value => .setValid number level value

/-- What becomes of a network at a generation. A resource of the wrong family is refused before a
generation is drawn. -/
def change : Alteration → Except Fault (Nat → Network → Except Fault Network)
  | addLevel level => .ok fun g n => .ok (n.addLevel level g)
  | addInjection injection =>
    if injection.type.isInjection then .ok fun g n => .ok (n.addInjection injection g)
    else .error (.notInjectionArgument injection.type)
  | addBranch branch =>
    if branch.type.isBranch then .ok fun g n => .ok (n.addBranch branch g)
    else .error (.notBranchArgument branch.type)
  | addTransformer transformer => .ok fun g n => .ok (n.addTransformer transformer g)
  | addSwitch switch => .ok fun g n => .ok (n.addSwitch switch g)
  | setOpen switch value => .ok fun g n => n.updateSwitch switch ({ · with isOpen := value }) g
  | setRetained switch value =>
    .ok fun g n => n.updateSwitch switch ({ · with isRetained := value }) g
  | removeEquipment id => .ok fun g n => n.removeEquipment id g
  | setValid level value => .ok fun _ n => n.setValid level value

/-- An alteration is refused, or it writes its change. -/
theorem apply_on (store : Store) (number : UInt32) (alteration : Alteration) :
    store.apply (alteration.on number) =
      match alteration.change with
      | .error fault => (.error fault, store)
      | .ok change => store.write number change := by
  cases alteration with
  | addInjection injection =>
    rw [on, Store.apply, change]
    split <;> rfl
  | addBranch branch =>
    rw [on, Store.apply, change]
    split <;> rfl
  | _ => rfl

@[simp] theorem target_on (alteration : Alteration) (number : UInt32) :
    (alteration.on number).target = number := by
  cases alteration <;> rfl

end Alteration

/-- An operation is a clone, a deletion or an alteration. -/
@[elab_as_elim]
theorem Operation.cases_kind {motive : Operation → Prop} (operation : Operation)
    (clone : ∀ source target name, motive (.clone source target name))
    (delete : ∀ target, motive (.delete target))
    (alter : ∀ (alteration : Alteration) target, motive (alteration.on target)) :
    motive operation := by
  cases operation with
  | addLevel variant level => exact alter (.addLevel level) variant
  | addInjection variant injection => exact alter (.addInjection injection) variant
  | addBranch variant branch => exact alter (.addBranch branch) variant
  | addTransformer variant transformer => exact alter (.addTransformer transformer) variant
  | addSwitch variant switch => exact alter (.addSwitch switch) variant
  | setOpen variant switch value => exact alter (.setOpen switch value) variant
  | setRetained variant switch value => exact alter (.setRetained switch value) variant
  | removeEquipment variant id => exact alter (.removeEquipment id) variant
  | setValid variant level value => exact alter (.setValid level value) variant
  | clone source target name => exact clone source target name
  | delete target => exact delete target

/-! ### What an alteration changes -/

namespace Alteration

/-- The levels that an alteration touches: those that are named by the resource which it enters or
updates, or by any that it removes. -/
def touched (network : Network) : Alteration → List String
  | addLevel level => [level.id]
  | addInjection injection => [injection.attributes.level]
  | addBranch branch => branch.attributes.levels
  | addTransformer transformer => transformer.attributes.levels
  | addSwitch switch => [switch.attributes.level]
  | setOpen id _ | setRetained id _ =>
    ((network.switches.find? (·.id = id)).map (·.attributes.level)).toList
  | removeEquipment id => network.levelsOf id
  | setValid _ _ => []

/-- The levels that an alteration names: those that it touches, or the one whose flag it sets. -/
def names (network : Network) : Alteration → List String
  | setValid level _ => [level]
  | alteration => alteration.touched network

variable {alteration : Alteration} {change : Nat → Network → Except Fault Network}
  {before after : Network} {generation : Nat} {level : String}

theorem touched_of_find? {id : String} {switch : Resource Switch}
    (h : before.switches.find? (·.id = id) = some switch) (value : Bool) :
    (setOpen id value).touched before = [switch.attributes.level] ∧
      (setRetained id value).touched before = [switch.attributes.level] := by
  simp [touched, h]

/-- An alteration sets a flag, or it changes what is listed for the levels that it touches, and then
touches them. -/
theorem exists_touch_of_change (hchange : alteration.change = .ok change)
    (hok : change generation before = .ok after) :
    (∃ level value, alteration = .setValid level value) ∨
      ∃ changed, Network.SameBut (alteration.touched before) before changed ∧
        after = changed.touch (alteration.touched before) generation := by
  cases alteration with
  | addLevel entered =>
    cases hchange
    cases hok
    exact .inr ⟨_, Network.sameBut_level entered, rfl⟩
  | addInjection entered =>
    rw [Alteration.change] at hchange
    split at hchange <;> cases hchange
    cases hok
    exact .inr ⟨_, Network.sameBut_injection entered, rfl⟩
  | addBranch entered =>
    rw [Alteration.change] at hchange
    split at hchange <;> cases hchange
    cases hok
    exact .inr ⟨_, Network.sameBut_branch entered, rfl⟩
  | addTransformer entered =>
    cases hchange
    cases hok
    exact .inr ⟨_, Network.sameBut_transformer entered, rfl⟩
  | addSwitch entered =>
    cases hchange
    cases hok
    exact .inr ⟨_, Network.sameBut_switch entered, rfl⟩
  | setOpen id value =>
    cases hchange
    obtain ⟨switch, changed, hfind, hsame, hafter⟩ :=
      Network.exists_touch_of_updateSwitch (fun _ => by rfl) hok
    rw [(touched_of_find? hfind value).1]
    exact .inr ⟨changed, hsame, hafter⟩
  | setRetained id value =>
    cases hchange
    obtain ⟨switch, changed, hfind, hsame, hafter⟩ :=
      Network.exists_touch_of_updateSwitch (fun _ => by rfl) hok
    rw [(touched_of_find? hfind value).2]
    exact .inr ⟨changed, hsame, hafter⟩
  | removeEquipment id =>
    cases hchange
    exact .inr ⟨_, Network.sameBut_withoutEquipment id before,
      Network.eq_touch_of_removeEquipment hok⟩
  | setValid level value => exact .inl ⟨level, value, rfl⟩

/-- Levels that are not named have the same attributes and the same listings afterwards. -/
theorem sameBut_of_change (hchange : alteration.change = .ok change)
    (hok : change generation before = .ok after) :
    Network.SameBut (alteration.names before) before after := by
  obtain ⟨named, value, rfl⟩ | ⟨changed, hsame, rfl⟩ := exists_touch_of_change hchange hok
  · cases hchange
    exact Network.sameBut_setValid hok
  · refine fun level hlevel => hsame.touch generation level fun htouched => hlevel ?_
    cases alteration with
    | setValid => cases htouched
    | _ => exact htouched

/-- A level that is touched is dated anew, and its flag is taken back. -/
theorem record?_of_touched (hchange : alteration.change = .ok change)
    (hok : change generation before = .ok after) (hlevel : level ∈ alteration.touched before)
    {record : LevelRecord} (hrecord : after.record? level = some record) :
    record.generation = generation ∧ record.valid = false := by
  obtain ⟨named, value, rfl⟩ | ⟨changed, hsame, rfl⟩ := exists_touch_of_change hchange hok
  · cases hlevel
  · exact Network.record?_touch hlevel hrecord

/-- A level that is not touched is held as before, but for its flag where that is set. -/
theorem record?_of_not_touched (hchange : alteration.change = .ok change)
    (hok : change generation before = .ok after) (hlevel : level ∉ alteration.touched before)
    (hflag : ∀ value, alteration ≠ .setValid level value) :
    after.record? level = before.record? level := by
  refine (sameBut_of_change hchange hok).record? ?_
  cases alteration with
  | setValid named value =>
    rintro hnamed
    cases List.mem_singleton.mp hnamed
    exact hflag value rfl
  | _ => exact hlevel

end Alteration

end Switchyard
