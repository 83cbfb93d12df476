import Switchyard.Proofs.Store.Networks

/-!
What switching a switch does to the contents of voltage levels.

The switch that is switched is the first one with the id in the whole variant. It stays where it is
listed, so the contents of its level are those of before with this one switch updated
(`Contents.switched`), and the contents of every other level are as they were.
-/

namespace Switchyard

/-- The switches with the first that has the id updated. -/
def updateFirst (id : String) (f : Switch → Switch) (switches : List (Resource Switch)) :
    List (Resource Switch) :=
  modifyFirst (·.id = id) (fun r => { r with attributes := f r.attributes }) switches

/-- The contents with the first switch that has the id updated. -/
def Contents.switched (id : String) (f : Switch → Switch) (contents : Contents) : Contents where
  kind := contents.kind
  listings := { contents.listings with
    switches := updateFirst id f contents.listings.switches }

/-! ### The first match in a list -/

section ModifyFirst

variable {α : Type} {p q : α → Bool} {f : α → α} {x y : α} {xs : List α}

theorem modifyFirst_cons (q : α → Bool) (f : α → α) (y : α) (ys : List α) :
    modifyFirst q f (y :: ys) = if q y then f y :: ys else y :: modifyFirst q f ys := rfl

/-- Where a test does not tell a member from its image, selecting by the test commutes with updating
the first match, if it is selected. -/
theorem filter_modifyFirst_comm (hkeeps : ∀ y, p (f y) = p y) (hfind : xs.find? q = some x)
    (hx : p x = true) : (modifyFirst q f xs).filter p = modifyFirst q f (xs.filter p) := by
  induction xs with
  | nil => rfl
  | cons y ys ih =>
    rw [modifyFirst_cons]
    by_cases hy : q y = true
    · rw [List.find?_cons_of_pos hy] at hfind
      cases hfind
      have hfx : p (f x) = true := by rw [hkeeps, hx]
      rw [if_pos hy, List.filter_cons_of_pos hx, List.filter_cons_of_pos hfx, modifyFirst_cons,
        if_pos hy]
    · rw [List.find?_cons_of_neg hy] at hfind
      rw [if_neg hy, List.filter_cons, List.filter_cons, ih hfind]
      split
      · rw [modifyFirst_cons, if_neg hy]
      · rfl

theorem mem_of_mem_modifyFirst (h : y ∈ modifyFirst q f xs) :
    y ∈ xs ∨ ∃ z ∈ xs, q z = true ∧ y = f z := by
  induction xs with
  | nil => cases h
  | cons z zs ih =>
    rw [modifyFirst_cons] at h
    split at h
    case isTrue hz =>
      rcases List.mem_cons.mp h with rfl | h
      · exact .inr ⟨z, List.mem_cons_self, hz, rfl⟩
      · exact .inl (List.mem_cons_of_mem z h)
    case isFalse =>
      rcases List.mem_cons.mp h with rfl | h
      · exact .inl List.mem_cons_self
      · rcases ih h with h | ⟨w, hw, hq⟩
        · exact .inl (List.mem_cons_of_mem z h)
        · exact .inr ⟨w, List.mem_cons_of_mem z hw, hq⟩

theorem mem_modifyFirst_of_mem (h : y ∈ xs) :
    y ∈ modifyFirst q f xs ∨ f y ∈ modifyFirst q f xs := by
  induction xs with
  | nil => cases h
  | cons z zs ih =>
    rw [modifyFirst_cons]
    split
    case isTrue =>
      rcases List.mem_cons.mp h with rfl | h
      · exact .inr List.mem_cons_self
      · exact .inl (List.mem_cons_of_mem _ h)
    case isFalse =>
      rcases List.mem_cons.mp h with rfl | h
      · exact .inl List.mem_cons_self
      · exact (ih h).imp (List.mem_cons_of_mem z) (List.mem_cons_of_mem z)

end ModifyFirst

theorem updateFirst_cons (id : String) (f : Switch → Switch) (switch : Resource Switch)
    (rest : List (Resource Switch)) :
    updateFirst id f (switch :: rest) =
      if switch.id = id then { switch with attributes := f switch.attributes } :: rest
      else switch :: updateFirst id f rest := by
  simp only [updateFirst, modifyFirst_cons, decide_eq_true_iff]

theorem map_id_updateFirst (id : String) (f : Switch → Switch)
    (switches : List (Resource Switch)) :
    (updateFirst id f switches).map Resource.id = switches.map Resource.id := by
  induction switches with
  | nil => rfl
  | cons switch rest ih =>
    rw [updateFirst_cons]
    split
    · rfl
    · rw [List.map_cons, List.map_cons, ih]

/-! ### One network -/

namespace Network

variable {network after : Network} {id : String} {f : Switch → Switch} {generation : Nat}

theorem updateSwitch_eq_ok {switch : Resource Switch}
    (hfind : network.switches.find? (·.id = id) = some switch) :
    network.updateSwitch id f generation =
      .ok ({ network with switches := updateFirst id f network.switches }.touch
        [(f switch.attributes).level] generation) := by
  unfold updateSwitch
  rw [hfind]
  rfl

/-- The first match that is updated is updated where its level lists it. -/
theorem listings_updateFirst {switch : Resource Switch}
    (keeps : ∀ switch, (f switch).level = switch.level)
    (hfind : network.switches.find? (·.id = id) = some switch) :
    { network with switches := updateFirst id f network.switches }.listings
        switch.attributes.level =
      { network.listings switch.attributes.level with
        switches := updateFirst id f (network.switchesAt switch.attributes.level) } :=
  Listings.ext rfl rfl rfl
    (filter_modifyFirst_comm (fun r => by simp [keeps]) hfind (decide_eq_true rfl))

/-- Updating a switch redates its level, with the switch updated where it is listed, and leaves
every other level alone. -/
theorem record?_updateSwitch (level : String) (keeps : ∀ switch, (f switch).level = switch.level)
    (h : network.updateSwitch id f generation = .ok after) :
    ∃ switch, network.switches.find? (·.id = id) = some switch ∧
      after.record? level =
        if switch.attributes.level = level then
          (network.record? level).map fun record =>
            ⟨⟨record.contents.switched id f, generation⟩, false⟩
        else network.record? level := by
  obtain ⟨switch, changed, hfind, hsame, hafter⟩ := exists_touch_of_updateSwitch keeps h
  refine ⟨switch, hfind, ?_⟩
  split
  case isFalse hother =>
    rw [hafter]
    exact (hsame.touch generation).record? (by simpa using Ne.symm hother)
  case isTrue hlevel =>
    subst hlevel
    rw [updateSwitch_eq_ok hfind] at h
    cases h
    rw [record?, touch, level?_updateLevels, listings_updateLevels, keeps,
      listings_updateFirst keeps hfind, record?]
    change ((network.level? switch.attributes.level).map _).map _ = _
    cases network.level? switch.attributes.level with
    | none => rfl
    | some found =>
      simp only [Option.map_some, List.contains_cons, BEq.rfl, Bool.true_or, if_true]
      rfl

end Network

/-! ### A store -/

namespace Store

variable {store : Store} {network : Network} {number : UInt32} {id level : String} {value : Bool}
  {record : LevelRecord} {switch : Resource Switch}

/-- The first switch with an id can be switched, and its level then has it switched. -/
theorem record?_setOpen (value : Bool) (hnetwork : store.network number = .ok network)
    (hfind : network.switches.find? (·.id = id) = some switch)
    (hrecord : store.record? number switch.attributes.level = some record) :
    (store.apply (.setOpen number id value)).1 = .ok () ∧
      ∃ after,
        (store.after (.setOpen number id value)).record? number switch.attributes.level =
          some after ∧
        after.contents = record.contents.switched id ({ · with isOpen := value }) := by
  obtain ⟨variant, hvariant, rfl⟩ := exists_variant_of_network hnetwork
  have hheld : variant.network.record? switch.attributes.level = some record := by
    rwa [record?, hvariant, Option.bind_some] at hrecord
  obtain ⟨updated, hupdated⟩ : ∃ updated, variant.network.updateSwitch id
      ({ · with isOpen := value }) (store.lastGeneration + 1) = .ok updated :=
    ⟨_, Network.updateSwitch_eq_ok hfind⟩
  have happly : store.apply (.setOpen number id value) =
      (.ok (), store.enter { variant with network := updated }) := by
    change store.write number _ = _
    rw [write_of_variant? hvariant, hupdated]
  rw [after, happly]
  refine ⟨rfl, ?_⟩
  obtain ⟨found, hfound, hafter⟩ :=
    Network.record?_updateSwitch switch.attributes.level (fun _ => by rfl) hupdated
  cases hfind.symm.trans hfound
  rw [if_pos rfl, hheld] at hafter
  refine ⟨⟨⟨record.contents.switched id ({ · with isOpen := value }), store.lastGeneration + 1⟩,
    false⟩, ?_, rfl⟩
  rw [record?_enter, if_pos (number_of_variant? hvariant), hafter]
  rfl

/-- Whatever switch is switched, a level has its contents of before, or these with a switch
switched. -/
theorem contents_setOpen {target : UInt32} (h :
      (store.after (.setOpen target id value)).record? number level = some record) :
    ∃ before, store.record? number level = some before ∧
      (record.contents = before.contents ∨
        record.contents = before.contents.switched id ({ · with isOpen := value })) := by
  change (store.write target _).2.record? number level = some record at h
  rcases write_cases store target fun g n => n.updateSwitch id ({ · with isOpen := value }) g with
    ⟨fault, hwrite⟩ | ⟨variant, network, hvariant, hok, hwrite⟩
  · rw [hwrite] at h
    exact ⟨record, h, .inl rfl⟩
  rw [hwrite, record?_enter] at h
  split at h
  case isFalse => exact ⟨record, h, .inl rfl⟩
  case isTrue hnumber =>
    obtain rfl := (number_of_variant? hvariant).symm.trans hnumber
    obtain ⟨_, _, hafter⟩ := Network.record?_updateSwitch level (fun _ => by rfl) hok
    have hheld : store.record? target level = variant.network.record? level := by
      rw [record?, hvariant]
      rfl
    rw [hheld]
    rw [hafter] at h
    split at h
    case isFalse => exact ⟨record, h, .inl rfl⟩
    case isTrue =>
      obtain ⟨before, hbefore, rfl⟩ := Option.map_eq_some_iff.mp h
      exact ⟨before, hbefore, .inr rfl⟩

end Store

end Switchyard
