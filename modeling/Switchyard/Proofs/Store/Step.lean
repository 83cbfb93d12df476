import Switchyard.Proofs.Store.Alteration

/-!
What one operation does to the voltage levels of a store.

An operation writes to one variant, its target. After it, a level of the store is either dated, with
a generation that was drawn by this very operation and its valid flag taken back, or it is held as
before, the valid flag excepted, which only `setValid` alters (`fate`). Every fact about runs of
operations follows from these two cases.
-/

namespace Switchyard

namespace Store

variable {store : Store} {operation : Operation} {number : UInt32} {level : String}
  {record : LevelRecord}

/-- What the store holds of a level of a variant. -/
def record? (store : Store) (number : UInt32) (level : String) : Option LevelRecord :=
  (store.variant? number).bind (·.network.record? level)

/-- The store answers for a level exactly what it holds of it. -/
theorem record?_eq_some_iff :
    store.record? number level = some record ↔
      ∃ network found, store.network number = .ok network ∧ store.level number level = .ok found ∧
        record = ⟨⟨⟨found.attributes.kind, network.listings level⟩, found.attributes.generation⟩,
          found.attributes.valid⟩ := by
  unfold record? Store.level network
  cases store.variant? number with
  | none => simp [bind, Except.bind]
  | some variant =>
    simp only [Option.bind_some, Network.record?_eq_some_iff]
    cases h : variant.network.level? level with
    | none => simp [bind, Except.bind, throw, throwThe, MonadExceptOf.throw, h]
    | some found => simp [bind, Except.bind, pure, Except.pure, h]

/-- A level that the store answers with is one that it holds. -/
theorem record?_of_level {found : Resource VoltageLevel}
    (h : store.level number level = .ok found) :
    ∃ record, store.record? number level = some record ∧
      record.generation = found.attributes.generation ∧ record.valid = found.attributes.valid := by
  cases hnetwork : store.network number with
  | error fault =>
    rw [Store.level, hnetwork] at h
    cases h
  | ok network => exact ⟨_, record?_eq_some_iff.mpr ⟨network, found, hnetwork, h, rfl⟩, rfl, rfl⟩

/-- The flag of a level that the store holds can be set. -/
theorem apply_setValid (h : store.record? number level = some record) (value : Bool) :
    (store.apply (.setValid number level value)).1 = .ok () := by
  obtain ⟨variant, hvariant, hrecord⟩ := Option.bind_eq_some_iff.mp h
  obtain ⟨found, hfound, _⟩ := Network.record?_eq_some_iff.mp hrecord
  have hdrawn : store.draw.variant? number = some variant := hvariant
  simp only [apply, write, hdrawn, Network.setValid, hfound]

/-- What became of a level that a store holds after an operation. -/
inductive Fate (store : Store) (operation : Operation) (number : UInt32) (level : String)
    (record : LevelRecord) : Prop
  | dated (target : operation.target = number) (later : store.lastGeneration < record.generation)
      (drawn : record.generation ≤ (store.after operation).lastGeneration)
      (invalid : record.valid = false)
  | kept (old : LevelRecord) (held : store.record? number level = some old)
      (edition : record.toEdition = old.toEdition)
      (flag : record.valid = old.valid ∨ operation = .setValid number level record.valid)

theorem Fate.of_held (held : store.record? number level = some record) :
    Fate store operation number level record :=
  .kept record held rfl (.inl rfl)

/-! ### Variants that come and go -/

theorem exists_variant_of_network {network : Network} (h : store.network number = .ok network) :
    ∃ variant, store.variant? number = some variant ∧ variant.network = network := by
  rw [Store.network] at h
  split at h <;> cases h
  exact ⟨_, ‹_›, rfl⟩

theorem number_of_variant? {variant : Variant} (h : store.variant? number = some variant) :
    variant.number = number :=
  (Ascending.get?_eq_some_iff.mp h).2

/-- What is held of a level depends on its variant alone. -/
theorem record?_congr {first second : Store} (h : second.variant? number = first.variant? number)
    (level : String) : second.record? number level = first.record? number level := by
  rw [record?, h, record?]

/-- The store with a variant entered, for which a generation was drawn. -/
def enter (store : Store) (variant : Variant) : Store :=
  { store.draw with variants := store.variants.insert variant }

theorem variant?_enter (store : Store) (variant : Variant) (number : UInt32) :
    (store.enter variant).variant? number =
      if variant.number = number then some variant else store.variant? number :=
  Ascending.get?_insert

/-- A variant that is entered is held under its number, and no other is altered. -/
theorem record?_enter (variant : Variant) :
    (store.enter variant).record? number level =
      if variant.number = number then variant.network.record? level
      else store.record? number level := by
  rw [record?, variant?_enter]
  split <;> rfl

/-- The store without the variant that has a number. -/
def without (store : Store) (number : UInt32) : Store :=
  { store with variants := store.variants.erase number }

theorem variant?_without (store : Store) (target number : UInt32) :
    (store.without target).variant? number =
      if number = target then none else store.variant? number :=
  Ascending.get?_erase

/-! ### Altering a network -/

/-- A write that fails draws a generation and alters nothing else. -/
theorem write_cases (store : Store) (number : UInt32)
    (change : Nat → Network → Except Fault Network) :
    (∃ fault, store.write number change = (.error fault, store.draw)) ∨
      ∃ variant network, store.variant? number = some variant ∧
        change (store.lastGeneration + 1) variant.network = .ok network ∧
        store.write number change = (.ok (), store.enter { variant with network }) := by
  have hvariant : store.draw.variant? number = store.variant? number := rfl
  have hdrawn : store.draw.lastGeneration = store.lastGeneration + 1 := rfl
  simp only [write, hvariant, hdrawn]
  cases store.variant? number with
  | none => exact .inl ⟨_, rfl⟩
  | some variant =>
    cases hchange : change (store.lastGeneration + 1) variant.network with
    | error fault => exact .inl ⟨fault, by simp [hchange]⟩
    | ok network => exact .inr ⟨variant, network, rfl, hchange, by simp [hchange, draw, enter]⟩

/-- An alteration fails and leaves all variants as they were, or the network of its variant is
changed. -/
theorem apply_on_cases (store : Store) (number : UInt32) (alteration : Alteration) :
    (∃ fault failed, store.apply (alteration.on number) = (.error fault, failed) ∧
      failed.variants = store.variants ∧ store.lastGeneration ≤ failed.lastGeneration) ∨
    ∃ change variant network, alteration.change = .ok change ∧
      store.variant? number = some variant ∧
      change (store.lastGeneration + 1) variant.network = .ok network ∧
      store.apply (alteration.on number) = (.ok (), store.enter { variant with network }) := by
  have happly := Alteration.apply_on store number alteration
  cases hchange : alteration.change with
  | error fault =>
    rw [hchange] at happly
    exact .inl ⟨fault, store, happly, rfl, Nat.le_refl _⟩
  | ok change =>
    rw [hchange] at happly
    obtain ⟨fault, hwrite⟩ | ⟨variant, network, hvariant, hok, hwrite⟩ :=
      write_cases store number change
    · exact .inl ⟨fault, store.draw, happly.trans hwrite, rfl, Nat.le_succ _⟩
    · exact .inr ⟨change, variant, network, rfl, hvariant, hok, happly.trans hwrite⟩

theorem fate_on {alteration : Alteration} {target : UInt32}
    (h : (store.after (alteration.on target)).record? number level = some record) :
    Fate store (alteration.on target) number level record := by
  obtain ⟨_, failed, hfailed, hsame, _⟩ | ⟨_, variant, network, hchange, hvariant, hok, hmade⟩ :=
    apply_on_cases store target alteration
  · have hkept : failed.variant? number = store.variant? number := by rw [variant?, hsame, variant?]
    rw [after, hfailed, record?_congr hkept] at h
    exact .of_held h
  · rw [after, hmade, record?_enter] at h
    split at h
    case isFalse => exact .of_held h
    case isTrue hnumber =>
      obtain rfl : target = number := (number_of_variant? hvariant).symm.trans hnumber
      have hheld : store.record? target level = variant.network.record? level := by
        rw [record?, hvariant]
        rfl
      by_cases htouched : level ∈ alteration.touched variant.network
      · obtain ⟨hgen, hvalid⟩ := Alteration.record?_of_touched hchange hok htouched h
        refine .dated (alteration.target_on target) (by omega) ?_ hvalid
        rw [after, hmade, hgen]
        exact Nat.le_refl _
      · by_cases hflag : ∃ value, alteration = .setValid level value
        · obtain ⟨value, rfl⟩ := hflag
          cases hchange
          rw [Network.record?_setValid hok, if_pos rfl] at h
          obtain ⟨old, hold, rfl⟩ := Option.map_eq_some_iff.mp h
          exact .kept old (hheld.trans hold) rfl (.inr rfl)
        · rw [Alteration.record?_of_not_touched hchange hok htouched
            fun value hset => hflag ⟨value, hset⟩] at h
          exact .of_held (hheld.trans h)

/-! ### Cloning and deleting -/

/-- A clone that is refused alters nothing. -/
theorem after_clone_cases (store : Store) (source target : UInt32) (name : String) :
    store.after (.clone source target name) = store ∨
      ∃ variant, store.variant? source = some variant ∧
        store.after (.clone source target name) =
          store.enter ⟨target, name, variant.network.touchAll (store.lastGeneration + 1)⟩ := by
  have hafter : store.after (.clone source target name) =
      (store.cloneVariant source target name).2 := rfl
  rw [hafter]
  unfold cloneVariant
  split
  · exact .inl rfl
  split
  · exact .inl rfl
  split
  case h_1 => exact .inl rfl
  case h_2 variant hsource => exact .inr ⟨variant, hsource, by simp [draw, enter]⟩

theorem fate_clone {source target : UInt32} {name : String}
    (h : (store.after (.clone source target name)).record? number level = some record) :
    Fate store (.clone source target name) number level record := by
  rcases after_clone_cases store source target name with hafter | ⟨variant, _, hafter⟩
  · rw [hafter] at h
    exact .of_held h
  · rw [hafter, record?_enter] at h
    split at h
    case isFalse => exact .of_held h
    case isTrue htarget =>
      obtain ⟨hgen, hvalid⟩ := Network.record?_touchAll h
      exact .dated htarget (by omega) (by rw [hafter, hgen]; exact Nat.le_refl _) hvalid

/-- Deleting takes the variant out, if it is there. -/
theorem after_delete_eq_without (store : Store) (target : UInt32) :
    store.after (.delete target) = store.without target := by
  change (store.deleteVariant target).2 = _
  unfold deleteVariant
  split
  case isTrue => rfl
  case isFalse habsent =>
    have hnone : store.variants.get? target = none := by
      simpa [Ascending.hasKey_eq_isSome] using habsent
    have herase : store.variants.erase target = store.variants := by
      refine Ascending.ext_mem fun variant => ?_
      rw [Ascending.mem_erase]
      exact ⟨And.left, fun h => ⟨h, Ascending.get?_eq_none_iff.mp hnone variant h⟩⟩
    rw [without, herase]

theorem fate_delete {target : UInt32}
    (h : (store.after (.delete target)).record? number level = some record) :
    Fate store (.delete target) number level record := by
  rw [after_delete_eq_without, record?, variant?_without] at h
  split at h
  · cases h
  · exact .of_held h

/-! ### Any operation -/

/-- After any operation, every level of the store was dated by it or is held as before. -/
theorem fate (h : (store.after operation).record? number level = some record) :
    Fate store operation number level record := by
  cases operation using Operation.cases_kind with
  | clone source target name => exact fate_clone h
  | delete target => exact fate_delete h
  | alter alteration target => exact fate_on h

/-- No operation takes a generation back. -/
theorem lastGeneration_le_after (store : Store) (operation : Operation) :
    store.lastGeneration ≤ (store.after operation).lastGeneration := by
  cases operation using Operation.cases_kind with
  | clone source target name =>
    obtain hafter | ⟨_, _, hafter⟩ := after_clone_cases store source target name
    · exact Nat.le_of_eq (by rw [hafter])
    · rw [hafter]
      exact Nat.le_succ _
  | delete target =>
    rw [after_delete_eq_without]
    exact Nat.le_refl _
  | alter alteration target =>
    obtain ⟨_, _, hfailed, _, hdrawn⟩ | ⟨_, _, _, _, _, _, hmade⟩ :=
      apply_on_cases store target alteration
    · rw [after, hfailed]
      exact hdrawn
    · rw [after, hmade]
      exact Nat.le_succ _

/-- An operation leaves every variant but its target alone. -/
theorem variant?_after_of_ne (h : operation.target ≠ number) :
    (store.after operation).variant? number = store.variant? number := by
  cases operation using Operation.cases_kind with
  | clone source target name =>
    obtain hafter | ⟨_, _, hafter⟩ := after_clone_cases store source target name
    · rw [hafter]
    · rw [hafter]
      exact (variant?_enter store _ number).trans (if_neg h)
  | delete target =>
    rw [after_delete_eq_without]
    exact (variant?_without store target number).trans (if_neg (Ne.symm h))
  | alter alteration target =>
    rw [Alteration.target_on] at h
    obtain ⟨_, _, hfailed, hsame, _⟩ | ⟨_, variant, _, _, hvariant, _, hmade⟩ :=
      apply_on_cases store target alteration
    · rw [after, hfailed, variant?, hsame, variant?]
    · rw [after, hmade, variant?_enter, if_neg]
      rwa [number_of_variant? hvariant]

end Store

end Switchyard
