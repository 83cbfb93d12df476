import Switchyard.Proofs.Store.Names
import Switchyard.Proofs.Variant.Catalogue
import Switchyard.Proofs.Variant.Listing

/-!
A store's networks by name.

With distinct names, the networks of a store are found by name as well as by number. Entering a
variant whose number and name go together puts its network under its name, and taking a variant out
takes its network out; the names in use grow and shrink likewise. A list is exact that says of every
number what the store does.
-/

namespace Switchyard

namespace Store

variable {store : Store} {number : UInt32} {name : String} {variant : Variant}
  {entry : NamedNetwork}

/-- The networks of all variants, by name. -/
def networks (store : Store) : Ascending NamedNetwork.name :=
  .ofList NamedNetwork.name
    (store.variants.toList.map fun variant => ⟨variant.name, variant.network⟩)

theorem mem_networks (h : store.NamesDistinct) :
    entry ∈ store.networks ↔ ∃ number variant, store.variant? number = some variant ∧
      entry = ⟨variant.name, variant.network⟩ := by
  rw [networks, Ascending.mem_ofList]
  · simp only [List.mem_map]
    constructor
    · rintro ⟨variant, hvariant, rfl⟩
      exact ⟨variant.number, variant, mem_variants_iff.mp hvariant, rfl⟩
    · rintro ⟨number, variant, hvariant, rfl⟩
      exact ⟨variant, (Ascending.get?_eq_some_iff.mp hvariant).1, rfl⟩
  · -- two variants with one name are one variant
    simp only [List.mem_map]
    rintro _ ⟨variant, hvariant, rfl⟩ _ ⟨other, hother, rfl⟩ hname
    have hsame : variant.number = other.number :=
      h _ _ _ (nameAt_of_variant? (mem_variants_iff.mp hvariant))
        ((nameAt_of_variant? (mem_variants_iff.mp hother)).trans (congrArg some hname.symm))
    rw [Ascending.eq_of_key_eq hvariant hother hsame]

theorem get?_networks (h : store.NamesDistinct) (hvariant : store.variant? number = some variant) :
    store.networks.get? variant.name = some ⟨variant.name, variant.network⟩ :=
  Ascending.get?_eq_some_iff.mpr ⟨(mem_networks h).mpr ⟨number, variant, hvariant, rfl⟩, rfl⟩

theorem get?_networks_eq_none (h : store.NamesDistinct)
    (hname : ∀ number, store.nameAt number ≠ some name) : store.networks.get? name = none := by
  rw [Ascending.get?_eq_none_iff]
  intro entry hentry hsame
  obtain ⟨number, variant, hvariant, rfl⟩ := (mem_networks h).mp hentry
  exact hname number ((nameAt_of_variant? hvariant).trans (congrArg some hsame))

/-! ### Entering a variant -/

theorem variant?_enter_of_free (hfree : store.nameAt variant.number = none) {held : Variant}
    (hheld : store.variant? number = some held) :
    (store.enter variant).variant? number = some held := by
  rw [variant?_enter, if_neg, hheld]
  rintro rfl
  rw [nameAt_of_variant? hheld] at hfree
  cases hfree

/-- The variant's name and number go together, or are both new. -/
def Suits (store : Store) (variant : Variant) : Prop :=
  ∀ number name, store.nameAt number = some name →
    (number = variant.number ↔ name = variant.name)

theorem suits_of_new (hfree : store.nameAt variant.number = none)
    (hnew : ∀ number, store.nameAt number ≠ some variant.name) : store.Suits variant := by
  refine fun number name hname => ⟨?_, ?_⟩
  · rintro rfl
    rw [hfree] at hname
    cases hname
  · rintro rfl
    exact absurd hname (hnew number)

theorem NamesDistinct.enter (h : store.NamesDistinct) (hsuits : store.Suits variant) :
    (store.enter variant).NamesDistinct := by
  intro number other name hnumber hother
  rw [nameAt_enter] at hnumber hother
  split at hnumber <;> split at hother
  case isTrue.isTrue h₁ h₂ => exact h₁.symm.trans h₂
  case isTrue.isFalse h₁ h₂ =>
    cases hnumber
    exact absurd ((hsuits _ _ hother).mpr rfl).symm h₂
  case isFalse.isTrue h₁ h₂ =>
    cases hother
    exact absurd ((hsuits _ _ hnumber).mpr rfl).symm h₁
  case isFalse.isFalse => exact h _ _ _ hnumber hother

theorem networks_enter (h : store.NamesDistinct) (hsuits : store.Suits variant) :
    (store.enter variant).networks =
      store.networks.insert ⟨variant.name, variant.network⟩ := by
  refine Ascending.ext_mem fun entry => ?_
  rw [mem_networks (h.enter hsuits), Ascending.mem_insert, mem_networks h]
  constructor
  · rintro ⟨number, found, hfound, rfl⟩
    rw [variant?_enter] at hfound
    split at hfound
    case isTrue => cases hfound; exact .inl rfl
    case isFalse hnumber =>
      refine .inr ⟨⟨number, found, hfound, rfl⟩, fun hname => hnumber ?_⟩
      exact ((hsuits _ _ (nameAt_of_variant? hfound)).mpr hname).symm
  · rintro (rfl | ⟨⟨number, found, hfound, rfl⟩, hname⟩)
    · exact ⟨variant.number, variant, by rw [variant?_enter, if_pos rfl], rfl⟩
    · refine ⟨number, found, ?_, rfl⟩
      rw [variant?_enter, if_neg, hfound]
      exact fun hnumber => hname ((hsuits _ _ (nameAt_of_variant? hfound)).mp hnumber.symm)

/-- Writing to a variant that is there draws a generation, and enters the variant with its changed
network if the change can be made. -/
theorem write_of_variant? (hvariant : store.variant? number = some variant)
    (change : Nat → Network → Except Fault Network) :
    store.write number change =
      match change (store.lastGeneration + 1) variant.network with
      | .error fault => (.error fault, store.draw)
      | .ok network => (.ok (), store.enter { variant with network }) := by
  have hdrawn : store.draw.variant? number = some variant := hvariant
  rw [write, hdrawn]
  rfl

/-! ### Taking a variant out -/

theorem NamesDistinct.without (h : store.NamesDistinct) (target : UInt32) :
    (store.without target).NamesDistinct := by
  have hafter := h.after (.delete target)
  rwa [after_delete_eq_without] at hafter

/-- What a variant was called is free when the variant is gone. -/
theorem NamesDistinct.nameAt_without_ne (h : store.NamesDistinct)
    (hname : store.nameAt number = some name) (other : UInt32) :
    (store.without number).nameAt other ≠ some name := by
  rw [nameAt_without]
  split
  case isTrue => nofun
  case isFalse hother => exact fun hsame => hother (h _ _ _ hsame hname)

theorem networks_without (h : store.NamesDistinct)
    (hvariant : store.variant? number = some variant) :
    (store.without number).networks = store.networks.erase variant.name := by
  refine Ascending.ext_mem fun entry => ?_
  rw [mem_networks (h.without number), Ascending.mem_erase, mem_networks h]
  have hname := nameAt_of_variant? hvariant
  constructor
  · rintro ⟨other, found, hfound, rfl⟩
    rw [variant?_without] at hfound
    split at hfound
    case isTrue => cases hfound
    case isFalse hother =>
      refine ⟨⟨other, found, hfound, rfl⟩, fun hsame => hother ?_⟩
      exact h _ _ _ (nameAt_of_variant? hfound) (hname.trans (congrArg some hsame.symm))
  · rintro ⟨⟨other, found, hfound, rfl⟩, hsame⟩
    refine ⟨other, found, ?_, rfl⟩
    rw [variant?_without, if_neg, hfound]
    rintro rfl
    rw [hvariant] at hfound
    cases hfound
    exact hsame rfl

/-! ### The names in use -/

/-- The names of all variants. -/
def names (store : Store) : Finset String := (store.infos.map (·.name)).toFinset

theorem mem_names : name ∈ store.names ↔ ∃ number, store.nameAt number = some name := by
  rw [names, List.mem_toFinset, List.mem_map]
  constructor
  · rintro ⟨info, hinfo, rfl⟩
    exact ⟨info.number, mem_infos_iff.mp hinfo⟩
  · rintro ⟨number, hname⟩
    exact ⟨⟨number, name⟩, mem_infos_iff.mpr hname, rfl⟩

/-- A variant that is entered at a free number adds its name. -/
theorem names_enter (hfree : store.nameAt variant.number = none) :
    (store.enter variant).names = insert variant.name store.names := by
  ext name
  simp only [Finset.mem_insert, mem_names, nameAt_enter]
  constructor
  · rintro ⟨number, hname⟩
    split at hname
    case isTrue => cases hname; exact .inl rfl
    case isFalse => exact .inr ⟨number, hname⟩
  · rintro (rfl | ⟨number, hname⟩)
    · exact ⟨variant.number, if_pos rfl⟩
    · refine ⟨number, ?_⟩
      rw [if_neg, hname]
      rintro rfl
      rw [hfree] at hname
      cases hname

/-- A variant that is taken out takes its name along. -/
theorem names_without (h : store.NamesDistinct) (hname : store.nameAt number = some name) :
    (store.without number).names = store.names.erase name := by
  ext other
  simp only [Finset.mem_erase, mem_names]
  constructor
  · rintro ⟨held, hother⟩
    refine ⟨?_, held, ?_⟩
    · rintro rfl
      exact h.nameAt_without_ne hname held hother
    · rw [nameAt_without] at hother
      split at hother
      · cases hother
      · exact hother
  · rintro ⟨hne, held, hother⟩
    refine ⟨held, ?_⟩
    rw [nameAt_without, if_neg, hother]
    rintro rfl
    rw [hname] at hother
    cases hother
    exact hne rfl

/-! ### Exact lists -/

/-- The list says of every number what the store does. -/
def Exact (infos : List VariantInfo) (store : Store) : Prop :=
  ∀ info, info ∈ infos ↔ store.nameAt info.number = some info.name

variable {infos : List VariantInfo} {info : VariantInfo}

theorem exact_infos (store : Store) : Exact store.infos store := fun _ => mem_infos_iff

theorem Exact.enter (h : Exact infos store) (hfree : store.nameAt variant.number = none) :
    Exact (infos ++ [variant.info]) (store.enter variant) := by
  intro info
  rw [nameAt_enter, List.mem_append, List.mem_singleton, h]
  split
  case isTrue hnumber =>
    rw [← hnumber, hfree]
    obtain ⟨number, name⟩ := info
    cases hnumber
    simp [Variant.info, eq_comm]
  case isFalse hnumber =>
    refine or_iff_left fun hinfo => hnumber ?_
    rw [hinfo]
    rfl

theorem Exact.without (h : Exact infos store) (number : UInt32) :
    Exact (infos.filter (·.number ≠ number)) (store.without number) := by
  intro info
  rw [nameAt_without, List.mem_filter, h]
  split <;> simp_all

/-- The numbers in use are those that the store gives names to. -/
theorem Exact.mem_numbers (h : Exact infos store) :
    number ∈ VariantInfo.numbers infos ↔ store.nameAt number ≠ none := by
  rw [VariantInfo.mem_numbers, Option.ne_none_iff_exists']
  constructor
  · rintro ⟨info, hinfo, rfl⟩
    exact ⟨info.name, (h info).mp hinfo⟩
  · rintro ⟨name, hname⟩
    exact ⟨⟨number, name⟩, (h _).mpr hname, rfl⟩

/-- What is found by name is there. -/
theorem Exact.of_find? (h : Exact infos store) (hfind : VariantInfo.find? name infos = some info) :
    ∃ network, store.variant? info.number = some ⟨info.number, name, network⟩ := by
  obtain ⟨hinfo, rfl⟩ := VariantInfo.of_find? hfind
  obtain ⟨⟨number, found, network⟩, hvariant, hname⟩ :=
    Option.map_eq_some_iff.mp ((h info).mp hinfo)
  obtain rfl := number_of_variant? hvariant
  cases hname
  exact ⟨network, hvariant⟩

theorem Exact.of_find?_none (h : Exact infos store) (hfind : VariantInfo.find? name infos = none)
    (number : UInt32) : store.nameAt number ≠ some name :=
  fun hname => VariantInfo.find?_eq_none_iff.mp hfind _ ((h ⟨number, name⟩).mpr hname) rfl

theorem Exact.of_numberOf (h : Exact infos store)
    (hnumber : VariantInfo.numberOf name infos = .ok number) :
    ∃ network, store.variant? number = some ⟨number, name, network⟩ := by
  obtain ⟨info, hfind, rfl⟩ := VariantInfo.numberOf_eq_ok_iff.mp hnumber
  exact h.of_find? hfind

/-- A variant that is there can be deleted. -/
theorem delete_registry (hvariant : store.variant? number = some variant) :
    registry.answer (.delete number) store = (.ok (), store.without number) := by
  rcases apply_delete_cases store number with ⟨hnone, _⟩ | ⟨_, _, hdeleted⟩
  · rw [hnone] at hvariant
    cases hvariant
  · exact hdeleted

end Store

end Switchyard
