import Switchyard.Proofs.Store.Step
import Switchyard.Store.Server

/-!
The names under which a store holds its variants, and what operations do to them.

Changing a network leaves all names alone. A clone is refused or gives a name that no variant had to
a number that no variant had; a deletion is refused or frees one number. So a number keeps its name
until it is deleted (`nameAt_after`).
-/

namespace Switchyard

namespace Store

variable {store : Store} {number source target : UInt32} {name : String} {variant : Variant}

/-- The name of the variant with a number. -/
def nameAt (store : Store) (number : UInt32) : Option String :=
  (store.variant? number).map (·.name)

theorem nameAt_of_variant? (h : store.variant? number = some variant) :
    store.nameAt number = some variant.name := by
  rw [nameAt, h, Option.map_some]

theorem mem_variants_iff :
    variant ∈ store.variants ↔ store.variant? variant.number = some variant := by
  rw [variant?, Ascending.get?_eq_some_iff]
  exact ⟨fun h => ⟨h, rfl⟩, And.left⟩

theorem mem_infos_iff {info : VariantInfo} :
    info ∈ store.infos ↔ store.nameAt info.number = some info.name := by
  rw [infos, List.mem_map, nameAt, Option.map_eq_some_iff]
  constructor
  · rintro ⟨variant, hvariant, rfl⟩
    exact ⟨variant, mem_variants_iff.mp hvariant, rfl⟩
  · rintro ⟨variant, hvariant, hname⟩
    refine ⟨variant, (Ascending.get?_eq_some_iff.mp hvariant).1, ?_⟩
    rw [Variant.info, hname, number_of_variant? hvariant]

/-! ### Variants that come and go -/

theorem nameAt_enter (store : Store) (variant : Variant) (number : UInt32) :
    (store.enter variant).nameAt number =
      if variant.number = number then some variant.name else store.nameAt number := by
  rw [nameAt, variant?_enter]
  split <;> rfl

theorem nameAt_without (store : Store) (target number : UInt32) :
    (store.without target).nameAt number =
      if number = target then none else store.nameAt number := by
  rw [nameAt, variant?_without]
  split <;> rfl

/-! ### Networks that change -/

/-- An alteration changes no names. -/
theorem nameAt_after_on (store : Store) (target : UInt32) (alteration : Alteration)
    (number : UInt32) :
    (store.after (alteration.on target)).nameAt number = store.nameAt number := by
  obtain ⟨_, _, hfailed, hsame, _⟩ | ⟨_, variant, _, _, hvariant, _, hmade⟩ :=
    apply_on_cases store target alteration
  · rw [after, hfailed, nameAt, variant?, hsame]
    rfl
  · obtain rfl := number_of_variant? hvariant
    rw [after, hmade, nameAt_enter]
    split
    case isTrue hsame => rw [← hsame, nameAt_of_variant? hvariant]
    case isFalse => rfl

/-! ### Cloning and deleting -/

/-- A clone is refused, and as a taken number only if the number is taken; or number and name were
free, and the number holds a copy of the source. -/
theorem apply_clone_cases (store : Store) (source target : UInt32) (name : String) :
    (∃ fault, store.apply (.clone source target name) = (.error fault, store) ∧
      (fault.kind = .duplicateVariantNum ↔ store.nameAt target ≠ none) ∧
      (store.nameAt target ≠ none ∨ (∃ number, store.nameAt number = some name) ∨
        store.nameAt source = none)) ∨
    ∃ copied, store.variant? source = some copied ∧ store.nameAt target = none ∧
      (∀ number, store.nameAt number ≠ some name) ∧
      store.apply (.clone source target name) =
        (.ok (),
          store.enter ⟨target, name, copied.network.touchAll (store.lastGeneration + 1)⟩) := by
  have htaken : store.variants.hasKey target = true ↔ store.nameAt target ≠ none := by
    rw [Ascending.hasKey_eq_isSome, nameAt, variant?]
    cases store.variants.get? target <;> simp
  have hknown : (store.variants.toList.any (·.name = name)) = true ↔
      ∃ number, store.nameAt number = some name := by
    simp only [List.any_eq_true, decide_eq_true_eq, nameAt, Option.map_eq_some_iff]
    constructor
    · rintro ⟨variant, hvariant, hname⟩
      exact ⟨variant.number, variant, mem_variants_iff.mp hvariant, hname⟩
    · rintro ⟨number, variant, hvariant, hname⟩
      exact ⟨variant, (Ascending.get?_eq_some_iff.mp hvariant).1, hname⟩
  change (∃ fault, store.cloneVariant source target name = _ ∧ _) ∨
    ∃ copied, _ ∧ _ ∧ _ ∧ store.cloneVariant source target name = _
  unfold cloneVariant
  by_cases hnumber : store.variants.hasKey target = true
  · have hnumber' := htaken.mp hnumber
    exact .inl ⟨_, if_pos hnumber, by simp [Fault.kind, hnumber'], .inl hnumber'⟩
  have hfree : store.nameAt target = none := by simpa [htaken] using hnumber
  by_cases hname : (store.variants.toList.any (·.name = name)) = true
  · refine .inl ⟨_, by rw [if_neg hnumber, if_pos hname], by simp [Fault.kind, hfree], ?_⟩
    exact .inr (.inl (hknown.mp hname))
  rw [if_neg hnumber, if_neg hname]
  cases hsource : store.variant? source with
  | none =>
    refine .inl ⟨_, rfl, by simp [Fault.kind, hfree], .inr (.inr ?_)⟩
    rw [nameAt, hsource, Option.map_none]
  | some copied =>
    exact .inr ⟨copied, rfl, hfree, fun number h => hname (hknown.mpr ⟨number, h⟩),
      by simp [draw, enter]⟩

/-- A deletion is refused, or the variant is taken out. -/
theorem apply_delete_cases (store : Store) (target : UInt32) :
    (store.variant? target = none ∧
      store.apply (.delete target) = (.error (.variantNumberUnknown target), store)) ∨
    ∃ removed, store.variant? target = some removed ∧
      store.apply (.delete target) = (.ok (), store.without target) := by
  change (_ ∧ store.deleteVariant target = _) ∨ ∃ removed, _ ∧ store.deleteVariant target = _
  unfold deleteVariant
  rw [Ascending.hasKey_eq_isSome, variant?]
  cases store.variants.get? target with
  | none => exact .inl ⟨rfl, rfl⟩
  | some removed => exact .inr ⟨removed, rfl, rfl⟩

/-! ### Any operation -/

/-- What an operation makes of the name at a number: it stays, it is given where there was none, or
it is taken away. -/
theorem nameAt_after (store : Store) (operation : Operation) (number : UInt32) :
    (store.after operation).nameAt number = store.nameAt number ∨
      (∃ source name, operation = .clone source number name ∧ store.nameAt number = none ∧
        (∀ other, store.nameAt other ≠ some name) ∧
        (store.after operation).nameAt number = some name) ∨
      (operation = .delete number ∧ (store.after operation).nameAt number = none) := by
  cases operation using Operation.cases_kind with
  | alter alteration target => exact .inl (nameAt_after_on store target alteration number)
  | clone source target name =>
    rcases apply_clone_cases store source target name with
      ⟨_, hrefused, _⟩ | ⟨copied, _, hfree, hnew, hcloned⟩
    · rw [after, hrefused]
      exact .inl rfl
    · rw [after, hcloned, nameAt_enter]
      split
      case isTrue htarget =>
        dsimp only at htarget
        subst htarget
        exact .inr (.inl ⟨source, name, rfl, hfree, hnew, rfl⟩)
      case isFalse => exact .inl rfl
  | delete target =>
    rw [after_delete_eq_without, nameAt_without]
    split
    case isTrue htarget => exact .inr (.inr ⟨by rw [htarget], rfl⟩)
    case isFalse => exact .inl rfl

/-! ### Distinct names -/

/-- No two variants have one name. -/
def NamesDistinct (store : Store) : Prop :=
  ∀ number other name, store.nameAt number = some name → store.nameAt other = some name →
    number = other

theorem nameAt_new (number : UInt32) :
    new.nameAt number =
      if number = initialVariantNumber then some initialVariantName else none := by
  rw [nameAt, new, variant?, Ascending.get?_insert]
  change Option.map _ (if initialVariantNumber = number then _ else none) = _
  by_cases h : number = initialVariantNumber
  · rw [if_pos h, if_pos h.symm]
    rfl
  · rw [if_neg h, if_neg fun h' => h h'.symm]
    rfl

theorem namesDistinct_new : NamesDistinct new := by
  intro number other name hnumber hother
  rw [nameAt_new] at hnumber hother
  split at hnumber <;> split at hother <;> simp_all

theorem NamesDistinct.after (h : NamesDistinct store) (operation : Operation) :
    NamesDistinct (store.after operation) := by
  -- a name is as before, or it was given just now and nothing had it before
  have split : ∀ number name, (store.after operation).nameAt number = some name →
      store.nameAt number = some name ∨
        (∃ source, operation = .clone source number name) ∧
          ∀ other, store.nameAt other ≠ some name := by
    intro number name hnumber
    rcases nameAt_after store operation number with
      hsame | ⟨source, given, hoperation, _, hnew, hgiven⟩ | ⟨_, hnone⟩
    · exact .inl (hsame ▸ hnumber)
    · rw [hgiven] at hnumber
      cases hnumber
      exact .inr ⟨⟨source, hoperation⟩, hnew⟩
    · rw [hnone] at hnumber
      cases hnumber
  intro number other name hnumber hother
  rcases split _ _ hnumber with hold | ⟨⟨source, hclone⟩, hnew⟩ <;>
    rcases split _ _ hother with hold' | ⟨⟨source', hclone'⟩, hnew'⟩
  · exact h _ _ _ hold hold'
  · exact absurd hold (hnew' number)
  · exact absurd hold' (hnew other)
  · rw [hclone] at hclone'
    cases hclone'
    rfl

theorem NamesDistinct.answerRegistry (h : NamesDistinct store) (query : RegistryQuery) :
    NamesDistinct (store.answerRegistry query).2 := by
  cases query with
  | list => exact h
  | clone source target name => exact h.after (.clone source target name)
  | delete number => exact h.after (.delete number)

/-- The listed names are pairwise distinct. -/
theorem NamesDistinct.nodup_names (h : NamesDistinct store) :
    (store.infos.map (·.name)).Nodup := by
  rw [infos, List.map_map, List.Nodup, List.pairwise_map]
  refine store.variants.ascending.imp_of_mem fun {a b} ha hb hlt hname => ?_
  have hnumber := h a.number b.number a.name (nameAt_of_variant? (mem_variants_iff.mp ha))
    ((nameAt_of_variant? (mem_variants_iff.mp hb)).trans (congrArg some hname.symm))
  exact Ascending.ne_of_lt hlt hnumber

end Store

end Switchyard
