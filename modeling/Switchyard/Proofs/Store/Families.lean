import Switchyard.Proofs.Store.Alike

/-!
What is true of every network of a store, whatever was done to it.

All networks begin empty and come about by alterations and clones. So what holds of the empty
network and is kept by both (`Network.Kept`) holds of every network of a store at any time
(`network_of_run`). One such fact is that resources are of the families that they are entered in:
an alteration refuses an injection or a branch of another type, and no switch or removal alters a
type (`kept_wellTyped`).
-/

namespace Switchyard

variable {network : Network} {number : UInt32} {generation : Nat}

/-! ### Facts that are kept -/

/-- The fact holds of the empty network, and alterations and clones keep it. -/
structure Network.Kept (fact : Network → Prop) : Prop where
  empty : fact {}
  alter : ∀ (alteration : Alteration) change, alteration.change = .ok change →
    ∀ generation before after, fact before → change generation before = .ok after → fact after
  clone : ∀ generation network, fact network → fact (network.touchAll generation)

namespace Store

variable {store : Store} {fact : Network → Prop}

/-- The fact holds of the networks of all variants. -/
def Everywhere (fact : Network → Prop) (store : Store) : Prop :=
  ∀ number variant, store.variant? number = some variant → fact variant.network

theorem Everywhere.enter (h : store.Everywhere fact) {entered : Variant}
    (hentered : fact entered.network) : (store.enter entered).Everywhere fact := by
  intro number variant hvariant
  rw [variant?_enter] at hvariant
  split at hvariant
  · cases hvariant
    exact hentered
  · exact h number variant hvariant

/-- One operation keeps the fact everywhere. -/
theorem Everywhere.after (hkept : Network.Kept fact) (h : store.Everywhere fact)
    (operation : Operation) : (store.after operation).Everywhere fact := by
  cases operation using Operation.cases_kind with
  | clone source target name =>
    rw [Store.after]
    obtain ⟨_, hsame, _⟩ | ⟨copied, hcopied, _, _, hgranted⟩ :=
      apply_clone_cases store source target name
    · rw [hsame]
      exact h
    · rw [hgranted]
      exact h.enter (hkept.clone _ _ (h source copied hcopied))
  | delete target =>
    rw [after_delete_eq_without]
    intro number variant hvariant
    rw [variant?_without] at hvariant
    split at hvariant
    · cases hvariant
    · exact h number variant hvariant
  | alter alteration target =>
    rw [Store.after]
    obtain ⟨_, failed, hfailed, hsame, _⟩ | ⟨change, variant, _, hchange, hvariant, hok, hmade⟩ :=
      apply_on_cases store target alteration
    · rw [hfailed]
      intro number variant hvariant
      rw [variant?, hsame] at hvariant
      exact h number variant hvariant
    · rw [hmade]
      exact h.enter (hkept.alter alteration change hchange _ _ _ (h target variant hvariant) hok)

theorem Everywhere.run (hkept : Network.Kept fact) (operations : List Operation)
    (h : store.Everywhere fact) : (store.run operations).Everywhere fact := by
  induction operations generalizing store with
  | nil => exact h
  | cons operation operations ih => exact ih (h.after hkept operation)

theorem everywhere_new (hkept : Network.Kept fact) : new.Everywhere fact := by
  intro number variant hvariant
  have hmem := (Ascending.get?_eq_some_iff.mp hvariant).1
  rw [new, Ascending.mem_insert] at hmem
  obtain rfl | ⟨hmem, _⟩ := hmem
  · exact hkept.empty
  · cases hmem

/-- Whatever was done to a store, the fact holds of every network of it. -/
theorem network_of_run (hkept : Network.Kept fact) (operations : List Operation)
    (h : (new.run operations).network number = .ok network) : fact network := by
  rw [Store.network] at h
  split at h
  · cases h
  · next variant hvariant =>
    cases h
    exact (everywhere_new hkept).run hkept operations number variant hvariant

end Store

/-! ### The families of resources -/

namespace Network

/-- Injections and branches are of types that are listed for their families. -/
structure WellTyped (network : Network) : Prop where
  injections : ∀ r ∈ network.injections, r.type.isInjection = true
  branches : ∀ r ∈ network.branches, r.type.isBranch = true

/-- A network with no other injections and branches is well typed too. -/
theorem WellTyped.of_subset {before after : Network} (h : before.WellTyped)
    (hinjections : after.injections ⊆ before.injections)
    (hbranches : after.branches ⊆ before.branches) : after.WellTyped :=
  ⟨fun r hr => h.injections r (hinjections hr), fun r hr => h.branches r (hbranches hr)⟩

theorem WellTyped.updateSwitch {before after : Network} (h : before.WellTyped) {id : String}
    {f : Switch → Switch} (hok : before.updateSwitch id f generation = .ok after) :
    after.WellTyped := by
  unfold Network.updateSwitch at hok
  split at hok <;> cases hok
  exact h.of_subset (List.Subset.refl _) (List.Subset.refl _)

theorem WellTyped.removeEquipment {before after : Network} (h : before.WellTyped) {id : String}
    (hok : before.removeEquipment id generation = .ok after) : after.WellTyped := by
  unfold Network.removeEquipment at hok
  split at hok <;> cases hok
  exact h.of_subset (List.filter_subset_self _) (List.filter_subset_self _)

theorem WellTyped.setValid {before after : Network} (h : before.WellTyped) {level : String}
    {value : Bool} (hok : before.setValid level value = .ok after) : after.WellTyped := by
  unfold Network.setValid at hok
  split at hok <;> cases hok
  exact h.of_subset (List.Subset.refl _) (List.Subset.refl _)

/-- Every network of a store is well typed. -/
theorem kept_wellTyped : Kept WellTyped where
  empty := ⟨fun _ hr => absurd hr List.not_mem_nil, fun _ hr => absurd hr List.not_mem_nil⟩
  clone _ _ h := h.of_subset (List.Subset.refl _) (List.Subset.refl _)
  alter := by
    intro alteration change hchange generation before after h hok
    cases alteration with
    | addLevel | addTransformer | addSwitch =>
      cases hchange
      cases hok
      exact h.of_subset (List.Subset.refl _) (List.Subset.refl _)
    | addInjection injection =>
      rw [Alteration.change] at hchange
      split at hchange
      case isFalse => cases hchange
      case isTrue htype =>
        cases hchange
        cases hok
        refine ⟨fun r hr => ?_, h.branches⟩
        rcases List.mem_append.mp hr with hr | hr
        · exact h.injections r hr
        · rwa [List.mem_singleton.mp hr]
    | addBranch branch =>
      rw [Alteration.change] at hchange
      split at hchange
      case isFalse => cases hchange
      case isTrue htype =>
        cases hchange
        cases hok
        refine ⟨h.injections, fun r hr => ?_⟩
        rcases List.mem_append.mp hr with hr | hr
        · exact h.branches r hr
        · rwa [List.mem_singleton.mp hr]
    | setOpen | setRetained =>
      cases hchange
      exact h.updateSwitch hok
    | removeEquipment =>
      cases hchange
      exact h.removeEquipment hok
    | setValid =>
      cases hchange
      exact h.setValid hok

end Network

end Switchyard
