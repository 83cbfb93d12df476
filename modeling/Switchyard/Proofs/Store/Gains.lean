import Switchyard.Proofs.Store.Networks

/-!
What a store gains by answering.

A question that deletes nothing takes nothing away: a list or a refused clone leaves the store as it
is, and a clone that is granted enters a copy at a number and under a name that were free.
-/

namespace Switchyard

/-- The name that a copy is given, where a clone is granted. -/
def RegistryQuery.given? : (query : RegistryQuery) → Except Fault query.Answer → Option String
  | .clone _ _ name, .ok _ => some name
  | _, _ => none

namespace Store

/-- What a store gains by one answer: nothing, or a copy of one of its variants, at a number and
under a name that were free. -/
inductive Gains (store : Store) : Option String → Store → Prop
  | nothing : Gains store none store
  | copy {source number : UInt32} {name : String} {copied : Variant}
      (hcopied : store.variant? source = some copied) (hnumber : store.nameAt number = none)
      (hname : ∀ other, store.nameAt other ≠ some name) :
    Gains store (some name)
      (store.enter ⟨number, name, copied.network.touchAll (store.lastGeneration + 1)⟩)

variable {store after : Store} {given : Option String}

/-- A question other than a deletion gains the store what it is granted. -/
theorem gains_answerRegistry (store : Store) (query : RegistryQuery)
    (hquery : ∀ number, query ≠ .delete number) :
    Gains store (query.given? (store.answerRegistry query).1) (store.answerRegistry query).2 := by
  cases query with
  | list => exact .nothing
  | clone source number name =>
    have happly : store.answerRegistry (.clone source number name) =
      store.apply (.clone source number name) := rfl
    rw [happly]
    rcases apply_clone_cases store source number name with
      ⟨_, hrefused, _⟩ | ⟨copied, hcopied, hnumber, hname, hcloned⟩
    · rw [hrefused]
      exact .nothing
    · rw [hcloned]
      exact .copy hcopied hnumber hname
  | delete number => exact absurd rfl (hquery number)

namespace Gains

/-- A store that only gains loses nothing. -/
theorem variant?_eq (h : Gains store given after) {number : UInt32} {held : Variant}
    (hheld : store.variant? number = some held) : after.variant? number = some held := by
  cases h with
  | nothing => exact hheld
  | copy _ hnumber => exact variant?_enter_of_free hnumber hheld

theorem eq_of_none (h : Gains store none after) : after = store := by
  cases h
  rfl

theorem nameAt_eq (h : Gains store given after) {number : UInt32} {name : String}
    (hname : store.nameAt number = some name) : after.nameAt number = some name := by
  obtain ⟨held, hheld, rfl⟩ := Option.map_eq_some_iff.mp hname
  exact nameAt_of_variant? (h.variant?_eq hheld)

/-- A name that is there was there before, or it was given just now. -/
theorem nameAt_cases (h : Gains store given after) {number : UInt32} {name : String}
    (hname : after.nameAt number = some name) :
    store.nameAt number = some name ∨ given = some name := by
  cases h with
  | nothing => exact .inl hname
  | copy =>
    rw [nameAt_enter] at hname
    split at hname
    · exact .inr hname
    · exact .inl hname

/-- The names are those that there were and the one that was given. -/
theorem names_perm (h : Gains store given after) :
    (after.infos.map (·.name)).Perm (store.infos.map (·.name) ++ given.toList) := by
  cases h with
  | nothing => exact .of_eq (List.append_nil _).symm
  | @copy _ number name copied _ hnumber =>
    let entered : Variant := ⟨number, name, copied.network.touchAll (store.lastGeneration + 1)⟩
    have hkey : ∀ variant ∈ store.variants, variant.number ≠ entered.number := by
      rintro variant hvariant rfl
      rw [nameAt_of_variant? (mem_variants_iff.mp hvariant)] at hnumber
      cases hnumber
    refine .trans ?_ (List.perm_append_singleton name _).symm
    exact ((Ascending.insert_perm (x := entered) hkey).map Variant.info).map (·.name)

end Gains

end Store

end Switchyard
