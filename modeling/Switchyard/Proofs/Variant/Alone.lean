import Switchyard.Proofs.Store.Networks

/-!
A session that manages the variants of a store alone.

The store keeps variants by number, and the context has the number of the working variant. What can
be told of them without numbers is a catalogue. Entering a variant, replacing one and taking one out
do to the catalogue what their names say, as long as names are distinct and the working variant is
there (`Sound`).
-/

namespace Switchyard

/-! ### A session and its store -/

/-- A store, and the context of the one session that manages its variants. -/
structure Alone where
  store : Store
  context : Context

namespace Alone

open Dialogue

/-- A new store, and a session that has not done anything yet. -/
def new : Alone := ⟨.new, {}⟩

/-- The session carries out a command. -/
def perform (alone : Alone) (command : Command) : Seen × Alone :=
  let session := command.session.start alone.context
  let ((result, context), store) := session.run Store.registry alone.store
  (⟨result, (session.transcript Store.registry alone.store).filterMap Exchange.notice?⟩,
    ⟨store, context⟩)

/-- The variant with a name is altered in the store. -/
def alter (alone : Alone) (name : String) (alteration : Alteration) : Seen × Alone :=
  match VariantInfo.numberOf name alone.store.infos with
  | .error fault => (⟨.error fault, []⟩, alone)
  | .ok number =>
    let (result, store) := alone.store.apply (alteration.on number)
    (⟨result.map fun _ => .done, []⟩, { alone with store })

/-- What comes of a deed. -/
def step (alone : Alone) : Deed → Seen × Alone
  | .command command => alone.perform command
  | .alter name alteration => alone.alter name alteration

/-- The name of the working variant. -/
def workingName (alone : Alone) : Option String := alone.context.working.bind alone.store.nameAt

/-- What can be told of the variants without numbers. -/
def catalogue (alone : Alone) : Catalogue where
  networks := alone.store.networks
  working := alone.workingName
  lastGeneration := alone.store.lastGeneration

/-- Names are distinct, and the working variant is there. -/
structure Sound (alone : Alone) : Prop where
  distinct : alone.store.NamesDistinct
  present : ∀ number, alone.context.working = some number → alone.store.nameAt number ≠ none

/-- What a deed is seen to do, and makes of a session and its store, is what comes of it in a
catalogue. -/
def Follows (next : Seen × Alone) (expected : Seen × Catalogue) : Prop :=
  expected = (next.1, next.2.catalogue) ∧ next.2.Sound

variable {store : Store} {context : Context} {variant : Variant} {number : UInt32}

/-! ### What happens to the catalogue -/

theorem Sound.network? (h : Sound ⟨store, context⟩)
    (hvariant : store.variant? number = some variant) :
    (catalogue ⟨store, context⟩).network? variant.name = some variant.network := by
  rw [Catalogue.network?, catalogue, Store.get?_networks h.distinct hvariant, Option.map_some]

theorem Sound.network?_eq_none (h : Sound ⟨store, context⟩) {name : String}
    (hname : ∀ number, store.nameAt number ≠ some name) :
    (catalogue ⟨store, context⟩).network? name = none := by
  rw [Catalogue.network?, catalogue, Store.get?_networks_eq_none h.distinct hname, Option.map_none]

/-- Where the working variant keeps its name, the session goes on as before. -/
theorem Sound.keep (h : Sound ⟨store, context⟩) {after : Store} (hdistinct : after.NamesDistinct)
    (hkept : ∀ number, context.working = some number → after.nameAt number = store.nameAt number) :
    Sound ⟨after, context⟩ ∧ workingName ⟨after, context⟩ = workingName ⟨store, context⟩ :=
  ⟨⟨hdistinct, fun number hworking =>
    (hkept number hworking).trans_ne (h.present number hworking)⟩, Option.bind_congr hkept⟩

/-- A variant is entered under a number and a name that are both new. -/
theorem Sound.create (h : Sound ⟨store, context⟩) (hfree : store.nameAt variant.number = none)
    (hnew : ∀ number, store.nameAt number ≠ some variant.name) :
    Sound ⟨store.enter variant, context⟩ ∧ catalogue ⟨store.enter variant, context⟩ =
      (catalogue ⟨store, context⟩).put variant.name variant.network := by
  have hsuits := Store.suits_of_new hfree hnew
  obtain ⟨hsound, hworking⟩ := h.keep (h.distinct.enter hsuits) fun number hworking => by
    rw [Store.nameAt_enter, if_neg]
    rintro rfl
    exact h.present _ hworking hfree
  refine ⟨hsound, ?_⟩
  rw [catalogue, hworking, Store.networks_enter h.distinct hsuits]
  rfl

/-- A variant is entered in place of one with its name. The context follows it to its number. -/
theorem Sound.replace (h : Sound ⟨store, context⟩) {old : UInt32} {removed : Variant}
    (variant : Variant) (hold : store.variant? old = some removed)
    (hname : removed.name = variant.name)
    (hfree : (store.without old).nameAt variant.number = none) :
    let replaced : Alone := ⟨(store.without old).enter variant,
      if context.isWorkingOn old then .workingOn variant.number else context⟩
    replaced.Sound ∧
      replaced.catalogue = (catalogue ⟨store, context⟩).put variant.name variant.network := by
  have holdName : store.nameAt old = some variant.name :=
    (Store.nameAt_of_variant? hold).trans (congrArg some hname)
  have hsuits := Store.suits_of_new hfree (h.distinct.nameAt_without_ne holdName)
  have hnetworks : ((store.without old).enter variant).networks =
      store.networks.insert ⟨variant.name, variant.network⟩ := by
    rw [Store.networks_enter (h.distinct.without old) hsuits,
      Store.networks_without h.distinct hold, hname]
    exact Ascending.insert_erase _ _
  have hdistinct := (h.distinct.without old).enter hsuits
  dsimp only
  by_cases hworking : context.working = some old
  · have hafter :
        ((store.without old).enter variant).nameAt variant.number = some variant.name := by
      rw [Store.nameAt_enter, if_pos rfl]
    simp only [Context.isWorkingOn, hworking, decide_true, reduceIte]
    refine ⟨⟨hdistinct, fun number hnumber => ?_⟩, ?_⟩
    · cases hnumber
      rw [hafter]
      simp
    · simp only [catalogue, hnetworks, workingName, Context.workingOn, hworking, Option.bind_some,
        hafter, holdName]
      rfl
  · simp only [Context.isWorkingOn, hworking, decide_false, Bool.false_eq_true, reduceIte]
    obtain ⟨hsound, hworkingName⟩ := h.keep hdistinct fun number hnumber => by
      have hother : number ≠ old := by
        rintro rfl
        exact hworking hnumber
      rw [Store.nameAt_enter, Store.nameAt_without, if_neg hother, if_neg]
      rintro rfl
      rw [Store.nameAt_without, if_neg hother] at hfree
      exact h.present _ hnumber hfree
    refine ⟨hsound, ?_⟩
    rw [catalogue, hnetworks, hworkingName]
    rfl

/-- A variant is taken out. A context that works on it is left without a working variant. -/
theorem Sound.discard (h : Sound ⟨store, context⟩)
    (hvariant : store.variant? number = some variant) :
    let left : Alone := ⟨store.without number,
      if context.isWorkingOn number then .unset else context⟩
    let before := catalogue ⟨store, context⟩
    left.Sound ∧ left.catalogue = { before with
      networks := before.networks.erase variant.name
      working := if before.working = some variant.name then none else before.working } := by
  have hdistinct := h.distinct.without number
  have hnetworks := Store.networks_without h.distinct hvariant
  have hname := Store.nameAt_of_variant? hvariant
  dsimp only
  by_cases hworking : context.working = some number
  · simp only [Context.isWorkingOn, hworking, decide_true, reduceIte]
    refine ⟨⟨hdistinct, nofun⟩, ?_⟩
    simp only [catalogue, hnetworks, workingName, hworking, Option.bind_some, hname, reduceIte]
    rfl
  · simp only [Context.isWorkingOn, hworking, decide_false, Bool.false_eq_true, reduceIte]
    obtain ⟨hsound, hworkingName⟩ := h.keep hdistinct fun other hother => by
      rw [Store.nameAt_without, if_neg]
      rintro rfl
      exact hworking hother
    have hother : workingName ⟨store, context⟩ ≠ some variant.name := by
      intro hsame
      obtain ⟨other, hother, hsame⟩ := Option.bind_eq_some_iff.mp hsame
      exact hworking (h.distinct _ _ _ hsame hname ▸ hother)
    refine ⟨hsound, ?_⟩
    simp only [catalogue, hnetworks, hworkingName, hother, reduceIte]
    rfl

/-- The network of a variant is changed. -/
theorem Sound.rewrite (h : Sound ⟨store, context⟩) (hvariant : store.variant? number = some variant)
    (network : Network) :
    let changed : Alone := ⟨store.enter { variant with network }, context⟩
    changed.Sound ∧
      changed.catalogue = (catalogue ⟨store, context⟩).put variant.name network := by
  obtain rfl := Store.number_of_variant? hvariant
  have hname := Store.nameAt_of_variant? hvariant
  have hsuits : store.Suits { variant with network } := by
    refine fun number name hnumber => ⟨?_, ?_⟩
    · rintro rfl
      exact Option.some.inj (hnumber.symm.trans hname)
    · rintro rfl
      exact h.distinct _ _ _ hnumber hname
  obtain ⟨hsound, hworking⟩ := h.keep (h.distinct.enter hsuits) fun number _ => by
    rw [Store.nameAt_enter]
    split
    case isTrue hsame => rw [← hsame, hname]
    case isFalse => rfl
  refine ⟨hsound, ?_⟩
  rw [catalogue, hworking, Store.networks_enter h.distinct hsuits]
  rfl

end Alone

end Switchyard
