import Switchyard.Proofs.Store.Networks
import Switchyard.Proofs.Store.Redating

/-!
Two stores that hold the same of one variant, whatever they hold of others.

The counters of two such stores need not agree, so the levels of the variant may have different
generations in them. What an operation does to the variant is the same in both, and it dates a level
in the one if and only if it does so in the other. So if two generations belong to a level at the
same time, they are given up at the same time (`Synchronous`), and this is how far a cache looks at
generations. Operations that are addressed to other variants do nothing of this kind, as long as no
clone is granted to the number of the variant.
-/

namespace Switchyard

/-- Whether the operation alters or deletes the variant with the number. A clone does not: where it
is granted, there was no such variant. -/
def Operation.alters (number : UInt32) : Operation → Bool
  | .clone _ _ _ => false
  | operation => operation.target = number

theorem Operation.alters_iff {number : UInt32} {operation : Operation} :
    operation.alters number = true ↔ operation = .delete number ∨
      ∃ alteration : Alteration, operation = alteration.on number := by
  constructor
  · intro h
    cases operation using Operation.cases_kind with
    | clone source target name => cases h
    | delete target => exact .inl (congrArg Operation.delete (of_decide_eq_true h))
    | alter alteration target =>
      obtain rfl : target = number := by cases alteration <;> exact of_decide_eq_true h
      exact .inr ⟨alteration, rfl⟩
  · rintro (rfl | ⟨alteration, rfl⟩)
    · exact decide_eq_true rfl
    · cases alteration <;> exact decide_eq_true rfl

namespace Store

variable {store first second first' second' first'' second'' : Store} {number : UInt32}
  {level : String} {operation : Operation} {operations : List Operation}
  {generation generation' : Nat}

/-! ### What leaves a variant alone -/

/-- A write to a variant that is not there draws a generation. -/
theorem write_of_none (h : store.variant? number = none)
    (change : Nat → Network → Except Fault Network) :
    store.write number change = (.error (.variantNumberUnknown number), store.draw) := by
  have hdrawn : store.draw.variant? number = none := h
  rw [write, hdrawn]

/-- No clone is granted to the number while the operations are carried out. -/
def Withholds (number : UInt32) (store : Store) (operations : List Operation) : Prop :=
  ∀ earlier source name, earlier ++ [.clone source number name] <+: operations →
    ((store.run earlier).apply (.clone source number name)).1 ≠ .ok ()

theorem Withholds.of_append {first second : List Operation}
    (h : Withholds number store (first ++ second)) :
    Withholds number store first ∧ Withholds number (store.run first) second := by
  refine ⟨fun earlier source name hearlier => ?_, fun earlier source name hearlier => ?_⟩
  · exact h earlier source name (hearlier.trans (List.prefix_append first second))
  · rw [← run_append]
    refine h (first ++ earlier) source name ?_
    rw [List.append_assoc]
    exact (List.prefix_append_right_inj first).mpr hearlier

/-- Where no clone to the number is asked for, none is granted. -/
theorem withholds_of_forall
    (h : ∀ operation ∈ operations, operation.alters number = true ∨ operation.target ≠ number) :
    Withholds number store operations := by
  intro earlier source name hearlier
  obtain halters | htarget := h _ (hearlier.subset (List.mem_append_right _ List.mem_cons_self))
  · cases halters
  · exact absurd rfl htarget

/-- What does not alter a variant leaves it alone, unless it is a clone that is granted to its
number. -/
theorem variant?_after_of_not_alters (h : operation.alters number ≠ true)
    (hwithholds : Withholds number store [operation]) :
    (store.after operation).variant? number = store.variant? number := by
  by_cases htarget : operation.target = number
  · cases operation using Operation.cases_kind with
    | clone source target name =>
      obtain rfl : target = number := htarget
      obtain ⟨_, hsame, _⟩ | ⟨_, _, _, _, hgranted⟩ :=
        apply_clone_cases store source target name
      · rw [after, hsame]
      · exact absurd (congrArg Prod.fst hgranted) (hwithholds [] source name List.prefix_rfl)
    | delete target => exact absurd (Operation.alters_iff.mpr (.inl (congrArg _ htarget))) h
    | alter alteration target =>
      obtain rfl : target = number := (alteration.target_on target).symm.trans htarget
      exact absurd (Operation.alters_iff.mpr (.inr ⟨alteration, rfl⟩)) h
  · exact variant?_after_of_ne htarget

/-! ### Generations of a level -/

/-- The generation of a level of a variant. -/
def generation? (store : Store) (number : UInt32) (level : String) : Option Nat :=
  (store.edition? number level).map (·.generation)

theorem generation?_congr (h : first.variant? number = second.variant? number) :
    first.generation? number level = second.generation? number level := by
  rw [generation?, edition?, record?, h]
  rfl

theorem generation?_of_variant?_none (h : store.variant? number = none) :
    store.generation? number level = none := by
  rw [generation?, edition?, record?, h]
  rfl

theorem generation?_of_variant? {variant : Variant} (h : store.variant? number = some variant) :
    store.generation? number level = (variant.network.record? level).map (·.generation) := by
  rw [generation?, edition?, record?, h, Option.bind_some, Option.map_map]
  rfl

theorem generation?_of_level {found : Resource VoltageLevel}
    (h : store.level number level = .ok found) :
    store.generation? number level = some found.attributes.generation := by
  obtain ⟨record, hrecord, hgeneration, _⟩ := record?_of_level h
  rw [generation?, edition?_of_record? hrecord, Option.map_some, ← hgeneration]

theorem WellDated.drawnBy (h : store.WellDated) {variant : Variant}
    (hvariant : store.variant? number = some variant) :
    variant.network.DrawnBy store.lastGeneration := by
  intro level record hrecord
  have hheld : store.record? number level = some record := by
    rw [record?, hvariant]
    exact hrecord
  exact h.drawn number level record.toEdition (edition?_of_record? hheld)

/-- A generation that was drawn before an operation was the level's before it. -/
theorem generation?_of_after
    (h : (store.after operation).generation? number level = some generation)
    (hdrawn : generation ≤ store.lastGeneration) :
    store.generation? number level = some generation := by
  obtain ⟨edition, hedition, rfl⟩ := Option.map_eq_some_iff.mp h
  rw [generation?, edition?_of_after hedition hdrawn, Option.map_some]

/-- Two generations that were drawn, and that a level has in both stores or in neither. -/
structure Synchronous (number : UInt32) (level : String) (first second : Store)
    (generation generation' : Nat) : Prop where
  drawn : generation ≤ first.lastGeneration
  drawn' : generation' ≤ second.lastGeneration
  holds_iff : first.generation? number level = some generation ↔
    second.generation? number level = some generation'

/-- The generations that a level has in two well-dated stores. -/
theorem Synchronous.of_held (hdated : first.WellDated) (hdated' : second.WellDated)
    (h : first.generation? number level = some generation)
    (h' : second.generation? number level = some generation') :
    Synchronous number level first second generation generation' := by
  have drawn : ∀ {store : Store} {generation : Nat}, store.WellDated →
      store.generation? number level = some generation → generation ≤ store.lastGeneration := by
    intro store generation hdated hheld
    obtain ⟨edition, hedition, rfl⟩ := Option.map_eq_some_iff.mp hheld
    exact hdated.drawn number level edition hedition
  exact ⟨drawn hdated h, drawn hdated' h', iff_of_true h h'⟩

theorem Synchronous.symm (h : Synchronous number level first second generation generation') :
    Synchronous number level second first generation' generation :=
  ⟨h.drawn', h.drawn, h.holds_iff.symm⟩

/-- If an operation dates a level in both stores or in neither, a generation that is not given up in
the first store is not given up in the second. -/
theorem Synchronous.held_after
    (h : Synchronous number level first second generation generation')
    (hages : ((first.after operation).generation? number level).map
        (Network.age first.lastGeneration) =
      ((second.after operation).generation? number level).map
        (Network.age second.lastGeneration))
    (hheld : (first.after operation).generation? number level = some generation) :
    (second.after operation).generation? number level = some generation' := by
  have hsecond := h.holds_iff.mp (generation?_of_after hheld h.drawn)
  rw [hheld, Option.map_some, eq_comm, Option.map_eq_some_iff] at hages
  obtain ⟨later, hlater, hage⟩ := hages
  have hold := Network.age_eq_one_iff.mp (hage.trans (Network.age_eq_one_iff.mpr h.drawn))
  rw [generation?_of_after hlater hold] at hsecond
  rw [hlater, hsecond]

/-! ### Two stores -/

/-- Well-dated stores that hold the same of a variant, generations aside. -/
structure Alike (number : UInt32) (first second : Store) : Prop where
  dated : first.WellDated
  dated' : second.WellDated
  undated : (first.variant? number).map (·.network.undated) =
    (second.variant? number).map (·.network.undated)

/-- The stores became alike stores, and gave up the generations of the variant's levels at the same
time. -/
structure Apace (number : UInt32) (first second first' second' : Store) : Prop where
  alike : Alike number first' second'
  keeps : ∀ level generation generation',
    Synchronous number level first second generation generation' →
      Synchronous number level first' second' generation generation'

theorem Alike.refl (h : store.WellDated) (number : UInt32) : Alike number store store := ⟨h, h, rfl⟩

/-- Stores that are each alike to a third are alike. -/
theorem Alike.trans_symm {third : Store} (h : Alike number first third)
    (h' : Alike number second third) : Alike number first second :=
  ⟨h.dated, h'.dated, h.undated.trans h'.undated.symm⟩

theorem Apace.refl (h : Alike number first second) : Apace number first second first second :=
  ⟨h, fun _ _ _ => id⟩

theorem Apace.trans (h : Apace number first second first' second')
    (h' : Apace number first' second' first'' second'') :
    Apace number first second first'' second'' :=
  ⟨h'.alike, fun level generation generation' hsync =>
    h'.keeps level generation generation' (h.keeps level generation generation' hsync)⟩

namespace Alike

/-- The variant is there in both stores or in neither. -/
theorem variant?_cases (h : Alike number first second) :
    (first.variant? number = none ∧ second.variant? number = none) ∨
      ∃ variant variant', first.variant? number = some variant ∧
        second.variant? number = some variant' ∧
        variant.network.undated = variant'.network.undated := by
  have hsame := h.undated
  cases hfirst : first.variant? number <;> cases hsecond : second.variant? number <;>
    rw [hfirst, hsecond] at hsame
  · exact .inl ⟨rfl, rfl⟩
  · cases hsame
  · cases hsame
  · exact .inr ⟨_, _, rfl, rfl, Option.some.inj hsame⟩

/-- Operations that leave the variant alone in each store. -/
theorem apace_of_variant? (h : Alike number first second) (firsts seconds : List Operation)
    (hfirst : (first.run firsts).variant? number = first.variant? number)
    (hsecond : (second.run seconds).variant? number = second.variant? number) :
    Apace number first second (first.run firsts) (second.run seconds) where
  alike := ⟨h.dated.run firsts, h.dated'.run seconds, by rw [hfirst, hsecond, h.undated]⟩
  keeps level generation generation' hsync := by
    refine ⟨Nat.le_trans hsync.drawn (lastGeneration_le_run first firsts),
      Nat.le_trans hsync.drawn' (lastGeneration_le_run second seconds), ?_⟩
    rw [generation?_congr hfirst, generation?_congr hsecond, hsync.holds_iff]

/-- An operation that leaves the variants what they are apart from generations, and dates the same
levels of both. -/
theorem apace_of_ages (h : Alike number first second)
    (hundated : ((first.after operation).variant? number).map (·.network.undated) =
      ((second.after operation).variant? number).map (·.network.undated))
    (hages : ∀ level, ((first.after operation).generation? number level).map
        (Network.age first.lastGeneration) =
      ((second.after operation).generation? number level).map
        (Network.age second.lastGeneration)) :
    Apace number first second (first.after operation) (second.after operation) where
  alike := ⟨h.dated.after operation, h.dated'.after operation, hundated⟩
  keeps level _ _ hsync :=
    ⟨Nat.le_trans hsync.drawn (lastGeneration_le_after first operation),
      Nat.le_trans hsync.drawn' (lastGeneration_le_after second operation),
      hsync.held_after (hages level), hsync.symm.held_after (hages level).symm⟩

/-- What fails, in both stores and with one fault, leaves the variant alone. -/
theorem apace_of_failed (h : Alike number first second) {fault : Fault}
    (hfirst : first.apply operation = (.error fault, first.draw))
    (hsecond : second.apply operation = (.error fault, second.draw)) :
    (first.apply operation).1 = (second.apply operation).1 ∧
      Apace number first second (first.after operation) (second.after operation) := by
  refine ⟨by rw [hfirst, hsecond], h.apace_of_variant? [operation] [operation] ?_ ?_⟩
  · rw [run_cons, run_nil, after, hfirst]
    rfl
  · rw [run_cons, run_nil, after, hsecond]
    rfl

/-- An alteration has the same result in both stores, and dates the same levels. -/
theorem alter (h : Alike number first second) (alteration : Alteration) :
    (first.apply (alteration.on number)).1 = (second.apply (alteration.on number)).1 ∧
      Apace number first second (first.after (alteration.on number))
        (second.after (alteration.on number)) := by
  have hfirst := Alteration.apply_on first number alteration
  have hsecond := Alteration.apply_on second number alteration
  cases hchange : alteration.change with
  | error fault =>
    rw [hchange] at hfirst hsecond
    rw [after, after, hfirst, hsecond]
    exact ⟨rfl, .refl h⟩
  | ok change =>
    rw [hchange] at hfirst hsecond
    obtain ⟨hnone, hnone'⟩ | ⟨variant, variant', hvariant, hvariant', hundated⟩ := h.variant?_cases
    · exact h.apace_of_failed (hfirst.trans (write_of_none hnone change))
        (hsecond.trans (write_of_none hnone' change))
    · have hsame := Network.redate_eq_of_change alteration hchange (h.dated.drawnBy hvariant)
        (h.dated'.drawnBy hvariant') hundated
      replace hfirst := hfirst.trans (write_of_variant? hvariant change)
      replace hsecond := hsecond.trans (write_of_variant? hvariant' change)
      cases hok : change (first.lastGeneration + 1) variant.network <;>
        cases hok' : change (second.lastGeneration + 1) variant'.network <;>
        rw [hok, hok'] at hsame <;> rw [hok] at hfirst <;> rw [hok'] at hsecond
      case error.error => cases hsame; exact h.apace_of_failed hfirst hsecond
      case error.ok => cases hsame
      case ok.error => cases hsame
      case ok.ok network network' =>
        have hredated := Except.ok.inj hsame
        have hentered := number_of_variant? hvariant
        have hentered' := number_of_variant? hvariant'
        replace hvariant : (first.after (alteration.on number)).variant? number =
            some { variant with network } := by
          rw [after, hfirst, variant?_enter, if_pos hentered]
        replace hvariant' : (second.after (alteration.on number)).variant? number =
            some { variant' with network := network' } := by
          rw [after, hsecond, variant?_enter, if_pos hentered']
        refine ⟨by rw [hfirst, hsecond], h.apace_of_ages ?_ fun level => ?_⟩
        · rw [hvariant, hvariant']
          exact congrArg some (Network.undated_eq_of_redate_eq hredated)
        · rw [generation?_of_variant? hvariant, generation?_of_variant? hvariant']
          exact Network.ages_eq_of_redate_eq hredated level

/-- Deleting the variant gives up all its generations. -/
theorem delete (h : Alike number first second) :
    Apace number first second (first.after (.delete number)) (second.after (.delete number)) := by
  have hgone : ∀ store : Store, (store.after (.delete number)).variant? number = none := by
    intro store
    rw [after_delete_eq_without, variant?_without, if_pos rfl]
  refine h.apace_of_ages (by rw [hgone, hgone]) fun level => ?_
  rw [generation?_of_variant?_none (hgone first), generation?_of_variant?_none (hgone second)]
  rfl

/-- One store carries out some operations, and the other those of them that alter the variant. -/
theorem run (h : Alike number first second) (hwithholds : Withholds number first operations) :
    Apace number first second (first.run operations)
      (second.run (operations.filter (·.alters number))) := by
  induction operations generalizing first second with
  | nil => exact .refl h
  | cons operation rest ih =>
    obtain ⟨hone, hrest⟩ : Withholds number first [operation] ∧
      Withholds number (first.run [operation]) rest := Withholds.of_append hwithholds
    by_cases halters : operation.alters number = true
    · have hstep : Apace number first second (first.after operation) (second.after operation) := by
        obtain rfl | ⟨alteration, rfl⟩ := Operation.alters_iff.mp halters
        · exact h.delete
        · exact (h.alter alteration).2
      rw [List.filter_cons_of_pos halters]
      exact hstep.trans (ih hstep.alike hrest)
    · have hstep : Apace number first second (first.after operation) second :=
        h.apace_of_variant? [operation] [] (variant?_after_of_not_alters halters hone) rfl
      rw [List.filter_cons_of_neg halters]
      exact hstep.trans (ih hstep.alike hrest)

end Alike

end Store

end Switchyard
