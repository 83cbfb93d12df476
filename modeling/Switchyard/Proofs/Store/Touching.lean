import Switchyard.Proofs.Store.Frame

/-!
Which levels an operation touches, and which levels share a generation.

A level is touched by a clone into its variant and by an alteration that changes what is listed for
it. A level that is touched is dated with the one generation that the operation draws, and a level
that is not touched is held as before. So the generation of a level tells which operation touched it
last, and of no other operation. It does not tell which of the levels that this operation touched it
belongs to: both ends of a branch, all legs of a transformer, all levels of what is removed under
one id and all levels of a clone get the same.
-/

namespace Switchyard

/-- The operation succeeds and touches the level: all levels of the target of a clone, and the
levels that an alteration touches. -/
def Operation.Touches (operation : Operation) (store : Store) (number : UInt32) (level : String) :
    Prop :=
  (store.apply operation).1 = .ok () ∧
    ((∃ source name, operation = .clone source number name) ∨
      ∃ (alteration : Alteration) (network : Network), operation = alteration.on number ∧
        store.network number = .ok network ∧ level ∈ alteration.touched network)

namespace Store

variable {store : Store} {operation : Operation} {operations : List Operation}
  {number other : UInt32} {level level' : String} {record : LevelRecord} {edition : Edition}

/-! ### One operation -/

/-- A level that is touched belongs to the target, and gets the generation that is drawn. -/
theorem record?_of_touches (h : operation.Touches store number level) :
    operation.target = number ∧
      (store.after operation).lastGeneration = store.lastGeneration + 1 ∧
      ∀ record, (store.after operation).record? number level = some record →
        record.generation = store.lastGeneration + 1 ∧ record.valid = false := by
  obtain ⟨hok, ⟨source, name, rfl⟩ | ⟨alteration, network, rfl, hnetwork, hlevel⟩⟩ := h
  · obtain ⟨_, hrefused, _⟩ | ⟨copied, _, _, _, hgranted⟩ :=
      apply_clone_cases store source number name
    · rw [hrefused] at hok
      cases hok
    · rw [after, hgranted]
      refine ⟨rfl, rfl, fun record hrecord => ?_⟩
      rw [record?_enter, if_pos rfl] at hrecord
      exact Network.record?_touchAll hrecord
  · obtain ⟨_, _, hfailed, _⟩ | ⟨change, variant, changed, hchange, hvariant, hmade, hgranted⟩ :=
      apply_on_cases store number alteration
    · rw [hfailed] at hok
      cases hok
    · obtain ⟨held, hheld, rfl⟩ := exists_variant_of_network hnetwork
      cases hvariant.symm.trans hheld
      rw [after, hgranted]
      refine ⟨alteration.target_on number, rfl, fun record hrecord => ?_⟩
      rw [record?_enter, if_pos (number_of_variant? hvariant)] at hrecord
      exact Alteration.record?_of_touched hchange hmade hlevel hrecord

/-- A level that is not touched stays as it is, unless its flag is set or its variant deleted. -/
theorem record?_of_not_touches (h : ¬ operation.Touches store number level)
    (hdelete : operation ≠ .delete number)
    (hflag : ∀ value, operation ≠ .setValid number level value) :
    (store.after operation).record? number level = store.record? number level := by
  by_cases htarget : operation.target = number
  · cases operation using Operation.cases_kind with
    | clone source target name =>
      obtain rfl : target = number := htarget
      obtain ⟨_, hrefused, _⟩ | ⟨_, _, _, _, hgranted⟩ :=
        apply_clone_cases store source target name
      · rw [after, hrefused]
      · exact absurd ⟨by rw [hgranted], .inl ⟨source, name, rfl⟩⟩ h
    | delete target => exact absurd (congrArg Operation.delete htarget) hdelete
    | alter alteration target =>
      rw [Alteration.target_on] at htarget
      subst htarget
      obtain ⟨_, _, hfailed, hsame, _⟩ | ⟨change, variant, _, hchange, hvariant, hok, hmade⟩ :=
        apply_on_cases store target alteration
      · refine record?_congr ?_ level
        rw [after, hfailed, variant?, hsame, variant?]
      · have hnetwork : store.network target = .ok variant.network := by rw [network, hvariant]
        have hlevel : level ∉ alteration.touched variant.network := fun hlevel =>
          h ⟨by rw [hmade], .inr ⟨alteration, variant.network, rfl, hnetwork, hlevel⟩⟩
        have hkept := Alteration.record?_of_not_touched hchange hok hlevel
          fun value hset => hflag value (congrArg (Alteration.on target) hset)
        rw [after, hmade, record?_enter, if_pos (number_of_variant? hvariant), record?, hvariant]
        exact hkept
  · exact record?_congr (variant?_after_of_ne htarget) level

/-- Setting the flag of a level sets it. -/
theorem record?_after_setValid (store : Store) (number : UInt32) (level : String) (value : Bool) :
    (store.after (.setValid number level value)).record? number level =
      (store.record? number level).map ({ · with valid := value }) := by
  obtain ⟨_, _, hfailed, hsame, _⟩ | ⟨_, variant, _, hchange, hvariant, hok, hmade⟩ :=
    apply_on_cases store number (.setValid level value)
  · change store.apply (.setValid number level value) = _ at hfailed
    cases hrecord : store.record? number level with
    | none =>
      rw [Option.map_none, ← hrecord]
      refine record?_congr ?_ level
      rw [after, hfailed, variant?, hsame, variant?]
    | some record =>
      have hset := apply_setValid hrecord value
      rw [hfailed] at hset
      cases hset
  · cases hchange
    change store.apply (.setValid number level value) = _ at hmade
    rw [after, hmade, record?_enter, if_pos (number_of_variant? hvariant), record?, hvariant]
    exact (Network.record?_setValid hok).trans (if_pos rfl)

/-- A level that is not touched keeps its edition. -/
theorem edition?_of_not_touches (h : ¬ operation.Touches store number level)
    (hedition : (store.after operation).edition? number level = some edition) :
    store.edition? number level = some edition := by
  by_cases hdelete : operation = .delete number
  · rw [hdelete, edition?, record?, after_delete_eq_without, variant?_without, if_pos rfl]
      at hedition
    cases hedition
  by_cases hflag : ∃ value, operation = .setValid number level value
  · obtain ⟨value, rfl⟩ := hflag
    rw [edition?, record?_after_setValid, Option.map_map] at hedition
    exact hedition
  · rw [edition?, record?_of_not_touches h hdelete fun value hset => hflag ⟨value, hset⟩]
      at hedition
    exact hedition

/-! ### Runs -/

/-- Some operation touched a level that is held, and it has kept what it became then. -/
theorem touched_of_edition? (operations : List Operation) {i : Nat}
    (h : (moment operations i).edition? number level = some edition) :
    ∃ k < i, ∃ operation, operations[k]? = some operation ∧
      operation.Touches (moment operations k) number level ∧
      edition.generation = (moment operations k).lastGeneration + 1 ∧
      (moment operations (k + 1)).edition? number level = some edition := by
  induction i with
  | zero =>
    rw [moment_zero, edition?_new] at h
    cases h
  | succ i ih =>
    cases hop : operations[i]? with
    | none =>
      rw [moment_succ_of_none hop] at h
      obtain ⟨k, hk, hrest⟩ := ih h
      exact ⟨k, by omega, hrest⟩
    | some operation =>
      by_cases htouches : operation.Touches (moment operations i) number level
      · obtain ⟨_, _, hdated⟩ := record?_of_touches htouches
        refine ⟨i, Nat.lt_succ_self i, operation, hop, htouches, ?_, h⟩
        rw [moment_succ hop] at h
        obtain ⟨record, hrecord, rfl⟩ := Option.map_eq_some_iff.mp h
        exact (hdated record hrecord).1
      · rw [moment_succ hop] at h
        obtain ⟨k, hk, hrest⟩ := ih (edition?_of_not_touches htouches h)
        exact ⟨k, by omega, hrest⟩

/-- Operations that draw generations draw different ones. -/
theorem lastGeneration_lt_of_touches {i j : Nat} (hij : i < j)
    (hop : operations[i]? = some operation)
    (h : operation.Touches (moment operations i) number level) :
    (moment operations i).lastGeneration < (moment operations j).lastGeneration := by
  obtain ⟨_, hdrawn, _⟩ := record?_of_touches h
  have hlater := lastGeneration_le_run (moment operations (i + 1))
    ((operations.take j).drop (i + 1))
  rw [← moment_eq_run operations hij, moment_succ hop, hdrawn] at hlater
  exact hlater

/-- Operations of a run that touch something and draw the same generation are one and the same. -/
theorem eq_of_touches {i j : Nat} {operation' : Operation} (hop : operations[i]? = some operation)
    (hop' : operations[j]? = some operation')
    (h : operation.Touches (moment operations i) number level)
    (h' : operation'.Touches (moment operations j) other level')
    (hsame : (moment operations i).lastGeneration = (moment operations j).lastGeneration) :
    i = j := by
  rcases Nat.lt_trichotomy i j with hlt | heq | hgt
  · exact absurd hsame (Nat.ne_of_lt (lastGeneration_lt_of_touches hlt hop h))
  · exact heq
  · exact absurd hsame.symm (Nat.ne_of_lt (lastGeneration_lt_of_touches hgt hop' h'))

/-! ### Generations that are shared -/

/-- Levels of one generation, held at any two moments of a run, were touched last by one operation:
the one that drew this generation. They belong to one variant, and a level that has one generation
twice has not changed. Levels that one operation touches do get one generation, whichever they
are. -/
theorem shared_generation_comes_of_one_operation (operations : List Operation) :
    (∀ i j number other level level' record record',
      (moment operations i).record? number level = some record →
      (moment operations j).record? other level' = some record' →
      record.generation = record'.generation →
        number = other ∧ (level = level' → record.toEdition = record'.toEdition) ∧
        ∃ k operation, k < i ∧ k < j ∧ operations[k]? = some operation ∧
          record.generation = (moment operations k).lastGeneration + 1 ∧
          operation.Touches (moment operations k) number level ∧
          operation.Touches (moment operations k) other level') ∧
    ∀ k operation number level level' record record',
      operations[k]? = some operation →
      operation.Touches (moment operations k) number level →
      operation.Touches (moment operations k) number level' →
      (moment operations (k + 1)).record? number level = some record →
      (moment operations (k + 1)).record? number level' = some record' →
        record.generation = record'.generation := by
  refine ⟨?_, ?_⟩
  · intro i j number other level level' record record' hrecord hrecord' hsame
    obtain ⟨k, hk, operation, hop, htouches, hdrawn, hsince⟩ :=
      touched_of_edition? operations (edition?_of_record? hrecord)
    obtain ⟨k', hk', operation', hop', htouches', hdrawn', hsince'⟩ :=
      touched_of_edition? operations (edition?_of_record? hrecord')
    have hgenerations : (moment operations k).lastGeneration =
        (moment operations k').lastGeneration := by
      rw [hdrawn, hdrawn'] at hsame
      omega
    obtain rfl : k = k' := eq_of_touches hop hop' htouches htouches' hgenerations
    obtain rfl : operation = operation' := Option.some.inj (hop.symm.trans hop')
    have htarget := (record?_of_touches htouches).1
    obtain rfl : number = other := htarget.symm.trans (record?_of_touches htouches').1
    refine ⟨rfl, ?_, k, operation, hk, hk', hop, hdrawn, htouches, htouches'⟩
    rintro rfl
    exact Option.some.inj (hsince.symm.trans hsince')
  · intro k operation number level level' record record' hop htouches htouches' hrecord hrecord'
    rw [moment_succ hop] at hrecord hrecord'
    obtain ⟨hdated, _⟩ := (record?_of_touches htouches).2.2 record hrecord
    obtain ⟨hdated', _⟩ := (record?_of_touches htouches').2.2 record' hrecord'
    rw [hdated, hdated']

/-- Two levels that a line is entered between. -/
def lineBetween : List Operation :=
  [.addLevel 0 ⟨"A", .voltageLevel, { kind := .nodeBreaker }⟩,
    .addLevel 0 ⟨"B", .voltageLevel, { kind := .nodeBreaker }⟩,
    .addBranch 0 ⟨"L", .line, { one := { level := "A" }, two := { level := "B" } }⟩]

/-- The generation that both levels have is that of the line, which touched them both. -/
theorem shared_generation_comes_of_one_operation_line :
    ∃ k operation first second,
      (moment lineBetween 3).record? 0 "A" = some first ∧
      (moment lineBetween 3).record? 0 "B" = some second ∧
      k < 3 ∧ lineBetween[k]? = some operation ∧
      first.generation = (moment lineBetween k).lastGeneration + 1 ∧
      operation.Touches (moment lineBetween k) 0 "A" ∧
      operation.Touches (moment lineBetween k) 0 "B" := by
  obtain ⟨hshared, _⟩ := shared_generation_comes_of_one_operation lineBetween
  obtain ⟨_, _, k, operation, hk, _, hop, hdrawn, hfirst, hsecond⟩ :=
    hshared 3 3 0 0 "A" "B" _ _ rfl rfl rfl
  exact ⟨k, operation, _, _, rfl, rfl, hk, hop, hdrawn, hfirst, hsecond⟩

/-- Both ends of a line have one generation, so generations do not tell levels apart. -/
theorem line_gives_both_ends_one_generation :
    ¬ ∀ (operations : List Operation) i j number other level level' record record',
      (moment operations i).record? number level = some record →
      (moment operations j).record? other level' = some record' →
      record.generation = record'.generation → number = other ∧ level = level' := by
  intro hdistinct
  obtain ⟨_, hsame⟩ := hdistinct lineBetween 3 3 0 0 "A" "B" _ _ rfl rfl rfl
  exact absurd hsame (by decide)

end Store

end Switchyard
