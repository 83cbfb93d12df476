import Switchyard.Proofs.Store.Step

/-!
What the generation of a voltage level says about it, over any run of operations.

A new store has no levels, and an operation dates a level only with a generation that it draws. So a
generation that had been drawn before a run is held after it only by levels that the run left alone
(`edition?_of_run`), and no two variants ever share one (`WellDated`). Main statement: whoever finds
one generation at two moments finds one and the same contents, whatever became of the variant in
between; generations of a level only grow; and a valid flag was raised after the last change.
-/

namespace Switchyard

namespace Store

variable {store : Store} {operations : List Operation} {number other : UInt32} {level : String}
  {edition : Edition} {record : LevelRecord}

/-- The store after some operations, those that fail included. -/
def run (store : Store) (operations : List Operation) : Store := operations.foldl after store

@[simp] theorem run_nil (store : Store) : store.run [] = store := rfl

@[simp] theorem run_cons (store : Store) (operation : Operation) (operations : List Operation) :
    store.run (operation :: operations) = (store.after operation).run operations := rfl

theorem run_append (store : Store) (first second : List Operation) :
    store.run (first ++ second) = (store.run first).run second :=
  List.foldl_append

theorem run_concat (store : Store) (operations : List Operation) (operation : Operation) :
    store.run (operations ++ [operation]) = (store.run operations).after operation :=
  run_append store operations [operation]

/-- The edition of a level that a variant holds. -/
def edition? (store : Store) (number : UInt32) (level : String) : Option Edition :=
  (store.record? number level).map LevelRecord.toEdition

theorem edition?_of_record? (h : store.record? number level = some record) :
    store.edition? number level = some record.toEdition := by
  rw [edition?, h, Option.map_some]

theorem lastGeneration_le_run (store : Store) (operations : List Operation) :
    store.lastGeneration ≤ (store.run operations).lastGeneration := by
  induction operations generalizing store with
  | nil => exact Nat.le_refl _
  | cons operation rest ih => exact Nat.le_trans (lastGeneration_le_after store operation) (ih _)

/-! ### Old generations -/

/-- An operation leaves alone every level that does not come out of it with a new generation. -/
theorem edition?_of_after {operation : Operation}
    (h : (store.after operation).edition? number level = some edition)
    (hold : edition.generation ≤ store.lastGeneration) :
    store.edition? number level = some edition := by
  obtain ⟨record, hrecord, rfl⟩ := Option.map_eq_some_iff.mp h
  cases fate hrecord with
  | dated _ later _ _ => omega
  | kept old held hedition _ => rw [edition?_of_record? held, hedition]

/-- An edition whose generation is older than a run was there before the run. -/
theorem edition?_of_run (h : (store.run operations).edition? number level = some edition)
    (hold : edition.generation ≤ store.lastGeneration) :
    store.edition? number level = some edition := by
  induction operations generalizing store with
  | nil => exact h
  | cons operation rest ih =>
    have hlater := Nat.le_trans hold (lastGeneration_le_after store operation)
    exact edition?_of_after (ih h hlater) hold

/-! ### Well-dated stores -/

/-- All generations held were drawn, and those of different variants are different. -/
structure WellDated (store : Store) : Prop where
  drawn : ∀ number level edition, store.edition? number level = some edition →
    edition.generation ≤ store.lastGeneration
  apart : ∀ number other level level' edition edition',
    store.edition? number level = some edition → store.edition? other level' = some edition' →
      edition.generation = edition'.generation → number = other

theorem edition?_new : new.edition? number level = none := by
  rw [edition?, record?, new, variant?, Ascending.get?_insert]
  split <;> rfl

theorem wellDated_new : WellDated new where
  drawn _ _ _ h := by rw [edition?_new] at h; cases h
  apart _ _ _ _ _ _ h := by rw [edition?_new] at h; cases h

theorem WellDated.after (hs : WellDated store) (operation : Operation) :
    WellDated (store.after operation) := by
  -- every edition is new and the target's, or old and known to the store before
  have split : ∀ number level edition,
      (store.after operation).edition? number level = some edition →
      (operation.target = number ∧ store.lastGeneration < edition.generation ∧
        edition.generation ≤ (store.after operation).lastGeneration) ∨
      store.edition? number level = some edition := by
    intro number level edition h
    obtain ⟨record, hrecord, rfl⟩ := Option.map_eq_some_iff.mp h
    cases fate hrecord with
    | dated target later drawn _ => exact .inl ⟨target, later, drawn⟩
    | kept old held hedition _ => exact .inr (by rw [edition?_of_record? held, hedition])
  refine ⟨fun number level edition h => ?_, fun number other level level' a b ha hb hab => ?_⟩
  · rcases split _ _ _ h with ⟨_, _, drawn⟩ | held
    · exact drawn
    · exact Nat.le_trans (hs.drawn _ _ _ held) (lastGeneration_le_after store operation)
  · rcases split _ _ _ ha with ⟨ta, la, _⟩ | helda <;>
      rcases split _ _ _ hb with ⟨tb, lb, _⟩ | heldb
    · rw [← ta, ← tb]
    · have := hs.drawn _ _ _ heldb
      omega
    · have := hs.drawn _ _ _ helda
      omega
    · exact hs.apart _ _ _ _ _ _ helda heldb hab

theorem WellDated.run (hs : WellDated store) (operations : List Operation) :
    WellDated (store.run operations) := by
  induction operations generalizing store with
  | nil => exact hs
  | cons operation rest ih => exact ih (hs.after operation)

/-- Generations only grow along a run, and one that is found again stands for the same edition. -/
theorem edition?_along_run (hs : WellDated store) {late : Edition}
    (hearly : store.edition? number level = some edition)
    (hlate : (store.run operations).edition? number level = some late) :
    edition.generation ≤ late.generation ∧
      (edition.generation = late.generation → edition = late) := by
  have hdrawn := hs.drawn _ _ _ hearly
  rcases Nat.lt_or_ge store.lastGeneration late.generation with hnew | hold
  · exact ⟨by omega, by omega⟩
  · have hsame : edition = late :=
      Option.some.inj (hearly.symm.trans (edition?_of_run hlate hold))
    exact ⟨Nat.le_of_eq (by rw [hsame]), fun _ => hsame⟩

/-- A generation that one variant holds before a run is held by no other after it. -/
theorem number_eq_along_run (hs : WellDated store) {late : Edition} {level' : String}
    (hearly : store.edition? number level = some edition)
    (hlate : (store.run operations).edition? other level' = some late)
    (h : edition.generation = late.generation) : number = other := by
  have hold : late.generation ≤ store.lastGeneration := h ▸ hs.drawn _ _ _ hearly
  exact hs.apart _ _ _ _ _ _ hearly (edition?_of_run hlate hold) h

/-! ### The moments of a run -/

/-- The store after the first operations of a run that starts with a new store. -/
def moment (operations : List Operation) (count : Nat) : Store := new.run (operations.take count)

theorem wellDated_moment (operations : List Operation) (count : Nat) :
    WellDated (moment operations count) :=
  wellDated_new.run _

theorem moment_zero (operations : List Operation) : moment operations 0 = new := rfl

/-- Of two moments the later one is reached from the earlier one. -/
theorem moment_eq_run (operations : List Operation) {i j : Nat} (h : i ≤ j) :
    moment operations j = (moment operations i).run ((operations.take j).drop i) := by
  have hprefix : (operations.take j).take i = operations.take i := by
    rw [List.take_take, Nat.min_eq_left h]
  rw [moment, moment, ← run_append, ← hprefix, List.take_append_drop]

theorem moment_succ {operation : Operation} {i : Nat} (h : operations[i]? = some operation) :
    moment operations (i + 1) = (moment operations i).after operation := by
  rw [moment, List.take_add_one, h, Option.toList_some, run_concat, moment]

theorem moment_succ_of_none {i : Nat} (h : operations[i]? = none) :
    moment operations (i + 1) = moment operations i := by
  rw [moment, List.take_add_one, h, Option.toList_none, List.append_nil, moment]

/-- A valid flag was raised by a `setValid`, and the level has been left alone ever since. -/
theorem raised_of_valid (operations : List Operation) {i : Nat}
    (h : (moment operations i).record? number level = some record) (hvalid : record.valid = true) :
    ∃ k < i, operations[k]? = some (.setValid number level true) ∧
      ∀ j, k ≤ j → j ≤ i → (moment operations j).edition? number level = some record.toEdition := by
  induction i generalizing record with
  | zero =>
    have hnone : new.edition? number level = none := edition?_new
    rw [← moment_zero operations, edition?_of_record? h] at hnone
    cases hnone
  | succ i ih =>
    have hnow := edition?_of_record? h
    -- the flag was up before this operation, or it is the one that raised it
    have hback : (∃ old, (moment operations i).record? number level = some old ∧
          old.valid = true ∧ record.toEdition = old.toEdition) ∨
        (operations[i]? = some (.setValid number level true) ∧
          (moment operations i).edition? number level = some record.toEdition) := by
      cases hop : operations[i]? with
      | none => exact .inl ⟨record, by rw [moment_succ_of_none hop] at h; exact h, hvalid, rfl⟩
      | some operation =>
        rw [moment_succ hop] at h
        cases fate h with
        | dated _ _ _ invalid => rw [hvalid] at invalid; cases invalid
        | kept old held hedition flag =>
          rcases flag with flag | flag
          · exact .inl ⟨old, held, by rw [← flag, hvalid], hedition⟩
          · rw [flag, hvalid]
            exact .inr ⟨rfl, by rw [edition?_of_record? held, hedition]⟩
    rcases hback with ⟨old, hold, holdvalid, hedition⟩ | ⟨hraise, hbefore⟩
    · obtain ⟨k, hk, hraise, hsince⟩ := ih hold holdvalid
      refine ⟨k, by omega, hraise, fun j hkj hji => ?_⟩
      rcases Nat.lt_or_ge i j with hlast | hearlier
      · obtain rfl : j = i + 1 := by omega
        exact hnow
      · rw [hedition]
        exact hsince j hkj hearlier
    · refine ⟨i, Nat.lt_succ_self i, hraise, fun j hij hji => ?_⟩
      rcases Nat.lt_or_ge i j with hlast | hearlier
      · obtain rfl : j = i + 1 := by omega
        exact hnow
      · obtain rfl : j = i := by omega
        exact hbefore

end Store

/-! ### The attributes that a caller gives -/

/-- The operation without the flag and the generation that the caller gives an entered level. -/
def Operation.unstamped : Operation → Operation
  | .addLevel variant entered =>
    .addLevel variant
      { entered with attributes := { entered.attributes with valid := false, generation := 0 } }
  | operation => operation

/-- Entering a level sets its flag and generation, so those it is entered with do not count. -/
theorem Network.addLevel_unstamped (network : Network) (entered : Resource VoltageLevel)
    (generation : Nat) :
    network.addLevel
        { entered with attributes := { entered.attributes with valid := false, generation := 0 } }
        generation =
      network.addLevel entered generation := by
  unfold addLevel touch updateLevels
  congr 1
  refine Ascending.ext_mem fun found => ?_
  simp only [Ascending.mem_map, Ascending.mem_insert]
  constructor
  · rintro ⟨old, rfl | hold, rfl⟩
    · exact ⟨entered, .inl rfl, by simp [VoltageLevel.touch]⟩
    · exact ⟨old, .inr hold, rfl⟩
  · rintro ⟨old, rfl | hold, rfl⟩
    · exact ⟨_, .inl rfl, by simp [VoltageLevel.touch]⟩
    · exact ⟨old, .inr hold, rfl⟩

namespace Store

theorem apply_unstamped (store : Store) (operation : Operation) :
    store.apply operation.unstamped = store.apply operation := by
  cases operation with
  | addLevel variant entered =>
    simp only [Operation.unstamped, apply, Network.addLevel_unstamped]
  | _ => rfl

theorem run_unstamped (store : Store) (operations : List Operation) :
    store.run (operations.map Operation.unstamped) = store.run operations := by
  induction operations generalizing store with
  | nil => rfl
  | cons operation rest ih =>
    rw [List.map_cons, run_cons, run_cons, ih, after, apply_unstamped, after]

/-- Runs that differ only in the attributes given by callers go through the same stores. -/
theorem moment_congr {operations restamped : List Operation}
    (h : restamped.map Operation.unstamped = operations.map Operation.unstamped) (i : Nat) :
    moment restamped i = moment operations i := by
  rw [moment, ← run_unstamped, List.map_take, h, ← List.map_take, run_unstamped, moment]

/-! ### The contract -/

/-- Over every run from a new store: levels of one variant that have one generation at two moments
have the same contents at both; the generation of a level never decreases; levels of different
variants never have the same generation; a valid flag was raised by `setValid`, since when the level
has kept its contents; and the flags and generations that levels are entered with do not matter. -/
theorem generation_identifies_contents (operations : List Operation) :
    (∀ i j number level early late,
      (moment operations i).record? number level = some early →
      (moment operations j).record? number level = some late →
        (early.generation = late.generation → early.contents = late.contents) ∧
        (i ≤ j → early.generation ≤ late.generation)) ∧
    (∀ i j number other level level' record record',
      (moment operations i).record? number level = some record →
      (moment operations j).record? other level' = some record' →
        record.generation = record'.generation → number = other) ∧
    (∀ i number level record,
      (moment operations i).record? number level = some record → record.valid = true →
        ∃ k < i, operations[k]? = some (.setValid number level true) ∧
          ∀ j, k ≤ j → j ≤ i →
            (moment operations j).edition? number level = some record.toEdition) ∧
    (∀ restamped : List Operation,
      restamped.map Operation.unstamped = operations.map Operation.unstamped →
        ∀ i, moment restamped i = moment operations i ∧
          restamped[i]?.map (moment restamped i).apply =
            operations[i]?.map (moment operations i).apply) := by
  refine ⟨?_, ?_, ?_, ?_⟩
  · intro i j number level early late hearly hlate
    have hi := edition?_of_record? hearly
    have hj := edition?_of_record? hlate
    rcases Nat.le_total i j with h | h
    · rw [moment_eq_run operations h] at hj
      obtain ⟨hle, hsame⟩ := edition?_along_run (wellDated_moment operations i) hi hj
      exact ⟨fun e => congrArg Edition.contents (hsame e), fun _ => hle⟩
    · rw [moment_eq_run operations h] at hi
      obtain ⟨hle, hsame⟩ := edition?_along_run (wellDated_moment operations j) hj hi
      refine ⟨fun e => (congrArg Edition.contents (hsame e.symm)).symm, fun hij => ?_⟩
      obtain rfl : i = j := Nat.le_antisymm hij h
      exact Nat.le_of_eq (by rw [Option.some.inj (hearly.symm.trans hlate)])
  · intro i j number other level level' record record' hrecord hrecord' hsame
    have hi := edition?_of_record? hrecord
    have hj := edition?_of_record? hrecord'
    rcases Nat.le_total i j with h | h
    · rw [moment_eq_run operations h] at hj
      exact number_eq_along_run (wellDated_moment operations i) hi hj hsame
    · rw [moment_eq_run operations h] at hi
      exact (number_eq_along_run (wellDated_moment operations j) hj hi hsame.symm).symm
  · intro i number level record hrecord hvalid
    exact raised_of_valid operations hrecord hvalid
  · intro restamped hstamps i
    have hmoment := moment_congr hstamps i
    refine ⟨hmoment, ?_⟩
    have hunstamped : ∀ store : Store, store.apply = store.apply ∘ Operation.unstamped :=
      fun store => funext fun operation => (apply_unstamped store operation).symm
    have hoperation : restamped[i]?.map Operation.unstamped =
        operations[i]?.map Operation.unstamped := by
      rw [← List.getElem?_map, hstamps, List.getElem?_map]
    rw [hmoment, hunstamped, ← Option.map_map, ← Option.map_map, hoperation]

/-- A variant that is cloned, deleted and cloned again: its level has another generation than the
first time, and its flag was raised for the clone that is there now. -/
theorem generation_identifies_contents_recloned :
    let operations : List Operation :=
      [.addLevel 0 ⟨"A", .voltageLevel, ⟨.nodeBreaker, true, 7⟩⟩,
        .addSwitch 0 ⟨"S", .switch, { level := "A" }⟩, .clone 0 1 "B", .setValid 1 "A" true,
        .delete 1, .clone 0 1 "B", .setValid 1 "A" true]
    ∃ first second last,
      (moment operations 4).record? 1 "A" = some first ∧
      (moment operations 6).record? 1 "A" = some second ∧
      (moment operations 7).record? 1 "A" = some last ∧
      first.generation = 3 ∧ second.generation = 5 ∧ last.generation = 5 ∧ last.valid = true ∧
      second.contents = last.contents ∧
      ∃ k < 7, operations[k]? = some (.setValid 1 "A" true) ∧
        ∀ j, k ≤ j → j ≤ 7 → (moment operations j).edition? 1 "A" = some last.toEdition := by
  intro operations
  obtain ⟨hsame, _, hvalid, _⟩ := generation_identifies_contents operations
  exact ⟨_, _, _, rfl, rfl, rfl, rfl, rfl, rfl, rfl, (hsame 6 7 1 "A" _ _ rfl rfl).1 rfl,
    hvalid 7 1 "A" _ rfl rfl⟩

end Store

end Switchyard
