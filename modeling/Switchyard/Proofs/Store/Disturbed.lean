import Switchyard.Proofs.Store.Generations
import Switchyard.Proofs.Topology.Reading

/-!
A store that other sessions change while one session asks it questions.

Just before a question is answered, other sessions carry out any operations they like; what they do
before each of the questions to come is laid down in `pending`. An edition of a level that is there
when a session begins to read stays what the session sees, unless some operation replaces it, and
then its generation never comes back (`shows_disturbed`). With nothing pending the store answers
as one that is left alone (`run_undisturbed`).
-/

namespace Switchyard

/-- The operation that a question carries out. -/
def IndexQuery.operation? : IndexQuery → Option Operation
  | .setValid number id value => some (.setValid number id value)
  | _ => none

/-- A store, with the operations of other sessions before each of the next questions, and all
operations performed so far. -/
structure Disturbed where
  store : Store
  pending : List (List Operation)
  performed : List Operation := []

namespace Disturbed

/-- What other sessions make of the store before the next question is answered. -/
def interrupted (disturbed : Disturbed) : Disturbed :=
  let operations := disturbed.pending.headD []
  { store := disturbed.store.run operations, pending := disturbed.pending.tail,
    performed := disturbed.performed ++ operations }

/-- Answers a question after other sessions have had their turn. -/
def answer (query : IndexQuery) (disturbed : Disturbed) : Except Fault query.Answer × Disturbed :=
  let interrupted := disturbed.interrupted
  let (answer, store) := interrupted.store.answerIndex query
  let performed := interrupted.performed ++ query.operation?.toList
  (answer, { interrupted with store, performed })

end Disturbed

/-- A store that others change, as an index. -/
def Store.disturbed : Server indexProtocol Disturbed :=
  ⟨Disturbed.answer, fun _ disturbed => disturbed⟩

namespace Store

variable {store : Store} {number : UInt32} {level : String} {edition : Edition}

/-- A question changes the store by its operation, if it has one. -/
theorem answerIndex_snd (query : IndexQuery) (store : Store) :
    (store.answerIndex query).2 = store.run query.operation?.toList := by
  cases query <;> rfl

/-- What was performed makes the present store out of the one at the beginning. -/
theorem disturbed_keeps_performed (start : Store) :
    disturbed.Keeps fun state => state.store = start.run state.performed where
  answer query state hstate := by
    change (state.interrupted.store.answerIndex query).2 =
      start.run (state.interrupted.performed ++ query.operation?.toList)
    rw [answerIndex_snd, run_append, Disturbed.interrupted, run_append, hstate]
  hear _ _ := id

/-- What no operation takes away from a store, nothing takes away from it while it is disturbed. -/
theorem disturbed_keeps {inv : Store → Prop}
    (h : ∀ store operation, inv store → inv (store.after operation)) :
    disturbed.Keeps fun state => inv state.store where
  answer query state hstate := by
    have hrun : ∀ operations store, inv store → inv (Store.run store operations) := by
      intro operations
      induction operations with
      | nil => exact fun _ => id
      | cons operation rest ih => exact fun store hstore => ih _ (h store operation hstore)
    change inv (state.interrupted.store.answerIndex query).2
    rw [answerIndex_snd]
    exact hrun _ _ (hrun _ _ hstate)
  hear _ _ := id

/-- Whatever a session asks, the store is changed by operations only. -/
theorem disturbed_keeps_reached (start : Store) :
    disturbed.Keeps fun state => ∃ operations, state.store = start.run operations :=
  disturbed_keeps fun store operation (h : ∃ operations, store = start.run operations) => by
    obtain ⟨operations, hstore⟩ := h
    exact ⟨operations ++ [operation], by rw [run_concat, hstore]⟩

/-- A level is read as it is when other sessions have had their turn. -/
theorem read_level {state after : Disturbed} {answer : Except Fault (Resource VoltageLevel)}
    (h : disturbed.answer (.level number level) state = (answer, after)) :
    after.store = state.store.run (state.pending.headD []) ∧
      after.performed = state.performed ++ state.pending.headD [] ∧
      after.store.level number level = answer := by
  cases h
  exact ⟨rfl, List.append_nil _, rfl⟩

/-! ### Reading an edition while it lasts -/

/-- The level is held in an edition that the store has dated. -/
def Holds (number : UInt32) (level : String) (edition : Edition) (store : Store) : Prop :=
  store.edition? number level = some edition ∧ edition.generation ≤ store.lastGeneration

/-- The edition was replaced: its generation was drawn, and the level does not have it. -/
def Replaced (number : UInt32) (level : String) (edition : Edition) (store : Store) : Prop :=
  edition.generation ≤ store.lastGeneration ∧
    ∀ later, store.edition? number level = some later → later.generation ≠ edition.generation

theorem Replaced.after (h : Replaced number level edition store) (operation : Operation) :
    Replaced number level edition (store.after operation) := by
  refine ⟨Nat.le_trans h.1 (lastGeneration_le_after store operation), fun later hlater e => ?_⟩
  exact h.2 later (edition?_of_after hlater (by rw [e]; exact h.1)) e

theorem Holds.run (h : Holds number level edition store) (operations : List Operation) :
    Replaced number level edition (store.run operations) ∨
      Holds number level edition (store.run operations) := by
  have hdrawn := Nat.le_trans h.2 (lastGeneration_le_run store operations)
  by_cases hsame : ∃ later, (store.run operations).edition? number level = some later ∧
      later.generation = edition.generation
  · obtain ⟨later, hlater, hgen⟩ := hsame
    have hback := edition?_of_run hlater (by rw [hgen]; exact h.2)
    rw [h.1] at hback
    exact .inr ⟨by rw [hlater, Option.some.inj hback], hdrawn⟩
  · exact .inl ⟨hdrawn, fun later hlater e => hsame ⟨later, hlater, e⟩⟩

theorem ensures_disturbed {query : IndexQuery} {post : Except Fault query.Answer → Prop}
    (h : ∀ store record, store.record? number level = some record → record.toEdition = edition →
      Attempt.Ensures index (· = store) (fun _ => False)
        (Attempt.call (p := indexProtocol) query) post) :
    Attempt.Ensures disturbed (fun state => Holds number level edition state.store)
      (fun state => Replaced number level edition state.store)
      (Attempt.call (p := indexProtocol) query) post := by
  intro state hstate
  have hinterrupted : Replaced number level edition state.interrupted.store ∨
      Holds number level edition state.interrupted.store := hstate.run _
  rcases hinterrupted with hreplaced | hholds
  · refine .inl ?_
    change Replaced number level edition (state.interrupted.store.answerIndex query).2
    rw [answerIndex_snd]
    cases query.operation? with
    | none => exact hreplaced
    | some operation => exact hreplaced.after operation
  · obtain ⟨record, hrecord, hedition⟩ := Option.map_eq_some_iff.mp hholds.1
    rcases h _ record hrecord hedition _ rfl with hbad | ⟨hpost, hsame⟩
    · exact hbad.elim
    · refine .inr ⟨hpost, ?_⟩
      change Holds number level edition (state.interrupted.store.answerIndex query).2
      rw [show (state.interrupted.store.answerIndex query).2 = state.interrupted.store from hsame]
      exact hholds

/-- As long as an edition is not replaced, a session reads its contents. -/
theorem shows_disturbed (h : store.edition? number level = some edition) :
    disturbed.Shows (fun state => Holds number level edition state.store)
      (fun state => Replaced number level edition state.store) number level edition.contents where
  typed := by
    obtain ⟨record, hrecord, rfl⟩ := Option.map_eq_some_iff.mp h
    exact (shows_index hrecord).typed
  stays := disturbed_keeps fun _ operation hreplaced => hreplaced.after operation
  hear _ _ := id
  found := ensures_disturbed fun _ _ hrecord hedition => hedition ▸ (shows_index hrecord).found
  injections type htype := ensures_disturbed fun _ _ hrecord hedition =>
    hedition ▸ (shows_index hrecord).injections type htype
  branches type htype := ensures_disturbed fun _ _ hrecord hedition =>
    hedition ▸ (shows_index hrecord).branches type htype
  transformers := ensures_disturbed fun _ _ hrecord hedition =>
    hedition ▸ (shows_index hrecord).transformers
  switches := ensures_disturbed fun _ _ hrecord hedition =>
    hedition ▸ (shows_index hrecord).switches

/-! ### Nobody interferes -/

/-- With nothing pending, a dialogue takes place as with a store that is left alone. -/
theorem run_undisturbed {α : Type} (d : Dialogue indexProtocol α) (store : Store)
    (performed : List Operation) :
    (d.run disturbed ⟨store, [], performed⟩).1 = (d.run index store).1 ∧
      (d.run disturbed ⟨store, [], performed⟩).2.store = (d.run index store).2 := by
  induction d generalizing store performed with
  | done value => exact ⟨rfl, rfl⟩
  | tell notice rest ih => exact ih store performed
  | ask query next ih => exact ih _ _ _

/-- With nothing pending, the operations that are carried out are those of the questions asked. -/
theorem performed_undisturbed {α : Type} (d : Dialogue indexProtocol α) (store : Store)
    (performed : List Operation) :
    (d.run disturbed ⟨store, [], performed⟩).2.performed =
      performed ++
        (d.asked disturbed ⟨store, [], performed⟩).flatMap (·.operation?.toList) := by
  induction d generalizing store performed with
  | done value => exact (List.append_nil _).symm
  | tell notice rest ih => exact ih store performed
  | ask query next ih =>
    refine (ih _ _ _).trans ?_
    rw [Dialogue.asked, List.flatMap_cons, ← List.append_assoc]
    congr 1
    change performed ++ [] ++ _ = _
    rw [List.append_nil]

end Store

end Switchyard
