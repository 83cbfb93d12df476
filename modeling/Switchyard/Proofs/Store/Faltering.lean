import Switchyard.Proofs.Store.Names

/-!
A store behind a connection that fails.

Any question may be lost on its way to the store, and is then answered with a fault. A question that
fails, on its way or at the store, leaves the store as it was (`store_eq_of_error`); one that
succeeds has been answered by the store (`answerRegistry_of_ok`).
-/

namespace Switchyard

/-- A store, and which of the next questions do not reach it, with the fault that each of these is
answered with. -/
structure Faltering where
  store : Store
  faults : List (Option Fault)

namespace Faltering

/-- Answers a question, or fails without effect. -/
def answer (query : RegistryQuery) (state : Faltering) : Except Fault query.Answer × Faltering :=
  match state.faults.headD none with
  | some fault => (.error fault, { state with faults := state.faults.tail })
  | none =>
    let (answer, store) := state.store.answerRegistry query
    (answer, ⟨store, state.faults.tail⟩)

end Faltering

/-- A store behind a connection that fails, as a registry. -/
def Store.faltering : Server registryProtocol Faltering :=
  ⟨Faltering.answer, fun _ state => state⟩

/-- A store that refuses to do something is left as it was. -/
theorem Store.answerRegistry_of_error {store after : Store} {query : RegistryQuery} {fault : Fault}
    (h : store.answerRegistry query = (.error fault, after)) : after = store := by
  cases query with
  | list => cases h
  | clone source number name =>
    change store.apply (.clone source number name) = _ at h
    obtain ⟨_, hrefused, _⟩ | ⟨_, _, _, _, hcloned⟩ := apply_clone_cases store source number name
    · rw [hrefused] at h
      cases h
      rfl
    · rw [hcloned] at h
      cases h
  | delete number =>
    change store.apply (.delete number) = _ at h
    obtain ⟨_, hrefused⟩ | ⟨_, _, hdeleted⟩ := apply_delete_cases store number
    · rw [hrefused] at h
      cases h
      rfl
    · rw [hdeleted] at h
      cases h

namespace Faltering

open Store

variable {state after : Faltering} {query : RegistryQuery} {number : UInt32} {name : String}

/-- What fails has no effect. -/
theorem store_eq_of_error {fault : Fault}
    (h : faltering.answer query state = (.error fault, after)) : after.store = state.store := by
  change answer query state = _ at h
  unfold answer at h
  split at h
  case h_1 =>
    cases h
    rfl
  case h_2 =>
    rcases hanswer : state.store.answerRegistry query with ⟨result, store⟩
    rw [hanswer] at h
    cases h
    exact answerRegistry_of_error hanswer

/-- What succeeds is what the store does. -/
theorem answerRegistry_of_ok {value : query.Answer}
    (h : faltering.answer query state = (.ok value, after)) :
    state.store.answerRegistry query = (.ok value, after.store) := by
  change answer query state = _ at h
  unfold answer at h
  split at h
  case h_1 => cases h
  case h_2 =>
    rcases hanswer : state.store.answerRegistry query with ⟨result, store⟩
    rw [hanswer] at h
    cases h
    rfl

theorem infos_of_listed {refresh : Bool} {infos : List VariantInfo}
    (h : faltering.answer (.list refresh) state = (.ok infos, after)) :
    infos = state.store.infos ∧ after.store = state.store := by
  have hlisted : (Except.ok state.store.infos, state.store) = (.ok infos, after.store) :=
    answerRegistry_of_ok h
  obtain ⟨hinfos, hstore⟩ := Prod.mk.inj hlisted
  exact ⟨(Except.ok.inj hinfos).symm, hstore.symm⟩

/-- A list is asked for without effect. -/
theorem store_eq_of_listed {refresh : Bool} {result : Except Fault (List VariantInfo)}
    (h : faltering.answer (.list refresh) state = (result, after)) : after.store = state.store := by
  cases result with
  | error fault => exact store_eq_of_error h
  | ok infos => exact (infos_of_listed h).2

/-- A clone that is granted is entered at a number and under a name that were free. -/
theorem entered_of_cloned {source : UInt32}
    (h : faltering.answer (.clone source number name) state = (.ok (), after)) :
    state.store.nameAt number = none ∧ (∀ other, state.store.nameAt other ≠ some name) ∧
      ∃ network, after.store = state.store.enter ⟨number, name, network⟩ := by
  have hcloned : state.store.apply (.clone source number name) = (.ok (), after.store) :=
    answerRegistry_of_ok h
  obtain ⟨_, hrefused, _⟩ | ⟨_, _, hfree, hnew, hentered⟩ :=
    apply_clone_cases state.store source number name
  · rw [hrefused] at hcloned
    cases hcloned
  · rw [hentered] at hcloned
    exact ⟨hfree, hnew, _, (congrArg Prod.snd hcloned).symm⟩

theorem without_of_deleted (h : faltering.answer (.delete number) state = (.ok (), after)) :
    after.store = state.store.without number := by
  have hdeleted : state.store.apply (.delete number) = (.ok (), after.store) :=
    answerRegistry_of_ok h
  obtain ⟨_, hrefused⟩ | ⟨_, _, hremoved⟩ := apply_delete_cases state.store number
  · rw [hrefused] at hdeleted
    cases hdeleted
  · rw [hremoved] at hdeleted
    exact (congrArg Prod.snd hdeleted).symm

end Faltering

end Switchyard
