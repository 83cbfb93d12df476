import Switchyard.Proofs.Variant.Additions
import Switchyard.Proofs.Variant.Protocol

/-!
What listeners hear of a session.

Listeners are beside the registry: an event reaches all of them in the order in which they were
registered, whether or not they fail, and changes a world of their own. So a dialogue asks the same
and comes to the same with any listeners as with none (`attends`), and a note made at each listener
shows that every event reaches each of them once. Which events there are follows from the questions
that were answered: one for each clone that was granted (`due`), and one for a variant that was
removed.
-/

namespace Switchyard

variable {σ ω α : Type}

/-! ### Listeners beside a registry -/

/-- The listener, with its place noted beside each event that reaches it. -/
def Listener.noted (place : Nat) (listener : Listener ω) :
    Listener (ω × List (Nat × VariantEvent)) := fun event (world, notes) =>
  let (result, world) := listener event world
  (result, world, notes ++ [(place, event)])

/-- Each listener with its place in the order of registration noted. -/
def notedAll (listeners : List (Listener ω)) : List (Listener (ω × List (Nat × VariantEvent))) :=
  listeners.mapIdx Listener.noted

/-- The notes of events that reach some listeners, one event after the other. -/
def notesOf (count : Nat) (events : List VariantEvent) : List (Nat × VariantEvent) :=
  events.flatMap fun event => (List.range count).map fun place => (place, event)

/-- A registry that hears nothing itself, and listeners that hear every event. -/
def attended (server : Server registryProtocol σ) (listeners : List (Listener ω)) :
    Server registryProtocol (σ × ω) where
  answer query state :=
    ((server.answer query state.1).1, (server.answer query state.1).2, state.2)
  hear event state := (state.1, Listener.deliver listeners event state.2)

/-- An event reaches all listeners in their order, and acts on their world as it would without
notes. -/
theorem deliver_notedAll (listeners : List (Listener ω)) (event : VariantEvent) (world : ω)
    (notes : List (Nat × VariantEvent)) :
    Listener.deliver (notedAll listeners) event (world, notes) =
      (Listener.deliver listeners event world,
        notes ++ (List.range listeners.length).map fun place => (place, event)) := by
  induction listeners using List.reverseRecOn with
  | nil => simp [notedAll, Listener.deliver]
  | append_singleton listeners listener ih =>
    unfold notedAll Listener.deliver at ih ⊢
    rw [List.mapIdx_concat, List.foldl_append, ih, List.foldl_append]
    simp [Listener.noted, List.range_succ]

/-- What listeners make of their world when events reach them one after the other. -/
def hearAll (listeners : List (Listener ω)) (events : List VariantEvent) (world : ω) : ω :=
  events.foldl (fun world event => Listener.deliver listeners event world) world

theorem hearAll_notedAll (listeners : List (Listener ω)) (events : List VariantEvent) (world : ω)
    (notes : List (Nat × VariantEvent)) :
    hearAll (notedAll listeners) events (world, notes) =
      (hearAll listeners events world, notes ++ notesOf listeners.length events) := by
  induction events generalizing world notes with
  | nil => simp [hearAll, notesOf]
  | cons event events ih =>
    change hearAll (notedAll listeners) events (Listener.deliver _ event (world, notes)) = _
    rw [deliver_notedAll, ih, List.append_assoc]
    rfl

namespace Managing

open Dialogue Session VariantInfo

/-- The session says and comes to the same as with nobody listening, and some events reach the
listeners. -/
structure Attends (server : Server registryProtocol σ) (listeners : List (Listener ω))
    (session : Dialogue registryProtocol α) (state : σ) (world : ω)
    (events : List VariantEvent) : Prop where
  /-- What the session comes to is the same. -/
  value : (session.run (attended server listeners) (state, world)).1 =
    (session.run (attended server []) (state, ())).1
  /-- The registry is left the same. -/
  registry : (session.run (attended server listeners) (state, world)).2.1 =
    (session.run (attended server []) (state, ())).2.1
  /-- The questions are the same, and so are their answers. -/
  asked : answersIn (attended server listeners)
      (session.transcript (attended server listeners) (state, world)) =
    answersIn (attended server []) (session.transcript (attended server []) (state, ()))
  /-- Nothing but the events acts on the listeners' world. -/
  heard : (session.run (attended server listeners) (state, world)).2.2 =
    hearAll listeners events world

/-- Listeners do not alter what is said, and they hear every event that is told. -/
theorem attends (server : Server registryProtocol σ) (listeners : List (Listener ω))
    (session : Dialogue registryProtocol α) (state : σ) (world : ω) :
    Attends server listeners session state world
      ((session.transcript (attended server ([] : List (Listener Unit))) (state, ())).filterMap
        Exchange.notice?) := by
  induction session generalizing state world with
  | done value => exact ⟨rfl, rfl, rfl, rfl⟩
  | tell event rest ih =>
    obtain ⟨hvalue, hregistry, hasked, hheard⟩ := ih state (Listener.deliver listeners event world)
    exact ⟨hvalue, hregistry, hasked, hheard⟩
  | ask query next ih =>
    obtain ⟨hvalue, hregistry, hasked, hheard⟩ :=
      ih (server.answer query state).1 (server.answer query state).2 world
    exact ⟨hvalue, hregistry,
      congrArg (Answered.mk query (server.answer query state).1 :: ·) hasked, hheard⟩

/-- The listeners disturb nothing, and each event reaches all of them once, in their order, before
the next event reaches any. -/
structure Hears (server : Server registryProtocol σ) (listeners : List (Listener ω))
    (session : Dialogue registryProtocol α) (state : σ) (world : ω)
    (events : List VariantEvent) : Prop where
  attends : Attends server listeners session state world events
  noted : (session.run (attended server (notedAll listeners)) (state, world, [])).2.2 =
    (hearAll listeners events world, notesOf listeners.length events)

theorem hears (server : Server registryProtocol σ) (listeners : List (Listener ω))
    (session : Dialogue registryProtocol α) (state : σ) (world : ω) :
    Hears server listeners session state world
      ((session.transcript (attended server ([] : List (Listener Unit))) (state, ())).filterMap
        Exchange.notice?) where
  attends := attends server listeners session state world
  noted := (attends server (notedAll listeners) session state (world, [])).heard.trans
    (hearAll_notedAll listeners _ world [])

/-! ### The events that are due -/

/-- The events that are due for the questions of a session that clones a source: one for each clone
that was granted, of an overwritten target if a deletion was granted since the clone before it. As a
session goes on to the next target only after a clone that was granted, such a deletion was made for
the same target. -/
def due (source : String) (deleted : Bool) : List Answered → List VariantEvent
  | [] => []
  | call :: later => match call with
    | ⟨.delete _, .ok _⟩ => due source true later
    | ⟨.clone _ _ target, .ok _⟩ =>
      (if deleted then .overwritten source target else .created source target) ::
        due source false later
    | _ => due source deleted later

section Due

variable {server : Server registryProtocol σ} {source target : String} {targets : List String}
  {sourceNumber : UInt32} {overwrite deleted : Bool} {attempts : Nat} {infos : List VariantInfo}
  {context context' : Context} {state last : σ} {said : Said σ}

/-- One event is due for attempts that succeed, and none for attempts that fail. -/
theorem Attempts.due {result : Except Fault (UInt32 × List VariantInfo)}
    (h : Attempts server sourceNumber target attempts infos state result last said)
    (later : List Answered) :
    due source deleted (answersIn server said ++ later) =
      if result.isOk then
        (if deleted then .overwritten source target else .created source target) ::
          due source false later
      else due source deleted later := by
  induction h with
  | cloned hclone | refused hclone | exhausted hclone =>
    rw [answersIn_question hclone]
    rfl
  | unlisted hclone _ hlist =>
    rw [answersIn_relisted hclone hlist]
    rfl
  | again hclone _ hlist _ ih =>
    rw [answersIn_relisted hclone hlist, List.append_assoc]
    exact ih

/-- What is told in a round is due for what was asked in it, and a round that succeeds leaves
nothing for later. -/
theorem Round.due {result : Except Fault (List VariantInfo)}
    (h : Round server source sourceNumber overwrite target infos context state result context' last
      said) (later : List Answered) (hlater : result.isOk = false → later = []) :
    Managing.due source false (answersIn server said ++ later) =
      said.filterMap Exchange.notice? ++ Managing.due source false later := by
  cases h with
  | created _ hattempts =>
    rw [answersIn_append, answersIn_notice, answersIn_nil, List.append_nil, hattempts.due,
      List.filterMap_append, hattempts.clonesIn.2]
    rfl
  | uncreated _ hattempts =>
    rw [hattempts.due, hattempts.clonesIn.2]
    rfl
  | kept | itself | guarded => rfl
  | undeleted _ _ _ _ hdelete =>
    rw [answersIn_question hdelete]
    rfl
  | overwritten _ _ _ _ hdelete hattempts =>
    rw [answersIn_append, answersIn_question hdelete, answersIn_notice, answersIn_nil,
      List.append_nil]
    change Managing.due source true (answersIn server _ ++ later) = _
    rw [hattempts.due, List.filterMap_append, List.filterMap_cons_none rfl, hattempts.clonesIn.2]
    rfl
  | lost _ _ _ _ hdelete hattempts =>
    -- the deletion is not told of: nothing is asked after the attempts, so no clone is granted
    rw [answersIn_question hdelete, hlater rfl]
    change Managing.due source true (answersIn server _ ++ []) = _
    rw [hattempts.due, List.filterMap_cons_none rfl, hattempts.clonesIn.2]
    rfl

theorem Rounds.due {result : Except Fault (List VariantInfo)}
    (h : Rounds server source sourceNumber overwrite targets infos context state result context'
      last said) :
    said.filterMap Exchange.notice? = Managing.due source false (answersIn server said) := by
  induction h with
  | finished => rfl
  | failed hround =>
    have hdue := hround.due [] fun _ => rfl
    rw [List.append_nil] at hdue
    exact (hdue.trans (List.append_nil _)).symm
  | next hround _ ih =>
    rw [List.filterMap_append, answersIn_append, hround.due _ nofun, ih]

/-- What is told when targets are cloned is due for what was asked. -/
theorem Cloning.due {result : Except Fault Unit}
    (h : Cloning server source targets overwrite context state result context' last said) :
    said.filterMap Exchange.notice? = Managing.due source false (answersIn server said) := by
  cases h with
  | untargeted => rfl
  | unlisted _ hlist | unknown _ hlist =>
    rw [answersIn_question hlist]
    rfl
  | went _ hlist _ hrounds =>
    rw [answersIn_question hlist, List.filterMap_cons_none rfl, hrounds.due]
    rfl

theorem not_removed_due (name : String) (calls : List Answered) :
    .removed name ∉ Managing.due source deleted calls := by
  induction calls generalizing deleted with
  | nil => exact List.not_mem_nil
  | cons call later ih =>
    unfold Managing.due
    split
    · exact ih
    · rw [List.mem_cons, not_or]
      refine ⟨?_, ih⟩
      split <;> nofun
    · exact ih

/-- A removal is told just if the deletion was granted. -/
theorem Removal.told {name : String} {result : Except Fault Unit}
    (h : Removal server name context state result context' last said) :
    (∃ number, ⟨.delete number, .ok ()⟩ ∈ answersIn server said) ∧
        said.filterMap Exchange.notice? = [.removed name] ∨
      (∀ number, ⟨.delete number, .ok ()⟩ ∉ answersIn server said) ∧
        said.filterMap Exchange.notice? = [] := by
  cases h with
  | unlisted hlist | guarded hlist | unknown hlist =>
    rw [answersIn_question hlist]
    exact .inr ⟨by simp, rfl⟩
  | undeleted hlist _ _ hdelete =>
    rw [answersIn_question hlist, answersIn_question hdelete]
    exact .inr ⟨by simp, rfl⟩
  | @removed _ number _ _ hlist _ _ hdelete =>
    rw [answersIn_question hlist, answersIn_question hdelete]
    exact .inl ⟨⟨number, List.mem_cons_of_mem _ List.mem_cons_self⟩, rfl⟩

end Due

/-- Whatever a registry answers and whichever listeners fail: a session that clones comes to the
same as with nobody listening, and the listeners hear one event for each clone that was granted, and
of no removal. A session that removes a variant tells so once if the deletion was granted, and else
tells nothing. -/
theorem events_tell_what_was_granted (server : Server registryProtocol σ)
    (listeners : List (Listener ω)) (context : Context) (state : σ) (world : ω) :
    let alone := attended server ([] : List (Listener Unit))
    (∀ source targets overwrite,
      let session := (clone source targets overwrite).start context
      let events := due source false (answersIn alone (session.transcript alone (state, ())))
      Hears server listeners session state world events ∧ ∀ name, .removed name ∉ events) ∧
    ∀ name,
      let session := (remove name).start context
      let calls := answersIn alone (session.transcript alone (state, ()))
      (∃ number, ⟨.delete number, .ok ()⟩ ∈ calls) ∧
          Hears server listeners session state world [.removed name] ∨
        (∀ number, ⟨.delete number, .ok ()⟩ ∉ calls) ∧
          Hears server listeners session state world [] := by
  intro alone
  constructor
  · intro source targets overwrite session events
    refine ⟨?_, fun name => not_removed_due name _⟩
    have hcloning := cloning_clone alone source targets overwrite context (state, ())
    have hhears := hears server listeners session state world
    rw [hcloning.due] at hhears
    exact hhears
  · intro name session calls
    have hremoval := removal_remove alone name context (state, ())
    have hhears := hears server listeners session state world
    refine hremoval.told.imp (fun ⟨hdeleted, htold⟩ => ⟨hdeleted, ?_⟩)
      (fun ⟨hkept, htold⟩ => ⟨hkept, ?_⟩)
    · rw [htold] at hhears
      exact hhears
    · rw [htold] at hhears
      exact hhears

end Managing

end Switchyard
