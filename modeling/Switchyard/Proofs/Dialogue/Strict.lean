import Switchyard.Proofs.Dialogue.Outcome
import Switchyard.Proofs.Dialogue.Session

/-!
Dialogues that a fault ends.

An attempt hands on the fault of the first question that fails and asks nothing more. `Strict` says
this of a dialogue, whatever it is answered, and says of each question that it may be asked. It is
proved along the way in which the dialogue is put together; against any server it tells that a
question which failed is the last thing said, and what comes of the dialogue then
(`Strict.throughout`).
-/

namespace Switchyard

variable {p : Protocol} {α β σ : Type}

namespace Dialogue

variable {asks : p.Query → Prop} {fails : Fault → α → Prop}

/-- Only what may be asked is asked, and a fault in answer to any question ends the dialogue at
once, in a value that accounts for the fault. -/
def Strict (asks : p.Query → Prop) (fails : Fault → α → Prop) : Dialogue p α → Prop
  | done _ => True
  | tell _ rest => rest.Strict asks fails
  | ask query next => asks query ∧
      (∀ fault, ∃ value, next (.error fault) = done value ∧ fails fault value) ∧
      ∀ answer, (next (.ok answer)).Strict asks fails

/-- A dialogue goes on strictly if the next one is strict, and accounts for faults as it should. -/
theorem Strict.bind {fails' : Fault → β → Prop} {d : Dialogue p α} {f : α → Dialogue p β}
    (h : d.Strict asks fails) (hnext : ∀ value, (f value).Strict asks fails')
    (hfault : ∀ fault value, fails fault value →
      ∃ value', f value = done value' ∧ fails' fault value') :
    (d >>= f).Strict asks fails' := by
  induction d with
  | done value => exact hnext value
  | tell notice rest ih => exact ih h
  | ask query next ih =>
    obtain ⟨hasks, hends, hanswers⟩ := h
    refine ⟨hasks, fun fault => ?_, fun answer => ih (.ok answer) (hanswers answer)⟩
    obtain ⟨value, hvalue, hfails⟩ := hends fault
    obtain ⟨value', hvalue', hfails'⟩ := hfault fault value hfails
    exact ⟨value', (congrArg (Dialogue.bind · f) hvalue).trans hvalue', hfails'⟩

theorem Strict.imp {asks' : p.Query → Prop} {d : Dialogue p α} (h : d.Strict asks fails)
    (himp : ∀ query, asks query → asks' query) : d.Strict asks' fails := by
  induction d with
  | done value => trivial
  | tell notice rest ih => exact ih h
  | ask query next ih =>
    exact ⟨himp query h.1, h.2.1, fun answer => ih (.ok answer) (h.2.2 answer)⟩

/-- Against any server, each question may be asked, and one that fails is the last thing said. -/
theorem Strict.throughout {d : Dialogue p α} (h : d.Strict asks fails) (server : Server p σ)
    (state : σ) :
    Throughout (fun _ exchange later => ∀ query state', exchange = .question query state' →
      asks query ∧ ∀ fault, (server.answer query state').1 = .error fault →
        later = [] ∧ fails fault (d.run server state).1) (d.transcript server state) := by
  induction d generalizing state with
  | done value => exact .nil
  | tell notice rest ih =>
    refine .append (.single fun query state' hsaid => by cases hsaid) ?_
    exact ih h _
  | ask query next ih =>
    obtain ⟨hasks, hends, hanswers⟩ := h
    rw [transcript, run]
    rcases hanswer : server.answer query state with ⟨fault | answer, after⟩
    · obtain ⟨value, hvalue, hfails⟩ := hends fault
      dsimp only
      rw [hvalue, transcript, run]
      refine .single ?_
      rintro _ _ ⟨⟩
      refine ⟨hasks, fun fault' hfault' => ⟨rfl, ?_⟩⟩
      rw [hanswer] at hfault'
      cases hfault'
      exact hfails
    · change Throughout _ ([.question query state] ++ _)
      refine .append (.single ?_) (ih (.ok answer) (hanswers answer) after)
      rintro _ _ ⟨⟩
      refine ⟨hasks, fun fault hfault => ?_⟩
      rw [hanswer] at hfault
      cases hfault

/-- Against any server, each question may be asked. -/
theorem Strict.asked {d : Dialogue p α} (h : d.Strict asks fails) (server : Server p σ)
    (state : σ) : ∀ query ∈ d.asked server state, asks query := by
  induction d generalizing state with
  | done value => exact fun _ hquery => nomatch hquery
  | tell notice rest ih => exact ih h _
  | ask query next ih =>
    obtain ⟨hasks, hends, hanswers⟩ := h
    rw [Dialogue.asked]
    rcases server.answer query state with ⟨fault | answer, after⟩
    · obtain ⟨value, hvalue, _⟩ := hends fault
      dsimp only
      rw [hvalue, Dialogue.asked]
      simpa using hasks
    · exact List.forall_mem_cons.mpr ⟨hasks, ih (.ok answer) (hanswers answer) after⟩

end Dialogue

namespace Attempt

variable {asks : p.Query → Prop}

/-- A fault in answer to any question of the attempt is what the attempt fails with. -/
def Strict (asks : p.Query → Prop) (attempt : Attempt p α) : Prop :=
  Dialogue.Strict asks (fun fault result => result = .error fault) attempt.run

namespace Strict

theorem call {query : p.Query} (h : asks query) :
    Strict asks (Attempt.call query : Attempt p (p.Answer query)) :=
  ⟨h, fun fault => ⟨.error fault, rfl, rfl⟩, fun _ => trivial⟩

theorem pure (value : α) : Strict asks (Pure.pure value : Attempt p α) := trivial

theorem lift (result : Except Fault α) : Strict asks (liftM result : Attempt p α) := trivial

theorem announce (notice : p.Notice) : Strict asks (Attempt.announce notice) := trivial

theorem bind {attempt : Attempt p α} {f : α → Attempt p β} (h : Strict asks attempt)
    (hnext : ∀ value, Strict asks (f value)) : Strict asks (attempt >>= f) := by
  refine Dialogue.Strict.bind h (fun result => ?_) (fun fault result hfault => ?_)
  · cases result with
    | error fault => trivial
    | ok value => exact hnext value
  · cases hfault
    exact ⟨.error fault, rfl, rfl⟩

theorem lift_ok_bind {value : α} {f : α → Attempt p β} (h : Strict asks (f value)) :
    Strict asks (liftM (Except.ok value : Except Fault α) >>= f) := h

theorem mapM {f : α → Attempt p β} (h : ∀ x, Strict asks (f x)) :
    ∀ xs : List α, Strict asks (xs.mapM f)
  | [] => by
    rw [List.mapM_nil]
    exact pure _
  | x :: xs => by
    rw [List.mapM_cons]
    exact bind (h x) fun _ => bind (mapM h xs) fun _ => pure _

theorem forM {f : α → Attempt p PUnit} (h : ∀ x, Strict asks (f x)) :
    ∀ xs : List α, Strict asks (xs.forM f)
  | [] => pure _
  | x :: xs => bind (h x) fun _ => forM h xs

end Strict

end Attempt

end Switchyard
