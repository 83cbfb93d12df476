import Switchyard.Dialogue

/-!
Sessions as dialogues, and what is said in a dialogue.

A session started from a state is a dialogue, built up as the session is put together (`start_bind`
and the lemmas beside it). What is said when a dialogue takes place against a server is its
transcript: the questions, each with the server's state as it was asked, and the notices; what holds
of each of them, given what is said before and after it, holds `Throughout`. Where a
dialogue is one of many that share a server, the answers it gets cannot be computed; `Heeds` says
that it asks only what it may as long as the answers are of the kind expected.
-/

namespace Switchyard

variable {p : Protocol} {α β τ σ : Type}

/-! ### Transcripts -/

/-- One thing said in a dialogue. -/
inductive Exchange (p : Protocol) (σ : Type) where
  /-- A question, and the state of the server just before it is answered. -/
  | question (query : p.Query) (state : σ)
  | notice (notice : p.Notice)

/-- The notice that was told, if it was one. -/
def Exchange.notice? : Exchange p σ → Option p.Notice
  | question _ _ => none
  | notice told => some told

@[simp] theorem Exchange.notice?_question (query : p.Query) (state : σ) :
    notice? (.question query state) = none := rfl

@[simp] theorem Exchange.notice?_notice (told : p.Notice) :
    notice? (.notice told : Exchange p σ) = some told := rfl

namespace Dialogue

/-- What is said when a dialogue takes place against a server. -/
def transcript (server : Server p σ) : Dialogue p α → σ → List (Exchange p σ)
  | done _, _ => []
  | tell told rest, state => .notice told :: rest.transcript server (server.hear told state)
  | ask query next, state =>
    .question query state ::
      (next (server.answer query state).1).transcript server (server.answer query state).2

theorem transcript_bind (server : Server p σ) (d : Dialogue p α) (f : α → Dialogue p β)
    (state : σ) :
    (d >>= f).transcript server state =
      d.transcript server state ++
        (f (d.run server state).1).transcript server (d.run server state).2 := by
  induction d generalizing state with
  | done value => rfl
  | tell told rest ih => exact congrArg (.notice told :: ·) (ih _)
  | ask query next ih => exact congrArg (.question query state :: ·) (ih _ _)

/-! ### Dialogues whose answers are not known -/

/-- As long as the answers are among those expected, the dialogue asks only what it may, and what it
ends in meets `post`. -/
def Heeds (asks : p.Query → Prop)
    (expects : (query : p.Query) → Except Fault (p.Answer query) → Prop) (post : α → Prop) :
    Dialogue p α → Prop
  | done value => post value
  | tell _ rest => rest.Heeds asks expects post
  | ask query next => asks query ∧ ∀ answer, expects query answer →
      (next answer).Heeds asks expects post

variable {asks : p.Query → Prop}
  {expects : (query : p.Query) → Except Fault (p.Answer query) → Prop}

theorem Heeds.bind {post : β → Prop} {d : Dialogue p α} {f : α → Dialogue p β}
    (h : d.Heeds asks expects fun value => (f value).Heeds asks expects post) :
    (d >>= f).Heeds asks expects post := by
  induction d with
  | done value => exact h
  | tell told rest ih => exact ih h
  | ask query next ih => exact ⟨h.1, fun answer hanswer => ih answer (h.2 answer hanswer)⟩

theorem Heeds.imp {post post' : α → Prop} {d : Dialogue p α} (h : d.Heeds asks expects post)
    (himp : ∀ value, post value → post' value) : d.Heeds asks expects post' := by
  induction d with
  | done value => exact himp value h
  | tell told rest ih => exact ih h
  | ask query next ih => exact ⟨h.1, fun answer hanswer => ih answer (h.2 answer hanswer)⟩

end Dialogue

/-! ### What is said, with all that is said before and after it -/

/-- All that is said meets `P`, given what was said before and what is said after. -/
def Throughout (P : List (Exchange p σ) → Exchange p σ → List (Exchange p σ) → Prop)
    (said : List (Exchange p σ)) : Prop :=
  ∀ before exchange after, said = before ++ exchange :: after → P before exchange after

namespace Throughout

variable {P : List (Exchange p σ) → Exchange p σ → List (Exchange p σ) → Prop}
  {said later : List (Exchange p σ)}

theorem nil : Throughout P [] := by
  intro before exchange after h
  cases before <;> cases h

theorem single {exchange : Exchange p σ} (h : P [] exchange []) :
    Throughout P [exchange] := by
  intro before other after hsaid
  cases before with
  | nil =>
    cases hsaid
    exact h
  | cons first before =>
    obtain ⟨_, hnil⟩ := List.cons.inj hsaid
    cases before <;> cases hnil

theorem of_forall (h : ∀ exchange ∈ said, ∀ before after, P before exchange after) :
    Throughout P said := by
  rintro before exchange after rfl
  exact h exchange (List.mem_append_right _ List.mem_cons_self) before after

theorem append
    (h : Throughout (fun before exchange after => P before exchange (after ++ later)) said)
    (hlater : Throughout (fun before => P (said ++ before)) later) :
    Throughout P (said ++ later) := by
  intro before exchange after hsaid
  rcases List.append_eq_append_iff.mp hsaid with ⟨middle, rfl, hsplit⟩ | ⟨middle, rfl, hsplit⟩
  · exact hlater middle exchange after hsplit
  · cases middle with
    | nil => simpa using hlater [] exchange after hsplit.symm
    | cons first middle =>
      obtain ⟨rfl, rfl⟩ := List.cons.inj hsplit
      exact h before exchange middle rfl

end Throughout

/-! ### How sessions are put together -/

namespace Session

open Dialogue

@[simp] theorem start_pure (value : α) (kept : τ) :
    (pure value : Session p τ α).start kept = done (.ok value, kept) := rfl

@[simp] theorem start_throw (fault : Fault) (kept : τ) :
    (throw fault : Session p τ α).start kept = done (.error fault, kept) := rfl

@[simp] theorem start_get (kept : τ) :
    (get : Session p τ τ).start kept = done (.ok kept, kept) := rfl

@[simp] theorem start_set (kept given : τ) :
    (set given : Session p τ PUnit).start kept = done (.ok ⟨⟩, given) := rfl

/-- What fails or succeeds without asking. -/
@[simp] theorem start_lift (result : Except Fault α) (kept : τ) :
    (liftM result : Session p τ α).start kept = done (result, kept) := by
  cases result <;> rfl

/-- A session goes on with a value, and a fault ends it. -/
@[simp] theorem start_bind (session : Session p τ α) (next : α → Session p τ β) (kept : τ) :
    (session >>= next).start kept = session.start kept >>= fun
      | (.ok value, kept) => (next value).start kept
      | (.error fault, kept) => done (.error fault, kept) := by
  change Dialogue.bind _ _ = Dialogue.bind _ _
  congr 1
  funext outcome
  obtain ⟨_ | _, _⟩ := outcome <;> rfl

@[simp] theorem start_map (session : Session p τ α) (f : α → β) (kept : τ) :
    (f <$> session).start kept = session.start kept >>= fun
      | (.ok value, kept) => done (.ok (f value), kept)
      | (.error fault, kept) => done (.error fault, kept) := by
  rw [← bind_pure_comp]
  exact start_bind _ _ _

/-- A session with its value mapped says the same. -/
theorem run_start_map (server : Server p σ) (session : Session p τ α) (f : α → β) (kept : τ)
    (state : σ) :
    ((f <$> session).start kept).run server state =
      let ((result, kept), last) := (session.start kept).run server state
      ((result.map f, kept), last) := by
  rw [start_map, run_bind]
  rcases (session.start kept).run server state with ⟨⟨_ | _, _⟩, _⟩ <;> rfl

theorem transcript_start_map (server : Server p σ) (session : Session p τ α) (f : α → β) (kept : τ)
    (state : σ) :
    ((f <$> session).start kept).transcript server state =
      (session.start kept).transcript server state := by
  rw [start_map, transcript_bind]
  rcases (session.start kept).run server state with ⟨⟨_ | _, _⟩, _⟩ <;> exact List.append_nil _

end Session

end Switchyard
