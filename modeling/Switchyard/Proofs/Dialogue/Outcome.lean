import Switchyard.Dialogue

/-!
What comes of a dialogue that takes place against a server.

Whatever each answer and each notice keeps true of the server, every dialogue keeps true
(`run_keeps`). `Attempt.Ensures` is the stronger law for servers that others may disturb: as long as
the server is sound the attempt meets its postcondition, and once the server is spoiled it stays so.
It is proved of an attempt along the way in which the attempt is put together.
-/

namespace Switchyard

variable {p : Protocol} {α β σ : Type}

/-- Nothing that a server answers or hears takes `inv` away. -/
structure Server.Keeps (server : Server p σ) (inv : σ → Prop) : Prop where
  answer : ∀ query state, inv state → inv (server.answer query state).2
  hear : ∀ notice state, inv state → inv (server.hear notice state)

namespace Dialogue

theorem run_keeps {server : Server p σ} {inv : σ → Prop} (h : server.Keeps inv)
    (d : Dialogue p α) {state : σ} (hstate : inv state) : inv (d.run server state).2 := by
  induction d generalizing state with
  | done value => exact hstate
  | tell notice rest ih => exact ih (h.hear notice state hstate)
  | ask query next ih => exact ih _ (h.answer query state hstate)

/-- The questions that are asked when a dialogue takes place. -/
def asked (server : Server p σ) : Dialogue p α → σ → List p.Query
  | done _, _ => []
  | tell notice rest, state => rest.asked server (server.hear notice state)
  | ask query next, state =>
    let (answer, after) := server.answer query state
    query :: (next answer).asked server after

theorem asked_bind (server : Server p σ) (d : Dialogue p α) (f : α → Dialogue p β) (state : σ) :
    (d >>= f).asked server state =
      d.asked server state ++
        (f (d.run server state).1).asked server (d.run server state).2 := by
  induction d generalizing state with
  | done value => rfl
  | tell notice rest ih => exact ih _
  | ask query next ih => exact congrArg (query :: ·) (ih _ _)

end Dialogue

namespace Attempt

/-- What comes of an attempt, and the server after it. -/
def outcome (server : Server p σ) (attempt : Attempt p α) (state : σ) : Except Fault α × σ :=
  Dialogue.run server attempt.run state

variable {server : Server p σ} {state : σ}

theorem outcome_bind (attempt : Attempt p α) (f : α → Attempt p β) :
    outcome server (attempt >>= f) state =
      match outcome server attempt state with
      | (.ok value, after) => outcome server (f value) after
      | (.error fault, after) => (.error fault, after) := by
  refine (Dialogue.run_bind server attempt.run _ state).trans ?_
  unfold outcome
  rcases Dialogue.run server attempt.run state with ⟨_ | _, _⟩ <;> rfl

theorem outcome_keeps {inv : σ → Prop} (h : server.Keeps inv) (attempt : Attempt p α)
    (hstate : inv state) : inv (outcome server attempt state).2 :=
  Dialogue.run_keeps h attempt.run hstate

/-! ### Attempts against a server that may be spoiled -/

/-- From a sound server the attempt leads to a result that meets `post`, with the server still
sound, unless the server was spoiled on the way. -/
def Ensures (server : Server p σ) (sound spoiled : σ → Prop) (attempt : Attempt p α)
    (post : Except Fault α → Prop) : Prop :=
  ∀ state, sound state → spoiled (outcome server attempt state).2 ∨
    (post (outcome server attempt state).1 ∧ sound (outcome server attempt state).2)

namespace Ensures

variable {sound spoiled : σ → Prop}

theorem pure {value : α} {post : Except Fault α → Prop} (h : post (.ok value)) :
    Ensures server sound spoiled (Pure.pure value : Attempt p α) post :=
  fun _ hstate => .inr ⟨h, hstate⟩

/-- What fails or succeeds without asking leaves the server as it is. -/
theorem lift {result : Except Fault α} {post : Except Fault α → Prop} (h : post result) :
    Ensures server sound spoiled (liftM result : Attempt p α) post :=
  fun _ hstate => .inr ⟨h, hstate⟩

theorem lift_ok_bind {value : α} {f : α → Attempt p β} {post : Except Fault β → Prop}
    (h : Ensures server sound spoiled (f value) post) :
    Ensures server sound spoiled (liftM (Except.ok value : Except Fault α) >>= f) post := h

theorem bind (hspoiled : server.Keeps spoiled) {attempt : Attempt p α} {f : α → Attempt p β}
    {post : Except Fault α → Prop} {post' : Except Fault β → Prop}
    (ha : Ensures server sound spoiled attempt post)
    (hok : ∀ value, post (.ok value) → Ensures server sound spoiled (f value) post')
    (herror : ∀ fault, post (.error fault) → post' (.error fault)) :
    Ensures server sound spoiled (attempt >>= f) post' := by
  intro state hstate
  rw [outcome_bind]
  have hattempt := ha state hstate
  rcases h : outcome server attempt state with ⟨fault | value, after⟩ <;> rw [h] at hattempt
  · rcases hattempt with hbad | ⟨hpost, hsound⟩
    · exact .inl hbad
    · exact .inr ⟨herror fault hpost, hsound⟩
  · rcases hattempt with hbad | ⟨hpost, hsound⟩
    · exact .inl (outcome_keeps hspoiled (f value) hbad)
    · exact hok value hpost after hsound

/-- An attempt that comes to a known value goes on with it. -/
theorem bind_ok (hspoiled : server.Keeps spoiled) {attempt : Attempt p α} {f : α → Attempt p β}
    {value : α} {post : Except Fault β → Prop}
    (ha : Ensures server sound spoiled attempt (· = .ok value))
    (hf : Ensures server sound spoiled (f value) post) :
    Ensures server sound spoiled (attempt >>= f) post := by
  refine bind hspoiled ha (fun other h => ?_) (fun fault h => ?_)
  · cases h
    exact hf
  · cases h

/-- Attempts that come to the values of `g`, one after the other, come to the list of them. -/
theorem mapM (hspoiled : server.Keeps spoiled) {f : α → Attempt p β} {g : α → β} :
    ∀ {xs : List α}, (∀ x ∈ xs, Ensures server sound spoiled (f x) (· = .ok (g x))) →
      Ensures server sound spoiled (xs.mapM f) (· = .ok (xs.map g))
  | [], _ => by
    rw [List.mapM_nil]
    exact Ensures.pure rfl
  | x :: xs, h => by
    rw [List.mapM_cons]
    refine bind_ok hspoiled (h x List.mem_cons_self) ?_
    exact bind_ok hspoiled (mapM hspoiled fun z hz => h z (List.mem_cons_of_mem _ hz)) (.pure rfl)

/-- Telling notices, one after the other, does no harm to a server that only hears them. -/
theorem forM (hspoiled : server.Keeps spoiled) {f : α → Attempt p PUnit} :
    ∀ {xs : List α}, (∀ x ∈ xs, Ensures server sound spoiled (f x) (· = .ok ⟨⟩)) →
      Ensures server sound spoiled (xs.forM f) (· = .ok ⟨⟩)
  | [], _ => Ensures.pure rfl
  | x :: xs, h => by
    change Ensures server sound spoiled (f x >>= fun _ => xs.forM f) _
    exact bind_ok hspoiled (h x List.mem_cons_self)
      (forM hspoiled fun z hz => h z (List.mem_cons_of_mem _ hz))

end Ensures

end Attempt

end Switchyard
