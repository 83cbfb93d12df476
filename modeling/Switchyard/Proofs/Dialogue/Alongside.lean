import Switchyard.Proofs.Dialogue.Outcome

/-!
Two dialogues beside each other, each against a server of its own.

From states of the two servers that `pre` relates, two dialogues that run `Alongside` come to
results and states that `post` relates, unless the first server was spoiled on the way. An attempt
`Agrees` with itself if it comes to one result from any two related states, which stay related. Like
other laws about attempts this is proved along the way in which an attempt is put together.
-/

namespace Switchyard

variable {p : Protocol} {α β σ : Type} {server : Server p σ} {spoiled : σ → Prop}
  {pre : σ → σ → Prop}

namespace Dialogue

/-- From related states the two dialogues come to related results and states, unless the server of
the first is spoiled. -/
def Alongside (server : Server p σ) (spoiled : σ → Prop) (pre : σ → σ → Prop)
    (first second : Dialogue p α) (post : α → α → σ → σ → Prop) : Prop :=
  ∀ state state', pre state state' → spoiled (first.run server state).2 ∨
    post (first.run server state).1 (second.run server state').1 (first.run server state).2
      (second.run server state').2

namespace Alongside

variable {post : α → α → σ → σ → Prop} {post' : β → β → σ → σ → Prop}

theorem done {value value' : α}
    (h : ∀ state state', pre state state' → post value value' state state') :
    Alongside server spoiled pre (.done value) (.done value') post :=
  fun state state' hpre => .inr (h state state' hpre)

theorem bind (hspoiled : server.Keeps spoiled) {first second : Dialogue p α}
    {next next' : α → Dialogue p β} (h : Alongside server spoiled pre first second post)
    (hnext : ∀ value value',
      Alongside server spoiled (post value value') (next value) (next' value') post') :
    Alongside server spoiled pre (first >>= next) (second >>= next') post' := by
  intro state state' hpre
  rw [run_bind, run_bind]
  obtain hbad | hpost := h state state' hpre
  · exact .inl (run_keeps hspoiled _ hbad)
  · exact hnext _ _ _ _ hpost

/-- Two dialogues that ask the same question go on with the answers. -/
theorem ask (hspoiled : server.Keeps spoiled) {query : p.Query}
    {next next' : Except Fault (p.Answer query) → Dialogue p α}
    {mid : Except Fault (p.Answer query) → Except Fault (p.Answer query) → σ → σ → Prop}
    (h : Alongside server spoiled pre (request query) (request query) mid)
    (hnext : ∀ answer answer',
      Alongside server spoiled (mid answer answer') (next answer) (next' answer') post) :
    Alongside server spoiled pre (.ask query next) (.ask query next') post :=
  bind hspoiled h hnext

end Alongside

end Dialogue

/-- One fault, or values that are related. -/
inductive Concur (related : α → α → Prop) : Except Fault α → Except Fault α → Prop
  | ok {value value' : α} (h : related value value') : Concur related (.ok value) (.ok value')
  | error (fault : Fault) : Concur related (.error fault) (.error fault)

theorem Concur.of_eq {related : α → α → Prop} (hrefl : ∀ value, related value value)
    {result result' : Except Fault α} (h : result = result') : Concur related result result' := by
  subst h
  cases result with
  | error fault => exact .error fault
  | ok value => exact .ok (hrefl value)

theorem Concur.eq {related : α → α → Prop} {result result' : Except Fault α}
    (h : Concur related result result')
    (heq : ∀ value value', related value value' → value = value') : result = result' := by
  cases h with
  | ok hvalues => rw [heq _ _ hvalues]
  | error => rfl

namespace Attempt

/-- From any two states that are linked the attempt comes to one result, and the states stay linked,
unless the first server is spoiled. -/
def Agrees (server : Server p σ) (spoiled : σ → Prop) (linked : σ → σ → Prop)
    (attempt : Attempt p α) : Prop :=
  Dialogue.Alongside server spoiled linked attempt.run attempt.run
    fun result result' state state' => result = result' ∧ linked state state'

namespace Agrees

open Dialogue (Alongside)

variable {linked : σ → σ → Prop}

/-- What fails or succeeds without asking comes to one result. -/
theorem lift (result : Except Fault α) :
    Agrees server spoiled linked (liftM result : Attempt p α) :=
  fun _ _ hlinked => .inr ⟨rfl, hlinked⟩

theorem pure (value : α) : Agrees server spoiled linked (Pure.pure value : Attempt p α) :=
  lift (.ok value)

theorem lift_ok_bind {value : α} {f : α → Attempt p β}
    (h : Agrees server spoiled linked (f value)) :
    Agrees server spoiled linked (liftM (Except.ok value : Except Fault α) >>= f) := h

/-- An attempt may come to different values, if it goes on alike with them. -/
theorem bind_of_concur (hspoiled : server.Keeps spoiled) {attempt : Attempt p α}
    {f : α → Attempt p β} {related : α → α → Prop}
    (h : Alongside server spoiled linked attempt.run attempt.run
      fun result result' state state' => Concur related result result' ∧ linked state state')
    (hnext : ∀ value value', related value value' →
      Alongside server spoiled linked (f value).run (f value').run
        fun result result' state state' => result = result' ∧ linked state state') :
    Agrees server spoiled linked (attempt >>= f) := by
  refine Alongside.bind hspoiled h fun result result' state state' hmid => ?_
  obtain ⟨hresults, hlinked⟩ := hmid
  cases hresults with
  | error fault => exact .inr ⟨rfl, hlinked⟩
  | @ok value value' hvalues =>
    have hagrees : Alongside server spoiled linked (f value).run (f value').run _ :=
      hnext value value' hvalues
    exact hagrees state state' hlinked

theorem bind (hspoiled : server.Keeps spoiled) {attempt : Attempt p α} {f : α → Attempt p β}
    (h : Agrees server spoiled linked attempt)
    (hnext : ∀ value, Agrees server spoiled linked (f value)) :
    Agrees server spoiled linked (attempt >>= f) := by
  have hconcur : Alongside server spoiled linked attempt.run attempt.run
      fun result result' state state' => Concur Eq result result' ∧ linked state state' :=
    fun state state' hlinked => (h state state' hlinked).imp_right fun ⟨hresults, hlater⟩ =>
      ⟨.of_eq (fun _ => rfl) hresults, hlater⟩
  exact bind_of_concur hspoiled hconcur fun value _ hvalues => hvalues ▸ hnext value

theorem mapM (hspoiled : server.Keeps spoiled) {f : α → Attempt p β}
    (h : ∀ x, Agrees server spoiled linked (f x)) :
    ∀ xs : List α, Agrees server spoiled linked (xs.mapM f)
  | [] => by
    rw [List.mapM_nil]
    exact pure []
  | x :: xs => by
    rw [List.mapM_cons]
    exact bind hspoiled (h x) fun y => bind hspoiled (mapM hspoiled h xs) fun ys => pure (y :: ys)

theorem forM (hspoiled : server.Keeps spoiled) {f : α → Attempt p PUnit}
    (h : ∀ x, Agrees server spoiled linked (f x)) :
    ∀ xs : List α, Agrees server spoiled linked (xs.forM f)
  | [] => pure PUnit.unit
  | x :: xs => bind hspoiled (h x) fun _ => forM hspoiled h xs

end Agrees

end Attempt

end Switchyard
