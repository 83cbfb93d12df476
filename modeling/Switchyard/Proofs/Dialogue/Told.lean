import Switchyard.Proofs.Dialogue.Outcome
import Switchyard.Proofs.Dialogue.Session

/-!
What a dialogue tells.

Of what is said when a dialogue takes place against a server, `told` keeps the notices. An attempt
that goes on with another tells what the first tells and then, unless a fault ended it, what the
second tells (`Attempt.told_bind`). Most attempts only ask: they are `Silent`, which is proved along
the way in which an attempt is put together.
-/

namespace Switchyard

variable {p : Protocol} {α β σ : Type} {server : Server p σ} {state : σ}

namespace Dialogue

/-- The notices that are told when a dialogue takes place. -/
def told (server : Server p σ) (d : Dialogue p α) (state : σ) : List p.Notice :=
  (d.transcript server state).filterMap Exchange.notice?

theorem told_ask (query : p.Query) (next : Except Fault (p.Answer query) → Dialogue p α) :
    (ask query next).told server state =
      (next (server.answer query state).1).told server (server.answer query state).2 := rfl

theorem told_bind (d : Dialogue p α) (f : α → Dialogue p β) :
    (d >>= f).told server state =
      d.told server state ++ (f (d.run server state).1).told server (d.run server state).2 := by
  rw [told, transcript_bind, List.filterMap_append]
  rfl

end Dialogue

namespace Attempt

theorem told_bind (attempt : Attempt p α) (f : α → Attempt p β) :
    (attempt >>= f).run.told server state = attempt.run.told server state ++
      match outcome server attempt state with
      | (.ok value, after) => (f value).run.told server after
      | (.error _, _) => [] := by
  refine (Dialogue.told_bind attempt.run _).trans (congrArg (attempt.run.told server state ++ ·) ?_)
  unfold outcome
  rcases Dialogue.run server attempt.run state with ⟨_ | _, _⟩ <;> rfl

/-- One notice for each member of a list. -/
theorem told_forM_announce (notice : α → p.Notice) (xs : List α) :
    (xs.forM fun x => announce (notice x)).run.told server state = xs.map notice := by
  induction xs generalizing state with
  | nil => rfl
  | cons x xs ih => exact congrArg (notice x :: ·) ih

/-- The attempt tells nothing to the server. -/
def Silent (server : Server p σ) (attempt : Attempt p α) : Prop :=
  ∀ state, attempt.run.told server state = []

namespace Silent

theorem pure (value : α) : Silent server (Pure.pure value : Attempt p α) := fun _ => rfl

theorem lift (result : Except Fault α) : Silent server (liftM result : Attempt p α) := fun _ => rfl

theorem call (query : p.Query) : Silent server (Attempt.call query) := fun _ => rfl

theorem bind {attempt : Attempt p α} {f : α → Attempt p β} (h : Silent server attempt)
    (hnext : ∀ value, Silent server (f value)) : Silent server (attempt >>= f) := by
  intro state
  rw [told_bind, h state, List.nil_append]
  rcases outcome server attempt state with ⟨_ | value, after⟩
  · rfl
  · exact hnext value after

theorem mapM {f : α → Attempt p β} (h : ∀ x, Silent server (f x)) :
    ∀ xs : List α, Silent server (xs.mapM f)
  | [] => by
    rw [List.mapM_nil]
    exact pure _
  | x :: xs => by
    rw [List.mapM_cons]
    exact bind (h x) fun _ => bind (mapM h xs) fun _ => pure _

end Silent

end Attempt

end Switchyard
