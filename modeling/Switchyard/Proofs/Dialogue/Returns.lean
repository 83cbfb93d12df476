import Switchyard.Proofs.Dialogue.Outcome

/-!
What a dialogue can end in, whatever it is answered.

`Returns` says that every value at the end of a dialogue has a property, and of an attempt that
every value it comes to has. Nothing is assumed of the answers, so the property is found at the end
of a run against any server in any state (`Attempt.Returns.outcome`). It is proved along the way in
which the attempt is put together.
-/

namespace Switchyard

variable {p : Protocol} {α β σ : Type}

namespace Dialogue

/-- Whatever is answered, the dialogue ends in a value with the property. -/
def Returns (post : α → Prop) : Dialogue p α → Prop
  | done value => post value
  | tell _ rest => rest.Returns post
  | ask _ next => ∀ answer, (next answer).Returns post

theorem Returns.any {post : α → Prop} (h : ∀ value, post value) (d : Dialogue p α) :
    d.Returns post := by
  induction d with
  | done value => exact h value
  | tell notice rest ih => exact ih
  | ask query next ih => exact ih

theorem Returns.bind {post : α → Prop} {post' : β → Prop} {d : Dialogue p α}
    {f : α → Dialogue p β} (h : d.Returns post)
    (hnext : ∀ value, post value → (f value).Returns post') : (d >>= f).Returns post' := by
  induction d with
  | done value => exact hnext value h
  | tell notice rest ih => exact ih h
  | ask query next ih => exact fun answer => ih answer (h answer)

/-- The value that a run against a server ends in is one of those. -/
theorem Returns.run {post : α → Prop} {d : Dialogue p α} (h : d.Returns post)
    (server : Server p σ) (state : σ) : post (d.run server state).1 := by
  induction d generalizing state with
  | done value => exact h
  | tell notice rest ih => exact ih h _
  | ask query next ih => exact ih _ (h _) _

end Dialogue

namespace Attempt

/-- Whatever is answered, the attempt fails or comes to a value with the property. -/
def Returns (post : α → Prop) (attempt : Attempt p α) : Prop :=
  Dialogue.Returns (fun result => ∀ value, result = .ok value → post value) attempt.run

namespace Returns

variable {post : α → Prop} {post' : β → Prop}

theorem any (attempt : Attempt p α) : Returns (fun _ => True) attempt :=
  Dialogue.Returns.any (fun _ _ _ => trivial) attempt.run

theorem pure {value : α} (h : post value) : Returns post (Pure.pure value : Attempt p α) := by
  rintro _ ⟨⟩
  exact h

theorem lift {result : Except Fault α} :
    Returns (result = .ok ·) (liftM result : Attempt p α) := fun _ h => h

theorem bind {attempt : Attempt p α} {f : α → Attempt p β} (h : Returns post attempt)
    (hnext : ∀ value, post value → Returns post' (f value)) : Returns post' (attempt >>= f) := by
  refine Dialogue.Returns.bind h fun result hresult => ?_
  cases result with
  | error fault => exact nofun
  | ok value => exact hnext value (hresult value rfl)

theorem imp {post' : α → Prop} {attempt : Attempt p α} (h : Returns post attempt)
    (himp : ∀ value, post value → post' value) : Returns post' attempt := by
  rw [← bind_pure attempt]
  exact bind h fun value hvalue => pure (himp value hvalue)

theorem mapM {f : α → Attempt p β} (h : ∀ x, Returns post' (f x)) :
    ∀ xs : List α, Returns (fun ys => ∀ y ∈ ys, post' y) (xs.mapM f)
  | [] => by
    rw [List.mapM_nil]
    exact pure fun _ hy => nomatch hy
  | x :: xs => by
    rw [List.mapM_cons]
    refine bind (h x) fun y hy => bind (mapM h xs) fun ys hys => pure ?_
    exact List.forall_mem_cons.mpr ⟨hy, hys⟩

/-- The value that an attempt comes to against a server is one of those. -/
theorem outcome {attempt : Attempt p α} (h : Returns post attempt) {server : Server p σ}
    {state : σ} {value : α} (hvalue : (attempt.outcome server state).1 = .ok value) : post value :=
  Dialogue.Returns.run h server state value hvalue

end Returns

end Attempt

end Switchyard
