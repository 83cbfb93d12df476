import Switchyard.Dialogue

/-!
Dialogues among others.

Several dialogues share a server, which answers one question at a time, so before each question of
one dialogue the others may have changed the server. What one of them can rely on is a relation
between the states before and after the others have asked. `Among` says that however the others use
this, the dialogue asks only what it may, and what it ends in meets its postcondition; it is proved
along the way in which the dialogue is put together, and whatever the others do in accordance with
the relation keeps it.
-/

namespace Switchyard

namespace Dialogue

variable {p : Protocol} {α β σ : Type}

/-- Whatever is done, within what is relied on, before each question: the dialogue asks only what it
may, and ends in a value that meets `post`. Nothing is done to the server by telling. -/
def Among (server : Server p σ) (rely : σ → σ → Prop) (may : p.Query → Prop)
    (post : α → σ → Prop) : Dialogue p α → σ → Prop
  | done value, state => post value state
  | tell _ rest, state => rest.Among server rely may post state
  | ask query next, state => ∀ other, rely state other → may query ∧
      (next (server.answer query other).1).Among server rely may post (server.answer query other).2

namespace Among

variable {server : Server p σ} {rely : σ → σ → Prop} {may : p.Query → Prop} {state other : σ}

theorem bind {post : β → σ → Prop} {d : Dialogue p α} {f : α → Dialogue p β}
    (h : d.Among server rely may (fun value => (f value).Among server rely may post) state) :
    (d >>= f).Among server rely may post state := by
  induction d generalizing state with
  | done value => exact h
  | tell told rest ih => exact ih h
  | ask query next ih => exact fun other hother => ⟨(h other hother).1, ih _ (h other hother).2⟩

theorem imp {post post' : α → σ → Prop} {d : Dialogue p α}
    (h : d.Among server rely may post state)
    (himp : ∀ value state, post value state → post' value state) :
    d.Among server rely may post' state := by
  induction d generalizing state with
  | done value => exact himp value state h
  | tell told rest ih => exact ih h
  | ask query next ih => exact fun other hother => ⟨(h other hother).1, ih _ (h other hother).2⟩

/-- What others do, as is relied on, does no harm. -/
theorem of_rely {post : α → σ → Prop} (htrans : ∀ {a b c}, rely a b → rely b c → rely a c)
    (hpost : ∀ {value a b}, rely a b → post value a → post value b) {d : Dialogue p α}
    (h : d.Among server rely may post state) (hother : rely state other) :
    d.Among server rely may post other := by
  induction d generalizing state with
  | done value => exact hpost hother h
  | tell told rest ih => exact ih h hother
  | ask query next => exact fun later hlater => h later (htrans hother hlater)

end Among

end Dialogue

end Switchyard
