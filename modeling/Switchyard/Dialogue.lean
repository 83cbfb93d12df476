import Switchyard.Fault

/-!
Computations that consult a service.

Buses and variants are worked out by asking a store one question at a time, and between two
questions other sessions may change the store. A `Dialogue` therefore holds every question apart,
with a continuation for each possible answer, failures included; it also tells notices, which need
no answer. A `Server` answers from a state, and `run` lets a dialogue take place against a server.
-/

namespace Switchyard

/-- What can be asked of a service, the answer each question has, and what the service is told. -/
structure Protocol where
  Query : Type
  Answer : Query → Type
  Notice : Type

/-- A computation of an `α` in which questions are asked and notices told. -/
inductive Dialogue (p : Protocol) (α : Type) where
  | done (value : α)
  | tell (notice : p.Notice) (rest : Dialogue p α)
  | ask (query : p.Query) (next : Except Fault (p.Answer query) → Dialogue p α)

namespace Dialogue

variable {p : Protocol} {α β γ σ : Type}

/-- Goes on with the value that a dialogue ends in. -/
protected def bind : Dialogue p α → (α → Dialogue p β) → Dialogue p β
  | done value, next => next value
  | tell notice rest, next => tell notice (rest.bind next)
  | ask query answered, next => ask query fun answer => (answered answer).bind next

instance : Monad (Dialogue p) where
  pure := done
  bind := Dialogue.bind

@[simp] theorem pure_eq_done (value : α) : (pure value : Dialogue p α) = done value := rfl

@[simp] theorem done_bind (value : α) (next : α → Dialogue p β) :
    (done value >>= next) = next value := rfl

@[simp] theorem tell_bind (notice : p.Notice) (rest : Dialogue p α) (next : α → Dialogue p β) :
    (tell notice rest >>= next) = tell notice (rest >>= next) := rfl

@[simp] theorem ask_bind (query : p.Query) (answered : Except Fault (p.Answer query) → Dialogue p α)
    (next : α → Dialogue p β) :
    (ask query answered >>= next) = ask query fun answer => answered answer >>= next := rfl

theorem bind_done (d : Dialogue p α) : d >>= done = d := by
  induction d with
  | done value => rfl
  | tell notice rest ih => rw [tell_bind, ih]
  | ask query answered ih => rw [ask_bind]; congr 1; funext answer; exact ih answer

theorem bind_assoc (d : Dialogue p α) (f : α → Dialogue p β) (g : β → Dialogue p γ) :
    (d >>= f) >>= g = d >>= fun value => f value >>= g := by
  induction d with
  | done value => rfl
  | tell notice rest ih => simp only [tell_bind, ih]
  | ask query answered ih => simp only [ask_bind]; congr 1; funext answer; exact ih answer

instance : LawfulMonad (Dialogue p) := LawfulMonad.mk' _ bind_done done_bind bind_assoc

/-- Asks one question; the answer may be a fault. -/
def request (query : p.Query) : Dialogue p (Except Fault (p.Answer query)) := ask query done

/-- Tells one notice. -/
def announce (notice : p.Notice) : Dialogue p Unit := tell notice (done ())

end Dialogue

/-- Answers questions and hears notices from a state. -/
structure Server (p : Protocol) (σ : Type) where
  answer : (query : p.Query) → σ → Except Fault (p.Answer query) × σ
  hear : p.Notice → σ → σ

namespace Dialogue

variable {p : Protocol} {α β σ : Type}

/-- Lets a dialogue take place against a server. -/
def run (server : Server p σ) : Dialogue p α → σ → α × σ
  | done value, state => (value, state)
  | tell notice rest, state => rest.run server (server.hear notice state)
  | ask query next, state =>
    let (answer, state) := server.answer query state
    (next answer).run server state

theorem run_bind (server : Server p σ) (d : Dialogue p α) (f : α → Dialogue p β) (state : σ) :
    (d >>= f).run server state =
      let (value, state) := d.run server state
      (f value).run server state := by
  induction d generalizing state with
  | done value => rfl
  | tell notice rest ih => exact ih _
  | ask query next ih => exact ih _ _

end Dialogue

/-- A dialogue that may fail. -/
abbrev Attempt (p : Protocol) := ExceptT Fault (Dialogue p)

/-- A dialogue that may fail, with a state that is kept whether or not it does. -/
abbrev Session (p : Protocol) (σ : Type) := ExceptT Fault (StateT σ (Dialogue p))

variable {p : Protocol} {α σ : Type}

namespace Attempt

/-- Asks one question; a fault ends the attempt. -/
def call (query : p.Query) : Attempt p (p.Answer query) := .mk (Dialogue.request query)

/-- Tells one notice. -/
def announce (notice : p.Notice) : Attempt p Unit := ExceptT.lift (Dialogue.announce notice)

end Attempt

instance : MonadLift (Attempt p) (Session p σ) :=
  ⟨fun attempt => .mk (StateT.lift attempt.run)⟩

namespace Session

/-- The dialogue of a session from a state: what came of it, and the state left. -/
def start (session : Session p σ α) (state : σ) : Dialogue p (Except Fault α × σ) :=
  StateT.run (ExceptT.run session) state

/-- Asks one question; the answer may be a fault. -/
def request (query : p.Query) : Session p σ (Except Fault (p.Answer query)) :=
  ExceptT.lift (StateT.lift (Dialogue.request query))

end Session

end Switchyard
