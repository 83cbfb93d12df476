import Switchyard.Proofs.Dialogue.Alongside
import Switchyard.Topology.Buses

/-!
The graph and the buses of a level, worked out beside each other from two states of a server.

All questions are about the working variant, and of what is known of the level nothing but its kind
is looked at. So if two states of a server give the same answers about the variant, the generations
of levels aside, they give the same graphs, the same buses and the same faults.
-/

namespace Switchyard

/-- The variant that a question is about. -/
def IndexQuery.variant : IndexQuery → UInt32
  | level variant _ | injections variant _ _ | branches variant _ _ | transformers variant _
  | switches variant _ | setValid variant _ _ => variant

/-- Answers that are the same; of levels only the kind and the flag are compared. -/
def IndexQuery.Same : (query : IndexQuery) → query.Answer → query.Answer → Prop
  | level _ _, found, found' =>
    found.attributes.kind = found'.attributes.kind ∧
      found.attributes.valid = found'.attributes.valid
  | injections _ _ _, answer, answer' | branches _ _ _, answer, answer'
  | transformers _ _, answer, answer' | switches _ _, answer, answer'
  | setValid _ _ _, answer, answer' => answer = answer'

variable {σ : Type} {server : Server indexProtocol σ} {spoiled : σ → Prop}
  {linked : σ → σ → Prop} {number : UInt32} {level : String} {topology : Topology}
  {context : Context}

/-- Linked states give the same answers about the variant, and stay linked. -/
structure Server.Echoes (server : Server indexProtocol σ) (spoiled : σ → Prop)
    (linked : σ → σ → Prop) (number : UInt32) : Prop where
  stays : server.Keeps spoiled
  hear : ∀ judgement state state', linked state state' →
    linked (server.hear judgement state) (server.hear judgement state')
  answer : ∀ query : IndexQuery, query.variant = number →
    Dialogue.Alongside server spoiled linked (Dialogue.request (p := indexProtocol) query)
      (Dialogue.request (p := indexProtocol) query)
      fun result result' state state' => Concur query.Same result result' ∧ linked state state'

theorem Server.Echoes.of_answer (h : server.Echoes spoiled linked number) {query : IndexQuery}
    (hquery : query.variant = number) {state state' after after' : σ}
    {answer answer' : Except Fault query.Answer} (hlinked : linked state state')
    (hanswer : server.answer query state = (answer, after))
    (hanswer' : server.answer query state' = (answer', after')) :
    spoiled after ∨ Concur query.Same answer answer' ∧ linked after after' := by
  have hrequest := h.answer query hquery state state' hlinked
  simp only [Dialogue.request, Dialogue.run, hanswer, hanswer'] at hrequest
  exact hrequest

namespace Topology

open Attempt (Agrees)

theorem agrees_call (h : server.Echoes spoiled linked number) (query : IndexQuery)
    (hquery : query.variant = number)
    (hsame : ∀ answer answer', query.Same answer answer' → answer = answer') :
    Agrees server spoiled linked (Attempt.call (p := indexProtocol) query) := by
  intro state state' hlinked
  exact (h.answer query hquery state state' hlinked).imp_right fun ⟨hresults, hlater⟩ =>
    ⟨hresults.eq hsame, hlater⟩

theorem injectionVertices_agrees (h : server.Echoes spoiled linked number) (type : ResourceType) :
    Agrees server spoiled linked (topology.injectionVertices number level type) :=
  .bind h.stays (agrees_call h _ rfl fun _ _ hsame => hsame) fun _ =>
    .bind h.stays (.lift _) fun _ => .pure _

theorem branchVertices_agrees (h : server.Echoes spoiled linked number) (type : ResourceType) :
    Agrees server spoiled linked (topology.branchVertices number level type) :=
  .bind h.stays (agrees_call h _ rfl fun _ _ hsame => hsame) fun _ =>
    .bind h.stays (.lift _) fun _ => .pure _

theorem vertices_agrees (h : server.Echoes spoiled linked number) :
    Agrees server spoiled linked (topology.vertices number level) :=
  .bind h.stays (.mapM h.stays (injectionVertices_agrees h) _) fun _ =>
    .bind h.stays (.mapM h.stays (branchVertices_agrees h) _) fun _ =>
      .bind h.stays (agrees_call h _ rfl fun _ _ hsame => hsame) fun _ => .pure _

/-- The same graph is worked out from linked states. -/
theorem graph_agrees (h : server.Echoes spoiled linked number)
    (hnumber : context.number = .ok number) :
    Agrees server spoiled linked (topology.graph context level) := by
  unfold graph
  rw [hnumber]
  refine .lift_ok_bind (Agrees.bind_of_concur h.stays (h.answer (.level number level) rfl)
    fun found found' ⟨hkind, _⟩ => ?_)
  rw [hkind]
  by_cases hexpected : found'.attributes.kind = topology.kind
  · rw [if_pos hexpected]
    exact Agrees.bind h.stays (vertices_agrees h) fun _ =>
      .bind h.stays (agrees_call h (.switches number level) rfl fun _ _ hsame => hsame) fun _ =>
        .lift _
  · rw [if_neg hexpected]
    exact Agrees.lift (Except.error _)

/-- The same buses are worked out from linked states. -/
theorem buses_agrees (h : server.Echoes spoiled linked number)
    (hnumber : context.number = .ok number) :
    Agrees server spoiled linked (topology.buses context level) := by
  refine .bind h.stays (graph_agrees h hnumber) fun graph => ?_
  refine .bind h.stays (.forM h.stays (fun component => ?_) _) fun _ => .lift _
  exact fun state state' hlinked => .inr ⟨rfl, h.hear _ _ _ hlinked⟩

end Topology

end Switchyard
