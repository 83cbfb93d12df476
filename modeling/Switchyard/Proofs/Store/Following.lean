import Switchyard.Proofs.Store.Alike
import Switchyard.Proofs.Store.Disturbed
import Switchyard.Proofs.Topology.Agreement

/-!
Reading one variant from two stores.

Stores that hold the same of a variant, generations aside, answer alike about it, so its graphs and
its buses are the same in both (`outcome_graph`, `outcome_buses`). This goes on while other sessions
disturb the one store, if those of their operations that alter the variant disturb the other at the
same moments (`Follows`), and no clone is granted to the number of the variant meanwhile.
-/

namespace Switchyard

namespace Store

variable {number : UInt32} {first second : Store} {level : String} {topology : Topology}
  {context : Context}

namespace Alike

/-- What is listed for a level of the variant is the same in both stores. -/
theorem listed_eq (h : Alike number first second) (level : String) {α : Type}
    (list : Listings → α) :
    (first.network number >>= fun network => Except.ok (list (network.listings level))) =
      second.network number >>= fun network => Except.ok (list (network.listings level)) := by
  unfold network
  obtain ⟨hnone, hnone'⟩ | ⟨variant, variant', hvariant, hvariant', hundated⟩ := h.variant?_cases
  · rw [hnone, hnone']
  · rw [hvariant, hvariant']
    exact congrArg (fun listings => Except.ok (list listings))
      (Network.listings_eq_of_undated_eq hundated level)

/-- A level is there in both stores or in neither, with the same kind and the same flag. -/
theorem level_concurs (h : Alike number first second) (level : String) :
    Concur (IndexQuery.level number level).Same (first.level number level)
      (second.level number level) := by
  unfold Store.level network
  obtain ⟨hnone, hnone'⟩ | ⟨variant, variant', hvariant, hvariant', hundated⟩ := h.variant?_cases
  · rw [hnone, hnone']
    exact .error _
  rw [hvariant, hvariant']
  have hlevel := congrArg (·.level? level) hundated
  simp only [Network.undated, Network.level?_redate] at hlevel
  dsimp only [bind, Except.bind]
  cases hfound : variant.network.level? level <;> cases hfound' : variant'.network.level? level <;>
    rw [hfound, hfound'] at hlevel
  case none.none => exact .error _
  case none.some => cases hlevel
  case some.none => cases hlevel
  case some.some found found' =>
    have hsame : found.attributes.redate (fun _ => 0) = found'.attributes.redate (fun _ => 0) :=
      congrArg Resource.attributes (Option.some.inj hlevel)
    have hkind := congrArg VoltageLevel.kind hsame
    have hvalid := congrArg VoltageLevel.valid hsame
    exact .ok ⟨hkind, hvalid⟩

/-- A question about the variant is answered alike, and is followed by alike stores. -/
theorem answerIndex (h : Alike number first second) {query : IndexQuery}
    (hquery : query.variant = number) :
    Concur query.Same (first.answerIndex query).1 (second.answerIndex query).1 ∧
      Apace number first second (first.answerIndex query).2 (second.answerIndex query).2 := by
  cases query with
  | level variant level =>
    obtain rfl : variant = number := hquery
    exact ⟨h.level_concurs level, .refl h⟩
  | injections variant level type =>
    obtain rfl : variant = number := hquery
    refine ⟨.of_eq (fun _ => rfl) ?_, .refl h⟩
    change Store.injections first variant level type = Store.injections second variant level type
    unfold Store.injections
    cases type.isInjection with
    | false => rfl
    | true => exact h.listed_eq level (·.injections type)
  | branches variant level type =>
    obtain rfl : variant = number := hquery
    refine ⟨.of_eq (fun _ => rfl) ?_, .refl h⟩
    change Store.branches first variant level type = Store.branches second variant level type
    unfold Store.branches
    cases type.isBranch with
    | false => rfl
    | true => exact h.listed_eq level (·.branches type)
  | transformers variant level =>
    obtain rfl : variant = number := hquery
    exact ⟨.of_eq (fun _ => rfl) (h.listed_eq level (·.transformers)), .refl h⟩
  | switches variant level =>
    obtain rfl : variant = number := hquery
    exact ⟨.of_eq (fun _ => rfl) (h.listed_eq level (·.switches)), .refl h⟩
  | setValid variant level valid =>
    obtain rfl : variant = number := hquery
    exact (h.alter (.setValid level valid)).imp_left (.of_eq fun _ => rfl)

end Alike

/-- Alike stores answer alike, and stay alike. -/
theorem echoes_index (number : UInt32) :
    index.Echoes (fun _ => False) (Alike number) number where
  stays := ⟨fun _ _ => id, fun _ _ => id⟩
  hear _ _ _ h := h
  answer _ hquery _ _ h := .inr ((h.answerIndex hquery).imp_right Apace.alike)

/-- The graph of a level is the same in alike stores, or the fault is. -/
theorem Alike.outcome_graph (h : Alike number first second) (topology : Topology) (level : String)
    (hcontext : context.number = .ok number) :
    ((topology.graph context level).outcome index first).1 =
      ((topology.graph context level).outcome index second).1 := by
  obtain hbad | ⟨hsame, _⟩ := Topology.graph_agrees (echoes_index number) hcontext first second h
  · exact hbad.elim
  · exact hsame

/-- The buses of a level are the same in alike stores, or the fault is. -/
theorem Alike.outcome_buses (h : Alike number first second) (topology : Topology) (level : String)
    (hcontext : context.number = .ok number) :
    ((topology.buses context level).outcome index first).1 =
      ((topology.buses context level).outcome index second).1 := by
  obtain hbad | ⟨hsame, _⟩ := Topology.buses_agrees (echoes_index number) hcontext first second h
  · exact hbad.elim
  · exact hsame

/-- Nobody can tell the stores apart by asking about the variant, or by working out graphs and buses
of its levels. -/
structure AgreeOn (number : UInt32) (first second : Store) : Prop where
  answers : ∀ query : IndexQuery, query.variant = number →
    Concur query.Same (first.answerIndex query).1 (second.answerIndex query).1
  graphs : ∀ (topology : Topology) level,
    ((topology.graph (.workingOn number) level).outcome index first).1 =
      ((topology.graph (.workingOn number) level).outcome index second).1
  buses : ∀ (topology : Topology) level,
    ((topology.buses (.workingOn number) level).outcome index first).1 =
      ((topology.buses (.workingOn number) level).outcome index second).1

theorem Alike.agreeOn (h : Alike number first second) : AgreeOn number first second where
  answers _ hquery := (h.answerIndex hquery).1
  graphs topology level := h.outcome_graph topology level rfl
  buses topology level := h.outcome_buses topology level rfl

/-! ### While others interfere -/

/-- The second disturbed store goes along with the first: since the stores were `base` and `base'`
it has undergone what the first has that alters the variant, and the same holds of what is to come.
-/
structure Follows (number : UInt32) (start base base' : Store) (state state' : Disturbed) :
    Prop where
  reached : state.store = start.run state.performed
  apace : Apace number base base' state.store state'.store
  pending : ∀ i, state'.pending.getD i [] = (state.pending.getD i []).filter (·.alters number)

variable {start base base' : Store} {state state' : Disturbed}

theorem Follows.rebase (h : Follows number start base base' state state') :
    Follows number start state.store state'.store state state' :=
  ⟨h.reached, .refl h.apace.alike, h.pending⟩

/-- The number of the variant was given to a clone since the start. -/
def Reused (number : UInt32) (start : Store) (state : Disturbed) : Prop :=
  ¬ Withholds number start state.performed

/-- What was granted is not taken back. -/
theorem keeps_reused (number : UInt32) (start : Store) : disturbed.Keeps (Reused number start) where
  answer _ _ hreused hwithholds := hreused hwithholds.of_append.1.of_append.1
  hear _ _ := id

theorem Follows.interrupted (h : Follows number start base base' state state')
    (hwithholds : Withholds number start state.interrupted.performed) :
    Follows number start base base' state.interrupted state'.interrupted := by
  have hhead : ∀ pending : List (List Operation), pending.headD [] = pending.getD 0 [] := by
    rintro (_ | _) <;> rfl
  have htail : ∀ (pending : List (List Operation)) i,
      pending.tail.getD i [] = pending.getD (i + 1) [] := by
    rintro (_ | _) i <;> rfl
  have hlater : Withholds number state.store (state.pending.headD []) :=
    h.reached ▸ hwithholds.of_append.2
  refine ⟨?_, h.apace.trans ?_, fun i => ?_⟩
  · rw [Disturbed.interrupted, run_append, h.reached]
  · have hrun := h.apace.alike.run hlater
    rw [hhead, ← h.pending 0, ← hhead, ← hhead] at hrun
    exact hrun
  · rw [Disturbed.interrupted, Disturbed.interrupted, htail, htail, h.pending]

/-- Disturbed stores of which one follows the other answer alike, and go on so. -/
theorem echoes_disturbed (number : UInt32) (start base base' : Store) :
    disturbed.Echoes (Reused number start) (Follows number start base base') number where
  stays := keeps_reused number start
  hear _ _ _ h := h
  answer query hquery state state' h := by
    by_cases hwithholds : Withholds number start (disturbed.answer query state).2.performed
    · have hinterrupted := h.interrupted hwithholds.of_append.1
      obtain ⟨hresults, hlater⟩ := hinterrupted.apace.alike.answerIndex hquery
      refine .inr ⟨hresults, ?_, hinterrupted.apace.trans hlater, hinterrupted.pending⟩
      change (state.interrupted.store.answerIndex query).2 = start.run (_ ++ _)
      rw [answerIndex_snd, run_append, hinterrupted.reached]
    · exact .inl hwithholds

end Store

end Switchyard
