import Switchyard.Proofs.Dialogue.Outcome
import Switchyard.Proofs.Store.Step
import Switchyard.Proofs.Topology.Listed
import Switchyard.Store.Server

/-!
Working out the graph and the buses of a level by asking a server.

The dialogues ask for nothing but the kind and the listings of the level, so against a server that
shows the same contents of the level throughout they come to what is made of these contents
(`graph_ensures`, `buses_ensures`). A server may also be spoiled on the way, after which nothing is
claimed. A store that is left alone shows the contents of each of its levels
(`outcome_graph`, `outcome_buses`).
-/

namespace Switchyard

variable {σ : Type} {server : Server indexProtocol σ} {sound spoiled : σ → Prop} {number : UInt32}
  {level : String} {contents : Contents} {topology : Topology} {context : Context}

/-- As long as it is sound, the server answers every question about the level from the contents. -/
structure Server.Shows (server : Server indexProtocol σ) (sound spoiled : σ → Prop)
    (number : UInt32) (level : String) (contents : Contents) : Prop where
  typed : contents.listings.Typed
  stays : server.Keeps spoiled
  hear : ∀ judgement state, sound state → sound (server.hear judgement state)
  found : Attempt.Ensures server sound spoiled (Inquiry.level number level)
    fun result => ∃ found, result = .ok found ∧ found.attributes.kind = contents.kind
  injections : ∀ type, type.isInjection = true →
    Attempt.Ensures server sound spoiled (Inquiry.injections number level type)
      (· = .ok (contents.listings.injections type))
  branches : ∀ type, type.isBranch = true →
    Attempt.Ensures server sound spoiled (Inquiry.branches number level type)
      (· = .ok (contents.listings.branches type))
  transformers : Attempt.Ensures server sound spoiled (Inquiry.transformers number level)
    (· = .ok contents.listings.transformers)
  switches : Attempt.Ensures server sound spoiled (Inquiry.switches number level)
    (· = .ok contents.listings.switches)

/-- Where every step succeeds, so do all together. -/
theorem mapM_eq_ok {α β : Type} {f : α → Except Fault β} {g : α → β} :
    ∀ {xs : List α}, (∀ x ∈ xs, f x = .ok (g x)) → xs.mapM f = .ok (xs.map g)
  | [], _ => rfl
  | x :: xs, h => by
    rw [List.mapM_cons, h x List.mem_cons_self,
      mapM_eq_ok fun y hy => h y (List.mem_cons_of_mem _ hy)]
    rfl

namespace Topology

open Attempt (Ensures)

theorem injectionVertices_ensures (h : server.Shows sound spoiled number level contents)
    {type : ResourceType} (htype : type.isInjection = true) :
    Ensures server sound spoiled (topology.injectionVertices number level type)
      (· = .ok ((contents.listings.injections type).filterMap topology.placeInjection)) := by
  refine .bind_ok h.stays (h.injections type htype) ?_
  have hplaced : (contents.listings.injections type).mapM topology.injectionVertex =
      .ok ((contents.listings.injections type).map topology.placeInjection) :=
    mapM_eq_ok fun r hr => injectionVertex_eq (by rw [h.typed.injections type r hr, htype])
  rw [hplaced]
  refine .lift_ok_bind (.pure ?_)
  rw [List.filterMap_map]
  rfl

theorem branchVertices_ensures (h : server.Shows sound spoiled number level contents)
    {type : ResourceType} (htype : type.isBranch = true) :
    Ensures server sound spoiled (topology.branchVertices number level type)
      (· = .ok ((contents.listings.branches type).filterMap (topology.placeBranch level))) := by
  refine .bind_ok h.stays (h.branches type htype) ?_
  have hplaced : (contents.listings.branches type).mapM (topology.branchVertex level) =
      .ok ((contents.listings.branches type).map (topology.placeBranch level)) :=
    mapM_eq_ok fun r hr => branchVertex_eq (by rw [h.typed.branches type r hr, htype])
  rw [hplaced]
  refine .lift_ok_bind (.pure ?_)
  rw [List.filterMap_map]
  rfl

theorem vertices_ensures (h : server.Shows sound spoiled number level contents) :
    Ensures server sound spoiled (topology.vertices number level)
      (· = .ok (topology.listed level contents.listings)) := by
  refine .bind_ok h.stays (.mapM h.stays fun type htype =>
    injectionVertices_ensures h (ResourceType.isInjection_iff_mem.mpr htype)) ?_
  refine .bind_ok h.stays (.mapM h.stays fun type htype =>
    branchVertices_ensures h (ResourceType.isBranch_iff_mem.mpr htype)) ?_
  refine .bind_ok h.stays h.transformers (.pure ?_)
  have hlegs : topology.transformerVertex level = topology.placeTransformer level :=
    funext transformerVertex_eq
  rw [listed, List.flatMap, List.flatMap, hlegs]

/-- The graph that is worked out is that of the contents shown. -/
theorem graph_ensures (h : server.Shows sound spoiled number level contents)
    (hnumber : context.number = .ok number) :
    Ensures server sound spoiled (topology.graph context level)
      (· = topology.graphOf level contents) := by
  unfold graph graphOf
  rw [hnumber]
  refine .lift_ok_bind ?_
  refine .bind h.stays h.found (fun found hfound => ?_) (fun _ hfault => nomatch hfault)
  obtain ⟨_, hsame, hkind⟩ := hfound
  cases hsame
  rw [hkind]
  by_cases hexpected : contents.kind = topology.kind
  · rw [if_pos hexpected, if_pos hexpected]
    exact .bind_ok h.stays (vertices_ensures h) (.bind_ok h.stays h.switches (.lift rfl))
  · rw [if_neg hexpected, if_neg hexpected]
    exact .lift rfl

/-- The buses that are worked out are those of the contents shown. -/
theorem buses_ensures (h : server.Shows sound spoiled number level contents)
    (hnumber : context.number = .ok number) :
    Ensures server sound spoiled (topology.buses context level)
      (· = topology.busesOf level contents) := by
  refine .bind h.stays (graph_ensures h hnumber) (fun graph hgraph => ?_) (fun fault hfault => ?_)
  · unfold busesOf
    rw [← hgraph]
    refine .bind_ok h.stays (.forM h.stays fun component _ state hstate => ?_) (.lift rfl)
    exact .inr ⟨rfl, h.hear _ _ hstate⟩
  · unfold busesOf
    rw [← hfault]
    rfl

end Topology

/-! ### A store that is left alone -/

namespace Store

variable {store : Store} {record : LevelRecord}

/-- A store shows what it holds of a level. -/
theorem shows_index (h : store.record? number level = some record) :
    index.Shows (· = store) (fun _ => False) number level record.contents := by
  obtain ⟨network, found, hnetwork, hfound, rfl⟩ := record?_eq_some_iff.mp h
  refine ⟨network.typed_listings level, ⟨fun _ _ => id, fun _ _ => id⟩, fun _ _ => id,
    ?_, fun type htype => ?_, fun type htype => ?_, ?_, ?_⟩ <;> rintro _ rfl <;>
    refine .inr ⟨?_, rfl⟩
  · exact ⟨found, hfound, rfl⟩
  · change Store.injections _ number level type = _
    rw [Store.injections, htype, hnetwork]
    rfl
  · change Store.branches _ number level type = _
    rw [Store.branches, htype, hnetwork]
    rfl
  · change Store.transformers _ number level = _
    rw [Store.transformers, hnetwork]
    rfl
  · change Store.switches _ number level = _
    rw [Store.switches, hnetwork]
    rfl

/-- A level is read as the store holds it, and the store is left as it was. -/
theorem read_index {after : Store} {answer : Except Fault (Resource VoltageLevel)}
    (h : index.answer (.level number level) store = (answer, after)) :
    after = store ∧ store.level number level = answer :=
  ⟨(congrArg Prod.snd h).symm, congrArg Prod.fst h⟩

theorem outcome_of_ensures {α : Type} {attempt : Inquiry α} {result : Except Fault α}
    (h : Attempt.Ensures index (· = store) (fun _ => False) attempt (· = result)) :
    attempt.outcome index store = (result, store) := by
  rcases h store rfl with hbad | ⟨hresult, hstore⟩
  · exact hbad.elim
  · exact Prod.ext hresult hstore

/-- The graph of a level of the store, which is left as it was. -/
theorem outcome_graph (h : store.record? number level = some record)
    (hnumber : context.number = .ok number) :
    (topology.graph context level).outcome index store =
      (topology.graphOf level record.contents, store) :=
  outcome_of_ensures (Topology.graph_ensures (shows_index h) hnumber)

/-- The buses of a level of the store, which is left as it was. -/
theorem outcome_buses (h : store.record? number level = some record)
    (hnumber : context.number = .ok number) :
    (topology.buses context level).outcome index store =
      (topology.busesOf level record.contents, store) :=
  outcome_of_ensures (Topology.buses_ensures (shows_index h) hnumber)

/-- There is no graph of a level that cannot be read. -/
theorem outcome_graph_of_error {fault : Fault} (hcontext : context.number = .ok number)
    (h : store.level number level = .error fault) :
    (topology.graph context level).outcome index store = (.error fault, store) := by
  have hread : (Inquiry.level number level).outcome index store = (.error fault, store) :=
    Prod.ext h rfl
  rw [Topology.graph, hcontext]
  change Attempt.outcome index (Inquiry.level number level >>= _) store = _
  rw [Attempt.outcome_bind, hread]

/-- A graph that is worked out is that of a level which the store holds. -/
theorem exists_record_of_graph {graph : Graph}
    (h : ((topology.graph context level).outcome index store).1 = .ok graph) :
    ∃ number record, context.number = .ok number ∧ store.record? number level = some record ∧
      topology.graphOf level record.contents = .ok graph := by
  cases hnumber : context.number with
  | error fault =>
    rw [Topology.graph, hnumber] at h
    cases h
  | ok number =>
    cases hlevel : store.level number level with
    | error fault =>
      rw [outcome_graph_of_error hnumber hlevel] at h
      cases h
    | ok found =>
      obtain ⟨record, hrecord, _⟩ := record?_of_level hlevel
      rw [outcome_graph hrecord hnumber] at h
      exact ⟨number, record, rfl, hrecord, h⟩

/-- Where the working variant is known, so is the one that holds the level. -/
theorem record_of_graph {graph : Graph} (hnumber : context.number = .ok number)
    (h : ((topology.graph context level).outcome index store).1 = .ok graph) :
    ∃ record, store.record? number level = some record ∧
      topology.graphOf level record.contents = .ok graph := by
  obtain ⟨working, record, hworking, hrecord, hgraphOf⟩ := exists_record_of_graph h
  cases hnumber.symm.trans hworking
  exact ⟨record, hrecord, hgraphOf⟩

/-- A graph that is worked out is made of what the network of the working variant lists. -/
theorem exists_network_of_graph {graph : Graph}
    (h : ((topology.graph context level).outcome index store).1 = .ok graph) :
    ∃ number network contents, context.number = .ok number ∧ store.network number = .ok network ∧
      contents.listings = network.listings level ∧ topology.graphOf level contents = .ok graph := by
  obtain ⟨number, record, hnumber, hrecord, hgraphOf⟩ := exists_record_of_graph h
  obtain ⟨network, _, hnetwork, _, hcontents⟩ := record?_eq_some_iff.mp hrecord
  exact ⟨number, network, record.contents, hnumber, hnetwork, by rw [hcontents], hgraphOf⟩

end Store

end Switchyard
