import Switchyard.Proofs.Cache.Correspondence
import Switchyard.Proofs.Cache.Freshness
import Switchyard.Proofs.Cache.Upkeep
import Switchyard.Proofs.Store.Touching

/-!
Buses that were calculated stay in the cache.

An entry may be served as long as its level has its generation and is flagged valid. Alterations of
other levels, operations on other variants and queries with whatever topologies and caches, whether
they succeed or fail, take neither away (`record?_of_spares`). Nor do they take the entry out of
its cache: reading a level drops only what may not be served, and an entry is only put in the place
of one that is missing (`Call.find?_of_kept`). So what a query has stored or was served with is kept
(`World.Retains`) until something happens to this level, and the same query is then answered from
the cache.
-/

namespace Switchyard

/-- The operation neither changes what is listed for the level, nor takes its flag back, nor deletes
its variant. -/
structure Operation.Spares (operation : Operation) (store : Store) (number : UInt32)
    (level : String) : Prop where
  kept : operation ≠ .delete number
  flagged : operation ≠ .setValid number level false
  untouched : ∀ (alteration : Alteration) network, operation = alteration.on number →
    (store.apply operation).1 = .ok () → store.network number = .ok network →
      level ∉ alteration.touched network

namespace Operation.Spares

variable {store : Store} {operation : Operation} {number : UInt32} {level : String}

/-- Raising the flag of a level spares it. -/
theorem of_raised : (setValid number level true).Spares store number level := by
  refine ⟨nofun, nofun, fun alteration network halter _ _ => ?_⟩
  cases alteration <;> cases halter
  exact List.not_mem_nil

/-- Operations on other variants spare the level, clones of its own variant included. -/
theorem of_target_ne (h : operation.target ≠ number) : operation.Spares store number level := by
  refine ⟨fun hdelete => h ?_, fun hflag => h ?_, fun alteration network halter _ _ => absurd ?_ h⟩
  · rw [hdelete, target]
  · rw [hflag, target]
  · rw [halter]
    cases alteration <;> rfl

end Operation.Spares

namespace Store

variable {store : Store} {operation : Operation} {operations first second : List Operation}
  {number : UInt32} {level : String} {record : LevelRecord}

/-- A level that is held and spared has its generation afterwards, and its flag if it had it. -/
theorem record?_of_spares (h : operation.Spares store number level)
    (hrecord : store.record? number level = some record) :
    ∃ later, (store.after operation).record? number level = some later ∧
      later.generation = record.generation ∧ (record.valid = true → later.valid = true) := by
  by_cases hflag : ∃ value, operation = .setValid number level value
  · obtain ⟨value, rfl⟩ := hflag
    cases value with
    | false => exact absurd rfl h.flagged
    | true =>
      rw [record?_after_setValid, hrecord]
      exact ⟨_, rfl, rfl, fun _ => rfl⟩
  · have htouches : ¬ operation.Touches store number level := by
      rintro ⟨hok, ⟨source, name, rfl⟩ | ⟨alteration, network, halter, hnetwork, hlevel⟩⟩
      · -- the variant is there, so no clone is granted to its number
        obtain ⟨variant, hvariant, _⟩ := Option.bind_eq_some_iff.mp hrecord
        obtain ⟨_, hrefused, _⟩ | ⟨_, _, hfree, _⟩ := apply_clone_cases store source number name
        · rw [hrefused] at hok
          cases hok
        · rw [nameAt_of_variant? hvariant] at hfree
          cases hfree
      · exact h.untouched alteration network halter hok hnetwork hlevel
    refine ⟨record, ?_, rfl, id⟩
    rw [record?_of_not_touches htouches h.kept fun value hset => hflag ⟨value, hset⟩, hrecord]

/-- All operations of a run spare the level. -/
def Spared (number : UInt32) (level : String) : Store → List Operation → Prop
  | _, [] => True
  | store, operation :: operations =>
    operation.Spares store number level ∧ (store.after operation).Spared number level operations

theorem spared_append : store.Spared number level (first ++ second) ↔
    store.Spared number level first ∧ (store.run first).Spared number level second := by
  induction first generalizing store with
  | nil => exact ⟨fun h => ⟨trivial, h⟩, And.right⟩
  | cons operation first ih =>
    rw [List.cons_append, Spared, Spared, ih, and_assoc]
    rfl

theorem record?_of_spared (h : store.Spared number level operations)
    (hrecord : store.record? number level = some record) :
    ∃ later, (store.run operations).record? number level = some later ∧
      later.generation = record.generation ∧ (record.valid = true → later.valid = true) := by
  induction operations generalizing store record with
  | nil => exact ⟨record, hrecord, rfl, id⟩
  | cons operation operations ih =>
    obtain ⟨middle, hmiddle, hgeneration, hvalid⟩ := record?_of_spares h.1 hrecord
    obtain ⟨later, hlater, hgeneration', hvalid'⟩ := ih h.2 hmiddle
    exact ⟨later, hlater, hgeneration'.trans hgeneration, fun h => hvalid' (hvalid h)⟩

/-- Raising the flag of a level spares it. -/
theorem spared_of_raised (h : ∀ operation ∈ operations, operation = .setValid number level true) :
    store.Spared number level operations := by
  induction operations generalizing store with
  | nil => trivial
  | cons operation operations ih =>
    obtain ⟨rfl, hrest⟩ := List.forall_mem_cons.mp h
    exact ⟨.of_raised, ih hrest⟩

/-- The level has the generation, and is flagged valid. -/
def Fresh (number : UInt32) (level : String) (generation : Nat) (store : Store) : Prop :=
  ∃ record, store.record? number level = some record ∧ record.generation = generation ∧
    record.valid = true

theorem Fresh.run {generation : Nat} (h : Fresh number level generation store)
    (hspared : store.Spared number level operations) :
    Fresh number level generation (store.run operations) := by
  obtain ⟨record, hrecord, rfl, hvalid⟩ := h
  obtain ⟨later, hlater, hgeneration, hflag⟩ := record?_of_spared hspared hrecord
  exact ⟨later, hlater, hgeneration, hflag hvalid⟩

/-- A level that is fresh can be read. -/
theorem Fresh.exists_level {generation : Nat} (h : Fresh number level generation store) :
    ∃ found, store.level number level = .ok found ∧ found.attributes.valid = true ∧
      found.attributes.generation = generation := by
  obtain ⟨record, hrecord, hgeneration, hvalid⟩ := h
  obtain ⟨_, found, _, hfound, rfl⟩ := record?_eq_some_iff.mp hrecord
  exact ⟨found, hfound, hvalid, hgeneration⟩

/-- What is read of a level that is fresh. -/
theorem Fresh.of_level {generation : Nat} {found : Resource VoltageLevel}
    (h : Fresh number level generation store) (hfound : store.level number level = .ok found) :
    found.attributes.valid = true ∧ found.attributes.generation = generation := by
  obtain ⟨_, hread, hfresh⟩ := h.exists_level
  cases hread.symm.trans hfound
  exact hfresh

end Store

/-! ### Entries that may be served -/

namespace Topology

open Dialogue

variable {σ : Type} {server : Server indexProtocol σ} {topology : Topology} {context : Context}
  {level : String} {number : UInt32} {cache after : BusCache} {state read last : σ}
  {result : Except Fault Buses} {questions : List IndexQuery} {found : Resource VoltageLevel}
  {entry : CacheEntry} {key : CacheKey}

/-- An entry that may be served whenever its level is read stays where it is, whatever level a query
is for and however it goes. -/
theorem Call.find?_of_kept
    (h : Call topology server context level cache state result after last questions)
    (hentry : cache.find? key = some entry)
    (hserved : context.number = .ok key.variant → level = key.level → ∀ found read,
      server.answer (.level key.variant level) state = (.ok found, read) →
        found.attributes.valid = true ∧ entry.generation = found.attributes.generation) :
    after.find? key = some entry := by
  cases hcontext : context.number with
  | error fault => rw [(h.of_unset hcontext).2.1, hentry]
  | ok number =>
    rcases hread : server.answer (.level number level) state with ⟨fault | found, read⟩
    · rw [(h.of_unread hcontext hread).2.1, hentry]
    · have hrefreshed :
          (cache.refresh number level found.attributes).find? key = some entry := by
        rw [BusCache.find?_refresh, hentry]
        split
        case isTrue hkey =>
          obtain ⟨rfl, rfl⟩ := hkey
          exact Option.filter_some_pos (decide_eq_true (hserved hcontext rfl found read hread))
        case isFalse => rfl
      obtain ⟨_, _, _, rfl, _⟩ | ⟨hmissing, ⟨_, _, rfl, _⟩ | ⟨_, _, rfl, _⟩⟩ :=
        h.of_read hcontext hread
      · exact hrefreshed
      · exact hrefreshed
      · rw [BusCache.find?_insert, if_neg ?_, hrefreshed]
        rintro rfl
        cases hmissing.symm.trans hrefreshed

/-- A query that finds an entry which may be served asks for its level and nothing else. -/
theorem served_of_find? (server : Server indexProtocol σ) (state : σ)
    (hcontext : context.number = .ok number)
    (hentry : cache.find? ⟨number, level, topology.id⟩ = some entry)
    (hread : server.answer (.level number level) state = (.ok found, read))
    (hvalid : found.attributes.valid = true)
    (hgeneration : found.attributes.generation = entry.generation) :
    let query := (topology.cachedBuses context level).start cache
    (query.run server state).1.1 = .ok entry.buses ∧
      query.transcript server state = [.question (.level number level) state] ∧
      query.asked server state = [.level number level] := by
  have hrefreshed : (cache.refresh number level found.attributes).find?
      ⟨number, level, topology.id⟩ = some entry := by
    rw [BusCache.find?_refresh, if_pos ⟨rfl, rfl⟩, hentry]
    exact Option.filter_some_pos (decide_eq_true ⟨hvalid, hgeneration.symm⟩)
  intro query
  rw [show query = _ from start_cachedBuses cache hcontext, Dialogue.run, transcript,
    Dialogue.asked, hread]
  dsimp only
  rw [hrefreshed]
  exact ⟨rfl, rfl, rfl⟩

end Topology

/-- The last operation of a query that stores an entry raises the flag of its level. -/
theorem Store.raised_of_stores {topology : Topology} {context : Context} {level : String}
    {state last : Disturbed} {entry : CacheEntry}
    (h : topology.Stores disturbed context level state last entry) :
    ∃ number store, context.number = .ok number ∧
      last.store = Store.after store (.setValid number level true) := by
  cases h with
  | @mk number _ _ middle _ hcontext _ _ hflag =>
    exact ⟨number, middle.interrupted.store, hcontext,
      congrArg (fun answered => answered.2.store) hflag.symm⟩

/-! ### Runs -/

/-- The action asks the cache to drop its entries of the level. -/
def Action.Forgets (index : Nat) (number : UInt32) (level : String) : Action → Prop
  | .invalidate other variant id => other = index ∧ variant = number ∧ id = level
  | .invalidateVariant other variant => other = index ∧ variant = number
  | _ => False

namespace World

variable {world : World} {topology : Topology} {query : CachedQuery} {entry : CacheEntry}
  {index : Nat} {number : UInt32} {action : Action}

/-- The cache has the entry, and may serve it. -/
structure Retains (world : World) (index : Nat) (entry : CacheEntry) : Prop where
  kept : (world.caches index).find? entry.key = some entry
  fresh : Store.Fresh entry.key.variant entry.key.level entry.generation world.store

/-- What is done before a query reads its level is done first. -/
theorem beforeReading_prefix (world : World) (topology : Topology)
    (hcontext : query.context.number = .ok number) :
    query.beforeReading <+: (world.ask topology query).2.performed := by
  have hkeeps : Store.disturbed.Keeps fun state => query.beforeReading <+: state.performed :=
    ⟨fun asked state hstate => (hstate.trans (List.prefix_append _ _)).trans
      (List.prefix_append _ _), fun _ _ => id⟩
  rw [ask, dialogue, Topology.start_cachedBuses _ hcontext, Dialogue.run]
  exact Dialogue.run_keeps hkeeps _ (List.prefix_append _ _)

theorem retains_step_query (hfound : world.topologies[query.topology]? = some topology)
    (hkept : (world.ask topology query).1.2.find? entry.key = some entry)
    (hfresh : Store.Fresh entry.key.variant entry.key.level entry.generation
      (world.ask topology query).2.store) :
    (world.step (.query query)).Retains query.cache entry := by
  rw [World.step_query hfound]
  exact ⟨by simpa only [withCache, if_true] using hkept, hfresh⟩

/-- A query leaves alone what a cache may serve, if the operations that are carried out meanwhile
spare the level. -/
theorem Retains.step_query (h : world.Retains index entry)
    (hfound : world.topologies[query.topology]? = some topology)
    (hspared : world.store.Spared entry.key.variant entry.key.level
      (world.ask topology query).2.performed) :
    (world.step (.query query)).Retains index entry := by
  have hfresh : Store.Fresh entry.key.variant entry.key.level entry.generation
      (world.ask topology query).2.store := by
    rw [ask_store]
    exact h.fresh.run hspared
  by_cases hindex : index = query.cache
  · subst hindex
    refine retains_step_query hfound ((world.call_ask topology query).find?_of_kept h.kept
      fun hcontext hlevel found read hread => ?_) hfresh
    obtain ⟨rest, hperformed⟩ := world.beforeReading_prefix topology hcontext
    rw [← hperformed, Store.spared_append] at hspared
    obtain ⟨hstore, _, hread⟩ := Store.read_level hread
    rw [hstore, hlevel] at hread
    obtain ⟨hvalid, hgeneration⟩ := (h.fresh.run hspared.1).of_level hread
    exact ⟨hvalid, hgeneration.symm⟩
  · rw [World.step_query hfound]
    refine ⟨?_, hfresh⟩
    simp only [withCache, if_neg hindex]
    exact h.kept

/-- A cache may drop entries by their keys, as long as it does not drop this one. -/
theorem Retains.drop (h : world.Retains index entry) (other : Nat) (p : CacheKey → Bool)
    (hp : other = index → p entry.key = true) :
    (world.withCache other ((world.caches other).filter fun entry => p entry.key)).Retains index
      entry := by
  refine ⟨?_, h.fresh⟩
  by_cases hindex : index = other
  · simp only [withCache, if_pos hindex]
    rw [BusCache.find?_filter, if_pos (hp hindex.symm), ← hindex, h.kept]
  · simp only [withCache, if_neg hindex]
    exact h.kept

theorem Retains.step (h : world.Retains index entry)
    (hforgets : ¬ action.Forgets index entry.key.variant entry.key.level)
    (hspared : world.store.Spared entry.key.variant entry.key.level (world.performed action)) :
    (world.step action).Retains index entry := by
  cases action with
  | operate operation => exact ⟨h.kept, h.fresh.run hspared⟩
  | make kind view allowDangling => exact ⟨h.kept, h.fresh⟩
  | revalidate index validator =>
    rw [World.step]
    cases world.topologies[index]? <;> exact ⟨h.kept, h.fresh⟩
  | query query =>
    rw [performed] at hspared
    cases hfound : world.topologies[query.topology]? with
    | none => rwa [step_query_none hfound]
    | some topology =>
      rw [hfound] at hspared
      exact h.step_query hfound hspared
  | invalidate other variant level =>
    refine h.drop other (fun key => key.variant ≠ variant ∨ key.level ≠ level) fun hother => ?_
    refine decide_eq_true (Decidable.or_iff_not_imp_left.mpr fun hvariant hlevel => ?_)
    exact hforgets ⟨hother, (Decidable.not_not.mp hvariant).symm, hlevel.symm⟩
  | invalidateVariant other variant =>
    refine h.drop other (fun key => key.variant ≠ variant) fun hother => ?_
    exact decide_eq_true fun hvariant => hforgets ⟨hother, hvariant.symm⟩

theorem Retains.run (h : world.Retains index entry) {actions : List Action}
    (hforgets : ∀ action ∈ actions, ¬ action.Forgets index entry.key.variant entry.key.level)
    (hspared : world.store.Spared entry.key.variant entry.key.level (world.history actions)) :
    (world.run actions).Retains index entry := by
  induction actions generalizing world with
  | nil => exact h
  | cons action actions ih =>
    obtain ⟨hfirst, hrest⟩ := List.forall_mem_cons.mp hforgets
    rw [history, Store.spared_append, ← step_store] at hspared
    exact ih (h.step hfirst hspared.1) hrest hspared.2

/-! ### A query that is asked again -/

/-- A query that succeeds leaves an entry with its buses, which may be served if the level is spared
from the moment at which the query reads it. -/
theorem exists_retains (hfound : world.topologies[query.topology]? = some topology)
    (hcontext : query.context.number = .ok number) {buses : Buses}
    (hresult : (world.ask topology query).1.1 = .ok buses)
    (hspared : (world.store.run query.beforeReading).Spared number query.level
      ((world.ask topology query).2.performed.drop query.beforeReading.length)) :
    ∃ entry, entry.key = ⟨number, query.level, topology.id⟩ ∧ entry.buses = buses ∧
      (world.step (.query query)).Retains query.cache entry := by
  have hcall := world.call_ask topology query
  rw [hresult] at hcall
  rcases hread : Store.disturbed.answer (.level number query.level) (world.disturbance query) with
    ⟨fault | found, read⟩
  · cases (hcall.of_unread hcontext hread).1
  obtain ⟨hstore, _, hlevel⟩ := Store.read_level hread
  rw [hstore] at hlevel
  obtain ⟨record, hrecord, hgeneration, hvalid⟩ := Store.record?_of_level hlevel
  obtain ⟨later, hlater, hlaterGeneration, hlaterValid⟩ := Store.record?_of_spared hspared hrecord
  obtain ⟨rest, hperformed⟩ := world.beforeReading_prefix topology hcontext
  have hlast : (world.ask topology query).2.store.record? number query.level = some later := by
    rw [← hperformed, List.drop_left, ← Store.run_append] at hlater
    rw [ask_store, ← hperformed, hlater]
  have hdated : later.generation = found.attributes.generation :=
    hlaterGeneration.trans hgeneration
  obtain ⟨entry, hserved, hsame, hafter, _⟩ |
      ⟨_, ⟨fault, hfault, _⟩ | ⟨calculated, hsame, hafter, _, hasked⟩⟩ :=
    hcall.of_read hcontext hread
  · obtain ⟨hentry, hkey⟩ := BusCache.find?_eq_some_iff.mp hserved
    obtain ⟨hflag, hentryGeneration⟩ :=
      (BusCache.mem_refresh.mp hentry).2 (by rw [hkey]) (by rw [hkey])
    refine ⟨entry, hkey, (Except.ok.inj hsame).symm, retains_step_query hfound ?_ ?_⟩
    · rw [hafter, hkey, hserved]
    · rw [hkey, hentryGeneration]
      exact ⟨later, hlast, hdated, hlaterValid (hvalid.trans hflag)⟩
  · cases hfault
  · cases hsame
    have hkept : (world.ask topology query).1.2.find? ⟨number, query.level, topology.id⟩ =
        some ⟨⟨number, query.level, topology.id⟩, found.attributes.generation, buses⟩ := by
      rw [hafter, BusCache.find?_insert, if_pos rfl]
    refine ⟨⟨_, found.attributes.generation, _⟩, rfl, rfl,
      retains_step_query hfound hkept ⟨later, hlast, hdated, ?_⟩⟩
    -- the last operation that was carried out raised the flag
    obtain ⟨hstores, _⟩ := hcall.stores_of_questions (by rw [hasked]; simp)
      (BusCache.find?_eq_some_iff.mp hkept).1 hcontext rfl
    obtain ⟨_, store, hcontext', hraised⟩ := Store.raised_of_stores hstores
    cases hcontext.symm.trans hcontext'
    rw [hraised, Store.record?_after_setValid] at hlast
    obtain ⟨_, _, rfl⟩ := Option.map_eq_some_iff.mp hlast
    rfl

/-- A query with an entry that may be served is served with it, if the level is spared until the
query reads it. -/
theorem Retains.serves (h : world.Retains query.cache entry)
    (hcontext : query.context.number = .ok number)
    (hkey : entry.key = ⟨number, query.level, topology.id⟩)
    (hspared : world.store.Spared number query.level query.beforeReading) :
    world.ServedFrom topology query entry ∧
      (world.dialogue topology query).transcript Store.disturbed (world.disturbance query) =
        [.question (.level number query.level) (world.disturbance query)] := by
  obtain ⟨hkept, hfresh⟩ := h
  rw [hkey] at hkept hfresh
  obtain ⟨found, hlevel, hvalid, hgeneration⟩ := (hfresh.run hspared).exists_level
  obtain ⟨hresult, hsaid, hasked⟩ := Topology.served_of_find? Store.disturbed
    (world.disturbance query) hcontext hkept (Prod.ext hlevel rfl) hvalid hgeneration
  refine ⟨⟨(BusCache.find?_eq_some_iff.mp hkept).1, ⟨number, hcontext, hkey⟩, hresult, ?_⟩, hsaid⟩
  exact congrArg List.length hasked

theorem topologies_prefix (world : World) (actions : List Action) :
    world.topologies <+: (world.run actions).topologies := by
  induction actions generalizing world with
  | nil => exact List.prefix_rfl
  | cons action actions ih =>
    refine List.IsPrefix.trans ?_ (ih (world.step action))
    cases action with
    | make => exact List.prefix_append _ _
    | revalidate index =>
      rw [step]
      cases world.topologies[index]? with
      | none => exact List.prefix_rfl
      | some topology => exact List.prefix_append _ _
    | query query =>
      cases hfound : world.topologies[query.topology]? with
      | none => rw [step_query_none hfound]
      | some topology => rw [World.step_query hfound]; exact List.prefix_rfl
    | _ => exact List.prefix_rfl

/-- What a query that nobody disturbs carries out itself spares its level. -/
theorem spared_performed (hcontext : query.context.number = .ok number)
    (hquiet : query.between = []) :
    world.store.Spared number query.level (world.ask topology query).2.performed := by
  refine Store.spared_of_raised fun operation hoperation => ?_
  rw [ask, disturbance, hquiet, Store.performed_undisturbed, List.nil_append,
    List.mem_flatMap] at hoperation
  obtain ⟨asked, hasked, hoperation⟩ := hoperation
  obtain hreads | rfl := (Topology.strict_cachedBuses hcontext _).asked _ _ asked hasked
  · rw [hreads.operation?] at hoperation
    cases hoperation
  · exact List.mem_singleton.mp hoperation

/-- Buses that were calculated stay in the cache as long as nothing happens to their level. From any
world, let a query for a level succeed, and any actions follow of which none asks its cache to drop
the entries of the level. If all operations that are carried out since the query read the level
spare it, then the same query is answered with an entry of its cache, and with the same buses: it
asks for the level, and for nothing else, and no component is judged. This holds whatever other
sessions do meanwhile, and of a query that is not disturbed it holds with the store alone, no matter
what the query has done itself. -/
theorem cached_buses_stay (world : World) (query : CachedQuery) (topology : Topology)
    (number : UInt32) (buses : Buses) (later : List Action)
    (hfound : world.topologies[query.topology]? = some topology)
    (hcontext : query.context.number = .ok number)
    (hresult : (world.ask topology query).1.1 = .ok buses)
    (hforgets : ∀ action ∈ later, ¬ action.Forgets query.cache number query.level) :
    let asked := world.step (.query query)
    let last := asked.run later
    last.topologies[query.topology]? = some topology ∧
    (∀ between, let again := { query with between }
      (world.store.run query.beforeReading).Spared number query.level
        ((world.ask topology query).2.performed.drop query.beforeReading.length ++
          asked.history later ++ again.beforeReading) →
      ∃ entry, last.ServedFrom topology again entry ∧ entry.buses = buses ∧
        (last.dialogue topology again).transcript Store.disturbed (last.disturbance again) =
          [.question (.level number query.level) (last.disturbance again)]) ∧
    (query.between = [] → asked.store.Spared number query.level (asked.history later) →
      ((last.dialogue topology query).run Store.index last.store).1.1 = .ok buses ∧
        (last.dialogue topology query).transcript Store.index last.store =
          [.question (.level number query.level) last.store]) := by
  intro asked last
  have hasked : asked.store = (world.store.run query.beforeReading).run
      ((world.ask topology query).2.performed.drop query.beforeReading.length) := by
    obtain ⟨rest, hperformed⟩ := world.beforeReading_prefix topology hcontext
    rw [← Store.run_append, ← hperformed, List.drop_left, hperformed, ← ask_store,
      show asked = _ from World.step_query hfound]
    rfl
  have hretains : (world.store.run query.beforeReading).Spared number query.level
        ((world.ask topology query).2.performed.drop query.beforeReading.length) →
      asked.store.Spared number query.level (asked.history later) →
      ∃ entry, entry.key = ⟨number, query.level, topology.id⟩ ∧ entry.buses = buses ∧
        last.Retains query.cache entry := by
    intro hmeanwhile hlater
    obtain ⟨entry, hkey, hbuses, hentry⟩ := exists_retains hfound hcontext hresult hmeanwhile
    refine ⟨entry, hkey, hbuses, hentry.run ?_ ?_⟩ <;> rw [hkey]
    · exact hforgets
    · exact hlater
  refine ⟨?_, fun between hspared => ?_, fun hquiet hlater => ?_⟩
  · obtain ⟨made, hmade⟩ := world.topologies_prefix (.query query :: later)
    obtain ⟨hindex, _⟩ := List.getElem?_eq_some_iff.mp hfound
    change (world.run (.query query :: later)).topologies[query.topology]? = _
    rw [← hmade, List.getElem?_append_left hindex, hfound]
  · rw [Store.spared_append, Store.spared_append, Store.run_append, ← hasked, ← run_store]
      at hspared
    obtain ⟨⟨hmeanwhile, hlater⟩, hbefore⟩ := hspared
    obtain ⟨entry, hkey, hbuses, hentry⟩ := hretains hmeanwhile hlater
    obtain ⟨hserved, hsaid⟩ : last.ServedFrom topology { query with between } entry ∧ _ :=
      Retains.serves hentry hcontext hkey hbefore
    exact ⟨entry, hserved, hbuses, hsaid⟩
  · have hbefore : query.beforeReading = [] := by rw [CachedQuery.beforeReading, hquiet]; rfl
    obtain ⟨entry, hkey, rfl, hkept, hfresh⟩ := hretains
      (by rw [hbefore]; exact spared_performed hcontext hquiet) hlater
    rw [hkey] at hkept hfresh
    obtain ⟨found, hlevel, hvalid, hgeneration⟩ := hfresh.exists_level
    obtain ⟨hserved, hsaid, _⟩ := Topology.served_of_find? Store.index last.store hcontext hkept
      (Prod.ext hlevel rfl) hvalid hgeneration
    exact ⟨hserved, hsaid⟩

/-- After the query for the level with one load: a query through the same cache with another
topology, one through another cache, one that fails, a clone, and operations on another level and on
the level of the clone. -/
def crowdedLater : List Action :=
  [.make .busBreaker .busView false, .query { oneLoadQuery with topology := 1 },
    .operate (.addLevel 0 ⟨"B", .voltageLevel, { kind := .busBreaker }⟩), .operate (.clone 0 1 "v"),
    .operate (.addInjection 1 ⟨"M", .load, { level := "A", bus := some "N" }⟩),
    .query { oneLoadQuery with cache := 1 }, .query { oneLoadQuery with level := "missing" },
    .invalidate 0 1 "A", .operate (.removeEquipment 0 "L'")]

/-- None of this evicts the entry, and the query is answered from it. -/
theorem cached_buses_stay_crowded :
    let world := new.run oneLoad
    let last := (world.step (.query oneLoadQuery)).run crowdedLater
    ∃ topology buses, world.topologies[oneLoadQuery.topology]? = some topology ∧
      (world.ask topology oneLoadQuery).1.1 = .ok buses ∧
      buses.toList.map Bus.equipment = [["L"]] ∧
      ((last.dialogue topology oneLoadQuery).run Store.index last.store).1.1 = .ok buses ∧
      (last.dialogue topology oneLoadQuery).transcript Store.index last.store =
        [.question (.level 0 oneLoadQuery.level) last.store] := by
  obtain ⟨topology, buses, hfound, hresult, hequipment⟩ : ∃ topology buses,
      (new.run oneLoad).topologies[oneLoadQuery.topology]? = some topology ∧
      ((new.run oneLoad).ask topology oneLoadQuery).1.1 = .ok buses ∧
      buses.toList.map Bus.equipment = [["L"]] := ⟨_, _, rfl, rfl, by decide⟩
  have hforgets : ∀ action ∈ crowdedLater,
      ¬ action.Forgets oneLoadQuery.cache 0 oneLoadQuery.level := by
    simp [crowdedLater, oneLoadQuery, Action.Forgets]
  obtain ⟨_, _, hquiet⟩ := cached_buses_stay (new.run oneLoad) oneLoadQuery topology 0 buses
    crowdedLater hfound rfl hresult hforgets
  have hspared : ((new.run oneLoad).step (.query oneLoadQuery)).store.Spared 0 oneLoadQuery.level
      (((new.run oneLoad).step (.query oneLoadQuery)).history crowdedLater) := by
    have hhistory : ((new.run oneLoad).step (.query oneLoadQuery)).history crowdedLater =
        [.setValid 0 "A" true, .addLevel 0 ⟨"B", .voltageLevel, { kind := .busBreaker }⟩,
          .clone 0 1 "v",
          .addInjection 1 ⟨"M", .load, { level := "A", bus := some "N" }⟩,
          .setValid 0 "A" true, .removeEquipment 0 "L'"] := rfl
    rw [hhistory]
    refine ⟨.of_raised, ⟨nofun, nofun, fun alteration network halter _ _ => ?_⟩, .of_target_ne ?_,
      .of_target_ne ?_, .of_raised, ⟨nofun, nofun, fun alteration network halter hok _ => ?_⟩,
      trivial⟩
    · cases alteration <;> cases halter
      simp [Alteration.touched, oneLoadQuery]
    · decide
    · decide
    · cases hok
  exact ⟨topology, buses, hfound, hresult, hequipment, hquiet rfl hspared⟩

end World

end Switchyard
