import Switchyard.Proofs.Store.Disturbed
import Switchyard.Proofs.Topology.Calls

/-!
Sessions with caches of their own, over one store.

The world is the store with any number of caches and topologies. In one step of it the store is
changed, a topology is made, a cache forgets entries, or a query is answered through a cache while
other sessions carry out operations between its questions. The invariant is `World.Sound`: the store
is well dated, topologies have ids of their own, and the buses of an entry are right for as long as
its level keeps the entry's generation (`CacheEntry.Current`). Since a generation never comes back,
an entry that was out of date when it was stored meets this with nothing to check.
-/

namespace Switchyard

/-- A query for the buses of a level, through one of the caches and with one of the topologies. -/
structure CachedQuery where
  cache : Nat
  /-- The position of the topology among those made so far. -/
  topology : Nat
  context : Context
  level : String
  /-- What other sessions do just before each of the questions that the query asks. -/
  between : List (List Operation) := []
  deriving Repr

/-- A step of the world. -/
inductive Action where
  | operate (operation : Operation)
  | make (kind : TopologyKind) (view : View) (allowDangling : Bool)
  | revalidate (topology : Nat) (validator : BusValidator)
  | query (query : CachedQuery)
  | invalidate (cache : Nat) (variant : UInt32) (level : String)
  | invalidateVariant (cache : Nat) (variant : UInt32)

/-- A store, and the caches and topologies of all sessions. -/
structure World where
  store : Store
  caches : Nat → BusCache
  topologies : List Topology
  ids : TopologyIds

namespace World

/-- A new store, empty caches, and no topology yet. -/
def new : World := ⟨.new, fun _ => default, [], {}⟩

/-- The world with one of its caches changed. -/
def withCache (world : World) (index : Nat) (cache : BusCache) : World :=
  { world with caches := fun other => if other = index then cache else world.caches other }

/-- The world with one more topology, which has just been given an id. -/
def enter (world : World) (issued : Topology × TopologyIds) : World :=
  { world with topologies := world.topologies ++ [issued.1], ids := issued.2 }

/-- What a query through a cache consists of. -/
def dialogue (world : World) (topology : Topology) (query : CachedQuery) :
    Dialogue indexProtocol (Except Fault Buses × BusCache) :=
  (topology.cachedBuses query.context query.level).start (world.caches query.cache)

/-- The store of the world, as the query finds it and the other sessions change it. -/
def disturbance (world : World) (query : CachedQuery) : Disturbed :=
  ⟨world.store, query.between, []⟩

/-- What comes of a query, the cache after it, and the store after it. -/
def ask (world : World) (topology : Topology) (query : CachedQuery) :
    (Except Fault Buses × BusCache) × Disturbed :=
  (world.dialogue topology query).run Store.disturbed (world.disturbance query)

/-- The questions that a query asks. -/
def questions (world : World) (topology : Topology) (query : CachedQuery) : List IndexQuery :=
  (world.dialogue topology query).asked Store.disturbed (world.disturbance query)

/-- The world after an action. -/
def step (world : World) : Action → World
  | .operate operation => { world with store := world.store.after operation }
  | .make kind view allowDangling => world.enter (Topology.make kind view allowDangling world.ids)
  | .revalidate index validator =>
    match world.topologies[index]? with
    | none => world
    | some topology => world.enter (topology.withValidator validator world.ids)
  | .query query =>
    match world.topologies[query.topology]? with
    | none => world
    | some topology =>
      let ((_, cache), last) := world.ask topology query
      { world with store := last.store }.withCache query.cache cache
  | .invalidate index variant level =>
    world.withCache index ((world.caches index).invalidate variant level)
  | .invalidateVariant index variant =>
    world.withCache index ((world.caches index).invalidateVariant variant)

/-- The world after some actions. -/
def run (world : World) (actions : List Action) : World := actions.foldl step world

end World

/-! ### The invariant -/

/-- The buses of an entry were calculated from a generation that has been drawn, and as long as the
level has this generation they are its buses in the entry's topology. -/
structure CacheEntry.Current (entry : CacheEntry) (store : Store) (topologies : List Topology) :
    Prop where
  drawn : entry.generation ≤ store.lastGeneration
  right : ∀ topology ∈ topologies, topology.id = entry.key.topology →
    ∀ edition, store.edition? entry.key.variant entry.key.level = some edition →
      edition.generation = entry.generation →
      topology.busesOf entry.key.level edition.contents = .ok entry.buses

/-- No operation makes an entry wrong: the level keeps its edition or loses the generation. -/
theorem CacheEntry.Current.run {entry : CacheEntry} {store : Store} {topologies : List Topology}
    (h : entry.Current store topologies) (operations : List Operation) :
    entry.Current (store.run operations) topologies where
  drawn := Nat.le_trans h.drawn (Store.lastGeneration_le_run store operations)
  right topology htopology hid edition hedition hgen := by
    have hold : edition.generation ≤ store.lastGeneration := hgen ▸ h.drawn
    exact h.right topology htopology hid edition (Store.edition?_of_run hedition hold) hgen

namespace World

/-- The store is well dated, topologies are known by their ids, and all entries are current. -/
structure Sound (world : World) : Prop where
  dated : world.store.WellDated
  distinct : ∀ a ∈ world.topologies, ∀ b ∈ world.topologies, a.id = b.id → a = b
  issued : ∀ topology ∈ world.topologies, topology.id < world.ids.next
  known : ∀ index, ∀ entry ∈ (world.caches index).entries, entry.key.topology < world.ids.next
  current : ∀ index, ∀ entry ∈ (world.caches index).entries,
    entry.Current world.store world.topologies

theorem sound_new : new.Sound where
  dated := Store.wellDated_new
  distinct _ h := by cases h
  issued _ h := by cases h
  known _ _ h := by cases h
  current _ _ h := by cases h

namespace Sound

variable {world : World}

theorem operate (h : world.Sound) (operations : List Operation) :
    Sound { world with store := world.store.run operations } where
  dated := h.dated.run operations
  distinct := h.distinct
  issued := h.issued
  known := h.known
  current index entry hentry := (h.current index entry hentry).run operations

/-- No entry belongs to a topology that has just been given its id. -/
theorem enter (h : world.Sound) {topology : Topology} (hid : topology.id = world.ids.next) :
    (world.enter (topology, ⟨world.ids.next + 1⟩)).Sound where
  dated := h.dated
  distinct a ha b hb hab := by
    rcases List.mem_append.mp ha with ha | ha <;> rcases List.mem_append.mp hb with hb | hb
    · exact h.distinct a ha b hb hab
    · have hold : a.id < world.ids.next := h.issued a ha
      rw [hab, List.mem_singleton.mp hb, hid] at hold
      exact absurd hold (Nat.lt_irrefl _)
    · have hold : b.id < world.ids.next := h.issued b hb
      rw [← hab, List.mem_singleton.mp ha, hid] at hold
      exact absurd hold (Nat.lt_irrefl _)
    · rw [List.mem_singleton.mp ha, List.mem_singleton.mp hb]
  issued a ha := by
    rcases List.mem_append.mp ha with ha | ha
    · exact Nat.lt_succ_of_lt (h.issued a ha)
    · rw [List.mem_singleton.mp ha]
      exact Nat.lt_succ_of_le (Nat.le_of_eq hid)
  known index entry hentry := Nat.lt_succ_of_lt (h.known index entry hentry)
  current index entry hentry := by
    refine ⟨(h.current index entry hentry).drawn, fun a ha hkey => ?_⟩
    rcases List.mem_append.mp ha with ha | ha
    · exact (h.current index entry hentry).right a ha hkey
    · have hold : entry.key.topology < world.ids.next := h.known index entry hentry
      rw [← hkey, List.mem_singleton.mp ha, hid] at hold
      exact absurd hold (Nat.lt_irrefl _)

/-- A cache may be replaced by one with current entries. -/
theorem withCache (h : world.Sound) (index : Nat) {cache : BusCache}
    (hknown : ∀ entry ∈ cache.entries, entry.key.topology < world.ids.next)
    (hcurrent : ∀ entry ∈ cache.entries, entry.Current world.store world.topologies) :
    (world.withCache index cache).Sound where
  dated := h.dated
  distinct := h.distinct
  issued := h.issued
  known other entry hentry := by
    by_cases he : other = index
    · exact hknown entry (by simpa [World.withCache, he] using hentry)
    · exact h.known other entry (by simpa [World.withCache, he] using hentry)
  current other entry hentry := by
    by_cases he : other = index
    · exact hcurrent entry (by simpa [World.withCache, he] using hentry)
    · exact h.current other entry (by simpa [World.withCache, he] using hentry)

/-- A cache may forget entries. -/
theorem filter (h : world.Sound) (index : Nat) (p : CacheEntry → Bool) :
    (world.withCache index ((world.caches index).filter p)).Sound :=
  h.withCache index (fun entry hentry => h.known index entry (BusCache.mem_filter.mp hentry).1)
    fun entry hentry => h.current index entry (BusCache.mem_filter.mp hentry).1

end Sound

end World

/-! ### Queries -/

namespace Store

variable {topology : Topology} {topologies : List Topology} {context : Context} {level : String}
  {state last : Disturbed} {entry : CacheEntry}

/-- An entry is current when it is stored. Either the level kept its edition while it was read, and
the buses are those of this edition, or it lost the generation for good. -/
theorem current_of_stores (h : topology.Stores disturbed context level state last entry)
    (hdated : state.store.WellDated)
    (hids : ∀ other ∈ topologies, other.id = topology.id → other = topology) :
    entry.Current last.store topologies := by
  cases h with
  | @mk number found after middle buses hcontext hread hbuses hflag =>
    obtain ⟨hafter, _, hfound⟩ := read_level hread
    have hdated : after.store.WellDated := hafter ▸ hdated.run _
    obtain ⟨record, hrecord, hgen, _⟩ := record?_of_level hfound
    have hedition := edition?_of_record? hrecord
    have hdrawn := hdated.drawn _ _ _ hedition
    obtain ⟨working, hmiddle⟩ : ∃ operations, middle.store = after.store.run operations := by
      have := Attempt.outcome_keeps (disturbed_keeps_reached after.store)
        (topology.buses context level) ⟨[], rfl⟩
      rwa [hbuses] at this
    obtain ⟨flagging, hlast⟩ : ∃ operations, last.store = middle.store.run operations := by
      have := (disturbed_keeps_reached middle.store).answer (.setValid number level true) middle
        ⟨[], rfl⟩
      rwa [hflag] at this
    refine ⟨?_, fun other hother hid edition hlater hsame => ?_⟩
    · rw [← hgen, hlast, hmiddle, ← run_append]
      exact Nat.le_trans hdrawn (lastGeneration_le_run _ _)
    -- the level has the generation that was read, so it never was without it
    have hold : edition.generation ≤ after.store.lastGeneration := by
      rw [hsame, ← hgen]
      exact hdrawn
    have hlasting : middle.store.edition? number level = some edition := by
      rw [hlast] at hlater
      exact edition?_of_run hlater
        (Nat.le_trans hold (hmiddle ▸ lastGeneration_le_run after.store working))
    have hread' : after.store.edition? number level = some edition := by
      rw [hmiddle] at hlasting
      exact edition?_of_run hlasting hold
    have houtcome := (Topology.buses_ensures (shows_disturbed hread') hcontext :
      Attempt.Ensures _ _ _ (topology.buses context level) _) after ⟨hread', hold⟩
    rw [hbuses] at houtcome
    rcases houtcome with hreplaced | ⟨hpost, _⟩
    · exact absurd rfl (hreplaced.2 edition hlasting)
    · rw [hids other hother hid]
      exact hpost.symm

end Store

namespace World

variable {world : World}

/-- While a query goes on, the store is changed by what is performed. -/
theorem ask_store (world : World) (topology : Topology) (query : CachedQuery) :
    (world.ask topology query).2.store =
      world.store.run (world.ask topology query).2.performed :=
  Dialogue.run_keeps (Store.disturbed_keeps_performed world.store) (world.dialogue topology query)
    rfl

/-- The way in which a query goes. -/
theorem call_ask (world : World) (topology : Topology) (query : CachedQuery) :
    topology.Call Store.disturbed query.context query.level (world.caches query.cache)
      (world.disturbance query) (world.ask topology query).1.1 (world.ask topology query).1.2
      (world.ask topology query).2 (world.questions topology query) :=
  Topology.call_cachedBuses Store.disturbed (world.caches query.cache) (world.disturbance query)

/-- A query puts its store and its cache in the place of those before. -/
theorem step_query {topology : Topology} {query : CachedQuery}
    (h : world.topologies[query.topology]? = some topology) :
    world.step (.query query) =
      World.withCache { world with store := (world.ask topology query).2.store } query.cache
        (world.ask topology query).1.2 := by
  rw [step, h]

theorem step_query_none {query : CachedQuery} (h : world.topologies[query.topology]? = none) :
    world.step (.query query) = world := by
  rw [step, h]

/-! ### What is carried out -/

/-- The operations that are carried out in a step, in order. -/
def performed (world : World) : Action → List Operation
  | .operate operation => [operation]
  | .query query =>
    match world.topologies[query.topology]? with
    | none => []
    | some topology => (world.ask topology query).2.performed
  | _ => []

/-- All operations that are carried out in a run. -/
def history : World → List Action → List Operation
  | _, [] => []
  | world, action :: actions => world.performed action ++ (world.step action).history actions

theorem step_store (world : World) (action : Action) :
    (world.step action).store = world.store.run (world.performed action) := by
  cases action with
  | query query =>
    rw [performed]
    cases hfound : world.topologies[query.topology]? with
    | none => rw [step, hfound]; rfl
    | some topology =>
      rw [step_query hfound]
      exact world.ask_store topology query
  | revalidate index validator =>
    rw [step]
    cases world.topologies[index]? <;> rfl
  | _ => rfl

theorem run_store (world : World) (actions : List Action) :
    (world.run actions).store = world.store.run (world.history actions) := by
  induction actions generalizing world with
  | nil => rfl
  | cons action actions ih =>
    rw [history, Store.run_append, ← step_store]
    exact ih _

theorem run_append (world : World) (first second : List Action) :
    world.run (first ++ second) = (world.run first).run second :=
  List.foldl_append

theorem ask_reaches (world : World) (topology : Topology) (query : CachedQuery) :
    ∃ operations, (world.ask topology query).2.store = world.store.run operations :=
  ⟨_, world.ask_store topology query⟩

theorem run_reaches (world : World) (actions : List Action) :
    ∃ operations, (world.run actions).store = world.store.run operations :=
  ⟨_, world.run_store actions⟩

/-! ### The invariant is kept -/

theorem Sound.query (h : world.Sound) {topology : Topology}
    (htopology : topology ∈ world.topologies) (query : CachedQuery) :
    (World.withCache { world with store := (world.ask topology query).2.store } query.cache
      (world.ask topology query).1.2).Sound := by
  obtain ⟨operations, hreached⟩ := world.ask_reaches topology query
  have hcall := world.call_ask topology query
  refine (hreached ▸ h.operate operations : Sound { world with store := _ }).withCache query.cache
    (fun entry hentry => ?_) (fun entry hentry => ?_)
  · rcases hcall.entry_cases hentry with hold | hstores
    · exact h.known query.cache entry hold
    · cases hstores
      exact h.issued topology htopology
  · rcases hcall.entry_cases hentry with hold | hstores
    · have := (h.current query.cache entry hold).run operations
      rwa [← hreached] at this
    · exact Store.current_of_stores hstores h.dated fun other hother hid =>
        h.distinct other hother topology htopology hid

theorem Sound.step (h : world.Sound) (action : Action) : (world.step action).Sound := by
  cases action with
  | operate operation => exact h.operate [operation]
  | make kind view allowDangling => exact h.enter rfl
  | revalidate index validator =>
    cases hfound : world.topologies[index]? with
    | none => rwa [show world.step (.revalidate index validator) = world by rw [World.step, hfound]]
    | some topology =>
      rw [World.step, hfound]
      exact h.enter rfl
  | query query =>
    cases hfound : world.topologies[query.topology]? with
    | none => rwa [step_query_none hfound]
    | some topology =>
      rw [step_query hfound]
      exact h.query (List.mem_of_getElem? hfound) query
  | invalidate index variant level => exact h.filter index _
  | invalidateVariant index variant => exact h.filter index _

theorem Sound.run (h : world.Sound) (actions : List Action) : (world.run actions).Sound := by
  induction actions generalizing world with
  | nil => exact h
  | cons action rest ih => exact ih (h.step action)

end World

end Switchyard
