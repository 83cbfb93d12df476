import Mathlib.Data.List.DropRight
import Switchyard.Proofs.Cache.Correspondence
import Switchyard.Proofs.Cache.Freshness
import Switchyard.Proofs.Store.Snapshot

/-!
A clone is a snapshot, and nothing that is done to other variants reaches it.

Of a run of the world, `World.view` is what concerns one variant: the operations that alter it, the
queries on it with what disturbs it meanwhile, and the topologies that are made. Queries on other
variants, through the same caches or not, come down to the operations that happen to be carried out
while they go on. The invariant is `World.Like`: the stores hold the same of the variant and all
caches serve it alike. A step of a world and the view of this step keep two worlds so (`Like.step`),
hence a run can be replaced by its view (`Like.run`), and runs with one view cannot be told apart in
the variant. A clone that is granted to the variant's number ends all this, for it copies another.
-/

namespace Switchyard

/-- The query as far as it concerns a variant. Operations that are carried out before a question
count by the position of the question, so nothing is said of what is done before the last ones. -/
def CachedQuery.within (number : UInt32) (query : CachedQuery) : CachedQuery :=
  { query with
    between := (query.between.map (·.filter (·.alters number))).rdropWhile List.isEmpty }

/-- What is done before each question is the same to the variant. -/
theorem CachedQuery.getD_between_within (query : CachedQuery) (number : UInt32) (i : Nat) :
    (query.within number).between.getD i [] =
      (query.between.getD i []).filter (·.alters number) := by
  have hdrop : ∀ lists : List (List Operation),
      (lists.rdropWhile List.isEmpty).getD i [] = lists.getD i [] := by
    intro lists
    induction lists using List.reverseRecOn with
    | nil => rfl
    | append_singleton lists last ih =>
      rw [List.rdropWhile_concat]
      split
      case isFalse => rfl
      case isTrue hlast =>
        -- an empty list at the end is what is found behind the end
        rw [ih, List.isEmpty_iff.mp hlast, List.getD_eq_getElem?_getD, List.getD_eq_getElem?_getD,
          List.getElem?_append]
        split
        case isTrue => rfl
        case isFalse hlong =>
          rw [List.getElem?_eq_none (Nat.le_of_not_lt hlong)]
          cases i - lists.length <;> rfl
  rw [within, hdrop, List.getD_eq_getElem?_getD, List.getD_eq_getElem?_getD, List.getElem?_map]
  cases query.between[i]? <;> rfl

namespace World

variable {world world' : World} {number : UInt32}

/-! ### What concerns a variant -/

/-- What a step amounts to for one variant. -/
def seen (number : UInt32) (world : World) : Action → List Action
  | .query query =>
    if query.context.working = some number then [.query (query.within number)]
    else ((world.performed (.query query)).filter (·.alters number)).map .operate
  | .operate operation => ([operation].filter (·.alters number)).map .operate
  | .invalidate index variant level =>
    if variant = number then [.invalidate index variant level] else []
  | .invalidateVariant index variant =>
    if variant = number then [.invalidateVariant index variant] else []
  | action => [action]

/-- What a run amounts to for one variant. -/
def view (number : UInt32) : World → List Action → List Action
  | _, [] => []
  | world, action :: actions => world.seen number action ++ (world.step action).view number actions

/-- What comes of a step, if it is a query on the variant. -/
def answered (number : UInt32) (world : World) : Action → Option (Except Fault Buses)
  | .query query =>
    if query.context.working = some number then
      world.topologies[query.topology]?.map fun topology => (world.ask topology query).1.1
    else none
  | _ => none

/-- What comes of the queries on the variant, in order. -/
def answers (number : UInt32) : World → List Action → List (Except Fault Buses)
  | _, [] => []
  | world, action :: actions =>
    (world.answered number action).toList ++ (world.step action).answers number actions

theorem answers_append (number : UInt32) (world : World) (first second : List Action) :
    world.answers number (first ++ second) =
      world.answers number first ++ (world.run first).answers number second := by
  induction first generalizing world with
  | nil => rfl
  | cons action first ih => rw [List.cons_append, answers, answers, ih, List.append_assoc]; rfl

theorem run_operate (world : World) (operations : List Operation) :
    world.run (operations.map .operate) =
      { world with store := world.store.run operations } := by
  induction operations generalizing world with
  | nil => rfl
  | cons operation operations ih => exact ih _

theorem answers_operate (number : UInt32) (world : World) (operations : List Operation) :
    world.answers number (operations.map .operate) = [] := by
  induction operations generalizing world with
  | nil => rfl
  | cons operation operations ih => exact ih _

/-! ### Worlds that are alike in a variant -/

/-- The stores hold the same of the variant, all caches serve it alike, and the topologies are the
same. -/
structure Like (number : UInt32) (world world' : World) : Prop where
  alike : Store.Alike number world.store world'.store
  topologies_eq : world.topologies = world'.topologies
  ids_eq : world.ids = world'.ids
  caches : ∀ index, BusCache.Corresponds number world.store world'.store (world.caches index)
    (world'.caches index)

theorem Sound.like (h : world.Sound) (number : UInt32) : Like number world world where
  alike := .refl h.dated number
  topologies_eq := rfl
  ids_eq := rfl
  caches index := .refl fun entry hentry => (h.current index entry hentry).drawn

namespace Like

/-- The stores of both worlds may change, if they do so alike. -/
theorem of_apace (h : Like number world world') {store store' : Store}
    (hapace : Store.Apace number world.store world'.store store store') :
    Like number { world with store } { world' with store := store' } where
  alike := hapace.alike
  topologies_eq := h.topologies_eq
  ids_eq := h.ids_eq
  caches index := (h.caches index).apace hapace

theorem enter (h : Like number world world') (issued : Topology × TopologyIds) :
    Like number (world.enter issued) (world'.enter issued) where
  alike := h.alike
  topologies_eq := congrArg (· ++ [issued.1]) h.topologies_eq
  ids_eq := rfl
  caches := h.caches

/-- A cache of each world may change, if they go on to serve the variant alike. -/
theorem withCache (h : Like number world world') (index : Nat) {cache cache' : BusCache}
    (hcaches : BusCache.Corresponds number world.store world'.store cache cache') :
    Like number (world.withCache index cache) (world'.withCache index cache') where
  alike := h.alike
  topologies_eq := h.topologies_eq
  ids_eq := h.ids_eq
  caches other := by
    by_cases hother : other = index
    · simpa only [World.withCache, if_pos hother] using hcaches
    · simpa only [World.withCache, if_neg hother] using h.caches other

/-- A cache of the first world may change, if it keeps the entries of the variant. -/
theorem withCache_left (h : Like number world world') (index : Nat) {cache : BusCache}
    (hcache : ∀ level topology, cache.find? ⟨number, level, topology⟩ =
      (world.caches index).find? ⟨number, level, topology⟩) :
    Like number (world.withCache index cache) world' where
  alike := h.alike
  topologies_eq := h.topologies_eq
  ids_eq := h.ids_eq
  caches other := by
    by_cases hother : other = index
    · simp only [World.withCache, if_pos hother]
      exact (h.caches other).of_find? (hother ▸ hcache)
    · simpa only [World.withCache, if_neg hother] using h.caches other

/-- Operations are carried out, and in the second world those that alter the variant. -/
theorem operate (h : Like number world world') {operations : List Operation}
    (hwithholds : Store.Withholds number world.store operations) :
    Like number { world with store := world.store.run operations }
      (world'.run ((operations.filter (·.alters number)).map .operate)) := by
  rw [run_operate]
  exact h.of_apace (h.alike.run hwithholds)

/-- Entries are dropped by their keys, from both caches or from that of the first world alone. -/
theorem filter (h : Like number world world') (index : Nat) (p : CacheKey → Bool) :
    Like number (world.withCache index ((world.caches index).filter fun entry => p entry.key))
      (world'.withCache index ((world'.caches index).filter fun entry => p entry.key)) :=
  h.withCache index ((h.caches index).filter p)

theorem filter_left (h : Like number world world') (index : Nat) (p : CacheKey → Bool)
    (hp : ∀ key, key.variant = number → p key = true) :
    Like number (world.withCache index ((world.caches index).filter fun entry => p entry.key))
      world' := by
  refine h.withCache_left index fun level topology => ?_
  rw [BusCache.find?_filter, if_pos (hp _ rfl)]

/-- A query on the variant comes to the same in both worlds. -/
theorem ask (h : Like number world world') {topology : Topology} {query : CachedQuery}
    (hcontext : query.context.number = .ok number)
    (hwithholds : Store.Withholds number world.store (world.ask topology query).2.performed) :
    Topology.Served number world.store world.store world'.store (world.ask topology query).1
      (world'.ask topology (query.within number)).1 (world.ask topology query).2
      (world'.ask topology (query.within number)).2 := by
  have hfollows : Store.Follows number world.store world.store world'.store
      (world.disturbance query) (world'.disturbance (query.within number)) :=
    ⟨rfl, .refl h.alike, query.getD_between_within number⟩
  have hboth := Topology.cachedBuses_alongside topology query.level hcontext
    (h.caches query.cache) _ _ hfollows
  exact hboth.resolve_left fun hreused => hreused hwithholds

/-- A query on the variant, and its view. -/
theorem step_on (h : Like number world world') {query : CachedQuery}
    (hworking : query.context.working = some number)
    (hwithholds : Store.Withholds number world.store (world.performed (.query query))) :
    Like number (world.step (.query query)) (world'.run [.query (query.within number)]) ∧
      world'.answers number [.query (query.within number)] =
        (world.topologies[query.topology]?.map fun topology =>
          (world.ask topology query).1.1).toList := by
  have hcontext : query.context.number = .ok number := by rw [Context.number, hworking]
  have hanswers : world'.answers number [.query (query.within number)] =
      (world.topologies[query.topology]?.map fun topology =>
        (world'.ask topology (query.within number)).1.1).toList := by
    have hworking' : (query.within number).context.working = some number := hworking
    rw [answers, answers, answered, if_pos hworking', List.append_nil, h.topologies_eq]
    rfl
  rw [hanswers]
  change Like number _ (world'.step (.query (query.within number))) ∧ _
  cases hfound : world.topologies[query.topology]? with
  | none =>
    have hfound' : world'.topologies[(query.within number).topology]? = none :=
      h.topologies_eq ▸ hfound
    rw [step_query_none hfound, step_query_none hfound']
    exact ⟨h, rfl⟩
  | some topology =>
    have hfound' : world'.topologies[(query.within number).topology]? = some topology :=
      h.topologies_eq ▸ hfound
    rw [performed, hfound] at hwithholds
    obtain ⟨hresult, hfollows, hcaches⟩ := h.ask hcontext hwithholds
    rw [step_query hfound, step_query hfound']
    refine ⟨(h.of_apace hfollows.apace).withCache query.cache hcaches, ?_⟩
    rw [Option.map_some, Option.map_some, hresult]

/-- A query on another variant, which comes down to what is carried out while it goes on. -/
theorem step_off (h : Like number world world') {query : CachedQuery}
    (hworking : query.context.working ≠ some number)
    (hwithholds : Store.Withholds number world.store (world.performed (.query query))) :
    Like number (world.step (.query query))
      (world'.run (((world.performed (.query query)).filter (·.alters number)).map .operate)) := by
  have hcontext : query.context.number ≠ .ok number := by
    rw [Context.number]
    split
    · nofun
    · rintro ⟨⟩
      exact hworking ‹_›
  have hoperated := h.operate hwithholds
  cases hfound : world.topologies[query.topology]? with
  | none =>
    rw [performed, hfound] at hoperated ⊢
    rw [step_query_none hfound]
    exact hoperated
  | some topology =>
    rw [performed, hfound] at hoperated ⊢
    rw [step_query hfound, ask_store]
    exact hoperated.withCache_left query.cache
      ((world.call_ask topology query).find?_of_ne hcontext)

theorem step (h : Like number world world') (action : Action)
    (hwithholds : Store.Withholds number world.store (world.performed action)) :
    Like number (world.step action) (world'.run (world.seen number action)) ∧
      world'.answers number (world.seen number action) =
        (world.answered number action).toList := by
  cases action with
  | operate operation => exact ⟨h.operate hwithholds, answers_operate number world' _⟩
  | make kind view allowDangling =>
    refine ⟨?_, rfl⟩
    have hmade := h.enter (Topology.make kind view allowDangling world.ids)
    change Like number (world.enter _) (world'.enter (Topology.make kind view allowDangling _))
    rwa [← h.ids_eq]
  | revalidate index validator =>
    refine ⟨?_, rfl⟩
    change Like number (world.step (.revalidate index validator))
      (world'.step (.revalidate index validator))
    rw [World.step, World.step, h.topologies_eq, h.ids_eq]
    cases world'.topologies[index]? with
    | none => exact h
    | some topology => exact h.enter _
  | invalidate index variant level =>
    rw [seen]
    split
    case isTrue => exact ⟨h.filter index fun key => key.variant ≠ variant ∨ key.level ≠ level, rfl⟩
    case isFalse hvariant =>
      refine ⟨h.filter_left index (fun key => key.variant ≠ variant ∨ key.level ≠ level)
        fun key hkey => ?_, rfl⟩
      exact decide_eq_true (.inl fun hsame => hvariant (hsame.symm.trans hkey))
  | invalidateVariant index variant =>
    rw [seen]
    split
    case isTrue => exact ⟨h.filter index fun key => key.variant ≠ variant, rfl⟩
    case isFalse hvariant =>
      refine ⟨h.filter_left index (fun key => key.variant ≠ variant) fun key hkey => ?_, rfl⟩
      exact decide_eq_true fun hsame => hvariant (hsame.symm.trans hkey)
  | query query =>
    by_cases hworking : query.context.working = some number
    · rw [seen, if_pos hworking, answered, if_pos hworking]
      exact h.step_on hworking hwithholds
    · rw [seen, if_neg hworking, answered, if_neg hworking]
      exact ⟨h.step_off hworking hwithholds, answers_operate number world' _⟩

/-- A run can be replaced by what it amounts to for the variant. -/
theorem run (h : Like number world world') (actions : List Action)
    (hwithholds : Store.Withholds number world.store (world.history actions)) :
    Like number (world.run actions) (world'.run (world.view number actions)) ∧
      world'.answers number (world.view number actions) = world.answers number actions := by
  induction actions generalizing world world' with
  | nil => exact ⟨h, rfl⟩
  | cons action actions ih =>
    obtain ⟨hfirst, hlater⟩ := hwithholds.of_append
    obtain ⟨hstep, hanswered⟩ := h.step action hfirst
    rw [← step_store] at hlater
    obtain ⟨hrun, hanswers⟩ := ih hstep hlater
    rw [view, run_append, answers_append, hanswered, hanswers]
    exact ⟨hrun, rfl⟩

end Like

/-! ### Clones -/

/-- A clone that is granted has the graphs and the buses of its source at that moment; its flags are
taken back, and its generations are later than any that a level had before. From then on, in any two
runs that are the same for the clone, queries on it come to the same and it is the same in the end,
as long as no other clone is granted to its number. -/
theorem clone_is_isolated (past : List Action) (source target : UInt32) (name : String)
    (hcloned : ((new.run past).store.apply (.clone source target name)).1 = .ok ()) :
    let before := new.run past
    let cloned := before.step (.operate (.clone source target name))
    (∀ (topology : Topology) (level : String),
      ((topology.graph (.workingOn target) level).outcome Store.index cloned.store).1 =
          ((topology.graph (.workingOn source) level).outcome Store.index before.store).1 ∧
        ((topology.buses (.workingOn target) level).outcome Store.index cloned.store).1 =
          ((topology.buses (.workingOn source) level).outcome Store.index before.store).1) ∧
    (∀ level record, cloned.store.record? target level = some record → record.valid = false ∧
      ∀ earlier, earlier <+: new.history past → ∀ number other old,
        (Store.new.run earlier).record? number other = some old →
          old.generation < record.generation) ∧
    ∀ first second, cloned.view target first = cloned.view target second →
      Store.Withholds target cloned.store (cloned.history first) →
      Store.Withholds target cloned.store (cloned.history second) →
        cloned.answers target first = cloned.answers target second ∧
        Store.AgreeOn target (cloned.run first).store (cloned.run second).store := by
  intro before cloned
  refine ⟨fun topology level => Store.outcome_of_clone hcloned topology level,
    fun level record hrecord => ?_, fun first second hview hfirst hsecond => ?_⟩
  · have hsource := Store.record?_of_clone hcloned level
    rw [show cloned.store.record? target level = _ from hsource] at hrecord
    obtain ⟨copied, _, rfl⟩ := Option.map_eq_some_iff.mp hrecord
    refine ⟨rfl, ?_⟩
    rintro earlier ⟨later, hpast⟩ number other old hold
    have hdrawn := (Store.wellDated_new.run earlier).drawn _ _ _ (Store.edition?_of_record? hold)
    have hgrown := Store.lastGeneration_le_run (Store.new.run earlier) later
    rw [← Store.run_append, hpast, show Store.new = new.store from rfl, ← run_store] at hgrown
    exact Nat.lt_succ_of_le (Nat.le_trans hdrawn hgrown)
  · have hlike : Like target cloned cloned := ((sound_new.run past).step _).like target
    obtain ⟨hlast, hanswers⟩ := hlike.run first hfirst
    obtain ⟨hlast', hanswers'⟩ := hlike.run second hsecond
    rw [← hview] at hlast' hanswers'
    exact ⟨hanswers.symm.trans hanswers', (hlast.alike.trans_symm hlast'.alike).agreeOn⟩

/-- A query for the level with one load in the first clone. -/
def clonedQuery : CachedQuery := ⟨0, 0, .workingOn 1, "A", []⟩

/-- The load that is entered in the clone. -/
def secondLoad : Operation := .addInjection 1 ⟨"M", .load, { level := "A", bus := some "N" }⟩

/-- In the first run the original is flagged and read through the same cache, while a load is
entered in the clone; then it is deleted. In the second run only the load is entered. -/
theorem clone_is_isolated_crowded :
    let cloned := (new.run oneLoad).step (.operate (.clone 0 1 "t"))
    let first : List Action :=
      [.query clonedQuery, .operate (.setValid 0 "A" true),
        .query { oneLoadQuery with between := [[], [secondLoad]] }, .query clonedQuery,
        .operate (.delete 0), .query clonedQuery]
    let second : List Action :=
      [.query clonedQuery, .operate secondLoad, .query clonedQuery, .query clonedQuery]
    cloned.view 1 first = cloned.view 1 second ∧
      cloned.answers 1 first = cloned.answers 1 second ∧
      (cloned.answers 1 second).map (·.toOption.map fun buses => buses.toList.map Bus.equipment) =
        [some [["L"]], some [["L", "M"]], some [["L", "M"]]] ∧
      Store.AgreeOn 1 (cloned.run first).store (cloned.run second).store := by
  intro cloned first second
  have hown : clonedQuery.context.working = some 1 := rfl
  have hother : oneLoadQuery.context.working ≠ some 1 := by decide
  -- of the query on the original, only the load that is entered meanwhile concerns the clone
  have hmeanwhile : (((cloned.step (.query clonedQuery)).step
      (.operate (.setValid 0 "A" true))).performed
        (.query { oneLoadQuery with between := [[], [secondLoad]] })).filter (·.alters 1) =
      [secondLoad] := by decide +kernel
  have hview : cloned.view 1 first = cloned.view 1 second := by
    simp only [first, second, view, seen, if_pos hown, if_neg hother, hmeanwhile]
    rfl
  have hfirst : ∀ operation ∈ cloned.history first,
      operation.alters 1 = true ∨ operation.target ≠ 1 := by decide +kernel
  have hsecond : ∀ operation ∈ cloned.history second,
      operation.alters 1 = true ∨ operation.target ≠ 1 := by decide +kernel
  obtain ⟨_, _, hisolated⟩ := clone_is_isolated oneLoad 0 1 "t" rfl
  obtain ⟨hanswers, hagree⟩ := hisolated first second hview (Store.withholds_of_forall hfirst)
    (Store.withholds_of_forall hsecond)
  exact ⟨hview, hanswers, by decide +kernel, hagree⟩

/-- When the number of a clone is given to another clone, what was done to the source shows there.
-/
theorem reclone_shows_source :
    let cloned := Store.new.run [.addLevel 0 ⟨"A", .voltageLevel, { kind := .nodeBreaker }⟩,
      .clone 0 1 "t"]
    let first : List Operation := [.addInjection 0 ⟨"L", .load, { level := "A", node := some 1 }⟩,
      .delete 1, .clone 0 1 "t"]
    let second := first.filter (·.target = 1)
    second = [.delete 1, .clone 0 1 "t"] ∧
      (cloned.run first).injections 1 "A" .load ≠ (cloned.run second).injections 1 "A" .load := by
  decide

end World

end Switchyard
