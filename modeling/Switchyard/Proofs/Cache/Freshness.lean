import Switchyard.Proofs.Cache.World

/-!
No query is answered with buses that are out of date.

A query that nobody disturbs comes to exactly what calculating the buses would, whatever was done to
the store, the caches and the topologies before (`cachedBuses_eq_buses`). A query that others
disturb and that is answered from its cache gets the buses of the level as it was when the query
read it; and buses that were stored although the level changed while they were worked out are never
handed out (`served_buses_are_current`). Both follow from `World.Sound`, which every action keeps.
-/

namespace Switchyard

/-- The entry is kept for queries such as this one, with this topology. -/
def CachedQuery.Keys (query : CachedQuery) (topology : Topology) (entry : CacheEntry) : Prop :=
  ∃ number, query.context.number = .ok number ∧ entry.key = ⟨number, query.level, topology.id⟩

/-- What other sessions do before the query has read the level. -/
def CachedQuery.beforeReading (query : CachedQuery) : List Operation := query.between.headD []

namespace World

variable {world : World} {topology : Topology} {query : CachedQuery} {entry : CacheEntry}

/-- The query is answered with the buses of an entry: it asks for nothing but the level. -/
structure ServedFrom (world : World) (topology : Topology) (query : CachedQuery)
    (entry : CacheEntry) : Prop where
  kept : entry ∈ (world.caches query.cache).entries
  keys : query.Keys topology entry
  result : (world.ask topology query).1.1 = .ok entry.buses
  asked : (world.questions topology query).length = 1

/-- The query works out the buses of an entry, which it leaves in its cache. -/
structure Calculates (world : World) (topology : Topology) (query : CachedQuery)
    (entry : CacheEntry) : Prop where
  kept : entry ∈ (world.ask topology query).1.2.entries
  keys : query.Keys topology entry
  result : (world.ask topology query).1.1 = .ok entry.buses
  asked : (world.questions topology query).length ≠ 1

/-- The level of an entry is changed at some moment between the question for the level and the end
of the query. The operations of the query itself are among those performed. -/
def ChangesDuring (world : World) (topology : Topology) (query : CachedQuery)
    (entry : CacheEntry) : Prop :=
  ∃ performed, query.beforeReading <+: performed ∧
    performed <+: (world.ask topology query).2.performed ∧
    (world.store.run performed).edition? entry.key.variant entry.key.level ≠
      (world.store.run query.beforeReading).edition? entry.key.variant entry.key.level

/-! ### What a read tells -/

/-- A level that is read with the generation of an entry has the buses of the entry. -/
theorem Sound.outcome_of_entry (h : world.Sound) (htopology : topology ∈ world.topologies)
    {index : Nat} (hentry : entry ∈ (world.caches index).entries) {context : Context}
    {number : UInt32} {level : String} (hcontext : context.number = .ok number)
    (hkey : entry.key = ⟨number, level, topology.id⟩) {operations : List Operation}
    {found : Resource VoltageLevel}
    (hfound : (world.store.run operations).level number level = .ok found)
    (hgen : entry.generation = found.attributes.generation) :
    ((topology.buses context level).outcome Store.index (world.store.run operations)).1 =
      .ok entry.buses := by
  obtain ⟨record, hrecord, hdate, _⟩ := Store.record?_of_level hfound
  have hright := ((h.current index entry hentry).run operations).right topology htopology
  rw [hkey] at hright
  rw [Store.outcome_buses hrecord hcontext]
  exact hright rfl record.toEdition (Store.edition?_of_record? hrecord) (hdate.trans hgen.symm)

/-- With a store that is left alone, the cache makes no difference to what comes of a query. -/
theorem Sound.result_of_call (h : world.Sound) (htopology : topology ∈ world.topologies)
    {index : Nat} {context : Context} {level : String} {result : Except Fault Buses}
    {after : BusCache} {last : Store} {questions : List IndexQuery}
    (hcall : topology.Call Store.index context level (world.caches index) world.store result after
      last questions) :
    result = ((topology.buses context level).outcome Store.index world.store).1 := by
  cases hcall with
  | unset hcontext =>
    rw [Attempt.outcome, Topology.run_buses_unset hcontext]
    rfl
  | unread hcontext hread =>
    obtain ⟨next, hnext, hfault⟩ := Topology.run_buses hcontext
    rw [Attempt.outcome, hnext, Dialogue.run, hread]
    dsimp only
    rw [hfault]
    rfl
  | served hcontext hread hentry =>
    obtain ⟨hmem, hkey⟩ := BusCache.find?_eq_some_iff.mp hentry
    obtain ⟨hold, hfresh⟩ := BusCache.mem_refresh.mp hmem
    obtain ⟨_, hgen⟩ := hfresh (by rw [hkey]) (by rw [hkey])
    obtain ⟨_, hfound⟩ := Store.read_index hread
    rw [← Store.run_nil world.store] at hfound
    exact (h.outcome_of_entry htopology hold hcontext hkey hfound hgen).symm
  | failed _ hread _ hbuses =>
    obtain ⟨rfl, _⟩ := Store.read_index hread
    rw [hbuses]
  | unflagged hcontext hread _ hbuses hflag =>
    -- the level was there to be read, so its flag can be set
    obtain ⟨rfl, hfound⟩ := Store.read_index hread
    obtain ⟨record, hrecord, _⟩ := Store.record?_of_level hfound
    rw [Store.outcome_buses hrecord hcontext] at hbuses
    obtain ⟨_, rfl⟩ := Prod.mk.inj hbuses
    have hset := (Store.apply_setValid hrecord true).symm.trans (congrArg Prod.fst hflag)
    cases hset
  | stored _ hread _ hbuses _ =>
    obtain ⟨rfl, _⟩ := Store.read_index hread
    rw [hbuses]

/-! ### Queries in a run -/

/-- After any actions, a query that nobody disturbs comes to what calculating the buses would: the
same buses, or the same fault. This holds of the query as a step of the world and of its dialogue
with the store alone. -/
theorem cachedBuses_eq_buses (history : List Action) (query : CachedQuery) (topology : Topology)
    (htopology : (new.run history).topologies[query.topology]? = some topology)
    (hquiet : query.between = []) :
    let world := new.run history
    let fresh := ((topology.buses query.context query.level).outcome Store.index world.store).1
    (world.ask topology query).1.1 = fresh ∧
      ((world.dialogue topology query).run Store.index world.store).1.1 = fresh := by
  intro world fresh
  have hsound : world.Sound := sound_new.run history
  have hplain : ((world.dialogue topology query).run Store.index world.store).1.1 = fresh :=
    hsound.result_of_call (List.mem_of_getElem? htopology) (Topology.call_cachedBuses _ _ _)
  refine ⟨?_, hplain⟩
  rw [ask, disturbance, hquiet, (Store.run_undisturbed _ _ _).1]
  exact hplain

/-- A level with one load at a configured bus, and a topology for it. -/
def oneLoad : List Action :=
  [.operate (.addLevel 0 ⟨"A", .voltageLevel, { kind := .busBreaker }⟩),
    .operate (.addInjection 0 ⟨"L", .load, { level := "A", bus := some "N" }⟩),
    .make .busBreaker .busBreakerView false]

/-- A query for this level. -/
def oneLoadQuery : CachedQuery := ⟨0, 0, {}, "A", []⟩

/-- A switch is added after the buses were calculated, so they are calculated again; a third query
is answered from the cache. -/
theorem cachedBuses_eq_buses_of_hit :
    let history := oneLoad ++ [.query oneLoadQuery,
      .operate (.addSwitch 0 ⟨"S", .switch, { level := "A" }⟩), .query oneLoadQuery]
    let world := new.run history
    ∃ topology buses, world.topologies[0]? = some topology ∧
      (world.questions topology oneLoadQuery).length = 1 ∧
      (world.ask topology oneLoadQuery).1.1 = .ok buses ∧ buses.toList.map Bus.id = ["A_N"] ∧
      ((topology.buses {} "A").outcome Store.index world.store).1 = .ok buses :=
  ⟨_, _, rfl, rfl, rfl, rfl, (cachedBuses_eq_buses _ oneLoadQuery _ rfl rfl).1.symm⟩

/-- A query that succeeds after one question is answered with an entry of its cache, of the
generation that the level has when it is read. -/
theorem exists_served {buses : Buses} (hresult : (world.ask topology query).1.1 = .ok buses)
    (hasked : (world.questions topology query).length = 1) :
    ∃ number found entry, query.context.number = .ok number ∧
      (world.store.run query.beforeReading).level number query.level = .ok found ∧
      entry ∈ (world.caches query.cache).entries ∧
      entry.key = ⟨number, query.level, topology.id⟩ ∧
      entry.generation = found.attributes.generation ∧ buses = entry.buses := by
  have hcall := world.call_ask topology query
  rw [hresult] at hcall
  obtain ⟨number, found, entry, hcontext, hread, hkept, hkey, _, hgen, hbuses⟩ :=
    hcall.served_of_one_question hasked
  obtain ⟨hstore, _, hfound⟩ := Store.read_level hread
  rw [hstore] at hfound
  exact ⟨number, found, entry, hcontext, hfound, hkept, hkey, hgen, hbuses⟩

/-- The generation of an entry that a query works out is that of the level as the query reads it. -/
theorem Calculates.generation_eq (h : world.Calculates topology query entry) :
    ∃ edition, (world.store.run query.beforeReading).edition? entry.key.variant entry.key.level =
      some edition ∧ edition.generation = entry.generation := by
  obtain ⟨number, hcontext, hkey⟩ := h.keys
  have hcall := world.call_ask topology query
  rw [h.result] at hcall
  obtain ⟨hstores, _⟩ := hcall.stores_of_questions h.asked h.kept hcontext hkey
  cases hstores with
  | mk _ hread _ _ =>
    obtain ⟨hstore, _, hfound⟩ := Store.read_level hread
    rw [hstore] at hfound
    obtain ⟨record, hrecord, hdate, _⟩ := Store.record?_of_level hfound
    exact ⟨record.toEdition, Store.edition?_of_record? hrecord, hdate⟩

/-- The generation of an entry that a query is answered with is that of the level as it is read. -/
theorem ServedFrom.generation_eq (h : world.ServedFrom topology query entry) :
    ∃ edition, (world.store.run query.beforeReading).edition? entry.key.variant entry.key.level =
      some edition ∧ edition.generation = entry.generation := by
  obtain ⟨number, hcontext, hkey⟩ := h.keys
  obtain ⟨_, found, other, hcontext', hfound, hkept, hkey', hgen, _⟩ :=
    exists_served h.result h.asked
  cases hcontext.symm.trans hcontext'
  obtain rfl : other = entry := BusCache.eq_of_key_eq hkept h.kept (hkey'.trans hkey.symm)
  obtain ⟨record, hrecord, hdate, _⟩ := Store.record?_of_level hfound
  rw [hkey]
  exact ⟨record.toEdition, Store.edition?_of_record? hrecord, hdate.trans hgen.symm⟩

/-- An entry whose level was changed while it was worked out has lost its generation, and no later
query is answered with it. -/
theorem Sound.not_servedFrom (h : world.Sound)
    (hfound : world.topologies[query.topology]? = some topology)
    (hcalculates : world.Calculates topology query entry)
    (hchanges : world.ChangesDuring topology query entry) (later : List Action)
    (topology' : Topology) (query' : CachedQuery) :
    ¬ ((world.step (.query query)).run later).ServedFrom topology' query' entry := by
  intro hserved
  obtain ⟨edition, hedition, hgen⟩ := hcalculates.generation_eq
  obtain ⟨late, hlate, hlategen⟩ := hserved.generation_eq
  obtain ⟨performed, ⟨changing, rfl⟩, ⟨ending, hperformed⟩, hchanged⟩ := hchanges
  -- the store of the later query is reached from the one at the change
  obtain ⟨operations, hreached⟩ := (world.step (.query query)).run_reaches later
  rw [hreached, step_query hfound] at hlate
  change ((Store.run (world.ask topology query).2.store operations).run _).edition? _ _ = _ at hlate
  rw [ask_store, ← hperformed, Store.run_append, ← Store.run_append _ ending,
    ← Store.run_append] at hlate
  have hdrawn : late.generation ≤ (world.store.run query.beforeReading).lastGeneration := by
    rw [hlategen, ← hgen]
    exact (h.dated.run query.beforeReading).drawn _ _ _ hedition
  have hthen := Store.edition?_of_run hlate (Nat.le_trans hdrawn (by
    rw [Store.run_append]
    exact Store.lastGeneration_le_run _ _))
  have hbefore := hthen
  rw [Store.run_append] at hbefore
  exact hchanged (hthen.trans (Store.edition?_of_run hbefore hdrawn).symm)

/-- After any actions, and whatever other sessions do while a query goes on: if the query is
answered from its cache, it gets the buses of the level as it was when the query read it; and if it
works out an entry while the level is changed, no later query is answered with this entry. -/
theorem served_buses_are_current (history : List Action) (query : CachedQuery) (topology : Topology)
    (htopology : (new.run history).topologies[query.topology]? = some topology) :
    let world := new.run history
    (∀ buses, (world.ask topology query).1.1 = .ok buses →
      (world.questions topology query).length = 1 →
        (∃ entry, world.ServedFrom topology query entry ∧ entry.buses = buses) ∧
        ((topology.buses query.context query.level).outcome Store.index
          (world.store.run query.beforeReading)).1 = .ok buses) ∧
    (∀ entry, world.Calculates topology query entry → world.ChangesDuring topology query entry →
      ∀ later topology' query',
        ¬ ((world.step (.query query)).run later).ServedFrom topology' query' entry) := by
  intro world
  have hsound : world.Sound := sound_new.run history
  refine ⟨fun buses hresult hasked => ?_, fun entry hcalculates hchanges => ?_⟩
  · obtain ⟨number, found, entry, hcontext, hfound, hkept, hkey, hgen, rfl⟩ :=
      exists_served hresult hasked
    refine ⟨⟨entry, ⟨hkept, ⟨number, hcontext, hkey⟩, hresult, hasked⟩, rfl⟩, ?_⟩
    exact hsound.outcome_of_entry (List.mem_of_getElem? htopology) hkept hcontext hkey hfound hgen
  · exact hsound.not_servedFrom htopology hcalculates hchanges

/-- The query for the level with one load, while another load is entered just after the loads have
been listed. -/
def tornQuery : CachedQuery :=
  { oneLoadQuery with
    between :=
      [[], [], [], [], [.addInjection 0 ⟨"M", .load, { level := "A", bus := some "N" }⟩]] }

/-- The query for the level with one load, while another level is entered before it is read. -/
def disturbedQuery : CachedQuery :=
  { oneLoadQuery with between := [[.addLevel 0 ⟨"B", .voltageLevel, { kind := .busBreaker }⟩]] }

/-- The load that is entered while the level is read is missing from the entry that is stored, and
no later query is answered with this entry. The next query works out the buses anew, and one after
it is answered from the cache although it is disturbed. -/
theorem served_buses_are_current_torn :
    let world := new.run oneLoad
    let settled := new.run (oneLoad ++ [.query tornQuery, .query oneLoadQuery])
    (∃ topology entry, world.topologies[0]? = some topology ∧
      world.Calculates topology tornQuery entry ∧ world.ChangesDuring topology tornQuery entry ∧
      entry.buses.toList.map Bus.equipment = [["L"]] ∧
      ∀ later topology' query',
        ¬ ((world.step (.query tornQuery)).run later).ServedFrom topology' query' entry) ∧
    ∃ topology buses, settled.topologies[0]? = some topology ∧
      (settled.ask topology disturbedQuery).1.1 = .ok buses ∧
      (settled.questions topology disturbedQuery).length = 1 ∧
      buses.toList.map Bus.equipment = [["L", "M"]] ∧
      ((topology.buses {} "A").outcome Store.index
        (settled.store.run disturbedQuery.beforeReading)).1 = .ok buses := by
  obtain ⟨topology, entry, htopology, hcalculates, hchanges, hstale⟩ : ∃ topology entry,
      (new.run oneLoad).topologies[0]? = some topology ∧
      (new.run oneLoad).Calculates topology tornQuery entry ∧
      (new.run oneLoad).ChangesDuring topology tornQuery entry ∧
      entry.buses.toList.map Bus.equipment = [["L"]] := by
    refine ⟨_, _, rfl, ⟨.head _, ⟨0, rfl, rfl⟩, rfl, by decide⟩,
      ⟨_, ⟨_, rfl⟩, List.prefix_refl _, ?_⟩, rfl⟩
    exact fun hsame => absurd (congrArg (Option.map Edition.generation) hsame) (by decide)
  exact ⟨⟨topology, entry, htopology, hcalculates, hchanges, hstale,
      (served_buses_are_current oneLoad tornQuery topology htopology).2 entry hcalculates hchanges⟩,
    _, _, rfl, rfl, rfl, rfl, ((served_buses_are_current _ disturbedQuery _ rfl).1 _ rfl rfl).2⟩

end World

end Switchyard
