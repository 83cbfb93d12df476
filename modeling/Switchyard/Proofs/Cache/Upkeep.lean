import Switchyard.Proofs.Topology.Questions

/-!
What a cached query leaves in its cache, with any index behind it.

Nothing is assumed of the index: it may answer each question as it likes, and any of its answers may
be a fault. A query that does not get to read its level leaves the cache alone. One that does drops
the entries of the level that may no longer be served, and no others, and adds an entry if and only
if it misses one and then succeeds. So wherever it fails, the cache is left with nothing half made,
and the valid flag of the level is not raised before the buses are there.
-/

namespace Switchyard

namespace BusCache

variable {cache : BusCache} {number : UInt32} {level : String} {found : VoltageLevel}
  {entry : CacheEntry} {key : CacheKey}

/-- The entry is in the cache, and if it is of the level that was found it may be served. -/
def Survives (cache : BusCache) (number : UInt32) (level : String) (found : VoltageLevel)
    (entry : CacheEntry) : Prop :=
  entry ∈ cache.entries ∧ (entry.key.variant = number → entry.key.level = level →
    found.valid = true ∧ entry.generation = found.generation)

/-- No entry that survives is found by the key. -/
def Misses (cache : BusCache) (number : UInt32) (level : String) (found : VoltageLevel)
    (key : CacheKey) : Prop :=
  ∀ entry, cache.Survives number level found entry → entry.key ≠ key

theorem misses_iff :
    cache.Misses number level found key ↔ (cache.refresh number level found).find? key = none := by
  constructor
  · intro h
    cases hfind : (cache.refresh number level found).find? key with
    | none => rfl
    | some entry =>
      obtain ⟨hentry, hkey⟩ := find?_eq_some_iff.mp hfind
      exact absurd hkey (h entry (mem_refresh.mp hentry))
  · intro h entry hsurvives hkey
    have hfind := find?_eq_some_iff.mpr ⟨mem_refresh.mpr hsurvives, hkey⟩
    rw [h] at hfind
    cases hfind

end BusCache

namespace Topology

open Dialogue

variable {σ : Type} {server : Server indexProtocol σ} {topology : Topology} {context : Context}
  {level : String} {number : UInt32} {cache after : BusCache} {state read last : σ}
  {result : Except Fault Buses} {questions : List IndexQuery} {found : Resource VoltageLevel}
  {entry : CacheEntry}

/-- A query without a working variant leaves the cache alone. -/
theorem Call.of_unset {fault : Fault}
    (h : Call topology server context level cache state result after last questions)
    (hunset : context.number = .error fault) :
    result = .error fault ∧ after = cache ∧ questions = [] := by
  cases h with
  | unset hunset' =>
    cases hunset.symm.trans hunset'
    exact ⟨rfl, rfl, rfl⟩
  | unread hcontext | served hcontext | failed hcontext | unflagged hcontext | stored hcontext =>
    cases hunset.symm.trans hcontext

/-- A query that does not get to read its level leaves the cache alone. -/
theorem Call.of_unread {fault : Fault}
    (h : Call topology server context level cache state result after last questions)
    (hcontext : context.number = .ok number)
    (hread : server.answer (.level number level) state = (.error fault, read)) :
    result = .error fault ∧ after = cache ∧ questions = [.level number level] := by
  cases h with
  | unset hunset => cases hcontext.symm.trans hunset
  | unread hcontext' hread' =>
    cases hcontext.symm.trans hcontext'
    cases hread.symm.trans hread'
    exact ⟨rfl, rfl, rfl⟩
  | served hcontext' hread' | failed hcontext' hread' | unflagged hcontext' hread'
  | stored hcontext' hread' =>
    cases hcontext.symm.trans hcontext'
    cases hread.symm.trans hread'

/-- A query that reads its level is served with an entry that survives. Or it misses one, and either
fails, with or without having worked out the buses, or stores the buses that it worked out. -/
theorem Call.of_read
    (h : Call topology server context level cache state result after last questions)
    (hcontext : context.number = .ok number)
    (hread : server.answer (.level number level) state = (.ok found, read)) :
    let refreshed := cache.refresh number level found.attributes
    let key : CacheKey := ⟨number, level, topology.id⟩
    let outcome := (topology.buses context level).outcome server read
    let reads := .level number level :: (topology.buses context level).run.asked server read
    (∃ entry, refreshed.find? key = some entry ∧ result = .ok entry.buses ∧ after = refreshed ∧
      questions = [.level number level]) ∨
    refreshed.find? key = none ∧
      ((∃ fault, result = .error fault ∧ after = refreshed ∧ (questions = reads ∨
        ∃ buses, outcome.1 = .ok buses ∧ questions = reads ++ [.setValid number level true])) ∨
      ∃ buses, result = .ok buses ∧
        after = refreshed.insert ⟨key, found.attributes.generation, buses⟩ ∧
        outcome.1 = .ok buses ∧ questions = reads ++ [.setValid number level true]) := by
  cases h with
  | unset hunset => cases hcontext.symm.trans hunset
  | unread hcontext' hread' =>
    cases hcontext.symm.trans hcontext'
    cases hread.symm.trans hread'
  | served hcontext' hread' hentry =>
    cases hcontext.symm.trans hcontext'
    cases hread.symm.trans hread'
    exact .inl ⟨_, hentry, rfl, rfl, rfl⟩
  | failed hcontext' hread' hentry =>
    cases hcontext.symm.trans hcontext'
    cases hread.symm.trans hread'
    exact .inr ⟨hentry, .inl ⟨_, rfl, rfl, .inl rfl⟩⟩
  | unflagged hcontext' hread' hentry hbuses =>
    cases hcontext.symm.trans hcontext'
    cases hread.symm.trans hread'
    exact .inr ⟨hentry, .inl ⟨_, rfl, rfl, .inr ⟨_, congrArg Prod.fst hbuses, rfl⟩⟩⟩
  | stored hcontext' hread' hentry hbuses =>
    cases hcontext.symm.trans hcontext'
    cases hread.symm.trans hread'
    exact .inr ⟨hentry, .inr ⟨_, rfl, rfl, congrArg Prod.fst hbuses, rfl⟩⟩

/-- An entry that the query adds is missing before. -/
theorem mem_insert_of_misses {generation : Nat} {buses : Buses} {key : CacheKey}
    (hmisses : cache.Misses number level found.attributes key) :
    entry ∈ ((cache.refresh number level found.attributes).insert
        ⟨key, generation, buses⟩).entries ↔
      cache.Survives number level found.attributes entry ∨ entry = ⟨key, generation, buses⟩ := by
  rw [BusCache.mem_insert, BusCache.mem_refresh, or_comm]
  exact or_congr_left ⟨And.left, fun hold => ⟨hold, hmisses entry hold⟩⟩

/-- The entries after a query that reads its level: those that survive, and the one that was missing
if the query succeeds. -/
theorem Call.mem_entries_iff
    (h : Call topology server context level cache state result after last questions)
    (hcontext : context.number = .ok number)
    (hread : server.answer (.level number level) state = (.ok found, read)) :
    entry ∈ after.entries ↔ cache.Survives number level found.attributes entry ∨
      (cache.Misses number level found.attributes ⟨number, level, topology.id⟩ ∧
        entry.key = ⟨number, level, topology.id⟩ ∧
        entry.generation = found.attributes.generation ∧ result = .ok entry.buses) := by
  obtain ⟨served, hserved, rfl, rfl, _⟩ | ⟨hmissing, ⟨fault, rfl, rfl, _⟩ | ⟨buses, rfl, rfl, _⟩⟩ :=
    h.of_read hcontext hread
  · refine BusCache.mem_refresh.trans (or_iff_left ?_).symm
    rintro ⟨hmisses, _⟩
    rw [BusCache.misses_iff, hserved] at hmisses
    cases hmisses
  · refine BusCache.mem_refresh.trans (or_iff_left ?_).symm
    rintro ⟨_, _, _, hresult⟩
    cases hresult
  · have hmisses := BusCache.misses_iff.mpr hmissing
    rw [mem_insert_of_misses hmisses]
    refine or_congr_right ⟨?_, ?_⟩
    · rintro rfl
      exact ⟨hmisses, rfl, rfl, rfl⟩
    · rintro ⟨_, hkey, hgeneration, hbuses⟩
      cases entry
      cases hkey
      cases hgeneration
      cases hbuses
      rfl

/-- An entry of the topology that survives is served at once. -/
theorem Call.of_survives
    (h : Call topology server context level cache state result after last questions)
    (hcontext : context.number = .ok number)
    (hread : server.answer (.level number level) state = (.ok found, read))
    (hsurvives : cache.Survives number level found.attributes entry)
    (hkey : entry.key = ⟨number, level, topology.id⟩) :
    result = .ok entry.buses ∧ questions = [.level number level] := by
  obtain ⟨served, hserved, hresult, _, hasked⟩ | ⟨hmissing, _⟩ := h.of_read hcontext hread
  · obtain ⟨hmem, hkey'⟩ := BusCache.find?_eq_some_iff.mp hserved
    obtain rfl : served = entry := BusCache.eq_of_key_eq hmem (BusCache.mem_refresh.mpr hsurvives)
      (hkey'.trans hkey.symm)
    exact ⟨hresult, hasked⟩
  · exact absurd hkey (BusCache.misses_iff.mpr hmissing entry hsurvives)

/-- All questions of a query read its level, but for the last one where the buses were worked out:
this one raises the flag. -/
theorem Call.questions_cases
    (h : Call topology server context level cache state result after last questions)
    (hcontext : context.number = .ok number)
    (hread : server.answer (.level number level) state = (.ok found, read)) :
    (∀ query ∈ questions, query.Reads number level) ∨
      cache.Misses number level found.attributes ⟨number, level, topology.id⟩ ∧
        ∃ reads buses, questions = reads ++ [.setValid number level true] ∧
          (∀ query ∈ reads, query.Reads number level) ∧
          ((topology.buses context level).outcome server read).1 = .ok buses := by
  have hreads : ∀ query ∈ IndexQuery.level number level ::
      (topology.buses context level).run.asked server read, query.Reads number level :=
    List.forall_mem_cons.mpr ⟨⟨rfl, rfl⟩, (strict_buses hcontext).asked server _⟩
  obtain ⟨_, _, _, _, hasked⟩ |
      ⟨hmissing, ⟨_, _, _, hasked | ⟨buses, hbuses, hasked⟩⟩ | ⟨buses, _, _, hbuses, hasked⟩⟩ :=
    h.of_read hcontext hread
  · rw [hasked]
    exact .inl (List.forall_mem_singleton.mpr ⟨rfl, rfl⟩)
  · rw [hasked]
    exact .inl hreads
  · exact .inr ⟨BusCache.misses_iff.mpr hmissing, _, buses, hasked, hreads, hbuses⟩
  · exact .inr ⟨BusCache.misses_iff.mpr hmissing, _, buses, hasked, hreads, hbuses⟩

/-- With any index, a cached query leaves its cache as it should. Without a working variant or a
level that can be read, nothing is changed. Otherwise what is left of the cache are the entries that
survive the reading, and an entry of this topology is added if and only if it is missing among them
and the query succeeds. Entries that survive are served at once; where one is missing, the flag of
the level is raised by the last question, if at all, and only after the buses were worked out. A
question that fails is the last one, the query fails with its fault, and nothing is added. -/
theorem cachedBuses_keeps_cache_consistent (server : Server indexProtocol σ) (topology : Topology)
    (context : Context) (level : String) (cache : BusCache) (state : σ) :
    let query := (topology.cachedBuses context level).start cache
    let result := (query.run server state).1.1
    let after := (query.run server state).1.2
    let questions := query.asked server state
    (∀ fault, context.number = .error fault →
      result = .error fault ∧ after = cache ∧ questions = []) ∧
    ∀ number, context.number = .ok number →
      (∀ fault, (server.answer (.level number level) state).1 = .error fault →
        result = .error fault ∧ after = cache ∧ questions = [.level number level]) ∧
      (∀ found, (server.answer (.level number level) state).1 = .ok found →
        let survives := cache.Survives number level found.attributes
        let key : CacheKey := ⟨number, level, topology.id⟩
        let misses := cache.Misses number level found.attributes key
        (∀ entry, entry ∈ after.entries ↔ survives entry ∨
          (misses ∧ entry.key = key ∧ entry.generation = found.attributes.generation ∧
            result = .ok entry.buses)) ∧
        (∀ entry, survives entry → entry.key = key →
          result = .ok entry.buses ∧ questions = [.level number level]) ∧
        ((∀ query ∈ questions, query.Reads number level) ∨
          misses ∧ ∃ reads buses, questions = reads ++ [.setValid number level true] ∧
            (∀ query ∈ reads, query.Reads number level) ∧
            ((topology.buses context level).outcome server
              (server.answer (.level number level) state).2).1 = .ok buses)) ∧
      Throughout (fun _ exchange later => ∀ query state', exchange = .question query state' →
        ∀ fault, (server.answer query state').1 = .error fault →
          later = [] ∧ result = .error fault ∧ ∀ entry ∈ after.entries, entry ∈ cache.entries)
        (query.transcript server state) := by
  intro query result after questions
  have hcall : Call topology server context level cache state result after _ questions :=
    call_cachedBuses server cache state
  refine ⟨fun fault hunset => ?_, fun number hcontext => ⟨fun fault hfault => ?_,
    fun found hfound => ⟨fun entry => ?_, fun entry hsurvives hkey => ?_, ?_⟩, ?_⟩⟩
  · exact hcall.of_unset hunset
  · exact hcall.of_unread hcontext (Prod.ext hfault rfl)
  · exact hcall.mem_entries_iff hcontext (Prod.ext hfound rfl)
  · exact hcall.of_survives hcontext (Prod.ext hfound rfl) hsurvives hkey
  · exact hcall.questions_cases hcontext (Prod.ext hfound rfl)
  · intro before exchange later hsaid asked state' hasked
    exact ((strict_cachedBuses hcontext cache).throughout server state before exchange later hsaid
      asked state' hasked).2

/-- An index with one level in all variants, which is empty and has a flag that cannot be raised. -/
def sealedIndex : Server indexProtocol Unit where
  answer query state := match query with
    | .level _ id => (.ok ⟨id, .voltageLevel, ⟨.nodeBreaker, true, 2⟩⟩, state)
    | .injections _ _ _ => (.ok [], state)
    | .branches _ _ _ => (.ok [], state)
    | .transformers _ _ => (.ok [], state)
    | .switches _ _ => (.ok [], state)
    | .setValid _ id _ => (.error (.voltageLevelUnknown id), state)
  hear _ state := state

/-- Entries for two levels, two variants and two topologies. -/
def mixedCache : BusCache where
  entries := [⟨⟨0, "A", 0⟩, 1, ∅⟩, ⟨⟨0, "A", 1⟩, 2, ∅⟩, ⟨⟨0, "B", 0⟩, 1, ∅⟩, ⟨⟨1, "A", 0⟩, 1, ∅⟩]
  distinct := by decide

/-- The entry of the topology is out of date, so the buses are worked out; since the flag cannot be
raised the query fails after that, and what it leaves are the other three entries. -/
theorem cachedBuses_keeps_cache_consistent_sealed :
    let topology := (Topology.make .nodeBreaker .busView false {}).1
    let query := (topology.cachedBuses {} "A").start mixedCache
    let after := (query.run sealedIndex ()).1.2
    (query.run sealedIndex ()).1.1 = .error (.voltageLevelUnknown "A") ∧
      after.entries.map (·.key) = [⟨0, "A", 1⟩, ⟨0, "B", 0⟩, ⟨1, "A", 0⟩] ∧
      (∀ entry ∈ after.entries, mixedCache.Survives 0 "A" ⟨.nodeBreaker, true, 2⟩ entry) ∧
      ∃ reads, query.asked sealedIndex () = reads ++ [.setValid 0 "A" true] ∧
        ∀ query ∈ reads, query.Reads 0 "A" := by
  intro topology query after
  have hfault : (query.run sealedIndex ()).1.1 = .error (.voltageLevelUnknown "A") := rfl
  obtain ⟨_, hset⟩ := cachedBuses_keeps_cache_consistent sealedIndex topology {} "A" mixedCache ()
  obtain ⟨_, hfound, _⟩ := hset 0 rfl
  obtain ⟨hentries, _, hquestions⟩ := hfound _ rfl
  refine ⟨hfault, by decide, fun entry hentry => ((hentries entry).mp hentry).resolve_right ?_, ?_⟩
  · rintro ⟨_, _, _, hresult⟩
    cases hfault.symm.trans hresult
  · obtain hreads | ⟨_, reads, _, hasked, hreads, _⟩ := hquestions
    · exact (hreads (.setValid 0 "A" true) (by decide)).elim
    · exact ⟨reads, hasked, hreads⟩

end Topology

end Switchyard
