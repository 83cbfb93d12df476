import Switchyard.Proofs.Dialogue.Outcome
import Switchyard.Topology.Cache

/-!
How a cached query can go, with any index behind it.

A query with a working variant asks for the level first and drops the entries that may no longer be
served. If one is left for the topology the query ends there; otherwise it goes on to work out the
buses, raises the valid flag and stores the buses under the generation that was read first
(`start_cachedBuses`). `Call` lists the ways in which this can go, each with the questions asked, so
that a query which asks exactly one question and succeeds was answered from the cache.
-/

namespace Switchyard

namespace BusCache

variable {cache : BusCache} {entry other : CacheEntry} {key : CacheKey}

theorem mem_filter {q : CacheEntry → Bool} :
    entry ∈ (cache.filter q).entries ↔ entry ∈ cache.entries ∧ q entry = true :=
  List.mem_filter

/-- Entries with one key are one entry. -/
theorem eq_of_key_eq (hentry : entry ∈ cache.entries) (hother : other ∈ cache.entries)
    (h : entry.key = other.key) : entry = other := by
  exact List.Pairwise.forall_of_forall_of_flip (R := fun a b => a.key = b.key → a = b)
    (fun _ _ _ => rfl) (cache.distinct.imp fun hne he => absurd he hne)
    (cache.distinct.imp fun hne he => absurd he.symm hne) hentry hother h

theorem find?_eq_some_iff :
    cache.find? key = some entry ↔ entry ∈ cache.entries ∧ entry.key = key := by
  constructor
  · intro h
    exact ⟨List.mem_of_find?_eq_some h, by simpa using List.find?_some h⟩
  · rintro ⟨hentry, hkey⟩
    cases h : cache.find? key with
    | none => exact absurd hkey (by simpa using List.find?_eq_none.mp h entry hentry)
    | some found =>
      have hfound : found ∈ cache.entries := List.mem_of_find?_eq_some h
      have hfoundKey : found.key = key := by simpa using List.find?_some h
      rw [eq_of_key_eq hfound hentry (hfoundKey.trans hkey.symm)]

theorem mem_insert :
    other ∈ (cache.insert entry).entries ↔
      other = entry ∨ other ∈ cache.entries ∧ other.key ≠ entry.key := by
  simp [insert, mem_filter]

/-- Reading a level keeps its entries of the generation found, if it is valid, and all others. -/
theorem mem_refresh {number : UInt32} {level : String} {found : VoltageLevel} :
    entry ∈ (cache.refresh number level found).entries ↔
      entry ∈ cache.entries ∧
        (entry.key.variant = number → entry.key.level = level →
          found.valid = true ∧ entry.generation = found.generation) := by
  unfold refresh
  split
  · simp only [retain, mem_filter, decide_eq_true_eq]
    grind
  · simp only [invalidate, mem_filter, decide_eq_true_eq]
    grind

end BusCache

namespace Topology

open Dialogue

variable {σ : Type} {topology : Topology} {context : Context} {level : String} {number : UInt32}

/-- The questions and the steps of a cached query with a working variant. -/
theorem start_cachedBuses (cache : BusCache) (h : context.number = .ok number) :
    (topology.cachedBuses context level).start cache =
      ask (p := indexProtocol) (.level number level) fun
        | .error fault => done (.error fault, cache)
        | .ok found =>
          let refreshed := cache.refresh number level found.attributes
          match refreshed.find? ⟨number, level, topology.id⟩ with
          | some entry => done (.ok entry.buses, refreshed)
          | none => (topology.buses context level).run >>= fun
            | .error fault => done (.error fault, refreshed)
            | .ok buses => ask (p := indexProtocol) (.setValid number level true) fun
              | .error fault => done (.error fault, refreshed)
              | .ok _ => done (.ok buses, refreshed.insert
                  ⟨⟨number, level, topology.id⟩, found.attributes.generation, buses⟩) := by
  unfold cachedBuses
  rw [h]
  change ask (p := indexProtocol) (.level number level) _ = _
  congr 1
  funext answer
  cases answer with
  | error fault => rfl
  | ok found =>
    change Session.start
      (match (cache.refresh number level found.attributes).find? ⟨number, level, topology.id⟩ with
        | some entry => _
        | none => _) (cache.refresh number level found.attributes) = _
    dsimp only
    cases (cache.refresh number level found.attributes).find? ⟨number, level, topology.id⟩ with
    | some entry => rfl
    | none =>
      refine (Dialogue.bind_assoc _ _ _).trans ?_
      congr 1
      funext result
      cases result with
      | error fault => rfl
      | ok buses =>
        change ask (p := indexProtocol) (.setValid number level true) _ = _
        congr 1
        funext answer
        cases answer <;> rfl

/-- Without a working variant a query asks nothing. -/
theorem start_cachedBuses_unset {fault : Fault} (cache : BusCache)
    (h : context.number = .error fault) :
    (topology.cachedBuses context level).start cache = done (.error fault, cache) := by
  unfold cachedBuses
  rw [h]
  rfl

/-- Working out the buses begins by asking for the level. -/
theorem run_buses (h : context.number = .ok number) :
    ∃ next, (topology.buses context level).run =
      ask (p := indexProtocol) (.level number level) next ∧
        ∀ fault, next (.error fault) = done (.error fault) := by
  unfold buses graph
  rw [h]
  exact ⟨_, rfl, fun _ => rfl⟩

/-- Without a working variant there is nothing to work out. -/
theorem run_buses_unset {fault : Fault} (h : context.number = .error fault) :
    (topology.buses context level).run = done (.error fault) := by
  unfold buses graph
  rw [h]
  rfl

/-- The ways in which a cached query can go: what comes of it, the cache and the server after it,
and the questions that it asks. -/
inductive Call (topology : Topology) (server : Server indexProtocol σ) (context : Context)
    (level : String) (cache : BusCache) (state : σ) :
    Except Fault Buses → BusCache → σ → List IndexQuery → Prop
  | unset {fault : Fault} (hcontext : context.number = .error fault) :
    Call topology server context level cache state (.error fault) cache state []
  | unread {number : UInt32} {fault : Fault} {after : σ} (hcontext : context.number = .ok number)
      (hread : server.answer (.level number level) state = (.error fault, after)) :
    Call topology server context level cache state (.error fault) cache after [.level number level]
  | served {number : UInt32} {found : Resource VoltageLevel} {after : σ} {entry : CacheEntry}
      (hcontext : context.number = .ok number)
      (hread : server.answer (.level number level) state = (.ok found, after))
      (hentry : (cache.refresh number level found.attributes).find? ⟨number, level, topology.id⟩ =
        some entry) :
    Call topology server context level cache state (.ok entry.buses)
      (cache.refresh number level found.attributes) after [.level number level]
  | failed {number : UInt32} {found : Resource VoltageLevel} {after last : σ} {fault : Fault}
      (hcontext : context.number = .ok number)
      (hread : server.answer (.level number level) state = (.ok found, after))
      (hentry : (cache.refresh number level found.attributes).find? ⟨number, level, topology.id⟩ =
        none)
      (hbuses : (topology.buses context level).outcome server after = (.error fault, last)) :
    Call topology server context level cache state (.error fault)
      (cache.refresh number level found.attributes) last
      (.level number level :: (topology.buses context level).run.asked server after)
  | unflagged {number : UInt32} {found : Resource VoltageLevel} {after middle last : σ}
      {buses : Buses} {fault : Fault}
      (hcontext : context.number = .ok number)
      (hread : server.answer (.level number level) state = (.ok found, after))
      (hentry : (cache.refresh number level found.attributes).find? ⟨number, level, topology.id⟩ =
        none)
      (hbuses : (topology.buses context level).outcome server after = (.ok buses, middle))
      (hflag : server.answer (.setValid number level true) middle = (.error fault, last)) :
    Call topology server context level cache state (.error fault)
      (cache.refresh number level found.attributes) last
      (.level number level :: (topology.buses context level).run.asked server after ++
        [.setValid number level true])
  | stored {number : UInt32} {found : Resource VoltageLevel} {after middle last : σ} {buses : Buses}
      (hcontext : context.number = .ok number)
      (hread : server.answer (.level number level) state = (.ok found, after))
      (hentry : (cache.refresh number level found.attributes).find? ⟨number, level, topology.id⟩ =
        none)
      (hbuses : (topology.buses context level).outcome server after = (.ok buses, middle))
      (hflag : server.answer (.setValid number level true) middle = (.ok (), last)) :
    Call topology server context level cache state (.ok buses)
      ((cache.refresh number level found.attributes).insert
        ⟨⟨number, level, topology.id⟩, found.attributes.generation, buses⟩) last
      (.level number level :: (topology.buses context level).run.asked server after ++
        [.setValid number level true])

/-- Every cached query goes in one of these ways. -/
theorem call_cachedBuses (server : Server indexProtocol σ) (cache : BusCache) (state : σ) :
    let query := (topology.cachedBuses context level).start cache
    Call topology server context level cache state (query.run server state).1.1
      (query.run server state).1.2 (query.run server state).2 (query.asked server state) := by
  intro query
  cases hcontext : context.number with
  | error fault =>
    have hquery : query = done (.error fault, cache) := start_cachedBuses_unset cache hcontext
    rw [hquery]
    exact .unset hcontext
  | ok number =>
    rw [show query = _ from start_cachedBuses cache hcontext, Dialogue.run, asked]
    rcases hread : server.answer (.level number level) state with ⟨fault | found, after⟩
    · exact .unread hcontext hread
    dsimp only
    cases hentry : (cache.refresh number level found.attributes).find?
      ⟨number, level, topology.id⟩ with
    | some entry => exact .served hcontext hread hentry
    | none =>
      dsimp only
      rw [Dialogue.run_bind, asked_bind]
      rcases hbuses : (topology.buses context level).run.run server after with
        ⟨fault | buses, middle⟩
      · have := Call.failed hcontext hread hentry hbuses
        simpa [Dialogue.run, asked] using this
      · rcases hflag : server.answer (.setValid number level true) middle with ⟨fault | _, last⟩
        · have := Call.unflagged hcontext hread hentry hbuses hflag
          simpa [Dialogue.run, asked, hflag] using this
        · have := Call.stored hcontext hread hentry hbuses hflag
          simpa [Dialogue.run, asked, hflag] using this

/-- An entry that a query calculates and stores, under the generation that it reads first. -/
inductive Stores (topology : Topology) (server : Server indexProtocol σ) (context : Context)
    (level : String) (state last : σ) : CacheEntry → Prop
  | mk {number : UInt32} {found : Resource VoltageLevel} {after middle : σ} {buses : Buses}
      (hcontext : context.number = .ok number)
      (hread : server.answer (.level number level) state = (.ok found, after))
      (hbuses : (topology.buses context level).outcome server after = (.ok buses, middle))
      (hflag : server.answer (.setValid number level true) middle = (.ok (), last)) :
    Stores topology server context level state last
      ⟨⟨number, level, topology.id⟩, found.attributes.generation, buses⟩

variable {server : Server indexProtocol σ} {cache after : BusCache} {state last : σ}
  {questions : List IndexQuery} {entry : CacheEntry}

/-- An entry that is in the cache after a query was there before, or the query stored it. -/
theorem Call.entry_cases {result : Except Fault Buses}
    (h : Call topology server context level cache state result after last questions)
    (hentry : entry ∈ after.entries) :
    entry ∈ cache.entries ∨ Stores topology server context level state last entry := by
  cases h with
  | unset _ => exact .inl hentry
  | unread _ _ => exact .inl hentry
  | served _ _ _ => exact .inl (BusCache.mem_refresh.mp hentry).1
  | failed _ _ _ _ => exact .inl (BusCache.mem_refresh.mp hentry).1
  | unflagged _ _ _ _ _ => exact .inl (BusCache.mem_refresh.mp hentry).1
  | stored hcontext hread _ hbuses hflag =>
    rcases BusCache.mem_insert.mp hentry with rfl | ⟨hold, _⟩
    · exact .inr (.mk hcontext hread hbuses hflag)
    · exact .inl (BusCache.mem_refresh.mp hold).1

/-- A query that succeeds after more than one question has stored what is kept under its key. -/
theorem Call.stores_of_questions {buses : Buses}
    (h : Call topology server context level cache state (.ok buses) after last questions)
    (hmany : questions.length ≠ 1) (hentry : entry ∈ after.entries)
    (hkey : context.number = .ok number) (hkey' : entry.key = ⟨number, level, topology.id⟩) :
    Stores topology server context level state last entry ∧ entry.buses = buses := by
  cases h with
  | served _ _ _ => exact absurd rfl hmany
  | stored hcontext hread _ hbuses hflag =>
    cases hkey.symm.trans hcontext
    rcases BusCache.mem_insert.mp hentry with rfl | ⟨_, hother⟩
    · exact ⟨.mk hcontext hread hbuses hflag, rfl⟩
    · exact absurd hkey' hother

/-- A query that succeeds after a single question was answered from the cache. -/
theorem Call.served_of_one_question {buses : Buses}
    (h : Call topology server context level cache state (.ok buses) after last questions)
    (hone : questions.length = 1) :
    ∃ number found entry, context.number = .ok number ∧
      server.answer (.level number level) state = (.ok found, last) ∧
      entry ∈ cache.entries ∧ entry.key = ⟨number, level, topology.id⟩ ∧
      found.attributes.valid = true ∧ entry.generation = found.attributes.generation ∧
      buses = entry.buses := by
  cases h with
  | served hcontext hread hentry =>
    obtain ⟨hmem, hkey⟩ := BusCache.find?_eq_some_iff.mp hentry
    obtain ⟨hold, hfresh⟩ := BusCache.mem_refresh.mp hmem
    obtain ⟨hvalid, hgen⟩ := hfresh (by rw [hkey]) (by rw [hkey])
    exact ⟨_, _, _, hcontext, hread, hold, hkey, hvalid, hgen, rfl⟩
  | stored hcontext hread hentry hbuses hflag => simp at hone

end Topology

end Switchyard
