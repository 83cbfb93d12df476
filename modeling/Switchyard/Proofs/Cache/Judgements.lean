import Switchyard.Proofs.Cache.Upkeep
import Switchyard.Proofs.Dialogue.Told

/-!
When the validator is called.

Each time the validator judges a component this is told, and nothing else is. The graph of a level
is worked out in silence. Then all its components are judged in their order, or only the one that a
search from a point finds (`told_buses`, `told_busAt`). A cached query that misses its entry works
out all buses, and so takes one judgement of each component (`told_cachedBuses_of_misses`). One
that is served takes none, which is what an entry that stays in the cache saves
(`told_cachedBuses_of_finds`).
-/

namespace Switchyard

namespace Topology

open Attempt (Silent)

variable {σ : Type} {server : Server indexProtocol σ} {state : σ} {topology : Topology}
  {context : Context} {level : String} {number : UInt32}

/-- What the validator says of a component. -/
def judgement (topology : Topology) (graph : Graph) (component : PointSet) : Judgement :=
  ⟨component, graph.judge topology.validator component⟩

theorem silent_vertices : Silent server (topology.vertices number level) := by
  refine .bind (.mapM (fun type => ?_) _) fun injections =>
    .bind (.mapM (fun type => ?_) _) fun branches => .bind (.call _) fun _ => .pure _
  · exact .bind (.call _) fun _ => .bind (.lift _) fun _ => .pure _
  · exact .bind (.call _) fun _ => .bind (.lift _) fun _ => .pure _

/-- No component is judged while the graph is worked out. -/
theorem silent_graph : Silent server (topology.graph context level) := by
  refine .bind (.lift _) fun number => .bind (.call _) fun found => ?_
  dsimp only
  split
  · exact .bind silent_vertices fun _ => .bind (.call _) fun _ => .lift _
  · exact .lift (.error _)

theorem told_judge (graph : Graph) (components : List PointSet) :
    (components.forM (topology.judge graph)).run.told server state =
      components.map (topology.judgement graph) :=
  Attempt.told_forM_announce (p := indexProtocol) (topology.judgement graph) components

/-- All buses of a level take one judgement of each component of its graph. -/
theorem told_buses :
    (topology.buses context level).run.told server state =
      match ((topology.graph context level).outcome server state).1 with
      | .ok graph => graph.components.map (topology.judgement graph)
      | .error _ => [] := by
  rw [buses, Attempt.told_bind, silent_graph state, List.nil_append]
  rcases (topology.graph context level).outcome server state with ⟨_ | graph, after⟩
  · rfl
  · dsimp only
    rw [Attempt.told_bind, told_judge]
    rcases (graph.components.forM (topology.judge graph)).outcome server after with ⟨_ | _, _⟩ <;>
      exact List.append_nil _

/-- The bus at a point takes a judgement of the component that has the point. -/
theorem told_busAt (start : Point) :
    (topology.busAt context level start).run.told server state =
      match ((topology.graph context level).outcome server state).1 with
      | .ok graph => (graph.componentOf? start).toList.map (topology.judgement graph)
      | .error _ => [] := by
  rw [busAt, Attempt.told_bind, silent_graph state, List.nil_append]
  rcases (topology.graph context level).outcome server state with ⟨_ | graph, after⟩
  · rfl
  · dsimp only
    cases graph.componentOf? start <;> rfl

variable {cache : BusCache} {found : Resource VoltageLevel} {read : σ}

/-- A cached query that misses its entry takes one judgement of each component of the graph. -/
theorem told_cachedBuses_of_misses (hcontext : context.number = .ok number)
    (hread : server.answer (.level number level) state = (.ok found, read))
    (hmisses : cache.Misses number level found.attributes ⟨number, level, topology.id⟩) :
    ((topology.cachedBuses context level).start cache).told server state =
      match ((topology.graph context level).outcome server read).1 with
      | .ok graph => graph.components.map (topology.judgement graph)
      | .error _ => [] := by
  rw [start_cachedBuses cache hcontext, Dialogue.told_ask, hread]
  dsimp only
  rw [BusCache.misses_iff.mp hmisses, ← told_buses]
  refine (Dialogue.told_bind _ _).trans ?_
  -- raising the flag and storing the buses tells nothing more
  rcases (topology.buses context level).run.run server read with ⟨fault | buses, after⟩
  · exact List.append_nil _
  · rw [Dialogue.told_ask]
    rcases server.answer (.setValid number level true) after with ⟨_ | _, _⟩ <;>
      exact List.append_nil _

/-- A cached query that finds an entry it may serve takes no judgement. -/
theorem told_cachedBuses_of_finds (hcontext : context.number = .ok number)
    (hread : server.answer (.level number level) state = (.ok found, read))
    (hfinds : ¬ cache.Misses number level found.attributes ⟨number, level, topology.id⟩) :
    ((topology.cachedBuses context level).start cache).told server state = [] := by
  obtain ⟨entry, hentry⟩ := Option.ne_none_iff_exists'.mp (mt BusCache.misses_iff.mpr hfinds)
  rw [start_cachedBuses cache hcontext, Dialogue.told_ask, hread]
  dsimp only
  rw [hentry]
  rfl

end Topology

end Switchyard
