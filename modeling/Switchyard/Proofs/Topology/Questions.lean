import Switchyard.Proofs.Dialogue.Strict
import Switchyard.Proofs.Store.Disturbed
import Switchyard.Proofs.Topology.Calls

/-!
What is asked of an index, whatever it answers.

Working out the buses of a level only reads, and reads only this level (`strict_buses`). A cached
query asks nothing else but to raise the flag of the level (`strict_cachedBuses`). Either ends at
the first question that fails, with its fault, and a cached query then has added nothing to the
cache.
-/

namespace Switchyard

/-- The question reads something of the level. -/
def IndexQuery.Reads (number : UInt32) (level : String) : IndexQuery → Prop
  | .level variant id | .injections variant id _ | .branches variant id _
  | .transformers variant id | .switches variant id => variant = number ∧ id = level
  | .setValid _ _ _ => False

/-- Reading carries out no operation. -/
theorem IndexQuery.Reads.operation? {query : IndexQuery} {number : UInt32} {level : String}
    (h : query.Reads number level) : query.operation? = none := by
  cases query with
  | setValid => exact h.elim
  | _ => rfl

namespace Topology

open Attempt (Strict)

variable {topology : Topology} {context : Context} {number : UInt32} {level : String}

theorem strict_vertices : Strict (p := indexProtocol) (IndexQuery.Reads number level)
    (topology.vertices number level) := by
  refine .bind (.mapM (fun type => ?_) _) fun injections =>
    .bind (.mapM (fun type => ?_) _) fun branches => .bind (.call ⟨rfl, rfl⟩) fun _ => .pure _
  · exact .bind (.call ⟨rfl, rfl⟩) fun _ => .bind (.lift _) fun _ => .pure _
  · exact .bind (.call ⟨rfl, rfl⟩) fun _ => .bind (.lift _) fun _ => .pure _

theorem strict_graph (h : context.number = .ok number) :
    Strict (p := indexProtocol) (IndexQuery.Reads number level)
      (topology.graph context level) := by
  unfold graph
  rw [h]
  refine .lift_ok_bind (.bind (.call ⟨rfl, rfl⟩) fun found => ?_)
  dsimp only
  split
  · exact .bind strict_vertices fun _ => .bind (.call ⟨rfl, rfl⟩) fun _ => .lift _
  · exact .lift (.error _)

/-- Working out the buses of a level only reads, and only this level. -/
theorem strict_buses (h : context.number = .ok number) :
    Strict (p := indexProtocol) (IndexQuery.Reads number level)
      (topology.buses context level) :=
  .bind (strict_graph h) fun _ => .bind (.forM (fun _ => .announce _) _) fun _ => .lift _

/-- A cached query reads the level and raises its flag. If a question fails, the query fails with
the same fault and has added nothing to the cache. -/
theorem strict_cachedBuses (h : context.number = .ok number) (cache : BusCache) :
    ((topology.cachedBuses context level).start cache).Strict
      (fun query : IndexQuery => query.Reads number level ∨ query = .setValid number level true)
      fun fault outcome => outcome.1 = .error fault ∧
        ∀ entry ∈ outcome.2.entries, entry ∈ cache.entries := by
  rw [start_cachedBuses cache h]
  refine ⟨.inl ⟨rfl, rfl⟩, fun fault => ⟨_, rfl, rfl, fun _ hold => hold⟩, fun found => ?_⟩
  have hkept : ∀ entry ∈ (cache.refresh number level found.attributes).entries,
      entry ∈ cache.entries := fun _ hentry => (BusCache.mem_refresh.mp hentry).1
  dsimp only
  split
  · trivial
  · refine .bind ((strict_buses h).imp fun _ => .inl) (fun result => ?_) (fun fault result => ?_)
    · cases result with
      | error fault => trivial
      | ok buses => exact ⟨.inr rfl, fun fault => ⟨_, rfl, rfl, hkept⟩, fun _ => trivial⟩
    · rintro rfl
      exact ⟨_, rfl, rfl, hkept⟩

end Topology

end Switchyard
