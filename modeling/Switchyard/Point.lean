import Switchyard.Ascending
import Switchyard.Resource

/-!
Topology points, and how a terminal finds its own.

A point is a numbered node in a node-breaker level and a configured bus in a bus-breaker level.
Stored terminals may carry both; the kind of the topology says which one counts. A terminal without
the one that counts is not connected and takes no part in the topology.
-/

namespace Switchyard

/-- What equipment and switches attach to. -/
inductive Point where
  | node (number : UInt32)
  | bus (id : String)
  deriving DecidableEq, Repr, Inhabited

namespace Point

/-- Nodes by number, then buses by id. -/
protected def Before : Point → Point → Prop
  | node a, node b => a < b
  | node _, bus _ => True
  | bus _, node _ => False
  | bus a, bus b => a < b

instance : LT Point := ⟨Point.Before⟩

instance : DecidableLT Point
  | node a, node b => inferInstanceAs (Decidable (a < b))
  | node _, bus _ => inferInstanceAs (Decidable True)
  | bus _, node _ => inferInstanceAs (Decidable False)
  | bus a, bus b => inferInstanceAs (Decidable (a < b))

@[simp] theorem node_lt_node {a b : UInt32} : node a < node b ↔ a < b := Iff.rfl

@[simp] theorem bus_lt_bus {a b : String} : bus a < bus b ↔ a < b := Iff.rfl

@[simp] theorem node_lt_bus {a : UInt32} {b : String} : node a < bus b := trivial

@[simp] theorem not_bus_lt_node {a : String} {b : UInt32} : ¬ bus a < node b := id

instance : OrderedKey Point where
  lt_irrefl
    | node a => OrderedKey.lt_irrefl a
    | bus a => OrderedKey.lt_irrefl a
  lt_trans := @fun
    | node _, node _, node _ => fun h k => OrderedKey.lt_trans (κ := UInt32) h k
    | node _, _, bus _ => fun _ _ => trivial
    | _, bus _, node _ => fun _ k => k.elim
    | bus _, node _, _ => fun h _ => h.elim
    | bus _, bus _, bus _ => fun h k => OrderedKey.lt_trans (κ := String) h k
  lt_or_eq_or_gt
    | node a, node b => by simpa using OrderedKey.lt_or_eq_or_gt a b
    | node _, bus _ => .inl trivial
    | bus _, node _ => .inr (.inr trivial)
    | bus a, bus b => by simpa using OrderedKey.lt_or_eq_or_gt a b

/-- A node's number in decimal, or a bus's id. -/
def text : Point → String
  | node number => toString number
  | bus id => id

end Point

/-- A set of points, in ascending order. -/
abbrev PointSet := Ascending (id : Point → Point)

/-- Where one end of a resource is attached, for either kind of topology. -/
structure Attachment where
  node : Option UInt32 := none
  bus : Option String := none
  deriving DecidableEq, Repr, Inhabited

/-- The point that counts in topologies of the kind. -/
def TopologyKind.resolve : TopologyKind → Attachment → Option Point
  | nodeBreaker, attachment => attachment.node.map .node
  | busBreaker, attachment => attachment.bus.map .bus

/-- One end of a resource in a voltage level. -/
structure Terminal extends Attachment where
  level : String
  deriving DecidableEq, Repr, Inhabited

end Switchyard
