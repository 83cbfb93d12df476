import Switchyard.Bus
import Switchyard.Network

/-!
Views of a voltage level, and topologies.

A view says which switches merge the points at their ends into one bus. A topology works out the
buses of levels of one kind in one view, with a validator that decides which components are buses.
Each topology has an id of its own, under which caches keep its buses apart from those of others;
replacing the validator makes another topology.
-/

namespace Switchyard

/-- The view that buses are calculated for. -/
inductive View where
  | busView
  | busBreakerView
  deriving DecidableEq, Repr, Inhabited

namespace View

/-- The name under which a view appears in answers. -/
def name : View → String
  | busView => "BusView"
  | busBreakerView => "BusBreakerView"

/-- Whether the points at both ends of a switch belong to the same bus. In the bus view they do if
the switch is closed; in the bus-breaker view retained switches keep them apart, and the configured
buses of a bus-breaker level are never merged. -/
def merges : View → TopologyKind → Switch → Bool
  | busView, _, switch => !switch.isOpen
  | busBreakerView, .nodeBreaker, switch => !switch.isOpen && !switch.isRetained
  | busBreakerView, .busBreaker, _ => false

/-- The validator of the view. -/
def validator : View → BusValidator
  | busView => BusValidator.busView
  | busBreakerView => BusValidator.busBreakerView

end View

/-- Hands out topology ids, none of them twice. -/
structure TopologyIds where
  /-- The id of the next topology. Fewer than `2 ^ 64` topologies are meant. -/
  next : Nat := 0
  deriving DecidableEq, Repr

/-- Works out the buses of voltage levels of one kind in one view. -/
structure Topology where
  id : Nat
  kind : TopologyKind
  view : View
  validator : BusValidator
  /-- Whether a merging switch with an unconnected end is passed over, not refused. -/
  allowDangling : Bool

/-- Whether dangling switches are passed over unless the caller says so. -/
def defaultAllowDangling : Bool := false

namespace Topology

/-- A new topology with the validator of its view. -/
def make (kind : TopologyKind) (view : View) (allowDangling : Bool) (ids : TopologyIds) :
    Topology × TopologyIds :=
  (⟨ids.next, kind, view, view.validator, allowDangling⟩, ⟨ids.next + 1⟩)

/-- The topology with another validator, and an id of its own. -/
def withValidator (topology : Topology) (validator : BusValidator) (ids : TopologyIds) :
    Topology × TopologyIds :=
  ({ topology with id := ids.next, validator }, ⟨ids.next + 1⟩)

end Topology

end Switchyard
