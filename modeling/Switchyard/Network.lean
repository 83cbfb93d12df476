import Switchyard.Point

/-!
The network of one variant: its voltage levels and what is attached to them.

Levels are found by id. Equipment and switches are kept in the order in which they were entered and
name their levels by id, whether or not the level exists. A listing picks the resources that name a
level, in that order.
-/

namespace Switchyard

/-- What is known of a voltage level. -/
structure VoltageLevel where
  kind : TopologyKind
  /-- Whether buses calculated for the level may still be served. -/
  valid : Bool := false
  /-- Replaced whenever the switches or the equipment of the level change. Fewer than `2 ^ 64`
  changes are meant. -/
  generation : Nat := 0
  deriving DecidableEq, Repr

/-- A resource with one terminal at each of two ends. -/
structure Branch where
  one : Terminal
  two : Terminal
  deriving DecidableEq, Repr

namespace Branch

/-- The terminal on a side, of which a branch has two. -/
def terminal? (branch : Branch) : Side → Option Terminal
  | .one => some branch.one
  | .two => some branch.two
  | .three => none

/-- The levels of the two ends. -/
def levels (branch : Branch) : List String := [branch.one.level, branch.two.level]

/-- The first side that is in a level, for branches with an end there. -/
def sideIn (branch : Branch) (level : String) : Side :=
  if branch.one.level = level then .one else .two

end Branch

/-- A three-winding transformer: one terminal for each of three legs. -/
structure Transformer where
  one : Terminal
  two : Terminal
  three : Terminal
  deriving DecidableEq, Repr

namespace Transformer

/-- The leg on a side. -/
def leg (transformer : Transformer) : Side → Terminal
  | .one => transformer.one
  | .two => transformer.two
  | .three => transformer.three

/-- The levels of the three legs. -/
def levels (transformer : Transformer) : List String :=
  [transformer.one.level, transformer.two.level, transformer.three.level]

/-- The first side that is in a level, for transformers with a leg there. -/
def sideIn (transformer : Transformer) (level : String) : Side :=
  if transformer.one.level = level then .one
  else if transformer.two.level = level then .two
  else .three

end Transformer

/-- A switch between two attachments of one level. -/
structure Switch where
  level : String
  isOpen : Bool := false
  /-- A retained switch stays visible between buses of the bus-breaker view. -/
  isRetained : Bool := false
  one : Attachment := {}
  two : Attachment := {}
  deriving DecidableEq, Repr

/-- Voltage levels in ascending order of their ids. -/
abbrev Levels := Ascending fun level : Resource VoltageLevel => level.id

/-- The resources of one variant. -/
structure Network where
  levels : Levels := ∅
  injections : List (Resource Terminal) := []
  branches : List (Resource Branch) := []
  transformers : List (Resource Transformer) := []
  switches : List (Resource Switch) := []
  deriving DecidableEq, Repr

namespace Network

/-- The voltage level with an id. -/
def level? (network : Network) (level : String) : Option (Resource VoltageLevel) :=
  network.levels.get? level

/-- The injections of a type in a level. -/
def injectionsAt (network : Network) (level : String) (type : ResourceType) :
    List (Resource Terminal) :=
  network.injections.filter fun r => r.type = type ∧ r.attributes.level = level

/-- The branches of a type with an end in a level. -/
def branchesAt (network : Network) (level : String) (type : ResourceType) :
    List (Resource Branch) :=
  network.branches.filter fun r => r.type = type ∧ level ∈ r.attributes.levels

/-- The three-winding transformers with a leg in a level. -/
def transformersAt (network : Network) (level : String) : List (Resource Transformer) :=
  network.transformers.filter fun r => level ∈ r.attributes.levels

/-- The switches of a level. -/
def switchesAt (network : Network) (level : String) : List (Resource Switch) :=
  network.switches.filter fun r => r.attributes.level = level

end Network

end Switchyard
