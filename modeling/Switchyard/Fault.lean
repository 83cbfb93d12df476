import Switchyard.Resource

/-!
Everything that can go wrong, as causes.

A fault is what went wrong; its kind is the family by which callers tell faults apart, and its
message is the text shown. A store outside this library may also report a kind and a text of its
own (`reported`). Retrying a clone depends on the kind alone, so a reported fault is treated like
any other of its kind.
-/

namespace Switchyard

/-- The families of faults. -/
inductive FaultKind where
  | cloneFailed
  | duplicateVariantNum
  | forbidden
  | internal
  | invalidArgument
  | invalidGraph
  | resourceNotFound
  | variantAlreadyExists
  | variantNotFound
  | variantNotSet
  deriving DecidableEq, Repr, Inhabited

namespace FaultKind

/-- The name under which a kind is reported. -/
def name : FaultKind → String
  | cloneFailed => "CloneFailed"
  | duplicateVariantNum => "DuplicateVariantNum"
  | forbidden => "Forbidden"
  | internal => "Internal"
  | invalidArgument => "InvalidArgument"
  | invalidGraph => "InvalidGraph"
  | resourceNotFound => "ResourceNotFound"
  | variantAlreadyExists => "VariantAlreadyExists"
  | variantNotFound => "VariantNotFound"
  | variantNotSet => "VariantNotSet"

/-- All kinds, each once. -/
def all : List FaultKind :=
  [cloneFailed, duplicateVariantNum, forbidden, internal, invalidArgument, invalidGraph,
    resourceNotFound, variantAlreadyExists, variantNotFound, variantNotSet]

theorem mem_all (kind : FaultKind) : kind ∈ all := by cases kind <;> decide

end FaultKind

/-- The causes of failure. -/
inductive Fault where
  /-- The context has no working variant. -/
  | workingVariantUnset
  /-- No variant is stored under the number. -/
  | variantNumberUnknown (number : UInt32)
  /-- No variant has the name. -/
  | variantUnknown (name : String)
  /-- The number is the number of another variant. -/
  | variantNumberTaken (number : UInt32)
  /-- The name is the name of another variant. -/
  | variantExists (name : String)
  /-- A clone may not replace the variant that it copies. -/
  | overwriteSource (name : String)
  /-- The initial variant may not be removed. -/
  | initialVariantProtected
  /-- A clone needs at least one target. -/
  | noCloneTargets
  /-- Every number that was tried for the clone had been taken meanwhile. -/
  | cloneAttemptsExhausted (name : String) (attempts : Nat)
  /-- A variant is used by one thread at a time. -/
  | multiThreadForbidden
  /-- The variant has no such voltage level. -/
  | voltageLevelUnknown (level : String)
  /-- The variant has no such switch. -/
  | switchUnknown (id : String)
  /-- The variant has no equipment with the id. -/
  | equipmentUnknown (id : String)
  /-- A resource given as an injection is of another family. -/
  | notInjectionArgument (type : ResourceType)
  /-- A resource given as a branch is of another family. -/
  | notBranchArgument (type : ResourceType)
  /-- A listing of injections asks for, or holds, another family. -/
  | notInjection (type : ResourceType)
  /-- A listing of branches asks for, or holds, another family. -/
  | notBranch (type : ResourceType)
  /-- Resources of the type are not equipment. -/
  | notConnectable (type : ResourceType)
  /-- The voltage level is not of the kind that the topology is for. -/
  | topologyKindMismatch (level : String) (actual expected : TopologyKind)
  /-- Two switches of the level share an id. -/
  | duplicateSwitch (id : String)
  /-- A switch that merges points has an end without one. -/
  | danglingSwitch (id : String)
  /-- A bus has at least one point. -/
  | emptyComponent (level : String)
  /-- A store reports a fault of its own. -/
  | reported (kind : FaultKind) (message : String)
  deriving DecidableEq, Repr, Inhabited

namespace Fault

/-- The family a cause belongs to. -/
def kind : Fault → FaultKind
  | workingVariantUnset => .variantNotSet
  | variantNumberUnknown _ | variantUnknown _ => .variantNotFound
  | variantNumberTaken _ => .duplicateVariantNum
  | variantExists _ => .variantAlreadyExists
  | overwriteSource _ | noCloneTargets | notInjectionArgument _ | notBranchArgument _
  | topologyKindMismatch _ _ _ => .invalidArgument
  | initialVariantProtected | multiThreadForbidden => .forbidden
  | cloneAttemptsExhausted _ _ => .cloneFailed
  | voltageLevelUnknown _ | switchUnknown _ | equipmentUnknown _ => .resourceNotFound
  | notInjection _ | notBranch _ | notConnectable _ | emptyComponent _ => .internal
  | duplicateSwitch _ | danglingSwitch _ => .invalidGraph
  | reported kind _ => kind

/-- The text shown for a cause. -/
def message : Fault → String
  | workingVariantUnset => "No working variant is set."
  | variantNumberUnknown number => "Variant number " ++ toString number ++ " not found."
  | variantUnknown name => "Variant " ++ name ++ " not found."
  | variantNumberTaken number => "Variant number " ++ toString number ++ " is already in use."
  | variantExists name => "Variant " ++ name ++ " already exists."
  | overwriteSource name => "Variant " ++ name ++ " can't be overwritten with itself."
  | initialVariantProtected => "Removing the initial variant is forbidden."
  | noCloneTargets => "Empty target variant id list."
  | cloneAttemptsExhausted name attempts =>
    "Impossible to clone variant " ++ name ++ " after " ++ toString attempts ++ " attempts."
  | multiThreadForbidden => "Multi-thread access to variants is not supported."
  | voltageLevelUnknown level => "Voltage level " ++ level ++ " not found."
  | switchUnknown id => "Switch " ++ id ++ " not found."
  | equipmentUnknown id => "Equipment " ++ id ++ " not found."
  | notInjectionArgument type | notInjection type =>
    "Resource is not an injection: " ++ type.name
  | notBranchArgument type | notBranch type => "Resource is not a branch: " ++ type.name
  | notConnectable type => "Resource type " ++ type.name ++ " is not connectable equipment."
  | topologyKindMismatch level actual expected =>
    "Voltage level " ++ level ++ " has a " ++ actual.name ++ " topology, expected " ++
      expected.name ++ "."
  | duplicateSwitch id => "Duplicate switch ID found: " ++ id
  | danglingSwitch id => "Switch " ++ id ++ " has an end without a topology point."
  | emptyComponent level =>
    "Can't create a bus from an empty component in voltage level " ++ level ++ "."
  | reported _ message => message

/-- The kind and the message on one line. -/
def display (fault : Fault) : String := fault.kind.name ++ ": " ++ fault.message

end Fault

end Switchyard
