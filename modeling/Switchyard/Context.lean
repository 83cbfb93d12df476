import Switchyard.Variant

/-!
The working variant of a session.

Everything a session reads is read from its working variant, which the context gives by number.
Nothing says that a variant with this number exists: it may have been deleted, and the number may
since have been given to another variant.
-/

namespace Switchyard

/-- The working variant of a session. -/
structure Context where
  working : Option UInt32 := some initialVariantNumber
  deriving DecidableEq, Repr

namespace Context

/-- A context that works on a variant. -/
def workingOn (number : UInt32) : Context := ⟨some number⟩

/-- A context without a working variant. -/
def unset : Context := ⟨none⟩

/-- Whether a working variant is set. -/
def isSet (context : Context) : Bool := context.working.isSome

/-- Whether the working variant has the number. -/
def isWorkingOn (context : Context) (number : UInt32) : Bool := context.working = some number

/-- The number of the working variant. -/
def number (context : Context) : Except Fault UInt32 :=
  match context.working with
  | none => .error .workingVariantUnset
  | some number => .ok number

end Context

end Switchyard
