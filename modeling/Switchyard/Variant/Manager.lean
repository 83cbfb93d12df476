import Switchyard.Ascending
import Switchyard.Context
import Switchyard.Registry

/-!
Cloning, removing and selecting variants.

A session keeps nothing about the variants: each command lists them first and works from that list,
which other sessions may meanwhile have made out of date. A clone is put at the lowest number that
the list leaves free. If that number turns out to be taken, the variants are listed again and
another number is tried, a few times at most. If the working variant is overwritten, the context
follows it to its new number.
-/

namespace Switchyard

/-- How many numbers are tried before a clone is given up. -/
def maxCloneAttempts : Nat := 3

/-- A computation of a session that manages variants. -/
abbrev Managing := Session registryProtocol Context

namespace Managing

/-- Lists the variants. -/
def list (refresh : Bool) : Managing (List VariantInfo) :=
  Attempt.call (p := registryProtocol) (.list refresh)

/-- Copies a variant to another number; the answer may be a fault. -/
def tryClone (source target : UInt32) (name : String) : Managing (Except Fault Unit) :=
  Session.request (p := registryProtocol) (.clone source target name)

/-- Deletes the variant with a number. -/
def delete (number : UInt32) : Managing Unit :=
  Attempt.call (p := registryProtocol) (.delete number)

/-- Tells an event. -/
def announce (event : VariantEvent) : Managing Unit :=
  Attempt.announce (p := registryProtocol) event

/-- Deletes a named variant, from the store and from the list. -/
def deleteNamed (name : String) (infos : List VariantInfo) :
    Managing (UInt32 × List VariantInfo) := do
  if name = initialVariantName then throw .initialVariantProtected
  let number ← VariantInfo.numberOf name infos
  delete number
  return (number, infos.filter (·.number ≠ number))

/-- Clones a variant to the lowest free number, with a number of attempts left. -/
def cloneFree (source : UInt32) (name : String) :
    Nat → List VariantInfo → Managing (UInt32 × List VariantInfo)
  | 0, _ => throw (.cloneAttemptsExhausted name maxCloneAttempts)
  | attempts + 1, infos => do
    let number := VariantInfo.lowestFree infos
    match ← tryClone source number name with
    | .ok () => return (number, infos ++ [⟨number, name⟩])
    | .error fault =>
      unless fault.kind = .duplicateVariantNum do throw fault
      if attempts = 0 then throw (.cloneAttemptsExhausted name maxCloneAttempts)
      cloneFree source name attempts (← list true)

/-- Clones the source to one target, and returns the list brought up to date. -/
def cloneTarget (source : String) (sourceNumber : UInt32) (overwrite : Bool)
    (infos : List VariantInfo) (target : String) : Managing (List VariantInfo) := do
  match VariantInfo.find? target infos with
  | none =>
    let (_, infos) ← cloneFree sourceNumber target maxCloneAttempts infos
    announce (.created source target)
    return infos
  | some existing =>
    unless overwrite do throw (.variantExists target)
    if existing.number = sourceNumber then throw (.overwriteSource target)
    let wasWorking := (← get).isWorkingOn existing.number
    let (_, infos) ← deleteNamed target infos
    if wasWorking then set Context.unset
    let (number, infos) ← cloneFree sourceNumber target maxCloneAttempts infos
    if wasWorking then set (Context.workingOn number)
    announce (.overwritten source target)
    return infos

/-- Makes each target a copy of the source, in order. A target that exists is replaced if
`overwrite` is set. Targets before one that fails are kept. -/
def clone (source : String) (targets : List String) (overwrite : Bool) : Managing Unit := do
  if targets.isEmpty then throw .noCloneTargets
  let infos ← list false
  let number ← VariantInfo.numberOf source infos
  discard <| targets.foldlM (cloneTarget source number overwrite) infos

/-- Removes a named variant. A context that works on it is left without a working variant. -/
def remove (name : String) : Managing Unit := do
  let infos ← list false
  let (number, _) ← deleteNamed name infos
  announce (.removed name)
  if (← get).isWorkingOn number then set Context.unset

/-- The names of all variants, each once, in ascending order. -/
def names : Managing (Ascending (id : String → String)) := do
  let infos ← list false
  return .ofList id (infos.map (·.name))

/-- The name of the working variant. -/
def workingName : Managing String := do
  let number ← (← get).number
  let infos ← list false
  match infos.find? (·.number = number) with
  | none => throw (.variantNumberUnknown number)
  | some info => return info.name

/-- Makes a named variant the working variant. -/
def work (name : String) : Managing Unit := do
  let infos ← list false
  let number ← VariantInfo.numberOf name infos
  set (Context.workingOn number)

end Managing

/-- Whether several threads may use one variant at a time. -/
def multiThreadAllowed : Bool := false

/-- Allows or forbids the use of one variant by several threads; only the latter is supported. -/
def allowMultiThread (allow : Bool) : Except Fault Unit :=
  if allow then .error .multiThreadForbidden else .ok ()

end Switchyard
