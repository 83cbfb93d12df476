import Switchyard.Dialogue
import Switchyard.Variant

/-!
Questions about the variants of a store.

The registry of a store lists its variants and clones and deletes them by number. What a session
has done to a variant is told as an event, by name. Listeners receive each event in the order in
which they were registered; one that fails holds up neither the session nor the listeners after it.
-/

namespace Switchyard

/-- The questions that managing variants asks. -/
inductive RegistryQuery where
  | list (refresh : Bool)
  | clone (source target : UInt32) (name : String)
  | delete (number : UInt32)
  deriving DecidableEq, Repr

/-- What each question is answered with, if it does not fail. -/
abbrev RegistryQuery.Answer : RegistryQuery → Type
  | .list _ => List VariantInfo
  | .clone _ _ _ => Unit
  | .delete _ => Unit

/-- What a session has done to a variant. -/
inductive VariantEvent where
  | created (source target : String)
  | overwritten (source target : String)
  | removed (name : String)
  deriving DecidableEq, Repr

/-- Questions about variants, and events told on the way. -/
abbrev registryProtocol : Protocol := ⟨RegistryQuery, RegistryQuery.Answer, VariantEvent⟩

/-- Receives events in a world that it may change, and may fail. -/
abbrev Listener (ω : Type) := VariantEvent → ω → Except String Unit × ω

/-- Delivers an event to all listeners in order, failures ignored. -/
def Listener.deliver {ω : Type} (listeners : List (Listener ω)) (event : VariantEvent) (world : ω) :
    ω :=
  listeners.foldl (fun world listener => (listener event world).2) world

end Switchyard
