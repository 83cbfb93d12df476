import Switchyard.Proofs.Store.Alteration
import Switchyard.Proofs.Variant.Commands

/-!
Named networks, managed without numbers.

A catalogue is what a session can tell of the variants when nobody else manages them: the networks
by name, and the name of the working variant. It carries out the commands of a session, and the
alterations of networks between them, without listing anything or looking for free numbers. The
generations that date the levels of its networks are drawn from one counter.
-/

namespace Switchyard

/-! ### Deeds and what is seen of them -/

/-- What happens to the variants next: a command of the session, or an alteration of a variant. -/
inductive Deed where
  | command (command : Command)
  | alter (name : String) (alteration : Alteration)
  deriving DecidableEq, Repr

/-- What is seen of a deed: what it answers, and the events that it tells. -/
structure Seen where
  result : Except Fault Reply
  events : List VariantEvent := []
  deriving Repr

/-- What is seen of some deeds, and what they make of a state. -/
def Deed.runAll {σ : Type} (step : σ → Deed → Seen × σ) (state : σ) : List Deed → List Seen × σ
  | [] => ([], state)
  | deed :: deeds =>
    let (seen, next) := step state deed
    let (later, last) := runAll step next deeds
    (seen :: later, last)

/-! ### Catalogues -/

/-- A network and its name. -/
structure NamedNetwork where
  name : String
  network : Network
  deriving DecidableEq, Repr

/-- The networks of all variants by name, and the name of the working variant. -/
structure Catalogue where
  networks : Ascending NamedNetwork.name
  working : Option String
  /-- The last generation drawn. -/
  lastGeneration : Nat
  deriving DecidableEq, Repr

namespace Catalogue

/-- The catalogue that holds the empty initial network, which is worked on. -/
def new : Catalogue where
  networks := .insert ∅ ⟨initialVariantName, {}⟩
  working := some initialVariantName
  lastGeneration := 0

/-- The network with a name. -/
def network? (catalogue : Catalogue) (name : String) : Option Network :=
  (catalogue.networks.get? name).map (·.network)

/-- The catalogue with a network under a name, in place of what had the name; a generation was
drawn for it. -/
def put (catalogue : Catalogue) (name : String) (network : Network) : Catalogue :=
  { catalogue with
    networks := catalogue.networks.insert ⟨name, network⟩
    lastGeneration := catalogue.lastGeneration + 1 }

/-- The catalogue with a copy of a network, all its levels with a new generation. -/
def copy (catalogue : Catalogue) (network : Network) (target : String) : Catalogue :=
  catalogue.put target (network.touchAll (catalogue.lastGeneration + 1))

/-- Makes one target a copy of the source. -/
def cloneTarget (source : String) (network : Network) (overwrite : Bool) (catalogue : Catalogue)
    (target : String) : Except Fault (VariantEvent × Catalogue) :=
  match catalogue.network? target with
  | none => .ok (.created source target, catalogue.copy network target)
  | some _ =>
    if overwrite = false then .error (.variantExists target)
    else if target = source then .error (.overwriteSource target)
    else if target = initialVariantName then .error .initialVariantProtected
    else .ok (.overwritten source target, catalogue.copy network target)

/-- Makes each target a copy of the source, in order, until one fails. -/
def cloneTargets (source : String) (network : Network) (overwrite : Bool) :
    Catalogue → List String → Seen × Catalogue
  | catalogue, [] => (⟨.ok .done, []⟩, catalogue)
  | catalogue, target :: targets =>
    match catalogue.cloneTarget source network overwrite target with
    | .error fault => (⟨.error fault, []⟩, catalogue)
    | .ok (event, catalogue) =>
      let (seen, last) := cloneTargets source network overwrite catalogue targets
      ({ seen with events := event :: seen.events }, last)

/-- Carries out a command. -/
def perform (catalogue : Catalogue) : Command → Seen × Catalogue
  | .clone source targets overwrite =>
    if targets = [] then (⟨.error .noCloneTargets, []⟩, catalogue)
    else match catalogue.network? source with
      | none => (⟨.error (.variantUnknown source), []⟩, catalogue)
      | some network => cloneTargets source network overwrite catalogue targets
  | .remove name =>
    if name = initialVariantName then (⟨.error .initialVariantProtected, []⟩, catalogue)
    else match catalogue.network? name with
      | none => (⟨.error (.variantUnknown name), []⟩, catalogue)
      | some _ => (⟨.ok .done, [.removed name]⟩, { catalogue with
          networks := catalogue.networks.erase name
          working := if catalogue.working = some name then none else catalogue.working })
  | .work name =>
    match catalogue.network? name with
    | none => (⟨.error (.variantUnknown name), []⟩, catalogue)
    | some _ => (⟨.ok .done, []⟩, { catalogue with working := some name })
  | .workingName =>
    match catalogue.working with
    | none => (⟨.error .workingVariantUnset, []⟩, catalogue)
    | some name => (⟨.ok (.name name), []⟩, catalogue)
  | .names =>
    (⟨.ok (.names (.ofList id (catalogue.networks.toList.map (·.name)))), []⟩, catalogue)

/-- Alters the network with a name. -/
def alter (catalogue : Catalogue) (name : String) (alteration : Alteration) : Seen × Catalogue :=
  match catalogue.network? name with
  | none => (⟨.error (.variantUnknown name), []⟩, catalogue)
  | some network =>
    match alteration.change with
    | .error fault => (⟨.error fault, []⟩, catalogue)
    | .ok change =>
      match change (catalogue.lastGeneration + 1) network with
      | .error fault =>
        (⟨.error fault, []⟩, { catalogue with lastGeneration := catalogue.lastGeneration + 1 })
      | .ok network => (⟨.ok .done, []⟩, catalogue.put name network)

/-- Carries out a deed. -/
def step (catalogue : Catalogue) : Deed → Seen × Catalogue
  | .command command => catalogue.perform command
  | .alter name alteration => catalogue.alter name alteration

end Catalogue

end Switchyard
