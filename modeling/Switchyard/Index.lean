import Switchyard.Dialogue
import Switchyard.Network

/-!
Questions about the networks of a store.

The index of a store answers for one variant and one voltage level at a time, and takes the one
change that calculating buses makes: setting the level's valid flag. While buses are calculated,
each component that a validator has judged is told as a notice.
-/

namespace Switchyard

/-- The questions that calculating buses asks. -/
inductive IndexQuery where
  | level (variant : UInt32) (level : String)
  | injections (variant : UInt32) (level : String) (type : ResourceType)
  | branches (variant : UInt32) (level : String) (type : ResourceType)
  | transformers (variant : UInt32) (level : String)
  | switches (variant : UInt32) (level : String)
  | setValid (variant : UInt32) (level : String) (valid : Bool)
  deriving DecidableEq, Repr

/-- What each question is answered with, if it does not fail. -/
abbrev IndexQuery.Answer : IndexQuery → Type
  | .level _ _ => Resource VoltageLevel
  | .injections _ _ _ => List (Resource Terminal)
  | .branches _ _ _ => List (Resource Branch)
  | .transformers _ _ => List (Resource Transformer)
  | .switches _ _ => List (Resource Switch)
  | .setValid _ _ _ => Unit

/-- A validator has accepted or rejected a component. -/
structure Judgement where
  component : PointSet
  accepted : Bool
  deriving DecidableEq, Repr

/-- Questions about networks, and judgements told on the way. -/
abbrev indexProtocol : Protocol := ⟨IndexQuery, IndexQuery.Answer, Judgement⟩

/-- A computation that consults an index and may fail. -/
abbrev Inquiry := Attempt indexProtocol

namespace Inquiry

/-- The voltage level. -/
def level (variant : UInt32) (level : String) : Inquiry (Resource VoltageLevel) :=
  Attempt.call (p := indexProtocol) (.level variant level)

/-- The injections of one type in the level. -/
def injections (variant : UInt32) (level : String) (type : ResourceType) :
    Inquiry (List (Resource Terminal)) :=
  Attempt.call (p := indexProtocol) (.injections variant level type)

/-- The branches of one type with an end in the level. -/
def branches (variant : UInt32) (level : String) (type : ResourceType) :
    Inquiry (List (Resource Branch)) :=
  Attempt.call (p := indexProtocol) (.branches variant level type)

/-- The three-winding transformers with a leg in the level. -/
def transformers (variant : UInt32) (level : String) : Inquiry (List (Resource Transformer)) :=
  Attempt.call (p := indexProtocol) (.transformers variant level)

/-- The switches of the level. -/
def switches (variant : UInt32) (level : String) : Inquiry (List (Resource Switch)) :=
  Attempt.call (p := indexProtocol) (.switches variant level)

/-- Sets the level's valid flag. -/
def setValid (variant : UInt32) (level : String) (valid : Bool) : Inquiry Unit :=
  Attempt.call (p := indexProtocol) (.setValid variant level valid)

/-- Tells a judgement. -/
def judged (judgement : Judgement) : Inquiry Unit :=
  Attempt.announce (p := indexProtocol) judgement

end Inquiry

end Switchyard
