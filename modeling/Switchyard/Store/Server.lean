import Switchyard.Index
import Switchyard.Registry
import Switchyard.Store.Operation

/-!
A store answers both kinds of questions.

As an index it answers from the networks of its variants; as a registry it lists, clones and deletes
variants. There is nothing to refresh, so the list is the same either way. Notices are not heard.
-/

namespace Switchyard

namespace Store

/-- The answer of a store to a question about its networks. -/
def answerIndex (query : IndexQuery) (store : Store) : Except Fault query.Answer × Store :=
  match query with
  | .level variant level => (store.level variant level, store)
  | .injections variant level type => (store.injections variant level type, store)
  | .branches variant level type => (store.branches variant level type, store)
  | .transformers variant level => (store.transformers variant level, store)
  | .switches variant level => (store.switches variant level, store)
  | .setValid variant level valid => store.apply (.setValid variant level valid)

/-- The answer of a store to a question about its variants. -/
def answerRegistry (query : RegistryQuery) (store : Store) : Except Fault query.Answer × Store :=
  match query with
  | .list _ => (.ok store.infos, store)
  | .clone source target name => store.apply (.clone source target name)
  | .delete number => store.apply (.delete number)

/-- A store as an index. -/
def index : Server indexProtocol Store := ⟨answerIndex, fun _ store => store⟩

/-- A store as a registry. -/
def registry : Server registryProtocol Store := ⟨answerRegistry, fun _ store => store⟩

end Store

end Switchyard
