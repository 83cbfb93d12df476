import Switchyard.Proofs.Variant.Rounds

/-!
What a session can be told to do, as data.

A history of a session is a list of commands, and a scheduler chooses among the sessions that are in
the midst of theirs. Every command answers with a `Reply` or fails.
-/

namespace Switchyard

/-- A command of a session. -/
inductive Command where
  | clone (source : String) (targets : List String) (overwrite : Bool)
  | remove (name : String)
  | work (name : String)
  | workingName
  | names
  deriving DecidableEq, Repr

/-- What a command that does not fail answers with. -/
inductive Reply where
  | done
  | name (name : String)
  | names (names : Ascending (id : String → String))
  deriving DecidableEq, Repr

/-- What a session does on a command. -/
def Command.session : Command → Managing Reply
  | clone source targets overwrite => (fun _ => .done) <$> Managing.clone source targets overwrite
  | remove name => (fun _ => .done) <$> Managing.remove name
  | work name => (fun _ => .done) <$> Managing.work name
  | workingName => .name <$> Managing.workingName
  | names => .names <$> Managing.names

namespace Managing

open Dialogue Session VariantInfo

theorem start_work (name : String) (context : Context) :
    (work name).start context =
      ask (p := registryProtocol) (.list false) fun
        | .error fault => done (.error fault, context)
        | .ok infos => match numberOf name infos with
          | .error fault => done (.error fault, context)
          | .ok number => done (.ok (), .workingOn number) := by
  unfold work
  simp only [start_bind, start_list, ask_bind, done_bind]
  congr 1
  funext answer
  cases answer with
  | error fault => rfl
  | ok infos =>
    dsimp only
    cases numberOf name infos <;> simp

theorem start_workingName (context : Context) :
    workingName.start context =
      match context.working with
      | none => done (.error .workingVariantUnset, context)
      | some number => ask (p := registryProtocol) (.list false) fun
        | .error fault => done (.error fault, context)
        | .ok infos => match infos.find? (·.number = number) with
          | none => done (.error (.variantNumberUnknown number), context)
          | some info => done (.ok info.name, context) := by
  unfold workingName Context.number
  cases hworking : context.working with
  | none => simp [hworking]
  | some number =>
    simp only [start_bind, start_get, done_bind, hworking, start_lift, start_list, ask_bind]
    congr 1
    funext answer
    cases answer with
    | error fault => rfl
    | ok infos =>
      dsimp only
      cases infos.find? (·.number = number) <;> rfl

theorem start_names (context : Context) :
    names.start context =
      ask (p := registryProtocol) (.list false) fun
        | .error fault => done (.error fault, context)
        | .ok infos => done (.ok (.ofList id (infos.map (·.name))), context) := by
  unfold names
  simp only [start_bind, start_list, ask_bind, done_bind, start_pure]
  congr 1
  funext answer
  cases answer <;> rfl

end Managing

end Switchyard
