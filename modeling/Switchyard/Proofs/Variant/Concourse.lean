import Switchyard.Proofs.Store.Names
import Switchyard.Proofs.Variant.Commands
import Switchyard.Proofs.Variant.Listing

/-!
Sessions that manage the variants of one store at the same time.

The store answers one question at a time and nothing is held between questions, so any session's
next question may come after any other's: a run is a list of turns, and whose turn it is next is
left open. A session works from the list that it has read and patched, and deletes by number.

The initial variant stands all the same. Its number is never free, so no clone gets it, and every
list, however old, has that number under the initial name only (`Guarded`); deleting by name
refuses this name, so no session ever asks to delete the number (`careful_command`).
-/

namespace Switchyard

/-- A store and the sessions that share it. -/
structure Concourse where
  store : Store
  /-- What is left of the command of each session. -/
  sessions : Nat → Dialogue registryProtocol (Except Fault Reply × Context)
  /-- The questions that were answered without a fault, in order. -/
  granted : List RegistryQuery

/-- Whose turn it is, and for what. -/
inductive Turn where
  /-- A session that is done takes up a command. -/
  | take (session : Nat) (command : Command)
  /-- A session asks or tells the next thing. -/
  | proceed (session : Nat)
  deriving Repr

namespace Concourse

open Dialogue

/-- A new store, and sessions that have not done anything yet. -/
def new (contexts : Nat → Context) : Concourse :=
  ⟨.new, fun session => .done (.ok .done, contexts session), []⟩

/-- The concourse with one session further on. -/
def onward (now : Concourse) (session : Nat)
    (rest : Dialogue registryProtocol (Except Fault Reply × Context)) : Concourse :=
  { now with sessions := fun other => if other = session then rest else now.sessions other }

/-- The concourse after a question was answered. -/
def answered (now : Concourse) (query : RegistryQuery) : Concourse :=
  { now with
    store := (now.store.answerRegistry query).2
    granted := match (now.store.answerRegistry query).1 with
      | .ok _ => now.granted ++ [query]
      | .error _ => now.granted }

/-- The concourse after a turn. -/
def step (now : Concourse) : Turn → Concourse
  | .take session command =>
    match now.sessions session with
    | .done (_, context) => now.onward session (command.session.start context)
    | _ => now
  | .proceed session =>
    match now.sessions session with
    | .done _ => now
    | .tell _ rest => now.onward session rest
    | .ask query next =>
      (now.answered query).onward session (next (now.store.answerRegistry query).1)

/-- The concourse after some turns. -/
def run (now : Concourse) (turns : List Turn) : Concourse := turns.foldl step now

end Concourse

/-! ### What a session asks -/

/-- The initial variant's number is listed under its name only. -/
def Guarded (infos : List VariantInfo) : Prop :=
  ∀ info ∈ infos, info.number = initialVariantNumber → info.name = initialVariantName

/-- A question that cannot take the initial variant away. -/
def RegistryQuery.Harmless (query : RegistryQuery) : Prop := query ≠ .delete initialVariantNumber

/-- An answer that a store with the initial variant in its place can give. -/
def RegistryQuery.Credible : (query : RegistryQuery) → Except Fault query.Answer → Prop
  | .list _, .ok infos => Guarded infos
  | .clone _ target _, .ok _ => target ≠ initialVariantNumber
  | _, _ => True

namespace Managing

open Dialogue Session VariantInfo RegistryQuery

/-- A session that gets credible answers does no harm, and leaves with a value that meets `post`. -/
abbrev Careful {α : Type} (session : Managing α) (post : α → Prop) : Prop :=
  ∀ context, (session.start context).Heeds Harmless Credible fun outcome =>
    ∀ value, outcome.1 = .ok value → post value

theorem guarded_filter {infos : List VariantInfo} (h : Guarded infos) (keep : VariantInfo → Bool) :
    Guarded (infos.filter keep) :=
  fun info hinfo => h info (List.mem_filter.mp hinfo).1

theorem guarded_concat {infos : List VariantInfo} (h : Guarded infos) {number : UInt32}
    {name : String} (hnumber : number ≠ initialVariantNumber) :
    Guarded (infos ++ [⟨number, name⟩]) := by
  intro info hinfo hinitial
  rcases List.mem_append.mp hinfo with hold | hnew
  · exact h info hold hinitial
  · rw [List.mem_singleton.mp hnew] at hinitial
    exact absurd hinitial hnumber

theorem careful_cloneFree (source : UInt32) (name : String) (attempts : Nat)
    {infos : List VariantInfo} (h : Guarded infos) :
    Careful (cloneFree source name attempts infos) fun pair => Guarded pair.2 := by
  intro context
  induction attempts generalizing infos with
  | zero => exact nofun
  | succ attempts ih =>
    rw [start_cloneFree]
    refine ⟨nofun, fun answer hanswer => ?_⟩
    cases answer with
    | ok _ =>
      intro pair hpair
      cases hpair
      exact guarded_concat h hanswer
    | error fault =>
      dsimp only
      split
      · exact nofun
      split
      · exact nofun
      refine ⟨nofun, fun answer hanswer => ?_⟩
      cases answer with
      | error fault => exact nofun
      | ok fresh => exact ih hanswer

/-- A number that is listed under another name is not the initial variant's. -/
theorem harmless_delete {infos : List VariantInfo} (h : Guarded infos) {info : VariantInfo}
    (hinfo : info ∈ infos) (hname : info.name ≠ initialVariantName) :
    Harmless (.delete info.number) := by
  intro hinitial
  cases hnumber : info.number
  rw [hnumber] at hinitial
  cases hinitial
  exact hname (h info hinfo hnumber)

theorem careful_cloneTarget (source : String) (sourceNumber : UInt32) (overwrite : Bool)
    {infos : List VariantInfo} (h : Guarded infos) (target : String) :
    Careful (cloneTarget source sourceNumber overwrite infos target) Guarded := by
  intro context
  rw [start_cloneTarget]
  cases hfind : find? target infos with
  | none =>
    refine Heeds.bind ((careful_cloneFree _ _ _ h context).imp fun outcome houtcome => ?_)
    obtain ⟨fault | ⟨number, listed⟩, after⟩ := outcome
    · exact nofun
    · intro value hvalue
      cases hvalue
      exact houtcome _ rfl
  | some existing =>
    obtain ⟨hlisted, hname⟩ := of_find? hfind
    dsimp only
    split
    · exact nofun
    split
    · exact nofun
    split
    · exact nofun
    next hinitial =>
    refine ⟨harmless_delete h hlisted (hname.trans_ne hinitial), fun answer _ => ?_⟩
    cases answer with
    | error fault => exact nofun
    | ok _ =>
      refine Heeds.bind ((careful_cloneFree _ _ _ (guarded_filter h _) _).imp
        fun outcome houtcome => ?_)
      obtain ⟨fault | ⟨number, listed⟩, after⟩ := outcome
      · exact nofun
      · intro value hvalue
        cases hvalue
        exact houtcome _ rfl

theorem careful_rounds (source : String) (sourceNumber : UInt32) (overwrite : Bool)
    (targets : List String) {infos : List VariantInfo} (h : Guarded infos) :
    Careful (targets.foldlM (cloneTarget source sourceNumber overwrite) infos) Guarded := by
  induction targets generalizing infos with
  | nil =>
    intro context value hvalue
    cases hvalue
    exact h
  | cons target targets ih =>
    intro context
    rw [start_rounds_cons]
    refine Heeds.bind ((careful_cloneTarget _ _ _ h target context).imp fun outcome houtcome => ?_)
    obtain ⟨fault | listed, after⟩ := outcome
    · exact nofun
    · exact ih (houtcome _ rfl) after

theorem careful_clone (source : String) (targets : List String) (overwrite : Bool) :
    Careful (clone source targets overwrite) fun _ => True := by
  intro context
  rw [start_clone]
  split
  · exact nofun
  refine ⟨nofun, fun answer hanswer => ?_⟩
  cases answer with
  | error fault => exact nofun
  | ok infos =>
    dsimp only
    cases numberOf source infos with
    | error fault => exact nofun
    | ok number =>
      exact Heeds.bind ((careful_rounds source number overwrite targets hanswer context).imp
        fun _ _ _ _ => trivial)

theorem careful_remove (name : String) : Careful (remove name) fun _ => True := by
  intro context
  rw [start_remove]
  refine ⟨nofun, fun answer hanswer => ?_⟩
  cases answer with
  | error fault => exact nofun
  | ok infos =>
    dsimp only
    split
    · exact nofun
    next hinitial =>
    cases hname : numberOf name infos with
    | error fault => exact nofun
    | ok number =>
      obtain ⟨info, hfind, rfl⟩ := numberOf_eq_ok_iff.mp hname
      obtain ⟨hlisted, hinfo⟩ := of_find? hfind
      refine ⟨harmless_delete hanswer hlisted (hinfo.trans_ne hinitial), fun answer _ => ?_⟩
      cases answer with
      | error fault => exact nofun
      | ok _ => exact fun _ _ => trivial

theorem careful_work (name : String) : Careful (work name) fun _ => True := by
  intro context
  rw [start_work]
  refine ⟨nofun, fun answer _ => ?_⟩
  cases answer with
  | error fault => exact nofun
  | ok infos =>
    dsimp only
    cases numberOf name infos <;> exact fun _ _ => trivial

theorem careful_workingName : Careful workingName fun _ => True := by
  intro context
  rw [start_workingName]
  cases context.working with
  | none => exact nofun
  | some number =>
    refine ⟨nofun, fun answer _ => ?_⟩
    cases answer with
    | error fault => exact nofun
    | ok infos =>
      dsimp only
      cases infos.find? (·.number = number) <;> exact fun _ _ => trivial

theorem careful_names : Careful names fun _ => True := by
  intro context
  rw [start_names]
  refine ⟨nofun, fun answer _ => ?_⟩
  cases answer <;> exact fun _ _ => trivial

theorem careful_map {α β : Type} {session : Managing α} (h : Careful session fun _ => True)
    (f : α → β) : Careful (f <$> session) fun _ => True := by
  intro context
  rw [start_map]
  refine Heeds.bind ((h context).imp fun outcome _ => ?_)
  obtain ⟨_ | _, _⟩ := outcome <;> exact fun _ _ => trivial

/-- No command does the initial variant harm. -/
theorem careful_command (command : Command) : Careful command.session fun _ => True := by
  cases command with
  | clone source targets overwrite => exact careful_map (careful_clone source targets overwrite) _
  | remove name => exact careful_map (careful_remove name) _
  | work name => exact careful_map (careful_work name) _
  | workingName => exact careful_map careful_workingName _
  | names => exact careful_map careful_names _

end Managing

/-! ### What the store keeps -/

/-- The question neither deletes the initial variant nor puts another under its number or name. -/
def RegistryQuery.Spares : RegistryQuery → Prop
  | .list _ => True
  | .clone _ target name => target ≠ initialVariantNumber ∧ name ≠ initialVariantName
  | .delete number => number ≠ initialVariantNumber

namespace Store

open RegistryQuery

variable {store : Store}

theorem nameAt_initial (h : store.variant? initialVariantNumber = some Variant.initial) :
    store.nameAt initialVariantNumber = some initialVariantName :=
  nameAt_of_variant? h

/-- With the initial variant in its place, all answers are credible. -/
theorem credible_answer (h : store.variant? initialVariantNumber = some Variant.initial)
    (query : RegistryQuery) : query.Credible (store.answerRegistry query).1 := by
  cases query with
  | list refresh =>
    intro info hinfo hinitial
    rw [mem_infos_iff, hinitial, nameAt_initial h] at hinfo
    exact (Option.some.inj hinfo).symm
  | clone source target name =>
    change RegistryQuery.Credible (.clone source target name)
      (store.apply (.clone source target name)).1
    rcases apply_clone_cases store source target name with
      ⟨_, hrefused, _⟩ | ⟨_, _, hfree, _, hcloned⟩
    · rw [hrefused]
      trivial
    · rw [hcloned]
      rintro rfl
      rw [nameAt_initial h] at hfree
      cases hfree
  | delete number => trivial

/-- A harmless question leaves the initial variant as it is, and spares it if it is granted. -/
theorem spares_of_harmless (h : store.variant? initialVariantNumber = some Variant.initial)
    {query : RegistryQuery} (hharmless : query.Harmless) :
    (store.answerRegistry query).2.variant? initialVariantNumber = some Variant.initial ∧
      ∀ granted, (store.answerRegistry query).1 = .ok granted → query.Spares := by
  cases query with
  | list refresh => exact ⟨h, fun _ _ => trivial⟩
  | clone source target name =>
    change (store.apply (.clone source target name)).2.variant? _ = _ ∧
      ∀ granted, (store.apply (.clone source target name)).1 = .ok granted → _
    rcases apply_clone_cases store source target name with
      ⟨_, hrefused, _⟩ | ⟨_, _, hfree, hnew, hcloned⟩
    · rw [hrefused]
      exact ⟨h, nofun⟩
    have hother : target ≠ initialVariantNumber := by
      rintro rfl
      rw [nameAt_initial h] at hfree
      cases hfree
    rw [hcloned]
    refine ⟨?_, fun _ _ => ⟨hother, fun hname => hnew initialVariantNumber ?_⟩⟩
    · rw [variant?_enter, if_neg hother]
      exact h
    · rw [nameAt_initial h, hname]
  | delete number =>
    have hother : number ≠ initialVariantNumber := fun hsame => hharmless (by rw [hsame])
    change (store.after (.delete number)).variant? _ = _ ∧ _
    refine ⟨?_, fun _ _ => hother⟩
    rw [after_delete_eq_without, variant?_without, if_neg hother.symm]
    exact h

end Store

namespace Concourse

open Dialogue Managing RegistryQuery

variable {now : Concourse}

/-- The initial variant is in its place as it was made, names are distinct, whatever was granted
spared the initial variant, and no session will ask for anything that does not. -/
structure Founded (now : Concourse) : Prop where
  initial : now.store.variant? initialVariantNumber = some Variant.initial
  distinct : now.store.NamesDistinct
  granted : ∀ query ∈ now.granted, query.Spares
  careful : ∀ session, (now.sessions session).Heeds Harmless Credible fun _ => True

theorem founded_new (contexts : Nat → Context) : (new contexts).Founded where
  initial := rfl
  distinct := Store.namesDistinct_new
  granted := nofun
  careful _ := trivial

theorem Founded.onward (h : now.Founded) (session : Nat)
    {rest : Dialogue registryProtocol (Except Fault Reply × Context)}
    (hrest : rest.Heeds Harmless Credible fun _ => True) : (now.onward session rest).Founded where
  initial := h.initial
  distinct := h.distinct
  granted := h.granted
  careful other := by
    change Heeds Harmless Credible _ (if other = session then rest else now.sessions other)
    split
    · exact hrest
    · exact h.careful other

theorem Founded.answered (h : now.Founded) {query : RegistryQuery} (hquery : query.Harmless) :
    (now.answered query).Founded where
  initial := (Store.spares_of_harmless h.initial hquery).1
  distinct := h.distinct.answerRegistry query
  granted other hother := by
    rw [Concourse.answered] at hother
    cases hanswer : (now.store.answerRegistry query).1 with
    | error fault =>
      rw [hanswer] at hother
      exact h.granted other hother
    | ok granted =>
      rw [hanswer] at hother
      rcases List.mem_append.mp hother with hold | hnew
      · exact h.granted other hold
      · rw [List.mem_singleton.mp hnew]
        exact (Store.spares_of_harmless h.initial hquery).2 granted hanswer
  careful := h.careful

theorem Founded.step (h : now.Founded) (turn : Turn) : (now.step turn).Founded := by
  cases turn with
  | take session command =>
    rcases hrest : now.sessions session with ⟨_, context⟩ | ⟨event, rest⟩ | ⟨query, next⟩ <;>
      simp only [Concourse.step, hrest]
    · exact h.onward session ((careful_command command context).imp fun _ _ => trivial)
    · exact h
    · exact h
  | proceed session =>
    have hcareful := h.careful session
    rcases hrest : now.sessions session with outcome | ⟨event, rest⟩ | ⟨query, next⟩ <;>
      simp only [Concourse.step, hrest] <;> rw [hrest] at hcareful
    · exact h
    · exact h.onward session hcareful
    · obtain ⟨hquery, hnext⟩ := hcareful
      exact (h.answered hquery).onward session
        (hnext _ (Store.credible_answer h.initial query))

theorem Founded.run (h : now.Founded) (turns : List Turn) : (now.run turns).Founded := by
  induction turns generalizing now with
  | nil => exact h
  | cons turn turns ih => exact ih (h.step turn)

/-- Whatever any number of sessions do, in whatever order their questions come: the initial variant
is in its place as it was made, no other number has its name, and all names are distinct. It was
never deleted, and no clone was ever made under its number or its name. -/
theorem initial_variant_stands (contexts : Nat → Context) (turns : List Turn) :
    let now := (new contexts).run turns
    now.store.variant? initialVariantNumber = some Variant.initial ∧
      (∀ info ∈ now.store.infos, info.name = initialVariantName →
        info.number = initialVariantNumber) ∧
      (now.store.infos.map (·.name)).Nodup ∧
      ∀ query ∈ now.granted, query.Spares := by
  intro now
  have h : now.Founded := (founded_new contexts).run turns
  refine ⟨h.initial, fun info hinfo hname => ?_, h.distinct.nodup_names, h.granted⟩
  rw [Store.mem_infos_iff, hname] at hinfo
  exact h.distinct _ _ _ hinfo (Store.nameAt_initial h.initial)

/-- One session makes a variant and replaces it while another, which has listed it, is about to
remove it; the second deletes by number what it never saw. A third is refused the removal of the
initial variant. -/
def contestedTurns : List Turn :=
  [.take 0 (.clone "InitialVariant" ["a"] false), .proceed 0, .proceed 0, .proceed 0,
    .take 1 (.remove "a"), .proceed 1,
    .take 0 (.clone "InitialVariant" ["a"] true), .proceed 0, .proceed 0, .proceed 0, .proceed 0,
    .proceed 1, .proceed 1, .take 2 (.remove "InitialVariant"), .proceed 2]

/-- In the contested run number one is deleted twice, and the initial variant alone is left. -/
theorem initial_variant_stands_contested :
    let now := (new fun _ => {}).run contestedTurns
    now.store.infos = [⟨0, "InitialVariant"⟩] ∧
      now.granted = [.list false, .clone 0 1 "a", .list false, .list false, .delete 1,
        .clone 0 1 "a", .delete 1, .list false] ∧
      now.store.variant? 0 = some Variant.initial ∧
      VariantInfo.number ⟨0, "InitialVariant"⟩ = initialVariantNumber ∧
      (now.store.infos.map (·.name)).Nodup ∧ RegistryQuery.Spares (.delete 1) := by
  intro now
  have hinfos : now.store.infos = [⟨0, "InitialVariant"⟩] := rfl
  have hgranted : now.granted = [.list false, .clone 0 1 "a", .list false, .list false, .delete 1,
    .clone 0 1 "a", .delete 1, .list false] := rfl
  obtain ⟨hinitial, hnamed, hdistinct, hspared⟩ :=
    initial_variant_stands (fun _ => {}) contestedTurns
  exact ⟨hinfos, hgranted, hinitial, hnamed _ (hinfos ▸ List.mem_singleton_self _) rfl, hdistinct,
    hspared (.delete 1) (hgranted ▸ by decide)⟩

end Concourse

end Switchyard
