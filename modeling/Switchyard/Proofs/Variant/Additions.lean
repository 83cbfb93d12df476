import Switchyard.Proofs.Store.Gains
import Switchyard.Proofs.Variant.Contested

/-!
Cloning without overwriting only adds.

A session that clones to a list of targets may work from an outdated list, find numbers taken or
names given away, and give up at any target. If it may not overwrite, it asks for nothing but lists
and clones, and a clone that a store grants enters a variant where none was (`adds_or_keeps`). The
clones that are granted are those of the first targets, each once and in order: a round that
succeeds ends with the one clone that was granted in it, and a round that fails was granted none
(`Additive`). The events tell of the same targets.
-/

namespace Switchyard

namespace Managing

open Dialogue Session VariantInfo Store

/-! ### The clones that are granted -/

section Granted

variable {σ : Type} {server : Server registryProtocol σ}

/-- The name that a copy was given, where the exchange is a clone that was granted. -/
def granted? (server : Server registryProtocol σ) : Exchange registryProtocol σ → Option String
  | .question query state => query.given? (server.answer query state).1
  | .notice _ => none

/-- The names that were given to copies, in order. -/
def clonesIn (server : Server registryProtocol σ) (said : Said σ) : List String :=
  said.filterMap (granted? server)

theorem granted?_question {query : RegistryQuery} {state after : σ}
    {answer : Except Fault query.Answer} (h : server.answer query state = (answer, after)) :
    granted? server (.question query state) = query.given? answer := by
  rw [granted?, h]

variable {source : String} {target name : String} {targets : List String} {sourceNumber : UInt32}
  {attempts : Nat} {infos : List VariantInfo} {context context' : Context}
  {state last : σ} {said later : Said σ}

/-- Attempts are granted one clone if they succeed and none if they fail, and tell nothing. -/
theorem Attempts.clonesIn {result : Except Fault (UInt32 × List VariantInfo)}
    (h : Attempts server sourceNumber name attempts infos state result last said) :
    clonesIn server said = (result.toOption.map fun _ => name).toList ∧
      said.filterMap Exchange.notice? = [] := by
  induction h with
  | cloned hclone => exact ⟨List.filterMap_cons_some (granted?_question hclone), rfl⟩
  | refused hclone | exhausted hclone | unlisted hclone =>
    exact ⟨List.filterMap_cons_none (granted?_question hclone), rfl⟩
  | again hclone _ _ _ ih =>
    exact ⟨(List.filterMap_cons_none (granted?_question hclone)).trans ih.1, ih.2⟩

/-- Nothing is deleted, and the targets that come before a failure are cloned and told. -/
structure Additive {α : Type} (server : Server registryProtocol σ) (source : String)
    (targets : List String) (context : Context) (result : Except Fault α) (context' : Context)
    (said : Said σ) : Prop where
  context_eq : context' = context
  asks : ∀ number asked, .question (.delete number) asked ∉ said
  first : clonesIn server said <+: targets
  all_iff : clonesIn server said = targets ↔ ∃ value, result = .ok value
  told : said.filterMap Exchange.notice? = (clonesIn server said).map (.created source)

theorem Round.additive {result : Except Fault (List VariantInfo)}
    (h : Round server source sourceNumber false target infos context state result context' last
      said) : Additive server source [target] context result context' said := by
  cases h with
  | created _ hattempts =>
    obtain ⟨hclones, htold⟩ := hattempts.clonesIn
    have hsaid : clonesIn server (_ ++ [.notice (.created source target)]) = [target] :=
      List.filterMap_append.trans (congrArg (· ++ []) hclones)
    refine ⟨rfl, fun number asked hdelete => ?_, hsaid ▸ List.prefix_rfl, by simp [hsaid], ?_⟩
    · obtain hdelete | hdelete := List.mem_append.mp hdelete
      · obtain ⟨_, ⟨_, h⟩ | h⟩ := hattempts.asks _ hdelete <;> cases h
      · simp at hdelete
    · rw [hsaid, List.filterMap_append, htold]
      rfl
  | uncreated _ hattempts =>
    obtain ⟨hclones, htold⟩ := hattempts.clonesIn
    refine ⟨rfl, fun number asked hdelete => ?_, hclones ▸ List.nil_prefix, ?_, ?_⟩
    · obtain ⟨_, ⟨_, h⟩ | h⟩ := hattempts.asks _ hdelete <;> cases h
    · rw [hclones]
      simp [Except.toOption]
    · rw [hclones, htold]
      rfl
  | kept => exact ⟨rfl, nofun, List.nil_prefix, by simp [Managing.clonesIn], rfl⟩
  | itself _ h | guarded _ h | undeleted _ h | overwritten _ h | lost _ h => cases h

/-- Targets that all are added, and then more targets. -/
theorem Additive.append {α β : Type} {more : List String} {listed : α} {result : Except Fault β}
    (h : Additive server source targets context (.ok listed) context' said)
    {last' : Context} (hmore : Additive server source more context' result last' later) :
    Additive server source (targets ++ more) context result last' (said ++ later) := by
  have hall : clonesIn server said = targets := h.all_iff.mpr ⟨_, rfl⟩
  have hsaid : clonesIn server (said ++ later) = targets ++ clonesIn server later :=
    List.filterMap_append.trans (congrArg (· ++ _) hall)
  refine ⟨hmore.context_eq.trans h.context_eq, fun number asked hdelete => ?_, ?_, ?_, ?_⟩
  · exact (List.mem_append.mp hdelete).elim (h.asks number asked) (hmore.asks number asked)
  · rw [hsaid]
    exact (List.prefix_append_right_inj targets).mpr hmore.first
  · rw [hsaid, List.append_cancel_left_eq, hmore.all_iff]
  · rw [List.filterMap_append, h.told, hmore.told, hsaid, hall, List.map_append]

/-- Where the first of some targets fails, nothing is added. -/
theorem Additive.of_failed {α β : Type} {fault : Fault}
    (h : Additive server source [target] context (.error fault : Except Fault α) context' said) :
    Additive server source (target :: targets) context (.error fault : Except Fault β) context'
      said := by
  have hnone : clonesIn server said = [] := by
    refine (List.prefix_cons_iff.mp h.first).resolve_right ?_
    rintro ⟨rest, hrest, hnil⟩
    rw [List.prefix_nil.mp hnil] at hrest
    obtain ⟨_, h⟩ := h.all_iff.mp hrest
    cases h
  exact ⟨h.context_eq, h.asks, hnone ▸ List.nil_prefix, by simp [hnone], h.told⟩

theorem Rounds.additive {result : Except Fault (List VariantInfo)}
    (h : Rounds server source sourceNumber false targets infos context state result context' last
      said) : Additive server source targets context result context' said := by
  induction h with
  | finished => exact ⟨rfl, nofun, List.nil_prefix, by simp [Managing.clonesIn], rfl⟩
  | failed hround => exact hround.additive.of_failed
  | next hround _ ih => exact hround.additive.append ih

theorem Cloning.additive {result : Except Fault Unit} (htargets : targets ≠ [])
    (h : Cloning server source targets false context state result context' last said) :
    Additive server source targets context result context' said := by
  cases h with
  | untargeted hnone => exact absurd hnone htargets
  | unlisted | unknown =>
    have hnone : clonesIn server [.question (.list false) state] ≠ targets := htargets.symm
    exact ⟨rfl, by simp, List.nil_prefix, by simp [hnone], rfl⟩
  | @went _ _ _ _ _ result _ _ _ _ hrounds =>
    have hadded := hrounds.additive
    refine ⟨hadded.context_eq, by simpa using hadded.asks, hadded.first, hadded.all_iff.trans ?_,
      hadded.told⟩
    cases result <;> simp [Except.map]

end Granted

/-! ### A session that others interrupt -/

/-- Whatever other sessions do between two questions, and whether or not it succeeds: a session that
clones without overwriting leaves its context alone, and none of its questions takes a variant away
or changes one. The clones that it is granted are those of the first targets, of all of them just if
it succeeds or there are none; each is a copy at a number and under a name that were free; and the
events tell of the same targets, in the same order. -/
theorem clone_only_adds (store : Store) (pending : List (List Operation)) (context : Context)
    (source : String) (targets : List String) :
    let session := (clone source targets false).start context
    let start : Contested := ⟨store, pending, []⟩
    let said := session.transcript contested start
    let (result, context') := (session.run contested start).1
    context' = context ∧
    (∀ query state, .question query state ∈ said →
      Gains state.store (granted? contested (.question query state))
        (state.store.answerRegistry query).2 ∧
      ∀ number held, state.store.variant? number = some held →
        (state.store.answerRegistry query).2.variant? number = some held) ∧
    clonesIn contested said <+: targets ∧
    (clonesIn contested said = targets ↔ result = .ok () ∨ targets = []) ∧
    said.filterMap Exchange.notice? = (clonesIn contested said).map (.created source) := by
  intro session start said
  by_cases htargets : targets = []
  · subst htargets
    exact ⟨rfl, fun _ _ h => absurd h List.not_mem_nil, List.prefix_rfl,
      ⟨fun _ => .inr rfl, fun _ => rfl⟩, rfl⟩
  have hadded := (cloning_clone contested source targets false context start).additive htargets
  refine ⟨hadded.context_eq, fun query state hasked => ?_, hadded.first, ?_, hadded.told⟩
  · have hgains := gains_answerRegistry state.store query fun number hdelete =>
      hadded.asks number state (hdelete ▸ hasked)
    exact ⟨hgains, fun number held => hgains.variant?_eq⟩
  · rw [hadded.all_iff, or_iff_left htargets]
    exact ⟨fun ⟨_, h⟩ => h, fun h => ⟨_, h⟩⟩

/-- Without targets, all clones there are to make are made, and yet the session fails. -/
theorem clone_refuses_no_targets :
    let session := (clone initialVariantName [] false).start {}
    let start : Contested := ⟨.new, [], []⟩
    (session.run contested start).1.1 = .error .noCloneTargets ∧
      ¬(clonesIn contested (session.transcript contested start) = [] ↔
        (session.run contested start).1.1 = .ok ()) :=
  ⟨rfl, fun h => nomatch h.mp rfl⟩

end Managing

end Switchyard
