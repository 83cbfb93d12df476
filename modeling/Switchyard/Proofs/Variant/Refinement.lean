import Mathlib.Algebra.Group.Nat.Defs
import Switchyard.Proofs.Variant.Alone

/-!
A session that nobody else interferes with does what a catalogue does.

Numbers are given out and given back as variants come and go, and none of this can be told from
outside. The list that a session works from stays exact from round to round, so the first number
tried is free and every attempt is the last (`Attempts.granted`); where there is no number left, the
clone fails and nothing else comes of it (`Attempts.full`). With a number left after each deed, the
session and its store answer, tell and hold what a catalogue of named networks does
(`alone_is_a_catalogue`).
-/

namespace Switchyard

namespace Managing

open Dialogue Session VariantInfo Store

variable {source target : String} {targets : List String} {sourceNumber : UInt32}
  {overwrite : Bool} {attempts : Nat} {infos listed : List VariantInfo} {context context' : Context}
  {state last : Store} {said : Said Store}

/-! ### Attempts -/

/-- With a number left, the first attempt to clone to a new name succeeds. -/
theorem Attempts.granted {result : Except Fault (UInt32 × List VariantInfo)} {copied : Variant}
    (h : Attempts registry sourceNumber target attempts infos state result last said)
    (hexact : Exact infos state) (hfree : ∃ number, state.nameAt number = none)
    (hsource : state.variant? sourceNumber = some copied)
    (hnew : ∀ number, state.nameAt number ≠ some target) :
    let clone : Variant :=
      ⟨lowestFree infos, target, copied.network.touchAll (state.lastGeneration + 1)⟩
    state.nameAt clone.number = none ∧ result = .ok (clone.number, infos ++ [clone.info]) ∧
      last = state.enter clone ∧ said.filterMap Exchange.notice? = [] := by
  have hlowest : state.nameAt (lowestFree infos) = none := by
    have hunused : ∃ number, number ∉ numbers infos := hfree.imp fun number hnone => by
      rw [hexact.mem_numbers, hnone]
      simp
    simpa [hexact.mem_numbers] using (lowestFree_spec hunused).1
  rcases apply_clone_cases state sourceNumber (lowestFree infos) target with
    ⟨_, _, _, htaken | ⟨number, hknown⟩ | hmissing⟩ | ⟨copied', hcopied', _, _, hcloned⟩
  · exact absurd hlowest htaken
  · exact absurd hknown (hnew number)
  · rw [nameAt_of_variant? hsource] at hmissing
    cases hmissing
  obtain rfl : copied = copied' := Option.some.inj (hsource.symm.trans hcopied')
  have hanswer : registry.answer (.clone sourceNumber (lowestFree infos) target) state = _ :=
    hcloned
  cases h with
  | cloned hclone =>
    rw [hanswer] at hclone
    cases hclone
    exact ⟨hlowest, rfl, rfl, rfl⟩
  | refused hclone | exhausted hclone | unlisted hclone | again hclone =>
    rw [hanswer] at hclone
    cases hclone

/-- With no number left, a clone is refused. -/
theorem clone_registry_full (hfull : ∀ number, state.nameAt number ≠ none) {number : UInt32}
    {answer : Except Fault Unit}
    (hclone : registry.answer (.clone sourceNumber number target) state = (answer, last)) :
    (∃ fault, answer = .error fault) ∧ last = state := by
  rcases apply_clone_cases state sourceNumber number target with
    ⟨fault, hrefused, _⟩ | ⟨_, _, hfree, _⟩
  · cases hclone.symm.trans hrefused
    exact ⟨⟨fault, rfl⟩, rfl⟩
  · exact absurd hfree (hfull number)

/-- With no number left, all attempts fail, and nothing is altered. -/
theorem Attempts.full {result : Except Fault (UInt32 × List VariantInfo)}
    (h : Attempts registry sourceNumber target attempts infos state result last said)
    (hfull : ∀ number, state.nameAt number ≠ none) :
    (∃ fault, result = .error fault) ∧ last = state := by
  induction h with
  | cloned hclone =>
    obtain ⟨⟨_, hanswer⟩, _⟩ := clone_registry_full hfull hclone
    cases hanswer
  | refused hclone | exhausted hclone =>
    exact ⟨⟨_, rfl⟩, (clone_registry_full hfull hclone).2⟩
  | unlisted _ _ hlist => cases hlist
  | again hclone _ hlist _ ih =>
    obtain ⟨_, rfl⟩ := clone_registry_full hfull hclone
    cases hlist
    exact ih hfull

/-! ### Rounds -/

/-- A session that clones a source is between two rounds: its list is exact, and the source is as
it was when the session began. -/
structure Midway (source : String) (sourceNumber : UInt32) (network : Network)
    (infos : List VariantInfo) (alone : Alone) : Prop where
  sound : alone.Sound
  exact : Exact infos alone.store
  source : alone.store.variant? sourceNumber = some ⟨sourceNumber, source, network⟩

variable {network : Network}

/-- What is listed under the source's name is the source. -/
theorem Midway.number_eq_iff (h : Midway source sourceNumber network infos ⟨state, context⟩)
    {existing : VariantInfo} {held : Network}
    (hheld : state.variant? existing.number = some ⟨existing.number, target, held⟩) :
    existing.number = sourceNumber ↔ target = source := by
  have hsource := h.source
  have hsourceName := nameAt_of_variant? hsource
  have htargetName := nameAt_of_variant? hheld
  constructor
  · intro hsame
    rw [hsame, hsourceName] at htargetName
    exact (Option.some.inj htargetName).symm
  · rintro rfl
    exact h.sound.distinct _ _ _ htargetName hsourceName

/-- A target that is new is created. -/
theorem Midway.created (h : Midway source sourceNumber network infos ⟨state, context⟩)
    (hnew : find? target infos = none) (hfree : ∃ number, state.nameAt number = none)
    {result : Except Fault (UInt32 × List VariantInfo)}
    (hattempts : Attempts registry sourceNumber target attempts infos state result last said) :
    ∃ number listed, result = .ok (number, listed) ∧ said.filterMap Exchange.notice? = [] ∧
      Midway source sourceNumber network listed ⟨last, context⟩ ∧ ∀ overwrite,
      (Alone.catalogue ⟨state, context⟩).cloneTarget source network overwrite target =
        .ok (.created source target, Alone.catalogue ⟨last, context⟩) := by
  have hnone := h.exact.of_find?_none hnew
  obtain ⟨hunused, rfl, rfl, hsaid⟩ := hattempts.granted h.exact hfree h.source hnone
  obtain ⟨hsound, hcatalogue⟩ := h.sound.create hunused hnone
  refine ⟨_, _, rfl, hsaid, ⟨hsound, h.exact.enter hunused,
    variant?_enter_of_free hunused h.source⟩, fun overwrite => ?_⟩
  rw [Catalogue.cloneTarget, h.sound.network?_eq_none hnone, hcatalogue]
  rfl

/-- A target that may be overwritten is deleted and created anew, under a number that is free then
at the latest. -/
theorem Midway.overwritten (h : Midway source sourceNumber network infos ⟨state, context⟩)
    {existing : VariantInfo} (hfound : find? target infos = some existing)
    (hother : existing.number ≠ sourceNumber) (hinitial : target ≠ initialVariantName)
    {after : Store} {answer : Except Fault Unit}
    (hdelete : registry.answer (.delete existing.number) state = (answer, after))
    {result : Except Fault (UInt32 × List VariantInfo)}
    (hattempts : Attempts registry sourceNumber target attempts
      (infos.filter (·.number ≠ existing.number)) after result last said) :
    ∃ number listed, result = .ok (number, listed) ∧ said.filterMap Exchange.notice? = [] ∧
      let context' := if context.isWorkingOn existing.number then .workingOn number else context
      Midway source sourceNumber network listed ⟨last, context'⟩ ∧
      (Alone.catalogue ⟨state, context⟩).cloneTarget source network true target =
        .ok (.overwritten source target, Alone.catalogue ⟨last, context'⟩) := by
  obtain ⟨held, hheld⟩ := h.exact.of_find? hfound
  have htargetName := nameAt_of_variant? hheld
  have hdistinct : target ≠ source := fun hsame => hother ((h.number_eq_iff hheld).mpr hsame)
  obtain ⟨rfl, rfl⟩ : answer = .ok () ∧ after = state.without existing.number := by
    rw [delete_registry hheld] at hdelete
    cases hdelete
    exact ⟨rfl, rfl⟩
  have hnone := h.sound.distinct.nameAt_without_ne htargetName
  have hsource : (state.without existing.number).variant? sourceNumber =
      some ⟨sourceNumber, source, network⟩ := by
    rw [variant?_without, if_neg hother.symm, h.source]
  have hexact := h.exact.without existing.number
  obtain ⟨hunused, rfl, rfl, hsaid⟩ := hattempts.granted hexact
    ⟨existing.number, by rw [nameAt_without, if_pos rfl]⟩ hsource hnone
  obtain ⟨hsound, hcatalogue⟩ := h.sound.replace
    ⟨lowestFree (infos.filter (·.number ≠ existing.number)), target,
      network.touchAll (state.lastGeneration + 1)⟩ hheld rfl hunused
  refine ⟨_, _, rfl, hsaid, ⟨hsound, hexact.enter hunused,
    variant?_enter_of_free hunused hsource⟩, ?_⟩
  have hnetwork := h.sound.network? hheld
  rw [Catalogue.cloneTarget, hnetwork]
  simp only [Bool.true_eq_false, reduceIte, hdistinct, hinitial]
  exact congrArg (fun next => Except.ok (VariantEvent.overwritten source target, next))
    hcatalogue.symm

/-- What comes of a round is what comes of the target in the catalogue. A round that fails leaves
everything as it was. -/
theorem Round.refines {result : Except Fault (List VariantInfo)}
    (hround : Round registry source sourceNumber overwrite target infos context state result
      context' last said)
    (h : Midway source sourceNumber network infos ⟨state, context⟩)
    (hroom : (∃ fault, result = .error fault) → ∃ number, last.nameAt number = none) :
    let next := (Alone.catalogue ⟨state, context⟩).cloneTarget source network overwrite target
    (∃ fault, result = .error fault ∧ next = .error fault ∧
      said.filterMap Exchange.notice? = [] ∧ last = state ∧ context' = context) ∨
    ∃ listed event, result = .ok listed ∧ next = .ok (event, Alone.catalogue ⟨last, context'⟩) ∧
      said.filterMap Exchange.notice? = [event] ∧
      Midway source sourceNumber network listed ⟨last, context'⟩ := by
  dsimp only
  have hexisting : ∀ {existing : VariantInfo}, find? target infos = some existing →
      ∃ held, state.variant? existing.number = some ⟨existing.number, target, held⟩ ∧
        (Alone.catalogue ⟨state, context⟩).network? target = some held := by
    intro existing hfound
    obtain ⟨held, hheld⟩ := h.exact.of_find? hfound
    exact ⟨held, hheld, h.sound.network? hheld⟩
  cases hround with
  | created hnew hattempts =>
    by_cases hfree : ∃ number, state.nameAt number = none
    · obtain ⟨_, _, hresult, hsaid, hmidway, hnext⟩ := h.created hnew hfree hattempts
      cases hresult
      exact .inr ⟨_, _, rfl, hnext overwrite, by simp [hsaid], hmidway⟩
    · obtain ⟨⟨_, hfailed⟩, _⟩ := hattempts.full (not_exists.mp hfree)
      cases hfailed
  | uncreated hnew hattempts =>
    by_cases hfree : ∃ number, state.nameAt number = none
    · obtain ⟨_, _, hresult, _⟩ := h.created hnew hfree hattempts
      cases hresult
    · obtain ⟨_, rfl⟩ := hattempts.full (not_exists.mp hfree)
      exact absurd (hroom ⟨_, rfl⟩) hfree
  | kept hfound hkeep =>
    obtain ⟨_, _, hnetwork⟩ := hexisting hfound
    refine .inl ⟨_, rfl, ?_, rfl, rfl, rfl⟩
    rw [Catalogue.cloneTarget, hnetwork]
    simp [hkeep]
  | itself hfound hoverwrite hitself =>
    obtain ⟨_, hheld, hnetwork⟩ := hexisting hfound
    have hsame := (h.number_eq_iff hheld).mp hitself
    refine .inl ⟨_, rfl, ?_, rfl, rfl, rfl⟩
    rw [Catalogue.cloneTarget, hnetwork]
    simp [hoverwrite, hsame]
  | guarded hfound hoverwrite hother hinitial =>
    obtain ⟨_, hheld, hnetwork⟩ := hexisting hfound
    have hdistinct : target ≠ source := fun hsame => hother ((h.number_eq_iff hheld).mpr hsame)
    refine .inl ⟨_, rfl, ?_, rfl, rfl, rfl⟩
    rw [Catalogue.cloneTarget, hnetwork]
    simp [hoverwrite, hdistinct, ← hinitial]
  | undeleted hfound _ _ _ hdelete =>
    obtain ⟨_, hheld, _⟩ := hexisting hfound
    rw [delete_registry hheld] at hdelete
    cases hdelete
  | overwritten hfound hoverwrite hother hinitial hdelete hattempts =>
    obtain ⟨_, _, hresult, hsaid, hmidway, hnext⟩ :=
      h.overwritten hfound hother hinitial hdelete hattempts
    cases hresult
    subst hoverwrite
    refine .inr ⟨_, _, rfl, hnext, ?_, hmidway⟩
    rw [List.cons_append, List.filterMap_cons_none rfl]
    simp [hsaid]
  | lost hfound _ hother hinitial hdelete hattempts =>
    obtain ⟨_, _, hresult, _⟩ := h.overwritten hfound hother hinitial hdelete hattempts
    cases hresult

/-- All rounds together do what the catalogue does for all targets. -/
theorem Rounds.refines {result : Except Fault (List VariantInfo)}
    (hrounds : Rounds registry source sourceNumber overwrite targets infos context state result
      context' last said)
    (h : Midway source sourceNumber network infos ⟨state, context⟩)
    (hroom : ∃ number, last.nameAt number = none) :
    Alone.Follows (⟨result.map fun _ => .done, said.filterMap Exchange.notice?⟩, ⟨last, context'⟩)
      (Catalogue.cloneTargets source network overwrite (Alone.catalogue ⟨state, context⟩)
        targets) := by
  induction hrounds with
  | finished => exact ⟨rfl, h.sound⟩
  | failed hround =>
    rcases hround.refines h fun _ => hroom with
      ⟨fault, hresult, hnext, hsaid, rfl, rfl⟩ | ⟨_, _, hresult, _⟩
    · cases hresult
      refine ⟨?_, h.sound⟩
      rw [Catalogue.cloneTargets, hnext, hsaid]
      rfl
    · cases hresult
  | next hround _ ih =>
    rcases hround.refines h nofun with
      ⟨_, hresult, _⟩ | ⟨listed, event, hresult, hnext, hsaid, hmidway⟩
    · cases hresult
    · cases hresult
      obtain ⟨hrest, hsound⟩ := ih hmidway hroom
      refine ⟨?_, hsound⟩
      rw [Catalogue.cloneTargets, hnext]
      dsimp only
      rw [hrest, List.filterMap_append, hsaid]
      rfl

/-! ### Commands -/

theorem Cloning.refines {result : Except Fault Unit}
    (hcloning : Cloning registry source targets overwrite context state result context' last said)
    (h : Alone.Sound ⟨state, context⟩) (hroom : ∃ number, last.nameAt number = none) :
    Alone.Follows (⟨result.map fun _ => .done, said.filterMap Exchange.notice?⟩, ⟨last, context'⟩)
      ((Alone.catalogue ⟨state, context⟩).perform (.clone source targets overwrite)) := by
  rw [Catalogue.perform]
  cases hcloning with
  | untargeted htargets => exact ⟨if_pos htargets, h⟩
  | unlisted _ hlist => cases hlist
  | unknown htargets hlist hsource =>
    cases hlist
    obtain ⟨hfind, rfl⟩ := numberOf_eq_error_iff.mp hsource
    have hnone := h.network?_eq_none ((exact_infos state).of_find?_none hfind)
    rw [if_neg htargets, hnone]
    exact ⟨rfl, h⟩
  | went htargets hlist hsource hrounds =>
    cases hlist
    obtain ⟨network, hheld⟩ := (exact_infos state).of_numberOf hsource
    have hmap : ∀ rounds : Except Fault (List VariantInfo),
        (rounds.map fun _ => ()).map (fun _ => Reply.done) = rounds.map fun _ => .done :=
      fun rounds => by cases rounds <;> rfl
    rw [if_neg htargets, h.network? hheld, hmap, List.filterMap_cons_none rfl]
    exact hrounds.refines ⟨h, exact_infos state, hheld⟩ hroom

theorem Removal.refines {result : Except Fault Unit} {name : String}
    (hremoval : Removal registry name context state result context' last said)
    (h : Alone.Sound ⟨state, context⟩) :
    Alone.Follows (⟨result.map fun _ => .done, said.filterMap Exchange.notice?⟩, ⟨last, context'⟩)
      ((Alone.catalogue ⟨state, context⟩).perform (.remove name)) := by
  rw [Catalogue.perform]
  cases hremoval with
  | unlisted hlist => cases hlist
  | guarded hlist hinitial =>
    cases hlist
    exact ⟨if_pos hinitial, h⟩
  | unknown hlist hinitial hname =>
    cases hlist
    obtain ⟨hfind, rfl⟩ := numberOf_eq_error_iff.mp hname
    have hnone := h.network?_eq_none ((exact_infos state).of_find?_none hfind)
    rw [if_neg hinitial, hnone]
    exact ⟨rfl, h⟩
  | undeleted hlist _ hname hdelete =>
    cases hlist
    obtain ⟨_, hheld⟩ := (exact_infos state).of_numberOf hname
    rw [delete_registry hheld] at hdelete
    cases hdelete
  | removed hlist hinitial hname hdelete =>
    cases hlist
    obtain ⟨_, hheld⟩ := (exact_infos state).of_numberOf hname
    rw [delete_registry hheld] at hdelete
    cases hdelete
    obtain ⟨hsound, hcatalogue⟩ := h.discard hheld
    rw [if_neg hinitial, h.network? hheld]
    exact ⟨congrArg (Prod.mk (⟨.ok .done, [.removed name]⟩ : Seen)) hcatalogue.symm, hsound⟩

end Managing

namespace Alone

open Dialogue Session Managing VariantInfo Store

variable {alone : Alone} {store : Store} {context : Context} {name : String}

/-! ### Commands that change nothing in the store -/

theorem perform_work (store : Store) (context : Context) (name : String) :
    perform ⟨store, context⟩ (.work name) =
      match numberOf name store.infos with
      | .error fault => (⟨.error fault, []⟩, ⟨store, context⟩)
      | .ok number => (⟨.ok .done, []⟩, ⟨store, .workingOn number⟩) := by
  rw [perform, Command.session, run_start_map, transcript_start_map, start_work]
  cases hname : numberOf name store.infos <;>
    simp only [Dialogue.run, Dialogue.transcript, registry, answerRegistry, hname] <;> rfl

theorem perform_workingName (store : Store) (context : Context) :
    perform ⟨store, context⟩ .workingName =
      (⟨match context.working with
        | none => .error .workingVariantUnset
        | some number => match store.infos.find? (·.number = number) with
          | none => .error (.variantNumberUnknown number)
          | some info => .ok (.name info.name), []⟩, ⟨store, context⟩) := by
  rw [perform, Command.session, run_start_map, transcript_start_map, start_workingName]
  cases context.working with
  | none => rfl
  | some number =>
    cases hname : store.infos.find? (·.number = number) <;>
      simp only [Dialogue.run, Dialogue.transcript, registry, answerRegistry, hname] <;> rfl

theorem perform_names (store : Store) (context : Context) :
    perform ⟨store, context⟩ .names =
      (⟨.ok (.names (.ofList id (store.infos.map (·.name)))), []⟩, ⟨store, context⟩) := rfl

theorem Sound.work (h : Sound ⟨store, context⟩) (name : String) :
    Follows (perform ⟨store, context⟩ (.work name))
      ((catalogue ⟨store, context⟩).perform (.work name)) := by
  rw [perform_work, Catalogue.perform]
  cases hname : numberOf name store.infos with
  | error fault =>
    obtain ⟨hfind, rfl⟩ := numberOf_eq_error_iff.mp hname
    rw [h.network?_eq_none ((exact_infos store).of_find?_none hfind)]
    exact ⟨rfl, h⟩
  | ok number =>
    obtain ⟨_, hheld⟩ := (exact_infos store).of_numberOf hname
    have hnamed : store.nameAt number = some name := nameAt_of_variant? hheld
    rw [h.network? hheld]
    refine ⟨?_, h.distinct, ?_⟩
    · simp only [catalogue, workingName, Context.workingOn, Option.bind_some, hnamed]
    · rintro _ ⟨⟩
      rw [hnamed]
      exact Option.some_ne_none name

theorem Sound.workingName (h : Sound ⟨store, context⟩) :
    Follows (perform ⟨store, context⟩ .workingName)
      ((catalogue ⟨store, context⟩).perform .workingName) := by
  rw [perform_workingName, Catalogue.perform]
  refine ⟨?_, h⟩
  cases hworking : context.working with
  | none =>
    have hnone : (catalogue ⟨store, context⟩).working = none := by
      rw [catalogue, Alone.workingName, hworking, Option.bind_none]
    rw [hnone]
  | some number =>
    obtain ⟨name, hname⟩ := Option.ne_none_iff_exists'.mp (h.present number hworking)
    have hsome : (catalogue ⟨store, context⟩).working = some name := by
      rw [catalogue, Alone.workingName, hworking, Option.bind_some, hname]
    have hlisted : ⟨number, name⟩ ∈ store.infos := mem_infos_iff.mpr hname
    obtain ⟨info, hfind⟩ : ∃ info, store.infos.find? (·.number = number) = some info := by
      rw [← Option.isSome_iff_exists, List.find?_isSome]
      exact ⟨_, hlisted, by simp⟩
    have hinfo : store.nameAt info.number = some info.name :=
      mem_infos_iff.mp (List.mem_of_find?_eq_some hfind)
    have hnumber : info.number = number := by simpa using List.find?_some hfind
    obtain rfl : name = info.name := by
      rw [hnumber, hname] at hinfo
      exact Option.some.inj hinfo
    rw [hsome]
    dsimp only
    rw [hfind]

theorem Sound.names (h : Sound ⟨store, context⟩) :
    Follows (perform ⟨store, context⟩ .names) ((catalogue ⟨store, context⟩).perform .names) := by
  rw [perform_names, Catalogue.perform]
  refine ⟨?_, h⟩
  have hnames : Ascending.ofList id (store.networks.toList.map (·.name)) =
      Ascending.ofList id (store.infos.map (·.name)) := by
    refine Ascending.ext_mem fun name => ?_
    rw [Ascending.mem_ofList_id, Ascending.mem_ofList_id, List.mem_map, List.mem_map]
    constructor
    · rintro ⟨entry, hentry, rfl⟩
      obtain ⟨number, variant, hvariant, rfl⟩ := (mem_networks h.distinct).mp hentry
      exact ⟨⟨number, variant.name⟩, mem_infos_iff.mpr (nameAt_of_variant? hvariant), rfl⟩
    · rintro ⟨info, hinfo, rfl⟩
      obtain ⟨variant, hvariant, hname⟩ := Option.map_eq_some_iff.mp (mem_infos_iff.mp hinfo)
      exact ⟨⟨variant.name, variant.network⟩,
        (mem_networks h.distinct).mpr ⟨_, variant, hvariant, rfl⟩, hname⟩
  rw [catalogue, hnames]

/-! ### All deeds -/

/-- A command does what it does in the catalogue. -/
theorem Sound.perform (h : alone.Sound) (command : Command)
    (hroom : ∃ number, (alone.perform command).2.store.nameAt number = none) :
    Follows (alone.perform command) (alone.catalogue.perform command) := by
  obtain ⟨store, context⟩ := alone
  cases command with
  | clone source targets overwrite =>
    have hcloning := cloning_clone registry source targets overwrite context store
    rw [Alone.perform, Command.session, run_start_map, transcript_start_map] at hroom ⊢
    exact hcloning.refines h hroom
  | remove name =>
    have hremoval := removal_remove registry name context store
    rw [Alone.perform, Command.session, run_start_map, transcript_start_map]
    exact hremoval.refines h
  | work name => exact h.work name
  | workingName => exact h.workingName
  | names => exact h.names

/-- An alteration does what it does in the catalogue. -/
theorem Sound.alter (h : alone.Sound) (name : String) (alteration : Alteration) :
    Follows (alone.alter name alteration) (alone.catalogue.alter name alteration) := by
  obtain ⟨store, context⟩ := alone
  rw [Alone.alter, Catalogue.alter]
  cases hname : numberOf name store.infos with
  | error fault =>
    obtain ⟨hfind, rfl⟩ := numberOf_eq_error_iff.mp hname
    rw [h.network?_eq_none ((exact_infos store).of_find?_none hfind)]
    exact ⟨rfl, h⟩
  | ok number =>
    obtain ⟨network, hheld⟩ := (exact_infos store).of_numberOf hname
    rw [h.network? hheld]
    dsimp only
    rw [Alteration.apply_on]
    cases alteration.change with
    | error fault => exact ⟨rfl, h⟩
    | ok change =>
      dsimp only
      have hgeneration : (catalogue ⟨store, context⟩).lastGeneration = store.lastGeneration := rfl
      rw [write_of_variant? hheld, hgeneration]
      cases change (store.lastGeneration + 1) network with
      | error fault => exact ⟨rfl, h.distinct, h.present⟩
      | ok changed =>
        obtain ⟨hsound, hcatalogue⟩ := h.rewrite hheld changed
        exact ⟨congrArg (Prod.mk (⟨.ok .done, []⟩ : Seen)) hcatalogue.symm, hsound⟩

theorem Sound.step (h : alone.Sound) (deed : Deed)
    (hroom : ∃ number, (alone.step deed).2.store.nameAt number = none) :
    Follows (alone.step deed) (alone.catalogue.step deed) := by
  cases deed with
  | command command => exact h.perform command hroom
  | alter name alteration => exact h.alter name alteration

theorem sound_new : new.Sound where
  distinct := namesDistinct_new
  present := by
    rintro number ⟨⟩
    change Store.new.nameAt initialVariantNumber ≠ none
    rw [nameAt_new, if_pos rfl]
    nofun

theorem catalogue_new : new.catalogue = .new := rfl

/-- A store with fewer variants than there are numbers has a number left. -/
theorem exists_nameAt_eq_none (h : store.variants.size < UInt32.size) :
    ∃ number, store.nameAt number = none := by
  have hcard := (card_numbers_le store.infos).trans_lt
    ((List.length_map Variant.info).trans_lt h)
  obtain ⟨number, hunused⟩ := exists_unused hcard
  rw [(exact_infos store).mem_numbers] at hunused
  exact ⟨number, not_not.mp hunused⟩

theorem Sound.runAll (h : alone.Sound) (deeds : List Deed)
    (hroom : ∀ past, past <+: deeds →
      (Deed.runAll Alone.step alone past).2.store.variants.size < 2 ^ 32 - 1) :
    Deed.runAll Catalogue.step alone.catalogue deeds =
      ((Deed.runAll Alone.step alone deeds).1,
        (Deed.runAll Alone.step alone deeds).2.catalogue) := by
  induction deeds generalizing alone with
  | nil => rfl
  | cons deed deeds ih =>
    have hnext : (alone.step deed).2.store.variants.size < 2 ^ 32 - 1 :=
      hroom [deed] (List.prefix_append [deed] deeds)
    obtain ⟨hstep, hsound⟩ := h.step deed (exists_nameAt_eq_none (hnext.trans (by decide)))
    rw [Deed.runAll, Deed.runAll, hstep]
    dsimp only
    -- what has room after some of the later deeds has it after the first deed and these
    have hlater : ∀ past, past <+: deeds →
        (Deed.runAll Alone.step (alone.step deed).2 past).2.store.variants.size < 2 ^ 32 - 1 :=
      fun past hpast => hroom (deed :: past) (List.cons_prefix_cons.mpr ⟨rfl, hpast⟩)
    rw [ih hsound hlater]

/-- A session that nobody else interferes with, and its store, do what a catalogue does: whatever
commands are given and whichever variants are altered in between, the same is answered and told,
and in the end the variants have the same names and networks and the same one is worked on. -/
theorem alone_is_a_catalogue (deeds : List Deed)
    (hroom : ∀ past, past <+: deeds →
      (Deed.runAll Alone.step .new past).2.store.variants.size < 2 ^ 32 - 1) :
    (Deed.runAll Alone.step .new deeds).1 = (Deed.runAll Catalogue.step .new deeds).1 ∧
      (Deed.runAll Alone.step .new deeds).2.catalogue =
        (Deed.runAll Catalogue.step .new deeds).2 := by
  have hrun := sound_new.runAll deeds hroom
  rw [catalogue_new] at hrun
  rw [hrun]
  exact ⟨rfl, rfl⟩

/-- Two variants are made, and the first is worked on. The second gets a level and is cloned over
the first and over the initial variant, which is refused. Then it is removed. -/
def reworked : List Deed :=
  [.command (.clone "InitialVariant" ["first", "second"] false), .command (.work "first"),
    .alter "second" (.addLevel ⟨"level", .voltageLevel, ⟨.nodeBreaker, false, 0⟩⟩),
    .command (.clone "second" ["first", "InitialVariant"] true), .command .workingName,
    .command (.remove "second"), .command .names]

/-- The session still works on the first variant, which is now a copy of the second: it holds the
level, with a generation of its own. -/
theorem alone_is_a_catalogue_reworked :
    (∀ past, past <+: reworked →
      (Deed.runAll Alone.step .new past).2.store.variants.size < 2 ^ 32 - 1) ∧
    (Deed.runAll Alone.step .new reworked).1 = (Deed.runAll Catalogue.step .new reworked).1 ∧
    (Deed.runAll Alone.step .new reworked).2.catalogue =
      (Deed.runAll Catalogue.step .new reworked).2 ∧
    (Deed.runAll Alone.step .new reworked).1.map (·.events) =
      [[.created "InitialVariant" "first", .created "InitialVariant" "second"], [], [],
        [.overwritten "second" "first"], [], [.removed "second"], []] ∧
    (Deed.runAll Catalogue.step .new reworked).2.working = some "first" ∧
    ((Deed.runAll Alone.step .new reworked).2.catalogue.network? "first").bind (·.level? "level") =
      some ⟨"level", .voltageLevel, ⟨.nodeBreaker, false, 4⟩⟩ := by
  have hroom : ∀ past, past <+: reworked →
      (Deed.runAll Alone.step .new past).2.store.variants.size < 2 ^ 32 - 1 := by
    have hpasts : ∀ past ∈ reworked.inits,
        (Deed.runAll Alone.step .new past).2.store.variants.size < 2 ^ 32 - 1 := by decide
    exact fun past hpast => hpasts past ((List.mem_inits past reworked).mpr hpast)
  obtain ⟨hseen, hcatalogue⟩ := alone_is_a_catalogue reworked hroom
  exact ⟨hroom, hseen, hcatalogue, rfl, rfl, rfl⟩

end Alone

end Switchyard
