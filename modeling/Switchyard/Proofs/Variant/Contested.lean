import Switchyard.Proofs.Store.Generations
import Switchyard.Proofs.Store.Names
import Switchyard.Proofs.Variant.Listing
import Switchyard.Proofs.Variant.Rounds

/-!
A session that manages variants while other sessions change the store.

After each answer, other sessions carry out any operations they like. The session looks a name up in
a list that it has read, and from then on uses the number; the store is never asked whether the
number still has the name. What is kept along the session is that a listed number has its name or
was freed by another session since (`Vouched`). So a deletion takes away the variant it is meant for
(`deletes_what_is_listed`), and an event tells of a copy of the named source
(`copies_what_is_listed`), as long as nobody else freed the number. If somebody did, the number may
have been given to a variant of any other name, which is then deleted or copied in its place.
-/

namespace Switchyard

/-! ### Numbers freed by others -/

namespace Store

variable {store : Store} {number : UInt32} {name : String}

/-- The number that an operation frees, if it does. -/
def frees (store : Store) : Operation → Option UInt32
  | .delete number => if store.variants.hasKey number then some number else none
  | _ => none

/-- The numbers that operations free, carried out one after the other. -/
def freedBy (store : Store) : List Operation → List UInt32
  | [] => []
  | operation :: operations =>
    (store.frees operation).toList ++ (store.after operation).freedBy operations

/-- A number keeps its name until it is freed. -/
theorem nameAt_run_or_freed (h : store.nameAt number = some name) (operations : List Operation) :
    (store.run operations).nameAt number = some name ∨ number ∈ store.freedBy operations := by
  induction operations generalizing store with
  | nil => exact .inl h
  | cons operation operations ih =>
    rw [run_cons, freedBy, List.mem_append]
    rcases nameAt_after store operation number with hsame | ⟨_, _, _, hfree, _⟩ | ⟨rfl, _⟩
    · exact (ih (hsame.trans h)).imp_right .inr
    · rw [h] at hfree
      cases hfree
    · have hheld : store.variants.hasKey number = true := by
        obtain ⟨variant, hvariant, _⟩ := Option.map_eq_some_iff.mp h
        rw [variant?] at hvariant
        rw [Ascending.hasKey_eq_isSome, hvariant, Option.isSome_some]
      exact .inr (.inl (by simp [frees, hheld]))

/-- A question other than its deletion leaves a number its name. -/
theorem nameAt_answerRegistry (h : store.nameAt number = some name) {query : RegistryQuery}
    (hquery : query ≠ .delete number) :
    (store.answerRegistry query).2.nameAt number = some name := by
  have hafter : ∀ operation : Operation, operation ≠ .delete number →
      (store.after operation).nameAt number = some name := by
    intro operation hoperation
    rcases nameAt_after store operation number with hsame | ⟨_, _, _, hfree, _⟩ | ⟨hdelete, _⟩
    · rw [hsame, h]
    · rw [h] at hfree
      cases hfree
    · exact absurd hdelete hoperation
  cases query with
  | list => exact h
  | clone source target given => exact hafter (.clone source target given) nofun
  | delete other => exact hafter (.delete other) fun hsame => hquery (by cases hsame; rfl)

end Store

/-- A store, what other sessions do to it after each of the next answers, and the numbers that they
have freed so far. -/
structure Contested where
  store : Store
  pending : List (List Operation)
  freed : List UInt32 := []

namespace Contested

variable {state : Contested} {number : UInt32} {name : String}

/-- The store when other sessions have had their turn. -/
def interrupted (state : Contested) : Contested :=
  let operations := state.pending.headD []
  { store := state.store.run operations, pending := state.pending.tail,
    freed := state.freed ++ state.store.freedBy operations }

/-- Answers a question, before other sessions have their turn. -/
def answer (query : RegistryQuery) (state : Contested) : Except Fault query.Answer × Contested :=
  let (answer, store) := state.store.answerRegistry query
  (answer, { state with store }.interrupted)

/-- The number has the name, or other sessions have freed it. -/
def Vouched (state : Contested) (number : UInt32) (name : String) : Prop :=
  state.store.nameAt number = some name ∨ number ∈ state.freed

/-- All that is listed is vouched for. -/
def Vouches (state : Contested) (infos : List VariantInfo) : Prop :=
  ∀ info ∈ infos, state.Vouched info.number info.name

theorem Vouched.interrupted (h : state.Vouched number name) :
    state.interrupted.Vouched number name := by
  rcases h with hname | hfreed
  · exact (Store.nameAt_run_or_freed hname _).imp_right (List.mem_append_right _)
  · exact .inr (List.mem_append_left _ hfreed)

/-- What is vouched for and found there has the name, unless its number was freed. -/
theorem Vouched.name_eq (h : state.Vouched number name) {variant : Variant}
    (hvariant : state.store.variant? number = some variant) :
    variant.name = name ∨ number ∈ state.freed := by
  refine h.imp_left fun hname => ?_
  rw [Store.nameAt_of_variant? hvariant] at hname
  exact Option.some.inj hname

end Contested

/-- A store that others change, as a registry. -/
def Store.contested : Server registryProtocol Contested :=
  ⟨Contested.answer, fun _ state => state⟩

namespace Contested

open Store

variable {state last : Contested} {number : UInt32} {name : String} {infos : List VariantInfo}

/-- What is vouched for stays so through all but its own deletion. -/
theorem Vouched.answered (h : state.Vouched number name) {query : RegistryQuery}
    {answer : Except Fault query.Answer} (hanswer : contested.answer query state = (answer, last))
    (hquery : query ≠ .delete number) : last.Vouched number name := by
  cases hanswer
  exact Vouched.interrupted (h.imp_left (nameAt_answerRegistry · hquery))

theorem Vouches.answered (h : state.Vouches infos) {query : RegistryQuery}
    {answer : Except Fault query.Answer} (hanswer : contested.answer query state = (answer, last))
    (hquery : ∀ info ∈ infos, query ≠ .delete info.number) : last.Vouches infos :=
  fun info hinfo => (h info hinfo).answered hanswer (hquery info hinfo)

/-- After a deletion, what is listed under other numbers is vouched for. -/
theorem Vouches.deleted (h : state.Vouches infos) {answer : Except Fault Unit}
    (hdelete : contested.answer (.delete number) state = (answer, last)) :
    last.Vouches (infos.filter (·.number ≠ number)) := by
  intro info hinfo
  obtain ⟨hlisted, hother⟩ := List.mem_filter.mp hinfo
  refine (h info hlisted).answered hdelete fun hsame => ?_
  cases hsame
  exact absurd hother (by simp)

/-- A deletion is refused only where there is nothing to delete. -/
theorem variant?_undeleted {fault : Fault}
    (h : contested.answer (.delete number) state = (.error fault, last)) :
    state.store.variant? number = none := by
  have hanswer : (state.store.apply (.delete number)).1 = .error fault := congrArg Prod.fst h
  rcases apply_delete_cases state.store number with ⟨hnone, _⟩ | ⟨_, _, hdeleted⟩
  · exact hnone
  · rw [hdeleted] at hanswer
    cases hanswer

theorem vouches_listed {refresh : Bool}
    (h : contested.answer (.list refresh) state = (.ok infos, last)) : last.Vouches infos := by
  cases h
  exact fun info hinfo => Vouched.interrupted (.inl (mem_infos_iff.mp hinfo))

/-- A granted clone puts the copy where and how it was asked to. -/
theorem variant?_cloned {source target : UInt32}
    (h : contested.answer (.clone source target name) state = (.ok (), last)) :
    ∃ copied, state.store.variant? source = some copied ∧
      (state.store.after (.clone source target name)).variant? target =
        some ⟨target, name, copied.network.touchAll (state.store.lastGeneration + 1)⟩ := by
  have hanswer : (state.store.apply (.clone source target name)).1 = .ok () := congrArg Prod.fst h
  rcases apply_clone_cases state.store source target name with
    ⟨_, hrefused, _⟩ | ⟨copied, hcopied, _, _, hcloned⟩
  · rw [hrefused] at hanswer
    cases hanswer
  · refine ⟨copied, hcopied, ?_⟩
    rw [after, hcloned, variant?_enter, if_pos rfl]

/-- A granted clone has the name that it was given. -/
theorem vouched_cloned {source : UInt32}
    (hclone : contested.answer (.clone source number name) state = (.ok (), last)) :
    last.Vouched number name := by
  obtain ⟨copied, _, hafter⟩ := variant?_cloned hclone
  rw [show last = _ from (congrArg Prod.snd hclone).symm]
  exact Vouched.interrupted (.inl (nameAt_of_variant? hafter))

/-- A granted clone joins what is vouched for. -/
theorem Vouches.cloned {source target : UInt32} (h : state.Vouches infos)
    (hclone : contested.answer (.clone source target name) state = (.ok (), last)) :
    last.Vouches (infos ++ [⟨target, name⟩]) := by
  intro info hinfo
  rcases List.mem_append.mp hinfo with hold | hnew
  · exact h.answered hclone (fun _ _ => nofun) info hold
  · obtain rfl := List.mem_singleton.mp hnew
    exact vouched_cloned hclone

end Contested

namespace Managing

open Dialogue Session VariantInfo Store

/-! ### What attempts say -/

section Attempts

variable {σ : Type} {server : Server registryProtocol σ} {source number : UInt32} {name : String}
  {attempts : Nat} {infos listed : List VariantInfo} {state last : σ} {said : Said σ}
  {result : Except Fault (UInt32 × List VariantInfo)}

/-- Attempts begin with a clone. -/
theorem Attempts.first (h : Attempts server source name attempts infos state result last said) :
    ∃ number later, said = .question (.clone source number name) state :: later := by
  cases h <;> exact ⟨_, _, rfl⟩

/-- Attempts are clones and lists. -/
theorem Attempts.asks (h : Attempts server source name attempts infos state result last said) :
    ∀ exchange ∈ said, ∃ asked, (∃ number, exchange = .question (.clone source number name) asked) ∨
      exchange = .question (.list true) asked := by
  induction h with
  | cloned | refused | exhausted => simp
  | unlisted => simp
  | again _ _ _ _ ih => simpa using ih

/-- No answer takes `inv` away, except perhaps to a deletion. -/
def Lasting (server : Server registryProtocol σ) (inv : σ → Prop) : Prop :=
  ∀ ⦃query : RegistryQuery⦄ ⦃state after : σ⦄ ⦃answer : Except Fault query.Answer⦄,
    server.answer query state = (answer, after) → (∀ number, query ≠ .delete number) →
    inv state → inv after

theorem Attempts.keeps {inv : σ → Prop} (hinv : Lasting server inv)
    (h : Attempts server source name attempts infos state result last said) (hstate : inv state) :
    inv last := by
  induction h with
  | cloned hclone | refused hclone | exhausted hclone => exact hinv hclone nofun hstate
  | unlisted hclone _ hlist => exact hinv hlist nofun (hinv hclone nofun hstate)
  | again hclone _ hlist _ ih => exact ih (hinv hlist nofun (hinv hclone nofun hstate))

/-- Attempts that succeed end with a clone that is granted. -/
theorem Attempts.last_clone {inv : σ → Prop} (hinv : Lasting server inv)
    (h : Attempts server source name attempts infos state (.ok (number, listed)) last said)
    (hstate : inv state) :
    ∃ earlier asked, said = earlier ++ [.question (.clone source number name) asked] ∧
      server.answer (.clone source number name) asked = (.ok (), last) ∧ inv asked := by
  generalize hresult : Except.ok (number, listed) = result at h
  induction h with
  | cloned hclone =>
    cases hresult
    exact ⟨[], _, rfl, hclone, hstate⟩
  | refused | exhausted | unlisted => cases hresult
  | again hclone _ hlist _ ih =>
    obtain ⟨earlier, asked, rfl, hgranted, hasked⟩ :=
      ih (hinv hlist nofun (hinv hclone nofun hstate)) hresult
    exact ⟨_ :: _ :: earlier, asked, rfl, hgranted, hasked⟩

end Attempts

/-! ### Sessions that others interrupt -/

/-- A number is freed so that the clone asked for next can replace a target, and what is deleted
has the target's name, unless others have freed the number before. -/
def Replaces (targets : List String) (number : UInt32) (state : Contested)
    (after : Said Contested) : Prop :=
  ∀ removed, state.store.variant? number = some removed →
    ∃ target ∈ targets, (removed.name = target ∨ number ∈ state.freed) ∧
      ∃ sourceNumber newNumber next later,
        after = .question (.clone sourceNumber newNumber target) next :: later

/-- An event is told of the target of the clone that was granted last, which is now a copy of a
variant with the source's name, unless others have freed the source's number before. -/
def Copies (source : String) (targets : List String) (event : VariantEvent)
    (before : Said Contested) : Prop :=
  ∃ target ∈ targets, (event = .created source target ∨ event = .overwritten source target) ∧
    ∃ earlier sourceNumber number state copied,
      before = earlier ++ [.question (.clone sourceNumber number target) state] ∧
      state.store.variant? sourceNumber = some copied ∧
      (copied.name = source ∨ sourceNumber ∈ state.freed) ∧
      (state.store.after (.clone sourceNumber number target)).variant? number =
        some ⟨number, target, copied.network.touchAll (state.store.lastGeneration + 1)⟩

/-- Deletions replace and events tell of copies. -/
def Faithful (source : String) (targets : List String) (before : Said Contested) :
    Exchange registryProtocol Contested → Said Contested → Prop
  | .question (.delete number) state, after => Replaces targets number state after
  | .question _ _, _ => True
  | .notice event, _ => Copies source targets event before

variable {source target : String} {targets : List String} {sourceNumber : UInt32}
  {overwrite : Bool} {infos listed : List VariantInfo} {context context' : Context}
  {state last : Contested} {said : Said Contested} {result : Except Fault (List VariantInfo)}

/-- What is faithful stays so when more is said before and after it. -/
theorem Faithful.widen {before after : Said Contested}
    {exchange : Exchange registryProtocol Contested}
    (h : Faithful source targets before exchange after) (earlier later : Said Contested) :
    Faithful source targets (earlier ++ before) exchange (after ++ later) := by
  rcases exchange with ⟨_ | _ | number, state⟩ | event
  · trivial
  · trivial
  · intro removed hremoved
    obtain ⟨target, htarget, hname, _, _, _, _, rfl⟩ := h removed hremoved
    exact ⟨target, htarget, hname, _, _, _, _, rfl⟩
  · obtain ⟨target, htarget, hevent, _, _, _, _, _, rfl, hcopied⟩ := h
    exact ⟨target, htarget, hevent, _, _, _, _, _, (List.append_assoc _ _ _).symm, hcopied⟩

theorem faithful_append {later : Said Contested} (h : Throughout (Faithful source targets) said)
    (hlater : Throughout (Faithful source targets) later) :
    Throughout (Faithful source targets) (said ++ later) :=
  .append
    (fun before exchange after hsaid => (h before exchange after hsaid).widen [] later)
    (fun before exchange after hsaid => by
      simpa using (hlater before exchange after hsaid).widen said [])

theorem Attempts.faithful {attempts : Nat} {result : Except Fault (UInt32 × List VariantInfo)}
    (h : Attempts contested sourceNumber target attempts infos state result last said) :
    Throughout (Faithful source targets) said := by
  refine .of_forall fun exchange hexchange before after => ?_
  obtain ⟨_, ⟨_, rfl⟩ | rfl⟩ := h.asks exchange hexchange <;> trivial

/-- The list that attempts leave is vouched for. -/
theorem Attempts.vouches {attempts : Nat} {number : UInt32}
    (h : Attempts contested sourceNumber target attempts infos state (.ok (number, listed)) last
      said) (hinfos : state.Vouches infos) : last.Vouches listed := by
  generalize hresult : Except.ok (number, listed) = result at h
  induction h with
  | cloned hclone =>
    cases hresult
    exact hinfos.cloned hclone
  | refused | exhausted | unlisted => cases hresult
  | again _ _ hlist _ ih => exact ih (Contested.vouches_listed hlist) hresult

/-- Through attempts, a number that is vouched for stays so. -/
theorem lasting_vouched (number : UInt32) (name : String) :
    Lasting contested (·.Vouched number name) :=
  fun _ _ _ _ hanswer hquery h => h.answered hanswer (hquery number)

/-- A clone that attempts end with is a copy of what the source's number holds. -/
theorem Attempts.copies {number : UInt32} {attempts : Nat} {event : VariantEvent}
    (h : Attempts contested sourceNumber target attempts infos state (.ok (number, listed)) last
      said) (hsource : state.Vouched sourceNumber source) (htarget : target ∈ targets)
    (hevent : event = .created source target ∨ event = .overwritten source target) :
    Copies source targets event said := by
  obtain ⟨earlier, asked, rfl, hgranted, hasked⟩ :=
    h.last_clone (lasting_vouched sourceNumber source) hsource
  obtain ⟨copied, hcopied, hafter⟩ := Contested.variant?_cloned hgranted
  exact ⟨target, htarget, hevent, earlier, sourceNumber, number, asked, copied, rfl, hcopied,
    hasked.name_eq hcopied, hafter⟩

/-- Attempts that end in an event. -/
theorem Attempts.faithful_told {number : UInt32} {attempts : Nat} {event : VariantEvent}
    (h : Attempts contested sourceNumber target attempts infos state (.ok (number, listed)) last
      said) (hsource : state.Vouched sourceNumber source) (htarget : target ∈ targets)
    (hevent : event = .created source target ∨ event = .overwritten source target) :
    Throughout (Faithful source targets) (said ++ [.notice event]) := by
  refine .append (fun before exchange after hsaid => ?_) (.single ?_)
  · exact (h.faithful before exchange after hsaid).widen [] [_]
  · rw [List.append_nil]
    exact h.copies hsource htarget hevent

/-- A deletion before the clone that replaces what it deletes. -/
theorem faithful_delete {number newNumber : UInt32} {next : Contested} {later : Said Contested}
    (hnumber : state.Vouched number target) (htarget : target ∈ targets)
    (h : Throughout (Faithful source targets)
      (.question (.clone sourceNumber newNumber target) next :: later)) :
    Throughout (Faithful source targets) (.question (.delete number) state ::
      .question (.clone sourceNumber newNumber target) next :: later) := by
  have hdelete : Throughout (fun before exchange after =>
      Faithful source targets before exchange (after ++
        .question (.clone sourceNumber newNumber target) next :: later))
      [.question (.delete number) state] :=
    .single fun _ hremoved => ⟨target, htarget, hnumber.name_eq hremoved, _, _, _, _, rfl⟩
  exact hdelete.append fun before exchange after hsaid => by
    simpa using (h before exchange after hsaid).widen [.question (.delete number) state] []

theorem faithful_round
    (hround : Round contested source sourceNumber overwrite target infos context state result
      context' last said)
    (hsource : state.Vouched sourceNumber source) (hinfos : state.Vouches infos)
    (htarget : target ∈ targets) :
    last.Vouched sourceNumber source ∧ (∀ listed, result = .ok listed → last.Vouches listed) ∧
      Throughout (Faithful source targets) said := by
  have hlasting := lasting_vouched sourceNumber source
  cases hround with
  | created _ hattempts =>
    have hlast := hattempts.keeps hlasting hsource
    refine ⟨hlast, fun listed hlisted => ?_, hattempts.faithful_told hsource htarget (.inl rfl)⟩
    cases hlisted
    exact hattempts.vouches hinfos
  | uncreated _ hattempts =>
    have hlast := hattempts.keeps hlasting hsource
    exact ⟨hlast, nofun, hattempts.faithful⟩
  | kept | itself | guarded => exact ⟨hsource, nofun, .nil⟩
  | undeleted _ _ hother _ hdelete =>
    refine ⟨hsource.answered hdelete fun hsame => hother (by cases hsame; rfl), nofun,
      .single fun removed hremoved => ?_⟩
    rw [Contested.variant?_undeleted hdelete] at hremoved
    cases hremoved
  | overwritten hfound _ hother _ hdelete hattempts =>
    obtain ⟨hlisted, rfl⟩ := of_find? hfound
    have hkept := hsource.answered hdelete fun hsame => hother (by cases hsame; rfl)
    have hlast := hattempts.keeps hlasting hkept
    refine ⟨hlast, fun listed h => ?_, ?_⟩
    · cases h
      exact hattempts.vouches (hinfos.deleted hdelete)
    · obtain ⟨_, _, rfl⟩ := hattempts.first
      exact faithful_delete (hinfos _ hlisted) htarget
        (hattempts.faithful_told hkept htarget (.inr rfl))
  | lost hfound _ hother _ hdelete hattempts =>
    obtain ⟨hlisted, rfl⟩ := of_find? hfound
    have hkept := hsource.answered hdelete fun hsame => hother (by cases hsame; rfl)
    have hlast := hattempts.keeps hlasting hkept
    refine ⟨hlast, nofun, ?_⟩
    obtain ⟨_, _, rfl⟩ := hattempts.first
    exact faithful_delete (hinfos _ hlisted) htarget hattempts.faithful

theorem faithful_rounds {all : List String}
    (hrounds : Rounds contested source sourceNumber overwrite targets infos context state result
      context' last said)
    (hsource : state.Vouched sourceNumber source) (hinfos : state.Vouches infos)
    (htargets : targets ⊆ all) : Throughout (Faithful source all) said := by
  induction hrounds with
  | finished => exact .nil
  | failed hround =>
    exact (faithful_round hround hsource hinfos (htargets List.mem_cons_self)).2.2
  | next hround _ ih =>
    obtain ⟨hkept, hlisted, hsaid⟩ :=
      faithful_round hround hsource hinfos (htargets List.mem_cons_self)
    exact faithful_append hsaid (ih hkept (hlisted _ rfl) (List.subset_of_cons_subset htargets))

/-- All that is said when a variant is cloned is faithful. -/
theorem Cloning.faithful {result : Except Fault Unit}
    (h : Cloning contested source targets overwrite context state result context' last said) :
    Throughout (Faithful source targets) said := by
  have hlist : ∀ asked, Throughout (Faithful source targets) [.question (.list false) asked] :=
    fun _ => .single trivial
  cases h with
  | untargeted => exact .nil
  | unlisted | unknown => exact hlist _
  | went _ hanswer hsource hrounds =>
    obtain ⟨info, hfind, rfl⟩ := numberOf_eq_ok_iff.mp hsource
    obtain ⟨hlisted, rfl⟩ := of_find? hfind
    have hinfos := Contested.vouches_listed hanswer
    exact faithful_append (hlist _)
      (faithful_rounds hrounds (hinfos info hlisted) hinfos (List.Subset.refl _))

/-- What is asked to be deleted when a variant is removed was listed under its name. -/
theorem Removal.vouched {result : Except Fault Unit} {name : String} {number : UInt32}
    {asked : Contested}
    (h : Removal contested name context state result context' last said)
    (hsaid : .question (.delete number) asked ∈ said) : asked.Vouched number name := by
  have hlisted : ∀ {infos number after}, contested.answer (.list false) state = (.ok infos, after) →
      numberOf name infos = .ok number → after.Vouched number name := fun hlist hname => by
    obtain ⟨info, hfind, rfl⟩ := numberOf_eq_ok_iff.mp hname
    obtain ⟨hmem, rfl⟩ := of_find? hfind
    exact Contested.vouches_listed hlist info hmem
  cases h with
  | unlisted | guarded | unknown => simp at hsaid
  | undeleted hlist _ hname | removed hlist _ hname =>
    obtain ⟨hnumber, rfl⟩ : number = _ ∧ asked = _ := by simpa using hsaid
    cases hnumber
    exact hlisted hlist hname

/-- Whatever other sessions do between two questions: a session that removes a variant or clones
over one deletes the variant of that name, unless another session has freed the number since the
variants were listed. -/
theorem deletes_what_is_listed (store : Store) (pending : List (List Operation))
    (context : Context) :
    (∀ name number state removed,
      .question (.delete number) state ∈
        ((remove name).start context).transcript contested ⟨store, pending, []⟩ →
      state.store.variant? number = some removed →
      removed.name = name ∨ number ∈ state.freed) ∧
    ∀ source targets overwrite before number state after removed,
      ((clone source targets overwrite).start context).transcript contested ⟨store, pending, []⟩ =
        before ++ .question (.delete number) state :: after →
      state.store.variant? number = some removed →
      ∃ target ∈ targets, (removed.name = target ∨ number ∈ state.freed) ∧
        ∃ sourceNumber newNumber next later,
          after = .question (.clone sourceNumber newNumber target) next :: later := by
  constructor
  · intro name number state removed hsaid hremoved
    exact ((removal_remove contested name context _).vouched hsaid).name_eq hremoved
  · intro source targets overwrite before number state after removed hsaid hremoved
    exact (cloning_clone contested source targets overwrite context _).faithful _ _ _ hsaid
      removed hremoved

/-- A new store with one more variant, which has a level. -/
def shared : Store :=
  (Store.new.after (.clone 0 1 "mine")).after
    (.addLevel 1 ⟨"level", .voltageLevel, ⟨.nodeBreaker, false, 0⟩⟩)

/-- Other sessions that make another variant and remove it. -/
def elsewhere : List (List Operation) := [[.clone 0 2 "other"], [.delete 2]]

/-- While others are busy elsewhere, removing a variant and cloning over it delete that variant. -/
theorem deletes_what_is_listed_elsewhere :
    (∃ state removed,
      .question (.delete 1) state ∈
        ((remove "mine").start {}).transcript contested ⟨shared, elsewhere, []⟩ ∧
      state.store.variant? 1 = some removed ∧ state.freed = [] ∧
      (removed.name = "mine" ∨ 1 ∈ state.freed)) ∧
    ∃ before state after removed,
      ((clone "InitialVariant" ["mine"] true).start {}).transcript contested
        ⟨shared, elsewhere, []⟩ = before ++ .question (.delete 1) state :: after ∧
      state.store.variant? 1 = some removed ∧ state.freed = [] ∧
      ∃ target ∈ ["mine"], (removed.name = target ∨ 1 ∈ state.freed) ∧
        ∃ sourceNumber newNumber next later,
          after = .question (.clone sourceNumber newNumber target) next :: later := by
  obtain ⟨hremove, hclone⟩ := deletes_what_is_listed shared elsewhere {}
  refine ⟨⟨_, _, List.mem_cons_of_mem _ List.mem_cons_self, rfl, rfl, ?_⟩,
    ⟨[_], _, _, _, rfl, rfl, rfl, ?_⟩⟩
  · exact hremove "mine" 1 _ _ (List.mem_cons_of_mem _ List.mem_cons_self) rfl
  · exact hclone "InitialVariant" ["mine"] true [_] 1 _ _ _ rfl rfl

/-- After the first answer, another session removes the variant and gives its number away. -/
def reused : List (List Operation) := [[.delete 1, .clone 0 1 "other"]]

/-- The number of a variant to be removed is given away in between: the variant that has it now is
deleted, and the removal of the other is told. -/
theorem remove_deletes_another :
    ∃ state removed,
      ((remove "mine").start {}).transcript contested ⟨shared, reused, []⟩ =
        [.question (.list false) ⟨shared, reused, []⟩, .question (.delete 1) state,
          .notice (.removed "mine")] ∧
      state.store.variant? 1 = some removed ∧ removed.name = "other" ∧
      (contested.answer (.delete 1) state).2.store.variant? 1 = none :=
  ⟨_, _, rfl, rfl, rfl, rfl⟩

/-- Whatever other sessions do between two questions: when a session tells that it has created or
overwritten a target, the clone granted last was given the target's name, and is a copy of the
variant named as the source, unless another session has freed the source's number since the
variants were listed. -/
theorem copies_what_is_listed (store : Store) (pending : List (List Operation))
    (context : Context) (source : String) (targets : List String) (overwrite : Bool)
    (before : Said Contested) (event : VariantEvent) (after : Said Contested)
    (hsaid : ((clone source targets overwrite).start context).transcript contested
      ⟨store, pending, []⟩ = before ++ .notice event :: after) :
    Copies source targets event before :=
  (cloning_clone contested source targets overwrite context _).faithful _ _ _ hsaid

/-- While others are busy elsewhere, the clone is one of the source. -/
theorem copies_what_is_listed_elsewhere :
    ∃ before after,
      ((clone "mine" ["copy"] false).start {}).transcript contested ⟨shared, elsewhere, []⟩ =
        before ++ .notice (.created "mine" "copy") :: after ∧
      Copies "mine" ["copy"] (.created "mine" "copy") before :=
  ⟨[_, _, _, _], _, rfl,
    copies_what_is_listed shared elsewhere {} "mine" ["copy"] false [_, _, _, _] _ _ rfl⟩

/-- The number of a source is given away in between: the variant that has it now is copied, and
the copy has none of the source's levels. -/
theorem clone_copies_another :
    ∃ state copied,
      ((clone "mine" ["copy"] false).start {}).transcript contested ⟨shared, reused, []⟩ =
        [.question (.list false) ⟨shared, reused, []⟩, .question (.clone 1 2 "copy") state,
          .notice (.created "mine" "copy")] ∧
      state.store.variant? 1 = some copied ∧ copied.name = "other" ∧
      ((contested.answer (.clone 1 2 "copy") state).2.store.network 2).map (·.levels) = .ok ∅ ∧
      (shared.network 1).map (·.levels) ≠ .ok ∅ :=
  ⟨_, _, rfl, rfl, rfl, rfl, by decide⟩

end Managing

end Switchyard
