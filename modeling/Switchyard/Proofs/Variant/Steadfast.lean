import Switchyard.Proofs.Variant.Additions

/-!
A session that clones does not come to work on another variant.

A context gives its working variant by number only. When a session overwrites the variant it works
on, the number is free for a while, other sessions may take it for a variant of their own, and the
replacement may come to stand elsewhere. As long as other sessions delete nothing, what is listed
stays as it is listed, so the session knows when it deletes its own working variant: it works on
none until the clone of the same name is granted, and on that clone from then on. What carries over
from round to round is that the context gives a number which has the name (`WorksOn`), and a round
loses the variant only if it deletes it and is granted no clone afterwards (`Forfeits`).
-/

namespace Switchyard

/-! ### Others that delete nothing -/

namespace Store

variable {store : Store}

theorem NamesDistinct.run (h : store.NamesDistinct) (operations : List Operation) :
    (store.run operations).NamesDistinct := by
  induction operations generalizing store with
  | nil => exact h
  | cons operation operations ih => exact ih (h.after operation)

/-- Operations that delete nothing free no number. -/
theorem freedBy_eq_nil {operations : List Operation}
    (h : ∀ number, .delete number ∉ operations) : store.freedBy operations = [] := by
  induction operations generalizing store with
  | nil => rfl
  | cons operation operations ih =>
    have hnone : store.frees operation = none := by
      cases operation with
      | delete number => exact absurd List.mem_cons_self (h number)
      | _ => rfl
    rw [freedBy, hnone, ih fun number hlater => h number (List.mem_cons_of_mem _ hlater)]
    rfl

end Store

namespace Contested

open Store

variable {state last : Contested} {number : UInt32} {name : String}

/-- Other sessions have freed no number and are about to free none, and no two variants have one
name. -/
structure Spared (state : Contested) : Prop where
  pending : ∀ operations ∈ state.pending, ∀ number, .delete number ∉ operations
  freed : state.freed = []
  distinct : state.store.NamesDistinct

theorem Spared.interrupted (h : state.Spared) : state.interrupted.Spared where
  pending operations hlater := h.pending operations (List.mem_of_mem_tail hlater)
  freed := by
    have hnext : ∀ number, .delete number ∉ state.pending.headD [] := by
      cases hpending : state.pending with
      | nil => exact fun _ => List.not_mem_nil
      | cons operations later => exact h.pending operations (hpending ▸ List.mem_cons_self)
    change state.freed ++ state.store.freedBy _ = []
    rw [h.freed, freedBy_eq_nil hnext, List.append_nil]
  distinct := h.distinct.run _

theorem Spared.answered (h : state.Spared) {query : RegistryQuery}
    {answer : Except Fault query.Answer} (hanswer : contested.answer query state = (answer, last)) :
    last.Spared := by
  cases hanswer
  exact Spared.interrupted ⟨h.pending, h.freed, h.distinct.answerRegistry query⟩

/-- What is vouched for has its name. -/
theorem Spared.nameAt (h : state.Spared) (hvouched : state.Vouched number name) :
    state.store.nameAt number = some name :=
  hvouched.resolve_right fun hfreed => by
    rw [h.freed] at hfreed
    exact List.not_mem_nil hfreed

end Contested

namespace Managing

open Dialogue Session VariantInfo Store

/-! ### The working variant, from round to round -/

/-- The context gives the number of the variant with the name. -/
structure WorksOn (name : String) (context : Context) (state : Contested) : Prop where
  spared : state.Spared
  working : ∃ number, context = .workingOn number ∧ state.Vouched number name

/-- The variant with the name is deleted, a clone under that name is asked for next, and no clone is
granted. -/
def Forfeits (name : String) (said : Said Contested) : Prop :=
  ∃ before number state after,
    said = before ++ .question (.delete number) state :: after ∧
    state.store.nameAt number = some name ∧
    (contested.answer (.delete number) state).1 = .ok () ∧
    (∃ sourceNumber newNumber next later,
      after = .question (.clone sourceNumber newNumber name) next :: later) ∧
    clonesIn contested after = []

theorem Forfeits.widen {name : String} {said : Said Contested} (h : Forfeits name said)
    (earlier : Said Contested) : Forfeits name (earlier ++ said) := by
  obtain ⟨before, number, state, after, rfl, hforfeit⟩ := h
  exact ⟨earlier ++ before, number, state, after, (List.append_assoc ..).symm, hforfeit⟩

/-- The session keeps its working variant, or it fails and has forfeited it. -/
def KeepsOrForfeits {α : Type} (name : String) (result : Except Fault α) (context : Context)
    (state : Contested) (said : Said Contested) : Prop :=
  WorksOn name context state ∨
    context = .unset ∧ (∃ fault, result = .error fault) ∧ Forfeits name said

section Steadfast

variable {source target name : String} {targets : List String} {sourceNumber : UInt32}
  {overwrite : Bool} {infos : List VariantInfo} {context context' : Context}
  {state last : Contested} {said : Said Contested}

/-- Attempts to clone, and questions other than deletions, leave the session at its variant. -/
theorem lasting_worksOn (name : String) (context : Context) :
    Lasting contested (WorksOn name context) := fun _ _ _ _ hanswer hquery h => by
  obtain ⟨number, hcontext, hnumber⟩ := h.working
  exact ⟨h.spared.answered hanswer, number, hcontext, hnumber.answered hanswer (hquery number)⟩

/-- The deletion of what the session does not work on leaves it at its variant. -/
theorem WorksOn.deleted (h : WorksOn name context state) {number : UInt32}
    {answer : Except Fault Unit}
    (hdelete : contested.answer (.delete number) state = (answer, last))
    (hother : ¬context.isWorkingOn number = true) : WorksOn name context last := by
  obtain ⟨kept, rfl, hkept⟩ := h.working
  refine ⟨h.spared.answered hdelete, kept, rfl, hkept.answered hdelete fun hsame => hother ?_⟩
  cases hsame
  simp [Context.isWorkingOn, Context.workingOn]

/-- A listed variant that the session works on is the one with the name. -/
theorem WorksOn.name_eq (h : WorksOn name context state) (hinfos : state.Vouches infos)
    {info : VariantInfo} (hinfo : info ∈ infos)
    (hworking : context.isWorkingOn info.number = true) :
    state.store.nameAt info.number = some name ∧ info.name = name := by
  obtain ⟨number, rfl, hnumber⟩ := h.working
  obtain rfl : number = info.number := by
    simpa [Context.isWorkingOn, Context.workingOn] using hworking
  have hname := h.spared.nameAt hnumber
  refine ⟨hname, Option.some.inj ?_⟩
  rw [← hname, h.spared.nameAt (hinfos info hinfo)]

theorem Round.keepsOrForfeits {result : Except Fault (List VariantInfo)}
    (hround : Round contested source sourceNumber overwrite target infos context state result
      context' last said)
    (hinfos : state.Vouches infos) (h : WorksOn name context state) :
    KeepsOrForfeits name result context' last said := by
  cases hround with
  | created _ hattempts | uncreated _ hattempts =>
    exact .inl (hattempts.keeps (lasting_worksOn name context) h)
  | kept | itself | guarded => exact .inl h
  | @undeleted existing _ _ hfound _ _ _ hdelete =>
    -- a refused deletion names a number without variant, so it is not the working one
    have hfree := Contested.variant?_undeleted hdelete
    refine .inl (h.deleted hdelete fun hworking => ?_)
    have hname := (h.name_eq hinfos (of_find? hfound).1 hworking).1
    rw [nameAt, hfree] at hname
    cases hname
  | @overwritten existing _ _ number _ _ hfound _ _ _ hdelete hattempts =>
    by_cases hworking : context.isWorkingOn existing.number = true
    · obtain ⟨_, rfl⟩ := h.name_eq hinfos (of_find? hfound).1 hworking
      obtain ⟨_, _, _, hclone, hspared⟩ := hattempts.last_clone
        (fun _ _ _ _ hanswer _ hspared => hspared.answered hanswer) (h.spared.answered hdelete)
      have hnumber := Contested.vouched_cloned hclone
      rw [if_pos hworking, (of_find? hfound).2]
      exact .inl ⟨hspared.answered hclone, number, rfl, hnumber⟩
    · rw [if_neg hworking]
      exact .inl (hattempts.keeps (lasting_worksOn name context) (h.deleted hdelete hworking))
  | @lost existing fault _ _ _ hfound _ _ _ hdelete hattempts =>
    by_cases hworking : context.isWorkingOn existing.number = true
    · obtain ⟨hheld, rfl⟩ := h.name_eq hinfos (of_find? hfound).1 hworking
      rw [if_pos hworking]
      refine .inr ⟨rfl, ⟨fault, rfl⟩, [], existing.number, state, _, rfl, hheld, ?_, ?_, ?_⟩
      · rw [hdelete]
      · obtain ⟨newNumber, later, rfl⟩ := hattempts.first
        rw [(of_find? hfound).2]
        exact ⟨sourceNumber, newNumber, _, later, rfl⟩
      · exact hattempts.clonesIn.1
    · rw [if_neg hworking]
      exact .inl (hattempts.keeps (lasting_worksOn name context) (h.deleted hdelete hworking))

theorem Rounds.keepsOrForfeits {result : Except Fault (List VariantInfo)}
    (hrounds : Rounds contested source sourceNumber overwrite targets infos context state result
      context' last said)
    (hsource : state.Vouched sourceNumber source) (hinfos : state.Vouches infos)
    (h : WorksOn name context state) : KeepsOrForfeits name result context' last said := by
  induction hrounds with
  | finished => exact .inl h
  | failed hround => exact hround.keepsOrForfeits hinfos h
  | next hround _ ih =>
    obtain ⟨hsource', hlisted, _⟩ :=
      faithful_round hround hsource hinfos (List.mem_singleton_self _)
    rcases hround.keepsOrForfeits hinfos h with hkept | ⟨_, ⟨_, hfailed⟩, _⟩
    · refine (ih hsource' (hlisted _ rfl) hkept).imp_right fun ⟨hunset, hfault, hforfeits⟩ => ?_
      exact ⟨hunset, hfault, hforfeits.widen _⟩
    · cases hfailed

theorem Cloning.keepsOrForfeits {result : Except Fault Unit}
    (hcloning : Cloning contested source targets overwrite context state result context' last said)
    (h : WorksOn name context state) : KeepsOrForfeits name result context' last said := by
  cases hcloning with
  | untargeted => exact .inl h
  | unlisted _ hlist | unknown _ hlist => exact .inl (lasting_worksOn name context hlist nofun h)
  | went _ hlist hsource hrounds =>
    obtain ⟨info, hfind, rfl⟩ := numberOf_eq_ok_iff.mp hsource
    obtain ⟨hlisted, rfl⟩ := of_find? hfind
    have hinfos := Contested.vouches_listed hlist
    have hstart := lasting_worksOn name context hlist nofun h
    rcases hrounds.keepsOrForfeits (hinfos info hlisted) hinfos hstart with
      hkept | ⟨hunset, ⟨fault, rfl⟩, hforfeits⟩
    · exact .inl hkept
    · exact .inr ⟨hunset, ⟨fault, rfl⟩, hforfeits.widen [_]⟩

end Steadfast

/-- A session works on a variant and clones anything, over that variant or not, while other sessions
do what they like but delete nothing. Afterwards it works on the variant of the same name, wherever
that stands now; or it has failed, has deleted that variant, has not been granted the clone that was
to replace it, and works on none. -/
theorem clone_keeps_working_variant (history : List Operation) (pending : List (List Operation))
    (number : UInt32) (name source : String) (targets : List String) (overwrite : Bool)
    (hothers : ∀ operations ∈ pending, ∀ number, .delete number ∉ operations)
    (hname : (Store.new.run history).nameAt number = some name) :
    let session := (clone source targets overwrite).start (.workingOn number)
    let start : Contested := ⟨Store.new.run history, pending, []⟩
    let result := (session.run contested start).1.1
    let context := (session.run contested start).1.2
    let last := (session.run contested start).2
    (∃ kept, context = .workingOn kept ∧
      ∀ other, last.store.nameAt other = some name ↔ other = kept) ∨
    (context = .unset ∧ (∃ fault, result = .error fault) ∧
      Forfeits name (session.transcript contested start)) := by
  intro session start result context last
  have hstart : WorksOn name (.workingOn number) start :=
    ⟨⟨hothers, rfl, namesDistinct_new.run history⟩, number, rfl, .inl hname⟩
  have hcloning := cloning_clone contested source targets overwrite (.workingOn number) start
  refine (hcloning.keepsOrForfeits hstart).imp_left fun ⟨hspared, kept, hcontext, hkept⟩ => ?_
  have hkept := hspared.nameAt hkept
  refine ⟨kept, hcontext, fun other => ⟨fun hother => ?_, fun hsame => hsame ▸ hkept⟩⟩
  exact hspared.distinct other kept name hother hkept

/-- Another session takes the number as soon as it is free. -/
def numberTaken : List (List Operation) := [[], [.clone 0 1 "other"]]

/-- Another session takes the name as soon as it is free. -/
def nameTaken : List (List Operation) := [[], [.clone 0 2 "mine"]]

/-- If the number is taken, the replacement stands elsewhere and the session works on it; if the
name is taken, there is no replacement. -/
theorem clone_keeps_working_variant_raced :
    let session := (clone initialVariantName ["mine"] true).start (.workingOn 1)
    let start := fun pending => (⟨Store.new.run [.clone 0 1 "mine"], pending, []⟩ : Contested)
    ((session.run contested (start numberTaken)).1 = (.ok (), .workingOn 2) ∧
      ∀ other, (session.run contested (start numberTaken)).2.store.nameAt other = some "mine" ↔
        other = 2) ∧
    (session.run contested (start nameTaken)).1.2 = .unset ∧
    Forfeits "mine" (session.transcript contested (start nameTaken)) := by
  intro session start
  have hfound : (session.run contested (start numberTaken)).1 = (.ok (), .workingOn 2) := by rfl
  have hlost : (session.run contested (start nameTaken)).1.2 = .unset := by rfl
  refine ⟨⟨hfound, ?_⟩, hlost, ?_⟩
  · rcases clone_keeps_working_variant [.clone 0 1 "mine"] numberTaken 1 "mine"
      initialVariantName ["mine"] true (by simp [numberTaken]) rfl with
      ⟨kept, hcontext, hkept⟩ | ⟨hunset, _⟩
    · rw [hfound] at hcontext
      obtain rfl : 2 = kept := Option.some.inj (congrArg Context.working hcontext)
      exact hkept
    · rw [hfound] at hunset
      cases hunset
  · rcases clone_keeps_working_variant [.clone 0 1 "mine"] nameTaken 1 "mine"
      initialVariantName ["mine"] true (by simp [nameTaken]) rfl with
      ⟨kept, hcontext, _⟩ | ⟨_, _, hforfeits⟩
    · rw [hlost] at hcontext
      cases hcontext
    · exact hforfeits

end Managing

end Switchyard
