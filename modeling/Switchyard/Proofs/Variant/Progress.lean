import Switchyard.Proofs.Dialogue.Interference
import Switchyard.Proofs.Variant.Journal
import Switchyard.Proofs.Variant.Rounds

/-!
A session that clones while other sessions clone.

All that is asked of the store is kept in a journal, with who asked it and what was granted. A
session picks the lowest number that its list leaves free; if the number is taken by then, another
session must have been granted a clone since the list was read. So each conflict is charged to a
clone of another session, and reading the list again sees to it that no clone is charged twice
(`Underway`). What a call asks for is granted target by target until it is done, or until one target
has met as many conflicts as there are attempts (`among_clone`).
-/

namespace Switchyard

namespace Journal

open VariantInfo Store

variable {session : Nat} {number : UInt32} {targets left : List String} {target : String}
  {infos : List VariantInfo} {conflicts : Nat} {earlier since : List Entry}
  {journal after : Journal} {entry : Entry}

/-- A session is underway that copies the variant with a number to some targets, of which some are
left, and works from a list. What it asked and what was asked since is divided where it read the
list: each of the conflicts that the next target has met is charged to a clone of another session
from before, and whatever is not on the list is due to a clone of another session since. -/
structure Underway (session : Nat) (number : UInt32) (targets left : List String)
    (infos : List VariantInfo) (conflicts : Nat) (earlier since : List Entry)
    (journal : Journal) : Prop where
  log_eq : ∃ before first rest, journal.log = before ++ (earlier ++ since) ∧
    Foreign session before ∧ earlier = first :: rest ∧ first.session = session
  made_eq : targets = clonesOf session journal.log ++ left
  source : journal.store.nameAt number ≠ none
  new : ∀ name ∈ left, ∀ other, journal.store.nameAt other ≠ some name
  listed : ∀ info ∈ infos, journal.store.nameAt info.number = some info.name
  charged : conflicts ≤ (clonesBut session earlier).length ∨ journal.Full
  ungranted : conflicts ≠ 0 → clonesOf session since = []
  covered : clonesBut session since = [] →
    ∀ other, journal.store.nameAt other ≠ none → other ∈ numbers infos

/-- A question that others ask, or one of its own that is granted nothing, leaves a session where it
is. -/
theorem Underway.gains
    (h : Underway session number targets left infos conflicts earlier since journal)
    (hgains : journal.Gains entry after) (hown : entry.session = session → entry.given = none)
    (hother : ∀ name ∈ entry.given, name ∉ left) :
    Underway session number targets left infos conflicts earlier (since ++ [entry]) after := by
  obtain ⟨before, first, rest, hlog, hbefore, hearlier, hfirst⟩ := h.log_eq
  have hnone : clonesOf session [entry] = [] := by
    by_cases hsession : entry.session = session
    · simp [clonesOf, hown hsession]
    · exact clonesOf_foreign fun _ h => by rwa [List.mem_singleton.mp h]
  constructor
  case log_eq =>
    refine ⟨before, first, rest, ?_, hbefore, hearlier, hfirst⟩
    rw [hgains.2, hlog, List.append_assoc, List.append_assoc]
  case made_eq => rw [hgains.2, clonesOf_append, hnone, List.append_nil, ← h.made_eq]
  case source =>
    obtain ⟨name, hname⟩ := Option.ne_none_iff_exists'.mp h.source
    rw [hgains.1.nameAt_eq hname]
    exact Option.some_ne_none name
  case new =>
    intro name hname other hgiven
    rcases hgains.1.nameAt_cases hgiven with hold | hnew
    · exact h.new name hname other hold
    · exact hother name hnew hname
  case listed => exact fun info hinfo => hgains.1.nameAt_eq (h.listed info hinfo)
  case charged => exact h.charged.imp_right hgains.full
  case ungranted =>
    intro hconflicts
    rw [clonesOf_append, h.ungranted hconflicts, hnone, List.append_nil]
  case covered =>
    intro hsince
    obtain ⟨hsince, hentry⟩ := List.append_eq_nil_iff.mp (clonesBut_append.symm.trans hsince)
    -- nothing was granted, so the store is the same
    have hgiven : entry.given = none := by
      by_cases hsession : entry.session = session
      · exact hown hsession
      · cases hgiven : entry.given with
        | none => rfl
        | some name => simp [clonesBut, hsession, hgiven] at hentry
    have hsame := hgains.1
    rw [hgiven] at hsame
    rw [hsame.eq_of_none]
    exact h.covered hsince

theorem Underway.refused
    (h : Underway session number targets left infos conflicts earlier since journal) :
    Underway session number targets left infos conflicts earlier (since ++ [⟨session, none⟩])
      ⟨journal.store, journal.log ++ [⟨session, none⟩]⟩ :=
  h.gains ⟨.nothing, rfl⟩ (fun _ => rfl) nofun

theorem Underway.others
    (h : Underway session number targets left infos conflicts earlier since journal)
    (hothers : Others session targets journal after) :
    ∃ more, Foreign session more ∧
      Underway session number targets left infos conflicts earlier (since ++ more) after := by
  induction hothers with
  | refl => exact ⟨[], nofun, by rwa [List.append_nil]⟩
  | tail _ hstep ih =>
    obtain ⟨more, hmore, hunderway⟩ := ih
    obtain ⟨entry, hgains, hsession, hgiven⟩ := hstep
    refine ⟨more ++ [entry], hmore.concat hsession, ?_⟩
    rw [← List.append_assoc]
    refine hunderway.gains hgains (fun hown => absurd hown hsession) fun name hname hleft =>
      hgiven name hname ?_
    rw [hunderway.made_eq]
    exact List.mem_append_right _ hleft

/-- A conflict is due to a clone of another session since the list was read. -/
theorem Underway.conflict
    (h : Underway session number targets left infos conflicts earlier since journal)
    (htaken : journal.store.nameAt (lowestFree infos) ≠ none) :
    clonesBut session since ≠ [] ∨ journal.Full := by
  by_cases hunused : ∃ other, other ∉ numbers infos
  · exact .inl fun hsince => (lowestFree_spec hunused).1 (h.covered hsince _ htaken)
  · refine .inr fun other => ?_
    obtain ⟨info, hinfo, rfl⟩ := mem_numbers.mp (not_not.mp (not_exists.mp hunused other))
    rw [h.listed info hinfo]
    nofun

/-- A clone that is granted is the next target. -/
theorem Underway.cloned {network : Network}
    (h : Underway session number targets (target :: left) infos conflicts earlier since journal)
    (hnew : target ∉ left) {given : UInt32} (hfree : journal.store.nameAt given = none) :
    Underway session number targets left (infos ++ [⟨given, target⟩]) 0 earlier
      (since ++ [⟨session, some target⟩])
      ⟨journal.store.enter ⟨given, target, network⟩, journal.log ++ [⟨session, some target⟩]⟩ := by
  have hname := nameAt_enter journal.store ⟨given, target, network⟩
  have hkept : ∀ {other name}, journal.store.nameAt other = some name →
      (journal.store.enter ⟨given, target, network⟩).nameAt other = some name := by
    intro other name hother
    rw [hname, if_neg, hother]
    rintro rfl
    rw [hfree] at hother
    cases hother
  obtain ⟨before, first, rest, hlog, hbefore, hearlier, hfirst⟩ := h.log_eq
  constructor
  case log_eq =>
    refine ⟨before, first, rest, ?_, hbefore, hearlier, hfirst⟩
    rw [hlog, List.append_assoc, List.append_assoc]
  case made_eq =>
    rw [clonesOf_append, clonesOf_own, List.append_assoc]
    exact h.made_eq
  case source =>
    obtain ⟨name, hsource⟩ := Option.ne_none_iff_exists'.mp h.source
    rw [hkept hsource]
    nofun
  case new =>
    intro name hleft other hother
    rw [hname] at hother
    split at hother
    · cases hother
      exact hnew hleft
    · exact h.new name (List.mem_cons_of_mem _ hleft) other hother
  case listed =>
    intro info hinfo
    rcases List.mem_append.mp hinfo with hold | hadded
    · exact hkept (h.listed info hold)
    · rw [List.mem_singleton.mp hadded, hname, if_pos rfl]
  case charged => exact .inl (Nat.zero_le _)
  case ungranted => exact fun hzero => absurd rfl hzero
  case covered =>
    intro hsince other hother
    rw [clonesBut_append, clonesBut_own, List.append_nil] at hsince
    rw [mem_numbers]
    by_cases hgiven : given = other
    · exact ⟨_, List.mem_append_right _ (List.mem_singleton_self _), hgiven⟩
    · rw [hname, if_neg hgiven] at hother
      obtain ⟨info, hinfo, hnumber⟩ := mem_numbers.mp (h.covered hsince other hother)
      exact ⟨info, List.mem_append_left _ hinfo, hnumber⟩

/-- Reading the list again: what was asked before can be charged for conflicts. -/
theorem Underway.relisted
    (h : Underway session number targets left infos conflicts earlier since journal)
    (conflicts' : Nat) (hcharged : conflicts' ≤ (clonesBut session (earlier ++ since)).length ∨
      journal.Full) :
    Underway session number targets left journal.store.infos conflicts'
      (earlier ++ since ++ [⟨session, none⟩]) []
      ⟨journal.store, journal.log ++ [⟨session, none⟩]⟩ := by
  obtain ⟨before, first, rest, hlog, hbefore, hearlier, hfirst⟩ := h.log_eq
  constructor
  case log_eq =>
    refine ⟨before, first, rest ++ since ++ [⟨session, none⟩], ?_, hbefore, ?_, hfirst⟩
    · rw [hlog, List.append_nil, List.append_assoc]
    · rw [hearlier, List.cons_append, List.cons_append]
  case made_eq =>
    rw [clonesOf_append, clonesOf_own, Option.toList_none, List.append_nil]
    exact h.made_eq
  case source => exact h.source
  case new => exact h.new
  case listed => exact fun info hinfo => mem_infos_iff.mp hinfo
  case charged =>
    rw [clonesBut_append, clonesBut_own, List.append_nil]
    exact hcharged
  case ungranted => exact fun _ => rfl
  case covered => exact fun _ other hother => (exact_infos _).mem_numbers.mpr hother

theorem Underway.next_mem
    (h : Underway session number targets (target :: left) infos conflicts earlier since journal) :
    target ∈ targets := by
  rw [h.made_eq]
  exact List.mem_append_right _ List.mem_cons_self

/-- The next clone that a session asks for meets a conflict or is granted. -/
theorem Underway.clone_cases
    (h : Underway session number targets (target :: left) infos conflicts earlier since journal)
    (hnew : target ∉ left) :
    (∃ fault, (Store.journal session).answer (.clone number (lowestFree infos) target) journal =
        (.error fault, ⟨journal.store, journal.log ++ [⟨session, none⟩]⟩) ∧
      fault.kind = .duplicateVariantNum ∧ journal.store.nameAt (lowestFree infos) ≠ none) ∨
    ∃ after, (Store.journal session).answer (.clone number (lowestFree infos) target) journal =
        (.ok (), after) ∧
      Underway session number targets left (infos ++ [⟨lowestFree infos, target⟩]) 0 earlier
        (since ++ [⟨session, some target⟩]) after := by
  have hanswer : (Store.journal session).answer (.clone number (lowestFree infos) target) journal =
      let applied := journal.store.apply (.clone number (lowestFree infos) target)
      (applied.1, ⟨applied.2, journal.log ++
        [⟨session, RegistryQuery.given? (.clone number (lowestFree infos) target) applied.1⟩]⟩) :=
    rfl
  rw [hanswer]
  rcases apply_clone_cases journal.store number (lowestFree infos) target with
    ⟨fault, hrefused, hkind, hreason⟩ | ⟨copied, _, hfree, _, hcloned⟩
  · have htaken : journal.store.nameAt (lowestFree infos) ≠ none := by
      rcases hreason with htaken | ⟨other, hknown⟩ | hmissing
      · exact htaken
      · exact absurd hknown (h.new target List.mem_cons_self other)
      · exact absurd hmissing h.source
    rw [hrefused]
    exact .inl ⟨fault, rfl, hkind.mpr htaken, htaken⟩
  · rw [hcloned]
    exact .inr ⟨_, rfl, h.cloned hnew hfree⟩

/-- During its call, others were granted as many clones as a session has attempts, and some of them
since the session itself was granted one. -/
structure Outpaced (session : Nat) (log : List Entry) : Prop where
  during : maxCloneAttempts ≤ (clonesBut session (callOf session log)).length
  since : ∃ since, since <:+ log ∧ clonesOf session since = [] ∧ clonesBut session since ≠ []

theorem Outpaced.append {log more : List Entry} (h : Outpaced session log)
    (hmore : Foreign session more) : Outpaced session (log ++ more) where
  during := by
    rw [callOf_append _ hmore]
    · exact h.during
    · intro hnil
      have hduring := h.during
      rw [hnil] at hduring
      cases hduring
  since := by
    obtain ⟨since, ⟨before, rfl⟩, hnone, hsome⟩ := h.since
    refine ⟨since ++ more, ⟨before, (List.append_assoc _ _ _).symm⟩, ?_, ?_⟩
    · rw [clonesOf_append, hnone, clonesOf_foreign hmore]
      rfl
    · rw [clonesBut_append]
      exact fun hnil => hsome (List.append_eq_nil_iff.mp hnil).1

/-- With the last attempt refused, a session is outpaced, unless there is no number left. -/
theorem Underway.outpaced
    (h : Underway session number targets left infos (maxCloneAttempts - 1) earlier since journal)
    (htaken : journal.store.nameAt (lowestFree infos) ≠ none) :
    Outpaced session (journal.log ++ [⟨session, none⟩]) ∨ journal.Full := by
  obtain ⟨before, first, rest, hlog, hbefore, hearlier, hfirst⟩ := h.log_eq
  rcases h.charged with hcharged | hfull
  case inr => exact .inr hfull
  rcases h.conflict htaken with hsince | hfull
  case inr => exact .inr hfull
  refine .inl ⟨?_, since ++ [⟨session, none⟩], ⟨before ++ earlier, ?_⟩, ?_, ?_⟩
  · have hcall : first :: (rest ++ since ++ [⟨session, none⟩]) =
        earlier ++ since ++ [⟨session, none⟩] := by
      rw [hearlier, List.cons_append, List.cons_append]
    rw [hlog, List.append_assoc, ← hcall, callOf_eq hbefore hfirst rfl hcall, hcall,
      clonesBut_append, clonesBut_append, clonesBut_own, List.append_nil, List.length_append]
    have hlast := List.length_pos_iff.mpr hsince
    omega
  · rw [hlog, List.append_assoc, List.append_assoc, List.append_assoc]
  · rw [clonesOf_append, h.ungranted (by decide), clonesOf_own]
    rfl
  · rw [clonesBut_append, clonesBut_own, List.append_nil]
    exact hsince

/-- Whoever was granted the last clone was not outpaced, so not all sessions were. -/
theorem exists_not_outpaced {count : Nat} {log : List Entry} (hcount : 0 < count)
    (hentries : ∀ entry ∈ log, entry.session < count) :
    ∃ session < count, ¬Outpaced session log := by
  by_cases hgranted : clonesOfAll log = []
  · refine ⟨0, hcount, fun houtpaced => ?_⟩
    obtain ⟨since, hsince, _, hsome⟩ := houtpaced.since
    exact hsome (clonesBut_eq_nil hgranted hsince)
  · obtain ⟨entry, hentry, hlast⟩ := exists_last_granted hgranted
    refine ⟨entry.session, hentries entry hentry, fun houtpaced => ?_⟩
    obtain ⟨since, hsince, hnone, hsome⟩ := houtpaced.since
    exact hsome (hlast since hsince hnone)

/-- How a call ends: it is finished, or it has made the targets before one for which it was
outpaced, unless there is no number left. -/
inductive Ended {α : Type} (session : Nat) (targets : List String) (context : Context)
    (finished : α → Journal → Prop) : Except Fault α × Context → Journal → Prop
  | finished {value : α} {journal : Journal} (h : finished value journal) :
    Ended session targets context finished (.ok value, context) journal
  | outpaced {target : String} {rest : List String} {journal : Journal}
      (htargets : targets = clonesOf session journal.log ++ target :: rest)
      (houtpaced : Outpaced session journal.log ∨ journal.Full) :
    Ended session targets context finished
      (.error (.cloneAttemptsExhausted target maxCloneAttempts), context) journal

/-- A session that has made all its targets. -/
def Made (session : Nat) (targets : List String) (journal : Journal) : Prop :=
  clonesOf session journal.log = targets

/-- How a call has ended is not altered by what others do. -/
theorem Ended.others {α : Type} {finished : α → Journal → Prop} {context : Context}
    {outcome : Except Fault α × Context}
    (h : Ended session targets context finished outcome journal)
    (hothers : Others session targets journal after)
    (hfinished : ∀ value, finished value journal → finished value after) :
    Ended session targets context finished outcome after := by
  obtain ⟨more, hmore, hlog⟩ := hothers.log_eq
  cases h with
  | finished h => exact .finished (hfinished _ h)
  | outpaced htargets houtpaced =>
    exact .outpaced (hothers.clonesOf_eq ▸ htargets)
      (houtpaced.imp (fun h => hlog ▸ h.append hmore) hothers.full)

end Journal

namespace Managing

open Dialogue Session VariantInfo Store Journal

variable {session : Nat} {source : String} {number : UInt32} {targets left : List String}
  {target : String} {infos : List VariantInfo} {conflicts attempts : Nat}
  {earlier since : List Entry} {journal : Journal} {context : Context}

/-- A dialogue of one session among those that clone to other names. -/
abbrev Amid {α : Type} (session : Nat) (targets : List String) (post : α → Journal → Prop)
    (d : Dialogue registryProtocol α) (journal : Journal) : Prop :=
  d.Among (Store.journal session) (Others session targets) (RegistryQuery.Adds targets) post journal

/-- A session that is underway, wherever it has read the list. -/
def Ready (session : Nat) (number : UInt32) (targets left : List String) (infos : List VariantInfo)
    (journal : Journal) : Prop :=
  ∃ earlier since, Underway session number targets left infos 0 earlier since journal

theorem among_cloneFree
    (h : Underway session number targets (target :: left) infos conflicts earlier since journal)
    (hnew : target ∉ left) (hattempts : attempts + 1 + conflicts = maxCloneAttempts) :
    Amid session targets
      (Ended session targets context fun pair => Ready session number targets left pair.2)
      ((cloneFree number target (attempts + 1) infos).start context) journal := by
  induction attempts generalizing infos conflicts earlier since journal with
  | zero =>
    rw [start_cloneFree]
    intro other hothers
    obtain ⟨more, _, hnow⟩ := h.others hothers
    refine ⟨hnow.next_mem, ?_⟩
    rcases hnow.clone_cases hnew with ⟨fault, hanswer, hkind, htaken⟩ | ⟨after, hanswer, hmade⟩
    · rw [hanswer]
      dsimp only
      rw [if_neg (not_not.mpr hkind), if_pos rfl]
      obtain rfl : conflicts = maxCloneAttempts - 1 := by omega
      have hmade :
          targets = clonesOf session (other.log ++ [⟨session, none⟩]) ++ target :: left := by
        rw [clonesOf_append, clonesOf_own, Option.toList_none, List.append_nil]
        exact hnow.made_eq
      exact .outpaced hmade (hnow.outpaced htaken)
    · rw [hanswer]
      exact .finished ⟨_, _, hmade⟩
  | succ attempts ih =>
    rw [start_cloneFree]
    intro other hothers
    obtain ⟨more, _, hnow⟩ := h.others hothers
    refine ⟨hnow.next_mem, ?_⟩
    rcases hnow.clone_cases hnew with ⟨fault, hanswer, hkind, htaken⟩ | ⟨after, hanswer, hmade⟩
    · rw [hanswer]
      dsimp only
      rw [if_neg (not_not.mpr hkind), if_neg (Nat.succ_ne_zero attempts)]
      intro later hlater
      obtain ⟨more', _, hlast⟩ := (hnow.refused).others hlater
      refine ⟨trivial, ih (hlast.relisted (conflicts + 1) ?_) (by omega)⟩
      rcases hnow.conflict htaken with hsince | hfull
      · refine hlast.charged.imp_left fun hcharged => ?_
        have hmore := List.length_pos_iff.mpr hsince
        simp only [clonesBut_append, List.length_append] at hmore ⊢
        omega
      · exact .inr (hlater.full hfull)
    · rw [hanswer]
      exact .finished ⟨_, _, hmade⟩

theorem among_cloneTarget
    (h : Ready session number targets (target :: left) infos journal) (hnew : target ∉ left) :
    Amid session targets (Ended session targets context (Ready session number targets left))
      ((cloneTarget source number false infos target).start context) journal := by
  obtain ⟨earlier, since, hunderway⟩ := h
  have hfind : find? target infos = none := find?_eq_none_iff.mpr fun info hinfo hname =>
    hunderway.new target List.mem_cons_self info.number (hname ▸ hunderway.listed info hinfo)
  rw [start_cloneTarget, hfind]
  have hattempts : maxCloneAttempts - 1 + 1 + 0 = maxCloneAttempts := rfl
  refine Among.bind ((among_cloneFree hunderway hnew hattempts).imp ?_)
  rintro _ _ (hready | ⟨htargets, houtpaced⟩)
  · exact .finished hready
  · exact .outpaced htargets houtpaced

theorem among_rounds (h : Ready session number targets left infos journal) (hnew : left.Nodup) :
    Amid session targets (Ended session targets context fun _ => Made session targets)
      ((left.foldlM (cloneTarget source number false) infos).start context) journal := by
  induction left generalizing infos journal with
  | nil =>
    obtain ⟨_, _, hunderway⟩ := h
    exact .finished (hunderway.made_eq.trans (List.append_nil _)).symm
  | cons target left ih =>
    obtain ⟨htarget, hleft⟩ := List.nodup_cons.mp hnew
    rw [start_rounds_cons]
    refine Among.bind ((among_cloneTarget h htarget).imp ?_)
    rintro _ _ (hready | ⟨htargets, houtpaced⟩)
    · exact ih hready hleft
    · exact .outpaced htargets houtpaced

/-- A session that has not asked for anything yet, and can make its targets from its source. -/
structure Idle (session : Nat) (source : String) (targets : List String) (journal : Journal) :
    Prop where
  foreign : Foreign session journal.log
  source : ∃ number, journal.store.nameAt number = some source
  new : ∀ name ∈ targets, ∀ number, journal.store.nameAt number ≠ some name

theorem Idle.others (h : Idle session source targets journal) {after : Journal}
    (hothers : Others session targets journal after) : Idle session source targets after := by
  induction hothers with
  | refl => exact h
  | tail _ hstep ih =>
    obtain ⟨entry, ⟨hgains, hlog⟩, hsession, hgiven⟩ := hstep
    constructor
    case foreign =>
      rw [hlog]
      exact ih.foreign.concat hsession
    case source => exact ih.source.imp fun _ => hgains.nameAt_eq
    case new =>
      intro name hname number hheld
      rcases hgains.nameAt_cases hheld with hold | hnew
      · exact ih.new name hname number hold
      · exact hgiven name hnew hname

/-- A session that has read its first list is ready. -/
theorem Idle.ready (h : Idle session source targets journal)
    (hnumber : numberOf source journal.store.infos = .ok number) :
    Ready session number targets targets journal.store.infos
      ⟨journal.store, journal.log ++ [⟨session, none⟩]⟩ := by
  refine ⟨[⟨session, none⟩], [], ?_⟩
  constructor
  case log_eq => exact ⟨journal.log, _, [], rfl, h.foreign, rfl, rfl⟩
  case made_eq =>
    rw [clonesOf_append, clonesOf_own, clonesOf_foreign h.foreign]
    rfl
  case source =>
    obtain ⟨network, hheld⟩ := (exact_infos journal.store).of_numberOf hnumber
    rw [nameAt_of_variant? hheld]
    nofun
  case new => exact h.new
  case listed => exact fun info hinfo => mem_infos_iff.mp hinfo
  case charged => exact .inl (Nat.zero_le _)
  case ungranted => exact fun _ => rfl
  case covered => exact fun _ _ hother => (exact_infos _).mem_numbers.mpr hother

/-- Among other sessions that clone to other names, a call that clones without overwriting makes its
targets, or those before one for which it was outpaced. -/
theorem among_clone (h : Idle session source targets journal) (htargets : targets ≠ [])
    (hnew : targets.Nodup) :
    Amid session targets (Ended session targets context fun _ => Made session targets)
      ((clone source targets false).start context) journal := by
  rw [start_clone, if_neg htargets]
  intro other hothers
  have hidle := h.others hothers
  refine ⟨trivial, ?_⟩
  have hanswer : (Store.journal session).answer (.list false) other =
    (.ok other.store.infos, ⟨other.store, other.log ++ [⟨session, none⟩]⟩) := rfl
  rw [hanswer]
  dsimp only
  cases hnumber : numberOf source other.store.infos with
  | error fault =>
    obtain ⟨held, hheld⟩ := hidle.source
    have hunknown := (numberOf_eq_error_iff.mp hnumber).1
    exact absurd hheld ((exact_infos other.store).of_find?_none hunknown held)
  | ok number =>
    refine Among.bind ((among_rounds (hidle.ready hnumber) hnew).imp ?_)
    rintro _ _ (hmade | ⟨hrest, houtpaced⟩)
    · exact .finished hmade
    · exact .outpaced hrest houtpaced

end Managing

end Switchyard
