import Switchyard.Proofs.Variant.Concourse
import Switchyard.Proofs.Variant.Progress
import Switchyard.Proofs.Variant.Refinement

/-!
Sessions that all clone at the same time.

Any number of sessions have each taken up a call that clones without overwriting, to names that are
new and that no two of them share. In whatever order their questions come, each session relies on
the others as the others rely on it (`Going`), so each makes its targets or is outpaced. A session
that was granted the last clone of all was not outpaced, so not all sessions fail
(`concurrent_clones_progress`).
-/

namespace Switchyard

open Dialogue Managing Journal

/-- A call that clones without overwriting, and the context that it is given. -/
structure CloneCall where
  source : String
  targets : List String
  context : Context := {}
  deriving DecidableEq, Repr

/-- What a session does on a call. -/
def CloneCall.start (call : CloneCall) : Dialogue registryProtocol (Except Fault Reply × Context) :=
  (Command.clone call.source call.targets false).session.start call.context

namespace Concourse

/-- A store, and sessions that have each just taken up a call. -/
def cloning (store : Store) (calls : List CloneCall) : Concourse where
  store := store
  sessions session :=
    match calls[session]? with
    | some call => call.start
    | none => .done (.ok .done, {})
  granted := []

/-- The concourse after some turns of sessions that are in the midst of something. -/
def proceed (now : Concourse) (turns : List Nat) : Concourse := now.run (turns.map .proceed)

/-- What the session asks whose turn it is, if it asks. -/
def entry? (now : Concourse) (session : Nat) : Option Entry :=
  match now.sessions session with
  | .ask query _ => some ⟨session, query.given? (now.store.answerRegistry query).1⟩
  | _ => none

/-- What is asked in some turns. -/
def log (now : Concourse) : List Nat → List Entry
  | [] => []
  | session :: turns => (now.entry? session).toList ++ (now.step (.proceed session)).log turns

/-! ### Every session relies on all others -/

/-- A session among others that has its call before it or behind it, or is in the midst of it. -/
abbrev OnCall (session : Nat) (call : CloneCall) :
    Dialogue registryProtocol (Except Fault Reply × Context) → Journal → Prop :=
  Amid session call.targets <| Ended session call.targets call.context fun reply journal =>
    reply = .done ∧ Made session call.targets journal

/-- All sessions are on their calls, nobody else asked for anything, and the variants are those that
there were at first and the clones that were granted. -/
structure Going (store : Store) (calls : List CloneCall) (now : Concourse) (log : List Entry) :
    Prop where
  sessions : ∀ session call, calls[session]? = some call →
    OnCall session call (now.sessions session) ⟨now.store, log⟩
  absent : ∀ session, calls[session]? = none → ∃ outcome, now.sessions session = .done outcome
  entries : ∀ entry ∈ log, entry.session < calls.length
  names : (now.store.infos.map (·.name)).Perm (store.infos.map (·.name) ++ clonesOfAll log)
  kept : ∀ number held, store.variant? number = some held → now.store.variant? number = some held

variable {store : Store} {calls : List CloneCall} {now : Concourse} {log : List Entry}

/-- Targets of different calls are different. -/
theorem not_mem_targets (hdistinct : (calls.flatMap (·.targets)).Nodup) {session other : Nat}
    {call call' : CloneCall} (hcall : calls[session]? = some call)
    (hother : calls[other]? = some call') (hne : session ≠ other) {name : String}
    (hname : name ∈ call.targets) : name ∉ call'.targets := by
  obtain ⟨hlt, rfl⟩ := List.getElem?_eq_some_iff.mp hcall
  obtain ⟨hlt', rfl⟩ := List.getElem?_eq_some_iff.mp hother
  have hdisjoint := List.pairwise_iff_getElem.mp (List.nodup_flatMap.mp hdistinct).2
  intro hname'
  rcases Nat.lt_or_gt_of_ne hne with hless | hless
  · exact hdisjoint _ _ hlt hlt' hless hname hname'
  · exact hdisjoint _ _ hlt' hlt hless hname' hname

theorem going_cloning (hsources : ∀ call ∈ calls, ∃ number, store.nameAt number = some call.source)
    (htargets : ∀ call ∈ calls, call.targets ≠ [])
    (hnew : ∀ name ∈ calls.flatMap (·.targets), ∀ number, store.nameAt number ≠ some name)
    (hdistinct : (calls.flatMap (·.targets)).Nodup) :
    Going store calls (cloning store calls) [] where
  sessions session call hcall := by
    have hmem := List.mem_of_getElem? hcall
    have hidle : Idle session call.source call.targets ⟨store, []⟩ :=
      ⟨nofun, hsources call hmem, fun name hname =>
        hnew name (List.mem_flatMap.mpr ⟨_, hmem, hname⟩)⟩
    have howned := (List.nodup_flatMap.mp hdistinct).1 call hmem
    rw [show (cloning store calls).sessions session = call.start by simp only [cloning, hcall],
      CloneCall.start, Command.session, Session.start_map]
    refine Among.bind ((among_clone hidle (htargets call hmem) howned).imp ?_)
    rintro _ _ (hmade | ⟨hrest, houtpaced⟩)
    · exact .finished ⟨rfl, hmade⟩
    · exact .outpaced hrest houtpaced
  absent session hnone := ⟨(.ok .done, {}), by simp only [cloning, hnone]⟩
  entries := nofun
  names := .of_eq (List.append_nil _).symm
  kept _ _ hheld := hheld

/-- A turn of a session with a call is none of those without. -/
theorem Going.absent_onward (h : Going store calls now log) {session other : Nat} {call : CloneCall}
    (hcall : calls[session]? = some call)
    (rest : Dialogue registryProtocol (Except Fault Reply × Context))
    (hnone : calls[other]? = none) :
    ∃ outcome, (now.onward session rest).sessions other = .done outcome := by
  change ∃ outcome, (if other = session then rest else now.sessions other) = _
  rw [if_neg]
  · exact h.absent other hnone
  · rintro rfl
    cases hcall.symm.trans hnone

theorem Going.onward (h : Going store calls now log) {session : Nat} {call : CloneCall}
    (hcall : calls[session]? = some call)
    {rest : Dialogue registryProtocol (Except Fault Reply × Context)}
    (hrest : OnCall session call rest ⟨now.store, log⟩) :
    Going store calls (now.onward session rest) log where
  sessions other call' hother := by
    change OnCall other call' (if other = session then rest else now.sessions other) _
    split
    case isTrue hsame =>
      subst hsame
      cases hcall.symm.trans hother
      exact hrest
    case isFalse => exact h.sessions other call' hother
  absent _ hnone := h.absent_onward hcall rest hnone
  entries := h.entries
  names := h.names
  kept := h.kept

theorem Going.answered (h : Going store calls now log)
    (hdistinct : (calls.flatMap (·.targets)).Nodup) {session : Nat} {call : CloneCall}
    (hcall : calls[session]? = some call) {query : RegistryQuery} (hmay : query.Adds call.targets)
    {rest : Dialogue registryProtocol (Except Fault Reply × Context)}
    (hrest : OnCall session call rest
      ((Store.journal session).answer query ⟨now.store, log⟩).2) :
    Going store calls ((now.answered query).onward session rest)
      (log ++ [⟨session, query.given? (now.store.answerRegistry query).1⟩]) := by
  have hgains := Store.gains_answerRegistry now.store _ hmay.ne_delete
  constructor
  case sessions =>
    intro other call' hother
    change OnCall other call' (if other = session then rest else now.sessions other) _
    split
    case isTrue hsame =>
      subst hsame
      cases hcall.symm.trans hother
      exact hrest
    case isFalse hne =>
      have hothers : Others other call'.targets ⟨now.store, log⟩
          ((Store.journal session).answer query ⟨now.store, log⟩).2 :=
        .single ⟨_, ⟨hgains, rfl⟩, Ne.symm hne, fun name hname =>
          not_mem_targets hdistinct hcall hother (Ne.symm hne) (hmay.mem_of_given hname)⟩
      refine (h.sessions other call' hother).of_rely Relation.ReflTransGen.trans ?_ hothers
      exact fun hothers hended => hended.others hothers fun _ ⟨hreply, hmade⟩ =>
        ⟨hreply, hothers.clonesOf_eq.trans hmade⟩
  case absent => exact fun other hnone => h.absent_onward hcall rest hnone
  case entries =>
    intro entry hentry
    rcases List.mem_append.mp hentry with hold | hnew
    · exact h.entries entry hold
    · rw [List.mem_singleton.mp hnew]
      exact (List.getElem?_eq_some_iff.mp hcall).1
  case names =>
    refine hgains.names_perm.trans ((h.names.append_right _).trans (.of_eq ?_))
    rw [List.append_assoc, clonesOfAll_concat]
  case kept => exact fun number held hheld => hgains.variant?_eq (h.kept number held hheld)

theorem Going.step (h : Going store calls now log) (hdistinct : (calls.flatMap (·.targets)).Nodup)
    (session : Nat) :
    Going store calls (now.step (.proceed session)) (log ++ (now.entry? session).toList) := by
  cases hcall : calls[session]? with
  | none =>
    obtain ⟨outcome, hrest⟩ := h.absent session hcall
    simp only [Concourse.step, Concourse.entry?, hrest, Option.toList_none, List.append_nil]
    exact h
  | some call =>
  have hon := h.sessions session call hcall
  rcases hrest : now.sessions session with outcome | ⟨event, rest⟩ | ⟨query, next⟩ <;>
    simp only [Concourse.step, Concourse.entry?, hrest, Option.toList_none, List.append_nil] <;>
    rw [hrest] at hon
  · exact h
  · exact h.onward hcall hon
  · obtain ⟨hmay, hnext⟩ := hon _ .refl
    exact h.answered hdistinct hcall hmay hnext

theorem Going.proceed (h : Going store calls now log)
    (hdistinct : (calls.flatMap (·.targets)).Nodup) (turns : List Nat) :
    Going store calls (now.proceed turns) (log ++ now.log turns) := by
  induction turns generalizing now log with
  | nil => rwa [Concourse.log, List.append_nil]
  | cons session turns ih =>
    rw [Concourse.log, ← List.append_assoc]
    exact ih (h.step hdistinct session)

/-- A call that has returned while numbers are left has made its targets, or was outpaced. -/
theorem Going.returned (h : Going store calls now log)
    (hleft : ¬(⟨now.store, log⟩ : Journal).Full) {session : Nat} {call : CloneCall}
    (hcall : calls[session]? = some call) {outcome : Except Fault Reply × Context}
    (houtcome : now.sessions session = .done outcome) :
    (outcome = (.ok .done, call.context) ∧ clonesOf session log = call.targets) ∨
      ∃ target rest,
        outcome = (.error (.cloneAttemptsExhausted target maxCloneAttempts), call.context) ∧
        call.targets = clonesOf session log ++ target :: rest ∧ Outpaced session log := by
  have hon := h.sessions session call hcall
  rw [houtcome] at hon
  rcases hon with ⟨rfl, hmade⟩ | ⟨hrest, houtpaced⟩
  · exact .inl ⟨rfl, hmade⟩
  · exact .inr ⟨_, _, rfl, hrest, houtpaced.resolve_right hleft⟩

/-- However the questions of any number of sessions come that each clone a variant to new names,
none of which two of them share, and as long as there are fewer variants than numbers: when all
calls have returned, each has made all its targets, or has failed for want of attempts at one of
them, after it made those before, and after others were granted during the call as many clones as
there are attempts. At least one has succeeded. The variants are those that there were, unchanged,
and the targets that were made. -/
theorem concurrent_clones_progress (store : Store) (calls : List CloneCall) (turns : List Nat)
    (hcalls : calls ≠ [])
    (hsources : ∀ call ∈ calls, ∃ number, store.nameAt number = some call.source)
    (htargets : ∀ call ∈ calls, call.targets ≠ [])
    (hnew : ∀ name ∈ calls.flatMap (·.targets), ∀ number, store.nameAt number ≠ some name)
    (hdistinct : (calls.flatMap (·.targets)).Nodup)
    (hdone : ∀ session < calls.length, ∃ outcome,
      ((cloning store calls).proceed turns).sessions session = .done outcome)
    (hroom : ((cloning store calls).proceed turns).store.variants.size < 2 ^ 32 - 1) :
    let last := (cloning store calls).proceed turns
    let log := (cloning store calls).log turns
    (∀ session call, calls[session]? = some call →
      (last.sessions session = .done (.ok .done, call.context) ∧
        clonesOf session log = call.targets) ∨
      ∃ fault target rest, last.sessions session = .done (.error fault, call.context) ∧
        fault = .cloneAttemptsExhausted target maxCloneAttempts ∧ fault.kind = .cloneFailed ∧
        call.targets = clonesOf session log ++ target :: rest ∧
        maxCloneAttempts ≤ (clonesBut session (callOf session log)).length) ∧
    (∃ session call, calls[session]? = some call ∧
      last.sessions session = .done (.ok .done, call.context)) ∧
    (last.store.infos.map (·.name)).Perm (store.infos.map (·.name) ++
      (List.range calls.length).flatMap fun session => clonesOf session log) ∧
    ∀ number held, store.variant? number = some held →
      last.store.variant? number = some held := by
  intro last log
  have h : Going store calls last log := by
    simpa using (going_cloning hsources htargets hnew hdistinct).proceed hdistinct turns
  have hleft : ¬(⟨last.store, log⟩ : Journal).Full := fun hfull => by
    obtain ⟨number, hnone⟩ := Alone.exists_nameAt_eq_none (hroom.trans (by decide))
    exact hfull number hnone
  refine ⟨fun session call hcall => ?_, ?_, ?_, h.kept⟩
  · obtain ⟨_, houtcome⟩ := hdone session (List.getElem?_eq_some_iff.mp hcall).1
    obtain ⟨rfl, hmade⟩ | ⟨target, rest, rfl, hrest, houtpaced⟩ :=
      h.returned hleft hcall houtcome
    · exact .inl ⟨houtcome, hmade⟩
    · exact .inr ⟨_, target, rest, houtcome, rfl, rfl, hrest, houtpaced.during⟩
  · obtain ⟨session, hsession, hnot⟩ :=
      exists_not_outpaced (List.length_pos_iff.mpr hcalls) h.entries
    have hcall := List.getElem?_eq_getElem hsession
    obtain ⟨_, houtcome⟩ := hdone session hsession
    obtain ⟨rfl, _⟩ | ⟨_, _, _, _, houtpaced⟩ := h.returned hleft hcall houtcome
    · exact ⟨session, _, hcall, houtcome⟩
    · exact absurd houtpaced hnot
  · exact h.names.trans ((clonesOfAll_perm h.entries).append_left _)

/-- One session makes three targets while another, whose list is old each time, tries to make one.
-/
def outpacing : List CloneCall :=
  [⟨initialVariantName, ["a", "b", "c"], {}⟩, ⟨initialVariantName, ["d"], {}⟩]

/-- Each time that the second session is about to clone, the first has just done so. -/
def outpacingTurns : List Nat := [0, 1, 0, 1, 1, 0, 0, 1, 1, 0, 0, 1, 0]

/-- The second session fails at its only target, for as many clones of the first as it has
attempts. -/
theorem concurrent_clones_progress_outpaced :
    let last := (cloning .new outpacing).proceed outpacingTurns
    let log := (cloning .new outpacing).log outpacingTurns
    (∃ fault target rest, last.sessions 1 = .done (.error fault, {}) ∧
      fault.kind = .cloneFailed ∧ ["d"] = clonesOf 1 log ++ target :: rest ∧
      maxCloneAttempts ≤ (clonesBut 1 (callOf 1 log)).length) ∧
    (last.store.infos.map (·.name)).Perm [initialVariantName, "a", "b", "c"] := by
  intro last log
  have hnew : ∀ name ∈ outpacing.flatMap (·.targets), ∀ number,
      Store.new.nameAt number ≠ some name := by
    intro name hname number hheld
    rw [Store.nameAt_new] at hheld
    split at hheld <;> cases hheld
    exact absurd hname (by decide)
  have hdone : ∀ session < outpacing.length, ∃ outcome, last.sessions session = .done outcome := by
    rintro (_ | _ | session) hsession
    · exact ⟨_, rfl⟩
    · exact ⟨_, rfl⟩
    · exact absurd hsession (by simp [outpacing])
  have hsource : ∀ call ∈ outpacing, ∃ number, Store.new.nameAt number = some call.source := by
    intro call hcall
    refine ⟨initialVariantNumber, ?_⟩
    revert call
    decide
  obtain ⟨hreturned, _, hnames, _⟩ := concurrent_clones_progress .new outpacing outpacingTurns
    nofun hsource (by decide) hnew (by decide) hdone (by decide +kernel)
  refine ⟨?_, hnames.trans (.of_eq rfl)⟩
  rcases hreturned 1 _ rfl with ⟨hok, _⟩ | ⟨fault, target, rest, hfailed, _, h⟩
  · cases hok
  · exact ⟨fault, target, rest, hfailed, h⟩

end Concourse

end Switchyard
